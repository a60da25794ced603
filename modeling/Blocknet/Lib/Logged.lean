import Mathlib.Data.List.Basic

/-!
# Computations that throw and keep a log

Code with side effects and exceptions: what it did before it threw stays done. `Logged ε σ α`
runs from the log so far to a result, a value or a thrown `ε`, and the log after it; a computation
that throws keeps the events it logged. The monad is written out, so each of its operations is one
equation (`bind_apply`, `tryCatch_apply`, ...) and `simp` runs a program on a symbolic log.
-/

namespace Blocknet.Lib

/-- A computation that may throw an `ε` and logs events of type `σ`. -/
def Logged (ε σ α : Type) : Type := List σ → Except ε α × List σ

namespace Logged

variable {ε ε' σ α β : Type}

instance : Monad (Logged ε σ) where
  pure a := fun log => (.ok a, log)
  bind x f := fun log =>
    match x log with
    | (.ok a, log') => f a log'
    | (.error e, log') => (.error e, log')

instance : MonadExceptOf ε (Logged ε σ) where
  throw e := fun log => (.error e, log)
  tryCatch x h := fun log =>
    match x log with
    | (.ok a, log') => (.ok a, log')
    | (.error e, log') => h e log'

/-- Appends an event to the log. -/
def emit (s : σ) : Logged ε σ Unit := fun log => (.ok (), log ++ [s])

/-- A computation that logs nothing, its errors mapped by `f`. -/
def ofExcept (f : ε' → ε) (r : Except ε' α) : Logged ε σ α := fun log =>
  match r with
  | .ok a => (.ok a, log)
  | .error e => (.error (f e), log)

@[simp] theorem pure_apply (a : α) (log : List σ) :
    (pure a : Logged ε σ α) log = (.ok a, log) := rfl

@[simp] theorem bind_apply (x : Logged ε σ α) (f : α → Logged ε σ β) (log : List σ) :
    (x >>= f) log = match x log with
      | (.ok a, log') => f a log'
      | (.error e, log') => (.error e, log') := rfl

@[simp] theorem throw_apply (e : ε) (log : List σ) :
    (throw e : Logged ε σ α) log = (.error e, log) := rfl

@[simp] theorem tryCatch_apply (x : Logged ε σ α) (h : ε → Logged ε σ α) (log : List σ) :
    (tryCatch x h) log = match x log with
      | (.ok a, log') => (.ok a, log')
      | (.error e, log') => h e log' := rfl

@[simp] theorem emit_apply (s : σ) (log : List σ) :
    (emit s : Logged ε σ Unit) log = (.ok (), log ++ [s]) := rfl

@[simp] theorem ofExcept_ok (f : ε' → ε) (a : α) (log : List σ) :
    (ofExcept f (.ok a) : Logged ε σ α) log = (.ok a, log) := rfl

@[simp] theorem ofExcept_error (f : ε' → ε) (e : ε') (log : List σ) :
    (ofExcept f (.error e) : Logged ε σ α) log = (.error (f e), log) := rfl

end Logged

end Blocknet.Lib

import Mathlib.Data.List.Basic

/-!
# Runs of machines that emit outputs

A machine answers each input with its next state and the outputs that step emitted; `runOutputs`
runs it over a list of inputs and collects the outputs in order. Two facts about such runs:

* every output of a run was emitted by one of its steps, from the state the run had reached
  before that input (`exists_of_mem_runOutputs`);
* an output that a step emits at most once, only on its way into a set of states that no step
  leaves and from which no step emits it, is emitted at most once in a whole run
  (`countP_runOutputs_le_one`).
-/

namespace Blocknet.Lib

variable {σ ι ο : Type} (step : σ → ι → σ × List ο)

/-- The final state and the outputs, in order, of a run over `inputs`. -/
def runOutputs : σ → List ι → σ × List ο
  | s, [] => (s, [])
  | s, i :: inputs =>
    let r := runOutputs (step s i).1 inputs
    (r.1, (step s i).2 ++ r.2)

@[simp] theorem runOutputs_nil (s : σ) : runOutputs step s [] = (s, []) := rfl

@[simp] theorem runOutputs_cons (s : σ) (i : ι) (inputs : List ι) :
    runOutputs step s (i :: inputs) =
      ((runOutputs step (step s i).1 inputs).1,
        (step s i).2 ++ (runOutputs step (step s i).1 inputs).2) := rfl

/-- An output of a run is one of the outputs of the step at some input, taken from the state
the run reached on the inputs before it. -/
theorem exists_of_mem_runOutputs {o : ο} :
    ∀ {s : σ} {inputs : List ι}, o ∈ (runOutputs step s inputs).2 →
      ∃ pre i post, inputs = pre ++ i :: post ∧ o ∈ (step (runOutputs step s pre).1 i).2
  | _, [], h => absurd h List.not_mem_nil
  | s, i :: inputs, h => by
    rcases List.mem_append.mp h with hi | hrest
    · exact ⟨[], i, inputs, rfl, hi⟩
    · obtain ⟨pre, j, post, rfl, hj⟩ := exists_of_mem_runOutputs hrest
      exact ⟨i :: pre, j, post, rfl, hj⟩

section Once

/-! ### Outputs emitted once

`Done` is a set of states no step leaves, `q` the outputs in question. -/

variable {step} (Done : σ → Prop) (q : ο → Bool)
  (closed : ∀ s i, Done s → Done (step s i).1)
  (silent : ∀ s i, Done s → (step s i).2.countP q = 0)

include closed silent in
/-- From a state in `Done`, a run emits no output `q`. -/
theorem countP_runOutputs_of_done :
    ∀ {s : σ} (inputs : List ι), Done s → (runOutputs step s inputs).2.countP q = 0
  | _, [], _ => rfl
  | s, i :: inputs, hs => by
    rw [runOutputs_cons, List.countP_append, silent s i hs,
      countP_runOutputs_of_done inputs (closed s i hs)]

include closed silent in
/-- A step that emits `q` at most once, and lands in `Done` when it does, makes a run that
emits `q` at most once. -/
theorem countP_runOutputs_le_one (once : ∀ s i, (step s i).2.countP q ≤ 1)
    (enters : ∀ s i, 0 < (step s i).2.countP q → Done (step s i).1) :
    ∀ (s : σ) (inputs : List ι), (runOutputs step s inputs).2.countP q ≤ 1
  | _, [] => by simp
  | s, i :: inputs => by
    rw [runOutputs_cons, List.countP_append]
    -- either this step emits nothing, or it emits once and the rest of the run starts in `Done`
    rcases Nat.eq_zero_or_pos ((step s i).2.countP q) with h0 | hpos
    · rw [h0, Nat.zero_add]
      exact countP_runOutputs_le_one once enters _ inputs
    · rw [countP_runOutputs_of_done Done q closed silent inputs (enters s i hpos)]
      exact once s i

end Once

end Blocknet.Lib

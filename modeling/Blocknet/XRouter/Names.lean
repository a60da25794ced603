import Blocknet.Primitives
import Blocknet.Lib.Split

/-!
# Service names and their namespaces (`xrouter/utils-misc.cpp`)

Model of `xrsplit`, `removeNamespace`, `pluginCommandKey` and `walletCommandKey`. A
`std::string` is its list of characters.

* `xrsplit` splits a name at a one-character delimiter with `boost::algorithm::split`
  (`List.splitOn`), and at a longer one with a loop that finds the first occurrence and erases up
  to its end (`Lib.splitLoop`); every part must match `^[a-zA-Z0-9_\-:\$]+$` (`isValidPart`).
  The class admits `:`, so `a:::b` splits at `::` as `a` and `:b`.
* `removeNamespace` splits at `xrdelimiter` (`::`). A name whose first part is `xr` or `xrs` loses
  that part; with more than two parts the rest is joined again, otherwise it is `parts[1]`. For
  the namespace alone there is no `parts[1]`: `std::vector::operator[]` reads past the end of the
  parts, which the model returns as the fault `outOfBounds 1`.

Results:
* `removeNamespace_eq_error`: `removeNamespace` reads past the end of the parts exactly on `xr`
  and `xrs`, the names `xrouterCall` cleans when a caller passes a bare namespace.
* `removeNamespace_eq_none`: it returns `false` exactly when a part is not valid;
  `removeNamespace_of_not_namespace`: a valid name outside the namespaces is returned unchanged.
* `removeNamespace_namespace`: a namespace, `::` and a name whose parts are valid give the name
  back, so `pluginCommandKey` and `walletCommandKey` are undone (`removeNamespace_pluginCommandKey`,
  `removeNamespace_walletCommandKey`), provided the key's own parts are valid: a wallet ending in
  `:` and a command starting with `:` meet in `::::`, which splits with an empty part.
-/

namespace Blocknet.XRouter

open Blocknet.Lib

/-- `xr`: the namespace of the SPV wallet commands. -/
def xr : List Char := ['x', 'r']

/-- `xrs`: the namespace of the services. -/
def xrs : List Char := ['x', 'r', 's']

/-- `xrdelimiter`. -/
def xrdelimiter : List Char := [':', ':']

/-- A character of the class `[a-zA-Z0-9_\-:\$]`. -/
def isServiceChar (c : Char) : Bool :=
  c.isAlphanum || c == '_' || c == '-' || c == ':' || c == '$'

/-- `std::regex_match(part, m, r)` for `r = ^[a-zA-Z0-9_\-:\$]+$`. -/
def isValidPart (part : List Char) : Bool := !part.isEmpty && part.all isServiceChar

/-- `xrsplit(fqService, del, vout)`: the parts, `none` where it returns `false`. The loop for a
longer delimiter never ends on an empty one; the model's fuel then runs out (`diverge`). -/
def xrsplit (fqService del : List Char) : Except Fault (Option (List (List Char))) :=
  let v := match del with
    | [c] => some (fqService.splitOn c)
    | _ => splitLoop del (fqService.length + 1) fqService
  match v with
  | none => .error .diverge
  | some v => .ok (if v.all isValidPart then some v else none)

/-- The loop of `removeNamespace` over the namespaces `xr` and `xrs`, on the parts of `service`:
the result where it returns `true`. -/
def dropNamespace (service : List Char) : List (List Char) → Except Fault (Option (List Char))
  | [] => .ok none
  | p0 :: rest =>
    if p0 ∈ [xr, xrs] then
      if (p0 :: rest).length > 2 then .ok (some (xrdelimiter.intercalate rest))
      -- `parts[1]`
      else match rest with
        | p1 :: _ => .ok (some p1)
        | [] => .error (.outOfBounds 1)
    else .ok (some service)

/-- `removeNamespace(service, result)`: the result where it returns `true`. -/
def removeNamespace (service : List Char) : Except Fault (Option (List Char)) := do
  match ← xrsplit service xrdelimiter with
  | none => pure none
  | some parts => dropNamespace service parts

/-- `pluginCommandKey(service)`. -/
def pluginCommandKey (service : List Char) : List Char := xrs ++ xrdelimiter ++ service

/-- `walletCommandKey(wallet, command, withNamespace)`. -/
def walletCommandKey (wallet command : List Char) (withNamespace : Bool) : List Char :=
  (if withNamespace then xr ++ xrdelimiter else []) ++ wallet ++ xrdelimiter ++ command

/-! ## Splitting at `::` -/

theorem xrdelimiter_ne_nil : xrdelimiter ≠ [] := List.cons_ne_nil _ _

/-- At `::` the loop always ends, with the parts of `splitAll`. -/
theorem xrsplit_xrdelimiter (s : List Char) :
    xrsplit s xrdelimiter =
      .ok (if (splitAll xrdelimiter s).all isValidPart then some (splitAll xrdelimiter s) else none) := by
  have hloop := splitLoop_eq_splitAll xrdelimiter_ne_nil (Nat.lt_add_one s.length)
  unfold xrsplit
  -- the delimiter has two characters, so the loop runs
  rw [show xrdelimiter = [':', ':'] from rfl] at hloop ⊢
  simp only
  rw [hloop]

theorem removeNamespace_eq (s : List Char) :
    removeNamespace s =
      if (splitAll xrdelimiter s).all isValidPart then dropNamespace s (splitAll xrdelimiter s)
      else .ok none := by
  unfold removeNamespace
  rw [xrsplit_xrdelimiter]
  split_ifs <;> rfl

/-- A namespace is split off the name after it. -/
theorem splitAll_namespace {ns : List Char} (hns : ns = xr ∨ ns = xrs) (s : List Char) :
    splitAll xrdelimiter (ns ++ xrdelimiter ++ s) = ns :: splitAll xrdelimiter s := by
  have hcolon : ':' ∉ ns := by rcases hns with rfl | rfl <;> decide
  exact splitAll_append_of_not_mem hcolon

theorem isValidPart_namespace {ns : List Char} (hns : ns = xr ∨ ns = xrs) :
    isValidPart ns = true := by
  rcases hns with rfl | rfl <;> rfl

/-! ## What `removeNamespace` returns -/

/-- The loop over the namespaces reads past the parts exactly when they are one namespace. -/
theorem dropNamespace_eq_error {s : List Char} {parts : List (List Char)} {e : Fault} :
    dropNamespace s parts = .error e ↔ (parts = [xr] ∨ parts = [xrs]) ∧ e = .outOfBounds 1 := by
  constructor
  · intro h
    match parts, h with
    | p0 :: rest, h =>
      simp only [dropNamespace] at h
      split_ifs at h with hns hlen
      match rest, h with
      | [], h =>
        cases h
        simp only [List.mem_cons, List.not_mem_nil, or_false] at hns
        rcases hns with rfl | rfl
        · exact ⟨.inl rfl, rfl⟩
        · exact ⟨.inr rfl, rfl⟩
  · rintro ⟨hparts | hparts, rfl⟩ <;> (subst hparts; rfl)

/-- `removeNamespace` reads past the end of the parts exactly on a bare namespace. -/
theorem removeNamespace_eq_error {s : List Char} {e : Fault} :
    removeNamespace s = .error e ↔ (s = xr ∨ s = xrs) ∧ e = .outOfBounds 1 := by
  rw [removeNamespace_eq]
  constructor
  · intro h
    split_ifs at h
    obtain ⟨hparts, rfl⟩ := dropNamespace_eq_error.mp h
    -- one part is the whole name
    have hs := intercalate_splitAll xrdelimiter_ne_nil s
    refine ⟨?_, rfl⟩
    rcases hparts with hp | hp
    · rw [hp, List.intercalate_singleton] at hs
      exact .inl hs.symm
    · rw [hp, List.intercalate_singleton] at hs
      exact .inr hs.symm
  · rintro ⟨hs | hs, rfl⟩
    · subst hs
      rfl
    · subst hs
      rfl

/-- The name `xr`: the namespace alone. -/
theorem removeNamespace_xr_reads_past_end : removeNamespace xr = .error (.outOfBounds 1) :=
  removeNamespace_eq_error.mpr ⟨.inl rfl, rfl⟩

/-- The loop over the namespaces returns a result, or faults, on any parts. -/
theorem dropNamespace_ne_none {s : List Char} :
    ∀ {parts : List (List Char)}, parts ≠ [] → dropNamespace s parts ≠ .ok none
  | p0 :: rest, _ => by
    simp only [dropNamespace]
    split_ifs
    · simp
    · cases rest with
      | nil => simp
      | cons p1 tail => simp
    · simp

/-- `removeNamespace` returns `false` exactly when a part of the name is not valid. -/
theorem removeNamespace_eq_none {s : List Char} :
    removeNamespace s = .ok none ↔ ∃ part ∈ splitAll xrdelimiter s, isValidPart part = false := by
  rw [removeNamespace_eq]
  by_cases hall : (splitAll xrdelimiter s).all isValidPart = true
  · rw [if_pos hall]
    constructor
    · intro h
      exact absurd h (dropNamespace_ne_none (splitAll_ne_nil xrdelimiter_ne_nil s))
    · rintro ⟨part, hpart, hbad⟩
      rw [List.all_eq_true.mp hall part hpart] at hbad
      cases hbad
  · rw [if_neg hall]
    simp only [List.all_eq_true, not_forall, Bool.not_eq_true] at hall
    obtain ⟨part, hpart, hbad⟩ := hall
    exact ⟨fun _ => ⟨part, hpart, hbad⟩, fun _ => rfl⟩

/-- A namespace, `::`, and a name whose parts are valid give the name back. -/
theorem removeNamespace_namespace {ns s : List Char} (hns : ns = xr ∨ ns = xrs)
    (hs : ∀ part ∈ splitAll xrdelimiter s, isValidPart part = true) :
    removeNamespace (ns ++ xrdelimiter ++ s) = .ok (some s) := by
  have hall : (ns :: splitAll xrdelimiter s).all isValidPart = true := by
    rw [List.all_cons, isValidPart_namespace hns, List.all_eq_true.mpr hs]
    rfl
  have hmem : ns ∈ [xr, xrs] := by rcases hns with rfl | rfl <;> simp
  have hjoin := intercalate_splitAll xrdelimiter_ne_nil s
  rw [removeNamespace_eq, splitAll_namespace hns, if_pos hall]
  simp only [dropNamespace]
  rw [if_pos hmem]
  split_ifs with hlen
  · rw [hjoin]
  · -- one part after the namespace: it is the whole name
    obtain ⟨p1, rest, hp⟩ := List.exists_cons_of_ne_nil (splitAll_ne_nil xrdelimiter_ne_nil s)
    have hrest : rest = [] := by
      rw [hp] at hlen
      simp only [List.length_cons, gt_iff_lt, not_lt] at hlen
      exact List.length_eq_zero_iff.mp (by omega)
    rw [hp, hrest, List.intercalate_singleton] at hjoin
    rw [hp, hjoin]

theorem removeNamespace_pluginCommandKey {service : List Char}
    (hs : ∀ part ∈ splitAll xrdelimiter service, isValidPart part = true) :
    removeNamespace (pluginCommandKey service) = .ok (some service) :=
  removeNamespace_namespace (.inr rfl) hs

theorem removeNamespace_walletCommandKey {wallet command : List Char}
    (hs : ∀ part ∈ splitAll xrdelimiter (walletCommandKey wallet command false),
      isValidPart part = true) :
    removeNamespace (walletCommandKey wallet command true) =
      .ok (some (walletCommandKey wallet command false)) := by
  have hkey : walletCommandKey wallet command true =
      xr ++ xrdelimiter ++ walletCommandKey wallet command false := by
    simp [walletCommandKey]
  rw [hkey]
  exact removeNamespace_namespace (.inl rfl) hs

/-- A wallet ending in `:` and a command starting with `:`: the key holds `::::`, which splits
with an empty part. -/
example : removeNamespace (walletCommandKey ['a', ':'] [':', 'b'] true) = .ok none := by rfl

/-- A valid name whose first part is not a namespace is returned unchanged. -/
theorem removeNamespace_of_not_namespace {s p0 : List Char} {rest : List (List Char)}
    (hparts : splitAll xrdelimiter s = p0 :: rest) (hp0 : p0 ≠ xr ∧ p0 ≠ xrs)
    (hs : ∀ part ∈ splitAll xrdelimiter s, isValidPart part = true) :
    removeNamespace s = .ok (some s) := by
  have hmem : p0 ∉ [xr, xrs] := by simp [hp0.1, hp0.2]
  rw [removeNamespace_eq, if_pos (List.all_eq_true.mpr hs), hparts]
  simp only [dropNamespace]
  rw [if_neg hmem]

end Blocknet.XRouter

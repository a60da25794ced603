import Mathlib.Data.List.Basic

/-!
# Splitting a list at a delimiter, one occurrence at a time

The loop `while (found != npos) { found = t.find(del); ... t.erase(0, found + del.size()); }`
cuts a string at the first occurrence of a delimiter, keeps the part before it, and goes on with
what follows. `findInfix` is `find`, `splitLoop` the loop with a fuel bound, and `splitAll` its
result with enough fuel.

For a delimiter of one element this is `List.splitOn`. For a longer one the parts are not simply
"the pieces that do not hold the delimiter": a part ending in the delimiter's first element can
meet the next occurrence, as `a:` before `::` in `a:::b`, which splits as `a` and `:b`. So the
results are stated through the first occurrence:

* the loop ends once it has more fuel than the input's length (`splitLoop_eq_splitAll`), and the
  parts joined by the delimiter are the input (`intercalate_splitAll`);
* the first part is what comes before the first occurrence (`splitAll_eq_cons`), so a prefix
  that holds no element equal to the delimiter's first is split off exactly
  (`splitAll_append_of_not_mem`).
-/

namespace Blocknet.Lib

variable {α : Type} [DecidableEq α]

/-- `std::string::find(del)`: the index of the first occurrence of `del` in `s`. -/
def findInfix (del s : List α) : Option Nat :=
  if del.isPrefixOf s then some 0
  else match s with
    | [] => none
    | _ :: s => (findInfix del s).map (· + 1)

/-- The loop, with `fuel` iterations at most: the parts between the occurrences of `del`,
`none` when the fuel runs out. -/
def splitLoop (del : List α) : Nat → List α → Option (List (List α))
  | 0, _ => none
  | fuel + 1, t =>
    match findInfix del t with
    | none => some [t]
    | some i => (t.take i :: ·) <$> splitLoop del fuel (t.drop (i + del.length))

/-- The parts of `t` between the occurrences of `del`, found one after the other. -/
def splitAll (del t : List α) : List (List α) := (splitLoop del (t.length + 1) t).getD [t]

/-! ## `find` -/

/-- An occurrence is found where the delimiter starts. -/
theorem isPrefixOf_drop_of_findInfix {del : List α} :
    ∀ {s : List α} {i : Nat}, findInfix del s = some i → del.isPrefixOf (s.drop i) = true ∧
      i ≤ s.length
  | s, i, h => by
    unfold findInfix at h
    by_cases hp : del.isPrefixOf s = true
    · rw [if_pos hp] at h
      cases h
      exact ⟨hp, Nat.zero_le _⟩
    · rw [if_neg hp] at h
      match s, h with
      | _ :: s, h =>
        obtain ⟨j, hj, rfl⟩ := Option.map_eq_some_iff.mp h
        obtain ⟨hpre, hle⟩ := isPrefixOf_drop_of_findInfix hj
        exact ⟨hpre, by simp only [List.length_cons]; omega⟩

/-- The text before an occurrence, the delimiter and the text after it make up the input. -/
theorem take_append_drop_of_findInfix {del s : List α} {i : Nat} (h : findInfix del s = some i) :
    s.take i ++ del ++ s.drop (i + del.length) = s := by
  obtain ⟨hpre, -⟩ := isPrefixOf_drop_of_findInfix h
  obtain ⟨rest, hrest⟩ := List.isPrefixOf_iff_prefix.mp hpre
  have hafter : s.drop (i + del.length) = rest := by
    rw [← List.drop_drop, ← hrest, List.drop_left]
  rw [hafter, List.append_assoc, hrest, List.take_append_drop]

/-- What follows an occurrence of a nonempty delimiter is shorter than the input. -/
theorem length_drop_lt_of_findInfix {del s : List α} {i : Nat} (hdel : del ≠ [])
    (h : findInfix del s = some i) : (s.drop (i + del.length)).length < s.length := by
  have hs := congrArg List.length (take_append_drop_of_findInfix h)
  have hpos : 0 < del.length := List.length_pos_iff.mpr hdel
  simp only [List.length_append] at hs
  omega

/-- Before a text that starts with the delimiter, a prefix holding no element equal to the
delimiter's first is passed over. -/
theorem findInfix_append_of_not_mem {d : α} {del pre rest : List α} (hpre : d ∉ pre)
    (hrest : (d :: del).isPrefixOf rest = true) :
    findInfix (d :: del) (pre ++ rest) = some pre.length := by
  induction pre with
  | nil =>
    unfold findInfix
    rw [List.nil_append, if_pos hrest, List.length_nil]
  | cons a pre ih =>
    have had : a ≠ d := fun h => hpre (h ▸ List.mem_cons_self)
    have hnot : (d :: del).isPrefixOf (a :: (pre ++ rest)) = false := by
      simp [List.isPrefixOf, had.symm]
    unfold findInfix
    rw [List.cons_append, hnot, if_neg Bool.false_ne_true]
    show (findInfix (d :: del) (pre ++ rest)).map (· + 1) = some (pre.length + 1)
    rw [ih (fun h => hpre (List.mem_cons_of_mem a h))]
    rfl

/-! ## The loop -/

theorem ne_nil_of_splitLoop {del : List α} :
    ∀ {fuel : Nat} {t : List α} {v : List (List α)}, splitLoop del fuel t = some v → v ≠ []
  | fuel + 1, t, v, h => by
    simp only [splitLoop] at h
    split at h
    · cases h
      exact List.cons_ne_nil _ _
    · obtain ⟨w, -, rfl⟩ := Option.map_eq_some_iff.mp h
      exact List.cons_ne_nil _ _

/-- What the loop returns, joined by the delimiter, is its input. -/
theorem intercalate_of_splitLoop {del : List α} :
    ∀ {fuel : Nat} {t : List α} {v : List (List α)}, splitLoop del fuel t = some v →
      del.intercalate v = t
  | fuel + 1, t, v, h => by
    simp only [splitLoop] at h
    split at h
    · cases h
      exact List.intercalate_singleton
    · rename_i i hi
      obtain ⟨w, hw, rfl⟩ := Option.map_eq_some_iff.mp h
      -- the rest is one part at least, so the delimiter stands between the first and the rest
      obtain ⟨p, ps, rfl⟩ := List.exists_cons_of_ne_nil (ne_nil_of_splitLoop hw)
      rw [List.intercalate_cons_cons, intercalate_of_splitLoop hw, take_append_drop_of_findInfix hi]

section Loop

variable {del : List α} (hdel : del ≠ [])

include hdel in
/-- With more fuel than the input's length the loop ends, and more fuel changes nothing. -/
theorem splitLoop_congr : ∀ {fuel fuel' : Nat} {t : List α}, t.length < fuel →
    t.length < fuel' → splitLoop del fuel t = splitLoop del fuel' t
  | fuel + 1, fuel' + 1, t, h, h' => by
    simp only [splitLoop]
    split
    · rfl
    · rename_i i hi
      -- the rest after the occurrence is shorter, so both loops have fuel left for it
      have hlt := length_drop_lt_of_findInfix hdel hi
      have hfuel : (t.drop (i + del.length)).length < fuel := by omega
      have hfuel' : (t.drop (i + del.length)).length < fuel' := by omega
      rw [splitLoop_congr hfuel hfuel']

include hdel in
theorem splitLoop_isSome : ∀ {fuel : Nat} {t : List α}, t.length < fuel →
    ∃ v, splitLoop del fuel t = some v
  | fuel + 1, t, h => by
    simp only [splitLoop]
    split
    · exact ⟨_, rfl⟩
    · rename_i i hi
      have hlt := length_drop_lt_of_findInfix hdel hi
      have hfuel : (t.drop (i + del.length)).length < fuel := by omega
      obtain ⟨v, hv⟩ := splitLoop_isSome hfuel
      exact ⟨_, by rw [hv]; rfl⟩

include hdel in
/-- The loop with enough fuel computes `splitAll`. -/
theorem splitLoop_eq_splitAll {fuel : Nat} {t : List α} (h : t.length < fuel) :
    splitLoop del fuel t = some (splitAll del t) := by
  obtain ⟨v, hv⟩ := splitLoop_isSome hdel (Nat.lt_succ_self t.length)
  unfold splitAll
  rw [splitLoop_congr hdel h (Nat.lt_succ_self t.length), hv]
  rfl

include hdel in
/-- The first part is the text before the first occurrence; the rest split what follows it. -/
theorem splitAll_eq_cons {t : List α} {i : Nat} (h : findInfix del t = some i) :
    splitAll del t = t.take i :: splitAll del (t.drop (i + del.length)) := by
  have hs := splitLoop_eq_splitAll hdel (Nat.lt_succ_self t.length)
  have hlt := length_drop_lt_of_findInfix hdel h
  simp only [splitLoop, h, splitLoop_eq_splitAll hdel (Nat.lt_of_lt_of_le hlt (Nat.le_refl _))] at hs
  exact (Option.some.inj hs).symm

include hdel in
theorem splitAll_ne_nil (t : List α) : splitAll del t ≠ [] :=
  ne_nil_of_splitLoop (splitLoop_eq_splitAll hdel (Nat.lt_succ_self t.length))

include hdel in
/-- The parts joined by the delimiter are the input. -/
theorem intercalate_splitAll (t : List α) : del.intercalate (splitAll del t) = t :=
  intercalate_of_splitLoop (splitLoop_eq_splitAll hdel (Nat.lt_succ_self t.length))

end Loop

/-- A prefix holding no element equal to the delimiter's first, followed by the delimiter, is
the first part. -/
theorem splitAll_append_of_not_mem {d : α} {del pre rest : List α} (hpre : d ∉ pre) :
    splitAll (d :: del) (pre ++ (d :: del) ++ rest) = pre :: splitAll (d :: del) rest := by
  have hf : findInfix (d :: del) (pre ++ ((d :: del) ++ rest)) = some pre.length :=
    findInfix_append_of_not_mem hpre (List.isPrefixOf_iff_prefix.mpr (List.prefix_append _ _))
  rw [List.append_assoc, splitAll_eq_cons (List.cons_ne_nil d del) hf, List.take_left,
    ← List.append_assoc, List.drop_left' (by simp)]

end Blocknet.Lib

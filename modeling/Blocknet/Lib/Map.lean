import Mathlib.Data.List.AList

/-!
# Finite maps, and loops of key-local updates

`Map K V` is Mathlib's `AList` with a constant value type. It stands for a C++ `std::map` or
`std::unordered_map`: `lookup` is `find`/`count`, `insert` is assignment through `operator[]`,
`erase` is `erase`, and a range-for visits `entries` in list order. The order in which an
`unordered_map` is visited is unspecified, so a model is faithful only where the loop's result
does not depend on it; the lemmas below are how that is shown.

A loop body often changes one key of a larger state and reads only that key and a part of the
state no iteration writes. `LocalOp view frame k op` says so of `op`, where `view s k` is what
the state holds at `k` and `frame s` the part that no update changes:

* `view_foldl_of_notMem`: a key no iteration names keeps its value;
* `view_foldl_of_mem`: over distinct keys, the key of one iteration ends as that iteration
  alone leaves it;
* `frame_foldl`: the frame is never changed.

So over distinct keys such a loop is the same map in any visiting order.

`modifyBack f v` is `v.back().f()` on a vector used as a stack.
-/

namespace Blocknet.Lib

/-- A finite map: an association list with distinct keys. -/
abbrev Map (K V : Type) := AList (fun _ : K => V)

section Ops

variable {K V : Type} [DecidableEq K]

/-- `m[k] = v` for `some v`, `m.erase(k)` for `none`. -/
def Map.setOpt (m : Map K V) (k : K) : Option V → Map K V
  | none => m.erase k
  | some v => m.insert k v

/-- `if (m.count(k)) f(m[k])`: the entry at `k` changed, if there is one. -/
def Map.modify (m : Map K V) (k : K) (f : V → V) : Map K V :=
  match m.lookup k with
  | none => m
  | some v => m.insert k (f v)

theorem Map.lookup_insert_eq_ite (m : Map K V) (k₀ k : K) (v : V) :
    (m.insert k₀ v).lookup k = if k = k₀ then some v else m.lookup k := by
  split_ifs with h
  · subst h; exact AList.lookup_insert m
  · exact AList.lookup_insert_ne h

theorem Map.lookup_erase_eq_ite (m : Map K V) (k₀ k : K) :
    (m.erase k₀).lookup k = if k = k₀ then none else m.lookup k := by
  split_ifs with h
  · subst h; exact AList.lookup_erase k m
  · exact AList.lookup_erase_ne h

@[simp] theorem Map.lookup_setOpt (m : Map K V) (k₀ k : K) (o : Option V) :
    (m.setOpt k₀ o).lookup k = if k = k₀ then o else m.lookup k := by
  cases o with
  | none => simp only [Map.setOpt, Map.lookup_erase_eq_ite]
  | some v => simp only [Map.setOpt, Map.lookup_insert_eq_ite]

@[simp] theorem Map.lookup_modify (m : Map K V) (k₀ k : K) (f : V → V) :
    (m.modify k₀ f).lookup k = if k = k₀ then (m.lookup k).map f else m.lookup k := by
  unfold Map.modify
  cases h : m.lookup k₀ with
  | none =>
    split_ifs with hk
    · subst hk; simp [h]
    · rfl
  | some v =>
    simp only [Map.lookup_insert_eq_ite]
    split_ifs with hk
    · subst hk; simp [h]
    · rfl

/-- A value of the map is the value at some key. -/
theorem Map.mem_values {m : Map K V} {v : V} :
    v ∈ m.entries.map (·.2) ↔ ∃ k, m.lookup k = some v := by
  constructor
  · intro h
    obtain ⟨⟨k, v'⟩, he, rfl⟩ := List.mem_map.mp h
    exact ⟨k, AList.mem_lookup_iff.mpr he⟩
  · rintro ⟨k, hk⟩
    exact List.mem_map.mpr ⟨⟨k, v⟩, AList.mem_lookup_iff.mp hk, rfl⟩

/-- A lookup in a map that may be missing, as `operator[]` reads it: the empty map stands in. -/
@[simp] theorem Map.lookup_getD_empty (o : Option (Map K V)) (k : K) :
    (o.getD ∅).lookup k = o.bind (·.lookup k) := by
  cases o with
  | none => rfl
  | some m => rfl

/-- A loop of insertions holds a key when it inserts it or the key was there before. -/
theorem Map.isSome_lookup_foldl_insert {β : Type} (key : β → K) (val : β → V) (l : List β)
    (m : Map K V) (k : K) :
    ((l.foldl (fun m x => m.insert (key x) (val x)) m).lookup k).isSome ↔
      (∃ x ∈ l, key x = k) ∨ (m.lookup k).isSome := by
  induction l generalizing m with
  | nil => simp
  | cons x l ih =>
    rw [List.foldl_cons, ih, Map.lookup_insert_eq_ite]
    by_cases h : k = key x
    · simp [h]
    · simp only [h, if_false, List.mem_cons, exists_eq_or_imp, Ne.symm h, false_or]

end Ops

section Local

variable {σ K W F α : Type} (view : σ → K → W) (frame : σ → F)

/-- `op` changes only key `k`, keeps the frame, and what it leaves at `k` is determined by what
was at `k` and by the frame. -/
structure LocalOp (k : K) (op : σ → σ) : Prop where
  other : ∀ s k', k' ≠ k → view (op s) k' = view s k'
  keep : ∀ s, frame (op s) = frame s
  congr : ∀ s t, view s k = view t k → frame s = frame t → view (op s) k = view (op t) k

variable {view frame}

/-- The identity is local to every key. -/
theorem LocalOp.id (k : K) : LocalOp view frame k (fun s => s) :=
  ⟨fun _ _ _ => rfl, fun _ => rfl, fun _ _ h _ => h⟩

/-- A choice between two local updates, made on what is at the key and in the frame. -/
theorem LocalOp.cond {k : K} {op₁ op₂ : σ → σ} (h₁ : LocalOp view frame k op₁)
    (h₂ : LocalOp view frame k op₂) (c : σ → Prop) [DecidablePred c]
    (hc : ∀ s t, view s k = view t k → frame s = frame t → (c s ↔ c t)) :
    LocalOp view frame k (fun s => if c s then op₁ s else op₂ s) := by
  refine ⟨fun s k' hk => ?_, fun s => ?_, fun s t hv hf => ?_⟩
  · by_cases h1 : c s
    · simp only [if_pos h1]; exact h₁.other s k' hk
    · simp only [if_neg h1]; exact h₂.other s k' hk
  · by_cases h1 : c s
    · simp only [if_pos h1]; exact h₁.keep s
    · simp only [if_neg h1]; exact h₂.keep s
  · by_cases h1 : c s
    · have h2 : c t := (hc s t hv hf).mp h1
      simp only [if_pos h1, if_pos h2]
      exact h₁.congr s t hv hf
    · have h2 : ¬ c t := fun h2 => h1 ((hc s t hv hf).mpr h2)
      simp only [if_neg h1, if_neg h2]
      exact h₂.congr s t hv hf

variable (key : α → K) (f : α → σ → σ) {l : List α}

/-- No iteration changes the frame. -/
theorem frame_foldl (hl : ∀ x ∈ l, LocalOp view frame (key x) (f x)) (s : σ) :
    frame (l.foldl (fun s x => f x s) s) = frame s := by
  induction l generalizing s with
  | nil => rfl
  | cons x l ih =>
    rw [List.foldl_cons, ih (fun y hy => hl y (List.mem_cons_of_mem x hy))]
    exact (hl x List.mem_cons_self).keep s

/-- A key that no iteration names keeps its value. -/
theorem view_foldl_of_notMem (hl : ∀ x ∈ l, LocalOp view frame (key x) (f x)) (s : σ) {k : K}
    (hk : k ∉ l.map key) : view (l.foldl (fun s x => f x s) s) k = view s k := by
  induction l generalizing s with
  | nil => rfl
  | cons x l ih =>
    simp only [List.map_cons, List.mem_cons, not_or] at hk
    rw [List.foldl_cons, ih (fun y hy => hl y (List.mem_cons_of_mem x hy)) _ hk.2]
    exact (hl x List.mem_cons_self).other s k hk.1

/-- Over distinct keys, the key of one iteration ends as that iteration alone leaves it. -/
theorem view_foldl_of_mem (hl : ∀ x ∈ l, LocalOp view frame (key x) (f x))
    (hd : (l.map key).Nodup) (s : σ) {x : α} (hx : x ∈ l) :
    view (l.foldl (fun s x => f x s) s) (key x) = view (f x s) (key x) := by
  induction l generalizing s with
  | nil => exact absurd hx List.not_mem_nil
  | cons y l ih =>
    have hl' : ∀ z ∈ l, LocalOp view frame (key z) (f z) :=
      fun z hz => hl z (List.mem_cons_of_mem y hz)
    simp only [List.map_cons, List.nodup_cons] at hd
    rw [List.foldl_cons]
    rcases List.mem_cons.mp hx with rfl | hx
    · -- the named iteration is first: the rest never touch its key
      exact view_foldl_of_notMem key f hl' _ hd.1
    · -- an earlier iteration at another key leaves both the key and the frame as they were
      have hne : key x ≠ key y := fun he => hd.1 (he ▸ List.mem_map_of_mem hx)
      rw [ih hl' hd.2 _ hx]
      exact (hl x (List.mem_cons_of_mem y hx)).congr _ _
        ((hl y List.mem_cons_self).other s _ hne) ((hl y List.mem_cons_self).keep s)

/-- A loop whose iteration depends on its key alone and, at that key, changes nothing when run a
second time (keys may repeat): a key ends as one iteration leaves it if the loop names it, and
as it was otherwise. -/
theorem view_foldl_idem [DecidableEq K] (op : K → σ → σ) (hl : ∀ x ∈ l, LocalOp view frame (key x) (op (key x)))
    (hidem : ∀ x ∈ l, ∀ s, view (op (key x) (op (key x) s)) (key x) = view (op (key x) s) (key x))
    (s : σ) (k : K) :
    view (l.foldl (fun s x => op (key x) s) s) k =
      if k ∈ l.map key then view (op k s) k else view s k := by
  induction l generalizing s with
  | nil => simp
  | cons x l ih =>
    have hl' : ∀ y ∈ l, LocalOp view frame (key y) (op (key y)) :=
      fun y hy => hl y (List.mem_cons_of_mem x hy)
    have hidem' : ∀ y ∈ l, ∀ s, view (op (key y) (op (key y) s)) (key y) = view (op (key y) s) (key y) :=
      fun y hy => hidem y (List.mem_cons_of_mem x hy)
    have hx := hl x List.mem_cons_self
    rw [List.foldl_cons, ih hl' hidem']
    by_cases hk : k ∈ l.map key
    · -- a later iteration names `k`: what the first one did there is undone or repeated
      obtain ⟨y, hy, rfl⟩ := List.mem_map.mp hk
      have hmem : key y ∈ (x :: l).map key := List.mem_map_of_mem (List.mem_cons_of_mem x hy)
      rw [if_pos hk, if_pos hmem]
      by_cases hxy : key x = key y
      · rw [← hxy]
        exact hidem x List.mem_cons_self s
      · exact (hl' y hy).congr _ _ (hx.other s _ (Ne.symm hxy)) (hx.keep s)
    · rw [if_neg hk]
      by_cases hxk : key x = k
      · subst hxk
        rw [if_pos (List.mem_map_of_mem List.mem_cons_self)]
      · have hk' : k ∉ (x :: l).map key := by
          simp only [List.map_cons, List.mem_cons, not_or]
          exact ⟨Ne.symm hxk, hk⟩
        rw [if_neg hk']
        exact hx.other s k (Ne.symm hxk)

end Local

/-! ## Vectors used as stacks -/

section Stack

variable {α : Type}

/-- `v.back().f()` on a vector: the last element changed, an empty vector left as it is. -/
def modifyBack (f : α → α) (l : List α) : List α :=
  match l.getLast? with
  | none => l
  | some x => l.dropLast ++ [f x]

@[simp] theorem getLast?_modifyBack (f : α → α) (l : List α) :
    (modifyBack f l).getLast? = l.getLast?.map f := by
  unfold modifyBack
  cases h : l.getLast? with
  | none => simp [h]
  | some x => simp

@[simp] theorem dropLast_modifyBack (f : α → α) (l : List α) :
    (modifyBack f l).dropLast = l.dropLast := by
  unfold modifyBack
  cases l.getLast? with
  | none => rfl
  | some x => simp

@[simp] theorem modifyBack_eq_nil (f : α → α) (l : List α) : modifyBack f l = [] ↔ l = [] := by
  unfold modifyBack
  cases h : l.getLast? with
  | none => simp
  | some x =>
    have : l ≠ [] := by rintro rfl; simp at h
    simp [this]

/-- An element after the change is an element before it, or the change of one. -/
theorem mem_modifyBack {f : α → α} {l : List α} {y : α} (h : y ∈ modifyBack f l) :
    y ∈ l ∨ ∃ x ∈ l, y = f x := by
  unfold modifyBack at h
  cases hl : l.getLast? with
  | none => rw [hl] at h; exact .inl h
  | some x =>
    rw [hl] at h
    rcases List.mem_append.mp h with h | h
    · exact .inl (List.dropLast_subset _ h)
    · exact .inr ⟨x, List.mem_of_getLast? hl, List.mem_singleton.mp h⟩

/-- A change that fixes the last element changes nothing. -/
theorem modifyBack_of_fixed (f : α → α) {l : List α} (h : ∀ x ∈ l.getLast?, f x = x) :
    modifyBack f l = l := by
  unfold modifyBack
  cases hl : l.getLast? with
  | none => rfl
  | some x =>
    dsimp only
    rw [h x hl]
    exact List.dropLast_append_getLast? x hl

/-- Changing the last element twice by an idempotent function changes it once. -/
theorem modifyBack_idem (f : α → α) (hf : ∀ x, f (f x) = f x) (l : List α) :
    modifyBack f (modifyBack f l) = modifyBack f l := by
  unfold modifyBack
  cases h : l.getLast? with
  | none => simp [h]
  | some x => simp [hf]

end Stack

/-! ## Keys of a list -/

section Keys

variable {α β γ : Type}

/-- A partial map that keeps the key of what it keeps keeps distinct keys distinct. -/
theorem nodup_map_filterMap {f : α → Option β} {key : α → γ} {key' : β → γ} {l : List α}
    (hf : ∀ a b, f a = some b → key' b = key a) (h : (l.map key).Nodup) :
    ((l.filterMap f).map key').Nodup := by
  induction l with
  | nil => simp
  | cons a l ih =>
    rw [List.map_cons, List.nodup_cons] at h
    rw [List.filterMap_cons]
    cases hfa : f a with
    | none => exact ih h.2
    | some b =>
      rw [List.map_cons, List.nodup_cons]
      refine ⟨fun hb => h.1 ?_, ih h.2⟩
      -- a later element with the key of `b` has the key of an element of `l`
      obtain ⟨c, hc, hcb⟩ := List.mem_map.mp hb
      obtain ⟨a', ha', hfa'⟩ := List.mem_filterMap.mp hc
      rw [← hf a b hfa, ← hcb, hf a' c hfa']
      exact List.mem_map_of_mem ha'

end Keys

end Blocknet.Lib

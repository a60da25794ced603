import Mathlib.Data.List.Basic

/-!
# Prefix codes

An encoder into lists is a prefix code on the values of a predicate when an encoding splits off
the front of any longer list: `enc a ++ r = enc b ++ s` gives `a = b` and `r = s`. A
serialization that concatenates the encodings of its fields, each a prefix code, is injective as a
whole; that is how a hash of the serialization commits to the fields.

* `PrefixCode.of_decode`: a decoder that reads every encoding back, with what follows it, makes a
  prefix code; `PrefixCode.of_length`: so does an injective encoder of fixed width.
* `PrefixCode.append`, `PrefixCode.const_append`, `PrefixCode.comp`: an encoding followed by
  another, after a fixed prefix, or of a part of the value that determines the rest.
* `PrefixCode.flatten_mapIdx`, `PrefixCode.flatten_map`: the encodings of the elements of lists of
  one length, one after another, the `i`-th element by its own code.
-/

namespace Blocknet.Lib

variable {α γ β ε : Type}

theorem map_mapIdx (f : Nat → α → γ) (g : γ → β) (l : List α) :
    (l.mapIdx f).map g = l.mapIdx fun i a => g (f i a) := by
  rw [eq_comm, List.mapIdx_eq_iff]
  intro i
  simp [List.getElem?_mapIdx, Function.comp_def]

/-- `enc` is a prefix code on the values that satisfy `P`. -/
def PrefixCode (P : α → Prop) (enc : α → List β) : Prop :=
  ∀ ⦃a b : α⦄ ⦃r s : List β⦄, P a → P b → enc a ++ r = enc b ++ s → a = b ∧ r = s

namespace PrefixCode

variable {P : α → Prop} {enc : α → List β}

theorem injective (h : PrefixCode P enc) {a b : α} (ha : P a) (hb : P b) (he : enc a = enc b) :
    a = b :=
  (h ha hb (by rw [List.append_nil, List.append_nil, he])).1

theorem congr (h : PrefixCode P enc) {enc' : α → List β} (he : ∀ a, enc a = enc' a) :
    PrefixCode P enc' := by
  intro a b r s ha hb h'
  rw [← he, ← he] at h'
  exact h ha hb h'

theorem mono (h : PrefixCode P enc) {Q : α → Prop} (hQ : ∀ a, Q a → P a) : PrefixCode Q enc :=
  fun _ _ _ _ ha hb he => h (hQ _ ha) (hQ _ hb) he

/-- A decoder that reads every encoding back, and leaves what follows it. -/
theorem of_decode (dec : List β → Except ε (α × List β))
    (hdec : ∀ a r, P a → dec (enc a ++ r) = .ok (a, r)) : PrefixCode P enc := by
  intro a b r s ha hb he
  have h := hdec a r ha
  rw [he, hdec b s hb, Except.ok.injEq, Prod.mk.injEq] at h
  exact ⟨h.1.symm, h.2.symm⟩

/-- An injective encoder whose encodings all have one length. -/
theorem of_length (k : Nat) (hk : ∀ a, P a → (enc a).length = k)
    (hinj : ∀ a b, P a → P b → enc a = enc b → a = b) : PrefixCode P enc := by
  intro a b r s ha hb he
  obtain ⟨h₁, h₂⟩ := List.append_inj he (by rw [hk a ha, hk b hb])
  exact ⟨hinj a b ha hb h₁, h₂⟩

theorem const_append (h : PrefixCode P enc) (c : List β) : PrefixCode P (fun a => c ++ enc a) := by
  intro a b r s ha hb he
  simp only [List.append_assoc] at he
  exact h ha hb (List.append_cancel_left he)

theorem append {Q : γ → Prop} {enc' : γ → List β} (h : PrefixCode P enc)
    (h' : PrefixCode Q enc') :
    PrefixCode (fun p : α × γ => P p.1 ∧ Q p.2) (fun p => enc p.1 ++ enc' p.2) := by
  rintro ⟨a, c⟩ ⟨b, d⟩ r s ⟨ha, hc⟩ ⟨hb, hd⟩ he
  simp only [List.append_assoc] at he
  obtain ⟨rfl, he'⟩ := h ha hb he
  obtain ⟨rfl, rfl⟩ := h' hc hd he'
  exact ⟨rfl, rfl⟩

/-- The code of a part `f a` of the value, where the part determines the value. -/
theorem comp {Q : γ → Prop} (h : PrefixCode P enc) (f : γ → α) (hf : ∀ c d, f c = f d → c = d)
    (hQ : ∀ c, Q c → P (f c)) : PrefixCode Q (fun c => enc (f c)) := by
  intro c d r s hc hd he
  obtain ⟨hcd, hrs⟩ := h (hQ c hc) (hQ d hd) he
  exact ⟨hf c d hcd, hrs⟩

/-- Lists of length `n`, the `i`-th element by the code `enc i`. -/
theorem flatten_mapIdx {enc : Nat → α → List β} (h : ∀ i, PrefixCode P (enc i)) (n : Nat) :
    PrefixCode (fun l : List α => l.length = n ∧ ∀ a ∈ l, P a)
      (fun l => (l.mapIdx enc).flatten) := by
  -- by induction on the length, the codes shifted by one index at each element
  induction n generalizing enc with
  | zero =>
    rintro l l' r s ⟨hl, -⟩ ⟨hl', -⟩ he
    rw [List.length_eq_zero_iff] at hl hl'
    subst hl hl'
    exact ⟨rfl, he⟩
  | succ n ih =>
    rintro (_ | ⟨a, l⟩) (_ | ⟨b, l'⟩) r s ⟨hl, hP⟩ ⟨hl', hP'⟩ he
    · simp at hl
    · simp at hl
    · simp at hl'
    simp only [List.mapIdx_cons, List.flatten_cons, List.append_assoc] at he
    obtain ⟨rfl, he'⟩ := h 0 (hP a List.mem_cons_self) (hP' b List.mem_cons_self) he
    obtain ⟨rfl, rfl⟩ := ih (fun i => h (i + 1))
      ⟨Nat.succ.inj hl, fun x hx => hP x (List.mem_cons_of_mem a hx)⟩
      ⟨Nat.succ.inj hl', fun x hx => hP' x (List.mem_cons_of_mem a hx)⟩ he'
    exact ⟨rfl, rfl⟩

/-- Lists of length `n`, each element by the code `enc`. -/
theorem flatten_map (h : PrefixCode P enc) (n : Nat) :
    PrefixCode (fun l : List α => l.length = n ∧ ∀ a ∈ l, P a) (fun l => (l.map enc).flatten) := by
  have hmap : ∀ l : List α, l.mapIdx (fun _ => enc) = l.map enc := by
    intro l
    rw [List.mapIdx_eq_iff]
    intro i
    simp
  intro l l' r s hl hl' he
  dsimp only at he
  rw [← hmap, ← hmap] at he
  exact flatten_mapIdx (fun _ => h) n hl hl' he

end PrefixCode

end Blocknet.Lib

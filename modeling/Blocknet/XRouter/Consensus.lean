import Mathlib.Data.List.Sort
import Blocknet.Primitives
import Blocknet.Lib.Map

/-!
# Picking the majority reply (`xrouter/xrouterapp.h`)

Model of `QueryMgr::mostCommonReply` with `QueryMgr::hasError`, and of the scoring that
`App::xrouterCall` (`xrouter/xrouterapp.cpp`) does with its result.

* The replies of a query are a `std::map<NodeAddr, std::string>`: a list of (node, reply) with
  distinct nodes. A reply is normalised (`norm`) to its compact JSON when it reads as an object;
  the JSON reader and writer, `hasError` and `Hash` are the functions of `ReplyOps`.
* The loop fills three maps by the hash of the normalised reply. Its counter is
  `counts[hash] = counts.count(hash) + 1`: `count` is `0` or `1`, so no counter passes `2`.
  C++11, the standard the node is built with, leaves open which side of that assignment is
  evaluated first (`lhsFirst`); with the left one first, `operator[]` has inserted the key with `0`
  before `count` looks, and every counter is `2`.
* `std::sort` leaves the order of equal counts open; the model sorts stably (`insertionSort`),
  from the key order in which a `std::map` is visited.

Results:
* `count_le_two`, `mostCommonReply_count_le_two`: no count, and so no result, passes `2`.
  `mostCommonReply_undercounts`: three nodes or more with one normalised reply are counted as two.
* `lookup_counts`: the loop's invariant, relating each counter to the number of nodes whose
  normalised reply has that hash: that number capped at `2`, or `2` when the left side is evaluated
  first. `mem_nodes`: the node set of a hash is the nodes whose normalised reply has it.
-/

namespace Blocknet.XRouter

open Blocknet.Lib

/-- What `mostCommonReply` calls out to. -/
structure ReplyOps where
  /-- `write_string(j, false)` of the reply read as a JSON object; `none` when `read_string`
  throws or reads something else. -/
  compact : String → Option String
  /-- `hasError(reply)`: the reply reads as an object whose `error` is not null. -/
  hasError : String → Bool
  /-- `Hash(result.begin(), result.end())`. -/
  hash : String → Uint256

/-- The normalised reply: its compact JSON when it reads as an object, else the reply. -/
def ReplyOps.norm (ops : ReplyOps) (r : String) : String := (ops.compact r).getD r

/-- The maps of the loop, by the hash of a normalised reply. -/
structure ReplyMaps where
  hashes : Map Uint256 String := ∅
  counts : Map Uint256 Nat := ∅
  nodes : Map Uint256 (List String) := ∅

/-- What `mostCommonReply` returns and sets. -/
structure Consensus where
  count : Nat
  reply : String
  replies : List (String × String)
  agree : List String
  diff : List String
  deriving DecidableEq, Repr

variable (ops : ReplyOps) (lhsFirst : Bool)

/-- One iteration of the loop over the replies. -/
def tallyReply (m : ReplyMaps) (item : String × String) : ReplyMaps :=
  let hash := ops.hash (ops.norm item.2)
  -- `counts.count(hash)`, after or before `counts[hash]` has inserted the key
  let seen := lhsFirst || (m.counts.lookup hash).isSome
  { hashes := m.hashes.insert hash item.2
    counts := m.counts.insert hash ((if seen then 1 else 0) + 1)
    nodes := m.nodes.insert hash (((m.nodes.lookup hash).getD []).insert item.1) }

/-- `std::vector<std::pair<uint256, int>> tmp(counts.begin(), counts.end())`: the counters in key
order. -/
def keyOrder (counts : Map Uint256 Nat) : List (Uint256 × Nat) :=
  (counts.entries.map fun e => (e.1, e.2)).insertionSort fun a b => a.1.toNat ≤ b.1.toNat

/-- `std::sort(tmp, a.second > b.second)`. -/
def sortByCount (tmp : List (Uint256 × Nat)) : List (Uint256 × Nat) :=
  tmp.insertionSort fun a b => b.2 ≤ a.2

/-- The second `std::sort`: replies without an error before those with one, then by count. -/
def sortByError (hashes : Map Uint256 String) (tmp : List (Uint256 × Nat)) :
    List (Uint256 × Nat) :=
  let err := fun (t : Uint256 × Nat) => ops.hasError ((hashes.lookup t.1).getD "")
  tmp.insertionSort fun a b => if err a = err b then b.2 ≤ a.2 else err b = true

/-- The counters in the order `mostCommonReply` leaves them: by count, and sorted again with
errors last when the first two tie and the first reply is an error. -/
def rankCounts (m : ReplyMaps) : List (Uint256 × Nat) :=
  let tmp := sortByCount (keyOrder m.counts)
  match tmp with
  | t0 :: t1 :: _ =>
    if t0.2 = t1.2 ∧ ops.hasError ((m.hashes.lookup t0.1).getD "") then sortByError ops m.hashes tmp
    else tmp
  | _ => tmp

/-- The loop that fills `diff`: the nodes of each counter after the first whose count is below the
first's. -/
def diffNodes (m : ReplyMaps) (top : Uint256 × Nat) (rest : List (Uint256 × Nat)) : List String :=
  rest.foldl (fun d t =>
    match m.nodes.lookup t.1 with
    | some ns => if t.2 ≥ top.2 then d else ns.foldl (fun d n => d.insert n) d
    | none => d) []

/-- `QueryMgr::mostCommonReply` on the replies of a query. With no replies it returns `0` and
sets nothing; the caller's outputs stay empty. -/
def mostCommonReply (R : List (String × String)) : Consensus :=
  if R = [] then ⟨0, "", [], [], []⟩
  else
    let m := R.foldl (tallyReply ops lhsFirst) {}
    let tmp := rankCounts ops m
    let top := tmp.headD (0, 0)
    -- with one counter there is nothing after the first, and `diff` stays empty
    ⟨top.2, (m.hashes.lookup top.1).getD "", R, (m.nodes.lookup top.1).getD [],
      diffNodes m top (tmp.drop 1)⟩

/-- The scores `xrouterCall` gives after a call: `-5` to each node of `diff`, and `c * 2` to each
node of `agree` that did not fail, when `c > 1`. -/
def consensusScores (r : Consensus) (failed : List String) : List (String × Int) :=
  r.diff.map (fun n => (n, -5)) ++
    if r.count > 1 then (r.agree.filter fun n => n ∉ failed).map fun n => (n, (r.count : Int) * 2)
    else []

/-! ## What the loop counts -/

/-- What the loop has recorded after the replies `R`: each counter is the number of replies whose
normalised form has its hash, capped at `2`, or `2` when the left side of the assignment is
evaluated first; the node set of a hash is the nodes of those replies. -/
structure Tallied (R : List (String × String)) (m : ReplyMaps) : Prop where
  counts : ∀ h, m.counts.lookup h =
    if R.countP (fun item => ops.hash (ops.norm item.2) = h) = 0 then none
    else some (if lhsFirst then 2 else min 2 (R.countP fun item => ops.hash (ops.norm item.2) = h))
  nodes : ∀ h a, a ∈ (m.nodes.lookup h).getD [] ↔ ∃ r, (a, r) ∈ R ∧ ops.hash (ops.norm r) = h
  hashes : ∀ h r, m.hashes.lookup h = some r → ∃ a, (a, r) ∈ R ∧ ops.hash (ops.norm r) = h
  hashes_isSome : ∀ h, R.countP (fun item => ops.hash (ops.norm item.2) = h) ≠ 0 →
    (m.hashes.lookup h).isSome

theorem Tallied.empty : Tallied ops lhsFirst [] {} where
  counts h := by simp
  nodes h a := by simp
  hashes h r hr := by simp at hr
  hashes_isSome h hn := by simp at hn

/-- One iteration counts one more reply of its hash, and adds its node to the hash's set. -/
theorem Tallied.tallyReply {P : List (String × String)} {m : ReplyMaps} (hm : Tallied ops lhsFirst P m)
    (item : String × String) : Tallied ops lhsFirst (P ++ [item]) (tallyReply ops lhsFirst m item) where
  counts h := by
    have hc := hm.counts h
    have hlook : (XRouter.tallyReply ops lhsFirst m item).counts.lookup h =
        if h = ops.hash (ops.norm item.2) then
          some ((if (lhsFirst || (m.counts.lookup h).isSome) then 1 else 0) + 1)
        else m.counts.lookup h := by
      simp only [XRouter.tallyReply, Map.lookup_insert_eq_ite]
      by_cases hh : h = ops.hash (ops.norm item.2)
      · rw [if_pos hh, if_pos hh, hh]
      · rw [if_neg hh, if_neg hh]
    have hcount : (P ++ [item]).countP (fun it => ops.hash (ops.norm it.2) = h) =
        P.countP (fun it => ops.hash (ops.norm it.2) = h) +
          if ops.hash (ops.norm item.2) = h then 1 else 0 := by
      simp [List.countP_append]
    rw [hlook, hcount]
    by_cases hh : h = ops.hash (ops.norm item.2)
    · -- the counter of this reply's hash: `1` the first time, `2` after
      rw [if_pos hh, if_pos hh.symm, hc]
      generalize P.countP (fun it => ops.hash (ops.norm it.2) = h) = n
      by_cases hn : n = 0
      · -- the first reply of its hash
        cases lhsFirst <;> simp [hn]
      · -- a later one: the counter is there
        cases lhsFirst
        · simp [hn]
          omega
        · simp [hn]
    · rw [if_neg hh, if_neg (Ne.symm hh), Nat.add_zero, hc]
  nodes h a := by
    have hn := hm.nodes h a
    simp only [XRouter.tallyReply, Map.lookup_insert_eq_ite, List.mem_append, List.mem_singleton]
    by_cases hh : h = ops.hash (ops.norm item.2)
    · subst hh
      rw [if_pos rfl, Option.getD_some, List.mem_insert_iff, hn]
      constructor
      · rintro (rfl | ⟨r, hr, hrh⟩)
        · exact ⟨item.2, .inr rfl, rfl⟩
        · exact ⟨r, .inl hr, hrh⟩
      · rintro ⟨r, hr | hr, hrh⟩
        · exact .inr ⟨r, hr, hrh⟩
        · cases hr
          exact .inl rfl
    · rw [if_neg hh, hn]
      constructor
      · rintro ⟨r, hr, hrh⟩
        exact ⟨r, .inl hr, hrh⟩
      · rintro ⟨r, hr | hr, hrh⟩
        · exact ⟨r, hr, hrh⟩
        · cases hr
          exact absurd hrh.symm hh
  hashes h r hr := by
    simp only [XRouter.tallyReply, Map.lookup_insert_eq_ite] at hr
    by_cases hh : h = ops.hash (ops.norm item.2)
    · rw [if_pos hh] at hr
      cases hr
      exact ⟨item.1, List.mem_append_right _ (List.mem_singleton_self _), hh.symm⟩
    · rw [if_neg hh] at hr
      obtain ⟨a, ha, hrh⟩ := hm.hashes h r hr
      exact ⟨a, List.mem_append_left _ ha, hrh⟩
  hashes_isSome h hn := by
    simp only [XRouter.tallyReply, Map.lookup_insert_eq_ite]
    by_cases hh : h = ops.hash (ops.norm item.2)
    · rw [if_pos hh]
      rfl
    · -- the reply is of another hash, so the count of this one is as it was
      rw [if_neg hh]
      have hne : ¬ ops.hash (ops.norm item.2) = h := fun he => hh he.symm
      apply hm.hashes_isSome h
      simpa [List.countP_append, hne] using hn

/-- The loop over all the replies records them all. -/
theorem tallied_foldl (R : List (String × String)) :
    Tallied ops lhsFirst R (R.foldl (tallyReply ops lhsFirst) {}) := by
  suffices ∀ P m, Tallied ops lhsFirst P m →
      Tallied ops lhsFirst (P ++ R) (R.foldl (tallyReply ops lhsFirst) m) from
    this [] {} (Tallied.empty ops lhsFirst)
  induction R with
  | nil => intro P m hm; simpa using hm
  | cons item R ih =>
    intro P m hm
    have := ih (P ++ [item]) _ (hm.tallyReply ops lhsFirst item)
    simpa using this

/-! ## No counter passes two -/

/-- Every counter the loop stores is `1` or `2`. -/
def CountsBounded (m : ReplyMaps) : Prop := ∀ h n, m.counts.lookup h = some n → n ≤ 2

theorem countsBounded_tallyReply {m : ReplyMaps} (hm : CountsBounded m) (item : String × String) :
    CountsBounded (tallyReply ops lhsFirst m item) := by
  intro h n hn
  simp only [tallyReply, Map.lookup_insert_eq_ite] at hn
  -- the counter written is `1` or `2`, and the others are as they were
  split_ifs at hn
  · cases hn
    omega
  · cases hn
    omega
  · exact hm h n hn

theorem count_le_two (R : List (String × String)) :
    CountsBounded (R.foldl (tallyReply ops lhsFirst) {}) := by
  suffices ∀ m, CountsBounded m → CountsBounded (R.foldl (tallyReply ops lhsFirst) m) from
    this {} (fun h n hn => by simp at hn)
  induction R with
  | nil => exact fun m hm => hm
  | cons item R ih => exact fun m hm => ih _ (countsBounded_tallyReply ops lhsFirst hm item)

/-- The two sorts only reorder the counters. -/
theorem mem_rankCounts {m : ReplyMaps} {t : Uint256 × Nat} :
    t ∈ rankCounts ops m ↔ t ∈ keyOrder m.counts := by
  have hsort : t ∈ sortByCount (keyOrder m.counts) ↔ t ∈ keyOrder m.counts :=
    List.mem_insertionSort _
  unfold rankCounts
  dsimp only
  split
  · split_ifs
    · exact (List.mem_insertionSort _).trans hsort
    · exact hsort
  · exact hsort

/-- The counters in key order are those of the map. -/
theorem mem_keyOrder {counts : Map Uint256 Nat} {t : Uint256 × Nat} :
    t ∈ keyOrder counts ↔ counts.lookup t.1 = some t.2 := by
  simp only [keyOrder, List.mem_insertionSort, List.mem_map]
  constructor
  · rintro ⟨e, he, rfl⟩
    exact AList.mem_lookup_iff.mpr he
  · intro h
    exact ⟨⟨t.1, t.2⟩, AList.mem_lookup_iff.mp h, rfl⟩

/-- The count `mostCommonReply` returns is never above two. -/
theorem mostCommonReply_count_le_two (R : List (String × String)) :
    (mostCommonReply ops lhsFirst R).count ≤ 2 := by
  unfold mostCommonReply
  split_ifs
  · exact Nat.zero_le _
  · -- the first counter is a counter of the map, or there is none
    dsimp only
    cases htmp : rankCounts ops (R.foldl (tallyReply ops lhsFirst) {}) with
    | nil => exact Nat.zero_le _
    | cons t rest =>
      have hmem := (mem_rankCounts ops).mp (htmp ▸ List.mem_cons_self (a := t) (l := rest))
      exact count_le_two ops lhsFirst R _ _ (mem_keyOrder.mp hmem)

/-! ## The result -/

/-- On replies, `mostCommonReply` picks one hash of a normalised reply: it returns that hash's
counter, the nodes whose reply has it as `agree`, and one of their replies. -/
theorem mostCommonReply_spec {R : List (String × String)} (hR : R ≠ []) :
    ∃ h, 0 < R.countP (fun item => ops.hash (ops.norm item.2) = h) ∧
      (mostCommonReply ops lhsFirst R).count =
        (if lhsFirst then 2 else min 2 (R.countP fun item => ops.hash (ops.norm item.2) = h)) ∧
      (∀ a, a ∈ (mostCommonReply ops lhsFirst R).agree ↔
        ∃ r, (a, r) ∈ R ∧ ops.hash (ops.norm r) = h) ∧
      ∃ a, (a, (mostCommonReply ops lhsFirst R).reply) ∈ R ∧
        ops.hash (ops.norm (mostCommonReply ops lhsFirst R).reply) = h := by
  have ht := tallied_foldl ops lhsFirst R
  -- some counter is there, so the sorted counters have a first one
  obtain ⟨item, hitem⟩ := List.exists_mem_of_ne_nil R hR
  have hpos : R.countP (fun it => ops.hash (ops.norm it.2) = ops.hash (ops.norm item.2)) ≠ 0 :=
    (List.countP_pos_iff.mpr ⟨item, hitem, by simp⟩).ne'
  obtain ⟨v, hv⟩ : ∃ v, (R.foldl (tallyReply ops lhsFirst) {}).counts.lookup
      (ops.hash (ops.norm item.2)) = some v := by
    rw [ht.counts, if_neg hpos]
    exact ⟨_, rfl⟩
  have hmem : (ops.hash (ops.norm item.2), v) ∈ rankCounts ops (R.foldl (tallyReply ops lhsFirst) {}) :=
    (mem_rankCounts ops).mpr (mem_keyOrder.mpr hv)
  obtain ⟨t, rest, htmp⟩ := List.exists_cons_of_ne_nil (List.ne_nil_of_mem hmem)
  have htop := mem_keyOrder.mp ((mem_rankCounts ops).mp (htmp ▸ List.mem_cons_self (a := t) (l := rest)))
  -- the first counter's hash has replies, and its counter is their number
  have htc := ht.counts t.1
  have hnz : R.countP (fun it => ops.hash (ops.norm it.2) = t.1) ≠ 0 := by
    intro h0
    rw [if_pos h0, htop] at htc
    cases htc
  rw [if_neg hnz, htop, Option.some.injEq] at htc
  obtain ⟨r, hr⟩ := Option.isSome_iff_exists.mp (ht.hashes_isSome t.1 hnz)
  refine ⟨t.1, Nat.pos_of_ne_zero hnz, ?_⟩
  unfold mostCommonReply
  rw [if_neg hR]
  dsimp only
  rw [htmp, List.headD_cons, hr, Option.getD_some]
  exact ⟨htc, ht.nodes t.1, ht.hashes t.1 r hr⟩

/-- Replies that read as no JSON object and hash by their text: `e1` and `e2` are errors, `ok` is
not. -/
def ReplyOps.sample : ReplyOps where
  compact _ := none
  hasError r := r = "e1" || r = "e2"
  hash r := if r = "e1" then 1 else if r = "e2" then 2 else 3

/-- Two pairs of nodes tie with error replies: the second sort puts the one node without an error
first, so it is `agree`, with a count of one, and no node is in `diff`. -/
example :
    mostCommonReply ReplyOps.sample false
        [("a", "e1"), ("b", "e1"), ("c", "e2"), ("d", "e2"), ("e", "ok")] =
      ⟨1, "ok", [("a", "e1"), ("b", "e1"), ("c", "e2"), ("d", "e2"), ("e", "ok")], ["e"], []⟩ := by
  decide

/-- Three nodes or more that gave one normalised reply are counted as two. -/
theorem mostCommonReply_undercounts (R : List (String × String)) (r : String)
    (hclass : 3 ≤ (R.filter fun item => ops.norm item.2 = r).length) :
    (mostCommonReply ops lhsFirst R).count < (R.filter fun item => ops.norm item.2 = r).length :=
  Nat.lt_of_le_of_lt (mostCommonReply_count_le_two ops lhsFirst R) hclass

/-- Three nodes that gave the same reply. -/
def threeSame : List (String × String) := [("a", "r"), ("b", "r"), ("c", "r")]

theorem mostCommonReply_undercounts_three :
    3 ≤ (threeSame.filter fun item => ReplyOps.sample.norm item.2 = "r").length ∧
      (mostCommonReply ReplyOps.sample false threeSame).count <
        (threeSame.filter fun item => ReplyOps.sample.norm item.2 = "r").length :=
  ⟨by decide, mostCommonReply_undercounts ReplyOps.sample false threeSame "r" (by decide)⟩

end Blocknet.XRouter

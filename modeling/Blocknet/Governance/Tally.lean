import Blocknet.Governance.Object
import Blocknet.Lib.Map
import Blocknet.Lib.Pool
import Mathlib.Algebra.Order.BigOperators.Group.List
import Mathlib.Data.List.Sort

/-!
# Vote tallies

Model of `Governance::getTally` (`governance/governance.h`) and the `Tally` it returns.

The votes on a proposal are grouped by the transaction that cast them (`userVotes`, keyed by the
id of the vote's transaction) and by the destination of their key (`userVotesDest`). The loop
visits the transactions in key order; each counts its votes and every vote sharing a destination
with one of them, less the votes counted before (`userGroups`). The amount of each type in a
group becomes whole votes by division by `voteBalance`, truncated toward zero, cast to `int` and
set to 0 when negative (`wholeVotes`); the final tally sums the groups.

* A `std::set<Vote>` is ordered by `Vote::getHash`: inserting a vote whose hash the set holds
  does nothing (`VoteSet.insert`).
* `uint256::operator<` compares the 32 stored bytes with `memcmp`, least significant byte first
  (`ltUint256`); it fixes the order of the loop.
* `static_cast<int>` keeps the low 32 bits (`castInt`), and a sum of two `int`s is taken to wrap
  the same way; a sum of two `CAmount`s (`int64_t`) keeps the low 64 bits (`wrapAmount`). Under
  the bounds of `getTally_counts` no sum wraps.
* A vote's amount is the value of the output it spends (`loadVoteUTXO_amount`), and every vote
  `processBlock` records has at least `voteMinUtxoAmount`, 100 COIN on every network
  (`filterDataFromBlock_amount`): the amounts the tally sums are not negative. With
  `voteBalance` of 5000 COIN, a total below `2^63` satoshis is below `2^31` vote units.

Results:
* `userGroups_perm`: over votes with distinct hashes the groups partition the votes. Each vote is
  counted in exactly one group, whatever transactions and keys the votes share.
* `getTally_counts`: with non-negative amounts whose total is below `2^63` satoshis and below
  `2^31` vote units, the tally holds, for each type, the sum of the amounts of the proposal's
  votes, and the sum over the groups of their whole votes, which is at most the whole votes of
  the sum.
-/

namespace Blocknet.Gov

open Blocknet.Lib

/-- `Tally`. -/
structure Tally where
  cyes : Int := 0
  cno : Int := 0
  cabstain : Int := 0
  yes : Int := 0
  no : Int := 0
  abstain : Int := 0
  payout : Bool := false
  deriving DecidableEq, Repr

/-- `Tally::netyes`. -/
def Tally.netyes (t : Tally) : Int := t.yes - t.no

/-- `static_cast<int>` of an `int64_t`: the low 32 bits, read as a signed number. -/
def castInt (x : Int) : Int := x.bmod (2 ^ 32)

/-- A `CAmount` (`int64_t`) result: the low 64 bits, read as a signed number. -/
def wrapAmount (x : Int) : Int := x.bmod (2 ^ 64)

/-- `uint256::operator<`: `memcmp` of the stored bytes, the least significant first. -/
def ltUint256 (a b : Uint256) : Bool := decide (a.toBytes < b.toBytes)

/-! ## Sets of votes -/

/-- `std::set<Vote>::count`: whether the set holds a vote with this hash. -/
def VoteSet.contains (s : List Vote) (v : Vote) : Bool := s.any (·.getHash == v.getHash)

/-- `std::set<Vote>::insert`: a vote whose hash the set holds is not inserted. Only membership
and sums over a set are read, so the model keeps the votes in the order they came. -/
def VoteSet.insert (s : List Vote) (v : Vote) : List Vote :=
  if VoteSet.contains s v then s else s ++ [v]

/-- The set at `key` of a map of sets, empty where there is none (`operator[]`). -/
def setAt {K : Type} [DecidableEq K] (m : Map K (List Vote)) (key : K) : List Vote :=
  (m.lookup key).getD []

/-- `m[key(vote)].insert(vote)` for every vote in order: `userVotes` and `userVotesDest`. -/
def groupVotes {K : Type} [DecidableEq K] (key : Vote → K) (votes : List Vote) :
    Map K (List Vote) :=
  votes.foldl (fun m vote => m.insert (key vote) (VoteSet.insert (setAt m (key vote)) vote)) ∅

/-! ## `getTally` -/

variable (cr : Crypto) (params : Params)

/-- `allUnique` of one transaction before the counted votes are erased: its votes, and every
vote sharing a destination with one of them. -/
def allUniqueOf (userVotesDest : Map Uint160 (List Vote)) (txVotes : List Vote) : List Vote :=
  txVotes.foldl (fun s vote => (setAt userVotesDest (vote.pubkey.GetID cr)).foldl VoteSet.insert s)
    txVotes

/-- One transaction of the loop over `userVotes`, on the votes counted and the groups so far:
the votes not counted yet form a group, unless there are none. -/
def countStep (r : List Vote × List (List Vote)) (allUnique : List Vote) :
    List Vote × List (List Vote) :=
  let allUnique := allUnique.filter fun v => !VoteSet.contains r.1 v
  if allUnique.isEmpty then r else (allUnique.foldl VoteSet.insert r.1, r.2 ++ [allUnique])

/-- The groups the loop of `getTally` counts, in the order of `userVotes`. -/
def userGroups (proposalVotes : List Vote) : List (List Vote) :=
  let userVotes := groupVotes (·.outpoint.hash) proposalVotes
  let userVotesDest := groupVotes (·.pubkey.GetID cr) proposalVotes
  let keys := userVotes.keys.insertionSort fun a b => !ltUint256 b a
  ((keys.map fun key => allUniqueOf cr userVotesDest (setAt userVotes key)).foldl countStep
    ([], [])).2

/-- `static_cast<int>(amount / params.voteBalance)`, set to 0 by the sanity check when
negative. -/
def wholeVotes (amount : Int) : Int :=
  let v := castInt (amount.tdiv params.voteBalance)
  if v < 0 then 0 else v

/-- One vote of the loop over `allUnique`: its amount is added to the count of its type. -/
def Tally.countVote (t : Tally) (vote : Vote) : Tally :=
  if vote.vote == YES then { t with cyes := wrapAmount (t.cyes + vote.amount) }
  else if vote.vote == NO then { t with cno := wrapAmount (t.cno + vote.amount) }
  else if vote.vote == ABSTAIN then { t with cabstain := wrapAmount (t.cabstain + vote.amount) }
  else t

/-- The tally of one group: the amounts of `allUnique` by vote type, then its whole votes. -/
def Tally.ofVotes (allUnique : List Vote) : Tally :=
  let t := allUnique.foldl Tally.countVote {}
  { t with
    yes := wholeVotes params t.cyes
    no := wholeVotes params t.cno
    abstain := wholeVotes params t.cabstain }

/-- `finalTally.yes += tally.yes`, and likewise for the five other counts. -/
def Tally.add (f t : Tally) : Tally :=
  { f with
    yes := castInt (f.yes + t.yes), no := castInt (f.no + t.no)
    abstain := castInt (f.abstain + t.abstain)
    cyes := wrapAmount (f.cyes + t.cyes), cno := wrapAmount (f.cno + t.cno)
    cabstain := wrapAmount (f.cabstain + t.cabstain) }

/-- `Governance::getTally`. The loop over `userVotes` pushes the tally of each group it counts;
the model collects the groups first and tallies them after, which is the same since a tally reads
nothing the loop changes. -/
def getTally (proposal : Uint256) (votes : List Vote) : Tally :=
  let proposalVotes := votes.filter fun vote => proposal == vote.proposal
  ((userGroups cr proposalVotes).map (Tally.ofVotes params)).foldl Tally.add {}

/-! ## Sets of votes with distinct hashes -/

section Distinct

/-- No two of the votes share a hash. -/
def HashInj (V : List Vote) : Prop := ∀ x ∈ V, ∀ y ∈ V, x.getHash = y.getHash → x = y

variable {V : List Vote}

/-- Among votes with distinct hashes a set holds a vote's hash exactly when it holds the vote. -/
theorem contains_iff (hV : HashInj V) {s : List Vote} (hs : s ⊆ V) {v : Vote} (hv : v ∈ V) :
    VoteSet.contains s v = true ↔ v ∈ s := by
  unfold VoteSet.contains
  rw [List.any_eq_true]
  constructor
  · rintro ⟨x, hx, he⟩
    rwa [hV x (hs hx) v hv (by simpa using he)] at hx
  · intro h
    exact ⟨v, h, by simp⟩

theorem insert_eq (hV : HashInj V) {s : List Vote} (hs : s ⊆ V) {v : Vote} (hv : v ∈ V) :
    VoteSet.insert s v = if v ∈ s then s else s ++ [v] := by
  unfold VoteSet.insert
  by_cases h : v ∈ s
  · rw [if_pos ((contains_iff hV hs hv).mpr h), if_pos h]
  · rw [if_neg (mt (contains_iff hV hs hv).mp h), if_neg h]

/-- Inserting votes of `V` into a set of votes of `V` gives their union, without repeats. -/
theorem foldl_insert (hV : HashInj V) {t : List Vote} (ht : t ⊆ V) :
    ∀ {s : List Vote}, s ⊆ V → s.Nodup →
      t.foldl VoteSet.insert s ⊆ V ∧ (t.foldl VoteSet.insert s).Nodup ∧
        ∀ x, x ∈ t.foldl VoteSet.insert s ↔ x ∈ s ∨ x ∈ t := by
  induction t with
  | nil => intro s hs hsn; simpa using ⟨hs, hsn⟩
  | cons v t ih =>
    intro s hs hsn
    have hv : v ∈ V := ht List.mem_cons_self
    rw [List.foldl_cons, insert_eq hV hs hv]
    have hstep : (if v ∈ s then s else s ++ [v]) ⊆ V ∧ (if v ∈ s then s else s ++ [v]).Nodup ∧
        ∀ x, x ∈ (if v ∈ s then s else s ++ [v]) ↔ x ∈ s ∨ x = v := by
      split_ifs with h
      · exact ⟨hs, hsn, fun x => ⟨.inl, fun hx => hx.elim id (· ▸ h)⟩⟩
      · refine ⟨List.append_subset.mpr ⟨hs, List.cons_subset.mpr ⟨hv, List.nil_subset V⟩⟩,
          hsn.append (List.nodup_singleton v) (List.disjoint_singleton.mpr h), fun x => ?_⟩
        simp
    obtain ⟨h1, h2, h3⟩ := ih (List.subset_of_cons_subset ht) hstep.1 hstep.2.1
    refine ⟨h1, h2, fun x => ?_⟩
    rw [h3, hstep.2.2, List.mem_cons]
    tauto

/-- Inserting votes of `V` not in the set appends them. -/
theorem foldl_insert_of_disjoint (hV : HashInj V) {t : List Vote} (ht : t ⊆ V) (htn : t.Nodup) :
    ∀ {s : List Vote}, s ⊆ V → (∀ x ∈ t, x ∉ s) → t.foldl VoteSet.insert s = s ++ t := by
  induction t with
  | nil => intro s _ _; simp
  | cons v t ih =>
    intro s hs hd
    have hv : v ∈ V := ht List.mem_cons_self
    rw [List.foldl_cons, insert_eq hV hs hv, if_neg (hd v List.mem_cons_self)]
    have hvt : v ∉ t := (List.nodup_cons.mp htn).1
    rw [ih (List.subset_of_cons_subset ht) (List.nodup_cons.mp htn).2
      (List.append_subset.mpr ⟨hs, List.cons_subset.mpr ⟨hv, List.nil_subset V⟩⟩)]
    · simp
    · intro x hx hmem
      rcases List.mem_append.mp hmem with h | h
      · exact hd x (List.mem_cons_of_mem v hx) h
      · rw [List.mem_singleton.mp h] at hx
        exact hvt hx

theorem setAt_insert {K : Type} [DecidableEq K] (m : Map K (List Vote)) (k k' : K)
    (s : List Vote) : setAt (m.insert k s) k' = if k' = k then s else setAt m k' := by
  unfold setAt
  rw [Map.lookup_insert_eq_ite]
  split_ifs <;> rfl

/-- Every set of a grouping of votes of `V` holds votes of `V` without repeats, and each vote is
in the set of its key. -/
theorem setAt_groupVotes (hV : HashInj V) {K : Type} [DecidableEq K] (key : Vote → K)
    {L : List Vote} (hL : L ⊆ V) :
    (∀ k, setAt (groupVotes key L) k ⊆ V ∧ (setAt (groupVotes key L) k).Nodup) ∧
      ∀ x ∈ L, x ∈ setAt (groupVotes key L) (key x) := by
  -- the loop keeps every set within `V` and never drops a vote it placed
  have hloop : ∀ (L : List Vote), L ⊆ V → ∀ m : Map K (List Vote),
      (∀ k, setAt m k ⊆ V ∧ (setAt m k).Nodup) →
      let m' := L.foldl (fun m vote => m.insert (key vote) (VoteSet.insert (setAt m (key vote)) vote)) m
      (∀ k, setAt m' k ⊆ V ∧ (setAt m' k).Nodup) ∧ (∀ k x, x ∈ setAt m k → x ∈ setAt m' k) ∧
        ∀ x ∈ L, x ∈ setAt m' (key x) := by
    intro L
    induction L with
    | nil => intro _ m hm; exact ⟨hm, fun _ _ h => h, by simp⟩
    | cons v L ih =>
      intro hL m hm
      have hv : v ∈ V := hL List.mem_cons_self
      obtain ⟨hs, hsn⟩ := hm (key v)
      obtain ⟨i1, i2, i3⟩ := foldl_insert hV (t := [v]) (List.cons_subset.mpr ⟨hv, List.nil_subset V⟩) hs hsn
      have hm' : ∀ k, setAt (m.insert (key v) (VoteSet.insert (setAt m (key v)) v)) k ⊆ V ∧
          (setAt (m.insert (key v) (VoteSet.insert (setAt m (key v)) v)) k).Nodup := by
        intro k
        rw [setAt_insert]
        split_ifs
        · exact ⟨i1, i2⟩
        · exact hm k
      obtain ⟨h1, h2, h3⟩ := ih (List.subset_of_cons_subset hL) _ hm'
      refine ⟨h1, fun k x hx => h2 k x ?_, fun x hx => ?_⟩
      · rw [setAt_insert]
        split_ifs with hk
        · subst hk
          exact (i3 x).mpr (.inl hx)
        · exact hx
      · rcases List.mem_cons.mp hx with rfl | hx
        · apply h2
          rw [setAt_insert, if_pos rfl]
          exact (i3 x).mpr (.inr List.mem_cons_self)
        · exact h3 x hx
  obtain ⟨h1, -, h3⟩ := hloop L hL ∅ (fun k => by simp [setAt])
  exact ⟨h1, h3⟩

/-- The `allUnique` of a transaction holds votes of `V` without repeats, its own votes among
them. -/
theorem allUniqueOf_spec (hV : HashInj V) {D : Map Uint160 (List Vote)} (hD : ∀ k, setAt D k ⊆ V)
    {T : List Vote} (hT : T ⊆ V) (hTn : T.Nodup) :
    allUniqueOf cr D T ⊆ V ∧ (allUniqueOf cr D T).Nodup ∧ T ⊆ allUniqueOf cr D T := by
  unfold allUniqueOf
  -- each vote of the transaction adds the set of its destination
  have hloop : ∀ (U s : List Vote), s ⊆ V → s.Nodup →
      U.foldl (fun s vote => (setAt D (vote.pubkey.GetID cr)).foldl VoteSet.insert s) s ⊆ V ∧
      (U.foldl (fun s vote => (setAt D (vote.pubkey.GetID cr)).foldl VoteSet.insert s) s).Nodup ∧
      s ⊆ U.foldl (fun s vote => (setAt D (vote.pubkey.GetID cr)).foldl VoteSet.insert s) s := by
    intro U
    induction U with
    | nil => intro s hs hsn; exact ⟨hs, hsn, List.Subset.refl s⟩
    | cons u U ih =>
      intro s hs hsn
      obtain ⟨i1, i2, i3⟩ := foldl_insert hV (hD (u.pubkey.GetID cr)) hs hsn
      obtain ⟨h1, h2, h3⟩ := ih _ i1 i2
      exact ⟨h1, h2, fun x hx => h3 ((i3 x).mpr (.inl hx))⟩
  exact hloop T T hT hTn

/-- On counted votes of `V` and a set of votes of `V` without repeats, the step of the loop is a
step of a covering pass. -/
theorem countStep_eq (hV : HashInj V) {r : List Vote × List (List Vote)} (hr : r.1 ⊆ V)
    {S : List Vote} (hS : S ⊆ V) (hSn : S.Nodup) : countStep r S = coverStep r S := by
  have hf : (S.filter fun v => !VoteSet.contains r.1 v) = S.filter (· ∉ r.1) := by
    refine List.filter_congr fun v hv => ?_
    have hc := contains_iff hV hr (hS hv)
    cases hb : VoteSet.contains r.1 v
    · have hm : v ∉ r.1 := fun hm => by rw [hc.mpr hm] at hb; cases hb
      simp [hm]
    · simp [hc.mp hb]
  unfold countStep coverStep
  dsimp only
  rw [hf]
  split_ifs
  · rfl
  · rw [foldl_insert_of_disjoint hV (fun x hx => hS (List.mem_of_mem_filter hx)) (hSn.filter _) hr]
    intro x hx
    simpa using (List.mem_filter.mp hx).2

theorem foldl_countStep (hV : HashInj V) {sets : List (List Vote)}
    (hs : ∀ S ∈ sets, S ⊆ V ∧ S.Nodup) :
    ∀ {r : List Vote × List (List Vote)}, r.1 ⊆ V →
      sets.foldl countStep r = sets.foldl coverStep r := by
  induction sets with
  | nil => intro r _; rfl
  | cons S sets ih =>
    intro r hr
    obtain ⟨hS, hSn⟩ := hs S List.mem_cons_self
    rw [List.foldl_cons, List.foldl_cons, countStep_eq hV hr hS hSn]
    refine ih (fun T hT => hs T (List.mem_cons_of_mem S hT)) fun x hx => ?_
    rcases mem_coverStep.mp hx with h | h
    · exact hr h
    · exact hS h

end Distinct

/-! ## The groups partition the votes -/

/-- Over votes with distinct hashes, the groups hold each vote exactly once. -/
theorem userGroups_perm {V : List Vote} (hd : (V.map Vote.getHash).Nodup) :
    (userGroups cr V).flatten.Perm V := by
  have hV : HashInj V := fun x hx y hy => List.inj_on_of_nodup_map hd hx hy
  have hn : V.Nodup := List.Nodup.of_map _ hd
  obtain ⟨hUV, hmemUV⟩ := setAt_groupVotes hV (fun v : Vote => v.outpoint.hash) (List.Subset.refl V)
  obtain ⟨hUD, -⟩ := setAt_groupVotes hV (fun v : Vote => v.pubkey.GetID cr) (List.Subset.refl V)
  let keys := (groupVotes (fun v : Vote => v.outpoint.hash) V).keys.insertionSort
    fun a b => !ltUint256 b a
  let sets := keys.map fun key => allUniqueOf cr (groupVotes (fun v : Vote => v.pubkey.GetID cr) V)
    (setAt (groupVotes (fun v : Vote => v.outpoint.hash) V) key)
  have hsets : ∀ S ∈ sets, S ⊆ V ∧ S.Nodup := by
    intro S hS
    obtain ⟨key, -, rfl⟩ := List.mem_map.mp hS
    obtain ⟨h1, h2, -⟩ := allUniqueOf_spec cr hV (fun k => (hUD k).1) (hUV key).1 (hUV key).2
    exact ⟨h1, h2⟩
  have hgroups : userGroups cr V = (sets.foldl coverStep ([], [])).2 :=
    congrArg Prod.snd (@foldl_countStep V hV sets hsets ([], []) (List.nil_subset V))
  obtain ⟨hnd, hmem⟩ := foldl_coverStep (fun S hS => (hsets S hS).2)
  rw [hgroups, List.perm_ext_iff_of_nodup hnd hn]
  intro x
  rw [hmem]
  constructor
  · rintro ⟨S, hS, hx⟩
    exact (hsets S hS).1 hx
  · intro hx
    -- `x` is counted at the latest with its own transaction
    have hin := hmemUV x hx
    have hsome : ((groupVotes (fun v : Vote => v.outpoint.hash) V).lookup x.outpoint.hash).isSome := by
      unfold setAt at hin
      cases hl : (groupVotes (fun v : Vote => v.outpoint.hash) V).lookup x.outpoint.hash with
      | none => rw [hl] at hin; cases hin
      | some s => rfl
    have hkey : x.outpoint.hash ∈ keys :=
      (List.perm_insertionSort _ _).symm.subset (AList.mem_keys.mpr (AList.lookup_isSome.mp hsome))
    refine ⟨_, List.mem_map.mpr ⟨_, hkey, rfl⟩, ?_⟩
    exact (allUniqueOf_spec cr hV (fun k => (hUD k).1) (hUV _).1 (hUV _).2).2.2 hin

/-! ## The counts of a tally -/

/-- The sum of `getAmount()` over the votes of one type. -/
def amountOf (voteType : UInt8) (votes : List Vote) : Int :=
  ((votes.filter (·.vote == voteType)).map (·.amount)).sum

theorem amountOf_append (voteType : UInt8) (l₁ l₂ : List Vote) :
    amountOf voteType (l₁ ++ l₂) = amountOf voteType l₁ + amountOf voteType l₂ := by
  simp [amountOf, List.filter_append]

theorem amountOf_flatten (voteType : UInt8) (gs : List (List Vote)) :
    amountOf voteType gs.flatten = (gs.map (amountOf voteType)).sum := by
  induction gs with
  | nil => rfl
  | cons g gs ih => rw [List.flatten_cons, amountOf_append, ih, List.map_cons, List.sum_cons]

theorem amountOf_perm (voteType : UInt8) {l₁ l₂ : List Vote} (h : l₁.Perm l₂) :
    amountOf voteType l₁ = amountOf voteType l₂ :=
  ((h.filter _).map _).sum_eq

theorem amountOf_nonneg (voteType : UInt8) {l : List Vote} (h : ∀ v ∈ l, 0 ≤ v.amount) :
    0 ≤ amountOf voteType l :=
  List.sum_nonneg fun x hx => by
    obtain ⟨v, hv, rfl⟩ := List.mem_map.mp hx
    exact h v (List.mem_of_mem_filter hv)

theorem amountOf_le (voteType : UInt8) {l : List Vote} (h : ∀ v ∈ l, 0 ≤ v.amount) :
    amountOf voteType l ≤ (l.map (·.amount)).sum :=
  (List.filter_sublist.map _).sum_le_sum fun x hx => by
    obtain ⟨v, hv, rfl⟩ := List.mem_map.mp hx
    exact h v hv

/-- A sum of amounts in `[0, 2^63)` does not wrap. -/
theorem wrapAmount_of_range {x : Int} (h0 : 0 ≤ x) (h1 : x < 2 ^ 63) : wrapAmount x = x :=
  Int.bmod_eq_of_le (by norm_num; omega) (by norm_num; omega)

/-- A vote adds its amount to the count of its type only. -/
theorem countVote_counts (t : Tally) (v : Vote) :
    (t.countVote v).cyes = (if v.vote == YES then wrapAmount (t.cyes + v.amount) else t.cyes) ∧
      (t.countVote v).cno = (if v.vote == NO then wrapAmount (t.cno + v.amount) else t.cno) ∧
      (t.countVote v).cabstain =
        (if v.vote == ABSTAIN then wrapAmount (t.cabstain + v.amount) else t.cabstain) := by
  unfold Tally.countVote
  split_ifs <;> simp_all [YES, NO, ABSTAIN]

theorem amountOf_cons (voteType : UInt8) (v : Vote) (l : List Vote) :
    amountOf voteType (v :: l) = (if v.vote == voteType then v.amount else 0) + amountOf voteType l := by
  unfold amountOf
  rw [List.filter_cons]
  split_ifs <;> simp

/-- The loop over a group adds the group's amount of a type to the count of that type, where the
count stays below `2^63`. -/
theorem foldl_countVote (voteType : UInt8) (fc : Tally → Int)
    (hfc : ∀ t v, fc (t.countVote v) =
      if v.vote == voteType then wrapAmount (fc t + v.amount) else fc t) :
    ∀ (g : List Vote) (t : Tally), (∀ v ∈ g, 0 ≤ v.amount) → 0 ≤ fc t →
      fc t + amountOf voteType g < 2 ^ 63 →
      fc (g.foldl Tally.countVote t) = fc t + amountOf voteType g := by
  intro g
  induction g with
  | nil => intro t _ _ _; simp [amountOf]
  | cons v g ih =>
    intro t hg ht hlt
    have hv : 0 ≤ v.amount := hg v List.mem_cons_self
    have hg' : ∀ w ∈ g, 0 ≤ w.amount := fun w hw => hg w (List.mem_cons_of_mem v hw)
    have hrest : 0 ≤ amountOf voteType g := amountOf_nonneg voteType hg'
    rw [amountOf_cons] at hlt ⊢
    -- the vote's own count stays in range, so it does not wrap
    have hstep : fc (t.countVote v) = fc t + (if v.vote == voteType then v.amount else 0) := by
      rw [hfc]
      split_ifs at hlt ⊢
      · exact wrapAmount_of_range (by omega) (by omega)
      · simp
    have hshare : 0 ≤ (if v.vote == voteType then v.amount else 0) := by split_ifs <;> omega
    rw [List.foldl_cons, ih _ hg' (by omega) (by omega), hstep, add_assoc]

/-- The amounts of a group's tally are the group's amounts of each type, where its votes have
non-negative amounts adding up to less than `2^63`. -/
theorem ofVotes_amounts {g : List Vote} (h0 : ∀ v ∈ g, 0 ≤ v.amount)
    (hlt : (g.map (·.amount)).sum < 2 ^ 63) :
    (Tally.ofVotes params g).cyes = amountOf YES g ∧ (Tally.ofVotes params g).cno = amountOf NO g ∧
      (Tally.ofVotes params g).cabstain = amountOf ABSTAIN g := by
  -- each count starts at 0 and takes the amounts of its type, which stay below the total
  have hloop : ∀ (voteType : UInt8) (fc : Tally → Int), (∀ t v, fc (t.countVote v) =
      if v.vote == voteType then wrapAmount (fc t + v.amount) else fc t) → fc {} = 0 →
      fc (g.foldl Tally.countVote {}) = amountOf voteType g := by
    intro voteType fc hfc hc0
    have hlt' : fc {} + amountOf voteType g < 2 ^ 63 := by
      rw [hc0, zero_add]
      exact lt_of_le_of_lt (amountOf_le voteType h0) hlt
    rw [foldl_countVote voteType fc hfc g {} h0 hc0.ge hlt', hc0, zero_add]
  exact ⟨hloop YES Tally.cyes (fun t v => (countVote_counts t v).1) rfl,
    hloop NO Tally.cno (fun t v => (countVote_counts t v).2.1) rfl,
    hloop ABSTAIN Tally.cabstain (fun t v => (countVote_counts t v).2.2) rfl⟩

/-- Truncation, the cast and the sanity check leave the floor of an amount in range. -/
theorem wholeVotes_eq {amount : Int} (h0 : 0 ≤ amount)
    (h : amount < 2 ^ 31 * params.voteBalance) :
    wholeVotes params amount = amount / params.voteBalance := by
  have hvb := params.voteBalance_pos
  have hq0 : 0 ≤ amount / params.voteBalance := Int.ediv_nonneg h0 hvb.le
  have hq : amount / params.voteBalance < 2 ^ 31 := Int.ediv_lt_of_lt_mul hvb h
  unfold wholeVotes castInt
  rw [Int.tdiv_eq_ediv_of_nonneg h0, Int.bmod_eq_of_le (by norm_num; omega) (by norm_num; omega)]
  exact if_neg (not_lt.mpr hq0)

/-- The sums of `finalTally`, where no partial sum wraps: the values are not negative and twice
their total is below the modulus. -/
theorem foldl_add (f : Tally → Int) (m : Nat) (hf : ∀ a b, f (a.add b) = (f a + f b).bmod m) :
    ∀ (ts : List Tally) (t : Tally), 0 ≤ f t → (∀ x ∈ ts, 0 ≤ f x) →
      2 * (f t + (ts.map f).sum) < m → f (ts.foldl Tally.add t) = f t + (ts.map f).sum := by
  intro ts
  induction ts with
  | nil => intro t _ _ _; simp
  | cons t' ts ih =>
    intro t ht hts hlt
    have ht' : 0 ≤ f t' := hts t' List.mem_cons_self
    have hts' : ∀ x ∈ ts, 0 ≤ f x := fun x hx => hts x (List.mem_cons_of_mem t' hx)
    have hrest : 0 ≤ (ts.map f).sum :=
      List.sum_nonneg fun y hy => by
        obtain ⟨x, hx, rfl⟩ := List.mem_map.mp hy
        exact hts' x hx
    rw [List.map_cons, List.sum_cons] at hlt ⊢
    have hstep : f (t.add t') = f t + f t' := by
      rw [hf]
      exact Int.bmod_eq_of_le (by omega) (by omega)
    rw [List.foldl_cons, ih _ (by omega) hts' (by omega), hstep, add_assoc]

/-- The sum of the floors is at most the floor of the sum. -/
theorem sum_ediv_le {c : Int} (hc : 0 < c) (l : List Int) : (l.map (· / c)).sum ≤ l.sum / c := by
  induction l with
  | nil => simp
  | cons a l ih =>
    rw [List.map_cons, List.sum_cons, List.sum_cons]
    calc a / c + (l.map (· / c)).sum ≤ a / c + l.sum / c := by omega
      _ ≤ (a + l.sum) / c := by
        apply Int.le_ediv_of_mul_le hc
        rw [add_mul]
        exact add_le_add (Int.ediv_mul_le a hc.ne') (Int.ediv_mul_le _ hc.ne')

section Counts

variable {proposal : Uint256} {votes : List Vote}

/-- Over votes with distinct hashes and non-negative amounts, the groups partition the
proposal's votes, and each group's votes have non-negative amounts adding up to at most the
votes' total. -/
theorem userGroups_amounts (hd : (votes.map Vote.getHash).Nodup)
    (hnn : ∀ v ∈ votes, 0 ≤ v.amount) :
    let mine := votes.filter fun v => proposal == v.proposal
    (userGroups cr mine).flatten.Perm mine ∧ ∀ g ∈ userGroups cr mine,
      (∀ v ∈ g, 0 ≤ v.amount) ∧ (g.map (·.amount)).sum ≤ (votes.map (·.amount)).sum := by
  intro mine
  have hsub : mine.Sublist votes := List.filter_sublist
  have hperm := userGroups_perm cr (hd.sublist (hsub.map _))
  have hamounts : ∀ a ∈ votes.map (·.amount), 0 ≤ a := fun a ha => by
    obtain ⟨v, hv, rfl⟩ := List.mem_map.mp ha
    exact hnn v hv
  refine ⟨hperm, fun g hg => ⟨fun v hv => hnn v ?_, ?_⟩⟩
  · exact hsub.subset (hperm.subset (List.mem_flatten.mpr ⟨g, hg, hv⟩))
  · -- a group is a sublist of the groups' concatenation, a permutation of a sublist of the votes
    obtain ⟨l, hl, hlsub⟩ := (List.sublist_flatten_of_mem hg).subperm.trans (hperm.subperm.trans hsub.subperm)
    calc (g.map (·.amount)).sum = (l.map (·.amount)).sum := (hl.map _).sum_eq.symm
      _ ≤ (votes.map (·.amount)).sum := (hlsub.map _).sum_le_sum hamounts

/-- The counts of one vote type: the tally holds the proposal's amount of the type, and the sum
of the whole votes of the groups, at most the whole votes of the amount. -/
theorem getTally_type (voteType : UInt8) (fc fv : Tally → Int)
    (hfc : ∀ a b, fc (a.add b) = wrapAmount (fc a + fc b))
    (hfv : ∀ a b, fv (a.add b) = castInt (fv a + fv b)) (hc0 : fc {} = 0) (hv0 : fv {} = 0)
    (hc : ∀ g, (∀ v ∈ g, 0 ≤ v.amount) → (g.map (·.amount)).sum < 2 ^ 63 →
      fc (Tally.ofVotes params g) = amountOf voteType g)
    (hv : ∀ g, fv (Tally.ofVotes params g) = wholeVotes params (fc (Tally.ofVotes params g)))
    (hd : (votes.map Vote.getHash).Nodup) (hnn : ∀ v ∈ votes, 0 ≤ v.amount)
    (hsmall : (votes.map (·.amount)).sum < 2 ^ 31 * params.voteBalance)
    (hrange : (votes.map (·.amount)).sum < 2 ^ 63) :
    let mine := votes.filter fun v => proposal == v.proposal
    fc (getTally cr params proposal votes) = amountOf voteType mine ∧
      fv (getTally cr params proposal votes) =
        ((userGroups cr mine).map fun g => amountOf voteType g / params.voteBalance).sum ∧
      fv (getTally cr params proposal votes) ≤ fc (getTally cr params proposal votes) / params.voteBalance := by
  intro mine
  obtain ⟨hperm, hgroups⟩ := @userGroups_amounts cr proposal votes hd hnn
  have hsub : mine.Sublist votes := List.filter_sublist
  have hmine : ∀ v ∈ mine, 0 ≤ v.amount := fun v hv => hnn v (hsub.subset hv)
  have hvb := params.voteBalance_pos
  -- the amount of the type, summed over the groups, and its bounds
  have htotal : ((userGroups cr mine).map (amountOf voteType)).sum = amountOf voteType mine := by
    rw [← amountOf_flatten, amountOf_perm voteType hperm]
  have hmineLe : amountOf voteType mine ≤ (votes.map (·.amount)).sum :=
    (amountOf_le voteType hmine).trans ((hsub.map _).sum_le_sum fun a ha => by
      obtain ⟨v, hv, rfl⟩ := List.mem_map.mp ha
      exact hnn v hv)
  -- each group's count is its amount of the type, and its whole votes the floor of that
  have hcg : ∀ g ∈ userGroups cr mine, fc (Tally.ofVotes params g) = amountOf voteType g :=
    fun g hg => hc g (hgroups g hg).1 (lt_of_le_of_lt (hgroups g hg).2 hrange)
  have hvg : ∀ g ∈ userGroups cr mine,
      fv (Tally.ofVotes params g) = amountOf voteType g / params.voteBalance := by
    intro g hg
    have hg0 := amountOf_nonneg voteType (hgroups g hg).1
    have hgle : amountOf voteType g ≤ (votes.map (·.amount)).sum :=
      (amountOf_le voteType (hgroups g hg).1).trans (hgroups g hg).2
    rw [hv, hcg g hg, wholeVotes_eq params hg0 (lt_of_le_of_lt hgle hsmall)]
  have hfloor : ((userGroups cr mine).map fun g => amountOf voteType g / params.voteBalance).sum ≤
      amountOf voteType mine / params.voteBalance := by
    rw [← htotal]
    simpa [List.map_map, Function.comp_def] using
      sum_ediv_le hvb ((userGroups cr mine).map (amountOf voteType))
  have hfcT : fc (getTally cr params proposal votes) = amountOf voteType mine := by
    have hmap : ((userGroups cr mine).map (Tally.ofVotes params)).map fc =
        (userGroups cr mine).map (amountOf voteType) := by
      rw [List.map_map]
      exact List.map_congr_left fun g hg => hcg g hg
    unfold getTally
    rw [foldl_add fc (2 ^ 64) hfc _ _ hc0.ge, hc0, zero_add, hmap, htotal]
    · intro x hx
      obtain ⟨g, hg, rfl⟩ := List.mem_map.mp hx
      rw [hcg g hg]
      exact amountOf_nonneg voteType (hgroups g hg).1
    · rw [hc0, zero_add, hmap, htotal]
      omega
  have hfvT : fv (getTally cr params proposal votes) =
      ((userGroups cr mine).map fun g => amountOf voteType g / params.voteBalance).sum := by
    have hmap : ((userGroups cr mine).map (Tally.ofVotes params)).map fv =
        (userGroups cr mine).map fun g => amountOf voteType g / params.voteBalance := by
      rw [List.map_map]
      exact List.map_congr_left fun g hg => hvg g hg
    have hq : amountOf voteType mine / params.voteBalance < 2 ^ 31 :=
      Int.ediv_lt_of_lt_mul hvb (lt_of_le_of_lt hmineLe hsmall)
    unfold getTally
    rw [foldl_add fv (2 ^ 32) hfv _ _ hv0.ge, hv0, zero_add, hmap]
    · intro x hx
      obtain ⟨g, hg, rfl⟩ := List.mem_map.mp hx
      rw [hvg g hg]
      exact Int.ediv_nonneg (amountOf_nonneg voteType (hgroups g hg).1) hvb.le
    · rw [hv0, zero_add, hmap]
      omega
  refine ⟨hfcT, hfvT, ?_⟩
  rw [hfvT, hfcT]
  exact hfloor

/-- Over votes with distinct hashes, non-negative amounts and a total below `2^63` satoshis and
`2^31` vote units: the groups partition the proposal's votes, the tally holds the proposal's
amount of each type, and its whole votes of each type are the sum over the groups of their
floors, at most the floor of the amount. -/
theorem getTally_counts (hd : (votes.map Vote.getHash).Nodup) (hnn : ∀ v ∈ votes, 0 ≤ v.amount)
    (hsmall : (votes.map (·.amount)).sum < 2 ^ 31 * params.voteBalance)
    (hrange : (votes.map (·.amount)).sum < 2 ^ 63) :
    let mine := votes.filter fun v => proposal == v.proposal
    let groups := userGroups cr mine
    let t := getTally cr params proposal votes
    groups.flatten.Perm mine ∧
      (t.cyes = amountOf YES mine ∧ t.cno = amountOf NO mine ∧
        t.cabstain = amountOf ABSTAIN mine) ∧
      (t.yes = (groups.map fun g => amountOf YES g / params.voteBalance).sum ∧
        t.no = (groups.map fun g => amountOf NO g / params.voteBalance).sum ∧
        t.abstain = (groups.map fun g => amountOf ABSTAIN g / params.voteBalance).sum) ∧
      (t.yes ≤ t.cyes / params.voteBalance ∧ t.no ≤ t.cno / params.voteBalance ∧
        t.abstain ≤ t.cabstain / params.voteBalance) := by
  intro mine groups t
  have hperm : groups.flatten.Perm mine := (userGroups_amounts cr hd hnn).1
  obtain ⟨y1, y2, y3⟩ := getTally_type cr params YES Tally.cyes Tally.yes
    (fun _ _ => rfl) (fun _ _ => rfl) rfl rfl (fun g h0 hlt => (ofVotes_amounts params h0 hlt).1)
    (fun _ => rfl) hd hnn hsmall hrange
  obtain ⟨n1, n2, n3⟩ := getTally_type cr params NO Tally.cno Tally.no
    (fun _ _ => rfl) (fun _ _ => rfl) rfl rfl (fun g h0 hlt => (ofVotes_amounts params h0 hlt).2.1)
    (fun _ => rfl) hd hnn hsmall hrange
  obtain ⟨a1, a2, a3⟩ := getTally_type cr params ABSTAIN Tally.cabstain Tally.abstain
    (fun _ _ => rfl) (fun _ _ => rfl) rfl rfl (fun g h0 hlt => (ofVotes_amounts params h0 hlt).2.2)
    (fun _ => rfl) hd hnn hsmall hrange
  exact ⟨hperm, ⟨y1, n1, a1⟩, ⟨y2, n2, a2⟩, ⟨y3, n3, a3⟩⟩

/-- A vote on proposal 7 cast by transaction `tx` from output `n`, signed by key `[key]`. -/
def tallyVote (tx n : Nat) (key choice : UInt8) (amount : Int) : Vote :=
  { proposal := 7, vote := choice, amount, utxo := ⟨BitVec.ofNat 256 n, 0⟩,
    outpoint := ⟨BitVec.ofNat 256 tx, 0⟩, pubkey := ⟨[key]⟩ }

/-- Two votes of one key in two transactions, a vote of another key, and a vote on another
proposal. -/
def sampleVotes : List Vote :=
  [tallyVote 10 1 1 YES 5, tallyVote 11 2 1 NO 3, tallyVote 12 3 2 YES 2,
    { tallyVote 13 4 3 YES 9 with proposal := 8 }]

theorem getTally_counts_sample :
    ((sampleVotes.map Vote.getHash).Nodup ∧ (∀ v ∈ sampleVotes, 0 ≤ v.amount) ∧
      (sampleVotes.map (·.amount)).sum < 2 ^ 31 * Params.sample.voteBalance ∧
      (sampleVotes.map (·.amount)).sum < 2 ^ 63) ∧
    let mine := sampleVotes.filter fun v => (7 : Uint256) == v.proposal
    let groups := userGroups Crypto.sample mine
    let t := getTally Crypto.sample Params.sample 7 sampleVotes
    groups.flatten.Perm mine ∧
      (t.cyes = amountOf YES mine ∧ t.cno = amountOf NO mine ∧
        t.cabstain = amountOf ABSTAIN mine) ∧
      (t.yes = (groups.map fun g => amountOf YES g / Params.sample.voteBalance).sum ∧
        t.no = (groups.map fun g => amountOf NO g / Params.sample.voteBalance).sum ∧
        t.abstain = (groups.map fun g => amountOf ABSTAIN g / Params.sample.voteBalance).sum) ∧
      (t.yes ≤ t.cyes / Params.sample.voteBalance ∧ t.no ≤ t.cno / Params.sample.voteBalance ∧
        t.abstain ≤ t.cabstain / Params.sample.voteBalance) :=
  ⟨⟨by decide, by decide, by decide, by decide⟩,
    getTally_counts Crypto.sample Params.sample (by decide) (by decide) (by decide) (by decide)⟩

end Counts

end Blocknet.Gov

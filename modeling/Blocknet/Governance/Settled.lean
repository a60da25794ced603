import Blocknet.Governance.Views

/-!
# What a chain connected block by block leaves in the store

`BlockConnected`, block after block from the empty store, leaves the store in a shape that the
C++ code never states: at every vote hash, the vote is the top of its history and sits in the map
of its proposal's superblock and in no other, its proposal is known and its output is in the
chain, and every vote of its history was read, and spent if at all, below the next block
(`VoteView.Settled`). Every proposal is stored under its own hash and was read below the next
block (`Governance.Settled`). `Governance.Settled.connect` shows that connecting the next block
keeps it, so every store of `Connected` has it (`Connected.settled`).

The hash-by-hash form is that of `Views`: the proof at one hash is about one `VoteView`.
-/

namespace Blocknet.Gov

open Blocknet.Lib

/-! ## What a connected chain holds at one hash -/

/-- A vote read below height `h` that is unspent, or was spent below `h` (spends are at blocks
from the governance start on, never at 0). -/
def Before (h : Int) (v : Vote) : Prop :=
  v.blockNumber < h ∧ (v.spentBlock = 0 ∧ v.spentHash = 0 ∨ 1 ≤ v.spentBlock ∧ v.spentBlock < h)

theorem Before.mono {h h' : Int} {v : Vote} (hv : Before h v) (hh : h ≤ h') : Before h' v := by
  obtain ⟨hb, hs⟩ := hv
  refine ⟨by omega, ?_⟩
  rcases hs with hs | hs
  · exact .inl hs
  · exact .inr ⟨hs.1, by omega⟩


namespace VoteView

/-- What the store holds at the vote hash `k` once the blocks of `chain` below height `h` are
connected: the vote is the top of its history and sits in the map of its proposal's superblock
and in no other, its proposal is known and its output is in the chain, and every vote of its
history was read below `h` and is unspent or spent below `h`. -/
structure Settled (props : Uint256 → Option Proposal) (chain : Chain) (h : Int) (k : VoteHash)
    (w : VoteView) : Prop where
  stackOk : w.StackOk
  keyed : w.Keyed k
  sb : ∀ s, w.sb s = if (props k.proposal).map Proposal.superblock = some s then w.vote else none
  known : w.vote ≠ none → props k.proposal ≠ none
  found : w.vote ≠ none → chain.getTransaction k.utxo.hash ≠ none
  before : ∀ st ∈ w.stack, ∀ v ∈ st, Before h v

variable {F F' P : Uint256 → Option Proposal} {chain : Chain} {h : Int} {k : VoteHash}
  {w : VoteView}


theorem Settled.vote_before (hw : w.Settled F chain h k) {x : Vote} (hx : w.vote = some x) :
    Before h x := by
  have htop := hw.stackOk.1
  rw [hx] at htop
  obtain ⟨st, hst, hlast⟩ := Option.bind_eq_some_iff.mp htop.symm
  exact hw.before st hst x (List.mem_of_getLast? hlast)

/-- The vote of a settled hash has its proposal known, and the map of that proposal's superblock
holds the vote. -/
theorem Settled.vote_sb (hw : w.Settled F chain h k) {x : Vote} (hx : w.vote = some x) :
    ∃ p, F k.proposal = some p ∧ w.sb p.superblock = some x := by
  obtain ⟨p, hp⟩ := Option.ne_none_iff_exists'.mp (hw.known (by simp [hx]))
  refine ⟨p, hp, ?_⟩
  rw [hw.sb, hp, Option.map_some, if_pos rfl, hx]


/-- An update of a hash with no vote changes nothing. -/
theorem updateVote_of_none (f : Vote → Vote) (block : Int) (hw : w.vote = none) :
    w.updateVote P f block = w := by
  unfold updateVote
  rw [hw]

/-- An update for a block after the vote's superblock changes nothing. -/
theorem updateVote_of_lt (f : Vote → Vote) {block : Int} {x : Vote} {p : Proposal}
    (hx : w.vote = some x) (hp : P x.proposal = some p) (hb : p.superblock < block) :
    w.updateVote P f block = w := by
  unfold updateVote
  rw [hx]
  dsimp only
  rw [hp]
  dsimp only
  rw [if_pos hb]

/-- An update that applies changes the entry of the superblock by `f`. -/
theorem updateVote_sb (f : Vote → Vote) {block : Int} {x : Vote} {p : Proposal}
    (hx : w.vote = some x) (hp : P x.proposal = some p) (hb : ¬ p.superblock < block) :
    (w.updateVote P f block).sb p.superblock = (w.sb p.superblock).map f := by
  unfold updateVote
  rw [hx]
  dsimp only
  rw [hp]
  dsimp only
  rw [if_neg hb]
  simp

/-- `w'` is `w` with the vote `v` pushed on its history and entered in the map of the superblock
`s`. -/
def Pushed (w : VoteView) (s : Int) (v : Vote) (w' : VoteView) : Prop :=
  w'.vote = some v ∧ w'.stack = some (w.stack.getD [] ++ [v]) ∧
    w'.sb = fun s' => if s' = s then some v else w.sb s'

theorem pushed_addVote {v : Vote} {p : Proposal} (hp : F v.proposal = some p) :
    Pushed w p.superblock v (w.addVote F v) := by
  unfold addVote
  rw [hp]
  exact ⟨rfl, rfl, rfl⟩


/-- An update either changes nothing, or applies `f` to the vote, to the top of its history and
to its entry in the map of its proposal's superblock. -/
theorem updateVote_cases (f : Vote → Vote) (block : Int) (w : VoteView) :
    w.updateVote P f block = w ∨ ∃ x p, w.vote = some x ∧ P x.proposal = some p ∧
      ¬ p.superblock < block ∧ w.updateVote P f block = ⟨some (f x), w.stack.map (modifyBack f),
        fun s => if s = p.superblock then (w.sb s).map f else w.sb s⟩ := by
  unfold updateVote
  cases hx : w.vote with
  | none => exact .inl rfl
  | some x =>
    dsimp only
    cases hp : P x.proposal with
    | none => exact .inl rfl
    | some p =>
      dsimp only
      by_cases hb : p.superblock < block
      · exact .inl (if_pos hb)
      · exact .inr ⟨x, p, rfl, hp, hb, if_neg hb⟩

/-- The empty hash is settled. -/
theorem settled_empty : (⟨none, none, fun _ => none⟩ : VoteView).Settled F chain h k where
  stackOk := ⟨rfl, by simp⟩
  keyed := ⟨by simp, by simp, by simp⟩
  sb s := by simp
  known hv := absurd rfl hv
  found hv := absurd rfl hv
  before st hst := by simp at hst

/-- A settled hash stays settled as the proposals and the chain grow and the height rises. -/
theorem Settled.mono (hw : w.Settled F chain h k) (hF : ∀ ph p, F ph = some p → F' ph = some p)
    (more : Chain) {h' : Int} (hh : h ≤ h') : w.Settled F' (chain ++ more) h' k where
  stackOk := hw.stackOk
  keyed := hw.keyed
  sb s := by
    cases hx : w.vote with
    | none => rw [hw.sb s, hx, ite_self, ite_self]
    | some x =>
      -- the vote's proposal is known, and the larger proposals have it the same
      obtain ⟨p, hp, -⟩ := hw.vote_sb hx
      rw [hw.sb s, hp, hF _ p hp, hx]
  known hv := by
    obtain ⟨p, hp⟩ := Option.ne_none_iff_exists'.mp (hw.known hv)
    rw [hF _ p hp]
    exact Option.some_ne_none p
  found hv := by
    obtain ⟨r, hr⟩ := Option.ne_none_iff_exists'.mp (hw.found hv)
    rw [Chain.getTransaction_append hr]
    exact Option.some_ne_none r
  before st hst v hv := (hw.before st hst v hv).mono hh

/-- Recording a vote of a known proposal, read below the height, whose output is in the
chain. -/
theorem Settled.addVote (hw : w.Settled F chain h k) {v : Vote} (hk : v.getHash = k)
    (hknown : F k.proposal ≠ none) (hv : Before h v)
    (hfound : chain.getTransaction k.utxo.hash ≠ none) : (w.addVote F v).Settled F chain h k := by
  obtain ⟨p, hp⟩ := Option.ne_none_iff_exists'.mp hknown
  have hvp : v.proposal = k.proposal := by rw [← hk]; rfl
  obtain ⟨hv1, hv2, hv3⟩ := pushed_addVote (w := w) (hvp ▸ hp)
  refine ⟨stackOk_addVote F v hw.stackOk, keyed_addVote F v hk hw.keyed, fun s => ?_,
    fun _ => hknown, fun _ => hfound, ?_⟩
  · rw [hv3, hv1, hp, Option.map_some]
    dsimp only
    by_cases hs : s = p.superblock
    · simp [hs]
    · rw [hw.sb s, hp]
      simp [hs, Ne.symm hs]
  · -- the history is the old one with `v` pushed
    intro st hst x hx
    rw [hv2, Option.mem_def, Option.some.injEq] at hst
    subst hst
    rcases List.mem_append.mp hx with hx | hx
    · cases hws : w.stack with
      | none => simp [hws] at hx
      | some st' =>
        rw [hws] at hx
        exact hw.before st' hws x hx
    · rw [List.mem_singleton.mp hx]
      exact hv

/-- An update that keeps the hash and the timing of every vote keeps a settled hash settled. -/
theorem Settled.updateVote (hw : w.Settled F chain h k) (f : Vote → Vote)
    (hfh : ∀ v, (f v).getHash = v.getHash) (hfb : ∀ v, Before h v → Before h (f v))
    (block : Int) : (w.updateVote F f block).Settled F chain h k := by
  have hs := stackOk_updateVote F f block hw.stackOk
  have hk := keyed_updateVote F f hfh block hw.keyed
  rcases updateVote_cases f block w with he | ⟨x, p, hx, hp, -, he⟩
  · rw [he]
    exact hw
  have hpk : F k.proposal = some p := by
    rw [← hp, ← hw.keyed.1 x hx]
    rfl
  rw [he] at hs hk ⊢
  refine ⟨hs, hk, fun s => ?_, fun _ => by simp [hpk], fun _ => hw.found (by simp [hx]), ?_⟩
  · dsimp only
    rw [hw.sb s, hpk, hx]
    by_cases hs : s = p.superblock
    · simp [hs]
    · simp [hs, Ne.symm hs]
  · -- the history is the old one with its top changed by `f`
    intro st hst v hv
    obtain ⟨st', hst', rfl⟩ := Option.map_eq_some_iff.mp hst
    rcases mem_modifyBack hv with hv | ⟨z, hz, rfl⟩
    · exact hw.before st' hst' v hv
    · exact hfb z (hw.before st' hst' z hz)

/-- The spend by the block at height `h`, where the hash is settled for the next height. -/
theorem Settled.spendAt (hw : w.Settled F chain (h + 1) k) (h1 : 1 ≤ h) (t : Option Uint256) :
    (w.spendAt F h t).Settled F chain (h + 1) k := by
  cases t with
  | none => exact hw
  | some t =>
    exact hw.updateVote (fun v => v.spend h t) (fun _ => rfl)
      (fun v hv => ⟨hv.1, .inr ⟨h1, show h < h + 1 by omega⟩⟩) h

/-- A spend leaves the vote of a hash, or spends it by the block. -/
theorem spendAt_vote (w : VoteView) (block : Int) (t : Option Uint256) :
    (w.spendAt P block t).vote = w.vote ∨
      ∃ t', (w.spendAt P block t).vote = w.vote.map fun v => v.spend block t' := by
  cases t with
  | none => exact .inl rfl
  | some t =>
    rcases updateVote_cases (fun v => v.spend block t) block w with he | ⟨x, p, hx, -, -, he⟩
    · exact .inl (congrArg VoteView.vote he)
    · exact .inr ⟨t, by rw [spendAt, he, hx]; rfl⟩

end VoteView

/-! ## What a connected chain holds -/

/-- What a store built by connecting the blocks of `chain` one by one holds: every hash is
settled for the next height, and every proposal is stored under its own hash and was read below
the next height. -/
structure Governance.Settled (cr : Crypto) (chain : Chain) (g : Governance) : Prop where
  view : ∀ k, (g.viewAt k).Settled g.propView chain chain.length k
  propKeyed : g.PropKeyed cr
  propBefore : ∀ ph p, g.proposals.lookup ph = some p → p.blockNumber < chain.length

/-- The stores `BlockConnected` builds from the empty store by connecting the blocks of a chain
one by one, each at its height and seeing the chain up to it. -/
inductive Connected (cr : Crypto) (params : Params) : Chain → Governance → Prop
  | nil : Connected cr params [] {}
  | snoc {chain : Chain} {g g' : Governance} (block : Block) (coins : OutPoint → Option Coin) :
      Connected cr params chain g →
      BlockConnected cr params (chain ++ [block]) coins g block chain.length = .ok g' →
      Connected cr params (chain ++ [block]) g'

namespace Governance

variable {cr : Crypto} {params : Params} {chain : Chain}

theorem Settled.keyed {g : Governance} (hg : g.Settled cr chain) : g.Keyed :=
  fun k => (hg.view k).keyed

theorem settled_nil : ({} : Governance).Settled cr [] where
  view _ := VoteView.settled_empty
  propKeyed := propKeyed_empty cr
  propBefore _ _ h := by cases h

/-- **Connecting the next block keeps the store settled.** The proposals of the block are added
where none is stored, and at each hash the vote the block records, of a stored proposal, read at
the block's height and unspent, is pushed; the spend pass then spends by the block. -/
theorem Settled.connect (h1 : 1 ≤ params.governanceBlock) {S S' : Governance} {block : Block}
    {coins : OutPoint → Option Coin} (hg : S.Settled cr chain)
    (h : BlockConnected cr params (chain ++ [block]) coins S block chain.length = .ok S') :
    S'.Settled cr (chain ++ [block]) := by
  have hlen : (((chain ++ [block]).length : Nat) : Int) = chain.length + 1 := by simp
  have hprop : S'.PropKeyed cr :=
    Steps.inv _ (fun g c hg => propKeyed_apply cr c hg) (BlockConnected_changes cr params h)
      hg.propKeyed
  unfold BlockConnected at h
  split_ifs at h with hlt
  · -- before the governance start the store is left as it is
    cases h
    refine ⟨fun k => ?_, hprop, fun ph p hp => ?_⟩
    · rw [hlen]
      exact (hg.view k).mono (fun _ _ => id) [block] (by omega)
    · rw [hlen]
      have := hg.propBefore ph p hp
      omega
  have hpos : (1 : Int) ≤ chain.length := by omega
  obtain ⟨parsed, g1, g2, hparsed, hg1, hg2, rfl⟩ := processBlock_tip_eq cr params h
  have hwf := dataFromBlock_wf hparsed
  have hF : ∀ ph p, S.propView ph = some p → g1.propView ph = some p := fun ph p hp => by
    rw [hg1]
    exact lookup_addProposals_of_some cr _ hp
  have hP : (spendStep cr g2 block chain.length).propView = g1.propView := by
    rw [propView_spendStep, hg2, propView_addVotes]
  refine ⟨fun k => ?_, hprop, fun ph p hp => ?_⟩
  · -- the hash as the block found it, then the vote pushed, then the spend
    have hw := (hg.view k).mono hF [block] (le_add_of_nonneg_right zero_le_one)
    have hw2 : (g2.viewAt k).Settled g1.propView (chain ++ [block]) (chain.length + 1) k := by
      rw [hg2, viewAt_addVotes (nodup_acceptedVotes cr params hwf.votes_nodup) g1 k,
        show g1.viewAt = S.viewAt by rw [hg1, viewAt_addProposals]]
      cases hfind : (acceptedVotes cr params (chain ++ [block]) coins S parsed chain.length).find?
          (fun v => v.getHash == k) with
      | none => exact hw
      | some v =>
        have hk : v.getHash = k := by simpa using List.find?_some hfind
        obtain ⟨hknown, hbn, hsb, hsh, hfound⟩ :=
          acceptedVotes_spec cr params hwf (List.mem_of_find?_eq_some hfind)
        subst hk
        obtain ⟨p, hp⟩ := Option.ne_none_iff_exists'.mp hknown
        refine hw.addVote rfl ?_ ⟨by omega, .inl ⟨hsb, hsh⟩⟩ hfound
        show g1.propView v.proposal ≠ none
        rw [hF _ p hp]
        exact Option.some_ne_none p
    rw [hP, hlen, viewAt_spendStep, hg2, propView_addVotes, ← hg2]
    split_ifs
    · exact hw2.spendAt hpos _
    · exact hw2
  · -- a proposal is a stored one or one of the block, read at its height
    rw [hlen]
    have hp1 : g1.proposals.lookup ph = some p := (congrFun hP ph).symm.trans hp
    rw [hg1] at hp1
    rcases lookup_addProposals_mem cr hp1 with hp2 | hp2
    · have := hg.propBefore ph p hp2
      omega
    · rw [hwf.proposal_read p (List.mem_of_mem_filter hp2)]
      omega

end Governance

/-- Every store of a chain connected block by block is settled. -/
theorem Connected.settled {cr : Crypto} {params : Params} (h1 : 1 ≤ params.governanceBlock)
    {chain : Chain} {g : Governance} (hc : Connected cr params chain g) : g.Settled cr chain := by
  induction hc with
  | nil => exact Governance.settled_nil
  | snoc block coins _ h ih => exact ih.connect h1 h

end Blocknet.Gov

import Blocknet.Governance.Block

/-!
# The block passes at one vote hash

Every pass of `processBlock` and `BlockDisconnected` over votes is a loop whose iterations are
local to one vote hash (`Lib.LocalOp`): what a pass leaves at a hash is what its iterations at
that hash do, read on `VoteView`. The lemmas here say so for each pass, so that a property of a
whole block operation is a property of `VoteView` at one hash:

* `viewAt_addVotes_of_mem` and `viewAt_addVotes_of_notMem` for the votes recorded;
* `viewAt_spendVotes` and `viewAt_unspendVotes` for the spend passes, which visit the votes of
  the proposals at or after the block (`mem_votesSince`) and may visit one twice;
* `viewAt_disconnectVotes_of_mem` for the removal loop of `BlockDisconnected`.

The proposal loops change the proposals by hash in the same way (`lookup_addProposals_of_mem`,
`lookup_disconnectProposals_of_mem` and their siblings).
-/

namespace Blocknet.Gov

open Blocknet.Lib

/-! ## The spend passes at one hash -/

namespace VoteView

variable (props : Uint256 → Option Proposal)

/-- The spend pass at one hash: `t` is the transaction of the block that spends the vote's
output, where one does. -/
def spendAt (block : Int) (t : Option Uint256) (w : VoteView) : VoteView :=
  match t with
  | none => w
  | some t => w.updateVote props (fun v => v.spend block t) block

/-- The unspend pass at one hash. -/
def unspendAt (block : Int) (t : Option Uint256) (w : VoteView) : VoteView :=
  match t with
  | none => w
  | some t => w.updateVote props (fun v => v.unspend block t) block

/-- An update that changes nothing when made twice, and keeps the proposal, is made once. -/
theorem updateVote_idem (f : Vote → Vote) (hf : ∀ v, f (f v) = f v)
    (hp : ∀ v, (f v).proposal = v.proposal) (block : Int) (w : VoteView) :
    (w.updateVote props f block).updateVote props f block = w.updateVote props f block := by
  unfold updateVote
  cases hv : w.vote with
  | none => simp only [hv]
  | some v =>
    dsimp only
    cases hpv : props v.proposal with
    | none => simp only [hv, hpv]
    | some p =>
      dsimp only
      by_cases hb : p.superblock < block
      · simp only [hv, hpv, if_pos hb]
      · simp only [if_neg hb, hp, hpv, hf]
        ext1
        · rfl
        · cases w.stack <;> simp [modifyBack_idem f hf]
        · funext sb
          dsimp only
          split_ifs <;> simp [Option.map_map, Function.comp_def, hf]

theorem spendAt_idem (block : Int) (t : Option Uint256) (w : VoteView) :
    (w.spendAt props block t).spendAt props block t = w.spendAt props block t := by
  cases t with
  | none => rfl
  | some t => exact updateVote_idem props (fun v => v.spend block t) (fun _ => rfl) (fun _ => rfl) block w

/-- Unspending twice is unspending once, at any block but 0, the block an unspent vote names. -/
theorem unspendAt_idem {block : Int} (hb : block ≠ 0) (t : Option Uint256) (w : VoteView) :
    (w.unspendAt props block t).unspendAt props block t = w.unspendAt props block t := by
  cases t with
  | none => rfl
  | some t =>
    refine updateVote_idem props (fun v => v.unspend block t) (fun v => ?_) (fun v => ?_) block w
    · unfold Vote.unspend
      split_ifs with h1 h2
      · exact absurd h2.1.symm hb
      · rfl
      · rfl
    · unfold Vote.unspend
      split_ifs <;> rfl

end VoteView

/-! ## The passes over votes -/

namespace Governance

variable (cr : Crypto)

/-- One iteration of the spend pass, at the hash it visits. -/
def spendOne (prevouts : Map OutPoint Uint256) (block : Int) (k : VoteHash) (g : Governance) :
    Governance :=
  match prevouts.lookup k.utxo with
  | none => g
  | some t => g.spendVote k block t

/-- One iteration of the unspend pass, at the hash it visits. -/
def unspendOne (prevouts : Map OutPoint Uint256) (block : Int) (k : VoteHash) (g : Governance) :
    Governance :=
  match prevouts.lookup k.utxo with
  | none => g
  | some t => g.unspendVote k block t

theorem spendOne_local (prevouts : Map OutPoint Uint256) (block : Int) (k : VoteHash) :
    LocalOp viewAt propView k (spendOne prevouts block k) := by
  unfold spendOne
  cases prevouts.lookup k.utxo with
  | none => exact LocalOp.id k
  | some t => exact updateVote_local _ k block

theorem unspendOne_local (prevouts : Map OutPoint Uint256) (block : Int) (k : VoteHash) :
    LocalOp viewAt propView k (unspendOne prevouts block k) := by
  unfold unspendOne
  cases prevouts.lookup k.utxo with
  | none => exact LocalOp.id k
  | some t => exact updateVote_local _ k block

theorem viewAt_spendOne (prevouts : Map OutPoint Uint256) (block : Int) (k : VoteHash)
    (g : Governance) :
    (spendOne prevouts block k g).viewAt k =
      (g.viewAt k).spendAt g.propView block (prevouts.lookup k.utxo) := by
  unfold spendOne VoteView.spendAt
  cases prevouts.lookup k.utxo with
  | none => rfl
  | some t => exact (viewAt_updateVote _ g k block k).trans (if_pos rfl)

theorem viewAt_unspendOne (prevouts : Map OutPoint Uint256) (block : Int) (k : VoteHash)
    (g : Governance) :
    (unspendOne prevouts block k g).viewAt k =
      (g.viewAt k).unspendAt g.propView block (prevouts.lookup k.utxo) := by
  unfold unspendOne VoteView.unspendAt
  cases prevouts.lookup k.utxo with
  | none => rfl
  | some t => exact (viewAt_updateVote _ g k block k).trans (if_pos rfl)

end Governance

section Passes

variable (cr : Crypto) {g : Governance}

/-- The votes recorded at once, with distinct hashes: a vote's hash ends as recording it alone
leaves it. -/
theorem viewAt_addVotes_of_mem {vs : List Vote} (hd : (vs.map Vote.getHash).Nodup) {v : Vote}
    (hv : v ∈ vs) (g : Governance) :
    (vs.foldl Governance.addVote g).viewAt v.getHash = (g.viewAt v.getHash).addVote g.propView v := by
  rw [view_foldl_of_mem Vote.getHash (fun v g => g.addVote v)
    (fun x _ => Governance.addVote_local x) hd g hv]
  exact (Governance.viewAt_addVote g v _).trans (if_pos rfl)

theorem viewAt_addVotes_of_notMem {vs : List Vote} {k : VoteHash}
    (hk : k ∉ vs.map Vote.getHash) (g : Governance) :
    (vs.foldl Governance.addVote g).viewAt k = g.viewAt k :=
  view_foldl_of_notMem Vote.getHash (fun v g => g.addVote v)
    (fun x _ => Governance.addVote_local x) g hk

theorem propView_addVotes (vs : List Vote) (g : Governance) :
    (vs.foldl Governance.addVote g).propView = g.propView :=
  frame_foldl Vote.getHash (fun v g => g.addVote v) (fun x _ => Governance.addVote_local x) g

/-- A loop recording votes of distinct hashes, at one hash: the vote of that hash, if the loop
has one, is recorded. -/
theorem viewAt_addVotes {vs : List Vote} (hd : (vs.map Vote.getHash).Nodup) (g : Governance)
    (k : VoteHash) :
    (vs.foldl Governance.addVote g).viewAt k =
      (vs.find? fun v => v.getHash == k).elim (g.viewAt k)
        fun v => (g.viewAt k).addVote g.propView v := by
  cases hf : vs.find? (fun v => v.getHash == k) with
  | none =>
    refine viewAt_addVotes_of_notMem (fun hk => ?_) g
    obtain ⟨v, hv, rfl⟩ := List.mem_map.mp hk
    exact List.find?_eq_none.mp hf v hv (beq_self_eq_true _)
  | some v =>
    have hk : v.getHash = k := by simpa using List.find?_some hf
    subst hk
    exact viewAt_addVotes_of_mem hd (List.mem_of_find?_eq_some hf) g

/-- The spend pass at a hash: the hash is spent if the pass visits it. -/
theorem viewAt_spendVotes (g : Governance) (block : Block) (blockHeight : Int) (k : VoteHash) :
    (spendVotes cr g block blockHeight).viewAt k =
      if k ∈ (votesSince cr g blockHeight false).map Vote.getHash then
        (g.viewAt k).spendAt g.propView blockHeight ((prevoutsOf block).lookup k.utxo)
      else g.viewAt k := by
  have hl := fun x (_ : x ∈ votesSince cr g blockHeight false) =>
    Governance.spendOne_local (prevoutsOf block) blockHeight x.getHash
  rw [show spendVotes cr g block blockHeight = (votesSince cr g blockHeight false).foldl
    (fun s x => Governance.spendOne (prevoutsOf block) blockHeight x.getHash s) g from rfl,
    view_foldl_idem Vote.getHash _ hl ?_ g k]
  · rw [Governance.viewAt_spendOne]
  · -- a vote visited twice is spent once
    intro x _ s
    rw [Governance.viewAt_spendOne, Governance.viewAt_spendOne,
      (Governance.spendOne_local (prevoutsOf block) blockHeight x.getHash).keep s]
    exact VoteView.spendAt_idem _ blockHeight _ _

theorem propView_spendVotes (g : Governance) (block : Block) (blockHeight : Int) :
    (spendVotes cr g block blockHeight).propView = g.propView :=
  frame_foldl Vote.getHash (fun x s => Governance.spendOne (prevoutsOf block) blockHeight x.getHash s)
    (fun x _ => Governance.spendOne_local (prevoutsOf block) blockHeight x.getHash) g

/-- The unspend pass at a hash, at any height but 0. -/
theorem viewAt_unspendVotes (g : Governance) (block : Block) {blockHeight : Int}
    (hb : blockHeight ≠ 0) (k : VoteHash) :
    (unspendVotes cr g block blockHeight).viewAt k =
      if k ∈ (votesSince cr g blockHeight true).map Vote.getHash then
        (g.viewAt k).unspendAt g.propView blockHeight ((prevoutsOf block).lookup k.utxo)
      else g.viewAt k := by
  have hl := fun x (_ : x ∈ votesSince cr g blockHeight true) =>
    Governance.unspendOne_local (prevoutsOf block) blockHeight x.getHash
  rw [show unspendVotes cr g block blockHeight = (votesSince cr g blockHeight true).foldl
    (fun s x => Governance.unspendOne (prevoutsOf block) blockHeight x.getHash s) g from rfl,
    view_foldl_idem Vote.getHash _ hl ?_ g k]
  · rw [Governance.viewAt_unspendOne]
  · intro x _ s
    rw [Governance.viewAt_unspendOne, Governance.viewAt_unspendOne,
      (Governance.unspendOne_local (prevoutsOf block) blockHeight x.getHash).keep s]
    exact VoteView.unspendAt_idem _ hb _ _

theorem propView_unspendVotes (g : Governance) (block : Block) (blockHeight : Int) :
    (unspendVotes cr g block blockHeight).propView = g.propView :=
  frame_foldl Vote.getHash
    (fun x s => Governance.unspendOne (prevoutsOf block) blockHeight x.getHash s)
    (fun x _ => Governance.unspendOne_local (prevoutsOf block) blockHeight x.getHash) g

end Passes

/-! ## Which hashes the spend passes visit -/

/-- The spend passes visit a hash exactly when its proposal is known, at or after the block, and
the map of its superblock holds a vote under the hash (unspent, for the spend pass). -/
theorem mem_votesSince (cr : Crypto) {g : Governance} (hk : g.Keyed) (hp : g.PropKeyed cr)
    (blockHeight : Int) (returnSpent : Bool) (k : VoteHash) :
    k ∈ (votesSince cr g blockHeight returnSpent).map Vote.getHash ↔
      ∃ p x, g.proposals.lookup k.proposal = some p ∧ blockHeight ≤ p.superblock ∧
        g.sbLookup p.superblock k = some x ∧ (returnSpent || !x.spent) = true := by
  rw [List.mem_map]
  simp only [votesSince, Governance.getProposalsSince, Governance.getVotes, List.mem_flatMap,
    List.mem_filter]
  constructor
  · rintro ⟨x, ⟨p, ⟨hpv, hsince⟩, hx⟩, rfl⟩
    obtain ⟨ph, hph⟩ := Map.mem_values.mp hpv
    -- the proposal is stored under its own hash, the vote under its own hash
    have hlook : g.proposals.lookup (p.getHash cr) = some p := hp ph p hph ▸ hph
    rw [hlook] at hx
    dsimp only at hx
    cases hsb : g.sbvotes.lookup p.superblock with
    | none => rw [hsb] at hx; cases hx
    | some vs =>
      rw [hsb] at hx
      obtain ⟨hxv, hcond⟩ := List.mem_filter.mp hx
      obtain ⟨k', hk'⟩ := Map.mem_values.mp hxv
      have hsbk : g.sbLookup p.superblock k' = some x := by simp [Governance.sbLookup, hsb, hk']
      have hxk : x.getHash = k' := (hk k').2.2 p.superblock x hsbk
      simp only [Bool.and_eq_true, beq_iff_eq] at hcond
      refine ⟨p, x, ?_, of_decide_eq_true hsince, hxk ▸ hsbk, hcond.2⟩
      rw [show x.getHash.proposal = x.proposal from rfl, hcond.1]
      exact hlook
  · rintro ⟨p, x, hlook, hsince, hsbk, hcond⟩
    have hpk : p.getHash cr = k.proposal := hp _ p hlook
    have hxk : x.getHash = k := (hk k).2.2 p.superblock x hsbk
    obtain ⟨vs, hsb, hvs⟩ := Option.bind_eq_some_iff.mp hsbk
    refine ⟨x, ⟨p, ⟨Map.mem_values.mpr ⟨_, hlook⟩, decide_eq_true hsince⟩, ?_⟩, hxk⟩
    rw [hpk, hlook]
    dsimp only
    rw [hsb]
    dsimp only
    refine List.mem_filter.mpr ⟨Map.mem_values.mpr ⟨k, hvs⟩, ?_⟩
    simp only [Bool.and_eq_true, beq_iff_eq, hcond, and_true]
    rw [← hxk]
    rfl

/-! ## The removal loop of `BlockDisconnected` -/

section Disconnect

variable (cr : Crypto) (params : Params) (chain : Chain) (parsed : Parsed)
  (vouts : List Uint256) (blockHeight : Int)

/-- Whether the removal loop removes a vote, given what is stored under its hash; a fault counts
as no removal. -/
def removesAt (stored : Option Vote) (vote : Vote) : Bool :=
  match stored with
  | none => false
  | some stvote => okOr false (disconnectRemoves cr params chain parsed vouts blockHeight stvote vote)

/-- What an iteration of the removal loop leaves, where it does not fault. -/
def disconnectOne (vote : Vote) (g : Governance) : Governance :=
  okOr g (disconnectVote cr params chain parsed vouts blockHeight g vote)

theorem disconnectOne_eq (vote : Vote) (g : Governance) :
    disconnectOne cr params chain parsed vouts blockHeight vote g =
      if removesAt cr params chain parsed vouts blockHeight (g.votes.lookup vote.getHash) vote
      then g.removeVote vote else g := by
  unfold disconnectOne removesAt disconnectVote
  cases g.votes.lookup vote.getHash with
  | none => rfl
  | some stvote => exact okOr_bind_ite _ _ g

theorem disconnectOne_local (vote : Vote) :
    LocalOp Governance.viewAt Governance.propView vote.getHash
      (disconnectOne cr params chain parsed vouts blockHeight vote) := by
  have h := LocalOp.cond (Governance.removeVote_local vote false) (LocalOp.id vote.getHash)
    (fun g => removesAt cr params chain parsed vouts blockHeight
      (g.votes.lookup vote.getHash) vote = true)
    (fun s t hv _ => by rw [show s.votes.lookup vote.getHash = t.votes.lookup vote.getHash from
      congrArg VoteView.vote hv])
  rw [show disconnectOne cr params chain parsed vouts blockHeight vote = fun g =>
    if removesAt cr params chain parsed vouts blockHeight (g.votes.lookup vote.getHash) vote = true
    then g.removeVote vote false else g from funext (disconnectOne_eq cr params chain parsed vouts
      blockHeight vote)]
  exact h

variable {votes : List Vote} (hd : (votes.map Vote.getHash).Nodup)
include hd

/-- A vote read from the block ends as its own iteration leaves it: removed where the loop
decides so on the vote stored under its hash. -/
theorem viewAt_disconnectVotes_of_mem {vote : Vote} (hv : vote ∈ votes) (g : Governance) :
    (votes.foldl (fun g v => disconnectOne cr params chain parsed vouts blockHeight v g) g).viewAt
        vote.getHash =
      if removesAt cr params chain parsed vouts blockHeight (g.viewAt vote.getHash).vote vote then
        (g.viewAt vote.getHash).removeVote g.propView vote false
      else g.viewAt vote.getHash := by
  rw [view_foldl_of_mem Vote.getHash (disconnectOne cr params chain parsed vouts blockHeight)
    (fun x _ => disconnectOne_local cr params chain parsed vouts blockHeight x) hd g hv,
    disconnectOne_eq]
  rw [show g.votes.lookup vote.getHash = (g.viewAt vote.getHash).vote from rfl]
  split_ifs
  · exact (Governance.viewAt_removeVote g vote false _).trans (if_pos rfl)
  · rfl

end Disconnect

section Untouched

variable (cr : Crypto) (params : Params) (chain : Chain) (parsed : Parsed)
  (vouts : List Uint256) (blockHeight : Int) {votes : List Vote}

theorem viewAt_disconnectVotes_of_notMem {k : VoteHash} (hk : k ∉ votes.map Vote.getHash)
    (g : Governance) :
    (votes.foldl (fun g v => disconnectOne cr params chain parsed vouts blockHeight v g) g).viewAt
      k = g.viewAt k :=
  view_foldl_of_notMem Vote.getHash (disconnectOne cr params chain parsed vouts blockHeight)
    (fun x _ => disconnectOne_local cr params chain parsed vouts blockHeight x) g hk

theorem propView_disconnectVotes (g : Governance) :
    (votes.foldl (fun g v => disconnectOne cr params chain parsed vouts blockHeight v g)
      g).propView = g.propView :=
  frame_foldl Vote.getHash (disconnectOne cr params chain parsed vouts blockHeight)
    (fun x _ => disconnectOne_local cr params chain parsed vouts blockHeight x) g

end Untouched

/-! ## The proposal loops -/

section Proposals

variable (cr : Crypto) (params : Params) (blockHeight : Int)

/-- The proposals by hash. -/
def propLookup (g : Governance) (ph : Uint256) : Option Proposal := g.proposals.lookup ph

theorem addProposal_local (p : Proposal) :
    LocalOp propLookup (fun _ => ()) (p.getHash cr) (fun g : Governance => g.addProposal cr p) := by
  refine ⟨fun g ph hph => ?_, fun _ => rfl, fun g g' hv _ => ?_⟩
  · unfold Governance.addProposal propLookup
    split_ifs
    · rfl
    · exact AList.lookup_insert_ne hph
  · unfold Governance.addProposal propLookup at *
    have hv' : g.proposals.lookup (p.getHash cr) = g'.proposals.lookup (p.getHash cr) := hv
    rw [hv']
    split_ifs
    · exact hv
    · simp

theorem disconnectProposal_local (p : Proposal) :
    LocalOp propLookup (fun _ => ()) (p.getHash cr)
      (fun g => disconnectProposal cr params blockHeight g p) := by
  refine ⟨fun g ph hph => ?_, fun _ => rfl, fun g g' hv _ => ?_⟩
  · unfold disconnectProposal propLookup
    split
    · rfl
    · split_ifs
      · rfl
      · exact AList.lookup_erase_ne hph
      · rfl
  · unfold disconnectProposal propLookup at *
    have hv' : g.proposals.lookup (p.getHash cr) = g'.proposals.lookup (p.getHash cr) := hv
    rw [hv']
    split
    · exact hv
    · split_ifs
      · exact hv
      · simp [Governance.removeProposal]
      · exact hv

/-- A proposal of the block is recorded under its hash unless one is there. -/
theorem lookup_addProposals_of_mem {ps : List Proposal}
    (hd : (ps.map (Proposal.getHash cr)).Nodup) {p : Proposal} (hp : p ∈ ps) (g : Governance) :
    (ps.foldl (Governance.addProposal cr) g).proposals.lookup (p.getHash cr) =
      (g.proposals.lookup (p.getHash cr)).or (some p) := by
  rw [show (ps.foldl (Governance.addProposal cr) g).proposals.lookup (p.getHash cr) =
      propLookup (ps.foldl (fun g p => g.addProposal cr p) g) (p.getHash cr) from rfl,
    view_foldl_of_mem (Proposal.getHash cr) (fun p g => g.addProposal cr p)
      (fun x _ => addProposal_local cr x) hd g hp]
  unfold Governance.addProposal propLookup
  cases h : g.proposals.lookup (p.getHash cr) with
  | none => simp
  | some q => simp [h]

theorem lookup_addProposals_of_notMem {ps : List Proposal} {ph : Uint256}
    (hph : ph ∉ ps.map (Proposal.getHash cr)) (g : Governance) :
    (ps.foldl (Governance.addProposal cr) g).proposals.lookup ph = g.proposals.lookup ph :=
  view_foldl_of_notMem (Proposal.getHash cr) (fun p g => g.addProposal cr p)
    (fun x _ => addProposal_local cr x) g hph

/-- Recording proposals leaves every vote hash as it was. -/
theorem viewAt_addProposals (ps : List Proposal) (g : Governance) :
    (ps.foldl (Governance.addProposal cr) g).viewAt = g.viewAt := by
  induction ps generalizing g with
  | nil => rfl
  | cons p ps ih => rw [List.foldl_cons, ih, Governance.viewAt_addProposal]

/-- A stored proposal is never overwritten. -/
theorem lookup_addProposals_of_some (ps : List Proposal) {ph : Uint256} {p : Proposal}
    {g : Governance} (h : g.proposals.lookup ph = some p) :
    (ps.foldl (Governance.addProposal cr) g).proposals.lookup ph = some p := by
  induction ps generalizing g with
  | nil => exact h
  | cons q ps ih =>
    apply ih
    unfold Governance.addProposal
    split_ifs with hq
    · exact h
    · have hne : ph ≠ q.getHash cr := by
        rintro rfl
        simp [h] at hq
      exact (AList.lookup_insert_ne hne).trans h

/-- A proposal the loop leaves is a stored one or one of the loop's. -/
theorem lookup_addProposals_mem {ps : List Proposal} {ph : Uint256} {p : Proposal}
    {g : Governance} (h : (ps.foldl (Governance.addProposal cr) g).proposals.lookup ph = some p) :
    g.proposals.lookup ph = some p ∨ p ∈ ps := by
  induction ps generalizing g with
  | nil => exact .inl h
  | cons q ps ih =>
    rcases ih h with h' | h'
    · unfold Governance.addProposal at h'
      split_ifs at h'
      · exact .inl h'
      · by_cases hq : ph = q.getHash cr
        · subst hq
          rw [AList.lookup_insert, Option.some.injEq] at h'
          exact .inr (h' ▸ List.mem_cons_self)
        · exact .inl ((AList.lookup_insert_ne hq).symm.trans h')
    · exact .inr (List.mem_cons_of_mem q h')

/-- A proposal of the block is removed if the one stored under its hash is from the block. -/
theorem lookup_disconnectProposals_of_mem {ps : List Proposal}
    (hd : (ps.map (Proposal.getHash cr)).Nodup) {p : Proposal} (hp : p ∈ ps) (g : Governance) :
    (ps.foldl (disconnectProposal cr params blockHeight) g).proposals.lookup (p.getHash cr) =
      match g.proposals.lookup (p.getHash cr) with
      | none => none
      | some st => if p.isValid params ∧ st.blockNumber = blockHeight then none else some st := by
  rw [show (ps.foldl (disconnectProposal cr params blockHeight) g).proposals.lookup (p.getHash cr)
      = propLookup (ps.foldl (fun g p => disconnectProposal cr params blockHeight g p) g)
        (p.getHash cr) from rfl,
    view_foldl_of_mem (Proposal.getHash cr) (fun p g => disconnectProposal cr params blockHeight g p)
      (fun x _ => disconnectProposal_local cr params blockHeight x) hd g hp]
  unfold disconnectProposal propLookup
  cases h : g.proposals.lookup (p.getHash cr) with
  | none => simp [h]
  | some st =>
    by_cases hv : p.isValid params = true
    · by_cases hb : st.blockNumber = blockHeight
      · simp [hv, hb, Governance.removeProposal]
      · simp [h, hv, hb]
    · simp [h, hv]

theorem lookup_disconnectProposals_of_notMem {ps : List Proposal} {ph : Uint256}
    (hph : ph ∉ ps.map (Proposal.getHash cr)) (g : Governance) :
    (ps.foldl (disconnectProposal cr params blockHeight) g).proposals.lookup ph =
      g.proposals.lookup ph :=
  view_foldl_of_notMem (Proposal.getHash cr)
    (fun p g => disconnectProposal cr params blockHeight g p)
    (fun x _ => disconnectProposal_local cr params blockHeight x) g hph

/-- Removing proposals leaves every vote hash as it was. -/
theorem viewAt_disconnectProposals (ps : List Proposal) (g : Governance) :
    (ps.foldl (disconnectProposal cr params blockHeight) g).viewAt = g.viewAt := by
  induction ps generalizing g with
  | nil => rfl
  | cons p ps ih =>
    rw [List.foldl_cons, ih]
    unfold disconnectProposal
    split
    · rfl
    · split_ifs <;> rfl

end Proposals

/-! ## The votes a block records -/

section Accept

variable (cr : Crypto) (params : Params) {chain : Chain} {coins : OutPoint → Option Coin}
  {g : Governance} {vh : Map VoteHash (List Bytes)} {blockHeight : Int}
  {processingChainTip : Bool}

/-- A vote recorded is the vote read with the key id and amount of its output, after every
check passed. -/
theorem acceptVote_eq_some {vote v : Vote}
    (h : acceptVote cr params chain coins g vh blockHeight processingChainTip vote = .ok (some v)) :
    passesTipChecks params g blockHeight processingChainTip vote = true ∧
      vote.loadVoteUTXO cr params chain = .ok (some v) ∧
      ∃ vhashes, vh.lookup vote.getHash = some vhashes ∧
        v.isValidWithVinHashes cr vhashes params = true := by
  unfold acceptVote at h
  split at h
  · cases h
  rename_i htip
  obtain ⟨o, ho, h⟩ := except_bind_eq_ok h
  split at h
  · cases h
  rename_i v' _
  split at h
  · cases h
  rename_i vhashes hvh
  dsimp only at h
  split_ifs at h with hvalid hspent
  · cases h
  · cases h
  · cases h
    refine ⟨by simpa using htip, ho, vhashes, hvh, by simpa using hvalid⟩

/-- A vote recorded differs from the vote read in its key id and amount alone. -/
theorem acceptVote_eq_with {vote v : Vote}
    (h : acceptVote cr params chain coins g vh blockHeight processingChainTip vote = .ok (some v)) :
    ∃ keyid amount, v = { vote with keyid, amount } := by
  obtain ⟨-, hload, -⟩ := acceptVote_eq_some cr params h
  obtain ⟨out, keyid, -, rfl⟩ := loadVoteUTXO_eq_some hload
  exact ⟨keyid, out.nValue, rfl⟩

/-- Over votes with distinct hashes, the loop of `filterDataFromBlock` appends the votes it
records in the order read. -/
theorem filterVotes_eq {l vsRet r : List Vote} (hl : (l.map Vote.getHash).Nodup)
    (hd : ∀ w ∈ vsRet, w.getHash ∉ l.map Vote.getHash)
    (h : l.foldlM (filterVote cr params chain coins g vh blockHeight processingChainTip) vsRet =
      .ok r) :
    r = vsRet ++ l.filterMap fun vote =>
      okOr none (acceptVote cr params chain coins g vh blockHeight processingChainTip vote) := by
  induction l generalizing vsRet with
  | nil =>
    cases h
    simp
  | cons x l ih =>
    rw [List.map_cons, List.nodup_cons] at hl
    rw [List.foldlM_cons] at h
    obtain ⟨t, ht, h⟩ := except_bind_eq_ok h
    unfold filterVote at ht
    obtain ⟨o, ho, ht⟩ := except_bind_eq_ok ht
    rw [List.filterMap_cons, ho]
    cases o with
    | none =>
      cases ht
      exact ih hl.2 (fun w hw hwl => hd w hw (List.mem_cons_of_mem _ hwl)) h
    | some v =>
      cases ht
      have hv : v.getHash = x.getHash := by
        obtain ⟨keyid, amount, rfl⟩ := acceptVote_eq_with cr params ho
        rfl
      -- no vote kept so far has its hash, so recording it appends it
      have hins : insertVote vsRet v = vsRet ++ [v] := by
        unfold insertVote
        rw [List.filter_eq_self.mpr]
        intro w hw
        have hne : w.getHash ≠ v.getHash := fun he =>
          hd w hw (he ▸ hv ▸ List.mem_cons_self)
        simpa using hne
      rw [hins] at h
      have hd' : ∀ w ∈ vsRet ++ [v], w.getHash ∉ l.map Vote.getHash := by
        intro w hw
        rcases List.mem_append.mp hw with hw | hw
        · exact fun hwl => hd w hw (List.mem_cons_of_mem _ hwl)
        · rw [List.mem_singleton.mp hw, hv]
          exact hl.1
      rw [ih hl.2 hd' h]
      simp

end Accept

/-! ## The block operations, pass by pass -/

section Inversion

variable (cr : Crypto) (params : Params) {chain : Chain} {coins : OutPoint → Option Coin}
  {g g' : Governance} {block : Block} {blockHeight : Int}

/-- The proposals of a block that `processBlock` records. -/
def recordedProposals (parsed : Parsed) (blockHeight : Int) : List Proposal :=
  parsed.proposals.filter fun p =>
    !(0 < blockHeight && !outsideProposalCutoff params p blockHeight) && p.isValid params

/-- The votes of a block that `processBlock` records at the chain tip, in the order read. -/
def acceptedVotes (chain : Chain) (coins : OutPoint → Option Coin) (g : Governance)
    (parsed : Parsed) (blockHeight : Int) : List Vote :=
  parsed.votes.filterMap fun vote =>
    okOr none (acceptVote cr params chain coins g parsed.vinHashes blockHeight true vote)

/-- The spend pass of `processBlock` at the chain tip, taken where the store holds votes. -/
def spendStep (g : Governance) (block : Block) (blockHeight : Int) : Governance :=
  if g.votes.entries.isEmpty then g else spendVotes cr g block blockHeight

/-- `processBlock` at the chain tip: the proposals of the block that pass the filter are
recorded (`g1`), then the votes the filter keeps (`g2`), then the spend pass. -/
theorem processBlock_tip_eq
    (h : processBlock cr params chain coins g block blockHeight true = .ok g') :
    ∃ parsed g1 g2, dataFromBlock cr block blockHeight = .ok parsed ∧
      g1 = (recordedProposals params parsed blockHeight).foldl (Governance.addProposal cr) g ∧
      g2 = (acceptedVotes cr params chain coins g parsed blockHeight).foldl Governance.addVote g1 ∧
      g' = spendStep cr g2 block blockHeight := by
  unfold processBlock at h
  obtain ⟨parsed, hparsed, h⟩ := except_bind_eq_ok h
  obtain ⟨⟨ps, vs⟩, hf, h⟩ := except_bind_eq_ok h
  unfold filterDataFromBlock at hf
  obtain ⟨vs', hvs, hf⟩ := except_bind_eq_ok hf
  cases hf
  have hwf := dataFromBlock_wf hparsed
  rw [filterVotes_eq cr params hwf.votes_nodup (fun _ hw => absurd hw List.not_mem_nil) hvs,
    List.nil_append] at h
  refine ⟨parsed, _, _, hparsed, rfl, rfl, ?_⟩
  dsimp only at h
  simp only [Bool.not_true, Bool.false_or] at h
  rw [← apply_ite (pure : Governance → Except Fault Governance)] at h
  cases h
  rfl

/-- A vote recorded at the tip is a vote read from the block, which every check passed. -/
theorem mem_acceptedVotes {parsed : Parsed} {v : Vote}
    (hv : v ∈ acceptedVotes cr params chain coins g parsed blockHeight) :
    ∃ u ∈ parsed.votes,
      acceptVote cr params chain coins g parsed.vinHashes blockHeight true u = .ok (some v) := by
  obtain ⟨u, hu, hok⟩ := List.mem_filterMap.mp hv
  exact ⟨u, hu, okOr_eq_some hok⟩

theorem nodup_acceptedVotes {parsed : Parsed} (hd : (parsed.votes.map Vote.getHash).Nodup) :
    ((acceptedVotes cr params chain coins g parsed blockHeight).map Vote.getHash).Nodup :=
  nodup_map_filterMap (fun u v huv => by
    obtain ⟨keyid, amount, rfl⟩ := acceptVote_eq_with cr params (okOr_eq_some huv)
    rfl) hd

/-- A vote recorded at the tip: its proposal is stored, it was read at the block's height and is
unspent, and its output is in the chain. -/
theorem acceptedVotes_spec {parsed : Parsed} (hwf : parsed.WF cr blockHeight) {v : Vote}
    (hv : v ∈ acceptedVotes cr params chain coins g parsed blockHeight) :
    g.proposals.lookup v.proposal ≠ none ∧ v.blockNumber = blockHeight ∧ v.spentBlock = 0 ∧
      v.spentHash = 0 ∧ chain.getTransaction v.utxo.hash ≠ none := by
  obtain ⟨u, hu, hacc⟩ := mem_acceptedVotes cr params hv
  obtain ⟨htip, hload, -⟩ := acceptVote_eq_some cr params hacc
  obtain ⟨keyid, amount, rfl⟩ := acceptVote_eq_with cr params hacc
  obtain ⟨out, keyid', hval, -⟩ := loadVoteUTXO_eq_some hload
  obtain ⟨tx, height, hfind, -⟩ := ValidateVoteUTXO_eq_some hval
  obtain ⟨hbn, hsb, hsh⟩ := hwf.vote_read u hu
  refine ⟨?_, hbn, hsb, hsh, fun he => ?_⟩
  · -- at the tip the vote's proposal must be stored
    show g.proposals.lookup u.proposal ≠ none
    intro hnone
    simp [passesTipChecks, hnone] at htip
  · change chain.getTransaction u.utxo.hash = none at he
    rw [hfind] at he
    cases he

/-- The spend step at one hash: spent where the pass runs and visits the hash. -/
theorem viewAt_spendStep (g : Governance) (block : Block) (blockHeight : Int) (k : VoteHash) :
    (spendStep cr g block blockHeight).viewAt k =
      if !g.votes.entries.isEmpty && decide (k ∈ (votesSince cr g blockHeight false).map Vote.getHash)
      then (g.viewAt k).spendAt g.propView blockHeight ((prevoutsOf block).lookup k.utxo)
      else g.viewAt k := by
  unfold spendStep
  cases g.votes.entries.isEmpty with
  | true => rfl
  | false =>
    rw [if_neg Bool.false_ne_true, viewAt_spendVotes]
    simp only [Bool.not_false, Bool.true_and, decide_eq_true_eq]

theorem propView_spendStep (g : Governance) (block : Block) (blockHeight : Int) :
    (spendStep cr g block blockHeight).propView = g.propView := by
  unfold spendStep
  split_ifs
  · rfl
  · exact propView_spendVotes cr g block blockHeight

/-- `BlockDisconnected` from the governance start on, below the maximal height: the removal loop,
the proposal loop, then the unspend pass. -/
theorem BlockDisconnected_eq (hh : params.governanceBlock ≤ blockHeight)
    (hmax : blockHeight ≠ maxInt)
    (h : BlockDisconnected cr params chain g block blockHeight = .ok g') :
    ∃ parsed, dataFromBlock cr block blockHeight = .ok parsed ∧
      g' = unspendVotes cr (parsed.proposals.foldl (disconnectProposal cr params blockHeight)
        (parsed.votes.foldl (fun g v =>
          disconnectOne cr params chain parsed (block.vtx.map (·.hash)) blockHeight v g) g))
        block blockHeight := by
  unfold BlockDisconnected at h
  rw [if_neg (not_lt.mpr hh)] at h
  obtain ⟨parsed, hparsed, h⟩ := except_bind_eq_ok h
  obtain ⟨g4, h4, h⟩ := except_bind_eq_ok h
  refine ⟨parsed, hparsed, ?_⟩
  rw [foldlM_eq_foldl h4] at h
  dsimp only at h
  rw [if_neg (by simpa using hmax)] at h
  cases h
  rfl

end Inversion

end Blocknet.Gov

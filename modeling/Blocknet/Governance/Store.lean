import Blocknet.Governance.Object
import Blocknet.Lib.Map
import Blocknet.Lib.Steps

/-!
# The governance store

Model of the four maps of `Governance` (`governance.h`) and the member functions that change
them: `addVote`, `removeVote`, `spendVote`, `unspendVote`, `addProposal`, `removeProposal` and
`reset`, with the queries that `processBlock`, `BlockDisconnected` and `loadGovernanceData` make.

* `proposals` maps a proposal's hash to the proposal;
* `votes` maps a vote's hash to the vote that counts;
* `stackvotes` maps it to the history of that vote, the one that counts last;
* `sbvotes` maps a superblock to the votes on its proposals, by hash.

Every operation on votes changes one vote hash and reads the proposals and that hash alone. Its
effect on a hash is written once, on `VoteView` (what the store holds for one hash), and the
lemmas `viewAt_addVote`, `viewAt_removeVote` and `viewAt_updateVote` say that the map-level
functions act so; `addVote_local` and its siblings package this as `Lib.LocalOp`.

Where the C++ code would call `pop_back` or `back` on an empty stack (undefined behaviour), the
model empties or keeps it; `StackOk` (every vote is the top of its non-empty stack) rules those
cases out in every reachable state (`stackOk_addVote` and its siblings).
-/

namespace Blocknet.Gov

open Blocknet.Lib

/-- The data members of `Governance`. -/
structure Governance where
  proposals : Map Uint256 Proposal := ∅
  votes : Map VoteHash Vote := ∅
  stackvotes : Map VoteHash (List Vote) := ∅
  sbvotes : Map Int (Map VoteHash Vote) := ∅

namespace Governance

variable (cr : Crypto)

/-- `Governance::reset`. -/
def reset (_g : Governance) : Governance := {}

/-- `Governance::addVote`: recorded only when its proposal is known. -/
def addVote (g : Governance) (vote : Vote) : Governance :=
  match g.proposals.lookup vote.proposal with
  | none => g
  | some proposal =>
    let voteHash := vote.getHash
    { g with
      stackvotes := g.stackvotes.insert voteHash ((g.stackvotes.lookup voteHash).getD [] ++ [vote])
      votes := g.votes.insert voteHash vote
      sbvotes := g.sbvotes.insert proposal.superblock
        (((g.sbvotes.lookup proposal.superblock).getD ∅).insert voteHash vote) }

/-- `Governance::removeVote`: the top of the stack is dropped (all of it when `force`), the
next one counts (`top`; `none` when the stack is left empty and is erased), and the superblock's
map follows when the proposal is still known and the map holds the vote. -/
def removeVote (g : Governance) (vote : Vote) (force : Bool := false) : Governance :=
  let voteHash := vote.getHash
  if (g.votes.lookup voteHash).isNone then g
  else
    let rest := if force then [] else ((g.stackvotes.lookup voteHash).getD []).dropLast
    let top := rest.getLast?
    { g with
      stackvotes := Map.setOpt g.stackvotes voteHash (if top.isNone then none else some rest)
      votes := Map.setOpt g.votes voteHash top
      sbvotes := match g.proposals.lookup vote.proposal with
        | none => g.sbvotes
        | some proposal => Map.modify g.sbvotes proposal.superblock fun vs =>
            if (vs.lookup voteHash).isNone then vs else Map.setOpt vs voteHash top }

/-- The body `spendVote` and `unspendVote` share: `f` applied to the vote, to its entry in the
superblock's map and to the top of its stack, unless its proposal is unknown or its superblock
is before `block`. -/
def updateVote (f : Vote → Vote) (g : Governance) (voteHash : VoteHash) (block : Int) :
    Governance :=
  match g.votes.lookup voteHash with
  | none => g
  | some vote =>
    match g.proposals.lookup vote.proposal with
    | none => g
    | some proposal =>
      if proposal.superblock < block then g
      else
        { g with
          votes := g.votes.insert voteHash (f vote)
          sbvotes := Map.modify g.sbvotes proposal.superblock (fun mv => Map.modify mv voteHash f)
          stackvotes := Map.modify g.stackvotes voteHash (modifyBack f) }

/-- `Governance::spendVote`. -/
def spendVote (g : Governance) (voteHash : VoteHash) (block : Int) (txhash : Uint256) :
    Governance :=
  updateVote (fun v => v.spend block txhash) g voteHash block

/-- `Governance::unspendVote`. -/
def unspendVote (g : Governance) (voteHash : VoteHash) (block : Int) (txhash : Uint256) :
    Governance :=
  updateVote (fun v => v.unspend block txhash) g voteHash block

/-- `Governance::addProposal`: an existing proposal is never overwritten. -/
def addProposal (g : Governance) (proposal : Proposal) : Governance :=
  if (g.proposals.lookup (proposal.getHash cr)).isSome then g
  else { g with proposals := g.proposals.insert (proposal.getHash cr) proposal }

/-- `Governance::removeProposal`. -/
def removeProposal (g : Governance) (proposal : Proposal) : Governance :=
  { g with proposals := g.proposals.erase (proposal.getHash cr) }

/-! ## Queries -/

/-- `Governance::hasProposal(hash, blockNumber)`: known, from a block before `blockNumber`. -/
def hasProposal (g : Governance) (hash : Uint256) (blockNumber : Int) : Bool :=
  match g.proposals.lookup hash with
  | some p => p.blockNumber < blockNumber
  | none => false

/-- `Governance::getProposal`: the default proposal when unknown. -/
def getProposal (g : Governance) (hash : Uint256) : Proposal := (g.proposals.lookup hash).getD {}

/-- `Governance::getProposalsSince`. -/
def getProposalsSince (g : Governance) (since : Int) : List Proposal :=
  (g.proposals.entries.map (·.2)).filter (fun p => since ≤ p.superblock)

/-- `Governance::getVotes(proposalHash, returnSpent)`. -/
def getVotes (g : Governance) (proposalHash : Uint256) (returnSpent : Bool) : List Vote :=
  match g.proposals.lookup proposalHash with
  | none => []
  | some proposal =>
    match g.sbvotes.lookup proposal.superblock with
    | none => []
    | some vs =>
      (vs.entries.map (·.2)).filter (fun v => v.proposal == proposalHash && (returnSpent || !v.spent))

/-- `Governance::getVotes(superblock)`: the unspent votes of a superblock. -/
def getSuperblockVotes (g : Governance) (superblock : Int) : List Vote :=
  match g.sbvotes.lookup superblock with
  | none => []
  | some vs => (vs.entries.map (·.2)).filter (fun v => !v.spent)

end Governance

/-! ## One vote hash -/

/-- What the store holds for one vote hash: the vote, its stack, and its entry in the map of
every superblock. -/
@[ext] structure VoteView where
  vote : Option Vote
  stack : Option (List Vote)
  sb : Int → Option Vote

namespace Governance

/-- The entry for `k` in the map of superblock `sb`. -/
def sbLookup (g : Governance) (sb : Int) (k : VoteHash) : Option Vote :=
  (g.sbvotes.lookup sb).bind (·.lookup k)

/-- What `g` holds for the vote hash `k`. -/
def viewAt (g : Governance) (k : VoteHash) : VoteView :=
  ⟨g.votes.lookup k, g.stackvotes.lookup k, fun sb => g.sbLookup sb k⟩

/-- The proposals, as the vote operations read them. -/
def propView (g : Governance) : Uint256 → Option Proposal := fun h => g.proposals.lookup h

end Governance

namespace VoteView

variable (props : Uint256 → Option Proposal)

/-- `addVote` at the vote's hash. -/
def addVote (v : Vote) (w : VoteView) : VoteView :=
  match props v.proposal with
  | none => w
  | some p => ⟨some v, some (w.stack.getD [] ++ [v]),
      fun sb => if sb = p.superblock then some v else w.sb sb⟩

/-- `removeVote` at the vote's hash. -/
def removeVote (v : Vote) (force : Bool) (w : VoteView) : VoteView :=
  if w.vote.isNone then w
  else
    let rest := if force then [] else (w.stack.getD []).dropLast
    let top := rest.getLast?
    ⟨top, if top.isNone then none else some rest, fun sb =>
      match props v.proposal with
      | some p => if sb = p.superblock ∧ (w.sb sb).isSome then top else w.sb sb
      | none => w.sb sb⟩

/-- `updateVote f` at its hash. -/
def updateVote (f : Vote → Vote) (block : Int) (w : VoteView) : VoteView :=
  match w.vote with
  | none => w
  | some vote =>
    match props vote.proposal with
    | none => w
    | some p =>
      if p.superblock < block then w
      else ⟨some (f vote), w.stack.map (modifyBack f),
        fun sb => if sb = p.superblock then (w.sb sb).map f else w.sb sb⟩

end VoteView

/-! ## Each operation at one vote hash -/

namespace Governance

/-- `addVote` changes the vote's hash alone, as `VoteView.addVote` says. -/
theorem viewAt_addVote (g : Governance) (v : Vote) (k : VoteHash) :
    (g.addVote v).viewAt k =
      if k = v.getHash then (g.viewAt k).addVote g.propView v else g.viewAt k := by
  unfold addVote
  cases hp : g.proposals.lookup v.proposal with
  | none => simp [VoteView.addVote, propView, hp]
  | some p =>
    by_cases hk : k = v.getHash
    · subst hk
      simp only [if_true, VoteView.addVote, propView, hp, viewAt, sbLookup]
      ext1
      · simp
      · simp
      · funext sb
        by_cases hsb : sb = p.superblock <;> simp [hsb, Map.lookup_insert_eq_ite]
    · simp only [if_neg hk, viewAt, sbLookup]
      ext1
      · simp [hk]
      · simp [hk]
      · funext sb
        by_cases hsb : sb = p.superblock
        · subst hsb; simp [hk]
        · simp [hsb]

/-- `removeVote` changes the vote's hash alone, as `VoteView.removeVote` says. -/
theorem viewAt_removeVote (g : Governance) (v : Vote) (force : Bool) (k : VoteHash) :
    (g.removeVote v force).viewAt k =
      if k = v.getHash then (g.viewAt k).removeVote g.propView v force else g.viewAt k := by
  by_cases hvn : (g.votes.lookup v.getHash).isNone
  · -- an unknown vote is left alone
    by_cases hk : k = v.getHash
    · subst hk; simp [removeVote, VoteView.removeVote, viewAt, hvn]
    · simp [removeVote, hvn, hk]
  unfold removeVote
  rw [if_neg hvn]
  dsimp only
  by_cases hk : k = v.getHash
  · subst hk
    have hw : (g.viewAt v.getHash).vote.isNone = false := Bool.eq_false_iff.mpr hvn
    rw [if_pos rfl, VoteView.removeVote, hw]
    simp only [Bool.false_eq_true, if_false]
    ext1
    · simp [viewAt]
    · simp [viewAt]
    · funext sb
      simp only [viewAt, sbLookup, propView]
      cases hp : g.proposals.lookup v.proposal with
      | none => rfl
      | some p =>
        dsimp only
        by_cases hsb : sb = p.superblock
        · subst hsb
          simp only [Map.lookup_modify, if_true]
          cases g.sbvotes.lookup p.superblock with
          | none => simp
          | some vs => cases hvs : vs.lookup v.getHash <;> simp [hvs]
        · simp [hsb]
  · rw [if_neg hk]
    ext1
    · simp [viewAt, hk]
    · simp [viewAt, hk]
    · funext sb
      simp only [viewAt, sbLookup]
      cases hp : g.proposals.lookup v.proposal with
      | none => rfl
      | some p =>
        dsimp only
        by_cases hsb : sb = p.superblock
        · subst hsb
          simp only [Map.lookup_modify, if_true]
          cases g.sbvotes.lookup p.superblock with
          | none => simp
          | some vs => cases hvs : vs.lookup v.getHash <;> simp [hvs, hk]
        · simp [hsb]

/-- `updateVote` changes its hash alone, as `VoteView.updateVote` says. -/
theorem viewAt_updateVote (f : Vote → Vote) (g : Governance) (h : VoteHash) (block : Int)
    (k : VoteHash) :
    (g.updateVote f h block).viewAt k =
      if k = h then (g.viewAt k).updateVote g.propView f block else g.viewAt k := by
  unfold updateVote
  cases hv : g.votes.lookup h with
  | none =>
    by_cases hk : k = h
    · subst hk; simp [VoteView.updateVote, viewAt, hv]
    · simp [hk]
  | some vote =>
    dsimp only
    cases hp : g.proposals.lookup vote.proposal with
    | none =>
      by_cases hk : k = h
      · subst hk; simp [VoteView.updateVote, viewAt, hv, propView, hp]
      · simp [hk]
    | some p =>
      dsimp only
      by_cases hlt : p.superblock < block
      · by_cases hk : k = h
        · subst hk; simp [VoteView.updateVote, viewAt, hv, propView, hp, hlt]
        · simp [hk, hlt]
      · rw [if_neg hlt]
        by_cases hk : k = h
        · subst hk
          simp only [if_true, VoteView.updateVote, viewAt, hv, propView, hp, if_neg hlt]
          ext1
          · simp
          · simp
          · funext sb
            simp only [sbLookup, Map.lookup_modify]
            by_cases hsb : sb = p.superblock
            · subst hsb; cases g.sbvotes.lookup p.superblock <;> simp
            · simp [hsb]
        · rw [if_neg hk]
          ext1
          · simp [viewAt, hk]
          · simp [viewAt, hk]
          · funext sb
            simp only [viewAt, sbLookup, Map.lookup_modify]
            by_cases hsb : sb = p.superblock
            · subst hsb; cases g.sbvotes.lookup p.superblock <;> simp [hk]
            · simp [hsb]

@[simp] theorem propView_addVote (g : Governance) (v : Vote) : (g.addVote v).propView = g.propView := by
  unfold addVote
  cases g.proposals.lookup v.proposal <;> rfl

@[simp] theorem propView_removeVote (g : Governance) (v : Vote) (force : Bool) :
    (g.removeVote v force).propView = g.propView := by
  unfold removeVote
  dsimp only
  split <;> rfl

@[simp] theorem propView_updateVote (f : Vote → Vote) (g : Governance) (h : VoteHash) (block : Int) :
    (g.updateVote f h block).propView = g.propView := by
  unfold updateVote
  split
  · rfl
  · split
    · rfl
    · split_ifs <;> rfl

@[simp] theorem viewAt_addProposal (g : Governance) (p : Proposal) :
    (g.addProposal cr p).viewAt = g.viewAt := by
  unfold addProposal
  split_ifs <;> rfl

@[simp] theorem viewAt_removeProposal (g : Governance) (p : Proposal) :
    (g.removeProposal cr p).viewAt = g.viewAt := rfl

/-! ## The operations are local to their vote hash -/

theorem addVote_local (v : Vote) :
    LocalOp viewAt propView v.getHash (fun g : Governance => g.addVote v) where
  other g k hk := by rw [viewAt_addVote, if_neg hk]
  keep g := propView_addVote g v
  congr g g' hv hp := by rw [viewAt_addVote, viewAt_addVote, if_pos rfl, if_pos rfl, hv, hp]

theorem removeVote_local (v : Vote) (force : Bool) :
    LocalOp viewAt propView v.getHash (fun g : Governance => g.removeVote v force) where
  other g k hk := by rw [viewAt_removeVote, if_neg hk]
  keep g := propView_removeVote g v force
  congr g g' hv hp := by rw [viewAt_removeVote, viewAt_removeVote, if_pos rfl, if_pos rfl, hv, hp]

theorem updateVote_local (f : Vote → Vote) (h : VoteHash) (block : Int) :
    LocalOp viewAt propView h (fun g : Governance => g.updateVote f h block) where
  other g k hk := by rw [viewAt_updateVote, if_neg hk]
  keep g := propView_updateVote f g h block
  congr g g' hv hp := by rw [viewAt_updateVote, viewAt_updateVote, if_pos rfl, if_pos rfl, hv, hp]

end Governance

/-! ## Every vote is the top of its stack -/

/-- At one hash: the vote is the top of the stack, and no empty stack is kept. -/
def VoteView.StackOk (w : VoteView) : Prop := w.vote = w.stack.bind List.getLast? ∧ w.stack ≠ some []

/-- `StackOk` at every hash: `votes[h]` is `stackvotes[h].back()`, and `h` is in `votes` iff
`stackvotes[h]` is there and not empty. -/
def Governance.StackOk (g : Governance) : Prop := ∀ k, (g.viewAt k).StackOk

namespace VoteView

variable (props : Uint256 → Option Proposal) {w : VoteView}

theorem stackOk_addVote (v : Vote) (hw : w.StackOk) : (w.addVote props v).StackOk := by
  unfold addVote
  cases props v.proposal with
  | none => exact hw
  | some p => exact ⟨by simp, by simp⟩

theorem stackOk_removeVote (v : Vote) (force : Bool) (hw : w.StackOk) :
    (w.removeVote props v force).StackOk := by
  unfold removeVote
  by_cases h0 : w.vote.isNone
  · rw [if_pos h0]; exact hw
  · -- the new top is the last of what is left, and an emptied stack is erased
    rw [if_neg h0]
    dsimp only
    generalize (if force then [] else (w.stack.getD []).dropLast) = rest
    cases hr : rest.getLast? with
    | none => exact ⟨rfl, by simp⟩
    | some top =>
      have hne : rest ≠ [] := by rintro rfl; simp at hr
      exact ⟨by simp [hr], by simp [hne]⟩

theorem stackOk_updateVote (f : Vote → Vote) (block : Int) (hw : w.StackOk) :
    (w.updateVote props f block).StackOk := by
  unfold updateVote
  cases hv : w.vote with
  | none => exact hw
  | some vote =>
    dsimp only
    cases props vote.proposal with
    | none => exact hw
    | some p =>
      dsimp only
      split_ifs
      · exact hw
      · -- the vote is the top of a non-empty stack, and `f` changes both alike
        obtain ⟨htop, hne⟩ := hw
        rw [hv] at htop
        obtain ⟨stack, hs, hlast⟩ := Option.bind_eq_some_iff.mp htop.symm
        have hst : stack ≠ [] := by rintro rfl; simp at hlast
        refine ⟨?_, ?_⟩
        · simp [hs, hlast]
        · simp [hs, hst]

end VoteView

namespace Governance

variable {g : Governance}

theorem stackOk_addVote (v : Vote) (hg : g.StackOk) : (g.addVote v).StackOk := by
  intro k
  rw [viewAt_addVote]
  split_ifs
  · exact VoteView.stackOk_addVote _ v (hg k)
  · exact hg k

theorem stackOk_removeVote (v : Vote) (force : Bool) (hg : g.StackOk) :
    (g.removeVote v force).StackOk := by
  intro k
  rw [viewAt_removeVote]
  split_ifs
  · exact VoteView.stackOk_removeVote _ v force (hg k)
  · exact hg k

theorem stackOk_updateVote (f : Vote → Vote) (h : VoteHash) (block : Int) (hg : g.StackOk) :
    (g.updateVote f h block).StackOk := by
  intro k
  rw [viewAt_updateVote]
  split_ifs
  · exact VoteView.stackOk_updateVote _ f block (hg k)
  · exact hg k

theorem stackOk_addProposal (p : Proposal) (hg : g.StackOk) : (g.addProposal cr p).StackOk := by
  intro k
  rw [viewAt_addProposal]
  exact hg k

theorem stackOk_removeProposal (p : Proposal) (hg : g.StackOk) :
    (g.removeProposal cr p).StackOk := hg

theorem stackOk_reset : (g.reset).StackOk := by
  intro k
  exact ⟨rfl, by simp [reset, viewAt]⟩

end Governance

/-! ## Every vote is stored under its own hash -/

/-- At hash `k`: the vote, every vote of the stack and every superblock's entry have hash `k`. -/
def VoteView.Keyed (k : VoteHash) (w : VoteView) : Prop :=
  (∀ v ∈ w.vote, v.getHash = k) ∧ (∀ st ∈ w.stack, ∀ v ∈ st, v.getHash = k) ∧
    ∀ sb, ∀ v ∈ w.sb sb, v.getHash = k

/-- `Keyed` at every hash. -/
def Governance.Keyed (g : Governance) : Prop := ∀ k, (g.viewAt k).Keyed k

namespace VoteView

variable (props : Uint256 → Option Proposal) {w : VoteView} {k : VoteHash}

theorem keyed_addVote (v : Vote) (hk : v.getHash = k) (hw : w.Keyed k) :
    (w.addVote props v).Keyed k := by
  obtain ⟨hv, hs, hsb⟩ := hw
  unfold addVote
  cases props v.proposal with
  | none => exact ⟨hv, hs, hsb⟩
  | some p =>
    refine ⟨by simp [hk], ?_, ?_⟩
    · -- the new stack is the old one with `v` pushed
      intro st hst x hx
      simp only [Option.mem_def, Option.some.injEq] at hst
      subst hst
      rcases List.mem_append.mp hx with hx | hx
      · cases hws : w.stack with
        | none => simp [hws] at hx
        | some st' => rw [hws] at hx; exact hs st' hws x hx
      · rw [List.mem_singleton.mp hx, hk]
    · intro sb x hx
      dsimp only at hx
      split_ifs at hx
      · simp only [Option.mem_def, Option.some.injEq] at hx
        rw [← hx, hk]
      · exact hsb sb x hx

theorem keyed_removeVote (v : Vote) (force : Bool) (hw : w.Keyed k) :
    (w.removeVote props v force).Keyed k := by
  obtain ⟨hv, hs, hsb⟩ := hw
  -- what is left of the stack is part of the old one
  have hrest : ∀ x ∈ (if force then [] else (w.stack.getD []).dropLast), x.getHash = k := by
    intro x hx
    split_ifs at hx
    · simp at hx
    · cases hws : w.stack with
      | none => simp [hws] at hx
      | some st => rw [hws] at hx; exact hs st hws x (List.dropLast_subset _ hx)
  have htop : ∀ x ∈ (if force then [] else (w.stack.getD []).dropLast).getLast?,
      x.getHash = k := fun x hx => hrest x (List.mem_of_getLast? hx)
  unfold removeVote
  by_cases h0 : w.vote.isNone
  · rw [if_pos h0]; exact ⟨hv, hs, hsb⟩
  rw [if_neg h0]
  dsimp only
  generalize (if force then [] else (w.stack.getD []).dropLast) = rest at hrest htop
  refine ⟨htop, ?_, ?_⟩
  · intro st hst x hx
    split_ifs at hst
    · simp at hst
    · simp only [Option.mem_def, Option.some.injEq] at hst
      subst hst
      exact hrest x hx
  · intro sb x hx
    dsimp only at hx
    split at hx
    · split_ifs at hx
      · exact htop x hx
      · exact hsb sb x hx
    · exact hsb sb x hx

theorem keyed_updateVote (f : Vote → Vote) (hf : ∀ v, (f v).getHash = v.getHash) (block : Int)
    (hw : w.Keyed k) : (w.updateVote props f block).Keyed k := by
  obtain ⟨hv, hs, hsb⟩ := hw
  unfold updateVote
  cases hwv : w.vote with
  | none => exact ⟨hv, hs, hsb⟩
  | some vote =>
    dsimp only
    cases props vote.proposal with
    | none => exact ⟨hv, hs, hsb⟩
    | some p =>
      dsimp only
      split_ifs
      · exact ⟨hv, hs, hsb⟩
      · refine ⟨?_, ?_, ?_⟩
        · intro x hx
          simp only [Option.mem_def, Option.some.injEq] at hx
          rw [← hx, hf]
          exact hv vote hwv
        · -- `f` changes the top of the stack and keeps its hash
          intro st hst x hx
          obtain ⟨st', hst', rfl⟩ := Option.map_eq_some_iff.mp hst
          unfold modifyBack at hx
          cases hl : st'.getLast? with
          | none => rw [hl] at hx; exact hs st' hst' x hx
          | some y =>
            rw [hl] at hx
            rcases List.mem_append.mp hx with hx | hx
            · exact hs st' hst' x (List.dropLast_subset _ hx)
            · rw [List.mem_singleton.mp hx, hf]
              exact hs st' hst' y (List.mem_of_getLast? hl)
        · intro sb x hx
          dsimp only at hx
          split_ifs at hx
          · obtain ⟨y, hy, rfl⟩ := Option.map_eq_some_iff.mp hx
            rw [hf]
            exact hsb sb y hy
          · exact hsb sb x hx

end VoteView

/-! ## The changes to the store -/

/-- The member functions that change the store. Every operation of the validation interface
and of the load is a sequence of them (`Lib.Steps`). -/
inductive Change where
  | addVote (vote : Vote)
  | removeVote (vote : Vote) (force : Bool)
  | spendVote (voteHash : VoteHash) (block : Int) (txhash : Uint256)
  | unspendVote (voteHash : VoteHash) (block : Int) (txhash : Uint256)
  | addProposal (proposal : Proposal)
  | removeProposal (proposal : Proposal)

namespace Governance

variable (cr : Crypto)

/-- The member function a change calls. -/
def apply (g : Governance) : Change → Governance
  | .addVote v => g.addVote v
  | .removeVote v force => g.removeVote v force
  | .spendVote h block txhash => g.spendVote h block txhash
  | .unspendVote h block txhash => g.unspendVote h block txhash
  | .addProposal p => g.addProposal cr p
  | .removeProposal p => g.removeProposal cr p

/-- A run of member functions. -/
abbrev Changes : Governance → Governance → Prop := Steps (apply cr)

variable {g : Governance}

theorem stackOk_apply (c : Change) (hg : g.StackOk) : (g.apply cr c).StackOk := by
  cases c with
  | addVote v => exact stackOk_addVote v hg
  | removeVote v force => exact stackOk_removeVote v force hg
  | spendVote h block txhash => exact stackOk_updateVote _ h block hg
  | unspendVote h block txhash => exact stackOk_updateVote _ h block hg
  | addProposal p => exact stackOk_addProposal p hg
  | removeProposal p => exact stackOk_removeProposal p hg

theorem keyed_apply (c : Change) (hg : g.Keyed) : (g.apply cr c).Keyed := by
  intro k
  cases c with
  | addVote v =>
    show ((g.addVote v).viewAt k).Keyed k
    rw [viewAt_addVote]
    split_ifs with hk
    · exact VoteView.keyed_addVote _ v hk.symm (hg k)
    · exact hg k
  | removeVote v force =>
    show ((g.removeVote v force).viewAt k).Keyed k
    rw [viewAt_removeVote]
    split_ifs
    · exact VoteView.keyed_removeVote _ v force (hg k)
    · exact hg k
  | spendVote h block txhash =>
    show ((g.updateVote _ h block).viewAt k).Keyed k
    rw [viewAt_updateVote]
    split_ifs
    · exact VoteView.keyed_updateVote _ (fun v => v.spend block txhash) (fun _ => rfl) block (hg k)
    · exact hg k
  | unspendVote h block txhash =>
    show ((g.updateVote _ h block).viewAt k).Keyed k
    rw [viewAt_updateVote]
    split_ifs
    · refine VoteView.keyed_updateVote _ (fun v => v.unspend block txhash) (fun v => ?_) block (hg k)
      unfold Vote.unspend
      split_ifs <;> rfl
    · exact hg k
  | addProposal p =>
    show ((g.addProposal cr p).viewAt k).Keyed k
    rw [viewAt_addProposal]
    exact hg k
  | removeProposal p => exact hg k

theorem keyed_empty : ({} : Governance).Keyed := by
  intro k
  refine ⟨?_, ?_, ?_⟩ <;> simp [viewAt, sbLookup]

/-- Every proposal is stored under its own hash. -/
def PropKeyed (g : Governance) : Prop :=
  ∀ ph p, g.proposals.lookup ph = some p → p.getHash cr = ph

theorem propKeyed_apply (c : Change) (hg : g.PropKeyed cr) : (g.apply cr c).PropKeyed cr := by
  intro ph p hp
  cases c with
  -- the vote changes leave the proposals alone
  | addVote v => exact hg ph p ((congrFun (propView_addVote g v) ph).symm.trans hp)
  | removeVote v force =>
    exact hg ph p ((congrFun (propView_removeVote g v force) ph).symm.trans hp)
  | spendVote h block txhash =>
    exact hg ph p ((congrFun (propView_updateVote _ g h block) ph).symm.trans hp)
  | unspendVote h block txhash =>
    exact hg ph p ((congrFun (propView_updateVote _ g h block) ph).symm.trans hp)
  | addProposal q =>
    unfold apply addProposal at hp
    dsimp only at hp
    split_ifs at hp
    · exact hg ph p hp
    · -- the new proposal goes under its own hash
      rw [Map.lookup_insert_eq_ite] at hp
      split_ifs at hp with he
      · cases hp
        exact he.symm
      · exact hg ph p hp
  | removeProposal q =>
    unfold apply removeProposal at hp
    dsimp only at hp
    rw [Map.lookup_erase_eq_ite] at hp
    split_ifs at hp
    exact hg ph p hp

theorem propKeyed_empty : ({} : Governance).PropKeyed cr := by
  intro ph p hp
  cases hp

end Governance

end Blocknet.Gov

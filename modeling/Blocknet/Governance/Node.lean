import Mathlib.Logic.Relation
import Blocknet.Governance.Block

/-!
# The store of a running node

The governance store changes by the calls the node makes into it: `BlockConnected` and
`BlockDisconnected` from the validation interface, `processBlock`, `loadGovernanceData` at
startup, and `reset`. `Op` names them with what each sees of the chain, and `Reachable` is the
set of stores the node can hold: those reached from the empty store by calls that return. A call
that faults stops the node (an uncaught exception, or undefined behaviour), so it leads nowhere.

Every call but `reset` is a run of the member functions of the store (`Op.run_changes`, from
`processBlock_changes` and its siblings), so an invariant of each member function holds in every
reachable state (`Reachable.inv`): each vote is the top of its history, and every vote is stored
under its own hash (`reachable_stackOk_keyed`).

The superblock index is not kept in step with the proposals. `BlockDisconnected` means to remove
the votes the block added, but it skips a vote whose output `loadVoteUTXO` cannot find
(`disconnectVote_of_not_found`), which is every vote of the block once the callback is delivered
after the chain has rolled back past the output. The proposal then goes with its own block and
the vote stays: in the superblock index with its proposal gone (`stale_superblock_vote`), and,
once a later disconnection pops it from its history while the proposal is gone and the proposal
comes back, in the index as a vote that no longer counts (`superblock_vote_lags`).
-/

namespace Blocknet.Gov

open Blocknet.Lib

/-- A call into the store, with the chain and the coins view it sees. -/
inductive Op where
  | processBlock (chain : Chain) (coins : OutPoint → Option Coin) (block : Block) (height : Int)
      (processingChainTip : Bool)
  | blockConnected (chain : Chain) (coins : OutPoint → Option Coin) (block : Block) (height : Int)
  | blockDisconnected (chain : Chain) (block : Block) (height : Int)
  | loadGovernanceData (chain : Chain) (coins : OutPoint → Option Coin)
  | reset

variable (cr : Crypto) (params : Params)

/-- The store after a call, or the fault that stops the node. -/
def Op.run (g : Governance) : Op → Except Fault Governance
  | .processBlock chain coins block height tip =>
    Gov.processBlock cr params chain coins g block height tip
  | .blockConnected chain coins block height => BlockConnected cr params chain coins g block height
  | .blockDisconnected chain block height => BlockDisconnected cr params chain g block height
  | .loadGovernanceData chain coins => Gov.loadGovernanceData cr params chain coins g
  | .reset => pure g.reset

/-- A sequence of calls. -/
def runOps (ops : List Op) (g : Governance) : Except Fault Governance :=
  ops.foldlM (Op.run cr params) g

/-- The stores reached from the empty one by calls that return. -/
def Reachable : Governance → Prop :=
  Relation.ReflTransGen (fun g g' => ∃ op, Op.run cr params g op = .ok g') {}

variable {cr params} {g g' : Governance}

/-- A call is a run of member functions, or a reset. -/
theorem Op.run_changes {op : Op} (h : Op.run cr params g op = .ok g') :
    Governance.Changes cr g g' ∨ g' = {} := by
  cases op with
  | processBlock => exact .inl (processBlock_changes cr params h)
  | blockConnected => exact .inl (BlockConnected_changes cr params h)
  | blockDisconnected => exact .inl (BlockDisconnected_changes cr params h)
  | loadGovernanceData => exact .inl (loadGovernanceData_changes cr params h)
  | reset =>
    cases h
    exact .inr rfl

/-- What holds of the empty store and is kept by every member function holds in every
reachable store. -/
theorem Reachable.inv (P : Governance → Prop) (h0 : P {})
    (hP : ∀ g c, P g → P (g.apply cr c)) (h : Reachable cr params g) : P g := by
  induction h with
  | refl => exact h0
  | tail _ hstep ih =>
    obtain ⟨op, hop⟩ := hstep
    rcases Op.run_changes hop with hc | rfl
    · exact Steps.inv P hP hc ih
    · exact h0

/-- The calls of a sequence that returns lead from a reachable store to a reachable store. -/
theorem Reachable.after {ops : List Op} (hg : Reachable cr params g)
    (h : runOps cr params ops g = .ok g') : Reachable cr params g' := by
  induction ops generalizing g with
  | nil =>
    cases h
    exact hg
  | cons op ops ih =>
    unfold runOps at h
    rw [List.foldlM_cons] at h
    obtain ⟨g1, h1, h⟩ := except_bind_eq_ok h
    exact ih (Relation.ReflTransGen.tail hg ⟨op, h1⟩) h

/-- A sequence of calls from the empty store that returns a store where `p` holds shows a
reachable store where `p` holds. -/
theorem Reachable.of_runOps {ops : List Op} {p : Governance → Bool}
    (h : ((runOps cr params ops {}).toOption.any p) = true) :
    ∃ g, Reachable cr params g ∧ p g = true := by
  cases hr : runOps cr params ops {} with
  | error e => rw [hr] at h; cases h
  | ok g =>
    rw [hr] at h
    exact ⟨g, Reachable.after Relation.ReflTransGen.refl hr, h⟩

/-! ## The representation invariant -/

/-- In every reachable store, for every vote hash `h`: `h` is in `votes` exactly when
`stackvotes[h]` is there and not empty, `votes[h]` is `stackvotes[h].back()`, and every vote
stored under `h` (in `votes`, in `stackvotes` and in the map of every superblock) has hash `h`. -/
theorem reachable_stackOk_keyed (h : Reachable cr params g) : g.StackOk ∧ g.Keyed :=
  Reachable.inv (fun g => g.StackOk ∧ g.Keyed) ⟨@Governance.stackOk_reset {}, Governance.keyed_empty⟩
    (fun _ c hg => ⟨Governance.stackOk_apply cr c hg.1, Governance.keyed_apply cr c hg.2⟩) h

/-- A vote of a disconnected block whose output is not in the block and not in the chain the
callback sees is left in the store. -/
theorem disconnectVote_of_not_found {chain : Chain} {parsed : Parsed} {vouts : List Uint256}
    {blockHeight : Int} {vote : Vote} (hout : vote.utxo.hash ∉ vouts)
    (hfind : chain.getTransaction vote.utxo.hash = none) :
    disconnectVote cr params chain parsed vouts blockHeight g vote = .ok g := by
  have hload : vote.loadVoteUTXO cr params chain = .ok none := by
    simp [Vote.loadVoteUTXO, ValidateVoteUTXO, hfind]
  unfold disconnectVote
  cases g.votes.lookup vote.getHash with
  | none => rfl
  | some stvote =>
    have hremoves : disconnectRemoves cr params chain parsed vouts blockHeight stvote vote =
        .ok false := by
      simp [disconnectRemoves, hout, hload]
      rfl
    simp [hremoves]
    rfl

/-! ## A sample chain

Four blocks on `Params.sample` and `Crypto.sample`. Block 1 holds a proposal for superblock 4
and the output that votes spend from; blocks 2 and 3 hold a vote on the proposal from that
output, YES and then NO. -/

/-- The key hash the sample output pays to. With `Crypto.sample` it is also the id of the key the
sample signature recovers. -/
def sampleKey : Bytes := 7 :: List.replicate 19 0

def sampleProposal : Proposal :=
  { name := [97, 98], superblock := 4, amount := 10, address := [1] }

/-- A vote on `sampleProposal` from output 1 of transaction `0xA1`, written in a transaction
spending `vin`. -/
def sampleVote (vin : OutPoint) (choice : UInt8) : Vote :=
  { proposal := sampleProposal.getHash Crypto.sample, vote := choice,
    vinhash := makeVinHash Crypto.sample vin, signature := 7 :: List.replicate 64 0,
    utxo := ⟨0xA1, 1⟩ }

def block0 : Block := ⟨0, 0, []⟩

def block1 : Block :=
  ⟨1, 1, [⟨0xA1, [⟨⟨0x50, 0⟩, []⟩],
    [⟨0, opReturnScript sampleProposal.serialize⟩, ⟨100, payToPubkeyHash sampleKey⟩]⟩]⟩

def block2 : Block :=
  ⟨2, 2, [⟨0xB2, [⟨⟨0x51, 0⟩, []⟩], [⟨0, opReturnScript (sampleVote ⟨0x51, 0⟩ YES).serialize⟩]⟩]⟩

def block3 : Block :=
  ⟨3, 3, [⟨0xC3, [⟨⟨0x52, 0⟩, []⟩], [⟨0, opReturnScript (sampleVote ⟨0x52, 0⟩ NO).serialize⟩]⟩]⟩

/-- Every output is unspent, created at height 1. -/
def sampleCoins : OutPoint → Option Coin := fun _ => some ⟨1⟩

/-- The superblock index keeps a vote whose proposal is gone, in a store where each vote is the
top of its history and stored under its own hash. Blocks 1 and 2 are connected; their
disconnections are delivered after both blocks left the chain, so the vote's output is not found
when block 2 is disconnected and the vote stays, and the proposal goes with block 1. -/
theorem stale_superblock_vote :
    ∃ g, Reachable Crypto.sample Params.sample g ∧ g.StackOk ∧ g.Keyed ∧
      ∃ s h v, g.votes.lookup h = some v ∧ g.sbLookup s h = some v ∧
        g.proposals.lookup v.proposal = none := by
  obtain ⟨g, hg, hp⟩ := @Reachable.of_runOps Crypto.sample Params.sample
    [.blockConnected [block0, block1] sampleCoins block1 1,
      .blockConnected [block0, block1, block2] sampleCoins block2 2,
      .blockDisconnected [block0] block2 2, .blockDisconnected [block0] block1 1]
    (fun g => (g.votes.lookup (sampleVote ⟨0x51, 0⟩ YES).getHash).any fun v =>
      g.sbLookup 4 (sampleVote ⟨0x51, 0⟩ YES).getHash == some v &&
        (g.proposals.lookup v.proposal).isNone) (by decide +kernel)
  obtain ⟨hok, hkeyed⟩ := reachable_stackOk_keyed hg
  simp only [Option.any_eq_true, Bool.and_eq_true, beq_iff_eq, Option.isNone_iff_eq_none] at hp
  obtain ⟨v, hv, hsb, hprop⟩ := hp
  exact ⟨g, hg, hok, hkeyed, 4, _, v, hv, hsb, hprop⟩

/-! ## A second sample chain

The proposal is for superblock 8, so that votes at heights 2 and 3 are within its voting cutoff,
and the output the votes spend from is in a transaction of its own, which a second branch holds
without the proposal. -/

def laterProposal : Proposal :=
  { name := [97, 98], superblock := 8, amount := 10, address := [1] }

/-- `sampleVote` on `laterProposal`. -/
def laterVote (vin : OutPoint) (choice : UInt8) : Vote :=
  { sampleVote vin choice with proposal := laterProposal.getHash Crypto.sample }

/-- The transaction whose output 1 the votes spend from. -/
def utxoTx : Transaction :=
  ⟨0xA1, [⟨⟨0x50, 0⟩, []⟩], [⟨100, payToPubkeyHash sampleKey⟩, ⟨100, payToPubkeyHash sampleKey⟩]⟩

def block1a : Block :=
  ⟨0x11, 1, [⟨0xA0, [⟨⟨0x4F, 0⟩, []⟩], [⟨0, opReturnScript laterProposal.serialize⟩]⟩, utxoTx]⟩

def block2a : Block :=
  ⟨0x21, 2, [⟨0xB2, [⟨⟨0x51, 0⟩, []⟩], [⟨0, opReturnScript (laterVote ⟨0x51, 0⟩ YES).serialize⟩]⟩]⟩

def block3a : Block :=
  ⟨0x31, 3, [⟨0xC3, [⟨⟨0x52, 0⟩, []⟩], [⟨0, opReturnScript (laterVote ⟨0x52, 0⟩ NO).serialize⟩]⟩]⟩

/-- Block 1 of the second branch: the votes' output without the proposal. -/
def block1b : Block := ⟨0x12, 1, [utxoTx]⟩

def block2b : Block := ⟨0x22, 2, []⟩

/-- The superblock index holds a vote that no longer counts while its proposal is known. Blocks
1a, 2a (YES) and 3a (NO) are connected and their disconnections delivered after the chain rolled
back to block 0: both votes stay and the proposal goes. On the branch 1b, 2b, 3a the NO vote is
not recorded (its proposal is unknown), and its disconnection, delivered in time, finds the
output in block 1b and pops the NO vote from the history, but leaves the index alone, since the
proposal is unknown. Block 1a is connected again and brings the proposal back: the vote that
counts is YES, the index holds NO. -/
theorem superblock_vote_lags :
    ∃ g, Reachable Crypto.sample Params.sample g ∧ ∃ h v p, g.votes.lookup h = some v ∧
      g.proposals.lookup v.proposal = some p ∧ g.sbLookup p.superblock h ≠ some v := by
  obtain ⟨g, hg, hp⟩ := @Reachable.of_runOps Crypto.sample Params.sample
    [.blockConnected [block0, block1a] sampleCoins block1a 1,
      .blockConnected [block0, block1a, block2a] sampleCoins block2a 2,
      .blockConnected [block0, block1a, block2a, block3a] sampleCoins block3a 3,
      .blockDisconnected [block0] block3a 3, .blockDisconnected [block0] block2a 2,
      .blockDisconnected [block0] block1a 1,
      .blockConnected [block0, block1b] sampleCoins block1b 1,
      .blockConnected [block0, block1b, block2b] sampleCoins block2b 2,
      .blockConnected [block0, block1b, block2b, block3a] sampleCoins block3a 3,
      .blockDisconnected [block0, block1b, block2b] block3a 3,
      .blockDisconnected [block0, block1b] block2b 2, .blockDisconnected [block0] block1b 1,
      .blockConnected [block0, block1a] sampleCoins block1a 1]
    (fun g => (g.votes.lookup (laterVote ⟨0x51, 0⟩ YES).getHash).any fun v =>
      (g.proposals.lookup v.proposal).any fun p =>
        g.sbLookup p.superblock (laterVote ⟨0x51, 0⟩ YES).getHash != some v) (by decide +kernel)
  simp only [Option.any_eq_true, bne_iff_ne, ne_eq] at hp
  obtain ⟨v, hv, p, hprop, hsb⟩ := hp
  exact ⟨g, hg, _, v, p, hv, hprop, hsb⟩

end Blocknet.Gov

import Blocknet.Governance.Settled
import Blocknet.Governance.Node

/-!
# Connecting a block and disconnecting it again

`BlockConnected` and `BlockDisconnected` are written apart: the first filters the votes of the
block by cutoff, proposal and spent status, pushes them on the history of their hash and spends
the votes whose outputs the block spends; the second reads the block again, pops a vote where
its checks say it came from this block, removes the proposals stored with the block's height and
unspends by block and transaction. This module shows that on a chain connected block by block,
disconnecting the block just connected gives back every proposal, vote (with its spent state),
history and superblock entry (`reorg_round_trip`), for a block whose transactions are new to
the chain and below the maximal height. The superblock maps themselves are not given back: a
map emptied by the removal stays as an empty map (`reorg_leaves_empty_superblock_map`).

The proof is hash by hash (`Views`), from the invariant of `Settled`: `VoteView.round_trip` is
the round trip at one hash, and `removesAt_accepted` and `removesAt_old` say that the removal
loop pops exactly the votes the block pushed.
-/

namespace Blocknet.Gov

open Blocknet.Lib

/-- A vote spent below `h`, or not at all, is not unspent by block `h`. -/
theorem Before.unspend {h : Int} {v : Vote} (hv : Before h v) (h1 : 1 ≤ h) (t : Uint256) :
    v.unspend h t = v := by
  unfold Vote.unspend
  rw [if_neg]
  rintro ⟨hb, -⟩
  rcases hv.2 with hs | hs <;> omega

/-- Spending an unspent vote and unspending it by the same block and transaction gives it
back. -/
theorem Vote.unspend_spend {v : Vote} (hv : v.spentBlock = 0 ∧ v.spentHash = 0) (block : Int)
    (t : Uint256) : (v.spend block t).unspend block t = v := by
  unfold Vote.unspend Vote.spend
  rw [if_pos ⟨rfl, rfl⟩]
  obtain ⟨hb, hh⟩ := hv
  cases v
  simp only at hb hh
  subst hb hh
  rfl


namespace VoteView

variable {F F' P : Uint256 → Option Proposal} {chain : Chain} {h : Int} {k : VoteHash}
  {w : VoteView}

/-- An update that fixes the vote of a settled hash changes nothing there. -/
theorem Settled.updateVote_eq (hw : w.Settled F chain h k) (f : Vote → Vote)
    (hf : ∀ x, w.vote = some x → f x = x) (block : Int) : w.updateVote P f block = w := by
  unfold VoteView.updateVote
  cases hwv : w.vote with
  | none => rfl
  | some x =>
    dsimp only
    cases P x.proposal with
    | none => rfl
    | some p =>
      dsimp only
      split_ifs
      · rfl
      · -- the vote, the top of the history and the superblock entries are all `x`
        have htop := hw.stackOk.1
        rw [hwv] at htop
        obtain ⟨st, hst, hlast⟩ := Option.bind_eq_some_iff.mp htop.symm
        ext1
        · simp [hwv, hf x hwv]
        · rw [hst, Option.map_some, modifyBack_of_fixed f (fun y hy => by
            rw [hlast, Option.mem_some_iff] at hy
            rw [← hy]
            exact hf x hwv)]
        · funext s
          dsimp only
          split_ifs
          · rw [hw.sb s]
            split_ifs
            · rw [hwv, Option.map_some, hf x hwv]
            · rfl
          · rfl

theorem Settled.unspendAt_eq (hw : w.Settled F chain h k) (h1 : 1 ≤ h) (t : Option Uint256) :
    w.unspendAt P h t = w := by
  cases t with
  | none => rfl
  | some t => exact hw.updateVote_eq _ (fun x hx => (hw.vote_before hx).unspend h1 t) h

/-- Two updates of one vote at one block are the composed update, where the first keeps the
proposal. -/
theorem updateVote_comp (f g : Vote → Vote) (hf : ∀ v, (f v).proposal = v.proposal)
    (block : Int) (w : VoteView) :
    (w.updateVote P f block).updateVote P g block = w.updateVote P (g ∘ f) block := by
  unfold updateVote
  cases hwv : w.vote with
  | none => simp only [hwv]
  | some x =>
    dsimp only
    cases hp : P x.proposal with
    | none => simp only [hwv, hp]
    | some p =>
      dsimp only
      by_cases hb : p.superblock < block
      · simp only [hwv, hp, if_pos hb]
      · simp only [if_neg hb, hf, hp]
        ext1
        · rfl
        · cases w.stack with
          | none => rfl
          | some st =>
            simp only [Option.map_some]
            unfold modifyBack
            cases hl : st.getLast? with
            | none => simp [hl]
            | some y => simp
        · funext s
          dsimp only
          split_ifs <;> simp [Option.map_map]

/-- An update reads the proposals at the vote's proposal alone. -/
theorem updateVote_congr (f : Vote → Vote) (block : Int) (w : VoteView)
    (hP : ∀ x, w.vote = some x → P x.proposal = P' x.proposal) :
    w.updateVote P f block = w.updateVote P' f block := by
  unfold updateVote
  cases hwv : w.vote with
  | none => rfl
  | some x =>
    dsimp only
    rw [hP x hwv]


/-- A spend of a pushed vote leaves a pushed vote. -/
theorem Pushed.spend {s : Int} {v : Vote} {w' : VoteView} {p : Proposal}
    (hw' : Pushed w s v w') (hs : s = p.superblock) (hp : F v.proposal = some p)
    (block : Int) (t : Option Uint256) : ∃ v', Pushed w s v' (w'.spendAt F block t) := by
  obtain ⟨hv, hst, hsb⟩ := hw'
  cases t with
  | none => exact ⟨v, hv, hst, hsb⟩
  | some t =>
    by_cases hb : p.superblock < block
    · exact ⟨v, by rw [spendAt, updateVote_of_lt _ hv hp hb]; exact ⟨hv, hst, hsb⟩⟩
    · refine ⟨v.spend block t, ?_, ?_, ?_⟩
      · unfold spendAt updateVote
        rw [hv]
        dsimp only
        rw [hp]
        dsimp only
        rw [if_neg hb]
      · unfold spendAt updateVote
        rw [hv]
        dsimp only
        rw [hp]
        dsimp only
        rw [if_neg hb, hst]
        simp [modifyBack]
      · unfold spendAt updateVote
        rw [hv]
        dsimp only
        rw [hp]
        dsimp only
        rw [if_neg hb, hsb]
        funext s'
        dsimp only
        split_ifs with h1 h2 <;> simp_all

/-- Popping a vote pushed on a settled hash gives the hash back. -/
theorem Settled.removeVote_pushed (hw : w.Settled F chain h k) {p : Proposal}
    (hp : F k.proposal = some p) (hp' : F' k.proposal = some p) {u : Vote}
    (hu : u.proposal = k.proposal) {v : Vote} {w' : VoteView}
    (hw' : Pushed w p.superblock v w') : w'.removeVote F' u false = w := by
  obtain ⟨hv, hst, hsb⟩ := hw'
  have htop : (w.stack.getD []).getLast? = w.vote := by
    rw [hw.stackOk.1]
    cases w.stack <;> rfl
  unfold removeVote
  rw [if_neg (by simp [hv]), hst, hu, hp']
  simp only [Bool.false_eq_true, if_false, Option.getD_some, List.dropLast_concat, htop]
  ext1
  · rfl
  · -- an emptied history is erased, as it was before the push
    cases hws : w.stack with
    | none =>
      have : w.vote = none := by rw [hw.stackOk.1, hws]; rfl
      simp [this]
    | some st =>
      have hne : st ≠ [] := fun he => hw.stackOk.2 (by rw [hws, he])
      have : w.vote = st.getLast? := by rw [hw.stackOk.1, hws]; rfl
      simp [this, List.getLast?_eq_none_iff, hne]
  · funext s
    dsimp only
    rw [hsb]
    dsimp only
    by_cases hs : s = p.superblock
    · subst hs
      simp only [if_true, Option.isSome_some, and_self]
      rw [hw.sb, hp, Option.map_some, if_pos rfl]
    · simp [hs]


/-- **The round trip at one hash.** `acc` is the vote the block records at the hash, if any;
`bS` and `bU` say whether the spend and the unspend passes visit the hash, `t` is the
transaction of the block spending its output, and `u` the vote the removal loop removes. The
spend pass visits only unspent votes, and the unspend pass every vote of a proposal at or after
the block. -/
theorem round_trip (hw : w.Settled F chain h k) (h1 : 1 ≤ h)
    (hF : ∀ ph p, F ph = some p → F' ph = some p) {acc : Option Vote}
    (hacc : ∀ v, acc = some v → v.getHash = k ∧ F k.proposal ≠ none) {t : Option Uint256}
    {bS : Bool} {bU : Prop} [Decidable bU] {u : Vote} (hu : u.proposal = k.proposal)
    {w2 w3 w4 : VoteView}
    (h2 : w2 = acc.elim w fun v => w.addVote F' v)
    (h3 : w3 = if bS then w2.spendAt F' h t else w2)
    (h4 : w4 = if acc.isSome then w3.removeVote F' u false else w3)
    (hS : bS = true → ∃ p x, F' k.proposal = some p ∧ h ≤ p.superblock ∧
      w2.sb p.superblock = some x ∧ x.spent = false)
    (hU : (∃ p x, F k.proposal = some p ∧ h ≤ p.superblock ∧ w4.sb p.superblock = some x) →
      bU) :
    (if bU then w4.unspendAt F h t else w4) = w := by
  -- where the removal gave `w` back, the unspend pass leaves it
  have hfin : w4 = w → (if bU then w4.unspendAt F h t else w4) = w := by
    rintro rfl
    split_ifs
    · exact hw.unspendAt_eq h1 t
    · rfl
  cases acc with
  | some v =>
    -- the vote is pushed, maybe spent, and popped again
    apply hfin
    obtain ⟨hvk, hknown⟩ := hacc v rfl
    obtain ⟨p, hp⟩ := Option.ne_none_iff_exists'.mp hknown
    have hp' := hF _ p hp
    have hvp : v.proposal = k.proposal := by rw [← hvk]; rfl
    have hpush : Pushed w p.superblock v w2 := by
      rw [h2]
      exact pushed_addVote (hvp ▸ hp')
    obtain ⟨v', hpush'⟩ : ∃ v', Pushed w p.superblock v' w3 := by
      rw [h3]
      split_ifs
      · exact hpush.spend rfl (hvp ▸ hp') h t
      · exact ⟨v, hpush⟩
    rw [h4, Option.isSome_some, if_pos rfl]
    exact hw.removeVote_pushed hp hp' hu hpush'
  | none =>
    simp only [Option.elim, Option.isSome_none, Bool.false_eq_true, if_false] at h2 h4
    subst w2 w4
    cases hx : w.vote with
    | none =>
      -- nothing is stored at the hash: no pass changes it
      apply hfin
      rw [h3]
      split_ifs
      · cases t with
        | none => rfl
        | some t => exact updateVote_of_none _ h hx
      · rfl
    | some x =>
      obtain ⟨p, hp, hsb⟩ := hw.vote_sb hx
      have hxp : x.proposal = k.proposal := by
        rw [← (hw.keyed.1 x hx)]
        rfl
      have hp' := hF _ p hp
      by_cases hb : p.superblock < h
      · -- a superblock before the block: neither pass applies
        apply hfin
        rw [h3]
        split_ifs
        · cases t with
          | none => rfl
          | some t => exact updateVote_of_lt _ hx (hxp ▸ hp') hb
        · rfl
      cases bS with
      | false =>
        apply hfin
        simp [h3]
      | true =>
        obtain ⟨p₁, x₁, hp₁, -, hsb₁, hspent⟩ := hS rfl
        rw [hp'] at hp₁
        cases hp₁
        rw [hsb] at hsb₁
        cases hsb₁
        -- an unspent vote: spent by the block, then unspent by it
        have hunspent : x.spentBlock = 0 ∧ x.spentHash = 0 := by
          rcases (hw.vote_before hx).2 with h0 | h0
          · exact h0
          · simp only [Vote.spent, decide_eq_false_iff_not] at hspent
            omega
        simp only [if_true] at h3
        subst h3
        cases t with
        | none => apply hfin; rfl
        | some t =>
          have hsb3 := updateVote_sb (fun v => v.spend h t) hx (hxp ▸ hp') hb
          rw [hsb, Option.map_some] at hsb3
          rw [if_pos (hU ⟨p, _, hp, not_lt.mp hb, hsb3⟩)]
          unfold spendAt unspendAt
          dsimp only
          -- the spend reads the proposals at the vote's own proposal, where `F'` is `F`
          have hcongr : w.updateVote F' (fun v => v.spend h t) h =
              w.updateVote F (fun v => v.spend h t) h :=
            updateVote_congr _ h w (fun y hy => by
              rw [hx] at hy
              cases hy
              rw [hxp, hp, hp'])
          rw [hcongr, updateVote_comp (fun v => v.spend h t) (fun v => v.unspend h t) (fun _ => rfl)]
          exact hw.updateVote_eq _ (fun y hy => by
            rw [hx] at hy
            cases hy
            exact Vote.unspend_spend hunspent h t) h

end VoteView

/-! ## What the removal loop decides -/

section Removal

variable (cr : Crypto) (params : Params) {chain : Chain} {parsed : Parsed} {blockHeight : Int}

/-- A vote the block recorded is removed. Either its output is one of the block's own, and the
stored vote has the vin hash and the key of the vote read; or its output is in the chain before
the block, where it loads as at the connection, and the stored vote has the block's height. -/
theorem removesAt_accepted {block : Block} {coins : OutPoint → Option Coin} {g : Governance}
    (hwf : parsed.WF cr blockHeight) {u v v' : Vote} (hu : u ∈ parsed.votes)
    (hacc : acceptVote cr params (chain ++ [block]) coins g parsed.vinHashes blockHeight true u =
      .ok (some v))
    (hvin : v'.vinhash = v.vinhash) (hpk : v'.pubkey = v.pubkey)
    (hbn : v'.blockNumber = v.blockNumber) :
    removesAt cr params chain parsed (block.vtx.map (·.hash)) blockHeight (some v') u = true := by
  obtain ⟨-, hload, vhashes, hvh, hvalid⟩ := acceptVote_eq_some cr params hacc
  obtain ⟨keyid, amount, rfl⟩ := acceptVote_eq_with cr params hacc
  have hvalid' : v'.isValidVinHash vhashes = true := by
    simp only [Vote.isValidWithVinHashes, Bool.and_eq_true] at hvalid
    unfold Vote.isValidVinHash at hvalid ⊢
    rw [hvin]
    exact hvalid.2
  unfold removesAt disconnectRemoves
  rw [hvh, Option.getD_some]
  by_cases hin : (block.vtx.map (·.hash)).contains u.utxo.hash = true
  · -- the output is the block's own
    have hin' : ∃ tx ∈ block.vtx, tx.hash = u.utxo.hash := by simpa using hin
    simp [hin', hvalid', hpk]
  · -- the output is in the chain before the block
    obtain ⟨out, keyid', hval, -⟩ := loadVoteUTXO_eq_some hload
    obtain ⟨tx, height, hfind, -⟩ := ValidateVoteUTXO_eq_some hval
    have hfind' : chain.getTransaction u.utxo.hash = some (tx, height) :=
      Chain.getTransaction_of_append hfind (fun b hb => by
        rw [List.mem_singleton.mp hb]
        simpa [Block.txids] using hin)
    have hload' := (loadVoteUTXO_append hfind' [block]).symm.trans hload
    have hbh : v'.blockNumber = blockHeight := hbn.trans (hwf.vote_read u hu).1
    simp only [hin, Bool.false_and, Bool.false_eq_true, if_false, hload']
    simp [hvalid, hbh]

/-- A vote stored before the block, read from an output the block did not create, is not
removed. -/
theorem removesAt_old {vouts : List Uint256} {x u : Vote} (hx : x.blockNumber < blockHeight)
    (hout : u.utxo.hash ∉ vouts) :
    removesAt cr params chain parsed vouts blockHeight (some x) u = false := by
  unfold removesAt disconnectRemoves
  have hc : vouts.contains u.utxo.hash = false := by simpa using hout
  simp only [hc, Bool.false_and, Bool.false_eq_true, if_false]
  cases u.loadVoteUTXO cr params chain with
  | error e => rfl
  | ok o =>
    cases o with
    | none => rfl
    | some v =>
      rw [except_ok_bind]
      dsimp only
      split_ifs
      · rfl
      · exact beq_false_of_ne (Int.ne_of_lt hx)

end Removal

/-! ## The round trip of the store -/

section RoundTrip

variable {cr : Crypto} {params : Params} {chain : Chain} {coins : OutPoint → Option Coin}
  {block : Block} {parsed : Parsed} {S g1 g2 g5 : Governance}

theorem spendStep_changes (g : Governance) (block : Block) (blockHeight : Int) :
    Governance.Changes cr g (spendStep cr g block blockHeight) := by
  unfold spendStep
  split_ifs
  · exact Steps.refl g
  · exact spendVotes_changes cr g block blockHeight

theorem disconnectVotes_changes (vouts : List Uint256) (blockHeight : Int) (votes : List Vote)
    (g : Governance) :
    Governance.Changes cr g
      (votes.foldl (fun g v => disconnectOne cr params chain parsed vouts blockHeight v g) g) :=
  Steps.foldl (fun s v _ => by
    rw [disconnectOne_eq]
    exact Steps.ite _ s (Change.removeVote v false)) g

/-- The proposals come back: one of the block is removed where it was recorded from the block,
and one stored before the block stays. -/
theorem lookup_reorg (hg : S.Settled cr chain) (hwf : parsed.WF cr chain.length)
    (hg1 : g1 = (recordedProposals params parsed chain.length).foldl (Governance.addProposal cr) S)
    {g4 : Governance} (hg4 : g4.propView = g1.propView) (ph : Uint256) :
    (parsed.proposals.foldl (disconnectProposal cr params chain.length) g4).proposals.lookup ph =
      S.proposals.lookup ph := by
  have hd := hwf.proposals_nodup
  have hsub : List.Sublist (recordedProposals params parsed chain.length) parsed.proposals :=
    List.filter_sublist
  have hdr := hd.sublist (hsub.map (Proposal.getHash cr))
  have h4 : ∀ x, g4.proposals.lookup x = g1.proposals.lookup x := fun x => congrFun hg4 x
  by_cases hph : ph ∈ parsed.proposals.map (Proposal.getHash cr)
  · obtain ⟨p, hp, rfl⟩ := List.mem_map.mp hph
    rw [lookup_disconnectProposals_of_mem cr params _ hd hp, h4, hg1]
    by_cases hr : p ∈ recordedProposals params parsed chain.length
    · -- recorded unless one was stored
      rw [lookup_addProposals_of_mem cr hdr hr]
      cases hs : S.proposals.lookup (p.getHash cr) with
      | none =>
        -- recorded from the block, so removed with it
        have hv : p.isValid params = true := by
          have := (List.mem_filter.mp hr).2
          simp only [Bool.and_eq_true] at this
          exact this.2
        simp [hv, hwf.proposal_read p hp]
      | some q =>
        -- stored before the block, so kept
        have := hg.propBefore _ q hs
        simp [Int.ne_of_lt this]
    · have hnot : p.getHash cr ∉
          (recordedProposals params parsed chain.length).map (Proposal.getHash cr) := by
        intro hm
        obtain ⟨q, hq, hqp⟩ := List.mem_map.mp hm
        rw [List.inj_on_of_nodup_map hd (hsub.subset hq) hp hqp] at hq
        exact hr hq
      rw [lookup_addProposals_of_notMem cr hnot]
      cases hs : S.proposals.lookup (p.getHash cr) with
      | none => rfl
      | some q =>
        have := hg.propBefore _ q hs
        simp [Int.ne_of_lt this]
  · rw [lookup_disconnectProposals_of_notMem cr params _ hph, h4, hg1,
      lookup_addProposals_of_notMem cr (fun hm => hph ((hsub.map _).subset hm))]

/-- The removal loop at one hash: it pops the vote the block pushed there, and leaves a hash
where the block pushed none. -/
theorem viewAt_disconnect_reorg (hg : S.Settled cr chain)
    (hfresh : ∀ tx ∈ block.vtx, chain.getTransaction tx.hash = none)
    (hwf : parsed.WF cr chain.length) {vs : List Vote}
    (hvs : vs = acceptedVotes cr params (chain ++ [block]) coins S parsed chain.length)
    {F' : Uint256 → Option Proposal} {bS : Bool}
    {t : Option Uint256} {g3 g4 : Governance}
    (hF1 : ∀ ph p, S.propView ph = some p → F' ph = some p) {k : VoteHash}
    (h2 : g2.viewAt k = (vs.find? fun v => v.getHash == k).elim (S.viewAt k)
      fun v => (S.viewAt k).addVote F' v)
    (h3 : g3.viewAt k = if bS then (g2.viewAt k).spendAt F' chain.length t else g2.viewAt k)
    (hg4 : g4 = parsed.votes.foldl (fun g v => disconnectOne cr params chain parsed
      (block.vtx.map (·.hash)) chain.length v g) g3)
    (hP3 : g3.propView = F') :
    g4.viewAt k = if (vs.find? fun v => v.getHash == k).isSome then
      (g3.viewAt k).removeVote F'
        ((parsed.votes.find? fun v => v.getHash == k).getD { proposal := k.proposal }) false
      else g3.viewAt k := by
  -- the vote at `k` after the spend pass is the one after the vote loop, or it spent
  have hst : (g3.viewAt k).vote = (g2.viewAt k).vote ∨
      ∃ t', (g3.viewAt k).vote = (g2.viewAt k).vote.map fun v => v.spend chain.length t' := by
    rw [h3]
    split_ifs
    · exact VoteView.spendAt_vote _ _ _
    · exact .inl rfl
  cases hfu : parsed.votes.find? fun v => v.getHash == k with
  | none =>
    -- no vote of the block has the hash: the loop leaves it, and the block recorded none there
    have hk : k ∉ parsed.votes.map Vote.getHash := by
      intro hm
      obtain ⟨u, hu, rfl⟩ := List.mem_map.mp hm
      exact List.find?_eq_none.mp hfu u hu (beq_self_eq_true _)
    have hnone : (vs.find? fun v => v.getHash == k) = none := by
      rw [List.find?_eq_none]
      intro v hv hvk
      obtain ⟨u, hu, hacc⟩ := mem_acceptedVotes cr params (hvs ▸ hv)
      obtain ⟨keyid, amount, rfl⟩ := acceptVote_eq_with cr params hacc
      exact hk (List.mem_map.mpr ⟨u, hu, beq_iff_eq.mp hvk⟩)
    rw [hnone, hg4, viewAt_disconnectVotes_of_notMem cr params chain parsed _ _ hk]
    rfl
  | some u =>
    have hku : u.getHash = k := by simpa using List.find?_some hfu
    have hu := List.mem_of_find?_eq_some hfu
    subst hku
    rw [Option.getD_some, hg4,
      viewAt_disconnectVotes_of_mem cr params chain parsed _ _ hwf.votes_nodup hu, hP3]
    -- the loop removes where the block recorded a vote
    have hrem : removesAt cr params chain parsed (block.vtx.map (·.hash)) chain.length
        (g3.viewAt u.getHash).vote u = (vs.find? fun v => v.getHash == u.getHash).isSome := by
      cases hacc : vs.find? fun v => v.getHash == u.getHash with
      | some v =>
        -- the vote recorded was read from `u`, pushed, and maybe spent
        have hv := List.mem_of_find?_eq_some hacc
        have hvk : v.getHash = u.getHash := by simpa using List.find?_some hacc
        obtain ⟨u', hu', hacc'⟩ := mem_acceptedVotes cr params (hvs ▸ hv)
        have hu'v : u'.getHash = v.getHash := by
          obtain ⟨keyid, amount, rfl⟩ := acceptVote_eq_with cr params hacc'
          rfl
        obtain rfl : u' = u := List.inj_on_of_nodup_map hwf.votes_nodup hu' hu (hu'v.trans hvk)
        obtain ⟨p, hp⟩ := Option.ne_none_iff_exists'.mp
          (acceptedVotes_spec cr params hwf (hvs ▸ hv)).1
        have hv2 : (g2.viewAt u'.getHash).vote = some v := by
          rw [h2, hacc]
          exact (VoteView.pushed_addVote (hF1 _ p hp)).1
        rcases hst with hst | ⟨t', hst⟩
        · rw [hst, hv2]
          exact removesAt_accepted cr params hwf hu hacc' rfl rfl rfl
        · rw [hst, hv2, Option.map_some]
          exact removesAt_accepted cr params hwf hu hacc' rfl rfl rfl
      | none =>
        -- the vote stored at the hash is older than the block, and its output is not the block's
        have hv2 : g2.viewAt u.getHash = S.viewAt u.getHash := by
          rw [h2, hacc]
          rfl
        rw [hv2] at hst
        cases hx : (S.viewAt u.getHash).vote with
        | none =>
          rcases hst with hst | ⟨t', hst⟩ <;> rw [hst, hx] <;> rfl
        | some x =>
          have hbn : x.blockNumber < chain.length := ((hg.view _).vote_before hx).1
          have hout : u.utxo.hash ∉ block.vtx.map (·.hash) := by
            intro hm
            obtain ⟨tx, htx, he⟩ := List.mem_map.mp hm
            refine (hg.view u.getHash).found (by simp [hx]) ?_
            show chain.getTransaction u.utxo.hash = none
            rw [← he]
            exact hfresh tx htx
          rcases hst with hst | ⟨t', hst⟩
          · rw [hst, hx]
            exact removesAt_old cr params hbn hout
          · rw [hst, hx, Option.map_some]
            exact removesAt_old cr params hbn hout
    rw [hrem]

/-- **The round trip of the store at one hash.** `g1` and `g2` are the store after the proposal
and the vote loops of `processBlock`, and `g5` the store after the removal loops of
`BlockDisconnected`, whose proposals are those before the block. -/
theorem viewAt_reorg (h1 : 1 ≤ params.governanceBlock) (hg : S.Settled cr chain)
    (hh : params.governanceBlock ≤ chain.length)
    (hfresh : ∀ tx ∈ block.vtx, chain.getTransaction tx.hash = none)
    (hwf : parsed.WF cr chain.length)
    (hg1 : g1 = (recordedProposals params parsed chain.length).foldl (Governance.addProposal cr) S)
    (hg2 : g2 = (acceptedVotes cr params (chain ++ [block]) coins S parsed chain.length).foldl
      Governance.addVote g1)
    (hg5 : g5 = parsed.proposals.foldl (disconnectProposal cr params chain.length)
      (parsed.votes.foldl (fun g v => disconnectOne cr params chain parsed (block.vtx.map (·.hash))
        chain.length v g) (spendStep cr g2 block chain.length)))
    (hF : g5.propView = S.propView) (k : VoteHash) :
    (unspendVotes cr g5 block chain.length).viewAt k = S.viewAt k := by
  have hpos : (1 : Int) ≤ chain.length := le_trans h1 hh
  obtain ⟨vs, hvs⟩ : ∃ vs, vs = acceptedVotes cr params (chain ++ [block]) coins S parsed
      chain.length := ⟨_, rfl⟩
  obtain ⟨g3, hg3⟩ : ∃ g3, g3 = spendStep cr g2 block chain.length := ⟨_, rfl⟩
  obtain ⟨g4, hg4⟩ : ∃ g4, g4 = parsed.votes.foldl (fun g v => disconnectOne cr params chain
      parsed (block.vtx.map (·.hash)) chain.length v g) g3 := ⟨_, rfl⟩
  rw [← hvs] at hg2
  rw [← hg3, ← hg4] at hg5
  -- every store on the way is keyed, with its proposals under their own hashes
  have hc2 : Governance.Changes cr S g2 := by
    rw [hg2, hg1]
    exact (addProposals_changes cr _ S).trans (addVotes_changes cr _ _)
  have hc5 : Governance.Changes cr g2 g5 := by
    rw [hg5, hg4, hg3]
    exact ((spendStep_changes g2 block _).trans (disconnectVotes_changes _ _ _ _)).trans
      (disconnectProposals_changes cr params _ _ _)
  have hk2 : g2.Keyed := Steps.inv _ (fun g c hg => Governance.keyed_apply cr c hg) hc2 hg.keyed
  have hp2 : g2.PropKeyed cr :=
    Steps.inv _ (fun g c hg => Governance.propKeyed_apply cr c hg) hc2 hg.propKeyed
  have hk5 : g5.Keyed := Steps.inv _ (fun g c hg => Governance.keyed_apply cr c hg) hc5 hk2
  have hp5 : g5.PropKeyed cr :=
    Steps.inv _ (fun g c hg => Governance.propKeyed_apply cr c hg) hc5 hp2
  -- the proposals the passes read, and the hashes the proposal loops leave alone
  have hF1 : ∀ ph p, S.propView ph = some p → g1.propView ph = some p := fun ph p hp => by
    rw [hg1]
    exact lookup_addProposals_of_some cr _ hp
  have hP2 : g2.propView = g1.propView := by rw [hg2, propView_addVotes]
  have hP3 : g3.propView = g1.propView := by rw [hg3, propView_spendStep, hP2]
  have hv1 : g1.viewAt = S.viewAt := by rw [hg1, viewAt_addProposals]
  have hv5 : g5.viewAt = g4.viewAt := by rw [hg5, viewAt_disconnectProposals]
  have hnd : (vs.map Vote.getHash).Nodup := hvs ▸ nodup_acceptedVotes cr params hwf.votes_nodup
  -- the vote loop pushes the vote the block records at `k`, the spend pass may spend it
  have h2 : g2.viewAt k = (vs.find? fun v => v.getHash == k).elim (S.viewAt k)
      fun v => (S.viewAt k).addVote g1.propView v := by
    rw [hg2, viewAt_addVotes hnd g1 k, hv1]
  have h3 := viewAt_spendStep cr g2 block chain.length k
  rw [← hg3, hP2] at h3
  have hacc : ∀ v, (vs.find? fun v => v.getHash == k) = some v →
      v.getHash = k ∧ S.propView k.proposal ≠ none := fun v hv => by
    have hk : v.getHash = k := by simpa using List.find?_some hv
    refine ⟨hk, ?_⟩
    rw [← hk]
    exact (acceptedVotes_spec cr params hwf (hvs ▸ List.mem_of_find?_eq_some hv)).1
  have hS : (!g2.votes.entries.isEmpty &&
      decide (k ∈ (votesSince cr g2 chain.length false).map Vote.getHash)) = true →
      ∃ p x, g1.propView k.proposal = some p ∧ (chain.length : Int) ≤ p.superblock ∧
        (g2.viewAt k).sb p.superblock = some x ∧ x.spent = false := fun hb => by
    simp only [Bool.and_eq_true, decide_eq_true_eq] at hb
    obtain ⟨p, x, hp, hle, hsb, hsp⟩ := (mem_votesSince cr hk2 hp2 _ false k).mp hb.2
    refine ⟨p, x, ?_, hle, hsb, by simpa using hsp⟩
    rw [← hP2]
    exact hp
  have hU : (∃ p x, S.propView k.proposal = some p ∧ (chain.length : Int) ≤ p.superblock ∧
      (g4.viewAt k).sb p.superblock = some x) →
      k ∈ (votesSince cr g5 chain.length true).map Vote.getHash := by
    rintro ⟨p, x, hp, hle, hsb⟩
    refine (mem_votesSince cr hk5 hp5 _ true k).mpr ⟨p, x, ?_, hle, ?_, rfl⟩
    · exact (congrFun hF k.proposal).trans hp
    · show (g5.viewAt k).sb p.superblock = some x
      rw [hv5]
      exact hsb
  -- the removal loop pops at `k` exactly the vote the block pushed there
  have h4 : g4.viewAt k = if (vs.find? fun v => v.getHash == k).isSome then
      (g3.viewAt k).removeVote g1.propView
        ((parsed.votes.find? fun v => v.getHash == k).getD { proposal := k.proposal }) false
      else g3.viewAt k :=
    viewAt_disconnect_reorg hg hfresh hwf hvs hF1 h2 h3 hg4 hP3
  rw [viewAt_unspendVotes cr g5 block (by omega) k, hF, hv5]
  refine VoteView.round_trip (hg.view k) hpos hF1 hacc ?_ h2 h3 h4 hS hU
  -- the vote removed has the proposal of the hash
  cases hfu : parsed.votes.find? fun v => v.getHash == k with
  | none => rfl
  | some u =>
    have hk : u.getHash = k := by simpa using List.find?_some hfu
    rw [Option.getD_some, ← hk]
    rfl

/-- **Disconnecting the block just connected gives the store back.** On a chain connected block by
block from the empty store, a block whose transactions are new to the chain, connected at the
next height (below the maximal one) and disconnected right after, leaves every proposal, every
vote with its spent state, every history and every entry of every superblock's map as they
were. -/
theorem reorg_round_trip (h1 : 1 ≤ params.governanceBlock) {S S' S'' : Governance}
    (hS : Connected cr params chain S)
    (hfresh : ∀ tx ∈ block.vtx, chain.getTransaction tx.hash = none)
    (hmax : (chain.length : Int) ≠ maxInt)
    (hc : BlockConnected cr params (chain ++ [block]) coins S block chain.length = .ok S')
    (hd : BlockDisconnected cr params chain S' block chain.length = .ok S'') :
    (∀ ph, S''.proposals.lookup ph = S.proposals.lookup ph) ∧
      (∀ k, S''.votes.lookup k = S.votes.lookup k) ∧
      (∀ k, S''.stackvotes.lookup k = S.stackvotes.lookup k) ∧
      ∀ s k, S''.sbLookup s k = S.sbLookup s k := by
  -- the proposals and what the store holds at each hash decide every lookup
  suffices h : S''.propView = S.propView ∧ S''.viewAt = S.viewAt from
    ⟨congrFun h.1, fun k => congrArg VoteView.vote (congrFun h.2 k),
      fun k => congrArg VoteView.stack (congrFun h.2 k),
      fun s k => congrFun (congrArg VoteView.sb (congrFun h.2 k)) s⟩
  by_cases hlt : (chain.length : Int) < params.governanceBlock
  · -- before the governance start neither call changes the store
    rw [BlockConnected, if_pos hlt] at hc
    cases hc
    unfold BlockDisconnected at hd
    rw [if_pos hlt] at hd
    cases hd
    exact ⟨rfl, rfl⟩
  have hh := not_lt.mp hlt
  rw [BlockConnected, if_neg hlt] at hc
  obtain ⟨parsed, g1, g2, hparsed, hg1, hg2, rfl⟩ := processBlock_tip_eq cr params hc
  obtain ⟨parsed', hparsed', rfl⟩ := BlockDisconnected_eq cr params hh hmax hd
  -- the block reads the same at both calls
  rw [hparsed, Except.ok.injEq] at hparsed'
  subst hparsed'
  have hg := hS.settled h1
  have hwf := dataFromBlock_wf hparsed
  have hP4 : (parsed.votes.foldl (fun g v => disconnectOne cr params chain parsed
      (block.vtx.map (·.hash)) chain.length v g) (spendStep cr g2 block chain.length)).propView =
      g1.propView := by
    rw [propView_disconnectVotes, propView_spendStep, hg2, propView_addVotes]
  have hF := lookup_reorg hg hwf hg1 hP4
  refine ⟨?_, funext (viewAt_reorg h1 hg hh hfresh hwf hg1 hg2 rfl (funext hF))⟩
  rw [propView_unspendVotes]
  exact funext hF

end RoundTrip

/-! ## Block 2 of the sample chain

The store of the sample chain (`Node`) after blocks 0 and 1, after block 2 with its vote, and
after block 2 is disconnected again. -/

/-- The store after blocks 0 and 1: block 0 is before the governance start, block 1 records the
proposal. -/
def sampleStore1 : Governance :=
  okOr {} (BlockConnected Crypto.sample Params.sample [block0, block1] sampleCoins
    (okOr {} (BlockConnected Crypto.sample Params.sample [block0] sampleCoins {} block0 0)) block1 1)

/-- The store after block 2, which records the YES vote. -/
def sampleStore2 : Governance :=
  okOr sampleStore1 (BlockConnected Crypto.sample Params.sample [block0, block1, block2] sampleCoins
    sampleStore1 block2 2)

/-- The store after block 2 is disconnected. -/
def sampleStore2Undone : Governance :=
  okOr sampleStore2 (BlockDisconnected Crypto.sample Params.sample [block0, block1] sampleStore2
    block2 2)

theorem sample_reorg :
    Connected Crypto.sample Params.sample [block0, block1] sampleStore1 ∧
      BlockConnected Crypto.sample Params.sample ([block0, block1] ++ [block2]) sampleCoins
        sampleStore1 block2 ([block0, block1].length) = .ok sampleStore2 ∧
      BlockDisconnected Crypto.sample Params.sample [block0, block1] sampleStore2 block2
        ([block0, block1].length) = .ok sampleStore2Undone := by
  refine ⟨?_, eq_ok_okOr _ (by decide +kernel), eq_ok_okOr _ (by decide +kernel)⟩
  have h0 := Connected.snoc block0 sampleCoins (@Connected.nil Crypto.sample Params.sample)
    (eq_ok_okOr {} (by decide +kernel))
  exact Connected.snoc block1 sampleCoins h0 (eq_ok_okOr _ (by decide +kernel))

/-- The vote of block 2 is recorded, and disconnecting block 2 takes it back. -/
theorem reorg_round_trip_block2 :
    (sampleStore2.votes.lookup (sampleVote ⟨0x51, 0⟩ YES).getHash).isSome ∧
      (∀ ph, sampleStore2Undone.proposals.lookup ph = sampleStore1.proposals.lookup ph) ∧
      (∀ k, sampleStore2Undone.votes.lookup k = sampleStore1.votes.lookup k) ∧
      (∀ k, sampleStore2Undone.stackvotes.lookup k = sampleStore1.stackvotes.lookup k) ∧
      ∀ s k, sampleStore2Undone.sbLookup s k = sampleStore1.sbLookup s k := by
  obtain ⟨hS, hc, hd⟩ := sample_reorg
  exact ⟨by decide +kernel,
    reorg_round_trip (by decide) hS (by decide +kernel) (by decide) hc hd⟩

/-- The map of superblock 4 that block 2's vote created stays, empty, after block 2 is
disconnected: `removeVote` erases the vote from the map and never the map. -/
theorem reorg_leaves_empty_superblock_map :
    ∃ S S' S'' : Governance, Connected Crypto.sample Params.sample [block0, block1] S ∧
      (∀ tx ∈ block2.vtx, Chain.getTransaction [block0, block1] tx.hash = none) ∧
      BlockConnected Crypto.sample Params.sample ([block0, block1] ++ [block2]) sampleCoins S
        block2 2 = .ok S' ∧
      BlockDisconnected Crypto.sample Params.sample [block0, block1] S' block2 2 = .ok S'' ∧
      S.sbvotes.lookup 4 = none ∧ S''.sbvotes.lookup 4 = some ∅ := by
  obtain ⟨hS, hc, hd⟩ := sample_reorg
  -- the map of superblock 4 is there after the disconnection, with no entry
  obtain ⟨m, hm, he⟩ := Option.map_eq_some_iff.mp
    (show (sampleStore2Undone.sbvotes.lookup 4).map AList.entries = some [] by decide +kernel)
  refine ⟨_, _, _, hS, by decide +kernel, hc, hd, by decide +kernel, ?_⟩
  rw [hm]
  exact congrArg some (AList.ext he : m = ∅)

end Blocknet.Gov

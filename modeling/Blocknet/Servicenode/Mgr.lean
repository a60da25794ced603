import Mathlib.Logic.Relation
import Blocknet.Servicenode.Node
import Blocknet.Lib.Owners

/-!
# The servicenode manager

Model of `ServiceNodeMgr` (`servicenode/servicenodemgr.h`): the servicenode list `snodes`, the
last ping of each servicenode (`pings`), the hashes of the packets seen (`seenPackets`), and the
handlers that change them: `processRegistration`, `processCachedRegistration`, `processPing`,
`registerSn`, `removeSn`, `processValidationBlock`, `processXBridge` (with the size guard of the
XBRIDGE branch of `ProcessMessage` before it) and `reset`.

* A handler takes what it reads from the stream. A read that throws returns `false` before any
  change, so it is a call that changes nothing. `registerSn` takes the servicenode it builds; the
  wallet search for collateral before it is not modelled.
* `addSn` runs in two critical sections of `mu`: `removeSnWithCollateral`, then the insertion into
  `snodes`. A handler is modelled up to the end of the first (`addSnRemove`) and returns the
  servicenode the second inserts (`insertSn`). `Call.run` runs the second at once: one handler at
  a time. `Sys` runs handlers on several threads: a thread between the two sections waits in
  `waiting`, and a step of any thread may come next. The other sections of a handler (`seenPacket`,
  `addPing`) run in its first step, so `Sys` has fewer interleavings than the code, and a state
  `Sys` reaches, the code reaches.

Results:
* `Call.start_effect`: what the first step of every call does to `snodes`.
* `reachable_keyed_exclusive`: with one handler at a time, each servicenode is stored under its own
  key and no two share a collateral outpoint. `Sys.reachable_keyed`: the first holds in every
  interleaving.
* `concurrent_registrations_share_collateral`: two valid registrations with distinct keys and a
  shared outpoint, whose first sections both run before either second section, leave two
  servicenodes in `snodes` that share that outpoint.
* `processXBridgeMessage_reads_past_end`: a new packet the XBRIDGE guard admits that is shorter
  than 141 bytes is read past its end.
-/

namespace Blocknet.Sn

open Blocknet.Lib

/-- The data members of `ServiceNodeMgr` that the modelled handlers read and write. -/
structure ServiceNodeMgr where
  snodes : Map CPubKey ServiceNode := ∅
  pings : Map CPubKey ServiceNodePing := ∅
  seenPackets : List Uint256 := []

/-- The map `removeSnWithCollateral` builds: each collateral outpoint of a servicenode other than
`snode`, to the key of its owner. A later owner of an outpoint overwrites an earlier one. -/
def collateralOwners (snodes : Map CPubKey ServiceNode) (snode : ServiceNode) :
    Map OutPoint CPubKey :=
  snodes.entries.foldl (fun utxos item =>
    if item.2.snodePubKey ≠ snode.snodePubKey then
      item.2.collateral.foldl (fun utxos utxo => utxos.insert utxo item.2.snodePubKey) utxos
    else utxos) ∅

/-- The second loop of `removeSnWithCollateral`: the owner of each of `collateral` in `utxos`
is erased. -/
def eraseOwners (utxos : Map OutPoint CPubKey) (collateral : List OutPoint)
    (snodes : Map CPubKey ServiceNode) : Map CPubKey ServiceNode :=
  collateral.foldl (fun snodes utxo =>
    match utxos.lookup utxo with
    | some owner => if owner ∈ snodes then snodes.erase owner else snodes
    | none => snodes) snodes

/-- What `removeSnWithCollateral(snode)` leaves of `snodes`. -/
def withoutCollateral (snodes : Map CPubKey ServiceNode) (snode : ServiceNode) :
    Map CPubKey ServiceNode :=
  eraseOwners (collateralOwners snodes snode) snode.collateral snodes

/-- The outpoints `processValidationBlock` marks as spent: the inputs of a connected block, the
outputs of a disconnected one. -/
def spentOutpoints (block : Block) (connected : Bool) : List OutPoint :=
  block.vtx.flatMap fun tx =>
    if connected then tx.vin.map (·.prevout)
    else (List.range tx.vout.length).map fun i => ⟨tx.hash, UInt32.ofNat i⟩

variable (cr : Crypto) (env : Env)

/-- The body of the loop of `processValidationBlock`, for one servicenode. -/
def revalidate (spent : List OutPoint) (connected : Bool) (blockNumber : Int)
    (snode : ServiceNode) : Except Fault ServiceNode :=
  let snode := if snode.collateral.any (· ∈ spent) then snode.markInvalid true blockNumber else snode
  if connected then .ok snode
  else do
    -- on a disconnection (a possible reorg) the state is cleared and validity checked again
    let snode := snode.markInvalid false 0
    let valid ← snode.isValid cr env true
    pure (snode.markInvalid (!valid) 0)

namespace ServiceNodeMgr

/-- `seenPacket(hash)`: whether the hash was seen before; if not, it is recorded, in a set that is
cleared when it holds more than 350000 hashes. -/
def seenPacket (mgr : ServiceNodeMgr) (hash : Uint256) : Bool × ServiceNodeMgr :=
  if hash ∈ mgr.seenPackets then (true, mgr)
  else
    let seen := if 350000 < mgr.seenPackets.length then [] else mgr.seenPackets
    (false, { mgr with seenPackets := hash :: seen })

/-- `addPing`: only a ping newer than the last one known of its servicenode is kept. -/
def addPing (mgr : ServiceNodeMgr) (ping : ServiceNodePing) : Bool × ServiceNodeMgr :=
  let newer := match mgr.pings.lookup ping.snodePubKey with
    | none => true
    | some last => decide (last.pingTime < ping.pingTime)
  if newer then (true, { mgr with pings := mgr.pings.insert ping.snodePubKey ping })
  else (false, mgr)

/-- `removeSnWithCollateral(snode)`. -/
def removeSnWithCollateral (mgr : ServiceNodeMgr) (snode : ServiceNode) : ServiceNodeMgr :=
  { mgr with snodes := withoutCollateral mgr.snodes snode }

/-- `addSn(snode, checkValid, staleCheck)` to the end of its first critical section: `none` where
`addSn` returns `nullptr`, or the servicenode its second critical section inserts. -/
def addSnRemove (mgr : ServiceNodeMgr) (snode : ServiceNode) (checkValid staleCheck : Bool) :
    Except Fault (ServiceNodeMgr × Option ServiceNode) :=
  let removed := (mgr.removeSnWithCollateral snode, some snode)
  if checkValid then
    match snode.isValid cr env staleCheck with
    | .error e => .error e
    | .ok false => .ok (mgr, none)
    | .ok true => .ok removed
  else .ok removed

/-- The second critical section of `addSn`: `snodes[ptr->getSnodePubKey()] = ptr`. -/
def insertSn (mgr : ServiceNodeMgr) (snode : ServiceNode) : ServiceNodeMgr :=
  { mgr with snodes := mgr.snodes.insert snode.snodePubKey snode }

/-- `processRegistration`, on the servicenode read from the stream: what it returns, the manager,
and the servicenode its `addSn` inserts last. -/
def processRegistration (mgr : ServiceNodeMgr) (sn : ServiceNode) :
    Except Fault (Bool × ServiceNodeMgr × Option ServiceNode) :=
  let (seen, mgr) := mgr.seenPacket (sn.getHash cr)
  if seen then .ok (false, mgr, none)
  else do
    let (mgr, ptr) ← mgr.addSnRemove cr env sn true true
    pure (ptr.isSome, mgr, ptr)

/-- `processCachedRegistration`: no seen check, and no stale check. -/
def processCachedRegistration (mgr : ServiceNodeMgr) (sn : ServiceNode) :
    Except Fault (Bool × ServiceNodeMgr × Option ServiceNode) := do
  let (mgr, ptr) ← mgr.addSnRemove cr env sn true false
  pure (ptr.isSome, mgr, ptr)

/-- `processPing`. -/
def processPing (mgr : ServiceNodeMgr) (ping : ServiceNodePing) :
    Except Fault (Bool × ServiceNodeMgr × Option ServiceNode) :=
  let (seen, mgr) := mgr.seenPacket (ping.getHash cr)
  if seen then .ok (false, mgr, none)
  else do
    let valid ← ping.isValid cr env
    if !valid then pure (false, mgr, none)
    else
      let (added, mgr) := mgr.addPing ping
      if !added then pure (false, mgr, none)
      else do
        -- no validity check: the ping's covered its servicenode
        let (mgr, ptr) ← mgr.addSnRemove cr env ping.snode false true
        pure (true, mgr, ptr)

/-- `registerSn`, from the servicenode it builds. -/
def registerSn (mgr : ServiceNodeMgr) (sn : ServiceNode) :
    Except Fault (Bool × ServiceNodeMgr × Option ServiceNode) := do
  let (mgr, ptr) ← mgr.addSnRemove cr env sn true true
  pure (ptr.isSome, mgr, ptr)

/-- `removeSn`. -/
def removeSn (mgr : ServiceNodeMgr) (snodePubKey : CPubKey) : Bool × ServiceNodeMgr :=
  if snodePubKey ∉ mgr.snodes then (false, mgr)
  else (true, { mgr with snodes := mgr.snodes.erase snodePubKey })

/-- `processValidationBlock`: every servicenode is updated in place, through its pointer. -/
def processValidationBlock (mgr : ServiceNodeMgr) (block : Block) (connected : Bool)
    (blockNumber : Int) : Except Fault ServiceNodeMgr := do
  let spent := spentOutpoints block connected
  let snodes ← mgr.snodes.entries.foldlM (fun snodes item => do
    let snode ← revalidate cr env spent connected blockNumber item.2
    pure (snodes.insert item.1 snode)) mgr.snodes
  pure { mgr with snodes }

/-- `processXBridge`: what it returns, and the manager. -/
def processXBridge (mgr : ServiceNodeMgr) (packet : Bytes) : Except Fault (Bool × ServiceNodeMgr) :=
  let (seen, mgr) := mgr.seenPacket (cr.hash256 packet)
  if seen then .ok (false, mgr)
  else
    -- `catch (...)` catches an exception, not an out-of-bounds read
    match LegacyXBridgePacket.CopyFrom packet with
    | .error (.exception _) => .ok (true, mgr)
    | .error e => .error e
    -- every legacy command is ignored, the service ping too
    | .ok _ => .ok (true, mgr)

/-- The XBRIDGE branch of `ProcessMessage` to the end of `processXBridge`: a packet shorter than
`20 + sizeof(time_t)` bytes is refused. The result is whether the packet goes on to xbridge. -/
def processXBridgeMessage (mgr : ServiceNodeMgr) (raw : Bytes) :
    Except Fault (Bool × ServiceNodeMgr) :=
  if raw.length < 20 + 8 then .ok (false, mgr) else mgr.processXBridge cr raw

/-- `reset`. -/
def reset (_mgr : ServiceNodeMgr) : ServiceNodeMgr := {}

end ServiceNodeMgr

/-- A call into the manager, with what it reads from the network. -/
inductive Call where
  | processRegistration (sn : ServiceNode)
  | processCachedRegistration (sn : ServiceNode)
  | processPing (ping : ServiceNodePing)
  | registerSn (sn : ServiceNode)
  | removeSn (snodePubKey : CPubKey)
  | processValidationBlock (block : Block) (connected : Bool) (blockNumber : Int)
  | processXBridge (raw : Bytes)
  | reset

/-- A call run to the end of the first critical section of its `addSn`: the manager, and the
servicenode the second section inserts. -/
def Call.start (mgr : ServiceNodeMgr) : Call → Except Fault (ServiceNodeMgr × Option ServiceNode)
  | .processRegistration sn => (mgr.processRegistration cr env sn).map (·.2)
  | .processCachedRegistration sn => (mgr.processCachedRegistration cr env sn).map (·.2)
  | .processPing ping => (mgr.processPing cr env ping).map (·.2)
  | .registerSn sn => (mgr.registerSn cr env sn).map (·.2)
  | .removeSn pk => .ok ((mgr.removeSn pk).2, none)
  | .processValidationBlock block connected blockNumber =>
    (mgr.processValidationBlock cr env block connected blockNumber).map (·, none)
  | .processXBridge raw => (mgr.processXBridgeMessage cr raw).map (·.2, none)
  | .reset => .ok (mgr.reset, none)

/-- A call run alone, to its end. -/
def Call.run (mgr : ServiceNodeMgr) (c : Call) : Except Fault ServiceNodeMgr :=
  (c.start cr env mgr).map fun r => r.2.elim r.1 r.1.insertSn

/-- The managers reached from the empty one by calls that return, one at a time, each on the
chain of its moment. -/
def Reachable : ServiceNodeMgr → Prop :=
  Relation.ReflTransGen (fun mgr mgr' => ∃ env c, Call.run cr env mgr c = .ok mgr') {}

/-- The manager, with the threads that wait between the two critical sections of `addSn`. -/
structure Sys where
  mgr : ServiceNodeMgr
  waiting : List ServiceNode

/-- A step of one thread: a call runs its first step, or a waiting thread inserts. -/
inductive Sys.Step : Sys → Sys → Prop
  | start {s : Sys} {mgr : ServiceNodeMgr} {ptr : Option ServiceNode} (env : Env) (c : Call) :
      c.start cr env s.mgr = .ok (mgr, ptr) → Sys.Step s ⟨mgr, ptr.toList ++ s.waiting⟩
  | insert {s : Sys} {pre post : List ServiceNode} {sn : ServiceNode} :
      s.waiting = pre ++ sn :: post → Sys.Step s ⟨s.mgr.insertSn sn, pre ++ post⟩

/-- The states reached from the empty manager with no thread waiting. -/
def Sys.Reachable : Sys → Prop := Relation.ReflTransGen (Sys.Step cr) ⟨{}, []⟩

/-! ## `removeSnWithCollateral` -/

section Removal

variable {snodes : Map CPubKey ServiceNode} {snode : ServiceNode}

/-- The owner of an outpoint of `collateral` is erased; every other key keeps its servicenode. -/
theorem lookup_eraseOwners (utxos : Map OutPoint CPubKey) (collateral : List OutPoint)
    (snodes : Map CPubKey ServiceNode) (k : CPubKey) :
    (eraseOwners utxos collateral snodes).lookup k =
      if ∃ u ∈ collateral, utxos.lookup u = some k then none else snodes.lookup k := by
  induction collateral generalizing snodes with
  | nil => simp [eraseOwners]
  | cons u us ih =>
    -- one iteration erases the owner of `u`, if it has one; a missing owner is no change
    have hstep : ∀ m : Map CPubKey ServiceNode, (match utxos.lookup u with
        | some owner => if owner ∈ m then m.erase owner else m
        | none => m).lookup k = if utxos.lookup u = some k then none else m.lookup k := by
      intro m
      cases utxos.lookup u with
      | none => simp
      | some o =>
        simp only [Option.some.injEq]
        split_ifs with hm hok hok
        · subst hok
          exact AList.lookup_erase o m
        · exact AList.lookup_erase_ne (Ne.symm hok)
        · subst hok
          exact AList.lookup_eq_none.mpr hm
        · rfl
    unfold eraseOwners at ih ⊢
    rw [List.foldl_cons, ih, hstep]
    by_cases hu : utxos.lookup u = some k
    · simp [hu]
    · simp only [hu, if_false, List.mem_cons, exists_eq_or_imp, false_or]

/-- Every owner `collateralOwners` records is another servicenode that holds the outpoint. -/
theorem collateralOwners_sound {u : OutPoint} {o : CPubKey}
    (h : (collateralOwners snodes snode).lookup u = some o) :
    o ≠ snode.snodePubKey ∧
      ∃ k s, snodes.lookup k = some s ∧ s.snodePubKey = o ∧ u ∈ s.collateral := by
  let Sound : Map OutPoint CPubKey → Prop := fun utxos => ∀ u o, utxos.lookup u = some o →
    o ≠ snode.snodePubKey ∧ ∃ k s, snodes.lookup k = some s ∧ s.snodePubKey = o ∧ u ∈ s.collateral
  have hsound : Sound (collateralOwners snodes snode) := by
    refine foldl_inv Sound _ (fun utxos item hitem hutxos => ?_) (fun u o h => by cases h)
    split_ifs with hne
    · refine foldl_inv Sound _ (fun utxos' utxo hutxo h' => ?_) hutxos
      intro u' o' hu'
      rw [Map.lookup_insert_eq_ite] at hu'
      split_ifs at hu' with heq
      · cases hu'
        subst heq
        exact ⟨hne, item.1, item.2, AList.mem_lookup_iff.mpr hitem, rfl, hutxo⟩
      · exact h' u' o' hu'
    · exact hutxos
  exact hsound u o h

/-- Every outpoint of a servicenode other than `snode` has an owner in `collateralOwners`. -/
theorem collateralOwners_complete {k : CPubKey} {s : ServiceNode} {u : OutPoint}
    (hs : snodes.lookup k = some s) (hne : s.snodePubKey ≠ snode.snodePubKey)
    (hu : u ∈ s.collateral) : ((collateralOwners snodes snode).lookup u).isSome := by
  -- an iteration only inserts, so it keeps an owner once one is recorded
  have hkeep : ∀ (utxos : Map OutPoint CPubKey) (item : (_ : CPubKey) × ServiceNode),
      (utxos.lookup u).isSome →
        (((if item.2.snodePubKey ≠ snode.snodePubKey then
          item.2.collateral.foldl (fun utxos utxo => utxos.insert utxo item.2.snodePubKey) utxos
          else utxos) : Map OutPoint CPubKey).lookup u).isSome := by
    intro utxos item h
    split_ifs
    · exact (Map.isSome_lookup_foldl_insert id (fun _ => item.2.snodePubKey) _ utxos u).mpr
        (Or.inr h)
    · exact h
  have hitem : (⟨k, s⟩ : (_ : CPubKey) × ServiceNode) ∈ snodes.entries := AList.mem_lookup_iff.mp hs
  unfold collateralOwners
  obtain ⟨pre, post, hsplit⟩ := List.append_of_mem hitem
  rw [hsplit, List.foldl_append, List.foldl_cons]
  refine foldl_inv (fun utxos : Map OutPoint CPubKey => (utxos.lookup u).isSome) _
    (fun utxos item _ h => hkeep utxos item h) ?_
  simp only [hne, ne_eq, not_false_eq_true, if_true]
  exact (Map.isSome_lookup_foldl_insert id (fun _ => s.snodePubKey) _ _ u).mpr
    (Or.inl ⟨u, hu, rfl⟩)

/-- What removal leaves was there, and is no owner of an outpoint of `snode`. -/
theorem lookup_withoutCollateral_eq_some {k : CPubKey} {s : ServiceNode}
    (h : (withoutCollateral snodes snode).lookup k = some s) :
    snodes.lookup k = some s ∧
      ∀ u ∈ snode.collateral, (collateralOwners snodes snode).lookup u ≠ some k := by
  unfold withoutCollateral at h
  rw [lookup_eraseOwners] at h
  split_ifs at h with howner
  simp only [not_exists, not_and] at howner
  exact ⟨h, howner⟩

end Removal

/-! ## The invariant -/

/-- Each servicenode is stored under its own key. -/
def Keyed (snodes : Map CPubKey ServiceNode) : Prop :=
  ∀ k s, snodes.lookup k = some s → s.snodePubKey = k

section Invariant

variable {snodes : Map CPubKey ServiceNode} {snode : ServiceNode}

theorem keyed_empty : Keyed ∅ := fun _ _ h => by cases h

theorem Keyed.erase (h : Keyed snodes) (k₀ : CPubKey) : Keyed (snodes.erase k₀) := by
  intro k s hs
  rw [Map.lookup_erase_eq_ite] at hs
  split_ifs at hs
  exact h k s hs

theorem Keyed.insertSn (h : Keyed snodes) (snode : ServiceNode) :
    Keyed (snodes.insert snode.snodePubKey snode) := by
  intro k s hs
  rw [Map.lookup_insert_eq_ite] at hs
  split_ifs at hs with hk
  · cases hs
    exact hk.symm
  · exact h k s hs

theorem Keyed.withoutCollateral (h : Keyed snodes) (snode : ServiceNode) :
    Keyed (withoutCollateral snodes snode) :=
  fun k s hs => h k s (lookup_withoutCollateral_eq_some hs).1

/-- After removal no servicenode under another key holds an outpoint of `snode`. -/
theorem withoutCollateral_free (hk : Keyed snodes)
    (hx : Map.Exclusive ServiceNode.collateral snodes) {k : CPubKey} {a : OutPoint}
    (hne : k ≠ snode.snodePubKey)
    (hholds : Map.Holds ServiceNode.collateral (withoutCollateral snodes snode) k a) :
    a ∉ snode.collateral := by
  intro ha
  obtain ⟨s, hs, has⟩ := hholds
  obtain ⟨hs, hnotOwner⟩ := lookup_withoutCollateral_eq_some hs
  have hsk : s.snodePubKey = k := hk k s hs
  -- `a` has an owner, and it holds `a` too; by exclusivity it is `k`, which removal erases
  obtain ⟨o, ho⟩ := Option.isSome_iff_exists.mp
    (collateralOwners_complete hs (hsk ▸ hne) has)
  obtain ⟨-, k', s', hs', hso, has'⟩ := collateralOwners_sound ho
  have hk' : k' = o := (hk k' s' hs').symm.trans hso
  have hok : o = k := hk' ▸ hx ⟨s', hs', has'⟩ ⟨s, hs, has⟩
  exact hnotOwner a ha (hok ▸ ho)

/-- **`addSn` alone keeps the invariant**: removal then insertion leaves every servicenode under
its own key and no outpoint under two keys. -/
theorem addSn_keyed_exclusive (hk : Keyed snodes)
    (hx : Map.Exclusive ServiceNode.collateral snodes) (snode : ServiceNode) :
    Keyed ((withoutCollateral snodes snode).insert snode.snodePubKey snode) ∧
      Map.Exclusive ServiceNode.collateral
        ((withoutCollateral snodes snode).insert snode.snodePubKey snode) := by
  refine ⟨(hk.withoutCollateral snode).insertSn snode, ?_⟩
  refine Map.Exclusive.insert ?_ fun k a hne hholds => withoutCollateral_free hk hx hne hholds
  exact hx.mono fun k a ⟨s, hs, has⟩ => ⟨s, (lookup_withoutCollateral_eq_some hs).1, has⟩

end Invariant

/-! ## What a call does to `snodes` -/

/-- Two lists of servicenodes with the same key and collateral under every key. -/
def SameShape (m m' : Map CPubKey ServiceNode) : Prop :=
  ∀ k, (m'.lookup k).map (fun s => (s.snodePubKey, s.collateral)) =
    (m.lookup k).map (fun s => (s.snodePubKey, s.collateral))

/-- What the first step of a call does to `snodes`: it keeps every key and collateral, erases a
key, empties the list, or removes the servicenodes that share collateral with the one it will
insert. -/
inductive StartEffect (old : Map CPubKey ServiceNode) :
    Map CPubKey ServiceNode → Option ServiceNode → Prop
  | shaped {m : Map CPubKey ServiceNode} : SameShape old m → StartEffect old m none
  | erase (k : CPubKey) : StartEffect old (old.erase k) none
  | reset : StartEffect old ∅ none
  | removed (sn : ServiceNode) : StartEffect old (withoutCollateral old sn) (some sn)

namespace ServiceNodeMgr

@[simp] theorem seenPacket_snodes (mgr : ServiceNodeMgr) (hash : Uint256) :
    (mgr.seenPacket hash).2.snodes = mgr.snodes := by
  unfold seenPacket
  split_ifs <;> rfl

@[simp] theorem addPing_snodes (mgr : ServiceNodeMgr) (ping : ServiceNodePing) :
    (mgr.addPing ping).2.snodes = mgr.snodes := by
  unfold addPing
  dsimp only
  split_ifs <;> rfl

end ServiceNodeMgr

section Effects

variable {cr env} {mgr mgr' : ServiceNodeMgr} {ptr : Option ServiceNode}

theorem sameShape_refl (m : Map CPubKey ServiceNode) : SameShape m m := fun _ => rfl

theorem StartEffect.same (h : mgr'.snodes = mgr.snodes) : StartEffect mgr.snodes mgr'.snodes none :=
  h ▸ .shaped (sameShape_refl _)

/-- The body of `processValidationBlock`'s loop changes neither key nor collateral. -/
theorem revalidate_shape {spent : List OutPoint} {connected : Bool} {blockNumber : Int}
    {s s' : ServiceNode} (h : revalidate cr env spent connected blockNumber s = .ok s') :
    s'.snodePubKey = s.snodePubKey ∧ s'.collateral = s.collateral := by
  unfold revalidate at h
  split_ifs at h
  · cases h
    simp
  · obtain ⟨valid, -, h⟩ := except_bind_eq_ok h
    cases h
    simp
  · cases h
    simp
  · obtain ⟨valid, -, h⟩ := except_bind_eq_ok h
    cases h
    simp

theorem processValidationBlock_shape {block : Block} {connected : Bool} {blockNumber : Int}
    (h : mgr.processValidationBlock cr env block connected blockNumber = .ok mgr') :
    SameShape mgr.snodes mgr'.snodes := by
  unfold ServiceNodeMgr.processValidationBlock at h
  obtain ⟨snodes, hloop, h⟩ := except_bind_eq_ok h
  cases h
  refine foldlM_inv (SameShape mgr.snodes) _ (fun m item m' hitem hm hstep => ?_)
    (sameShape_refl _) hloop
  obtain ⟨s', hs', hstep⟩ := except_bind_eq_ok hstep
  cases hstep
  obtain ⟨hkey, hcol⟩ := revalidate_shape hs'
  intro k
  rw [Map.lookup_insert_eq_ite]
  split_ifs with hk
  · subst hk
    have hlook : mgr.snodes.lookup item.1 = some item.2 := AList.mem_lookup_iff.mpr hitem
    rw [hlook]
    simp [hkey, hcol]
  · exact hm k

theorem addSnRemove_effect {sn : ServiceNode} {checkValid staleCheck : Bool}
    (h : mgr.addSnRemove cr env sn checkValid staleCheck = .ok (mgr', ptr)) :
    StartEffect mgr.snodes mgr'.snodes ptr := by
  unfold ServiceNodeMgr.addSnRemove at h
  split_ifs at h
  · split at h
    · cases h
    · cases h
      exact .same rfl
    · cases h
      exact .removed sn
  · cases h
    exact .removed sn

theorem processRegistration_effect {sn : ServiceNode} {r : Bool}
    (h : mgr.processRegistration cr env sn = .ok (r, mgr', ptr)) :
    StartEffect mgr.snodes mgr'.snodes ptr := by
  unfold ServiceNodeMgr.processRegistration at h
  rcases hs : mgr.seenPacket (sn.getHash cr) with ⟨seen, mgr₁⟩
  have h₁ : mgr₁.snodes = mgr.snodes := by rw [← mgr.seenPacket_snodes _, hs]
  rw [hs] at h
  dsimp only at h
  split_ifs at h
  · cases h
    exact .same h₁
  · obtain ⟨⟨mgr₂, ptr₂⟩, h₂, h⟩ := except_bind_eq_ok h
    cases h
    rw [← h₁]
    exact addSnRemove_effect h₂

theorem processPing_effect {ping : ServiceNodePing} {r : Bool}
    (h : mgr.processPing cr env ping = .ok (r, mgr', ptr)) :
    StartEffect mgr.snodes mgr'.snodes ptr := by
  unfold ServiceNodeMgr.processPing at h
  rcases hs : mgr.seenPacket (ping.getHash cr) with ⟨seen, mgr₁⟩
  have h₁ : mgr₁.snodes = mgr.snodes := by rw [← mgr.seenPacket_snodes _, hs]
  have h₂ : (mgr₁.addPing ping).2.snodes = mgr.snodes := by rw [mgr₁.addPing_snodes, h₁]
  rw [hs] at h
  dsimp only at h
  -- the cases: seen before, a ping not newer than the last, a newer one
  split_ifs at h
  · cases h
    exact .same h₁
  · obtain ⟨valid, -, h⟩ := except_bind_eq_ok h
    split_ifs at h
    · cases h
      exact .same h₁
    · cases h
      exact .same h₂
  · obtain ⟨valid, -, h⟩ := except_bind_eq_ok h
    split_ifs at h
    · cases h
      exact .same h₁
    · obtain ⟨⟨mgr₃, ptr₃⟩, h₃, h⟩ := except_bind_eq_ok h
      cases h
      rw [← h₂]
      exact addSnRemove_effect h₃

/-- A handler that only calls `addSn`. -/
theorem addSnRemove_then_effect {sn : ServiceNode} {checkValid staleCheck : Bool} {r : Bool}
    (h : ((mgr.addSnRemove cr env sn checkValid staleCheck).bind fun x =>
      .ok (x.2.isSome, x.1, x.2)) = .ok (r, mgr', ptr)) :
    StartEffect mgr.snodes mgr'.snodes ptr := by
  obtain ⟨⟨mgr₂, ptr₂⟩, h₂, h⟩ := except_bind_eq_ok h
  cases h
  exact addSnRemove_effect h₂

/-- **What the first step of every call does to `snodes`.** -/
theorem Call.start_effect {c : Call} (h : c.start cr env mgr = .ok (mgr', ptr)) :
    StartEffect mgr.snodes mgr'.snodes ptr := by
  cases c with
  | processRegistration sn =>
    simp only [Call.start] at h
    obtain ⟨⟨r, mgr₂, ptr₂⟩, h, hr⟩ := except_map_eq_ok h
    cases hr
    exact processRegistration_effect h
  | processCachedRegistration sn =>
    simp only [Call.start] at h
    obtain ⟨⟨r, mgr₂, ptr₂⟩, h, hr⟩ := except_map_eq_ok h
    cases hr
    exact addSnRemove_then_effect h
  | processPing ping =>
    simp only [Call.start] at h
    obtain ⟨⟨r, mgr₂, ptr₂⟩, h, hr⟩ := except_map_eq_ok h
    cases hr
    exact processPing_effect h
  | registerSn sn =>
    simp only [Call.start] at h
    obtain ⟨⟨r, mgr₂, ptr₂⟩, h, hr⟩ := except_map_eq_ok h
    cases hr
    exact addSnRemove_then_effect h
  | removeSn pk =>
    simp only [Call.start] at h
    cases h
    unfold ServiceNodeMgr.removeSn
    split_ifs
    · exact .erase pk
    · exact .same rfl
  | processValidationBlock block connected blockNumber =>
    simp only [Call.start] at h
    obtain ⟨mgr₂, hv, hr⟩ := except_map_eq_ok h
    cases hr
    exact .shaped (processValidationBlock_shape hv)
  | processXBridge raw =>
    simp only [Call.start] at h
    obtain ⟨⟨r, mgr₂⟩, h, hr⟩ := except_map_eq_ok h
    cases hr
    unfold ServiceNodeMgr.processXBridgeMessage ServiceNodeMgr.processXBridge at h
    split_ifs at h
    · cases h
      exact .same rfl
    · rcases hs : mgr.seenPacket (cr.hash256 raw) with ⟨seen, mgr₁⟩
      have h₁ : mgr₁.snodes = mgr.snodes := by rw [← mgr.seenPacket_snodes _, hs]
      rw [hs] at h
      dsimp only at h
      split_ifs at h
      · cases h
        exact .same h₁
      · split at h <;> cases h
        all_goals exact .same h₁
  | reset =>
    simp only [Call.start] at h
    cases h
    exact .reset

end Effects

/-! ## Runs -/

section Runs

variable {cr} {old m : Map CPubKey ServiceNode} {ptr : Option ServiceNode}

theorem Keyed.sameShape (hk : Keyed old) (hs : SameShape old m) : Keyed m := by
  intro k s h
  have hk' := hs k
  rw [h, Option.map_some] at hk'
  obtain ⟨s₀, h₀, hs₀⟩ := Option.map_eq_some_iff.mp hk'.symm
  have hkey : s₀.snodePubKey = s.snodePubKey := congrArg Prod.fst hs₀
  exact hkey ▸ hk k s₀ h₀

theorem exclusive_sameShape (hx : Map.Exclusive ServiceNode.collateral old)
    (hs : SameShape old m) : Map.Exclusive ServiceNode.collateral m :=
  hx.congr fun k => by
    have h := congrArg (Option.map Prod.snd) (hs k)
    rw [Option.map_map, Option.map_map] at h
    exact h

theorem StartEffect.keyed (he : StartEffect old m ptr) (hk : Keyed old) : Keyed m := by
  cases he with
  | shaped hs => exact hk.sameShape hs
  | erase k => exact hk.erase k
  | reset => exact keyed_empty
  | removed sn => exact hk.withoutCollateral sn

/-- The first step of a call and then its insertion keep the invariant. -/
theorem StartEffect.keyed_exclusive (he : StartEffect old m ptr) (hk : Keyed old)
    (hx : Map.Exclusive ServiceNode.collateral old) :
    Keyed (ptr.elim m fun sn => m.insert sn.snodePubKey sn) ∧
      Map.Exclusive ServiceNode.collateral (ptr.elim m fun sn => m.insert sn.snodePubKey sn) := by
  cases he with
  | shaped hs => exact ⟨hk.sameShape hs, exclusive_sameShape hx hs⟩
  | erase k => exact ⟨hk.erase k, hx.erase k⟩
  | reset => exact ⟨keyed_empty, Map.exclusive_empty⟩
  | removed sn => exact addSn_keyed_exclusive hk hx sn

/-- **One handler at a time, no two servicenodes share a collateral outpoint**, and each is stored
under its own key. -/
theorem reachable_keyed_exclusive {mgr : ServiceNodeMgr} (h : Reachable cr mgr) :
    Keyed mgr.snodes ∧ Map.Exclusive ServiceNode.collateral mgr.snodes := by
  induction h with
  | refl => exact ⟨keyed_empty, Map.exclusive_empty⟩
  | tail _ hstep ih =>
    obtain ⟨env, c, hrun⟩ := hstep
    obtain ⟨⟨mgr₁, ptr⟩, hstart, rfl⟩ := except_map_eq_ok hrun
    have hsnodes : (ptr.elim mgr₁ mgr₁.insertSn).snodes =
        ptr.elim mgr₁.snodes fun sn => mgr₁.snodes.insert sn.snodePubKey sn := by
      cases ptr <;> rfl
    rw [hsnodes]
    exact (Call.start_effect hstart).keyed_exclusive ih.1 ih.2

/-- In every interleaving, each servicenode is stored under its own key. -/
theorem Sys.reachable_keyed {s : Sys} (h : Sys.Reachable cr s) : Keyed s.mgr.snodes := by
  induction h with
  | refl => exact keyed_empty
  | tail _ hstep ih =>
    cases hstep with
    | start env c hstart => exact (Call.start_effect hstart).keyed ih
    | insert _ => exact ih.insertSn _

end Runs

/-! ## Two registrations at once -/

section Concurrent

variable {cr env}

theorem withoutCollateral_empty (sn : ServiceNode) : withoutCollateral ∅ sn = ∅ := by
  unfold withoutCollateral
  -- with no other servicenode there is no owner, so every iteration keeps the list
  suffices h : ∀ (l : List OutPoint) (m : Map CPubKey ServiceNode), eraseOwners ∅ l m = m from
    h sn.collateral ∅
  intro l
  induction l with
  | nil => exact fun _ => rfl
  | cons u us ih => exact ih

/-- A new registration packet of a valid servicenode runs its first section. -/
theorem start_processRegistration {mgr : ServiceNodeMgr} {sn : ServiceNode}
    (hnew : sn.getHash cr ∉ mgr.seenPackets) (hsize : mgr.seenPackets.length ≤ 350000)
    (hv : sn.isValid cr env true = .ok true) :
    Call.start cr env mgr (.processRegistration sn) =
      .ok ({ mgr with
          seenPackets := sn.getHash cr :: mgr.seenPackets
          snodes := withoutCollateral mgr.snodes sn }, some sn) := by
  have hsize' : ¬ 350000 < mgr.seenPackets.length := not_lt.mpr hsize
  simp only [Call.start, ServiceNodeMgr.processRegistration, ServiceNodeMgr.seenPacket, hnew,
    hsize', if_false, ServiceNodeMgr.addSnRemove, hv, ServiceNodeMgr.removeSnWithCollateral]
  rfl

theorem concurrent_registrations_share_collateral {a b : ServiceNode} {u : OutPoint}
    (ha : a.isValid cr env true = .ok true) (hb : b.isValid cr env true = .ok true)
    (hkey : a.snodePubKey ≠ b.snodePubKey) (hhash : b.getHash cr ≠ a.getHash cr)
    (hua : u ∈ a.collateral) (hub : u ∈ b.collateral) :
    ∃ s, Sys.Reachable cr s ∧ ¬ Map.Exclusive ServiceNode.collateral s.mgr.snodes := by
  -- both first sections find no other servicenode; then both insert
  have h₁ : Sys.Step cr ⟨{}, []⟩ ⟨{ seenPackets := [a.getHash cr] }, [a]⟩ := by
    have hnew : a.getHash cr ∉ ({} : ServiceNodeMgr).seenPackets := List.not_mem_nil
    have hstart := start_processRegistration hnew (Nat.zero_le _) ha
    rw [withoutCollateral_empty] at hstart
    exact @Sys.Step.start cr ⟨{}, []⟩ _ _ env _ hstart
  have h₂ : Sys.Step cr ⟨{ seenPackets := [a.getHash cr] }, [a]⟩
      ⟨{ seenPackets := [b.getHash cr, a.getHash cr] }, [b, a]⟩ := by
    have hnew : b.getHash cr ∉ ({ seenPackets := [a.getHash cr] } : ServiceNodeMgr).seenPackets := by
      simpa using hhash
    have hstart := start_processRegistration hnew (by simp) hb
    rw [withoutCollateral_empty] at hstart
    exact @Sys.Step.start cr ⟨{ seenPackets := [a.getHash cr] }, [a]⟩ _ _ env _ hstart
  let m : ServiceNodeMgr := { seenPackets := [b.getHash cr, a.getHash cr] }
  have h₃ : Sys.Step cr ⟨m, [b, a]⟩ ⟨m.insertSn a, [b]⟩ :=
    @Sys.Step.insert cr ⟨m, [b, a]⟩ [b] [] a rfl
  have h₄ : Sys.Step cr ⟨m.insertSn a, [b]⟩ ⟨(m.insertSn a).insertSn b, []⟩ :=
    @Sys.Step.insert cr ⟨m.insertSn a, [b]⟩ [] [] b rfl
  refine ⟨_, .tail (.tail (.tail (.single h₁) h₂) h₃) h₄, ?_⟩
  have hA : Map.Holds ServiceNode.collateral ((m.insertSn a).insertSn b).snodes a.snodePubKey u :=
    ⟨a, by simp [ServiceNodeMgr.insertSn, hkey], hua⟩
  have hB : Map.Holds ServiceNode.collateral ((m.insertSn a).insertSn b).snodes b.snodePubKey u :=
    ⟨b, by simp [ServiceNodeMgr.insertSn], hub⟩
  exact Map.not_exclusive hA hB hkey

/-- Two SPV servicenodes with keys `[2]` and `[3]`, both with output 1 of transaction `0xA1` as
collateral, paying to the key hash their signature recovers: each is valid, and registered at
once they end up side by side. -/
theorem registrations_share_collateral_sample :
    ∃ s, Sys.Reachable Crypto.sample s ∧ ¬ Map.Exclusive ServiceNode.collateral s.mgr.snodes :=
  @concurrent_registrations_share_collateral Crypto.sample
    (sampleEnv (payToPubkeyHash (7 :: List.replicate 19 0))) sampleSnode
    { sampleSnode with snodePubKey := ⟨[3]⟩ } ⟨0xA1, 1⟩ (by decide +kernel) (by decide +kernel)
    (by decide) (by decide +kernel) (by decide) (by decide)

end Concurrent

/-! ## The legacy xbridge packet on the XBRIDGE message -/

section XBridge

variable {cr} {mgr : ServiceNodeMgr} {raw : Bytes}

theorem processXBridgeMessage_reads_past_end (hguard : 20 + 8 ≤ raw.length)
    (hshort : raw.length < 141) (hnew : cr.hash256 raw ∉ mgr.seenPackets) :
    ∃ i, raw.length ≤ i ∧ mgr.processXBridgeMessage cr raw = .error (.outOfBounds i) := by
  cases hc : LegacyXBridgePacket.CopyFrom raw with
  | ok p => exact absurd (CopyFrom_ok_iff.mp ⟨p, hc⟩) (Nat.not_le.mpr hshort)
  | error e =>
    obtain ⟨i, hi, rfl⟩ := readsPast_CopyFrom e hc
    refine ⟨i, hi, ?_⟩
    have hg : ¬ raw.length < 20 + 8 := Nat.not_lt.mpr hguard
    simp only [ServiceNodeMgr.processXBridgeMessage, hg, if_false,
      ServiceNodeMgr.processXBridge, ServiceNodeMgr.seenPacket, hnew, hc]
    rfl

theorem processXBridge_28_byte_packet :
    ∃ i, (List.replicate 28 (0 : UInt8)).length ≤ i ∧
      ({} : ServiceNodeMgr).processXBridgeMessage Crypto.sample (List.replicate 28 0) =
        .error (.outOfBounds i) :=
  processXBridgeMessage_reads_past_end (by simp) (by simp) List.not_mem_nil

end XBridge

end Blocknet.Sn

import Blocknet.XRouter.Server
import Blocknet.Lib.Steps
import Blocknet.Lib.Pool
import Blocknet.Lib.Map

/-!
# The client's query records, and the wait of a call

Model of `App::QueryMgr` (`xrouter/xrouterapp.h`) and of what `App::xrouterCall`
(`xrouter/xrouterapp.cpp`) does with it once it has chosen the nodes to ask.

* `QueryMgr` holds, by query id, the wait of each node asked (`queriesLocks`: a mutex and a
  condition variable, `QueryCondition`) and the replies that came in (`queries`). The methods are
  modelled by what they do to the two maps, `operator[]` included: `addReply` for a node with no
  wait, `reply`, `allReplies` and `allLocks` insert default entries.
* Every handler stores a reply by `addReply` and then `purge(id, node)` (`storeReply`):
  `processReply` and `processConfigReply` when the packet is expected and signed, and the thread
  of a node asked at its external address (`urlReply`), which stores a failed call unchecked.
* Each method holds the manager's mutex and is one step (`QueryOp`, `QueryMgr.run`); the calls of
  other threads come between any two. `addReply` writes the reply after it has let the mutex go,
  under the node's own one; the model takes the write in the same step as its check. The
  handlers are runs of such steps (`beside_processReply`, `beside_urlReply`, ...).
* The call's thread asks its nodes one after another (`sendStep`), reads the nodes still awaited
  with `allLocks(uuid)` (`startWait`) and polls them: a turn of the loop counts a node that has a
  reply and drops it from `review` (`Wait.check`, `waitStep`); a pass of its `for` is a run of
  such turns (`steps_poll`). The loop stops when the count reaches `confs`, the number of nodes
  asked, or at the timeout.

Results:
* `hasReply_run`: no method removes a reply.
* `xrouterCall_wait_counts`: whatever other threads do meanwhile, the count is the number of
  distinct nodes of the review list that were dropped from it, each with a reply.
* `xrouterCall_misses_early_reply`: a node whose reply is stored, and its wait purged, before the
  call reads `allLocks(uuid)` is not in the review list. The count then stays below the number of
  nodes asked, and the loop only ends at the timeout.
* `xrouterCall_keeps_first_reply`: with the handlers' stores as steps (`callStep`), a node's first
  reply under the call's id is never replaced, also by the unchecked store of a failed call:
  every store purges the node's wait, and `addReply` stores only where there is one.
-/

namespace Blocknet.XRouter

open Blocknet.Lib

/-- `QueryMgr::QueryCondition`, the mutex and condition variable of a node's wait: `addQuery` makes
both (`ready`), `operator[]` default-constructs the pair of null pointers (`null`). -/
inductive QueryCondition
  | null
  | ready
  deriving DecidableEq, Repr

/-- `App::QueryMgr`: by query id, the waits of the nodes asked and the replies received. -/
structure QueryMgr where
  queriesLocks : Map String (Map String QueryCondition) := ∅
  queries : Map String (Map String String) := ∅

namespace QueryMgr

variable (m : QueryMgr)

/-- `queriesLocks[id]` where the code has checked `queriesLocks.count(id)`: no waits otherwise. -/
def locksOf (id : String) : Map String QueryCondition := (m.queriesLocks.lookup id).getD ∅

/-- `queries[id]` where the code has checked `queries.count(id)`: no replies otherwise. -/
def repliesOf (id : String) : Map String String := (m.queries.lookup id).getD ∅

/-- `addQuery(id, node)`: the query's replies are created empty if missing, and the node gets a
fresh wait. -/
def addQuery (id node : String) : QueryMgr :=
  if id.isEmpty || node.isEmpty then m
  else
    { queries := if (m.queries.lookup id).isSome then m.queries else m.queries.insert id ∅
      queriesLocks := m.queriesLocks.insert id ((m.locksOf id).insert node .ready) }

/-- `addReply(id, node, reply)`, with what it returns, `queries.count(id)`. The reply is stored
only where the node's wait is a real pair; `queriesLocks[id][node]` inserts a null one for a node
with no wait. -/
def addReply (id node reply : String) : QueryMgr × Nat :=
  if id.isEmpty || node.isEmpty then (m, 0)
  else
    match m.queries.lookup id, m.queriesLocks.lookup id with
    | some rs, some locks =>
      match locks.lookup node with
      | some .ready => ({ m with queries := m.queries.insert id (rs.insert node reply) }, 1)
      | some .null => (m, 0)
      | none => ({ m with queriesLocks := m.queriesLocks.insert id (locks.insert node .null) }, 0)
    | _, _ => (m, 0)

/-- `reply(id, node, reply)`: `queries.count(id)` and, when it is not zero, `queries[id][node]`,
which `operator[]` makes the empty string for a node that has not replied. -/
def reply (id node : String) : QueryMgr × Nat × Option String :=
  match m.queries.lookup id with
  | none => (m, 0, none)
  | some rs =>
    match rs.lookup node with
    | some r => (m, 1, some r)
    | none => ({ m with queries := m.queries.insert id (rs.insert node "") }, 1, some "")

/-- `allReplies(id)`: `queries[id]`, inserted empty if missing. -/
def allReplies (id : String) : QueryMgr × Map String String :=
  match m.queries.lookup id with
  | some rs => (m, rs)
  | none => ({ m with queries := m.queries.insert id ∅ }, ∅)

/-- `allLocks(id)`: `queriesLocks[id]`, inserted empty if missing. -/
def allLocks (id : String) : QueryMgr × Map String QueryCondition :=
  match m.queriesLocks.lookup id with
  | some locks => (m, locks)
  | none => ({ m with queriesLocks := m.queriesLocks.insert id ∅ }, ∅)

/-- `purge(id)`: the waits of the query go; its replies stay. -/
def purge (id : String) : QueryMgr := { m with queriesLocks := m.queriesLocks.erase id }

/-- `purge(id, node)`: the node's wait goes. -/
def purgeNode (id node : String) : QueryMgr :=
  { m with queriesLocks := m.queriesLocks.modify id (·.erase node) }

/-- `hasQuery(id, node)`: the node has a wait, real or null. -/
def hasQuery (id node : String) : Bool := ((m.locksOf id).lookup node).isSome

/-- `hasNodeQuery(node)`: some query has a wait of the node. -/
def hasNodeQuery (node : String) : Bool :=
  m.queriesLocks.entries.any fun e => (e.2.lookup node).isSome

/-- `hasReply(id, node)`. -/
def hasReply (id node : String) : Bool := ((m.repliesOf id).lookup node).isSome

/-- The node's wait under the query is a real pair, made by `addQuery`. -/
def Ready (id node : String) : Prop := (m.locksOf id).lookup node = some .ready

/-! ## The handlers -/

/-- What the reply handlers read of the records. -/
def client (verifies : String → XRouterPacket → Bool) : Client :=
  ⟨m.hasNodeQuery, m.hasQuery, m.hasReply, verifies⟩

/-- `queryMgr.addReply(uuid, nodeAddr, reply); queryMgr.purge(uuid, nodeAddr);`, the way every
handler stores a reply. -/
def storeReply (id node reply : String) : QueryMgr := (m.addReply id node reply).1.purgeNode id node

/-- `App::processReply` with what it does to the records: the reply it reads is stored. -/
def processReply (verifies : String → XRouterPacket → Bool) (p : XRouterPacket) (nodeAddr : String) :
    QueryMgr :=
  match Blocknet.XRouter.processReply (m.client verifies) p nodeAddr with
  | .ok (some r) => m.storeReply p.suuid nodeAddr r
  | _ => m

/-- `App::processConfigReply` with what it does to the records. Whether the config in the reply
reads (`configOk`: the JSON, `settings->init(config)`) only changes the text stored. -/
def processConfigReply (verifies : String → XRouterPacket → Bool) (configOk : String → Bool)
    (p : XRouterPacket) (nodeAddr : String) : QueryMgr :=
  match Blocknet.XRouter.processConfigReply (m.client verifies) p nodeAddr with
  | .ok (some r) =>
    m.storeReply p.suuid nodeAddr
      (if configOk r then r else "Failed to parse config from XRouter node " ++ nodeAddr ++ "\n" ++ r)
  | _ => m

end QueryMgr

/-- What `CallXRouterUrl` gives the thread of a node asked at its external address, as the text
the thread stores. -/
inductive UrlReply
  /-- The call threw: the `{error, code, reply}` object of the catch. -/
  | failed (stored : String)
  /-- The call returned: the result, or the `{error, code, reply}` object of a bad signature. -/
  | returned (stored : String)

/-- The thread of `xrouterCall` for a node asked at its external address: a failed call is stored
at once; a returned one only when the node is awaited and has no reply yet. -/
def QueryMgr.urlReply (m : QueryMgr) (uuid addr : String) : UrlReply → QueryMgr
  | .failed r => m.storeReply uuid addr r
  | .returned r => if !m.hasQuery uuid addr || m.hasReply uuid addr then m else m.storeReply uuid addr r

/-! ## Steps of the records -/

/-- A call of a method of `QueryMgr` that changes its records. -/
inductive QueryOp
  | addQuery (id node : String)
  | addReply (id node reply : String)
  | reply (id node : String)
  | allReplies (id : String)
  | allLocks (id : String)
  | purge (id : String)
  | purgeNode (id node : String)

/-- The records after a call. -/
def QueryMgr.run (m : QueryMgr) : QueryOp → QueryMgr
  | .addQuery id node => m.addQuery id node
  | .addReply id node r => (m.addReply id node r).1
  | .reply id node => (m.reply id node).1
  | .allReplies id => (m.allReplies id).1
  | .allLocks id => (m.allLocks id).1
  | .purge id => m.purge id
  | .purgeNode id node => m.purgeNode id node

/-- The query id a call names. -/
def QueryOp.id : QueryOp → String
  | .addQuery id _ | .addReply id _ _ | .reply id _ | .allReplies id | .allLocks id | .purge id
  | .purgeNode id _ => id

/-- What other threads may do while a call with query id `uuid` runs: store or purge a reply under
any id (the handlers), and anything under another id (other calls, each with its own uuid). -/
def QueryOp.Respects (uuid : String) : QueryOp → Prop
  | .addQuery id _ => id ≠ uuid
  | .addReply .. => True
  | .reply id _ => id ≠ uuid
  | .allReplies id => id ≠ uuid
  | .allLocks id => id ≠ uuid
  | .purge id => id ≠ uuid
  | .purgeNode .. => True

/-! ## What each call does to the records -/

namespace QueryMgr

variable {m : QueryMgr} {id id' node n r : String}

/-! The two updates the methods make, a query's replies or its waits set anew. -/

theorem repliesOf_setReplies (X : Map String String) :
    ({ m with queries := m.queries.insert id X } : QueryMgr).repliesOf id' =
      if id' = id then X else m.repliesOf id' := by
  simp only [repliesOf, Map.lookup_insert_eq_ite]
  split_ifs <;> rfl

theorem hasReply_setReplies (X : Map String String) :
    ({ m with queries := m.queries.insert id X } : QueryMgr).hasReply id' n =
      if id' = id then (X.lookup n).isSome else m.hasReply id' n := by
  rw [hasReply, repliesOf_setReplies]
  split_ifs <;> rfl

theorem ready_setLocks (X : Map String QueryCondition) :
    ({ m with queriesLocks := m.queriesLocks.insert id X } : QueryMgr).Ready id' n ↔
      if id' = id then X.lookup n = some .ready else m.Ready id' n := by
  simp only [Ready, locksOf, Map.lookup_insert_eq_ite]
  split_ifs <;> rfl

@[simp] theorem repliesOf_setLocks (L : Map String (Map String QueryCondition)) :
    ({ m with queriesLocks := L } : QueryMgr).repliesOf id' = m.repliesOf id' := rfl

@[simp] theorem hasReply_setLocks (L : Map String (Map String QueryCondition)) :
    ({ m with queriesLocks := L } : QueryMgr).hasReply id' n = m.hasReply id' n := rfl

@[simp] theorem ready_setReplies (Q : Map String (Map String String)) :
    ({ m with queries := Q } : QueryMgr).Ready id' n ↔ m.Ready id' n := Iff.rfl

/-! Each method, by what it can do. -/

theorem addQuery_cases (m : QueryMgr) (id node : String) :
    m.addQuery id node = m ∨
      (m.addQuery id node).repliesOf = m.repliesOf ∧
        (m.addQuery id node).queriesLocks = m.queriesLocks.insert id ((m.locksOf id).insert node .ready) := by
  unfold addQuery
  split_ifs with he hq
  · exact .inl rfl
  · exact .inr ⟨rfl, rfl⟩
  · refine .inr ⟨?_, rfl⟩
    funext id'
    -- the empty replies inserted under a new id are the replies it had
    simp only [repliesOf, Map.lookup_insert_eq_ite]
    split_ifs with hid
    · subst hid
      simp [Option.not_isSome_iff_eq_none.mp hq]
    · rfl

theorem addReply_cases (m : QueryMgr) (id node r : String) :
    (∃ rs, m.queries.lookup id = some rs ∧ m.Ready id node ∧
      (m.addReply id node r).1 = { m with queries := m.queries.insert id (rs.insert node r) }) ∨
    (∃ locks, m.queriesLocks.lookup id = some locks ∧ locks.lookup node = none ∧
      (m.addReply id node r).1 = { m with queriesLocks := m.queriesLocks.insert id (locks.insert node .null) }) ∨
    (m.addReply id node r).1 = m := by
  unfold addReply
  split_ifs
  · exact .inr (.inr rfl)
  · split
    · rename_i rs locks hq hl
      split
      · rename_i hn
        exact .inl ⟨rs, hq, by simp [Ready, locksOf, hl, hn], rfl⟩
      · exact .inr (.inr rfl)
      · rename_i hn
        exact .inr (.inl ⟨locks, hl, hn, rfl⟩)
    · exact .inr (.inr rfl)

theorem reply_cases (m : QueryMgr) (id node : String) :
    (∃ rs, m.queries.lookup id = some rs ∧
      (m.reply id node).1 = { m with queries := m.queries.insert id (rs.insert node "") }) ∨
    (m.reply id node).1 = m := by
  unfold reply
  split
  · exact .inr rfl
  · rename_i rs hq
    split
    · exact .inr rfl
    · exact .inl ⟨rs, hq, rfl⟩

/-! What the methods do to replies and to real waits. -/

@[simp] theorem repliesOf_addQuery : (m.addQuery id node).repliesOf = m.repliesOf := by
  rcases addQuery_cases m id node with h | ⟨h, -⟩ <;> rw [h]

@[simp] theorem hasReply_addQuery : (m.addQuery id node).hasReply id' n = m.hasReply id' n := by
  simp only [hasReply, repliesOf_addQuery]

theorem ready_addQuery (h : (m.addQuery id node).Ready id' n) :
    m.Ready id' n ∨ (id' = id ∧ n = node) := by
  rcases addQuery_cases m id node with he | ⟨-, he⟩
  · exact .inl (he ▸ h)
  · simp only [Ready, locksOf, he, Map.lookup_insert_eq_ite] at h
    split_ifs at h with hid
    · subst hid
      rw [Option.getD_some, Map.lookup_insert_eq_ite] at h
      split_ifs at h with hn
      · exact .inr ⟨rfl, hn⟩
      · exact .inl h
    · exact .inl h

@[simp] theorem ready_addReply : (m.addReply id node r).1.Ready id' n ↔ m.Ready id' n := by
  rcases addReply_cases m id node r with ⟨rs, -, -, he⟩ | ⟨locks, hl, hn, he⟩ | he
  · rw [he, ready_setReplies]
  · -- a null wait, for a node that had none
    rw [he, ready_setLocks]
    split_ifs with hid
    · subst hid
      simp only [Ready, locksOf, hl, Option.getD_some, Map.lookup_insert_eq_ite]
      split_ifs with hnode
      · subst hnode
        simp [hn]
      · rfl
    · rfl
  · rw [he]

/-- A reply changes only where the node had a real wait. -/
theorem lookup_addReply :
    ((m.addReply id node r).1.repliesOf id').lookup n = (m.repliesOf id').lookup n ∨
      (id' = id ∧ n = node ∧ m.Ready id node) := by
  rcases addReply_cases m id node r with ⟨rs, hq, hr, he⟩ | ⟨locks, -, -, he⟩ | he
  · rw [he, repliesOf_setReplies]
    split_ifs with hid
    · subst hid
      rw [Map.lookup_insert_eq_ite]
      split_ifs with hn
      · exact .inr ⟨rfl, hn, hr⟩
      · exact .inl (by simp [repliesOf, hq])
    · exact .inl rfl
  · rw [he]
    exact .inl rfl
  · rw [he]
    exact .inl rfl

theorem hasReply_addReply (h : m.hasReply id' n = true) :
    (m.addReply id node r).1.hasReply id' n = true := by
  rcases addReply_cases m id node r with ⟨rs, hq, -, he⟩ | ⟨locks, -, -, he⟩ | he
  · rw [he, hasReply_setReplies]
    split_ifs with hid
    · subst hid
      simp only [hasReply, repliesOf, hq, Option.getD_some] at h
      rw [Map.lookup_insert_eq_ite]
      split_ifs <;> simp [h]
    · exact h
  · rw [he, hasReply_setLocks]
    exact h
  · rw [he]
    exact h

theorem hasReply_of_addReply (h : (m.addReply id node r).1.hasReply id' n = true) :
    m.hasReply id' n = true ∨ (id' = id ∧ n = node ∧ m.Ready id node) := by
  rcases (lookup_addReply : ((m.addReply id node r).1.repliesOf id').lookup n = _ ∨ _) with he | he
  · rw [hasReply, he] at h
    exact .inl h
  · exact .inr he

/-- `reply` changes only the node it reads. -/
theorem lookup_reply :
    ((m.reply id node).1.repliesOf id').lookup n = (m.repliesOf id').lookup n ∨ (id' = id ∧ n = node) := by
  rcases reply_cases m id node with ⟨rs, hq, he⟩ | he
  · rw [he, repliesOf_setReplies]
    split_ifs with hid
    · subst hid
      rw [Map.lookup_insert_eq_ite]
      split_ifs with hn
      · exact .inr ⟨rfl, hn⟩
      · exact .inl (by simp [repliesOf, hq])
    · exact .inl rfl
  · rw [he]
    exact .inl rfl

theorem hasReply_reply (h : m.hasReply id' n = true) : (m.reply id node).1.hasReply id' n = true := by
  rcases reply_cases m id node with ⟨rs, hq, he⟩ | he
  · rw [he, hasReply_setReplies]
    split_ifs with hid
    · subst hid
      simp only [hasReply, repliesOf, hq, Option.getD_some] at h
      rw [Map.lookup_insert_eq_ite]
      split_ifs <;> simp [h]
    · exact h
  · rw [he]
    exact h

theorem hasReply_of_reply (h : (m.reply id node).1.hasReply id' n = true) :
    m.hasReply id' n = true ∨ (id' = id ∧ n = node) := by
  rcases (lookup_reply : ((m.reply id node).1.repliesOf id').lookup n = _ ∨ _) with he | he
  · rw [hasReply, he] at h
    exact .inl h
  · exact .inr he

@[simp] theorem ready_reply : (m.reply id node).1.Ready id' n ↔ m.Ready id' n := by
  rcases reply_cases m id node with ⟨rs, -, he⟩ | he <;> rw [he]
  exact Iff.rfl

@[simp] theorem repliesOf_allReplies : (m.allReplies id).1.repliesOf id' = m.repliesOf id' := by
  unfold allReplies
  split
  · rfl
  · rename_i hq
    rw [repliesOf_setReplies]
    split_ifs with hid
    · subst hid
      simp [repliesOf, hq]
    · rfl

@[simp] theorem hasReply_allReplies : (m.allReplies id).1.hasReply id' n = m.hasReply id' n := by
  simp only [hasReply, repliesOf_allReplies]

@[simp] theorem ready_allReplies : (m.allReplies id).1.Ready id' n ↔ m.Ready id' n := by
  unfold allReplies
  split <;> exact Iff.rfl

@[simp] theorem repliesOf_allLocks : (m.allLocks id).1.repliesOf id' = m.repliesOf id' := by
  unfold allLocks
  split <;> rfl

@[simp] theorem hasReply_allLocks : (m.allLocks id).1.hasReply id' n = m.hasReply id' n := by
  simp only [hasReply, repliesOf_allLocks]

@[simp] theorem locksOf_allLocks : (m.allLocks id).1.locksOf id' = m.locksOf id' := by
  unfold allLocks
  split
  · rfl
  · rename_i hl
    simp only [locksOf, Map.lookup_insert_eq_ite]
    split_ifs with hid
    · subst hid
      simp [hl]
    · rfl

@[simp] theorem ready_allLocks : (m.allLocks id).1.Ready id' n ↔ m.Ready id' n := by
  simp only [Ready, locksOf_allLocks]

/-- `allLocks` returns the waits of the query. -/
theorem allLocks_snd : (m.allLocks id).2 = m.locksOf id := by
  unfold allLocks locksOf
  split <;> simp_all

@[simp] theorem repliesOf_purge : (m.purge id).repliesOf id' = m.repliesOf id' := rfl

@[simp] theorem hasReply_purge : (m.purge id).hasReply id' n = m.hasReply id' n := rfl

theorem ready_purge (h : (m.purge id).Ready id' n) : m.Ready id' n := by
  simp only [Ready, locksOf, purge, Map.lookup_erase_eq_ite] at h
  split_ifs at h
  · simp at h
  · exact h

@[simp] theorem repliesOf_purgeNode : (m.purgeNode id node).repliesOf id' = m.repliesOf id' := rfl

@[simp] theorem hasReply_purgeNode : (m.purgeNode id node).hasReply id' n = m.hasReply id' n := rfl

/-- `purge(id, node)` takes the node's wait, and only it. -/
theorem ready_purgeNode_iff :
    (m.purgeNode id node).Ready id' n ↔ m.Ready id' n ∧ ¬(id' = id ∧ n = node) := by
  simp only [Ready, locksOf, purgeNode, Map.lookup_modify]
  split_ifs with hid
  · subst hid
    cases hl : m.queriesLocks.lookup id' with
    | none => simp
    | some locks =>
      simp only [Option.map_some, Option.getD_some, Map.lookup_erase_eq_ite]
      split_ifs with hn <;> simp [hn]
  · simp [hid]

theorem ready_purgeNode (h : (m.purgeNode id node).Ready id' n) : m.Ready id' n :=
  (ready_purgeNode_iff.mp h).1

/-- No call removes a reply: `queries` only grows. -/
theorem hasReply_run {op : QueryOp} (h : m.hasReply id n = true) : (m.run op).hasReply id n = true := by
  cases op with
  | addQuery => simpa [run] using h
  | addReply => exact hasReply_addReply h
  | reply => exact hasReply_reply h
  | allReplies => simpa [run] using h
  | allLocks => simpa [run] using h
  | purge => simpa [run] using h
  | purgeNode => simpa [run] using h

/-- Only `addQuery` makes a real wait. -/
theorem ready_of_run {op : QueryOp} (hop : ∀ node, op ≠ .addQuery id node) (h : (m.run op).Ready id n) :
    m.Ready id n := by
  cases op with
  | addQuery id₀ node =>
    rcases ready_addQuery h with h | ⟨rfl, -⟩
    · exact h
    · exact absurd rfl (hop node)
  | addReply => exact ready_addReply.mp h
  | reply => simpa [run] using h
  | allReplies => simpa [run] using h
  | allLocks => simpa [run] using h
  | purge => exact ready_purge h
  | purgeNode => exact ready_purgeNode h

section Respects

variable {uuid : String} {op : QueryOp}

theorem Respects.ne_addQuery (hop : op.Respects uuid) (node : String) : op ≠ .addQuery uuid node := by
  rintro rfl
  exact hop rfl

/-- Under the call's id, other threads add a reply only where the node has a real wait. -/
theorem hasReply_of_run (hop : op.Respects uuid) (h : (m.run op).hasReply uuid n = true) :
    m.hasReply uuid n = true ∨ m.Ready uuid n := by
  cases op with
  | addQuery => exact .inl (by simpa [run] using h)
  | addReply id node r =>
    rcases hasReply_of_addReply h with h | ⟨rfl, rfl, hr⟩
    · exact .inl h
    · exact .inr hr
  | reply id node =>
    rcases hasReply_of_reply h with h | ⟨rfl, -⟩
    · exact .inl h
    · exact absurd rfl hop
  | allReplies => exact .inl (by simpa [run] using h)
  | allLocks => exact .inl (by simpa [run] using h)
  | purge => exact .inl (by simpa [run] using h)
  | purgeNode => exact .inl (by simpa [run] using h)

end Respects

/-! ## The handlers as runs of calls -/

section Handlers

variable {uuid : String}

/-- A run of calls that other threads may make while the call with id `uuid` runs. -/
abbrev Beside (uuid : String) : QueryMgr → QueryMgr → Prop :=
  Steps (fun m (op : {op : QueryOp // op.Respects uuid}) => m.run op.1)

theorem beside_storeReply : Beside uuid m (m.storeReply id node r) :=
  Steps.trans (Steps.single m (⟨.addReply id node r, trivial⟩ : {op : QueryOp // op.Respects uuid}))
    (Steps.single (m.run (.addReply id node r))
      (⟨.purgeNode id node, trivial⟩ : {op : QueryOp // op.Respects uuid}))

theorem beside_processReply (verifies : String → XRouterPacket → Bool) (p : XRouterPacket)
    (nodeAddr : String) : Beside uuid m (m.processReply verifies p nodeAddr) := by
  unfold processReply
  split
  · exact beside_storeReply
  · exact Steps.refl m

theorem beside_processConfigReply (verifies : String → XRouterPacket → Bool)
    (configOk : String → Bool) (p : XRouterPacket) (nodeAddr : String) :
    Beside uuid m (m.processConfigReply verifies configOk p nodeAddr) := by
  unfold processConfigReply
  split
  · exact beside_storeReply
  · exact Steps.refl m

theorem beside_urlReply (addr : String) (u : UrlReply) : Beside uuid m (m.urlReply uuid addr u) := by
  cases u with
  | failed => exact beside_storeReply
  | returned =>
    unfold urlReply
    split_ifs
    · exact Steps.refl m
    · exact beside_storeReply

end Handlers

end QueryMgr

/-! ## The call -/

/-- The call's thread while it asks its nodes: the records, and the nodes asked so far. -/
structure Sending where
  mgr : QueryMgr
  sent : List String

/-- A step while the call asks its nodes: its own `queryMgr.addQuery(uuid, addr)`, or a call of
another thread. -/
def sendStep (uuid : String) (ok : QueryOp → Prop) (s : Sending) : String ⊕ {op // ok op} → Sending
  | .inl addr => ⟨s.mgr.addQuery uuid addr, s.sent ++ [addr]⟩
  | .inr op => ⟨s.mgr.run op.1, s.sent⟩

/-- The wait loop: the nodes still awaited (`review`) and `confirmation_count`. -/
structure Wait where
  review : List String
  count : Nat

/-- `if (queryMgr.hasReply(uuid, review[i])) { ++confirmation_count; review.erase(review.begin()+i); }` -/
def Wait.check (m : QueryMgr) (uuid : String) (w : Wait) (i : Nat) : Wait :=
  match w.review[i]? with
  | some n => if m.hasReply uuid n then ⟨w.review.eraseIdx i, w.count + 1⟩ else w
  | none => w

/-- One pass of the loop's `for`, from the last node of `review` down to the first. -/
def Wait.poll (m : QueryMgr) (uuid : String) (w : Wait) : Wait :=
  (List.range w.review.length).reverse.foldl (Wait.check m uuid) w

/-- `queryMgr.allLocks(uuid)` and the review list of its nodes, none counted. -/
def startWait (m : QueryMgr) (uuid : String) : QueryMgr × Wait :=
  ((m.allLocks uuid).1, ⟨(m.allLocks uuid).2.keys, 0⟩)

/-- A step while the call waits: a turn of its loop at some index, or a call of another thread. -/
def waitStep (uuid : String) (ok : QueryOp → Prop) (s : QueryMgr × Wait) :
    Nat ⊕ {op // ok op} → QueryMgr × Wait
  | .inl i => (s.1, s.2.check s.1 uuid i)
  | .inr op => (s.1.run op.1, s.2)

/-! ## What the call's records keep -/

section Call

variable {uuid : String} {ok : QueryOp → Prop}

/-- A node has a real wait or a reply under the call's id only if the call has asked it. -/
def Asked (uuid : String) (sent : List String) (m : QueryMgr) : Prop :=
  ∀ n, m.Ready uuid n ∨ m.hasReply uuid n = true → n ∈ sent

theorem Asked.run {sent : List String} {m : QueryMgr} {op : QueryOp} (hop : op.Respects uuid)
    (h : Asked uuid sent m) : Asked uuid sent (m.run op) := by
  intro n hn
  apply h n
  rcases hn with hr | hr
  · exact .inl (QueryMgr.ready_of_run (QueryMgr.Respects.ne_addQuery hop) hr)
  · exact (QueryMgr.hasReply_of_run hop hr).symm

theorem Asked.addQuery {sent : List String} {m : QueryMgr} {addr : String} (h : Asked uuid sent m) :
    Asked uuid (sent ++ [addr]) (m.addQuery uuid addr) := by
  intro n hn
  rw [QueryMgr.hasReply_addQuery] at hn
  rcases hn with hr | hr
  · rcases QueryMgr.ready_addQuery hr with hr | ⟨-, rfl⟩
    · exact List.mem_append_left _ (h n (.inl hr))
    · exact List.mem_append_right _ (List.mem_singleton_self n)
  · exact List.mem_append_left _ (h n (.inr hr))

theorem asked_sendStep (hok : ∀ op, ok op → op.Respects uuid) {s : Sending}
    (h : Asked uuid s.sent s.mgr) (b : String ⊕ {op // ok op}) :
    Asked uuid (sendStep uuid ok s b).sent (sendStep uuid ok s b).mgr := by
  cases b with
  | inl addr => exact h.addQuery
  | inr op => exact h.run (hok op.1 op.2)

theorem asked_waitStep (hok : ∀ op, ok op → op.Respects uuid) {sent : List String}
    {s : QueryMgr × Wait} (h : Asked uuid sent s.1) (b : Nat ⊕ {op // ok op}) :
    Asked uuid sent (waitStep uuid ok s b).1 := by
  cases b with
  | inl i => exact h
  | inr op => exact h.run (hok op.1 op.2)

/-- What the wait has counted: nodes of its first review list that are no longer in it, each
with a reply. -/
def Counted (uuid : String) (review₀ : List String) (s : QueryMgr × Wait) : Prop :=
  ∃ counted : List String, (counted ++ s.2.review).Perm review₀ ∧ s.2.count = counted.length ∧
    ∀ n ∈ counted, s.1.hasReply uuid n = true

theorem counted_check {review₀ : List String} {m : QueryMgr} {w : Wait}
    (h : Counted uuid review₀ (m, w)) (i : Nat) : Counted uuid review₀ (m, w.check m uuid i) := by
  obtain ⟨counted, hperm, hcount, hreply⟩ := h
  dsimp only at hperm hcount hreply
  unfold Wait.check
  split
  · rename_i x hx
    split_ifs with hr
    · -- the node at `i` moves from the review list to the counted ones
      have hmove : (x :: w.review.eraseIdx i).Perm w.review :=
        ((eraseIdx_perm_erase hx).cons x).trans (List.perm_cons_erase (List.mem_of_getElem? hx)).symm
      refine ⟨x :: counted, ?_, by simp [hcount], ?_⟩
      · exact List.perm_middle.symm.trans ((hmove.append_left counted).trans hperm)
      · intro n hn
        rcases List.mem_cons.mp hn with rfl | hn
        · exact hr
        · exact hreply n hn
    · exact ⟨counted, hperm, hcount, hreply⟩
  · exact ⟨counted, hperm, hcount, hreply⟩

theorem counted_waitStep {review₀ : List String} {s : QueryMgr × Wait} (h : Counted uuid review₀ s)
    (b : Nat ⊕ {op // ok op}) : Counted uuid review₀ (waitStep uuid ok s b) := by
  cases b with
  | inl i => exact counted_check h i
  | inr op =>
    obtain ⟨counted, hperm, hcount, hreply⟩ := h
    exact ⟨counted, hperm, hcount, fun n hn => QueryMgr.hasReply_run (hreply n hn)⟩

/-- A pass of the loop's `for` with no other thread in between is a run of the wait. -/
theorem steps_poll (m : QueryMgr) (w : Wait) : Steps (waitStep uuid ok) (m, w) (m, w.poll m uuid) := by
  unfold Wait.poll
  generalize (List.range w.review.length).reverse = l
  induction l generalizing w with
  | nil => exact Steps.refl _
  | cons i l ih =>
    have hstep : Steps (waitStep uuid ok) (m, w) (m, w.check m uuid i) := Steps.single (m, w) (Sum.inl i)
    exact Steps.trans hstep (ih _)

/-- The wait's invariant over a run from `allLocks(uuid)`, with the nodes counted distinct. -/
theorem counted_of_wait {m m' : QueryMgr} {w : Wait}
    (hrun : Steps (waitStep uuid ok) (startWait m uuid) (m', w)) :
    ∃ counted : List String, (counted ++ w.review).Perm (m.locksOf uuid).keys ∧
      w.count = counted.length ∧ counted.Nodup ∧ ∀ n ∈ counted, m'.hasReply uuid n = true := by
  have hstart : Counted uuid (m.locksOf uuid).keys (startWait m uuid) :=
    ⟨[], by simp [startWait, QueryMgr.allLocks_snd], rfl, by simp⟩
  obtain ⟨counted, hperm, hcount, hreply⟩ :=
    Steps.inv (Counted uuid (m.locksOf uuid).keys) (fun s b h => counted_waitStep h b) hrun hstart
  have hnodup : (counted ++ w.review).Nodup := hperm.nodup_iff.mpr (AList.keys_nodup _)
  exact ⟨counted, hperm, hcount, hnodup.of_append_left, hreply⟩

/-- **The wait counts each node once, and only a node with a reply.** Whatever other threads do
with the records meanwhile, and whichever turns the loop has taken, `confirmation_count` is the
number of distinct nodes of the review list read by `allLocks(uuid)` that the loop has dropped
from it, and each of them has a reply. -/
theorem xrouterCall_wait_counts {m m' : QueryMgr} {w : Wait}
    (hrun : Steps (waitStep uuid ok) (startWait m uuid) (m', w)) :
    ∃ counted : List String, (counted ++ w.review).Perm (m.locksOf uuid).keys ∧
      w.count = counted.length ∧ counted.Nodup ∧ ∀ n ∈ counted, m'.hasReply uuid n = true :=
  counted_of_wait hrun

/-- The records of a call with id "q" that asked "a" and then "b", where the reply of "a" came in
between. -/
def earlyReplyRecords : QueryMgr :=
  ((({} : QueryMgr).addQuery "q" "a").storeReply "q" "a" "r").addQuery "q" "b"

/-- Its wait, after the reply of "b" comes and the loop checks the first node of its review. -/
def earlyReplyWait : QueryMgr × Wait :=
  waitStep "q" (QueryOp.Respects "q")
    (waitStep "q" (QueryOp.Respects "q") (startWait earlyReplyRecords "q")
      (.inr ⟨.addReply "q" "b" "s", trivial⟩)) (.inl 0)

theorem steps_earlyReplyWait :
    Steps (waitStep "q" (QueryOp.Respects "q")) (startWait earlyReplyRecords "q")
      (earlyReplyWait.1, earlyReplyWait.2) :=
  Steps.trans (Steps.single _ (Sum.inr ⟨.addReply "q" "b" "s", trivial⟩)) (Steps.single _ (Sum.inl 0))

theorem xrouterCall_wait_counts_sample :
    earlyReplyWait.2.count = 1 ∧
      ∃ counted : List String, (counted ++ earlyReplyWait.2.review).Perm (earlyReplyRecords.locksOf "q").keys ∧
        earlyReplyWait.2.count = counted.length ∧ counted.Nodup ∧
          ∀ n ∈ counted, earlyReplyWait.1.hasReply "q" n = true :=
  ⟨by decide, xrouterCall_wait_counts steps_earlyReplyWait⟩

/-- **A reply that comes before the wait is never counted.** The call asks its nodes while
other threads run (storing replies under any id, purging waits, using other ids). If some node's
reply is stored and its wait purged before the call reads `allLocks(uuid)`, as `processReply`
does for a node that answers at once, then the node is not in the review list, and
`confirmation_count` stays below the number of nodes asked in every run of the wait: the loop
`while (confirmation_count < confs ...)` only ends at the timeout. -/
theorem xrouterCall_misses_early_reply {e : String} {nodes : List String} {m₀ m₁ m₂ : QueryMgr}
    {w : Wait} (hok : ∀ op, ok op → op.Respects uuid)
    (hlocks : m₀.queriesLocks.lookup uuid = none) (hqueries : m₀.queries.lookup uuid = none)
    (hsend : Steps (sendStep uuid ok) ⟨m₀, []⟩ ⟨m₁, nodes⟩)
    (hreply : m₁.hasReply uuid e = true) (hpurged : m₁.hasQuery uuid e = false)
    (hwait : Steps (waitStep uuid ok) (startWait m₁ uuid) (m₂, w)) :
    w.count < nodes.length := by
  -- while the call asks, and while it waits, only the nodes asked get a real wait or a reply
  have hasked₀ : Asked uuid [] m₀ := fun n hn => by
    simp [QueryMgr.Ready, QueryMgr.locksOf, QueryMgr.hasReply, QueryMgr.repliesOf, hlocks,
      hqueries] at hn
  have hasked₁ : Asked uuid nodes m₁ :=
    Steps.inv (fun s : Sending => Asked uuid s.sent s.mgr) (fun s b h => asked_sendStep hok h b)
      hsend hasked₀
  have hasked₂ : Asked uuid nodes m₂ :=
    Steps.inv (fun s : QueryMgr × Wait => Asked uuid nodes s.1) (fun s b h => asked_waitStep hok h b)
      hwait (fun n hn => hasked₁ n (by simpa [startWait] using hn))
  -- the early node was asked, and is not among the nodes awaited
  have he : e ∈ nodes := hasked₁ e (.inr hreply)
  have he₀ : e ∉ (m₁.locksOf uuid).keys := by
    rw [← AList.mem_keys, ← AList.lookup_eq_none]
    simpa [QueryMgr.hasQuery] using hpurged
  obtain ⟨counted, hperm, hcount, hnodup, hreplied⟩ := counted_of_wait hwait
  -- so the counted nodes are nodes asked other than it
  have hsub : counted ⊆ nodes.erase e := fun n hn => by
    have hne : n ≠ e := fun h => he₀ (h ▸ hperm.subset (List.mem_append_left _ hn))
    exact (List.mem_erase_of_ne hne).mpr (hasked₂ n (.inr (hreplied n hn)))
  have hlen : (nodes.erase e).length + 1 = nodes.length := by
    rw [List.length_erase_of_mem he]
    have := List.length_pos_of_mem he
    omega
  calc w.count = counted.length := hcount
    _ ≤ (nodes.erase e).length := (hnodup.subperm hsub).length_le
    _ < nodes.length := by omega

/-- Node "a" answers before "b" is asked: the wait of the call counts "b" and no more. -/
theorem xrouterCall_misses_early_reply_sample :
    earlyReplyWait.2.count = 1 ∧ earlyReplyWait.2.count < ["a", "b"].length := by
  have hsend : Steps (sendStep "q" (QueryOp.Respects "q")) ⟨{}, []⟩ ⟨earlyReplyRecords, ["a", "b"]⟩ :=
    Steps.trans (Steps.single _ (Sum.inl "a"))
      (Steps.trans (Steps.single _ (Sum.inr ⟨.addReply "q" "a" "r", trivial⟩))
        (Steps.trans (Steps.single _ (Sum.inr ⟨.purgeNode "q" "a", trivial⟩))
          (Steps.single _ (Sum.inl "b"))))
  exact ⟨by decide, xrouterCall_misses_early_reply (fun _ h => h) (by rfl) (by rfl) hsend
    (show earlyReplyRecords.hasReply "q" "a" = true by decide)
    (show earlyReplyRecords.hasQuery "q" "a" = false by decide) steps_earlyReplyWait⟩

end Call

/-! ## The first reply stays -/

namespace QueryMgr

variable {m : QueryMgr} {id id' node n r : String}

/-- A store changes a reply only where the node had a real wait. -/
theorem lookup_storeReply :
    ((m.storeReply id node r).repliesOf id').lookup n = (m.repliesOf id').lookup n ∨
      (id' = id ∧ n = node ∧ m.Ready id node) :=
  lookup_addReply

theorem hasReply_of_storeReply (h : (m.storeReply id node r).hasReply id' n = true) :
    m.hasReply id' n = true ∨ (id' = id ∧ n = node ∧ m.Ready id node) :=
  hasReply_of_addReply h

/-- A store leaves the node without a wait. -/
theorem ready_storeReply :
    (m.storeReply id node r).Ready id' n ↔ m.Ready id' n ∧ ¬(id' = id ∧ n = node) := by
  rw [storeReply, ready_purgeNode_iff, ready_addReply]

end QueryMgr

/-- What another call may do while a call with id `uuid` runs its course: read or purge waits and
read replies under any id (`allLocks`, `purge`, and `allReplies`, which `getReply` calls), and
anything under another id. -/
def QueryOp.Keeps (uuid : String) : QueryOp → Prop
  | .addQuery id _ => id ≠ uuid
  | .addReply id _ _ => id ≠ uuid
  | .reply id _ => id ≠ uuid
  | .allReplies _ => True
  | .allLocks _ => True
  | .purge _ => True
  | .purgeNode .. => True

/-- A change of the records while a call with id `uuid` runs: the call asks a node, a handler
stores a reply (`storeReply`, its `addReply` and `purge` with no other handler of the same node
between them: a node's packets are handled one after another, and a node asked at its external
address has one thread), or another call. -/
inductive CallOp (uuid : String)
  | ask (addr : String)
  | store (id node reply : String)
  | call (op : QueryOp) (h : op.Keeps uuid)

/-- The records and the nodes asked after a change. -/
def callStep (uuid : String) (s : Sending) : CallOp uuid → Sending
  | .ask addr => ⟨s.mgr.addQuery uuid addr, s.sent ++ [addr]⟩
  | .store id node r => ⟨s.mgr.storeReply id node r, s.sent⟩
  | .call op _ => ⟨s.mgr.run op, s.sent⟩

section First

variable {uuid : String} {m : QueryMgr} {sent : List String}

theorem callStep_processReply (verifies : String → XRouterPacket → Bool) (p : XRouterPacket)
    (nodeAddr : String) : Steps (callStep uuid) ⟨m, sent⟩ ⟨m.processReply verifies p nodeAddr, sent⟩ := by
  unfold QueryMgr.processReply
  split
  · exact Steps.single (Sending.mk m sent) (CallOp.store _ _ _)
  · exact Steps.refl _

theorem callStep_processConfigReply (verifies : String → XRouterPacket → Bool)
    (configOk : String → Bool) (p : XRouterPacket) (nodeAddr : String) :
    Steps (callStep uuid) ⟨m, sent⟩ ⟨m.processConfigReply verifies configOk p nodeAddr, sent⟩ := by
  unfold QueryMgr.processConfigReply
  split
  · exact Steps.single (Sending.mk m sent) (CallOp.store _ _ _)
  · exact Steps.refl _

theorem callStep_urlReply (id addr : String) (u : UrlReply) :
    Steps (callStep uuid) ⟨m, sent⟩ ⟨m.urlReply id addr u, sent⟩ := by
  cases u with
  | failed => exact Steps.single (Sending.mk m sent) (CallOp.store _ _ _)
  | returned =>
    unfold QueryMgr.urlReply
    split_ifs
    · exact Steps.refl _
    · exact Steps.single (Sending.mk m sent) (CallOp.store _ _ _)

theorem Keeps.ne_addQuery {op : QueryOp} (hop : op.Keeps uuid) (node : String) :
    op ≠ .addQuery uuid node := by
  rintro rfl
  exact hop rfl

/-- Another call leaves the replies under the call's id as they are. -/
theorem lookup_run_of_keeps {op : QueryOp} (hop : op.Keeps uuid) :
    ((m.run op).repliesOf uuid).lookup n = (m.repliesOf uuid).lookup n := by
  cases op with
  | addQuery => simp [QueryMgr.run]
  | addReply id node r =>
    rcases (QueryMgr.lookup_addReply : ((m.addReply id node r).1.repliesOf uuid).lookup n = _ ∨ _)
      with h | ⟨rfl, -⟩
    · exact h
    · exact absurd rfl hop
  | reply id node =>
    rcases (QueryMgr.lookup_reply : ((m.reply id node).1.repliesOf uuid).lookup n = _ ∨ _) with h | ⟨rfl, -⟩
    · exact h
    · exact absurd rfl hop
  | allReplies => simp [QueryMgr.run]
  | allLocks => simp [QueryMgr.run]
  | purge => rfl
  | purgeNode => rfl

theorem sent_callStep (s : Sending) (b : CallOp uuid) : s.sent <+: (callStep uuid s b).sent := by
  cases b with
  | ask addr => exact List.prefix_append _ _
  | store => exact List.prefix_refl _
  | call => exact List.prefix_refl _

/-- The records of a call as it runs: only the nodes it asked have a real wait or a reply under
its id, and a node with a reply has no real wait left, since each store purges the node's. -/
def Answered (uuid : String) (s : Sending) : Prop :=
  Asked uuid s.sent s.mgr ∧ ∀ n, s.mgr.hasReply uuid n = true → ¬ s.mgr.Ready uuid n

theorem answered_callStep {s : Sending} {b : CallOp uuid} (hnodup : (callStep uuid s b).sent.Nodup)
    (h : Answered uuid s) : Answered uuid (callStep uuid s b) := by
  obtain ⟨hasked, hsettled⟩ := h
  cases b with
  | ask addr =>
    dsimp only [callStep] at hnodup ⊢
    -- a node asked for the first time has no reply yet
    have hfresh : addr ∉ s.sent := fun hm =>
      (List.nodup_append.mp hnodup).2.2 addr hm addr (List.mem_singleton_self addr) rfl
    refine ⟨hasked.addQuery, fun n hn hr => ?_⟩
    rw [QueryMgr.hasReply_addQuery] at hn
    rcases QueryMgr.ready_addQuery hr with hr | ⟨-, rfl⟩
    · exact hsettled n hn hr
    · exact hfresh (hasked n (.inr hn))
  | store id node r =>
    dsimp only [callStep]
    refine ⟨fun n hn => hasked n ?_, fun n hn hr => ?_⟩
    · rcases hn with hr | hr
      · exact .inl (QueryMgr.ready_storeReply.mp hr).1
      · rcases QueryMgr.hasReply_of_storeReply hr with hr | ⟨rfl, rfl, hr⟩
        · exact .inr hr
        · exact .inl hr
    · obtain ⟨hr, hne⟩ := QueryMgr.ready_storeReply.mp hr
      rcases QueryMgr.hasReply_of_storeReply hn with hn | ⟨rfl, rfl, -⟩
      · exact hsettled n hn hr
      · exact hne ⟨rfl, rfl⟩
  | call op hop =>
    dsimp only [callStep]
    have hreply : ∀ n, (s.mgr.run op).hasReply uuid n = s.mgr.hasReply uuid n := fun n => by
      simp only [QueryMgr.hasReply, lookup_run_of_keeps hop]
    refine ⟨fun n hn => hasked n ?_, fun n hn hr => ?_⟩
    · rcases hn with hr | hr
      · exact .inl (QueryMgr.ready_of_run (Keeps.ne_addQuery hop) hr)
      · exact .inr ((hreply n).symm ▸ hr)
    · exact hsettled n ((hreply n) ▸ hn) (QueryMgr.ready_of_run (Keeps.ne_addQuery hop) hr)

/-- A step keeps a reply under the call's id. -/
theorem lookup_callStep {s : Sending} {b : CallOp uuid} {r : String} (h : Answered uuid s)
    (hr : (s.mgr.repliesOf uuid).lookup n = some r) :
    ((callStep uuid s b).mgr.repliesOf uuid).lookup n = some r := by
  cases b with
  | ask addr => simpa [callStep] using hr
  | store id node r' =>
    rcases (QueryMgr.lookup_storeReply : ((s.mgr.storeReply id node r').repliesOf uuid).lookup n = _ ∨ _)
      with he | ⟨rfl, rfl, hready⟩
    · exact he.trans hr
    · -- the node has a reply, so no real wait: the store does not reach it
      exact absurd hready (h.2 n (by simp [QueryMgr.hasReply, hr]))
  | call op hop => exact (lookup_run_of_keeps hop).trans hr

/-- **Only the first reply of a node is kept.** Along any run of a call with a new id, in which
it asks each node once and the reply handlers store what they get (checked or, on the failed call
of an external node, unchecked), while other calls use other ids: once a node's reply is stored
under the call's id, every later state holds that same reply. -/
theorem xrouterCall_keeps_first_reply {r : String} {m₀ : QueryMgr} {s t : Sending}
    (hlocks : m₀.queriesLocks.lookup uuid = none) (hqueries : m₀.queries.lookup uuid = none)
    (h₁ : Steps (callStep uuid) ⟨m₀, []⟩ s) (hr : (s.mgr.repliesOf uuid).lookup n = some r)
    (h₂ : Steps (callStep uuid) s t) (hnodup : t.sent.Nodup) :
    (t.mgr.repliesOf uuid).lookup n = some r := by
  -- the invariant holds of every state whose asked nodes are distinct, since they only grow
  have hstep : ∀ (v : Sending) (b : CallOp uuid), (v.sent.Nodup → Answered uuid v) →
      (callStep uuid v b).sent.Nodup → Answered uuid (callStep uuid v b) := fun v b hv hnd =>
    answered_callStep hnd (hv (hnd.sublist (sent_callStep v b).sublist))
  have hstart : ([] : List String).Nodup → Answered uuid ⟨m₀, []⟩ := fun _ =>
    ⟨fun n hn => by
      simp [QueryMgr.Ready, QueryMgr.locksOf, QueryMgr.hasReply, QueryMgr.repliesOf, hlocks,
        hqueries] at hn,
     fun n hn => by simp [QueryMgr.hasReply, QueryMgr.repliesOf, hqueries] at hn⟩
  have hs : s.sent.Nodup → Answered uuid s := Steps.inv _ hstep h₁ hstart
  -- from `s` on the reply stays
  have hkeep := Steps.inv (fun v : Sending => v.sent.Nodup →
      Answered uuid v ∧ (v.mgr.repliesOf uuid).lookup n = some r)
    (fun v b hv hnd => by
      obtain ⟨hans, hval⟩ := hv (hnd.sublist (sent_callStep v b).sublist)
      exact ⟨answered_callStep hnd hans, lookup_callStep hans hval⟩)
    h₂ (fun hnd => ⟨hs hnd, hr⟩)
  exact (hkeep hnodup).2

/-- Node "a" answers twice, the second time by a store without a check: the first reply stays. -/
theorem xrouterCall_keeps_first_reply_sample :
    ((((({} : QueryMgr).addQuery "q" "a").storeReply "q" "a" "r").storeReply "q" "a" "s").repliesOf
      "q").lookup "a" = some "r" := by
  have h₁ : Steps (callStep "q") ⟨{}, []⟩
      ⟨(({} : QueryMgr).addQuery "q" "a").storeReply "q" "a" "r", ["a"]⟩ :=
    Steps.trans (Steps.single _ (CallOp.ask "a")) (Steps.single _ (CallOp.store "q" "a" "r"))
  have h₂ : Steps (callStep "q") ⟨(({} : QueryMgr).addQuery "q" "a").storeReply "q" "a" "r", ["a"]⟩
      ⟨((({} : QueryMgr).addQuery "q" "a").storeReply "q" "a" "r").storeReply "q" "a" "s", ["a"]⟩ :=
    Steps.single _ (CallOp.store "q" "a" "s")
  exact xrouterCall_keeps_first_reply (by rfl) (by rfl) h₁ (by decide) h₂ (by decide)

end First

end Blocknet.XRouter

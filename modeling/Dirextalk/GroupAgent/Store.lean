/-
  Dirextalk.GroupAgent.Store — the two tables of the group agent, the transactions that
  write them (`p2p/storage/storage_group_agent.go`) and the callbacks the service hands to
  them (`p2p/service_group_agent.go`).

  Three of the transactions lock the binding of their room (`SELECT … FOR UPDATE`) and keep
  it to their end; `mutateGroupAgentRequest` then also locks the request. The fourth,
  `cancelGroupAgentRequests`, is one `UPDATE` and locks no binding: it only waits for the
  requests it would change. A transaction in flight is what it will write (`Txn`); its
  writes show when it commits.
-/
import Dirextalk.Lib.Rows
import Dirextalk.Lib.Run
import Dirextalk.Lib.Go

namespace Dirextalk.GroupAgent

open Lib Lib.Go

/-- The grant of one room; the columns' defaults are the row of a room without one. -/
structure Binding where
  enabled : Bool := false
  ownerMXID : String := ""
  agentMXID : String := ""
  revision : Int := 0
  accountGeneration : Int := 0
  enabledAt : Int := 0
deriving DecidableEq, Repr

inductive Status
  | pending
  | published
  | cancelled
  | failed
deriving DecidableEq, Repr

structure Request where
  requestID : String
  roomID : String
  eventID : String
  senderMXID : String
  ownerMXID : String
  agentMXID : String
  bindingRevision : Int
  accountGeneration : Int
  originServerTS : Int
  status : Status := .pending
  replyEventID : String := ""
  replyDigest : String := ""
  body : String := ""
  scheduledBy : String := ""
deriving DecidableEq, Repr

def groupAgentRequestQueueMax : Nat := 256

def groupAgentRequestMatches (b : Binding) (r : Request) : Bool :=
  b.enabled && b.revision = r.bindingRevision && b.ownerMXID = r.ownerMXID && b.agentMXID = r.agentMXID &&
    b.accountGeneration = r.accountGeneration

/-! ## The tables -/

/-- What `UNIQUE(room_id, event_id)` is about. -/
def Request.source (r : Request) : String × String := (r.roomID, r.eventID)

section

variable (status : Status) (reply : Option (String × String)) (r : Request)

/-- The row with another status, and with the reply if there is one. -/
def Request.settled : Request :=
  match reply with
  | some (replyEventID, replyDigest) => { r with status, replyEventID, replyDigest }
  | none => { r with status }

@[simp] theorem Request.settled_requestID : (r.settled status reply).requestID = r.requestID := by
  cases reply <;> rfl

@[simp] theorem Request.settled_source : (r.settled status reply).source = r.source := by
  cases reply <;> rfl

@[simp] theorem Request.settled_roomID : (r.settled status reply).roomID = r.roomID := by
  cases reply <;> rfl

@[simp] theorem Request.settled_status : (r.settled status reply).status = status := by
  cases reply <;> rfl

end

@[simp] theorem groupAgentRequestMatches_settled (b : Binding) (status : Status) (reply : Option (String × String))
    (r : Request) : groupAgentRequestMatches b (r.settled status reply) = groupAgentRequestMatches b r := by
  cases reply <;> rfl

structure Tables where
  bindings : String → Option Binding
  requests : Rows Request.requestID
  sources : (requests.rows.map Request.source).Nodup

namespace Tables

def empty : Tables := ⟨fun _ => none, .empty, List.nodup_nil⟩

variable (t : Tables)

/-- The binding after `INSERT … ON CONFLICT DO NOTHING`. -/
def binding (roomID : String) : Binding := (t.bindings roomID).getD {}

def pending (roomID : String) : Nat := t.requests.count fun r => r.roomID = roomID ∧ r.status = .pending

/-- An `UPDATE` of the requests that writes the status and the reply. -/
def update (p : Request → Bool) (status : Status) (reply : Option (String × String)) : Tables where
  bindings := t.bindings
  requests := t.requests.modify p (Request.settled status reply) (Request.settled_requestID status reply)
  sources := by
    rw [Rows.map_modify _ _ _ _ (Request.settled_source status reply)]
    exact t.sources

def putBinding (roomID : String) (b : Binding) : Tables :=
  { t with bindings := Function.update t.bindings roomID (some b) }

/-- The row is there under its id or its event. -/
def known (r : Request) : Bool :=
  t.requests.rows.any fun a => a.requestID = r.requestID ∨ a.roomID = r.roomID ∧ a.eventID = r.eventID

/-- `INSERT … ON CONFLICT DO NOTHING`. -/
def insertRequest (r : Request) : Tables :=
  if h : t.known r then t
  else
    { t with
      requests := t.requests.put r
      sources := by
        simp only [known, List.any_eq_true, decide_eq_true_eq, not_exists, not_and, not_or] at h
        rw [Rows.rows_put_of_new fun a ha => (h a ha).1, List.map_append, List.nodup_append']
        refine ⟨t.sources, by simp, ?_⟩
        intro source hsource hr
        obtain ⟨a, ha, rfl⟩ := List.mem_map.mp hsource
        simp only [List.map_cons, List.map_nil, List.mem_singleton, Request.source, Prod.mk.injEq] at hr
        exact (h a ha).2 hr.1 hr.2 }

end Tables

/-! ## The callbacks of the service -/

def groupYingMXID (splitID : SplitID) (owner : String) : String :=
  match splitID owner with
  | some (_, server) => if server = "" then "" else "@ying:" ++ server
  | none => ""

def defaultGroupAgentBinding (splitID : SplitID) (owner : String) : Binding :=
  { ownerMXID := owner, agentMXID := groupYingMXID splitID owner }

structure Update where
  /-- `-1` when the caller names none -/
  expected : Int
  enabled : Bool
  owner : String
  accountGeneration : Int
  /-- what `ensureGroupYingJoined` answers -/
  joins : Bool
  now : Int
  splitID : SplitID

def groupAgentUpdate (u : Update) (row : Binding) : Option Binding :=
  if u.expected ≥ 0 ∧ row.revision ≠ u.expected then none
  else if row.ownerMXID ≠ "" ∧ row.ownerMXID ≠ u.owner ∧ row.enabled then none
  else
    let b := if row.revision = 0 then defaultGroupAgentBinding u.splitID u.owner else row
    if b.enabled ≠ u.enabled ∨ b.ownerMXID ≠ u.owner ∨ b.accountGeneration ≠ u.accountGeneration then
      if u.enabled ∧ ¬u.joins then none
      else
        some {
          enabled := u.enabled
          ownerMXID := u.owner
          agentMXID := groupYingMXID u.splitID u.owner
          revision := int64 (b.revision + 1)
          accountGeneration := u.accountGeneration
          enabledAt := if u.enabled then u.now else b.enabledAt }
    else some b

def invalidateGroupAgent (b : Binding) : Binding :=
  if b.enabled then { b with enabled := false, revision := int64 (b.revision + 1) } else b

inductive Change
  | update (u : Update)
  | invalidate

def Change.mutate : Change → Binding → Option Binding
  | .update u, b => groupAgentUpdate u b
  | .invalidate, b => some (invalidateGroupAgent b)

/-- The operations whose callback runs in a transaction; a name outside the list is `other`. -/
inductive Operation
  | complete
  | publish
  | other
deriving DecidableEq

/-- A call of `InvokeGroupAgentCapability`: its parameters, the service it reaches and what Matrix answers. -/
structure Invocation where
  operation : Operation
  bindingRevision : Int
  status : String
  kind : String
  body : String
  limit : Int
  owner : String
  accountGeneration : Int
  /-- the SHA-256 of the body in hex -/
  digest : String
  /-- whether the room still is a group of the owner with the agent, the sender and the binding in it; `none` if
  unreadable -/
  room : Option Bool
  /-- whether the message still is the one the request was made from; `none` if it cannot be read -/
  message : Option Bool
  /-- the event of the publication, if it went through -/
  receipt : Option String

def groupAgentScheduledBodyMax : Nat := 16000

def validateGroupAgentRequest (p : Invocation) (b : Binding) (r : Request) : Option Bool :=
  if !b.enabled ∨ b.revision ≠ p.bindingRevision ∨ r.bindingRevision ≠ p.bindingRevision ∨ b.ownerMXID ≠ p.owner ∨
      r.ownerMXID ≠ b.ownerMXID ∨ b.accountGeneration ≠ p.accountGeneration ∨ r.accountGeneration ≠ p.accountGeneration ∨
      r.agentMXID ≠ b.agentMXID ∨ r.status ≠ .pending then some false
  else
    match p.room with
    | none => none
    | some false => some false
    | some true =>
      if r.scheduledBy ≠ "" then some (!(blank r.body || r.body.utf8ByteSize > groupAgentScheduledBodyMax)) else p.message

def complete (p : Invocation) (r : Request) : Option Request :=
  if p.status ≠ "failed" ∧ p.status ≠ "cancelled" then none
  else if p.body ≠ "" ∨ p.kind ≠ "" ∨ p.limit ≠ 0 then none
  else some { r with status := if p.status = "failed" then .failed else .cancelled }

def publish (p : Invocation) (r : Request) : Option Request :=
  if blank p.body ∨ p.body.utf8ByteSize > 16000 ∨ p.limit ≠ 0 then none
  else
    let kind := if p.kind = "" then "final" else p.kind
    let status := if kind = "final" ∧ p.status = "" then "completed" else p.status
    if kind ≠ "final" ∧ kind ≠ "progress" then none
    else if kind = "progress" ∧ status ≠ "working" ∧ status ≠ "waiting_owner" then none
    else if kind = "final" ∧ status ≠ "completed" ∧ status ≠ "failed" then none
    else
      p.receipt.map fun eventID =>
        if kind = "final" then { r with status := .published, replyEventID := eventID, replyDigest := p.digest } else r

/-- `invoke` of `InvokeGroupAgentCapability`. -/
def invoke (p : Invocation) (b : Binding) (r : Request) : Option Request :=
  if p.bindingRevision ≠ r.bindingRevision ∨ r.accountGeneration ≠ p.accountGeneration ∨ r.ownerMXID ≠ p.owner then none
  else if p.operation = .publish ∧ r.status = .published then
    -- a replay: nothing is written
    if p.kind ≠ "progress" ∧ r.replyDigest ≠ p.digest then none else some r
  else
    match validateGroupAgentRequest p b r with
    | none => none
    | some false => some { r with status := if r.status = .pending then .cancelled else r.status }
    | some true =>
      match p.operation with
      | .complete => complete p r
      | .publish => publish p r
      | .other => none

/-! ## Transactions -/

/-- How far `enqueueGroupAgentRequest` is: it has the binding, found no such request, counted the queue. -/
inductive Stage
  | locked
  | fresh
  | counted
deriving DecidableEq

inductive Txn
  | binding (roomID : String) (b : Binding)
  | enqueue (stage : Stage) (r : Request)
  | request (r : Request)
deriving DecidableEq

def Txn.roomID : Txn → String
  | .binding roomID _ => roomID
  | .enqueue _ r => r.roomID
  | .request r => r.roomID

/-- The body of a request comes from the room, save for one made by a schedule. -/
def Request.queued (r : Request) : Option Request :=
  if r.scheduledBy = "" then some { r with status := .pending, replyEventID := "", replyDigest := "", body := "" }
  else if blank r.body then none
  else some { r with status := .pending, replyEventID := "", replyDigest := "" }

/-- The requests that a binding no longer covers. -/
def revoked (roomID : String) (b : Binding) (r : Request) : Bool :=
  r.roomID = roomID ∧ r.status = .pending ∧
    (b.enabled = false ∨ r.bindingRevision ≠ b.revision ∨ r.accountGeneration ≠ b.accountGeneration)

/-- The `WHERE` of `cancelGroupAgentRequests`. -/
def cancels (roomID sender eventID : String) (r : Request) : Bool :=
  r.status = .pending ∧ (roomID = "" ∨ r.roomID = roomID) ∧ (sender = "" ∨ r.senderMXID = sender) ∧
    (eventID = "" ∨ r.eventID = eventID)

/-- What a commit writes. An `INSERT` that violates a `CHECK` of its table fails. -/
def Txn.commit (t : Tables) : Txn → Option Tables
  | .binding roomID b =>
    if b.revision ≥ 0 then some ((t.putBinding roomID b).update (revoked roomID b) .cancelled none) else none
  | .enqueue .counted r => if r.bindingRevision > 0 ∧ r.accountGeneration > 0 then some (t.insertRequest r) else none
  | .enqueue _ _ => none
  | .request r => some (t.update (·.requestID = r.requestID) r.status (some (r.replyEventID, r.replyDigest)))

structure State where
  tables : Tables
  active : List Txn

def State.init : State := ⟨.empty, []⟩

def State.free (s : State) (roomID : String) : Prop := ∀ txn ∈ s.active, txn.roomID ≠ roomID

inductive Move
  | mutateGroupAgentBinding (roomID : String) (change : Change)
  | enqueueGroupAgentRequest (r : Request)
  | selectExists (r : Request)
  | selectCount (r : Request)
  | mutateGroupAgentRequest (id : String) (p : Invocation)
  | cancelGroupAgentRequests (roomID sender eventID : String)
  | commit (txn : Txn)
  | rollback (txn : Txn)

/-- What can happen next; whatever returns without a write or an open transaction is not listed. -/
inductive Step : State → Move → State → Prop
  | mutateGroupAgentBinding {s roomID change b} : s.free roomID → change.mutate (s.tables.binding roomID) = some b →
      Step s (.mutateGroupAgentBinding roomID change) { s with active := .binding roomID b :: s.active }
  | enqueueGroupAgentRequest {s r b} : s.free r.roomID → s.tables.bindings r.roomID = some b → groupAgentRequestMatches b r →
      Step s (.enqueueGroupAgentRequest r) { s with active := .enqueue .locked r :: s.active }
  | selectExists {s r} : .enqueue .locked r ∈ s.active → s.tables.known r = false →
      Step s (.selectExists r) { s with active := .enqueue .fresh r :: s.active.erase (.enqueue .locked r) }
  | selectCount {s r queued} : .enqueue .fresh r ∈ s.active → s.tables.pending r.roomID < groupAgentRequestQueueMax →
    r.queued = some queued →
      Step s (.selectCount r) { s with active := .enqueue .counted queued :: s.active.erase (.enqueue .fresh r) }
  | mutateGroupAgentRequest {s id p b r r'} : s.tables.requests.find id = some r → s.free r.roomID →
      s.tables.bindings r.roomID = some b → invoke p b r = some r' →
      Step s (.mutateGroupAgentRequest id p) { s with active := .request r' :: s.active }
  /-- A request that is locked is waited for. -/
  | cancelGroupAgentRequests {s roomID sender eventID} :
      (∀ r, .request r ∈ s.active →
        ∀ row ∈ s.tables.requests.rows, row.requestID = r.requestID → cancels roomID sender eventID row = false) →
      Step s (.cancelGroupAgentRequests roomID sender eventID)
        { s with tables := s.tables.update (cancels roomID sender eventID) .cancelled none }
  | commit {s txn t} : txn ∈ s.active → txn.commit s.tables = some t → Step s (.commit txn) ⟨t, s.active.erase txn⟩
  | rollback {s txn} : txn ∈ s.active → Step s (.rollback txn) { s with active := s.active.erase txn }

end Dirextalk.GroupAgent

/-
  Dirextalk.GroupAgent.Publisher — the group agent's calls (`p2p/service_group_agent.go`) as
  programs over the single statements of the store (`p2p/storage/storage_group_agent.go`)
  and the single calls of the Matrix port.

  Actors. Changes of a binding, requests that are queued (by a member's message or by a
  schedule), publications and completions of a request, cancellations; and the other users
  of the capability tables, who may do anything that the capability server does. The
  callback, in `GroupAgent.Store` a function of what it is answered, runs inside its
  transaction here, which has the binding and the request locked while the reply is
  admitted, staged and sent over other connections.

  A statement does what it says or fails. A commit may also go through without its caller
  learning of it; either way the locks are gone. The context a transaction was begun with may
  end, or its session: the locks are gone then too and every later statement of it fails,
  while its callback goes on (`Call.contextDone`). A crash drops every call and every lock.
-/
import Dirextalk.Lib.Encoding
import Dirextalk.Lib.Script
import Dirextalk.Lib.Trace
import Dirextalk.GroupAgent.Store
import Dirextalk.Capability.ProductHandlers

namespace Dirextalk.GroupAgent

open Lib Lib.Go

open Capability (Error errNoRows OperationContext OperationRow PreparedMessage HandlerCall StoreCall HandlerSig Platform Ports)

/-! ## What the calls carry -/

structure RoomBinding where
  roomID : String
  enabled : Bool
  revision : Int
  ownerMXID : String
  agentMXID : String
  memberPolicy : String

/-- What `ReadGroupAgentRoom` returns; `joined` are the members that `Joined` has as true. -/
structure Room where
  isGroup : Bool
  dissolved : Bool
  ownerMXID : String
  joined : List String
  binding : Option RoomBinding

structure Message where
  roomID : String
  eventID : String
  senderMXID : String
  body : String
  generated : Bool

structure Params where
  requestID : String := ""
  roomID : String := ""
  bindingRevision : Int := 0
  status : String := ""
  kind : String := ""
  body : String := ""
  actorMXID : String := ""
  cursor : String := ""
  afterTS : Int := 0
  afterRequestID : String := ""
  limit : Int := 0
deriving DecidableEq

structure Account where
  ownerMXID : String
  accountGeneration : Int
  deprovisioned : Bool
deriving DecidableEq

inductive Fault
  /-- `ErrGroupAgentConflict` -/
  | conflict
  /-- `ErrGroupAgentQueueFull` -/
  | queueFull
  | refused (text : String)
  /-- the callback of `MutateGroupAgentBinding` returned an error -/
  | unchanged
  /-- what a statement or the Matrix port answered -/
  | failed (e : Error)

inductive Answer
  | enqueued (replayed : Bool)
  | published (eventID : String) (replayed : Bool)
  | cancelled (replayed : Bool)
  | completed (status : String)
  | done
  | failed (f : Fault)

inductive Kind
  | final
  | progress
deriving DecidableEq

def Kind.text : Kind → String
  | .final => "final"
  | .progress => "progress"

structure Reply where
  kind : Kind
  status : String
deriving DecidableEq

structure Publication where
  requestID : String
  reply : Reply
  op : OperationContext

inductive Call
  | selectBinding (roomID : String)
  | selectRoom (requestID : String)
  /-- `INSERT … ON CONFLICT DO NOTHING` and `SELECT … FOR UPDATE` -/
  | insertBinding (roomID : String)
  | lockBinding (roomID : String)
  /-- the same statement in `EnqueueGroupAgentRequest` -/
  | lockBindingFor (r : Request)
  | lockRequest (requestID : String)
  | selectExists (r : Request)
  | selectCount (roomID : String)
  | insertRequest (r : Request)
  | commitBinding (roomID : String) (b : Binding)
  | commitRequest (r : Request)
  | rollback
  | cancelRequests (roomID sender eventID : String)
  | readRoom (roomID : String)
  | readMessage (roomID eventID : String)
  | insertOperation (op : OperationContext)
  | selectOperation (operationID : String)
  /-- a call of `ExecutePreparedMatrixMutation`, or the look at the staged event before it -/
  | transport (pub : Publication) (c : HandlerCall)
  /-- the other users of the capability tables -/
  | store (c : StoreCall)
  | foreign (c : HandlerCall)
  /-- the end of the context of call `t`, or of its session -/
  | contextDone (t : Nat)
  | respond (answer : Answer)

@[reducible] def Call.Ans : Call → Type
  | .selectBinding _ | .lockBinding _ | .lockBindingFor _ => Except Error (Option Binding)
  | .selectRoom _ => Except Error (Option String)
  | .insertBinding _ => Except Error Binding
  | .lockRequest _ => Except Error (Option Request)
  | .selectExists _ | .insertRequest _ => Except Error Bool
  | .selectCount _ => Except Error Nat
  | .commitBinding _ _ | .commitRequest _ | .cancelRequests _ _ _ | .insertOperation _ => Except Error Unit
  | .rollback | .contextDone _ | .respond _ => Unit
  | .readRoom _ => Except Error Room
  | .readMessage _ _ => Except Error Message
  | .selectOperation _ => Except Error (Option OperationRow)
  | .transport _ c | .foreign c => c.Ans
  | .store c => c.Ans

abbrev CallSig : Sig := ⟨Call, Call.Ans⟩

abbrev Work := ExceptT Fault (Prog CallSig)

def ask (c : Call) : Prog CallSig c.Ans := Prog.ask (σ := CallSig) c

/-- A call whose error is returned. -/
def checked {α : Type} (p : Prog CallSig (Except Error α)) : Work α := ExceptT.mk do
  match ← p with
  | .ok a => return .ok a
  | .error e => return .error (.failed e)

/-- `BeginTx` and `defer tx.Rollback()`, which after a commit does nothing. -/
def transaction {α : Type} (body : Work α) : Work α := ExceptT.mk do
  let out ← body.run
  ask .rollback
  return out

/-! ## The functions of the store -/

def mutateGroupAgentBinding (roomID : String) (change : Change) : Work Unit := transaction do
  let b ← checked (ask (.insertBinding roomID))
  match change.mutate b with
  | none => throw .unchanged
  | some b' => checked (ask (.commitBinding roomID b'))

def enqueueGroupAgentRequest (r : Request) : Work Bool := transaction do
  match ← checked (ask (.lockBindingFor r)) with
  | none => return false
  | some b =>
    if !groupAgentRequestMatches b r then return false
    else
      let known ← checked (ask (.selectExists r))
      if known then return false
      else
        let count ← checked (ask (.selectCount r.roomID))
        if groupAgentRequestQueueMax ≤ count then throw .queueFull
        else
          match r.queued with
          | none => return false
          | some queued => checked (ask (.insertRequest queued))

def mutateGroupAgentRequest {α : Type} (requestID : String) (mutate : Binding → Request → Work (Request × α)) :
    Work α := transaction do
  match ← checked (ask (.selectRoom requestID)) with
  | none => throw .conflict
  | some roomID =>
    match ← checked (ask (.lockBinding roomID)) with
    | none => throw (.failed errNoRows)
    | some b =>
      match ← checked (ask (.lockRequest requestID)) with
      | none => throw (.failed errNoRows)
      | some r =>
        let (r', a) ← mutate b r
        checked (ask (.commitRequest r'))
        return a

def groupAgentCapability : String := "product.group_agent.v1"

def admitGroupAgentPublication (op : OperationContext) : Work Unit := do
  if op.rootDigest.length ≠ 32 then throw .conflict
  else
    checked (ask (.insertOperation op))
    match ← checked (ask (.selectOperation op.operationID)) with
    | none => throw (.failed errNoRows)
    | some row =>
      if row.capability ≠ groupAgentCapability ∨ row.operation ≠ "publish" ∨ row.ownerID ≠ op.ownerID ∨
        row.generation ≠ op.generation ∨
          row.rootDigest ≠ op.rootDigest then throw .conflict
      else return ()

/-! ## The functions of the service -/

structure Service where
  pg : Platform
  ports : Ports
  /-- `uuid.Parse` accepts the text, and it prints as it is. -/
  canonical : String → Bool
  /-- `uuid.NewSHA1(uuid.NameSpaceURL, []byte(name)).String()`. -/
  newSHA1 : String → String
  splitID : SplitID

def isHumanGroupActor (splitID : SplitID) (mxid : String) : Bool :=
  (splitID mxid).any fun (name, _) => name ≠ "ying" && name ≠ "agent" && name ≠ "system"

def groupAgentMatrixBindingMatches (room : Room) (roomID : String) (b : Binding) : Bool :=
  match room.binding with
  | some rb =>
    rb.roomID = roomID && rb.enabled && rb.revision = b.revision && rb.ownerMXID = b.ownerMXID && rb.agentMXID = b.agentMXID &&
      rb.memberPolicy = "all_joined"
  | none => false

/-- What both the queueing and every later check ask of the room. -/
def Room.admits (room : Room) (splitID : SplitID) (roomID : String) (b : Binding) (actor : String) : Bool :=
  room.isGroup && !room.dissolved && room.ownerMXID = b.ownerMXID && b.ownerMXID ∈ room.joined && b.agentMXID ∈ room.joined &&
    actor ∈ room.joined && isHumanGroupActor splitID actor && groupAgentMatrixBindingMatches room roomID b

def Message.isSourceOf (m : Message) (r : Request) : Bool :=
  m.body ≠ "" && m.eventID = r.eventID && m.roomID = r.roomID && m.senderMXID = r.senderMXID && !m.generated

def Account.validateGroupAgentRequest (a : Account) (splitID : SplitID) (revision : Int) (b : Binding) (r : Request) :
    Work Bool := do
  if !b.enabled ∨ b.revision ≠ revision ∨ r.bindingRevision ≠ revision ∨ b.ownerMXID ≠ a.ownerMXID ∨ r.ownerMXID ≠ b.ownerMXID ∨
      b.accountGeneration ≠ a.accountGeneration ∨ r.accountGeneration ≠ a.accountGeneration ∨ r.agentMXID ≠ b.agentMXID ∨
      r.status ≠ .pending then return false
  else
    let room ← checked (ask (.readRoom r.roomID))
    if !room.admits splitID r.roomID b r.senderMXID then return false
    else if r.scheduledBy ≠ "" then return !(blank r.body || r.body.utf8ByteSize > groupAgentScheduledBodyMax)
    else
      let message ← checked (ask (.readMessage r.roomID r.eventID))
      return message.isSourceOf r

/-- `complete` of the callback. -/
def Params.complete (p : Params) (r : Request) : Except Fault (Request × Answer) :=
  if p.status ≠ "failed" ∧ p.status ≠ "cancelled" then .error (.refused "complete status must be failed or cancelled")
  else if p.body ≠ "" ∨ p.kind ≠ "" ∨ p.limit ≠ 0 then .error (.refused "invalid complete parameters")
  else .ok ({ r with status := if p.status = "failed" then .failed else .cancelled }, .completed p.status)

/-- The checks of `publish`. -/
def Params.reply (p : Params) : Except Fault Reply :=
  if blank p.body ∨ p.body.utf8ByteSize > 16000 ∨ p.limit ≠ 0 then .error (.refused "reply body must contain 1 to 16000 bytes")
  else
    let kind := if p.kind = "" then "final" else p.kind
    let status := if kind = "final" ∧ p.status = "" then "completed" else p.status
    if kind ≠ "final" ∧ kind ≠ "progress" then .error (.refused "invalid reply kind")
    else if kind = "progress" ∧ status ≠ "working" ∧ status ≠ "waiting_owner" then
      .error (.refused "progress requires working or waiting_owner status")
    else if kind = "final" ∧ status ≠ "completed" ∧ status ≠ "failed" then
      .error (.refused "final requires completed or failed status")
    else .ok ⟨if kind = "final" then .final else .progress, status⟩

def replyDigest (body : String) : String := hexEncode (sum256 (bytesOf body))

/-- The digest the hidden operation is bound to, of `%s:%d:%s:%s:%s`. -/
def rootDigest (r : Request) (reply : Reply) (body : String) : Bytes :=
  sum256 (bytesOf
    (r.requestID ++ ":" ++ toString r.bindingRevision ++ ":" ++ reply.kind.text ++ ":" ++ reply.status ++ ":" ++ body))

namespace Service

variable (svc : Service)

def operationID (requestID : String) (reply : Reply) : String :=
  match reply.kind with
  | .final => requestID
  | .progress => svc.newSHA1 (requestID ++ ":" ++ reply.status)

def publication (r : Request) (reply : Reply) (body : String) : Publication where
  requestID := r.requestID
  reply := reply
  op := ⟨svc.operationID r.requestID reply, r.ownerMXID, r.accountGeneration, rootDigest r reply body⟩

/-- The part of `publish` that reaches the ledger and the Matrix port. -/
def deliver (r : Request) (reply : Reply) (body : String) : Work (Request × Answer) := do
  let pub := svc.publication r reply body
  admitGroupAgentPublication pub.op
  let before ← ExceptT.lift (ask (.transport pub (.getPrepared pub.op)))
  let out ← ExceptT.lift ((Capability.executePreparedMatrixMutation svc.ports pub.op groupAgentCapability "publish"
    ⟨r.agentMXID, r.roomID, "m.text", r.requestID, ""⟩).via (σ := CallSig) (.transport pub) fun _ answer => answer)
  match out with
  | .error e => throw (.failed e)
  | .ok receipt =>
    match reply.kind with
    | .final =>
      return ({ r with status := .published, replyEventID := receipt.eventID, replyDigest := replyDigest body },
        .published receipt.eventID before.isOk)
    | .progress => return (r, .published receipt.eventID before.isOk)

def publish (p : Params) (r : Request) : Work (Request × Answer) :=
  match p.reply with
  | .error f => throw f
  | .ok reply =>
    if svc.ports.present then svc.deliver r reply p.body else throw (.refused "durable group Agent Matrix publisher unavailable")

/-- The `switch` of the callback. -/
def operate (operation : Operation) (p : Params) (r : Request) : Work (Request × Answer) :=
  match operation with
  | .complete => ExceptT.mk (pure (p.complete r))
  | .publish => svc.publish p r
  | .other => throw (.refused "unknown private group Agent operation")

/-- The callback `invoke` of `InvokeGroupAgentCapability`. -/
def invoke (a : Account) (operation : Operation) (p : Params) (b : Binding) (r : Request) : Work (Request × Answer) := do
  if p.bindingRevision ≠ r.bindingRevision ∨ r.accountGeneration ≠ a.accountGeneration ∨
    r.ownerMXID ≠ a.ownerMXID then throw .conflict
  else if operation = .publish ∧ r.status = .published then
    if p.kind = "progress" then return (r, .cancelled true)
    else if r.replyDigest ≠ replyDigest p.body then throw .conflict
    else return (r, .published r.replyEventID true)
  else
    let valid ← a.validateGroupAgentRequest svc.splitID p.bindingRevision b r
    if valid then svc.operate operation p r
    else return ({ r with status := if r.status = .pending then .cancelled else r.status }, .cancelled false)

/-- `InvokeGroupAgentCapability` for the operations that change a request. -/
def invokeGroupAgentCapability (a : Account) (operation : Operation) (p : Params) : Work Answer := do
  if a.deprovisioned then throw .conflict
  else if !svc.canonical p.requestID ∨ p.bindingRevision ≤ 0 ∨ p.afterRequestID ≠ "" then
    throw (.refused "request_id and binding_revision are required")
  else mutateGroupAgentRequest p.requestID (svc.invoke a operation p)

def scheduled (p : Params) (b : Binding) (now : Int) : Request where
  requestID := p.requestID
  roomID := p.roomID
  eventID := "$scheduled-" ++ p.requestID
  senderMXID := p.actorMXID
  ownerMXID := b.ownerMXID
  agentMXID := b.agentMXID
  bindingRevision := b.revision
  accountGeneration := b.accountGeneration
  originServerTS := now
  body := p.body
  scheduledBy := p.actorMXID

/-- The operation `enqueue` of `InvokeGroupAgentCapability`. -/
def enqueue (a : Account) (now : Int) (p : Params) : Work Answer := do
  if a.deprovisioned then throw .conflict
  else if p.requestID = "" ∨ p.roomID = "" ∨ p.body = "" ∨ p.actorMXID = "" ∨ p.body.utf8ByteSize > groupAgentScheduledBodyMax ∨
      p.bindingRevision ≠ 0 ∨ p.status ≠ "" ∨ p.kind ≠ "" ∨ p.cursor ≠ "" ∨ p.afterTS ≠ 0 ∨ p.afterRequestID ≠ "" ∨
        p.limit ≠ 0 then
    throw (.refused "invalid scheduled group Agent request")
  else if !svc.canonical p.requestID then throw (.refused "request_id must be a canonical UUID")
  else
    match ← checked (ask (.selectBinding p.roomID)) with
    | none => throw .conflict
    | some b =>
      if !b.enabled ∨ b.ownerMXID ≠ a.ownerMXID ∨ b.accountGeneration ≠ a.accountGeneration then throw .conflict
      else
        let room ← checked (ask (.readRoom p.roomID))
        if !room.admits svc.splitID p.roomID b p.actorMXID then throw .conflict
        else
          let inserted ← enqueueGroupAgentRequest (scheduled p b now)
          return .enqueued (!inserted)

end Service

/-! ## The system -/

inductive Task
  | change (roomID : String) (change : Change)
  | queue (r : Request)
  | enqueue (a : Account) (now : Int) (p : Params)
  | invoke (a : Account) (operation : Operation) (p : Params)
  | cancel (roomID sender eventID : String)
  | store (c : StoreCall)
  | foreign (c : HandlerCall)
  | contextDone (t : Nat)

def respond (work : Work Answer) : Prog CallSig Unit := do
  match ← work.run with
  | .ok answer => ask (.respond answer)
  | .error f => ask (.respond (.failed f))

def Service.entry (svc : Service) : Task → Prog CallSig Unit
  | .change roomID change => respond do
    mutateGroupAgentBinding roomID change
    return .done
  | .queue r => respond do
    let _ ← enqueueGroupAgentRequest r
    return .done
  | .enqueue a now p => respond (svc.enqueue a now p)
  | .invoke a operation p => respond (svc.invokeGroupAgentCapability a operation p)
  | .cancel roomID sender eventID => respond do
    checked (ask (.cancelRequests roomID sender eventID))
    return .done
  | .store c => do
    let _ ← ask (.store c)
  | .foreign c => do
    let _ ← ask (.foreign c)
  | .contextDone t => ask (.contextDone t)

/-- The tables, which call has which binding and which request locked, and whose transaction is gone. -/
structure World where
  tables : Tables
  holder : String → Option Nat
  keeper : String → Option Nat
  gone : Nat → Bool
  store : Capability.Tables

namespace World

def init : World := ⟨.empty, fun _ => none, fun _ => none, fun _ => false, .empty⟩

def lockBinding (w : World) (t : Nat) (roomID : String) : World := { w with holder := Function.update w.holder roomID (some t) }

def lockRequest (w : World) (t : Nat) (requestID : String) : World :=
  { w with keeper := Function.update w.keeper requestID (some t) }

def release (w : World) (t : Nat) : World :=
  { w with
    holder := fun roomID => if w.holder roomID = some t then none else w.holder roomID
    keeper := fun requestID => if w.keeper requestID = some t then none else w.keeper requestID }

end World

/-- The row `AdmitGroupAgentPublication` inserts. -/
def hiddenRow (op : OperationContext) : OperationRow where
  capability := groupAgentCapability
  operation := "publish"
  ownerID := op.ownerID
  generation := op.generation
  rootDigest := op.rootDigest
  digest := op.rootDigest
  state := .running
  resultJSON := none
  errorCode := ""
  errorMessage := ""
  revision := 1

/-- Its `INSERT … ON CONFLICT DO NOTHING`. -/
def admitted (T : Capability.Tables) (op : OperationContext) : Option Capability.Tables :=
  if (hiddenRow op).checks op.operationID then
    some (if (T.row op.operationID).isSome then T else T.setSlot op.operationID ⟨some (hiddenRow op), []⟩)
  else none

/-- The second `UPDATE` of `MutateGroupAgentRequest`: the operations whose event was sent for the request. -/
def completed (T : Capability.Tables) (requestID : String) : Capability.Tables :=
  { T with
    ledger := fun id =>
      match (T.ledger id).row, T.staged id with
      | some row, some st =>
        if row.capability = groupAgentCapability ∧ st.event.logicalID = requestID ∧ st.event.state = .sent then
          { T.ledger id with row := some { row with state := .completed } }
        else T.ledger id
      | _, _ => T.ledger id }

/-- A statement that answers what it reads, or fails. -/
def Reads {α : Type} (w : World) (a : α) (r : Except Error α) (w' : World) : Prop := w' = w ∧ (r = .ok a ∨ ∃ e, r = .error e)

/-- `SELECT … FOR UPDATE` of a row that may be missing; what another transaction has is waited for. -/
def Locks {α : Type} (w : World) (row : Option α) (holder : Option Nat) (locked : World) (r : Except Error (Option α))
    (w' : World) : Prop :=
  (∃ a, row = some a ∧ holder = none ∧ r = .ok (some a) ∧ w' = locked) ∨ (row = none ∧ r = .ok none ∧ w' = w) ∨
    (∃ e, r = .error e) ∧ w' = w

/-- The outcomes of a statement that writes: it is done, it is done and nobody learns of it, or it fails and
the world is `back`. -/
inductive Writes {α : Type} (done : Option (α × World)) (back : World) : Except Error α → World → Prop
  | done {a w'} (h : done = some (a, w')) : Writes done back (.ok a) w'
  | unacknowledged {a w' e} (h : done = some (a, w')) : Writes done back (.error e) w'
  | failed {e} : Writes done back (.error e) back

def World.commits {α : Type} (w : World) (t : Nat) (a : α) (tables : Option Tables) (store : Capability.Tables) :
    Option (α × World) :=
  tables.map fun t' => (a, { w with tables := t', store := store }.release t)

def World.waits (w : World) (t : Nat) (p : Request → Bool) : Prop :=
  ∀ requestID u r, w.keeper requestID = some u → u ≠ t → w.tables.requests.find requestID = some r → p r = false

/-- Whether a statement of the call's own transaction has failed; `none` for what is not one. -/
def Call.failed : (c : Call) → c.Ans → Option Bool
  | .selectRoom _, r | .insertBinding _, r | .lockBinding _, r | .lockBindingFor _, r | .lockRequest _, r | .selectExists _, r
  | .selectCount _, r | .insertRequest _, r | .commitBinding _ _, r | .commitRequest _, r => some !r.isOk
  | _, _ => none

def perform (svc : Service) (t : Nat) : (c : Call) → World → c.Ans → World → Prop
  | .selectBinding roomID, w, r, w' => Reads w (w.tables.bindings roomID) r w'
  | .selectRoom requestID, w, r, w' => Reads w ((w.tables.requests.find requestID).map Request.roomID) r w'
  | .insertBinding roomID, w, r, w' =>
    w.holder roomID = none ∧ r = .ok (w.tables.binding roomID) ∧ w' = w.lockBinding t roomID ∨ (∃ e, r = .error e) ∧ w' = w
  | .lockBinding roomID, w, r, w' => Locks w (w.tables.bindings roomID) (w.holder roomID) (w.lockBinding t roomID) r w'
  | .lockBindingFor request, w, r, w' =>
    Locks w (w.tables.bindings request.roomID) (w.holder request.roomID) (w.lockBinding t request.roomID) r w'
  | .lockRequest requestID, w, r, w' =>
    Locks w (w.tables.requests.find requestID) (w.keeper requestID) (w.lockRequest t requestID) r w'
  | .selectExists request, w, r, w' => Reads w (w.tables.known request) r w'
  | .selectCount roomID, w, r, w' => Reads w (w.tables.pending roomID) r w'
  | .insertRequest request, w, r, w' =>
    Writes (w.commits t (!w.tables.known request) ((Txn.enqueue .counted request).commit w.tables) w.store) (w.release t) r w'
  | .commitBinding roomID b, w, r, w' =>
    w.waits t (revoked roomID b) ∧ Writes (w.commits t () ((Txn.binding roomID b).commit w.tables) w.store) (w.release t) r w'
  | .commitRequest request, w, r, w' =>
    Writes (w.commits t () ((Txn.request request).commit w.tables) (completed w.store request.requestID)) (w.release t) r w'
  | .rollback, w, _, w' => w' = w.release t
  | .cancelRequests roomID sender eventID, w, r, w' =>
    w.waits t (cancels roomID sender eventID) ∧
      Writes (some ((), { w with tables := w.tables.update (cancels roomID sender eventID) .cancelled none })) w r w'
  | .readRoom _, w, _, w' | .readMessage _ _, w, _, w' | .respond _, w, _, w' => w' = w
  | .insertOperation op, w, r, w' => Writes ((admitted w.store op).map fun T => ((), { w with store := T })) w r w'
  | .selectOperation operationID, w, r, w' => Reads w (w.store.row operationID) r w'
  | .transport _ c, w, r, w' | .foreign c, w, r, w' => ∃ T, Capability.pgHandle svc.pg c w.store r T ∧ w' = { w with store := T }
  | .store c, w, r, w' =>
    -- the capability server deletes a staged event only once its operation is over
    (∀ id, c = .deletePrepared id → ∃ row, w.store.row id = some row ∧ row.state.terminal = true) ∧
      ∃ T, Capability.pgCall svc.pg c w.store r T ∧ w' = { w with store := T }
  | .contextDone u, w, _, w' => w' = { w.release u with gone := Function.update w.gone u true }

def exec (svc : Service) (t : Nat) (c : Call) (w : World) (r : c.Ans) (w' : World) : Prop :=
  if w.gone t = true ∧ c.failed r ≠ none then c.failed r = some true ∧ w' = w else perform svc t c w r w'

theorem exec.performed (h : exec svc t c w r w') (hr : c.failed r ≠ some true) : perform svc t c w r w' := by
  unfold exec at h
  split at h
  · exact absurd h.1 hr
  · exact h

/-- The system in which every call of a thread and its answer meet a condition where it is made. -/
def machine (svc : Service) (cond : Nat → (c : Call) → c.Ans → World → Prop) : Machine CallSig Task World where
  entry := svc.entry
  exec t _ c w r w' := exec svc t c w r w' ∧ cond t c r w
  crash w w' := ∃ T, Capability.pgRestart w.store T ∧ w' = { w with holder := fun _ => none, keeper := fun _ => none, store := T }

/-! ## Computed runs -/

section

variable (tx : Except Error (Unit × Capability.Tables)) (T : Capability.Tables)

/-- A transaction on the capability tables that commits unless it is refused. -/
def ended : Except Error Unit × Capability.Tables :=
  match tx with
  | .ok (_, T') => (.ok (), T')
  | .error e => (.error e, T)

theorem ended_commits : Capability.Commits tx T (ended tx T).1 (ended tx T).2 := by
  cases tx with
  | ok out => exact .done rfl
  | error e => exact .refused rfl

end

/-- What the Matrix port and the prepared store answer when nothing fails. -/
def handled (pg : Platform) (T : Capability.Tables) : (c : HandlerCall) → c.Ans × Capability.Tables
  | .getPrepared op => (Capability.getMatrixPreparedEvent pg op (T.staged op.operationID), T)
  | .prepareEvent e => ended (T.prepare pg e) T
  | .markSent op receipt => ended (T.markSent op receipt) T
  | .prepareMessage _ => (.ok Capability.sampleMessage, T)
  | .sendPrepared m => (.ok ⟨m.eventID, m.originServerTS⟩, T)
  | c => (Capability.defaultAnswer c, T)

theorem handled_exec (pg : Platform) (T : Capability.Tables) (c : HandlerCall) :
    Capability.pgHandle pg c T (handled pg T c).1 (handled pg T c).2 := by
  cases c with
  | getPrepared op =>
    have hread : handled pg T (.getPrepared op) = (Capability.getMatrixPreparedEvent pg op (T.staged op.operationID), T) := rfl
    rw [hread]
    exact ⟨rfl, .inl rfl⟩
  | prepareEvent | markSent => exact ended_commits _ _
  | _ => rfl

def written {α : Type} (done : Option (α × World)) (back : World) : Except Error α × World :=
  match done with
  | some (a, w') => (.ok a, w')
  | none => (.error (Err.new "violates check constraint"), back)

theorem written_exec (done : Option (α × World)) (back : World) :
    Writes done back (written done back).1 (written done back).2 := by
  unfold written
  split
  · exact .done rfl
  · exact .failed

def locked {α : Type} (row : Option α) (w held : World) : Except Error (Option α) × World :=
  match row with
  | some a => (.ok (some a), held)
  | none => (.ok none, w)

theorem locked_exec (hfree : holder = none) (row : Option α) (w held : World) :
    Locks w row holder held (locked row w held).1 (locked row w held).2 := by
  cases row with
  | none => exact .inr (.inl ⟨rfl, rfl, rfl⟩)
  | some a => exact .inl ⟨a, rfl, hfree, rfl, rfl⟩

/-- What a call is answered when nothing fails, with one room and one message to read. -/
def Call.reply (svc : Service) (room : Room) (message : Message) (t : Nat) : (c : Call) → World → c.Ans × World
  | .selectBinding roomID, w => (.ok (w.tables.bindings roomID), w)
  | .selectRoom requestID, w => (.ok ((w.tables.requests.find requestID).map Request.roomID), w)
  | .insertBinding roomID, w => (.ok (w.tables.binding roomID), w.lockBinding t roomID)
  | .lockBinding roomID, w => locked (w.tables.bindings roomID) w (w.lockBinding t roomID)
  | .lockBindingFor r, w => locked (w.tables.bindings r.roomID) w (w.lockBinding t r.roomID)
  | .lockRequest requestID, w => locked (w.tables.requests.find requestID) w (w.lockRequest t requestID)
  | .selectExists r, w => (.ok (w.tables.known r), w)
  | .selectCount roomID, w => (.ok (w.tables.pending roomID), w)
  | .insertRequest r, w =>
    written (w.commits t (!w.tables.known r) ((Txn.enqueue .counted r).commit w.tables) w.store) (w.release t)
  | .commitBinding roomID b, w => written (w.commits t () ((Txn.binding roomID b).commit w.tables) w.store) (w.release t)
  | .commitRequest r, w =>
    written (w.commits t () ((Txn.request r).commit w.tables) (completed w.store r.requestID)) (w.release t)
  | .rollback, w => ((), w.release t)
  | .cancelRequests roomID sender eventID, w =>
    (.ok (), { w with tables := w.tables.update (cancels roomID sender eventID) .cancelled none })
  | .readRoom _, w => (.ok room, w)
  | .readMessage _ _, w => (.ok message, w)
  | .insertOperation op, w => written ((admitted w.store op).map fun T => ((), { w with store := T })) w
  | .selectOperation operationID, w => (.ok (w.store.row operationID), w)
  | .transport _ c, w | .foreign c, w => ((handled svc.pg w.store c).1, { w with store := (handled svc.pg w.store c).2 })
  | .store (.start _), w | .store (.claimReplay _), w | .store (.finish _ _ _), w
  | .store (.markUncertain _ _), w | .store (.cancel _), w
  | .store (.deletePrepared _), w => (.error (Err.new "connection lost"), w)
  | .contextDone u, w => ((), { w.release u with gone := Function.update w.gone u true })
  | .respond _, w => ((), w)

/-- A call that need not wait. -/
def Call.free (t : Nat) (w : World) : Call → Bool
  | .insertBinding roomID | .lockBinding roomID => (w.holder roomID).isNone
  | .lockBindingFor r => (w.holder r.roomID).isNone
  | .lockRequest requestID => (w.keeper requestID).isNone
  | .commitBinding roomID b => w.tables.requests.rows.all fun r => !revoked roomID b r || (w.keeper r.requestID).all (· == t)
  | .cancelRequests roomID sender eventID =>
    w.tables.requests.rows.all fun r => !cancels roomID sender eventID r || (w.keeper r.requestID).all (· == t)
  | .store _ => false
  | _ => true

theorem waits_of_all {t : Nat} {w : World} {p : Request → Bool}
    (h : (w.tables.requests.rows.all fun r => !p r || (w.keeper r.requestID).all (· == t)) = true) : w.waits t p := by
  intro requestID u r hkeeper hu hr
  obtain ⟨hmem, hid⟩ := w.tables.requests.find_eq_some.mp hr
  have hall := List.all_eq_true.mp h r hmem
  rw [show r.requestID = requestID from hid, hkeeper] at hall
  simpa [hu] using hall

theorem reply_exec (hgone : w.gone t = false) (h : c.free t w = true) :
    exec svc t c w (c.reply svc room message t w).1 (c.reply svc room message t w).2 := by
  rw [exec, if_neg fun hand => by rw [hgone] at hand; cases hand.1]
  cases c with
  | selectBinding | selectRoom => exact ⟨rfl, .inl rfl⟩
  | insertBinding roomID => exact .inl ⟨Option.isNone_iff_eq_none.mp h, rfl, rfl⟩
  | lockBinding | lockBindingFor | lockRequest => exact locked_exec (Option.isNone_iff_eq_none.mp h) _ _ _
  | selectExists | selectCount => exact ⟨rfl, .inl rfl⟩
  | insertRequest r => exact written_exec _ _
  | commitBinding roomID b => exact ⟨waits_of_all h, written_exec _ _⟩
  | commitRequest r => exact written_exec _ _
  | rollback => rfl
  | cancelRequests roomID sender eventID => exact ⟨waits_of_all h, .done rfl⟩
  | readRoom | readMessage => rfl
  | insertOperation op => exact written_exec _ _
  | selectOperation operationID => exact ⟨rfl, .inl rfl⟩
  | transport pub c => exact ⟨_, handled_exec svc.pg w.store c, rfl⟩
  | store c => cases h
  | foreign c => exact ⟨_, handled_exec svc.pg w.store c, rfl⟩
  | contextDone | respond => rfl

def moves (svc : Service) (room : Room) (message : Message) (script : List (Task ⊕ Nat)) : List (Lib.Move CallSig Task World) :=
  script.map (Sum.elim .arrive fun t => .call t fun c w => c.reply svc room message t w)

section

variable (cond : Nat → (c : Call) → c.Ans → World → Prop) [∀ t c r w, Decidable (cond t c r w)]

/-- The calls that need not wait, of a transaction that is not gone, and meet the condition. -/
def clear (s : Pool CallSig Task World) : Pool.Ev CallSig Task → Bool
  | .answer t c r => !s.world.gone t && c.free t s.world && decide (cond t c r s.world)
  | _ => true

theorem moves_fair (svc : Service) (room : Room) (message : Message) (script : List (Task ⊕ Nat)) :
    ∀ move ∈ moves svc room message script, Pool.FairWhere (machine svc cond) (clear cond) move := by
  intro move hmove
  obtain ⟨next, -, rfl⟩ := List.mem_map.mp hmove
  cases next with
  | inl q => trivial
  | inr t =>
    intro s q c hclear
    simp only [clear, Bool.and_eq_true, Bool.not_eq_true', decide_eq_true_eq] at hclear
    exact ⟨reply_exec hclear.1.1 hclear.1.2, hclear.2⟩

end

def sampleService : Service := ⟨Capability.samplePlatform, ⟨true, true, true⟩, fun _ => true, fun name => "sha1 " ++ name, .plain⟩

def sampleAccount : Account := ⟨"@owner:a", 1, false⟩

def switched (enabled : Bool) : Task := .change "!r:a" (.update ⟨-1, enabled, "@owner:a", 1, true, 0, .plain⟩)

def sampleRequest : Request where
  requestID := "q"
  roomID := "!r:a"
  eventID := "$e"
  senderMXID := "@m:a"
  ownerMXID := "@owner:a"
  agentMXID := "@ying:a"
  bindingRevision := 1
  accountGeneration := 1
  originServerTS := 0

def sampleRoom : Room :=
  ⟨true, false, "@owner:a", ["@owner:a", "@ying:a", "@m:a"], some ⟨"!r:a", true, 1, "@owner:a", "@ying:a", "all_joined"⟩⟩

def sampleMessage : Message := ⟨"!r:a", "$e", "@m:a", "hi", false⟩

def sampleReply : Params := { requestID := "q", bindingRevision := 1, body := "yes" }

def samplePublish : Task := .invoke sampleAccount .publish sampleReply

def sampleMoves (script : List (Task ⊕ Nat)) : List (Lib.Move CallSig Task World) :=
  moves sampleService sampleRoom sampleMessage script

def sampleScript : List (Task ⊕ Nat) :=
  [.inl (switched true), .inr 0, .inr 0, .inl (.queue sampleRequest), .inr 1, .inr 1, .inr 1, .inr 1]

end Dirextalk.GroupAgent

/-
  Dirextalk.Capability.System — the capability server as a pool of threads: any number of
  `StartOperation` and `CancelOperation` calls over one operation store, one store or
  port call at a time in any order, and restarts of the process.

  The store is a `Backend`; `Backend.Lawful` says what the executor may assume of it, in
  terms of the view each store has of its rows. Beside it the world keeps what no code
  reads: which thread an operation's execution belongs to (`holder`), which threads are
  inside a handler for it (`active`), and the history of what happened. `tainted` in the
  history marks an answer that left an execution no way to report anything but failure
  although the operation's event may have been accepted (`HandlerCall.clean`).
-/
import Dirextalk.Capability.Handlers

namespace Dirextalk.Capability

open Lib Lib.Go
open Function (update)

/-! ## The calls of the server -/

inductive StoreCall where
  | start (record : OperationRecord)
  | claimReplay (id : String)
  | finish (id : String) (result : String) (err : Option CapabilityError)
  | markUncertain (id : String) (err : Option CapabilityError)
  | cancel (id : String)
  | deletePrepared (id : String)

/-- `finish` answers whether it made the row terminal, which decides on the cleanup. -/
@[reducible] def StoreCall.Ans : StoreCall → Type
  | .start _ => Except Error OperationRecord
  | .claimReplay _ | .finish _ _ _ => Except Error Bool
  | .markUncertain _ _ | .cancel _ | .deletePrepared _ => Except Error Unit

/-- `enter` and `leave` mark the two ends of a handler's execution. -/
inductive SysCall where
  | wrapInput (id operation requestJSON : String)
  | enter (id : String)
  | leave (id : String)
  | store (c : StoreCall)
  | handler (ctx : OperationContext) (c : HandlerCall)

@[reducible] def SysCall.Ans : SysCall → Type
  | .wrapInput _ _ _ => Except Error String
  | .enter _ | .leave _ => Unit
  | .store c => c.Ans
  | .handler _ c => c.Ans

abbrev SysSig : Sig := ⟨SysCall, SysCall.Ans⟩

abbrev Sys (α : Type) := Prog SysSig α

def sys (c : SysCall) : Sys c.Ans := Prog.ask (σ := SysSig) c

/-- A handler's calls, made under its operation context. -/
def under {α : Type} (ctx : OperationContext) (p : Handler α) : Sys α :=
  p.via (σ := SysSig) (SysCall.handler ctx) fun _ r => r

/-! ## The programs of the server -/

/-- A validated `StartOperation` request: the operation id is not blank and the root digest has the length of a
SHA-256 sum. -/
structure StartRequest where
  operationID : String
  capabilityID : String
  operation : String
  ownerID : String
  generation : Int
  rootDigest : Bytes
  digest : Bytes
  requestJSON : String
  id_valid : blank operationID = false
  digest_valid : rootDigest.length = 32

def StartRequest.record (req : StartRequest) : OperationRecord where
  id := req.operationID
  capability := req.capabilityID
  operation := req.operation
  ownerID := req.ownerID
  generation := req.generation
  rootDigest := req.rootDigest
  digest := req.digest
  state := .pending
  result := ""
  err := none
  revision := 0
  created := false

def OperationRecord.context (r : OperationRecord) : OperationContext :=
  ⟨r.id, r.ownerID, r.generation, r.rootDigest⟩

def finishOperation (id result : String) (err : Option CapabilityError) : Sys Unit := do
  match ← sys (.store (.finish id result err)) with
  | .ok true =>
    let _ ← sys (.store (.deletePrepared id))
    return ()
  | _ => return ()

def executeOperation (provider : Provider) (record : OperationRecord) (operation requestJSON : String) : Sys Unit := do
  match ← sys (.wrapInput record.id operation requestJSON) with
  | .error e => finishOperation record.id "" (some ⟨.invalidArgument, e.text⟩)
  | .ok wrapped =>
    let _ ← sys (.enter record.id)
    let out ← under record.context (provider record.context wrapped)
    let _ ← sys (.leave record.id)
    match out with
    | .error e =>
      if e.is .matrixEventUnknown then
        let _ ← sys (.store (.markUncertain record.id (some ⟨.upstreamFailed, capabilityInvokeErrorMessage e⟩)))
        return ()
      else finishOperation record.id "" (some ⟨.upstreamFailed, capabilityInvokeErrorMessage e⟩)
    | .ok result => finishOperation record.id result none

/-- `StartOperation` from the provider lookup on; the execution it starts in the background is the
rest of the same thread. -/
def startOperation (registry : Registry) (req : StartRequest) : Sys Unit :=
  match registry req.capabilityID req.operation with
  | none => return ()
  | some provider => do
    match ← sys (.store (.start req.record)) with
    | .error _ => return ()
    | .ok existing =>
      if !existing.created then
        if isPreparedMatrixMutation req.capabilityID req.operation && existing.state == .uncertain then
          match ← sys (.store (.claimReplay existing.id)) with
          | .ok true => executeOperation provider existing req.operation req.requestJSON
          | _ => return ()
        else return ()
      else if existing.state != .pending then return ()
      else executeOperation provider existing req.operation req.requestJSON

def cancelOperation (id : String) : Sys Unit := do
  match ← sys (.store (.cancel id)) with
  | .error _ => return ()
  | .ok () =>
    let _ ← sys (.store (.deletePrepared id))
    return ()

inductive Request where
  | start (req : StartRequest)
  | cancel (id : String)

/-! ## The world -/

structure OpKey where
  capability : String
  operation : String
  ownerID : String
  generation : Int
  digest : Bytes

structure OpView where
  key : OpKey
  state : OperationState
  revision : Nat

/-- An operation store: what its calls and those of the handlers may answer and write, what a restart finds, and the
view in which the ledger is read. -/
structure Backend where
  Store : Type
  init : Store
  view : Store → String → Option OpView
  call : (c : StoreCall) → Store → c.Ans → Store → Prop
  handle : OperationContext → (c : HandlerCall) → Store → c.Ans → Store → Prop
  restart : Store → Store → Prop

inductive Act where
  | created (t : Nat) (id : String)
  /-- The row was created but the commit was not acknowledged to the caller. -/
  | unacknowledged (id : String)
  | claimed (t : Nat) (id : String)
  | began (t : Nat) (id : String)
  | ended (t : Nat) (id : String)
  | sent (id : String) (message : PreparedMessage) (answer : Except Error SendMessageResult)
  | receipt (id : String) (result : SendMessageResult)
  | returned (id : String) (value : ResultValue)
  | tainted (id : String)

structure World (B : Backend) where
  store : B.Store
  holder : String → Option Nat
  active : String → List Nat
  history : List Act

def World.init (B : Backend) : World B := ⟨B.init, fun _ => none, fun _ => [], []⟩

/-- Whether an answer of `SendPreparedMessage` leaves it open that the event was accepted. -/
def unrejected : Except Error SendMessageResult → Bool
  | .ok _ => true
  | .error e => !e.is .matrixEventRejected

def Act.opensDoubt (id : String) : Act → Bool
  | .sent i _ answer => i == id && unrejected answer
  | _ => false

/-- `SendPreparedMessage` was called for the operation and did not answer with a rejection. -/
def mayBeAccepted (history : List Act) (id : String) : Bool := history.any (Act.opensDoubt id)

def isOk {ε α : Type} : Except ε α → Bool
  | .ok _ => true
  | .error _ => false

/-- The answers after which a handler goes on; each of the others makes it return an error. -/
def HandlerCall.clean : (c : HandlerCall) → c.Ans → Bool
  | .decodeInput capability _, (.ok (operation, params) : Except Error _) =>
    match registeredAction capability operation with
    | some .messagesSend =>
      !blank (params.text "room_id") && !(blank (params.text "msg") && blank (params.text "text"))
    | some .channelCommentsCreate =>
      !blank (params.text "post_id") && !(blank (params.text "msg") && blank (params.text "body"))
    | none => false
  | .decodeInput _ _, (.error _ : Except Error _) => false
  | .encodeResult _, r => isOk (r : Except Error _)
  | .accountDeprovisioned, r | .roomBlocked _, r => !(r : Bool)
  | .matrixWired, r | .preparedWired, r => (r : Bool)
  | .requireJoinedRoom _, r | .requireMatrixJoinedUser _ _, r | .contentJoined _, r => (r : Option StatusError).isNone
  | .sendMessage _, r => isOk (r : Except Error _)
  | .contentOwner, owner => !blank (owner : ContentOwner).agentMXID
  | .postByID .forRoom _ _, (.ok (some _) : Except Error _) => true
  | .postByID .forComment _ _, (.ok (some post) : Except Error _) => post.commentsEnabled
  | .postByID _ _ _, (_ : Except Error (Option Post)) => false
  | .channelByID _, r => isOk (r : Except Error _)
  | .existingComment comment, (.ok (some existing) : Except Error _) => existing.eventID == comment.eventID
  | .existingComment _, (_ : Except Error (Option Comment)) => false
  | .commentOperation _, r | .prepareEvent _, r => isOk (r : Except Error _)
  | .getPrepared _, (.ok _ : Except Error _) => true
  | .getPrepared _, (.error e : Except Error _) => e.is .sqlNoRows
  | .prepareMessage _, (.ok prepared : Except Error _) => isOk (validatePreparedMessage prepared)
  | .prepareMessage _, (.error _ : Except Error _) => false
  | .eventStatus _, (.ok .accepted : Except Error _) | .eventStatus _, (.ok .unknown : Except Error _) => true
  | .eventStatus _, (_ : Except Error Disposition) => false
  | .eventExists .underUnknown _ _, (.ok false : Except Error _) => true
  | .eventExists .underUnknown _ _, (_ : Except Error Bool) => false
  | .eventExists .beforeSend _ _, r => isOk (r : Except Error _)
  | .sendPrepared message, (.ok result : Except Error _) => isOk (validatePreparedReceipt message result)
  | .sendPrepared _, (.error _ : Except Error _) => false
  | .identity, _ | .clock, _ | .commentToken, _ | .newEventID _, _ | .insertComment _, _
  | .markSent _ _, _ | .mutated _, _ => true

/-- What the history keeps of a handler's call. -/
def HandlerCall.acts (id : String) : (c : HandlerCall) → c.Ans → List Act
  | .sendPrepared message, answer => [.sent id message answer]
  | .mutated (.ok result), _ => [.receipt id result]
  | .encodeResult value, (.ok _ : Except Error _) => [.returned id value]
  | _, _ => []

def taint (history : List Act) (id : String) (clean : Bool) : List Act :=
  if mayBeAccepted history id && !clean then [.tainted id] else []

namespace World

variable {B : Backend}

def afterStore (w : World B) (t : Nat) (st : B.Store) : (c : StoreCall) → c.Ans → World B
  | .start record, (.ok existing : Except Error _) =>
    if existing.created then
      { w with store := st, holder := update w.holder record.id (some t),
               history := w.history ++ [.created t record.id] }
    else { w with store := st }
  | .start record, (.error _ : Except Error OperationRecord) =>
    if (B.view w.store record.id).isNone && (B.view st record.id).isSome then
      { w with store := st, history := w.history ++ [.unacknowledged record.id] }
    else { w with store := st }
  | .claimReplay id, (.ok true : Except Error _) =>
    { w with store := st, holder := update w.holder id (some t), history := w.history ++ [.claimed t id] }
  | .claimReplay _, (_ : Except Error Bool) => { w with store := st }
  -- the execution is over with the call that settles it, whatever that call answers
  | .finish id _ _, _ | .markUncertain id _, _ =>
    { w with store := st, holder := update w.holder id none }
  | .cancel _, _ | .deletePrepared _, _ => { w with store := st }

def afterHandler (w : World B) (st : B.Store) (ctx : OperationContext) (c : HandlerCall) (r : c.Ans) : World B :=
  let history := w.history ++ c.acts ctx.operationID r
  { w with store := st, history := history ++ taint history ctx.operationID (c.clean r) }

inductive Exec (B : Backend) (t : Nat) : (c : SysCall) → World B → c.Ans → World B → Prop where
  | wrapInput {w : World B} {id operation requestJSON : String} (r : Except Error String) :
      Exec B t (.wrapInput id operation requestJSON) w r
        { w with history := w.history ++ taint w.history id (isOk r) }
  | enter {w : World B} {id : String} : Exec B t (.enter id) w ()
        { w with active := update w.active id (t :: w.active id), history := w.history ++ [.began t id] }
  | leave {w : World B} {id : String} : Exec B t (.leave id) w ()
        { w with active := update w.active id ((w.active id).erase t), history := w.history ++ [.ended t id] }
  | store {w : World B} {c : StoreCall} {r : c.Ans} {st : B.Store} (h : B.call c w.store r st) :
      Exec B t (.store c) w r (w.afterStore t st c r)
  | handler {w : World B} {ctx : OperationContext} {c : HandlerCall} {r : c.Ans} {st : B.Store}
      (h : B.handle ctx c w.store r st) : Exec B t (.handler ctx c) w r (w.afterHandler st ctx c r)

/-- The process dies: nothing runs and nothing is held any more. -/
def Restart (w w' : World B) : Prop :=
  ∃ st, B.restart w.store st ∧ w' = { w with store := st, holder := fun _ => none, active := fun _ => [] }

end World

/-- The capability server over a backend and a registry of providers. -/
def server (B : Backend) (registry : Registry) : Machine SysSig Request (World B) where
  entry
    | .start req => startOperation registry req
    | .cancel id => cancelOperation id
  exec t _ c w r w' := World.Exec B t c w r w'
  crash := World.Restart

abbrev Server (B : Backend) := Pool SysSig Request (World B)

abbrev ServerRunFrom (B : Backend) (registry : Registry) (s : Server B) := Run (Pool.Step (server B registry)) s

abbrev ServerRun (B : Backend) (registry : Registry) := ServerRunFrom B registry (Pool.start (World.init B))

theorem ServerRun.start (B : Backend) (registry : Registry) : ServerRun B registry [] (Pool.start (World.init B)) :=
  .nil _

namespace ServerRunFrom

variable {B : Backend} {registry : Registry} {es : List (Pool.Ev SysSig Request)} {s₀ s : Server B}
variable (h : ServerRunFrom B registry s₀ es s)
include h

theorem arrive (q : Request) : ServerRunFrom B registry s₀ (es ++ [.arrive q])
      { s with thread := update s.thread s.next (some ⟨q, (server B registry).entry q⟩), next := s.next + 1 } :=
  h.snoc (.arrive s q)

theorem answer (t : Nat)
    (hthread : s.thread t = some ⟨q, .call c k⟩) (hexec : World.Exec B t c s.world r w) :
    ServerRunFrom B registry s₀ (es ++ [.answer t c r])
      { s with world := w, thread := update s.thread t (some ⟨q, k r⟩) } :=
  h.snoc (.answer hthread hexec)

theorem handled (t : Nat) (ctx : OperationContext) (c : HandlerCall) (r : c.Ans)
    {q : Request} {k : c.Ans → Sys Unit} {st : B.Store} (hthread : s.thread t = some ⟨q, .call (.handler ctx c) k⟩)
    (hcall : B.handle ctx c s.world.store r st) :
    ServerRunFrom B registry s₀ (es ++ [.answer t (.handler ctx c) r])
      { s with world := s.world.afterHandler st ctx c r, thread := update s.thread t (some ⟨q, k r⟩) } :=
  h.answer t hthread (.handler hcall)

end ServerRunFrom

/-! ## The laws of an operation store -/

abbrev View := String → Option OpView

def OperationRecord.key (r : OperationRecord) : OpKey :=
  ⟨r.capability, r.operation, r.ownerID, r.generation, r.fenceDigest⟩

def OpView.move (o : OpView) (state : OperationState) : OpView := { o with state := state, revision := o.revision + 1 }

/-- What a store call may answer and do, in terms of the view. -/
def CallSpec : (c : StoreCall) → View → c.Ans → View → Prop
  | .start record, v, (.ok e : Except Error _), v' =>
    e.id = record.id ∧ ((e.created = true ∧ e.state = .pending ∧ v record.id = none ∧
          v' = update v record.id (some ⟨record.key, .pending, 1⟩)) ∨
        (e.created = false ∧ v' = v ∧ ∃ o, v record.id = some o ∧ o.key = record.key ∧ o.state = e.state))
  | .start record, v, (.error _ : Except Error OperationRecord), v' =>
    v' = v ∨ (v record.id = none ∧ v' = update v record.id (some ⟨record.key, .pending, 1⟩))
  | .claimReplay id, v, r, v' =>
    (r ≠ (.ok true : Except Error Bool) ∧ v' = v) ∨
      ∃ o, v id = some o ∧ o.state = .uncertain ∧ v' = update v id (some (o.move .running))
  | .finish id _ err, v, _, v' =>
    v' = v ∨ ∃ o, v id = some o ∧ o.state.terminal = false ∧
      v' = update v id (some (o.move (if err.isSome then .failed else .completed)))
  | .markUncertain id _, v, _, v' =>
    v' = v ∨ ∃ o, v id = some o ∧ o.state.terminal = false ∧ v' = update v id (some (o.move .uncertain))
  | .cancel id, v, _, v' =>
    v' = v ∨ ∃ o, v id = some o ∧ o.state ∈ [OperationState.pending, .running] ∧
      v' = update v id (some (o.move .cancelled))
  | .deletePrepared _, v, _, v' => v' = v

/-- A restart leaves an operation alone or fences it as uncertain. -/
def RestartSpec (before after : Option OpView) : Prop :=
  after = before ∨ ∃ o, before = some o ∧ o.state ∈ [OperationState.pending, .running] ∧ after = some (o.move .uncertain)

structure Backend.Lawful (B : Backend) (Ok : B.Store → Prop) : Prop where
  init : Ok B.init ∧ ∀ id, B.view B.init id = none
  call : ∀ {c s r s'}, Ok s → B.call c s r s' → Ok s' ∧ CallSpec c (B.view s) r (B.view s')
  /-- A `start` that repeats an id with another key is refused and writes nothing. -/
  conflict : ∀ {record s r s' o}, B.call (.start record) s r s' → B.view s record.id = some o →
    o.key ≠ record.key → s' = s ∧ ∃ e, r = .error e
  handle : ∀ {ctx c s r s'}, Ok s → B.handle ctx c s r s' → Ok s' ∧ B.view s' = B.view s
  restart : ∀ {s s'}, Ok s → B.restart s s' → Ok s' ∧ ∀ id, RestartSpec (B.view s id) (B.view s' id)

end Dirextalk.Capability

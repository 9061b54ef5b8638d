/-
  Dirextalk.Sync.Consumer — the sync server's consumer of the roomserver's output log
  (`syncapi/consumers/roomserver.go`: `onMessage`, `onNewRoomEvent`, `onOldRoomEvent`,
  `onRedactEvent`; `syncapi/storage/shared/storage_consumer.go`: `WriteEvent`;
  `setup/jetstream/helpers.go`: `jetStreamConsumerWorker`).

  A message of the log is handed to `onMessage`. If that returns true the worker
  acknowledges it with the consumer's context, otherwise it is delivered again; a panic
  ends the process. An event is written in one transaction: the event, its topological
  position, the backward extremities and the state that it adds and removes.

  The handler is a program whose calls are the statements of the transaction and the other
  calls of the database and the roomserver, each answered with an error at any time. The
  consumer's context may end before any call.
-/
import Dirextalk.Lib.Go
import Dirextalk.Lib.Trace

namespace Dirextalk.Sync

open Lib Lib.Go

/-! ## Events and messages -/

structure Event where
  eventID : String
  roomID : String
  type : String
  stateKey : Option String
  senderID : String
  redacts : String
  prevEventIDs : List String
  depth : Int
  /-- `StateKeyResolved` -/
  stateKeyResolved : Option String
  /-- the membership of the content, if that decodes -/
  membership : String
  deriving DecidableEq, Repr

structure OutputNewRoomEvent where
  event : Event
  addsStateEventIDs : List String
  removesStateEventIDs : List String
  rewritesState : Bool

inductive Message where
  /-- The text does not parse. -/
  | malformed
  | newRoomEvent (msg : OutputNewRoomEvent)
  | oldRoomEvent (event : Event)
  | redactedEvent (redactedEventID : String) (redactedBecause : Event)

inductive Sentinel where
  | canceled
  | deadlineExceeded
  | connDone
  | txDone
  /-- `base64.CorruptInputError` -/
  | corruptInput
  deriving DecidableEq, Repr

abbrev Error := Err Sentinel

/-! ## The tables -/

structure OutputRow where
  id : Int
  eventID : String
  addStateIDs : List String
  removeStateIDs : List String
  excludeFromSync : Bool

structure TopologyRow where
  eventID : String
  topologicalPosition : Int
  roomID : String
  streamPosition : Int

structure BackwardExtremity where
  roomID : String
  eventID : String
  prevEventID : String
  deriving DecidableEq, Repr

structure StateRow where
  roomID : String
  type : String
  stateKey : String
  eventID : String
  addedAt : Int

structure MembershipRow where
  roomID : String
  userID : String
  membership : String
  eventID : String
  streamPos : Int
  topologicalPos : Int

structure Tables where
  outputEvents : List OutputRow
  topology : List TopologyRow
  backwardExtremities : List BackwardExtremity
  currentRoomState : List StateRow
  memberships : List MembershipRow

/-- `INSERT … ON CONFLICT (the columns of `same`) DO UPDATE`. -/
def upsert {α : Type} (same : α → Bool) (update : α → α) (row : α) (rows : List α) : List α :=
  if rows.any same then rows.map fun old => if same old then update old else old else rows ++ [row]

namespace Tables

def empty : Tables := ⟨[], [], [], [], []⟩

/-- An event that is there already keeps its row but for the flag. -/
def insertEvent (ev : Event) (adds removes : List String) (excludeFromSync : Bool) (pos : Int) (t : Tables) : Tables :=
  { t with
    outputEvents := upsert (·.eventID = ev.eventID) (fun row => { row with excludeFromSync := excludeFromSync })
      ⟨pos, ev.eventID, adds, removes, excludeFromSync⟩ t.outputEvents }

def insertEventInTopology (ev : Event) (pos : Int) (t : Tables) : Tables :=
  { t with
    topology := upsert (fun row => row.topologicalPosition = ev.depth ∧ row.streamPosition = pos ∧ row.roomID = ev.roomID)
      (fun row => { row with eventID := ev.eventID }) ⟨ev.eventID, ev.depth, ev.roomID, pos⟩ t.topology }

def deleteBackwardExtremity (roomID knownEventID : String) (t : Tables) : Tables :=
  { t with
    backwardExtremities := t.backwardExtremities.filter fun row => !(row.roomID == roomID && row.prevEventID == knownEventID) }

def hasEvent (t : Tables) (eventID : String) : Bool := t.outputEvents.any (·.eventID == eventID)

def insertsBackwardExtremity (roomID eventID prevEventID : String) (t : Tables) : Tables :=
  { t with
    backwardExtremities :=
      upsert (· = ⟨roomID, eventID, prevEventID⟩) id ⟨roomID, eventID, prevEventID⟩ t.backwardExtremities }

def deleteRoomStateByEventID (eventID : String) (t : Tables) : Tables :=
  { t with currentRoomState := t.currentRoomState.filter (·.eventID != eventID) }

def deleteRoomStateForRoom (roomID : String) (t : Tables) : Tables :=
  { t with currentRoomState := t.currentRoomState.filter (·.roomID != roomID) }

def upsertMembership (ev : Event) (userID membership : String) (pos topo : Int) (t : Tables) : Tables :=
  { t with
    memberships := upsert (fun row => row.roomID = ev.roomID ∧ row.userID = userID ∧ row.membership = membership)
      (fun row => { row with eventID := ev.eventID, streamPos := pos, topologicalPos := topo })
      ⟨ev.roomID, userID, membership, ev.eventID, pos, topo⟩ t.memberships }

def upsertRoomState (ev : Event) (stateKey : String) (addedAt : Int) (t : Tables) : Tables :=
  { t with
    currentRoomState := upsert (fun row => row.roomID = ev.roomID ∧ row.type = ev.type ∧ row.stateKey = stateKey)
      (fun row => { row with eventID := ev.eventID, addedAt := addedAt })
        ⟨ev.roomID, ev.type, stateKey, ev.eventID, addedAt⟩ t.currentRoomState }

end Tables

/-! ## Calls -/

inductive Statement where
  | insertEvent (ev : Event) (adds removes : List String) (excludeFromSync : Bool)
  | insertEventInTopology (ev : Event) (pos : Int)
  | deleteBackwardExtremity (roomID eventID : String)
  | selectEvents (eventIDs : List String)
  | insertsBackwardExtremity (roomID eventID prevEventID : String)
  | deleteRoomStateByEventID (eventID : String)
  /-- `event.Membership()`, of the event's content -/
  | membership (ev : Event)
  | upsertMembership (ev : Event) (userID membership : String) (pos topo : Int)
  | upsertRoomState (ev : Event) (stateKey : String) (addedAt : Int)

@[reducible] def Statement.Ans : Statement → Type
  | .insertEvent _ _ _ _ | .insertEventInTopology _ _ => Int
  | .selectEvents _ => List String
  | .membership _ => String
  | _ => Unit

inductive Query where
  | events (eventIDs : List String)
  | queryEventsByID (roomID : String) (eventIDs : List String)
  | newDatabaseSnapshot
  | getStateEvent (roomID type stateKey : String)
  | queryUserIDForSender (roomID senderID : String)
  | setUnsigned (ev : Event) (prevEventID : String)
  | membership (ev : Event)
  | writeFTS (ev : Event) (pos : Int)
  | deletePeeks (roomID stateKey : String)
  | updateRelations (ev : Event)
  | redactEvent (redactedEventID : String) (redactedBecause : Event)
  | redactRelations (roomID redactedEventID : String)
  | produceRoomEvents

@[reducible] def Query.Ans : Query → Type
  | .events _ | .queryEventsByID _ _ => List Event
  | .getStateEvent _ _ _ => Option String
  | .queryUserIDForSender _ _ => Option String
  | .membership _ => String
  | .deletePeeks _ _ => Int
  | _ => Unit

inductive Call where
  | query (q : Query)
  | purgeRoomState (roomID : String)
  | begin
  | statement (s : Statement)
  | commit
  | rollback
  /-- `ctx.Err() != nil` -/
  | ended
  /-- `msg.AckSync(nats.Context(ctx))` -/
  | ackSync

@[reducible] def Call.Ans : Call → Type
  | .query q => Except Error q.Ans
  | .statement s => Except Error s.Ans
  | .ended => Bool
  | _ => Except Error Unit

abbrev SyncSig : Sig := ⟨Call, Call.Ans⟩

inductive Stop where
  | error (e : Error)
  | panicked

abbrev Work := ExceptT Stop (Prog SyncSig)

def query (q : Query) : Work q.Ans := ExceptT.adapt Stop.error (ExceptT.mk (Prog.ask (σ := SyncSig) (.query q)))

def statement (s : Statement) : Work s.Ans := ExceptT.adapt Stop.error (ExceptT.mk (Prog.ask (σ := SyncSig) (.statement s)))

def purgeRoomState (roomID : String) : Work Unit :=
  ExceptT.adapt Stop.error (ExceptT.mk (Prog.ask (σ := SyncSig) (.purgeRoomState roomID)))

/-- `fmt.Errorf("context: %w", err)` around the errors of a part. -/
def wrapping {α : Type} (context : String) (p : Work α) : Work α := ExceptT.adapt (fun
  | .error e => .error (e.wrap context)
  | .panicked => .panicked) p

/-! ## The transaction of an event -/

def handleBackwardExtremities (ev : Event) : Work Unit := do
  statement (.deleteBackwardExtremity ev.roomID ev.eventID)
  let prevEvents ← statement (.selectEvents ev.prevEventIDs)
  ev.prevEventIDs.forM fun eID => do
    if eID ∈ prevEvents then pure ()
    else statement (.insertsBackwardExtremity ev.roomID ev.eventID eID)

def addMembership (pos topo : Int) (event : Event) : Work Unit := do
  if event.type ≠ "m.room.member" then return ()
  let value ← wrapping "event.Membership" (statement (.membership event))
  wrapping "d.Memberships.UpsertMembership" (statement (.upsertMembership event (event.stateKeyResolved.getD "") value pos topo))

def addRoomState (pos topo : Int) (event : Event) : Work Unit :=
  match event.stateKey with
  | none => pure ()
  | some _ => do
    addMembership pos topo event
    match event.stateKeyResolved with
    | none => throw .panicked
    | some stateKey => wrapping "d.CurrentRoomState.UpsertRoomState" (statement (.upsertRoomState event stateKey pos))

def updateRoomState (removedEventIDs : List String) (addedEvents : List Event) (pos topo : Int) : Work Unit := do
  removedEventIDs.forM fun eventID =>
    wrapping "d.CurrentRoomState.DeleteRoomStateByEventID" (statement (.deleteRoomStateByEventID eventID))
  addedEvents.forM (addRoomState pos topo)

section

variable (ev : Event) (addStateEvents : List Event) (addStateEventIDs removeStateEventIDs : List String) (excludeFromSync : Bool)

def writeStatements : Work Int := do
  let pos ← wrapping "d.OutputEvents.InsertEvent" (statement
    (.insertEvent ev addStateEventIDs removeStateEventIDs excludeFromSync))
  let topo ← wrapping "d.Topology.InsertEventInTopology" (statement (.insertEventInTopology ev pos))
  wrapping "d.handleBackwardExtremities" (handleBackwardExtremities ev)
  if addStateEvents = [] ∧ removeStateEventIDs = [] then return pos
  updateRoomState removeStateEventIDs addStateEvents pos topo
  return pos

/-- `sqlutil.WithTransaction` -/
def withTransaction {α : Type} (body : Work α) : Work α := do
  wrapping "sqlutil.WithTransaction.Begin" (ExceptT.adapt Stop.error (ExceptT.mk (Prog.ask (σ := SyncSig) .begin)))
  match ← ExceptT.lift body.run with
  | .ok a =>
    ExceptT.adapt Stop.error (ExceptT.mk (Prog.ask (σ := SyncSig) .commit))
    return a
  | .error stop =>
    let _ ← ExceptT.lift (Prog.ask (σ := SyncSig) .rollback)
    throw stop

def writeEvent : Work Int :=
  withTransaction (writeStatements ev addStateEvents addStateEventIDs removeStateEventIDs excludeFromSync)

end

/-! ## The handlers -/

/-- The first part of `consumerShutdownError`, and its last. -/
def Stopped (e : Error) : Bool :=
  e.is .canceled || e.is .deadlineExceeded || e.is .connDone || e.is .txDone || contains (toLower e.text) "database is closed"

def consumerShutdownError (e : Error) : Work Bool := do
  if e.is .canceled || e.is .deadlineExceeded || e.is .connDone || e.is .txDone then return true
  if ← ExceptT.lift (Prog.ask (σ := SyncSig) .ended) then return true
  return contains (toLower e.text) "database is closed"

/-- `*userID` -/
def dereference {α : Type} : Option α → Work α
  | none => throw .panicked
  | some a => pure a

/-- The user of a state key, if it is one's. -/
def stateKeyUser (roomID stateKey : String) : Work (Option String) := do
  if stateKey = "" then return none
  match ← ExceptT.lift (query (.queryUserIDForSender roomID stateKey)).run with
  | .ok sku => return sku
  | .error _ => return none

def updateStateEvent (event : Event) : Work Event := do
  match event.stateKey with
  | none => return { event with stateKeyResolved := none }
  | some stateKey =>
    query .newDatabaseSnapshot
    let resolved ← stateKeyUser event.roomID stateKey
    let event := { event with stateKeyResolved := some (resolved.getD stateKey) }
    let prevEvent ← query (.getStateEvent event.roomID event.type (resolved.getD ""))
    let _ ← dereference (← query (.queryUserIDForSender event.roomID event.senderID))
    match prevEvent with
    | none => return event
    | some prevEventID =>
      if prevEventID = event.eventID then return event
      query (.setUnsigned event prevEventID)
      return event

def updateStateEvents : List Event → Work (List Event)
  | [] => pure []
  | event :: rest => do
    let event ← updateStateEvent event
    let rest ← updateStateEvents rest
    return event :: rest

section

variable (isLocal : String → Bool)

def notifyJoinedPeeks (ev : Event) (pos : Int) : Work Int := do
  if ev.type ≠ "m.room.member" then return pos
  let membership ← wrapping "ev.Membership" (query (.membership ev))
  if membership ≠ "join" then return pos
  match ev.stateKey with
  | none => throw (.error (.new "unexpected nil state_key"))
  | some stateKey =>
    let userID ← wrapping "failed getting userID for sender" (query (.queryUserIDForSender ev.roomID stateKey))
    match userID with
    | none => throw (.error (.new "failed getting userID for sender: %!w(<nil>)"))
    | some userID =>
      if !isLocal userID then return pos
      let peekSP ← wrapping "s.db.DeletePeeks" (query (.deletePeeks ev.roomID stateKey))
      return if 0 < peekSP then peekSP else pos

section

variable (msg : OutputNewRoomEvent)

/-- `NeededStateEventIDs` -/
def OutputNewRoomEvent.neededStateEventIDs : List Event × List String :=
  ((msg.addsStateEventIDs.filter (· = msg.event.eventID)).map fun _ => msg.event,
    msg.addsStateEventIDs.filter (· ≠ msg.event.eventID))

/-- The events that the sync server knows. -/
def knownEvents (missing : List String) : Work (List Event) :=
  if missing = [] then pure [] else wrapping "s.db.Events" (query (.events missing))

def addedStateEvents : Work (List Event) := do
  let own := msg.neededStateEventIDs.1
  let known ← knownEvents msg.neededStateEventIDs.2
  let missing := msg.neededStateEventIDs.2.eraseDups.filter fun eventID => eventID ∉ known.map (·.eventID)
  if missing = [] then return own ++ known
  let asked ← wrapping "s.rsAPI.QueryEventsByID" (query (.queryEventsByID msg.event.roomID missing))
  match missing.find? fun eventID => eventID ∉ asked.map (·.eventID) with
  | some eventID => throw (.error (.new ("event " ++ eventID ++ " is missing")))
  | none => return own ++ known ++ asked

def notify (ev : Event) (pos : Int) : Work Unit := do
  let _ ← ExceptT.lift (query (.writeFTS ev pos)).run
  let _ ← notifyJoinedPeeks isLocal ev pos
  query (.updateRelations ev)

/-- The state of a room that is sent anew is dropped. -/
def purgeRewritten : Work Unit :=
  if msg.rewritesState then wrapping "s.db.PurgeRoom" (purgeRoomState msg.event.roomID) else pure ()

def onNewRoomEvent : Work Unit := do
  let added ← addedStateEvents msg
  let ev ← updateStateEvent msg.event
  let added ← updateStateEvents added
  purgeRewritten msg
  let _ ← dereference (← query (.queryUserIDForSender ev.roomID ev.senderID))
  match ← ExceptT.lift (writeEvent ev added msg.addsStateEventIDs msg.removesStateEventIDs false).run with
  | .ok pos => notify isLocal ev pos
  | .error (.error e) =>
    if ← consumerShutdownError e then return ()
    throw .panicked
  | .error .panicked => throw .panicked

end

def onOldRoomEvent (ev : Event) : Work Unit := do
  let _ ← dereference (← query (.queryUserIDForSender ev.roomID ev.senderID))
  match ← ExceptT.lift (writeEvent ev [] [] [] ev.stateKey.isSome).run with
  | .ok pos =>
    let _ ← ExceptT.lift (query (.writeFTS ev pos)).run
    query (.updateRelations ev)
    let _ ← notifyJoinedPeeks isLocal ev pos
  | .error _ => throw .panicked

def onRedactEvent (redactedEventID : String) (redactedBecause : Event) : Work Unit := do
  query (.redactEvent redactedEventID redactedBecause)
  query (.redactRelations redactedBecause.roomID redactedEventID)
  onNewRoomEvent isLocal ⟨redactedBecause, [], [], false⟩

/-- A redaction that another message of the log brings, with what it redacts. -/
def Event.paired (event : Event) : Bool :=
  event.type = "m.room.redaction" && event.stateKey = none && event.redacts ≠ event.eventID

def handle (appservices : Bool) : Message → Work Unit
  | .malformed => pure ()
  | .newRoomEvent msg => do
    if msg.event.paired then return ()
    onNewRoomEvent isLocal msg
    if appservices then query .produceRoomEvents
  | .oldRoomEvent event => onOldRoomEvent isLocal event
  | .redactedEvent redactedEventID redactedBecause => onRedactEvent isLocal redactedEventID redactedBecause

/-- The answer of `onMessage`, `none` if it panics: an error that comes of data which will never decode is let pass. -/
def settle : Except Stop Unit → Option Bool
  | .ok () => some true
  | .error (.error e) => some (e.is .corruptInput)
  | .error .panicked => none

/-- The worker: one message, with what came of it. -/
def deliver (appservices : Bool) (msg : Message) : Prog SyncSig (Except Stop Unit) := do
  let result ← (handle isLocal appservices msg).run
  if settle result = some true then
    let _ ← Prog.ask (σ := SyncSig) .ackSync
  return result

end

end Dirextalk.Sync

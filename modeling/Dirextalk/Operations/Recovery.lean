/-
  Dirextalk.Operations.Recovery — `handleRecoverableOperation` of
  `p2p/service_operation_recovery.go` with all it calls in that file.

  A request is led to the record of its operation (`Operations.Identity`), waits for the
  workflow of its member or contact, and looks the record up under the lock of its id. A
  record of another request, of a generation that has been superseded, or completed with a
  result that still holds is answered from what is stored. Otherwise the operation is
  claimed, the handler of the action runs, and its outcome is written under the lease.

  What `defer` runs in the source comes after the part it is deferred over: the release of
  the claim, of the lock and of the workflow.
-/
import Dirextalk.Operations.Identity

namespace Dirextalk.Operations

open Lib Lib.Go Dirextalk.Action Members

/-! ## Results -/

/-- What `conversation.Operation` adds to an answer. -/
structure Presentation where
  operation : String
  conversation : Option String

/-- `contacts.View`, without names and avatars. -/
structure View where
  peerMXID : String
  roomID : String
  status : String
  requestID : String
  presentation : Presentation
  operationID : String
  currentRoomID : String
  errorCode : String

inductive Field where
  | plain (v : Value)
  | member (m : MemberRecord)
  | channel (c : Channel)
  | json (text : String)

abbrev Fields := String → Option Field

/-- `trimString(fields[key])`. -/
def Fields.text (f : Fields) (key : String) : String :=
  match f key with
  | some (.plain v) => v.text
  | _ => ""

def Fields.set (f : Fields) (key : String) (value : Field) : Fields := Function.update f key (some value)

def Fields.setText (f : Fields) (key value : String) : Fields := f.set key (.plain (.string value))

inductive Result where
  | view (v : View)
  | fields (f : Fields)
  | other (text : String)

/-! ## What is called -/

abbrev RecordOf (operationID : String) := { r : Record // r.operationID = operationID }

inductive QueryCall where
  | read (c : ReadCall)
  | lookupOperation (operationID : String)
  | matrixMemberJoined (roomID userID : String)
  | conversationRecord (roomID : String)
  | conversationOperation (action status roomID : String)
  | channelSnapshot (channelID : String)

def QueryCall.Ans : QueryCall → Type
  | .read c => c.Ans
  | .lookupOperation operationID => Except String (Option (RecordOf operationID))
  | .matrixMemberJoined _ _ => Except String Bool
  | .conversationRecord _ => Except String Bool
  | .conversationOperation _ _ _ => Except String Presentation
  | .channelSnapshot _ => Channel

abbrev QuerySig : Sig := ⟨QueryCall, QueryCall.Ans⟩

abbrev Query := Prog QuerySig

abbrev Fallible := ExceptT String Query

abbrev Guarded := ExceptT ApiError Query

/-- The parts of the service that the code finds configured or not, its owner, and `encoding/json` for
stored results. -/
structure Service where
  ownerMXID : String
  transport : Bool
  contactsModule : Bool
  conversationModule : Bool
  membersModule : Bool
  unmarshalView : String → Except String View
  unmarshalFields : String → Except String Fields
  marshal : Result → Except String String

def readsVia {α : Type} (p : Reads α) : Guarded α := ExceptT.mk (p.run.via (σ := QuerySig) QueryCall.read fun _ r => r)

def lookupMember (roomID userID : String) : Fallible (Option MemberRecord) :=
  if roomID = "" ∨ userID = "" then pure none
  else ExceptT.mk (Prog.ask (σ := QuerySig) (.read (.lookupMember roomID userID)))

def lookupByPeer (peerMXID : String) : Fallible (Option Contact) :=
  if trimSpace peerMXID = "" then pure none
  else ExceptT.mk (Prog.ask (σ := QuerySig) (.read (.contactByPeer (trimSpace peerMXID))))

def lookupOperation (operationID : String) : Fallible (Option (RecordOf operationID)) :=
  ExceptT.mk (Prog.ask (σ := QuerySig) (.lookupOperation operationID))

def conversationOperation (action status roomID : String) : Fallible Presentation :=
  ExceptT.mk (Prog.ask (σ := QuerySig) (.conversationOperation action status roomID))

def conversationRecord (roomID : String) : Fallible Bool := ExceptT.mk (Prog.ask (σ := QuerySig) (.conversationRecord roomID))

def channelSnapshot (channelID : String) : Fallible Channel :=
  ExceptT.lift (Prog.ask (σ := QuerySig) (.channelSnapshot channelID))

def matrixMemberJoined (svc : Service) (roomID userID : String) : Fallible Bool :=
  if !svc.transport ∨ blank roomID ∨ blank userID then pure false
  else ExceptT.mk (Prog.ask (σ := QuerySig) (.matrixMemberJoined roomID userID))

/-! ## Errors and metadata -/

def matrixJoinUnconfirmedCode : String := "matrix_join_unconfirmed"
def joinResultUnconfirmedCode : String := "join_result_unconfirmed"
def matrixJoinFailedCode : String := "matrix_join_failed"
def operationRecoveryCode : String := "operation_recovery_failed"

def operationLeaseDurationMillis : Int := 90000

def operationPersistenceError (record : Record) (err : String) : ApiError :=
  ⟨500, "internal error: " ++ err, operationRecoveryCode, record.operationID, fallbackString record.currentRoomID record.roomID⟩

def operationIDConflict (record : Record) : ApiError :=
  ⟨409, "operation_id belongs to a different request", "operation_id_conflict", record.operationID, ""⟩

def conflictingOperationValue (left right : String) : Bool := if left = "" then right != "" else right != "" && left != right

def operationIdentityConflict (stored incoming : Record) : Bool :=
  conflictingOperationValue stored.roomID incoming.roomID || conflictingOperationValue stored.userID incoming.userID ||
    conflictingOperationValue stored.peerMXID incoming.peerMXID || conflictingOperationValue stored.requestID incoming.requestID

def operationHasExternalCommit (phase : String) : Bool := phase ∈ ["matrix_committed", "callback_acknowledged", "completed"]

def operationNeedsRecovery (phase : String) : Bool := phase == "matrix_unconfirmed" || operationHasExternalCommit phase

def operationResultNeedsReconciliation (status errorCode : String) : Bool :=
  decide (errorCode ∈ [matrixJoinUnconfirmedCode, joinResultUnconfirmedCode, matrixJoinFailedCode, operationRecoveryCode]) ||
    decide (lowerTrim status ∈ ["approved", "joining", "join_failed"])

/-- The status of a result, and the room it names if the record names none. -/
def resultStatus (record : Record) : Result → String × String
  | .fields f =>
    (f.text "status",
      if record.currentRoomID = "" then fallbackString (f.text "current_room_id") (f.text "room_id") else record.currentRoomID)
  | .view v =>
    (v.status, if record.currentRoomID = "" then fallbackString v.currentRoomID v.roomID else record.currentRoomID)
  | .other _ => ("", record.currentRoomID)

/-- `operationResultMetadata`: the result as answered, its status, room and error code. -/
def operationResultMetadata (result : Result) (record : Record) : Result × String × String × String :=
  let currentRoomID := fallbackString (resultStatus record result).2 record.roomID
  match result with
  | .fields f =>
    let named := f.setText "operation_id" record.operationID
    (.fields (if currentRoomID ≠ "" then named.setText "current_room_id" currentRoomID else named),
      f.text "status", currentRoomID, f.text "error_code")
  | .view v =>
    (.view { v with operationID := record.operationID, currentRoomID := currentRoomID }, v.status, currentRoomID, v.errorCode)
  | .other _ => (result, "", currentRoomID, "")

def decodeRecoverableOperationResult (svc : Service) (action resultJSON : String) : Except String Result :=
  if hasPrefix action "contacts." then Result.view <$> svc.unmarshalView resultJSON
  else Result.fields <$> svc.unmarshalFields resultJSON

/-! ## Presentation -/

/-- `contactsModule.HydrateView`. -/
def hydrateView (action : String) (contact : Contact) : Fallible View := do
  let p ← conversationOperation action contact.status contact.roomID
  return ⟨contact.peerMXID, contact.roomID, contact.status, contact.requestID, p, "", "", ""⟩

section

variable (svc : Service) (record : Record)

def hydrateContactRecoveryView (view : View) : Fallible View := do
  if !svc.contactsModule then throw "contact recovery presentation is not configured"
  let hydrated ← hydrateView record.action ⟨view.peerMXID, view.roomID, view.status, view.requestID⟩
  return { hydrated with
    operationID := fallbackString view.operationID record.operationID
    currentRoomID := fallbackString view.currentRoomID
      (fallbackString view.roomID (fallbackString record.currentRoomID record.roomID))
    errorCode := view.errorCode }

def hydrateMemberRecoveryResult (result : Fields) : Fallible Fields := do
  if !svc.membersModule then throw "member recovery presentation is not configured"
  let status := if toLower (result.text "status") = "" then "joining" else toLower (result.text "status")
  let roomID := fallbackString (result.text "current_room_id")
    (fallbackString (result.text "room_id") (fallbackString record.currentRoomID record.roomID))
  let p ← conversationOperation record.action status roomID
  let result := result.set "operation" (.json p.operation)
  return match p.conversation with
    | some view => result.set "conversation" (.json view)
    | none => result

/-- A map that says the operation is under way. -/
def joiningFields (errorCode operationID roomID : String) : Fields :=
  let f : Fields := fun _ => none
  let f := ((f.setText "status" "joining").setText "error_code" errorCode).setText "operation_id" operationID
  if roomID ≠ "" then (f.setText "room_id" roomID).setText "current_room_id" roomID else f

def retainedRoomRebuildReconcilingResult (record : Record) : Fields :=
  joiningFields operationRecoveryCode record.operationID (fallbackString record.currentRoomID record.roomID)

/-- The member as an answer to an operation that is not executed. -/
def memberCurrentResult : Fallible Result := do
  match ← lookupMember record.roomID record.userID with
  | none => throw "operation generation was superseded but current member is missing"
  | some member =>
    let status := lowerTrim member.membership
    let f : Fields := fun _ => none
    let f := (((f.setText "status" status).set "member" (.member member)).setText "operation_id" record.operationID).setText
      "current_room_id" member.roomID
    let f ←
      if status = "join" then do
        if ← matrixMemberJoined svc member.roomID member.userID then
          pure ((f.setText "status" "joined").setText "room_id" member.roomID)
        else pure ((f.setText "status" "joining").setText "error_code" joinResultUnconfirmedCode)
      else if status ∈ ["reject", "rejected"] then pure (f.setText "status" "rejected")
      else if status = "joining" then pure (f.setText "error_code" joinResultUnconfirmedCode)
      else if status = "join_failed" then pure (f.setText "error_code" matrixJoinFailedCode)
      else pure f
    let f ←
      if member.channelID ≠ "" then do
        let c ← channelSnapshot member.channelID
        pure (f.set "channel" (.channel c))
      else pure f
    Result.fields <$> hydrateMemberRecoveryResult svc record f

def supersededOperationCurrentResult : Fallible Result := do
  let contact ←
    if hasPrefix record.action "contacts." ∧ svc.contactsModule then lookupByPeer record.peerMXID else pure none
  match contact with
  | some contact =>
    let view ← hydrateView record.action contact
    return .view { view with
      operationID := record.operationID
      currentRoomID := contact.roomID
      errorCode := if equalFold (trimSpace contact.status) "joining" then matrixJoinUnconfirmedCode else view.errorCode }
  | none => memberCurrentResult svc record

/-! ## Whether a stored operation still stands -/

def operationGenerationSuperseded : Fallible Bool := do
  if record.requestID = "" then return false
  if hasPrefix record.action "contacts." ∧ svc.contactsModule then
    match ← lookupByPeer record.peerMXID with
    | none => return false
    | some contact =>
      if record.action = "contacts.request" ∧ contactDeleted contact.status ∧ record.status ≠ "completed" ∧
          contact.requestID = record.baseRequestID then return false
      return contact.requestID ≠ "" ∧ contact.requestID ≠ record.requestID
  else
    match ← lookupMember record.roomID record.userID with
    | none => return false
    | some member =>
      -- a generation claimed for a terminal member that could not be advanced yet
      if record.action = "channels.public.join_request" ∧ channelJoinGenerationMayRestart member.membership ∧
          record.status ≠ "completed" ∧ member.requestID = record.baseRequestID then return false
      return member.requestID ≠ "" ∧ member.requestID ≠ record.requestID

/-- The retained room of an invitation: the member is as the operation left it. -/
def retainedInviteStillCurrent : Fallible Bool := do
  match ← lookupMember record.roomID record.userID with
  | none => return false
  | some member =>
    if member.requestID ≠ record.requestID then return false
    let membership := lowerTrim member.membership
    if membership = "invite" then
      if !svc.transport then return true
      return !(← matrixMemberJoined svc record.roomID record.userID)
    if membership = "join" then
      if !svc.transport then return true
      matrixMemberJoined svc record.roomID record.userID
    else return false

def contactStillCurrent (view : View) : Fallible Bool := do
  -- a pending request is sent again
  if record.action = "contacts.request" ∧ equalFold (trimSpace view.status) "pending_outbound" then return false
  match ← lookupByPeer view.peerMXID with
  | none => return false
  | some contact =>
    if contact.roomID ≠ view.roomID ∨ !equalFold (trimSpace contact.status) (trimSpace view.status) then return false
    let status := trimSpace view.status
    if record.action = "contacts.requests.reject" ∧ (equalFold status "reject" ∨ equalFold status "rejected") ∧ svc.transport then
      if ← matrixMemberJoined svc contact.roomID svc.ownerMXID then return false
    if record.action = "contacts.requests.reject" ∧ equalFold status "accepted" ∧ svc.transport then
      if !(← matrixMemberJoined svc contact.roomID svc.ownerMXID) then return false
    if record.action = "contacts.requests.accept" ∧ equalFold status "accepted" ∧ svc.transport then
      if !(← matrixMemberJoined svc contact.roomID svc.ownerMXID) then return false
      if svc.conversationModule then
        return ← conversationRecord contact.roomID
    return true

def memberStillCurrent (status currentRoomID : String) : Fallible Bool := do
  if status ∈ ["rejected", "reject"] ∧ record.roomID ≠ "" ∧ record.userID ≠ "" then
    match ← lookupMember record.roomID record.userID with
    | none => return false
    | some member =>
      if lowerTrim member.membership ∉ ["reject", "rejected"] then return false
      if svc.transport then return !(← matrixMemberJoined svc record.roomID record.userID)
      return true
  else
    let normalized := lowerTrim status
    if normalized = "ok" ∧ record.action = "groups.invite.reject" then return true
    if normalized ∉ ["joined", "accepted", "pending_inbound", "pending_outbound", "ok"] then return false
    if !svc.transport then return true
    matrixMemberJoined svc currentRoomID record.userID

def completedOperationStillCurrent (result : Result) : Fallible Bool := do
  let (status, roomID) := resultStatus record result
  if retainedRoomInviteAction record.action then retainedInviteStillCurrent svc record
  else if hasPrefix record.action "contacts." then
    match result with
    | .view view => if svc.contactsModule then contactStillCurrent svc record view else return false
    | _ => return false
  else memberStillCurrent svc record status (fallbackString roomID record.roomID)

/-! ## Workflows -/

def durableBusinessWorkflowAction (action : String) : Bool :=
  action ∈ ["groups.join", "groups.invite.reject", "channels.join", "channels.join_request.approve",
    "channels.join_request.reject", "contacts.request", "contacts.requests.accept", "contacts.requests.reject",
    "channels.public.join_request", "groups.invite", "channels.invite"]

/-- The record of the workflow of a member or contact, but for its times. -/
def durableBusinessWorkflowRecord (record : Record) : Option Record :=
  let contact := hasPrefix record.action "contacts."
  let identity := if contact then [record.peerMXID] else [record.roomID, record.userID]
  if !durableBusinessWorkflowAction record.action ∨ identity.any blank then none
  else some
    { operationID := "_workflow_" ++ shortDigest ((if contact then "contact" else "member") :: identity)
      action := if contact then "_workflow.contact" else "_workflow.member"
      status := "running"
      phase := "prepared"
      roomID := if contact then "" else record.roomID
      currentRoomID := ""
      userID := if contact then "" else record.userID
      peerMXID := if contact then record.peerMXID else ""
      requestID := ""
      baseRequestID := ""
      resultJSON := ""
      errorCode := ""
      revision := 0
      leaseOwner := ""
      leaseUntil := 0
      createdAt := 0
      updatedAt := 0 }

def publicJoinCanAdvanceTerminalGeneration (record : Record) : Fallible Bool := do
  if record.roomID = "" ∨ record.userID = "" ∨ record.requestID = "" ∨ record.baseRequestID = "" ∨
      record.requestID = record.baseRequestID then return false
  match ← lookupMember record.roomID record.userID with
  | none => return false
  | some member => return member.requestID = record.baseRequestID ∧ channelJoinGenerationMayRestart member.membership

/-- The error of a store, as the error of an action. -/
def orPersistence {α : Type} (record : Record) (p : Fallible α) : Guarded α :=
  p.adapt (operationPersistenceError record)

/-! ## Answers without the handler -/

/-- The result of a completed operation, if it still stands. -/
def completedResult : Guarded (Option Result) := do
  if record.status = "completed" ∧ record.resultJSON ≠ "" then
    let result ← orPersistence record (ExceptT.mk (pure (decodeRecoverableOperationResult svc record.action record.resultJSON)))
    if ← orPersistence record (completedOperationStillCurrent svc record result) then return some result
  return none

def operationWorkflowBusyResult : Guarded Result := do
  if retainedRoomInviteAction record.action then
    match ← orPersistence record (lookupOperation record.operationID) with
    | some stored =>
      if stored.1.action = record.action ∧ !operationIdentityConflict stored.1 record then
        if let some result ← completedResult svc stored.1 then return result
    | none => pure ()
    Result.fields <$> orPersistence record (hydrateMemberRecoveryResult svc record (retainedRoomRebuildReconcilingResult record))
  else
    match ← ExceptT.lift (supersededOperationCurrentResult svc record).run with
    | .ok (.view value) =>
      let value :=
        if record.action ≠ "contacts.request" ∧ !equalFold value.status "accepted" ∧ !equalFold value.status "rejected" ∧
            !equalFold value.status "joining" then
          { value with status := "joining", errorCode := matrixJoinUnconfirmedCode }
        else value
      Result.view <$> orPersistence record
        (hydrateContactRecoveryView svc record { value with operationID := record.operationID })
    | .ok (.fields value) =>
      let value :=
        if toLower (value.text "status") ∉ ["approved", "joined", "rejected", "joining", "join_failed"] then
          (value.setText "status" "joining").setText "error_code" joinResultUnconfirmedCode
        else value
      Result.fields <$> orPersistence record
        (hydrateMemberRecoveryResult svc record (value.setText "operation_id" record.operationID))
    | _ =>
      if hasPrefix record.action "contacts." then
        let errorCode := if record.action = "contacts.request" then operationRecoveryCode else matrixJoinUnconfirmedCode
        Result.view <$> orPersistence record (hydrateContactRecoveryView svc record
          ⟨record.peerMXID, record.roomID, "joining", "", ⟨"", none⟩, record.operationID, record.roomID, errorCode⟩)
      else
        Result.fields <$> orPersistence record (hydrateMemberRecoveryResult svc record
          (joiningFields joinResultUnconfirmedCode record.operationID record.roomID))

def operationInFlightResult : Guarded Result := do
  if retainedRoomInviteAction record.action then
    if let some result ← completedResult svc record then return result
    Result.fields <$> orPersistence record (hydrateMemberRecoveryResult svc record (retainedRoomRebuildReconcilingResult record))
  else
    if record.resultJSON ≠ "" then
      let result ← orPersistence record (ExceptT.mk (pure (decodeRecoverableOperationResult svc record.action record.resultJSON)))
      if record.status ≠ "completed" then return result
      if ← orPersistence record (completedOperationStillCurrent svc record result) then return result
    match ← ExceptT.lift (supersededOperationCurrentResult svc record).run with
    | .ok current => return current
    | .error _ =>
      let currentRoomID := fallbackString record.currentRoomID record.roomID
      if hasPrefix record.action "contacts." then
        Result.view <$> orPersistence record (hydrateContactRecoveryView svc record
          ⟨record.peerMXID, currentRoomID, "joining", "", ⟨"", none⟩, record.operationID, currentRoomID, operationRecoveryCode⟩)
      else
        Result.fields <$> orPersistence record (hydrateMemberRecoveryResult svc record
          (joiningFields operationRecoveryCode record.operationID currentRoomID))

end

/-! ## The dispatch -/

/-- A `return` of the function: its answer, and the record its deferred parts name in their errors. -/
structure Exit where
  record : Record
  answer : Except ApiError Result

abbrev Early := ExceptT Exit Query

def orExit {α : Type} (record : Record) (p : Guarded α) : Early α := p.adapt fun e => ⟨record, .error e⟩

def exitWith {α : Type} (record : Record) (p : Guarded Result) : Early α := do
  let result ← orExit record p
  throw ⟨record, .ok result⟩

section

variable (svc : Service) (action : String)

/-- `publicJoinResultGenerationMismatch`: a delayed callback is answered with the current state. -/
def publicJoinResultGenerationMismatch (params : Params) (record : Record) : Early Unit := do
  if action = "channels.public.join_result" ∧ record.baseRequestID ≠ "" ∧ params.string "request_id" ≠ "" ∧
      params.string "request_id" ≠ record.requestID then
    exitWith record (orPersistence record (supersededOperationCurrentResult svc record))

def requestRecord (params : Params) (failed : Record) : Early Record := do
  let record ← orExit failed (readsVia (operationRecordFor svc.ownerMXID action params))
  publicJoinResultGenerationMismatch svc action params record
  return record

def noRecord : Record := ⟨"", "", "", "", "", "", "", "", "", "", "", "", 0, "", 0, 0, 0⟩

/-- A public action resolves its generation again once it has its workflow. -/
def refresh (params : Params) (record : Record) : Early Record :=
  if publicAction action then requestRecord svc action params record else return record

variable (record : Record)

/-- The answer to an operation whose generation has been superseded. -/
def supersededResult : Guarded Result :=
  if retainedRoomInviteAction record.action then
    Result.fields <$> orPersistence record (hydrateMemberRecoveryResult svc record (retainedRoomRebuildReconcilingResult record))
  else if record.action ≠ "channels.public.join_request" ∧ record.resultJSON ≠ "" then
    orPersistence record (ExceptT.mk (pure (decodeRecoverableOperationResult svc action record.resultJSON)))
  else orPersistence record (supersededOperationCurrentResult svc record)

/-- A completed operation that does not stand any more: a contact deleted meanwhile is answered; any other
contact operation starts over (`resetCompletedContact`). -/
def completedContact : Early Bool := do
  if action = "contacts.request" then
    if let .view view ← orExit record (orPersistence record (supersededOperationCurrentResult svc record)) then
      if contactDeleted view.status then throw ⟨record, .ok (.view view)⟩
  return hasPrefix action "contacts."

/-- A completed operation is answered with its result as long as that stands. -/
def admitCompleted : Early (Record × Bool) := do
  let cached ← orExit record
    (orPersistence record (ExceptT.mk (pure (decodeRecoverableOperationResult svc action record.resultJSON))))
  if ← orExit record (orPersistence record (completedOperationStillCurrent svc record cached)) then
    throw ⟨record, .ok cached⟩
  else return (record, ← completedContact svc action record)

def admitStored : Early (Record × Bool) := do
  if ← orExit record (orPersistence record (operationGenerationSuperseded svc record)) then
    exitWith record (supersededResult svc action record)
  else if record.status = "completed" ∧ record.resultJSON ≠ "" then admitCompleted svc action record
  else return (record, false)

/-- What is stored decides whether the operation is executed at all. With the record to claim comes
`resetCompletedContact`. -/
def admission : Early (Record × Bool) := do
  match ← orExit record (orPersistence record (lookupOperation record.operationID)) with
  | none => return (record, false)
  | some stored =>
    if stored.1.action ≠ action ∨ operationIdentityConflict stored.1 record then
      throw ⟨record, .error (operationIDConflict record)⟩
    else admitStored svc action stored.1

end

/-! ## What is written -/

inductive RecoveryCall where
  | query (c : QueryCall)
  | claimOperation (record : Record) (owner : String) (leaseDurationMillis : Int)
  | compareAndSwapOperation (record : Record) (expectedRevision : Int) (owner : String) (leaseDurationMillis : Int)
  | randomToken (kind : String)
  /-- whether the two seconds to wait for a workflow are over, after an error of the store -/
  | waitOver
  /-- 50 ms, or the end of the two seconds: whether it was the end -/
  | pause
  | lock (operationID : String)
  | unlock (operationID : String)
  /-- the handler of the action, with the tracker it finds in its context -/
  | handler (params : Params) (tracker : Tracker)

/-- The handler answers its outcome and leaves the record of its tracker. -/
def RecoveryCall.Ans : RecoveryCall → Type
  | .query c => c.Ans
  | .claimOperation record _ _ => Except String (RecordOf record.operationID × Bool)
  | .compareAndSwapOperation record _ _ _ => Except String (Option (RecordOf record.operationID))
  | .randomToken _ => String
  | .waitOver | .pause => Bool
  | .lock _ | .unlock _ => Unit
  | .handler _ tracker => Except ApiError Result × RecordOf tracker.record.operationID

abbrev RecoverySig : Sig := ⟨RecoveryCall, RecoveryCall.Ans⟩

abbrev Calls := Prog RecoverySig

def query {α : Type} (p : Query α) : Calls α := p.via (σ := RecoverySig) RecoveryCall.query fun _ r => r

def Calls.claimOperation (record : Record) (owner : String) (leaseDurationMillis : Int) :
    Calls (Except String (RecordOf record.operationID × Bool)) :=
  Prog.ask (σ := RecoverySig) (.claimOperation record owner leaseDurationMillis)

def Calls.compareAndSwapOperation (record : Record) (expectedRevision : Int) (owner : String) (leaseDurationMillis : Int) :
    Calls (Except String (Option (RecordOf record.operationID))) :=
  Prog.ask (σ := RecoverySig) (.compareAndSwapOperation record expectedRevision owner leaseDurationMillis)

def randomToken (kind : String) : Calls String := Prog.ask (σ := RecoverySig) (.randomToken kind)

def waitOver : Calls Bool := Prog.ask (σ := RecoverySig) .waitOver

def pause : Calls Bool := Prog.ask (σ := RecoverySig) .pause

def lock (operationID : String) : Calls Unit := Prog.ask (σ := RecoverySig) (.lock operationID)

def unlock (operationID : String) : Calls Unit := Prog.ask (σ := RecoverySig) (.unlock operationID)

def handler (params : Params) (tracker : Tracker) : Calls (Except ApiError Result × RecordOf tracker.record.operationID) :=
  Prog.ask (σ := RecoverySig) (.handler params tracker)

def now : Calls Int := Prog.ask (σ := RecoverySig) (.query (.read .now))

namespace Tracker

/-- `Update`. -/
def update (t : Tracker) (p : Progress) : Calls (Except String Tracker) := do
  let now ← now
  match ← Calls.compareAndSwapOperation (t.updated p now) t.record.revision t.owner t.leaseDurationMillis with
  | .error e => return .error e
  | .ok none => return .error "recoverable operation lease or revision was lost"
  | .ok (some updated) => return .ok { t with record := updated.1 }

/-- `Heartbeat`. -/
def beat (t : Tracker) : Calls (Except String Tracker) := t.update (heartbeat t.record)

/-- `Release`. -/
def release (t : Tracker) : Calls (Except String Unit) :=
  if t.record.leaseOwner = "" then return .ok ()
  else do
    let now ← now
    match ← Calls.compareAndSwapOperation (t.released now) t.record.revision t.owner 0 with
    | .error e => return .error e
    | .ok none => return .error "recoverable operation lease or revision was lost while releasing"
    | .ok (some _) => return .ok ()

end Tracker

/-- What waiting for a workflow comes to; an action without one has nothing to wait for. -/
inductive Acquired where
  | busy
  | acquired (workflow : Option Tracker)

/-- The claim of a workflow, for at most so many rounds. -/
def claimWorkflow (record workflow : Record) (owner : String) : Nat → Calls (Except ApiError Acquired)
  | 0 => return .ok .busy
  | rounds + 1 => do
    match ← Calls.claimOperation workflow owner operationLeaseDurationMillis with
    | .error e => if ← waitOver then return .ok .busy else return .error (operationPersistenceError record e)
    | .ok (claimed, true) => return .ok (.acquired (some ⟨owner, claimed.1, operationLeaseDurationMillis⟩))
    | .ok (_, false) => if ← pause then return .ok .busy else claimWorkflow record workflow owner rounds

/-- A fresh generation does not wait behind the decision on the one before. -/
def skipsWorkflow (record : Record) : Guarded Bool :=
  if record.action = "channels.public.join_request" then
    orPersistence record (publicJoinCanAdvanceTerminalGeneration record)
  else return false

def acquireDurableBusinessWorkflow (rounds : Nat) (record : Record) : Calls (Except ApiError Acquired) := do
  match ← query (skipsWorkflow record).run with
  | .error e => return .error e
  | .ok true => return .ok (.acquired none)
  | .ok false =>
    match durableBusinessWorkflowRecord record with
    | none => return .ok (.acquired none)
    | some workflow =>
      let now ← now
      let token ← randomToken "claim"
      claimWorkflow record { workflow with createdAt := now, updatedAt := now } ("workflow_" ++ token) rounds

variable (svc : Service)

def acquire (rounds : Nat) (action : String) (params : Params) :
    Calls (Except Exit (Record × Option Tracker)) := do
  match ← query (requestRecord svc action params noRecord).run with
  | .error exit => return .error exit
  | .ok record =>
    match ← acquireDurableBusinessWorkflow rounds record with
    | .error e => return .error ⟨record, .error e⟩
    | .ok .busy => query (exitWith record (operationWorkflowBusyResult svc record)).run
    | .ok (.acquired workflow) => return .ok (record, workflow)

variable (action : String) (params : Params)

section

variable (record : Record)

def handlerParams : Params :=
  if action = "channels.public.join_request" ∨ params.string "request_id" = "" ∨
      action = "channels.public.join_result" ∧ record.baseRequestID = "" then
    Function.update params "request_id" (some (.string record.requestID))
  else params

/-- The outcome of the handler, written under the lease. -/
def settle (tracker : Tracker) : Except ApiError Result → Calls (Tracker × Except ApiError Result)
  | .error e => do
    let snapshot := tracker.record
    let recovers := operationNeedsRecovery snapshot.phase
    let e := if recovers ∧ e.code = "" then { e with code := operationRecoveryCode } else e
    let status := if recovers then "reconciling" else "failed"
    match ← tracker.update ⟨status, snapshot.phase, snapshot.currentRoomID, e.code, ""⟩ with
    | .error err => return (tracker, .error (operationPersistenceError tracker.record err))
    | .ok tracker =>
      return (tracker, .error { e with
        operationID := snapshot.operationID
        currentRoomID := fallbackString e.currentRoomID snapshot.currentRoomID })
  | .ok result => do
    let (result, status, currentRoomID, errorCode) := operationResultMetadata result tracker.record
    match svc.marshal result with
    | .error err => return (tracker, .error (operationPersistenceError tracker.record err))
    | .ok resultJSON =>
      let reconciles := operationResultNeedsReconciliation status errorCode
      let operationStatus := if reconciles then "reconciling" else "completed"
      let phase := if reconciles then tracker.record.phase else "completed"
      match ← tracker.update ⟨operationStatus, phase, currentRoomID, errorCode, resultJSON⟩ with
      | .error err => return (tracker, .error (operationPersistenceError tracker.record err))
      | .ok tracker => return (tracker, .ok result)

def releaseAfter (named : Record) (tracker : Tracker) (answer : Except ApiError Result) : Calls (Except ApiError Result) := do
  match ← tracker.release with
  | .error err => return .error (operationPersistenceError named err)
  | .ok () => return answer

def renew : Option Tracker → Calls (Except String (Option Tracker))
  | none => return .ok none
  | some workflow => do
    match ← workflow.beat with
    | .error e => return .error e
    | .ok workflow => return .ok (some workflow)

def execute (tracker : Tracker)
    (workflow : Option Tracker) : Calls (Exit × Option Tracker) := do
  match ← renew workflow with
  | .error err =>
    let answer ← releaseAfter tracker.record tracker (.error (operationPersistenceError record err))
    return (⟨record, answer⟩, workflow)
  | .ok workflow =>
    let (outcome, left) ← handler (handlerParams action params record) tracker
    let (tracker, answer) ← settle svc { tracker with record := left.1 } outcome
    let answer ← releaseAfter tracker.record tracker answer
    return (⟨record, answer⟩, workflow)

/-- The claimed record; a completed contact operation starts over. -/
def claimedRecord (resetCompletedContact : Bool) (record : Record) : Calls Record :=
  if resetCompletedContact then do
    let now ← now
    return { record with
      status := "running", phase := "prepared", currentRoomID := "", resultJSON := "", errorCode := "", updatedAt := now }
  else return record

def claim (resetCompletedContact : Bool)
    (workflow : Option Tracker) : Calls (Exit × Option Tracker) := do
  let token ← randomToken "operation"
  let claimOwner := "claim_" ++ token
  match ← Calls.claimOperation record claimOwner operationLeaseDurationMillis with
  | .error err => return (⟨record, .error (operationPersistenceError record err)⟩, workflow)
  | .ok (current, claimed) =>
    if current.1.action ≠ action ∨ operationIdentityConflict current.1 record then
      return (⟨record, .error (operationIDConflict record)⟩, workflow)
    else if claimed then
      let record ← claimedRecord resetCompletedContact current.1
      execute svc action params record ⟨claimOwner, record, operationLeaseDurationMillis⟩ workflow
    else
      let answer ← query (operationInFlightResult svc current.1).run
      return (⟨record, answer⟩, workflow)

def dispatch (workflow : Option Tracker) :
    Calls (Exit × Option Tracker) := do
  match ← query (admission svc action record).run with
  | .error exit => return (exit, workflow)
  | .ok (record, resetCompletedContact) => claim svc action params record resetCompletedContact workflow

/-- The part of the function over which the release of the workflow is deferred. -/
def underWorkflow (workflow : Option Tracker) :
    Calls (Exit × Option Tracker) := do
  match ← query (refresh svc action params record).run with
  | .error exit => return (exit, workflow)
  | .ok record =>
    lock record.operationID
    let out ← dispatch svc action params record workflow
    unlock record.operationID
    return out

end

def handleRecoverableOperation (rounds : Nat) (action : String) (params : Params) :
    Calls (Except ApiError Result) := do
  match ← acquire svc rounds action params with
  | .error exit => return exit.answer
  | .ok (record, workflow) =>
    let (exit, workflow) ← underWorkflow svc action params record workflow
    match workflow with
    | none => return exit.answer
    | some workflow => releaseAfter exit.record workflow exit.answer

end Dirextalk.Operations

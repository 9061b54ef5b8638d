/-
  Dirextalk.Contacts.Calls — what the contact workflows of the node call, and the parts
  they share: lookups, the lock of a peer and the saves (`p2p/internal/contacts/module.go`,
  `reader.go` and `p2p/internal/conversation/module.go`).

  Every statement of the store is a call of its own, and so is every call to Matrix, to the
  other node and to the rest of the service. A plain save (`save`) runs several statements
  under the save lock of the module; a compare-and-swap is one statement and takes no lock.
-/
import Dirextalk.Contacts.Store
import Dirextalk.Operations.Recovery

namespace Dirextalk.Contacts

open Lib Lib.Go Dirextalk.Action
open Operations (matrixJoinUnconfirmedCode)

/-! ## Outside the tables -/

inductive JoinMode where
  | normal
  | reactivation

inductive JoinKind where
  | unknown
  | succeeded
  | inviteRequired
  | retainedUnavailable
  | failed
  deriving DecidableEq, Repr

def JoinKind.number : JoinKind → Nat
  | .unknown => 0
  | .succeeded => 1
  | .inviteRequired => 2
  | .retainedUnavailable => 3
  | .failed => 4

structure JoinOutcome where
  kind : JoinKind
  roomID : String
  failure : Option ApiError

structure PeerReactivationRequest where
  contact : ContactRecord
  requesterMXID : String
  remoteNodeBaseURL : String
  displayName : String
  avatarURL : String
  domain : String
  remark : String

structure PeerReactivationResult where
  pendingInbound : Bool
  notRetained : Bool
  roomID : String

/-- Calls to Matrix, to another node and to the rest of the service. -/
inductive OutsideCall where
  | peerBlocked (peerMXID : String)
  | newDirectRoomID
  | createRoom (peerMXID displayName remark fallbackRoomID : String)
  | inviteRoom (contact : ContactRecord)
  | joinRoom (roomID : String) (serverNames : List String) (mode : JoinMode) (useRoomServerFallback : Bool)
  | acceptRoom (contact : ContactRecord) (serverNames : List String)
  | reactivatePeer (request : PeerReactivationRequest)
  | reactivateRoom (roomID requesterMXID : String)
  | leaveRoom (roomID : String)
  | matrixJoined (roomID userMXID : String)
  /-- the conversation and operation of a response -/
  | operation (action status roomID : String)
  /-- whether the peer of an accepted contact needs a replacement room -/
  | reinviteAcceptedContact (contact : ContactRecord)
  | joinReplacementRoom (roomID : String)
  | appendEvent (type roomID : String)

def OutsideCall.Ans : OutsideCall → Type
  | .peerBlocked _ | .matrixJoined _ _ | .reinviteAcceptedContact _ => Except String Bool
  | .newDirectRoomID => String
  | .createRoom _ _ _ _ | .acceptRoom _ _ => Except ApiError String
  | .inviteRoom _ | .reactivateRoom _ _ | .leaveRoom _ => Except ApiError Unit
  | .joinRoom _ _ _ _ => JoinOutcome
  | .reactivatePeer _ => Except ApiError PeerReactivationResult
  | .operation _ _ _ | .appendEvent _ _ => Except String Unit
  | .joinReplacementRoom _ => Except String String

/-! ## The calls of a workflow -/

inductive ContactCall where
  /-- `SerializePeer` takes the lock of its key -/
  | lock (key : String)
  | unlock (key : String)
  /-- the save lock, for the save of a contact -/
  | lockSave (contact : ContactRecord)
  | unlockSave
  | contactByRoom (roomID : String)
  | contactByPeer (peerMXID : String)
  | listContacts
  | listConversations
  | conversationByRoom (roomID : String)
  | upsertContact (contact : ContactRecord)
  | compareAndSwap (contact expected : ContactRecord)
  | saveConversation (record : ConversationRecord)
  | deleteConversation (roomID : String)
  | deleteGroup (roomID : String)
  | outside (c : OutsideCall)

def ContactCall.Ans : ContactCall → Type
  | .lock _ | .unlock _ | .lockSave _ | .unlockSave => Unit
  | .contactByRoom _ | .contactByPeer _ => Except String (Option ContactRecord)
  | .listContacts => Except String (List ContactRecord)
  | .listConversations => Except String (List ConversationRecord)
  | .conversationByRoom _ => Except String (Option ConversationRecord)
  | .upsertContact _ | .saveConversation _ | .deleteConversation _ | .deleteGroup _ => Except String Unit
  | .compareAndSwap _ _ => Except String Bool
  | .outside c => c.Ans

abbrev ContactSig : Sig := ⟨ContactCall, ContactCall.Ans⟩

abbrev Work := ExceptT String (Prog ContactSig)

abbrev Act := ExceptT ApiError (Prog ContactSig)

variable {α ε : Type}

def outside (c : OutsideCall) : Prog ContactSig c.Ans := Prog.ask (σ := ContactSig) (.outside c)

/-- `InternalError(err)`. -/
def internal (p : Work α) : Act α := p.adapt internalError

/-! ## Lookups -/

/-- `LookupByRoom`. The index on peers and the key of rooms leave at most one row to be found. -/
def lookupByRoom (roomID : String) : Work (Option ContactRecord) :=
  if trimSpace roomID = "" then pure none
  else ExceptT.mk (Prog.ask (σ := ContactSig) (.contactByRoom (trimSpace roomID)))

def lookupByPeer (peerMXID : String) : Work (Option ContactRecord) :=
  if trimSpace peerMXID = "" then pure none
  else ExceptT.mk (Prog.ask (σ := ContactSig) (.contactByPeer (trimSpace peerMXID)))

/-- `lookupDecisionContact`. -/
def lookupDecisionContact (roomID peerMXID : String) : Work (Option ContactRecord) := do
  let byRoom ← lookupByRoom roomID
  let found ← if byRoom.isNone then lookupByPeer peerMXID else pure byRoom
  return found.filter fun contact => trimSpace contact.roomID ≠ ""

/-! ## Locks and saves -/

/-- `SerializePeer`. -/
def serializePeer (peerMXID : String) (p : ExceptT ε (Prog ContactSig) α) : ExceptT ε (Prog ContactSig) α :=
  ExceptT.mk do
    let _ ← Prog.ask (σ := ContactSig) (.lock (trimSpace peerMXID))
    let r ← p.run
    let _ ← Prog.ask (σ := ContactSig) (.unlock (trimSpace peerMXID))
    return r

section

variable (contact : ContactRecord)

/-- `replacementDirectRoomIDs`. -/
def replacementDirectRoomIDs (contacts : List ContactRecord) (conversations : List ConversationRecord) :
    List String :=
  if contact.peerMXID = "" then []
  else
    let rooms := ((contacts.filter (·.peerMXID = contact.peerMXID)).map (·.roomID)) ++
      ((conversations.filter fun r => r.kind = .direct ∧ r.peerMXID = contact.peerMXID).map (·.matrixRoomID))
    (rooms.filter fun roomID => roomID ≠ "" ∧ roomID ≠ contact.roomID).foldl
      (fun out roomID => if roomID ∈ out then out else out ++ [roomID]) []

/-- `DeleteKindByRoom`. -/
def deleteKindByRoom (kind : ConversationKind) (roomID : String) : Work Unit := do
  if roomID = "" then return ()
  else
    let record ← ExceptT.mk (Prog.ask (σ := ContactSig) (.conversationByRoom roomID))
    if record.any (·.kind = kind) then ExceptT.mk (Prog.ask (σ := ContactSig) (.deleteConversation roomID))
    else return ()

/-- What a save does after the contact is written. -/
def projectSaved (replaced : List String) : Work Unit := do
  replaced.forM (deleteKindByRoom .direct)
  if contact.roomID ≠ "" then
    ExceptT.mk (Prog.ask (σ := ContactSig) (.deleteGroup contact.roomID))
    deleteKindByRoom .group contact.roomID
  ExceptT.mk (Prog.ask (σ := ContactSig) (.saveConversation (conversationFromContact contact)))

def saveLocked : Work Unit := do
  let contacts ← ExceptT.mk (Prog.ask (σ := ContactSig) .listContacts)
  let conversations ← ExceptT.mk (Prog.ask (σ := ContactSig) .listConversations)
  ExceptT.mk (Prog.ask (σ := ContactSig) (.upsertContact contact))
  projectSaved contact (replacementDirectRoomIDs contact contacts conversations)

/-- `Save`. -/
def save : Work Unit :=
  ExceptT.mk do
    let _ ← Prog.ask (σ := ContactSig) (.lockSave contact)
    let r ← (saveLocked contact).run
    let _ ← Prog.ask (σ := ContactSig) .unlockSave
    return r

/-- `SaveProjectionIfCurrent`. -/
def saveProjectionIfCurrent (contact expected : ContactRecord) : Work Bool :=
  ExceptT.mk (Prog.ask (σ := ContactSig) (.compareAndSwap contact expected))

/-- `EnsureAcceptedProjection`. -/
def ensureAcceptedProjection : Work ContactRecord := do
  if !acceptedStatus contact.status then return contact
  else if ← saveProjectionIfCurrent contact contact then return contact
  else
    match ← lookupByPeer contact.peerMXID with
    | some current => return current
    | none => throw "accepted contact disappeared while restoring conversation projection"

end

/-- `saveDecision`: what is stored then, and whether it is this decision. -/
def saveDecision (contact expected : ContactRecord) (authoritativeAccepted : Bool) : Work (ContactRecord × Bool) := do
  if expected.peerMXID = "" then
    save contact
    return (contact, true)
  else if ← saveProjectionIfCurrent contact expected then return (contact, true)
  else
    let byExpected ← lookupByPeer expected.peerMXID
    let found ← if byExpected.isNone ∧ contact.peerMXID ≠ expected.peerMXID then lookupByPeer contact.peerMXID
      else pure byExpected
    match found with
    | none => return (.zero, false)
    | some current =>
      if authoritativeAccepted ∧ acceptedStatus contact.status ∧ current.requestID = expected.requestID ∧
          !contactDeleted current.status then
        if ← saveProjectionIfCurrent contact current then return (contact, true)
        else return ((← lookupByPeer contact.peerMXID).getD .zero, false)
      else return (current, false)

/-! ## Responses -/

structure View where
  contact : ContactRecord
  errorCode : String
  currentRoomID : String

inductive Response where
  | view (v : View)
  | status (status roomID : String)

def viewWithOperation (action : String) (contact : ContactRecord) : Act View := do
  internal (ExceptT.mk (outside (.operation action contact.status contact.roomID)))
  return ⟨contact, "", ""⟩

def contactDecisionView (action : String) (contact : ContactRecord) : Act View := do
  let view ← viewWithOperation action contact
  if equalFold (trimSpace contact.status) "joining" then
    return { view with contact := { view.contact with status := "joining" }, errorCode := matrixJoinUnconfirmedCode }
  else return view

def statusOperationResult (action status roomID : String) : Act Response := do
  internal (ExceptT.mk (outside (.operation action status roomID)))
  return .status status roomID

end Dirextalk.Contacts

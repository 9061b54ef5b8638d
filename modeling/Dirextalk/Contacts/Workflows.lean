/-
  Dirextalk.Contacts.Workflows — the contact actions of the owner and the reactivation that
  another node asks for (`p2p/internal/contacts/request.go`, `request_resolution.go`,
  `accept.go` and `delete.go`), call by call.

  All of them hold the lock of a peer from their lookup to their save, except the
  reactivation (`handleReactivate`). Where a request names a room, the key of the lock is
  found by a lookup before it is taken (`serializeRoomPeerMutation`).
-/
import Dirextalk.Contacts.Calls

namespace Dirextalk.Contacts

open Lib Lib.Go Dirextalk.Action
open Members (domainFromMXID displayNameFromMXID lowerTrim)
open Operations (matrixJoinUnconfirmedCode)

structure Home where
  serverName : String
  ownerMXID : String
  /-- `VerifyAcceptedRoom` -/
  verifyAccepted : Bool

def requestRemark (params : Params) : String := params.firstString ["remark", "request_message", "message", "reason"]

def namedPeer (params : Params) : String := params.firstString ["peer_mxid", "mxid"]

/-! ## Requests -/

/-- `CreateRequest`. -/
def createRequest (peerMXID : String) (params : Params) (domain : String) : Act View := do
  let fallbackRoomID ← ExceptT.lift (outside .newDirectRoomID)
  let remark := requestRemark params
  let roomID ← ExceptT.mk (outside (.createRoom peerMXID (params.string "display_name") remark fallbackRoomID))
  let contact : ContactRecord := {
    roomID := roomID
    peerMXID := peerMXID
    displayName := params.string "display_name"
    displayNameOverride := false
    avatarURL := params.string "avatar_url"
    remark := remark
    domain := domain
    status := "pending_outbound"
    requestID := params.string "request_id" }
  internal (save contact)
  viewWithOperation "contacts.request" contact

section

variable (contact : ContactRecord) (params : Params)

/-- The parameters of a replacement, with what they leave out taken from the contact. -/
def replacementParams (fallbackDomain : String) : Params :=
  let params :=
    if params.string "display_name" = "" ∧ trimSpace contact.displayName ≠ "" then
      params.set "display_name" (.string contact.displayName)
    else params
  let params :=
    if params.string "avatar_url" = "" ∧ trimSpace contact.avatarURL ≠ "" then params.set "avatar_url" (.string contact.avatarURL)
    else params
  if params.string "domain" = "" then params.set "domain" (.string (fallbackString contact.domain fallbackDomain)) else params

/-- `CreateReplacementRequest`. -/
def createReplacementRequest (fallbackDomain : String) : Act View :=
  let next := replacementParams contact params fallbackDomain
  createRequest contact.peerMXID next (fallbackString (next.string "domain") fallbackDomain)

def mergeRequestFields (fallbackDomain : String) : ContactRecord :=
  { contact with
    requestID := if params.string "request_id" ≠ "" then params.string "request_id" else contact.requestID
    remark := if requestRemark params ≠ "" then requestRemark params else contact.remark
    displayName := if params.string "display_name" ≠ "" then params.string "display_name" else contact.displayName
    avatarURL := if params.string "avatar_url" ≠ "" then params.string "avatar_url" else contact.avatarURL
    domain :=
      if params.string "domain" ≠ "" then params.string "domain"
      else if contact.domain = "" then fallbackDomain
      else contact.domain }

def peerReactivationRequest (requesterMXID : String) : PeerReactivationRequest where
  contact := { contact with requestID := fallbackString (params.string "request_id") contact.requestID }
  requesterMXID := requesterMXID
  remoteNodeBaseURL := params.string "remote_node_base_url"
  displayName := params.string "display_name"
  avatarURL := params.string "avatar_url"
  domain := params.string "domain"
  remark := requestRemark params

def reactivatePeer (home : Home) (contact : ContactRecord) (params : Params) : Act PeerReactivationResult :=
  ExceptT.mk (outside (.reactivatePeer (peerReactivationRequest contact params home.ownerMXID)))

/-- `ResolveExistingRequest`. -/
def resolveExistingRequest (home : Home) (existing : ContactRecord) (params : Params) (fallbackDomain : String) : Act View := do
  let contact ← internal (ensureAcceptedProjection existing)
  if !acceptedStatus contact.status ∨ params.string "remote_node_base_url" = "" ∨
    domainFromMXID contact.peerMXID = home.serverName then viewWithOperation "contacts.request" contact
  else
    let result ← reactivatePeer home contact params
    if result.pendingInbound || result.notRetained then createReplacementRequest contact params fallbackDomain
    else viewWithOperation "contacts.request" contact

section

variable (existing : ContactRecord)

/-- `ResendPendingOutbound`. -/
def resendPendingOutbound (params : Params) (fallbackDomain : String) : Act View := do
  let contact := mergeRequestFields existing params fallbackDomain
  if contact.roomID ≠ "" then ExceptT.mk (outside (.inviteRoom contact))
  internal (save contact)
  viewWithOperation "contacts.request" contact

/-- `RequestPeerApproval`. -/
def requestPeerApproval (params : Params) (fallbackDomain : String) (sendMatrixInvite : Bool) : Act View := do
  if trimSpace existing.roomID = "" then createRequest existing.peerMXID params fallbackDomain
  else
    let contact := { mergeRequestFields existing params fallbackDomain with status := "pending_outbound" }
    if sendMatrixInvite then ExceptT.mk (outside (.inviteRoom contact))
    internal (save contact)
    viewWithOperation "contacts.request" contact

/-- `directRoomJoinFailure`. -/
def directRoomJoinFailure (outcome : JoinOutcome) : ApiError :=
  outcome.failure.getD
    (internalError ("direct room join returned outcome " ++ toString outcome.kind.number ++ " without failure"))

/-- `joinRoom`, which answers an outcome. -/
def joinDirectRoom (roomID : String) (params : Params) (mode : JoinMode) (useRoomServerFallback : Bool) : Act JoinOutcome :=
  ExceptT.lift (outside (.joinRoom roomID (params.strings "server_names") mode useRoomServerFallback))

def saveAccepted (contact : ContactRecord) : Act View := do
  internal (save contact)
  viewWithOperation "contacts.request" contact

def acceptedInbound (roomID : String) : ContactRecord :=
  { contact with
    roomID := roomID
    displayName := if contact.displayName = "" then params.string "display_name" else contact.displayName
    avatarURL := if contact.avatarURL = "" then params.string "avatar_url" else contact.avatarURL
    domain := if contact.domain = "" then params.string "domain" else contact.domain
    status := "accepted"
    remark := "" }

variable (home : Home)

/-- `AcceptPendingInbound`. -/
def acceptPendingInbound (contact : ContactRecord) (params : Params) : Act View := do
  if contact.roomID = "" then saveAccepted (acceptedInbound contact params "")
  else
    let join ← joinDirectRoom contact.roomID params .normal false
    if join.kind = .inviteRequired then
      let peer ← reactivatePeer home contact params
      let fallbackDomain := fallbackString (params.string "domain") contact.domain
      if peer.pendingInbound then requestPeerApproval contact params fallbackDomain false
      else if peer.notRetained then requestPeerApproval contact params fallbackDomain true
      else
        let join ← joinDirectRoom contact.roomID params .reactivation false
        if join.kind ≠ .succeeded then throw (directRoomJoinFailure join)
        else saveAccepted (acceptedInbound contact params join.roomID)
    else if join.kind ≠ .succeeded then throw (directRoomJoinFailure join)
    else saveAccepted (acceptedInbound contact params join.roomID)

def restored (fallbackDomain roomID : String) : ContactRecord :=
  { contact with
    roomID := roomID
    displayName := if params.string "display_name" ≠ "" then params.string "display_name" else contact.displayName
    avatarURL := if params.string "avatar_url" ≠ "" then params.string "avatar_url" else contact.avatarURL
    domain :=
      if params.string "domain" ≠ "" then params.string "domain"
      else if contact.domain = "" then fallbackDomain
      else contact.domain
    status := "accepted"
    remark := ""
    requestID := fallbackString (params.string "request_id") contact.requestID }

/-- `RestoreDeleted`. -/
def restoreDeleted (contact : ContactRecord) (params : Params) (fallbackDomain : String) : Act View := do
  let replacementDomain := fallbackString (fallbackString (params.string "domain") contact.domain) fallbackDomain
  if contact.roomID = "" then saveAccepted (restored contact params fallbackDomain "")
  else if params.string "remote_node_base_url" ≠ "" ∧ domainFromMXID contact.peerMXID ≠ home.serverName then
    let peer ← reactivatePeer home contact params
    if peer.notRetained || peer.pendingInbound then createReplacementRequest contact params replacementDomain
    else
      let join ← joinDirectRoom contact.roomID params .reactivation true
      if join.kind ≠ .succeeded then throw (directRoomJoinFailure join)
      else saveAccepted (restored contact params fallbackDomain join.roomID)
  else
    let join ← joinDirectRoom contact.roomID params .normal false
    if join.kind = .inviteRequired then
      let peer ← reactivatePeer home contact params
      if peer.pendingInbound then requestPeerApproval contact params replacementDomain false
      else if peer.notRetained then createReplacementRequest contact params replacementDomain
      else
        let join ← joinDirectRoom contact.roomID params .reactivation false
        if join.kind ≠ .succeeded then throw (directRoomJoinFailure join)
        else saveAccepted (restored contact params fallbackDomain join.roomID)
    else if join.kind ≠ .succeeded then throw (directRoomJoinFailure join)
    else saveAccepted (restored contact params fallbackDomain join.roomID)

def retainedContact (peerMXID : String) (params : Params) (domain roomID : String) : ContactRecord :=
  { ContactRecord.zero with
    roomID := roomID
    peerMXID := peerMXID
    displayName := params.string "display_name"
    avatarURL := params.string "avatar_url"
    domain := domain
    status := "accepted" }

/-- `RestoreRetainedPeer`; `none` when a fresh request should be created. -/
def restoreRetainedPeer (peerMXID : String) (params : Params) (domain : String) : Act (Option View) := do
  if params.string "remote_node_base_url" = "" ∨ domain = "" ∨ domain = home.serverName then return none
  else
    let peer ← reactivatePeer home { ContactRecord.zero with peerMXID := peerMXID, domain := domain } params
    if peer.notRetained || peer.pendingInbound || trimSpace peer.roomID = "" then return none
    else
      let join ← joinDirectRoom peer.roomID params .reactivation true
      if join.kind = .retainedUnavailable then
        return some (← createReplacementRequest (retainedContact peerMXID params domain peer.roomID) params domain)
      else if join.kind ≠ .succeeded then throw (directRoomJoinFailure join)
      else return some (← saveAccepted (retainedContact peerMXID params domain join.roomID))

def requestForPeer (peerMXID : String) (params : Params) : Act View := do
  if ← internal (ExceptT.mk (outside (.peerBlocked peerMXID))) then throw (statusError 403 "already blocked")
  else
    let domain := if params.string "domain" = "" then domainFromMXID peerMXID else params.string "domain"
    match ← internal (lookupByPeer peerMXID) with
    | some existing =>
      if lowerTrim existing.status = "deleted" then restoreDeleted home existing params domain
      else if lowerTrim existing.status = "pending_inbound" then acceptPendingInbound home existing params
      else if lowerTrim existing.status = "pending_outbound" then resendPendingOutbound existing params domain
      else resolveExistingRequest home existing params (fallbackString domain existing.domain)
    | none =>
      match ← restoreRetainedPeer home peerMXID params domain with
      | some view => return view
      | none => createRequest peerMXID params domain

variable (params : Params)

/-- `Request`. -/
def request : Act Response := do
  let peerMXID := params.string "mxid"
  if peerMXID = "" then throw (badRequest "mxid is required")
  else if peerMXID = home.ownerMXID then throw (badRequest "mxid must be a remote peer")
  else return .view (← serializePeer peerMXID (requestForPeer home peerMXID params))

/-! ## Decisions -/

/-- `serializeRoomPeerMutation`. -/
def serializeRoomPeerMutation (mutate : Act Response) : Act Response := do
  let contact ← if params.string "room_id" ≠ "" then internal (lookupByRoom (params.string "room_id")) else pure none
  let peerMXID :=
    match contact with
    | some contact => if contact.peerMXID ≠ "" then contact.peerMXID else namedPeer params
    | none => namedPeer params
  serializePeer (fallbackRaw peerMXID (params.string "room_id")) mutate

def requestNotFound : ApiError := codedError 404 "request_not_found" "contact request not found"

def requestExpired : ApiError := codedError 410 "request_expired" "contact request expired"

def decided (roomID status remark : String) : ContactRecord where
  roomID := roomID
  peerMXID := if namedPeer params = "" then existing.peerMXID else namedPeer params
  displayName := if existing.displayName ≠ "" then existing.displayName else params.string "display_name"
  displayNameOverride := false
  avatarURL := if params.string "avatar_url" = "" then existing.avatarURL else params.string "avatar_url"
  remark := remark
  domain := if params.string "domain" = "" then existing.domain else params.string "domain"
  status := status
  requestID := fallbackString existing.requestID (params.string "request_id")

def settle (action : String) (contact expected : ContactRecord) (authoritativeAccepted : Bool) : Act Response := do
  let (current, saved) ← internal (saveDecision contact expected authoritativeAccepted)
  if !saved then return .view (← contactDecisionView action current)
  else return .view (← viewWithOperation action contact)

def settleUnconfirmed : Act Response := do
  let contact := { existing with
    status := "joining"
    requestID := fallbackString existing.requestID (params.string "request_id") }
  let (current, saved) ← internal (saveDecision contact existing false)
  if !saved then return .view (← contactDecisionView "contacts.requests.accept" current)
  else
    let view ← viewWithOperation "contacts.requests.accept" contact
    return .view { view with errorCode := matrixJoinUnconfirmedCode, currentRoomID := existing.roomID }

def requestAcceptForPeer : Act Response := do
  match ← internal (lookupDecisionContact (params.string "room_id") (namedPeer params)) with
  | none => throw requestNotFound
  | some existing =>
    if contactDeleted existing.status then throw requestExpired
    else if acceptedStatus existing.status ∧ !home.verifyAccepted then
      return .view (← viewWithOperation "contacts.requests.accept" existing)
    else
      match ← ExceptT.lift (outside (.acceptRoom existing (params.strings "server_names"))) with
      | .error err =>
        if err.code = matrixJoinUnconfirmedCode then settleUnconfirmed existing params else throw err
      | .ok resolved =>
        if trimSpace resolved = "" then throw (internalError "accepted direct room is empty")
        else settle "contacts.requests.accept" (decided existing params (trimSpace resolved) "accepted" "") existing true

def requestAccept : Act Response :=
  serializeRoomPeerMutation params (requestAcceptForPeer home params)

/-- `matrixContactJoined`: whether the owner is joined, if that can be told. -/
def matrixContactJoined (existing : ContactRecord) : Act (Option Bool) := do
  if existing.roomID = "" ∨ existing.peerMXID = "" ∨ trimSpace home.ownerMXID = "" then return none
  else return some (← internal (ExceptT.mk (outside (.matrixJoined existing.roomID (trimSpace home.ownerMXID)))))

/-- `acceptedContactFromMatrix`. -/
def acceptedContactFromMatrix (existing : ContactRecord) : Act (Option ContactRecord) := do
  match ← matrixContactJoined home existing with
  | some true =>
    let accepted := { existing with status := "accepted", remark := "" }
    let (current, saved) ← internal (saveDecision accepted existing true)
    return some (if saved then accepted else current)
  | _ => return none

def rejectUndecided : Act Response := do
  let action := "contacts.requests.reject"
  if equalFold (trimSpace existing.status) "joining" then
    return .view (← contactDecisionView action existing)
  else if equalFold (trimSpace existing.status) "rejected" ∨ equalFold (trimSpace existing.status) "reject" then
    return .view (← viewWithOperation action existing)
  else settle action (decided existing params existing.roomID "rejected" existing.remark) existing false

end

def requestRejectForPeer (home : Home) (params : Params) : Act Response := do
  let action := "contacts.requests.reject"
  match ← internal (lookupDecisionContact (params.string "room_id") (namedPeer params)) with
  | none => throw requestNotFound
  | some existing =>
    if contactDeleted existing.status then throw requestExpired
    else if acceptedStatus existing.status then
      let joined ← if home.verifyAccepted then matrixContactJoined home existing else pure none
      -- an accepted contact that Matrix says is not joined is stale
      if joined ≠ some false then return .view (← viewWithOperation action existing)
      else rejectUndecided existing params
    else
      match ← acceptedContactFromMatrix home existing with
      | some current => return .view (← contactDecisionView action current)
      | none => rejectUndecided existing params

def requestReject (home : Home) (params : Params) : Act Response :=
  serializeRoomPeerMutation params (requestRejectForPeer home params)

/-! ## Deletions and updates -/

def deletionContact (params : Params) : Option ContactRecord → ContactRecord
  | some contact => contact
  | none => { ContactRecord.zero with
      roomID := params.string "room_id"
      peerMXID := namedPeer params
      displayName := params.string "display_name"
      avatarURL := params.string "avatar_url"
      domain := params.string "domain"
      remark := requestRemark params }

def deletedContact : ContactRecord :=
  { contact with
    status := "deleted"
    displayName := if contact.displayName = "" then params.string "display_name" else contact.displayName
    avatarURL := if contact.avatarURL = "" then params.string "avatar_url" else contact.avatarURL
    domain := if contact.domain = "" then params.string "domain" else contact.domain }

section

variable (params : Params)

def requestDeleteForPeer : Act Response := do
  let contact := deletionContact params (← internal (lookupByRoom (params.string "room_id")))
  if acceptedStatus contact.status then statusOperationResult "contacts.requests.delete" contact.status contact.roomID
  else
    internal (save (deletedContact contact params))
    statusOperationResult "contacts.requests.delete" "deleted" contact.roomID

def requestDelete : Act Response := serializeRoomPeerMutation params (requestDeleteForPeer params)

def deleteForPeer : Act Response := do
  let contact := deletionContact params (← internal (lookupByRoom (params.string "room_id")))
  if !contactDeleted contact.status ∧ contact.roomID ≠ "" then ExceptT.mk (outside (.leaveRoom contact.roomID))
  internal (save (deletedContact contact params))
  statusOperationResult "contacts.delete" "deleted" contact.roomID

/-- `Delete`. -/
def delete : Act Response := serializeRoomPeerMutation params (deleteForPeer params)

def contactNotFound : ApiError := statusError 404 "contact not found"

def updateForPeer : Act Response := do
  match ← internal (lookupByRoom (params.string "room_id")) with
  | none => throw contactNotFound
  | some existing =>
    if !acceptedStatus existing.status then throw (statusError 403 "contact is not accepted")
    else
      let contact := { existing with
        displayName := params.string "display_name"
        displayNameOverride := true
        domain := if params.string "domain" ≠ "" then params.string "domain" else existing.domain
        avatarURL := if params.string "avatar_url" ≠ "" then params.string "avatar_url" else existing.avatarURL }
      internal (save contact)
      return .view (← viewWithOperation "contacts.update" contact)

/-- `handleUpdate`. -/
def update : Act Response := do
  if params.string "room_id" = "" then throw (badRequest "room_id is required")
  else if params.string "display_name" = "" then throw (badRequest "display_name is required")
  else
    match ← internal (lookupByRoom (params.string "room_id")) with
    | none => throw contactNotFound
    | some contact => serializePeer contact.peerMXID (updateForPeer params)

end

/-! ## Reactivation -/

def retainedNotFound : ApiError := statusError 404 "retained contact not found"

def reactivated : ContactRecord :=
  { contact with
    displayName := if contact.displayName = "" then displayNameFromMXID (params.string "requester_mxid") else contact.displayName
    domain := if contact.domain = "" then domainFromMXID (params.string "requester_mxid") else contact.domain
    status := "pending_inbound"
    requestID := if params.string "request_id" ≠ "" then params.string "request_id" else contact.requestID }

end

/-- `handleReactivate`, which takes no lock. -/
def reactivate (home : Home) (params : Params) : Act Response := do
  let requesterMXID := params.string "requester_mxid"
  if requesterMXID = "" then throw (badRequest "requester_mxid is required")
  else if requesterMXID = home.ownerMXID then throw (badRequest "requester_mxid must be a remote peer")
  else
    match ← internal (lookupByPeer requesterMXID) with
    | none => throw retainedNotFound
    | some contact =>
      if params.string "room_id" ≠ "" ∧ contact.roomID ≠ params.string "room_id" then throw retainedNotFound
      else if params.string "room_id" = "" ∧ !acceptedStatus contact.status then throw retainedNotFound
      else if contactDeleted contact.status then throw retainedNotFound
      else if !acceptedStatus contact.status then
        internal (save (reactivated contact params))
        statusOperationResult "contacts.reactivate" "pending_inbound" contact.roomID
      else
        ExceptT.mk (outside (.reactivateRoom contact.roomID requesterMXID))
        statusOperationResult "contacts.reactivate" "invited" contact.roomID

end Dirextalk.Contacts

/-
  Dirextalk.Contacts.Projection — what Matrix events do to contacts
  (`p2p/internal/projector/direct_contacts.go`, `members.go` and `profiles.go`): an invite to
  a direct room, the owner's or the peer's join, and a room that is dissolved with the
  account of the peer.

  Each of them holds the lock of a peer: of the sender, of the member, of the peer that is
  named as deleted, or of the contact that a lookup before found in the room.
-/
import Dirextalk.Contacts.Workflows

namespace Dirextalk.Contacts

open Lib Lib.Go Dirextalk.Action
open Members (domainFromMXID displayNameFromMXID lowerTrim)

/-! ## Invites -/

structure StrippedState where
  type : String
  sender : String
  stateKey : String
  content : Params

structure InviteEvent where
  roomID : String
  eventID : String
  senderID : String
  isDirect : Bool
  /-- `unsigned`, empty when it is not there or cannot be read -/
  inviteRoomState : List StrippedState

def roomProfileEventType : String := "io.dirextalk.room.profile"

def roomTypeDirect : String := "io.dirextalk.room.direct"

def contactRequestFromContent (roomID sender : String) (content : Params) (ownerMXID : String) : Option ContactRecord :=
  let requester := trimSpace sender
  if requester = "" ∨ requester = ownerMXID then none
  else if content.string "target_mxid" ≠ "" ∧ content.string "target_mxid" ≠ ownerMXID then none
  else
    let claimed := content.string "requester_mxid"
    -- the profile is that of the sender
    let trusted := claimed = "" ∨ claimed = requester
    some {
      roomID := roomID
      peerMXID := requester
      displayName :=
        if trusted then fallbackString (content.string "display_name") (displayNameFromMXID requester)
          else displayNameFromMXID requester
      displayNameOverride := false
      avatarURL := if trusted then content.string "avatar_url" else ""
      remark := if trusted then requestRemark content else ""
      domain := domainFromMXID requester
      status := "pending_inbound"
      requestID := "" }

section

variable (event : InviteEvent) (ownerMXID : String)

def contactRequestFromInvite : Option ContactRecord :=
  event.inviteRoomState.findSome? fun state =>
    if state.type = roomProfileEventType ∧ state.content.string "room_type" = roomTypeDirect then
      contactRequestFromContent event.roomID event.senderID state.content ownerMXID
    else none

def requesterState (event : InviteEvent) : Option StrippedState :=
  event.inviteRoomState.find? fun state =>
    state.type = "m.room.member" ∧ (state.stateKey = event.senderID ∨ state.sender = event.senderID) ∧
      (state.content.string "membership" = "" ∨ equalFold (state.content.string "membership") "join")

def directContactFromInvite : Option ContactRecord :=
  if event.inviteRoomState = [] ∨ event.senderID = "" ∨ event.senderID = ownerMXID then none
  else
    let profile := requesterState event
    some { ContactRecord.zero with
      roomID := event.roomID
      peerMXID := event.senderID
      displayName := fallbackString ((profile.map (·.content.string "displayname")).getD "") (displayNameFromMXID event.senderID)
      avatarURL := (profile.map (·.content.string "avatar_url")).getD ""
      domain := domainFromMXID event.senderID
      status := "pending_inbound" }

/-- The contact of an invite to the owner, if it is one to a direct room. -/
def InviteEvent.contact : Option ContactRecord :=
  match contactRequestFromInvite event ownerMXID with
  | some contact => some { contact with requestID := event.eventID }
  | none =>
    if event.isDirect then
      some { (directContactFromInvite event ownerMXID).getD { ContactRecord.zero with
          roomID := event.roomID
          peerMXID := event.senderID
          displayName := displayNameFromMXID event.senderID
          domain := domainFromMXID event.senderID
          status := "pending_inbound" } with
        requestID := event.eventID }
    else none

end

section

variable (contact : ContactRecord)

/-- `reinviteAcceptedContactToRetainedRoom`. -/
def reinviteAcceptedContactToRetainedRoom : Work Bool := do
  if trimSpace contact.roomID = "" ∨ trimSpace contact.peerMXID = "" then return true
  else return !(← ExceptT.mk (outside (.reinviteAcceptedContact contact)))

def replacement (existing invite : ContactRecord) (roomID : String) : ContactRecord :=
  { existing with
    roomID := roomID
    status := "accepted"
    remark := ""
    displayName :=
      if !existing.displayNameOverride ∧ trimSpace invite.displayName ≠ "" then invite.displayName else existing.displayName
    avatarURL := if trimSpace invite.avatarURL ≠ "" then invite.avatarURL else existing.avatarURL
    domain := if trimSpace existing.domain = "" then invite.domain else existing.domain }

def acceptReplacementDirectInvite (existing invite : ContactRecord) : Work Unit := do
  let roomID := trimSpace invite.roomID
  if roomID = "" then return ()
  else
    let joined ← ExceptT.mk (outside (.joinReplacementRoom roomID))
    save (replacement existing invite (if trimSpace joined ≠ "" then joined else roomID))

/-- The request of an invite that finds no contact, or one that was deleted or rejected. -/
def saveRequested : Work Unit := do
  save contact
  ExceptT.mk (outside (.appendEvent "contact.requested" contact.roomID))

/-- `savePendingInboundContactForPeer`. The index on peers leaves at most one row to go through. -/
def savePendingInboundContactForPeer : Work Unit := do
  if ← ExceptT.mk (outside (.peerBlocked contact.peerMXID)) then return ()
  else
    match ← ExceptT.mk (Prog.ask (σ := ContactSig) (.contactByPeer contact.peerMXID)) with
    | none => saveRequested contact
    | some existing =>
      if acceptedStatus existing.status then
        if ← reinviteAcceptedContactToRetainedRoom existing then return ()
        else acceptReplacementDirectInvite existing contact
      else if equalFold (trimSpace existing.status) "pending_outbound" then acceptReplacementDirectInvite existing contact
      else if !contactDeleted existing.status ∧ !equalFold (trimSpace existing.status) "rejected" ∧
          !equalFold (trimSpace existing.status) "reject" then return ()
      else saveRequested contact

def savePendingInboundContact : Work Unit :=
  serializePeer contact.peerMXID (savePendingInboundContactForPeer contact)

end

/-! ## Joins -/

def contactAcceptProjectionPending (status : String) : Bool :=
  lowerTrim status ∈ ["pending_inbound", "joining", "reject", "rejected"]

def projectOwnerJoinForPeer (roomID : String) : Work Unit := do
  match ← lookupByRoom roomID with
  | none => return ()
  | some current =>
    if !contactAcceptProjectionPending current.status then return ()
    else
      let _ ← saveProjectionIfCurrent { current with status := "accepted", remark := "" } current
      return ()

def projectOwnerDirectContactJoin (roomID : String) : Work Unit := do
  match ← lookupByRoom roomID with
  | none => return ()
  | some contact =>
    if !contactAcceptProjectionPending contact.status then return ()
    else serializePeer contact.peerMXID (projectOwnerJoinForPeer roomID)

/-- A member of a room as it is projected; `hasAvatar` says that the event names an avatar. -/
structure JoinedMember where
  roomID : String
  userID : String
  displayName : String
  avatarURL : String
  hasAvatar : Bool

section

variable (member : JoinedMember)

def JoinedMember.update (contact : ContactRecord) : ContactRecord :=
  { contact with
    peerMXID := if contact.peerMXID = "" then member.userID else contact.peerMXID
    displayName := if member.displayName ≠ "" ∧ !contact.displayNameOverride then member.displayName else contact.displayName
    avatarURL := if member.hasAvatar then member.avatarURL else contact.avatarURL
    domain := if contact.domain = "" then domainFromMXID member.userID else contact.domain
    status := if equalFold contact.status "pending_outbound" then "accepted" else contact.status
    remark := if equalFold contact.status "pending_outbound" then "" else contact.remark }

/-- The update counts as a change: a name, an avatar or a status that differs, or a peer or a domain that was empty. -/
def JoinedMember.changes (contact : ContactRecord) : Bool :=
  contact.peerMXID = "" || (member.update contact).displayName ≠ contact.displayName ||
    (member.update contact).avatarURL ≠ contact.avatarURL || contact.domain = "" || equalFold contact.status "pending_outbound"

def projectDirectContactMemberForPeer : Work Unit := do
  match ← lookupByRoom member.roomID with
  | none => return ()
  | some contact =>
    if contact.peerMXID ≠ "" ∧ contact.peerMXID ≠ member.userID then return ()
    else if !member.changes contact then return ()
    else
      let _ ← saveProjectionIfCurrent (member.update contact) contact
      return ()

def projectDirectContactMember : Work Unit :=
  serializePeer member.userID (projectDirectContactMemberForPeer member)

end

/-! ## Deleted accounts -/

def markDeletedForPeer (roomID peerMXID : String) : Work Unit := do
  match ← lookupByRoom roomID with
  | none => return ()
  | some contact =>
    if peerMXID ≠ "" ∧ contact.peerMXID ≠ "" ∧ contact.peerMXID ≠ peerMXID then return ()
    else save { contact with peerMXID := if peerMXID ≠ "" then peerMXID else contact.peerMXID, status := "deleted" }

def markDirectContactDeleted (roomID peerMXID : String) : Work Unit := do
  if trimSpace peerMXID ≠ "" then serializePeer (trimSpace peerMXID) (markDeletedForPeer roomID peerMXID)
  else
    match ← lookupByRoom roomID with
    | none => return ()
    | some contact => serializePeer contact.peerMXID (markDeletedForPeer roomID peerMXID)

end Dirextalk.Contacts

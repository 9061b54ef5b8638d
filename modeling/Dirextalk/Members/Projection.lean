/-
  Dirextalk.Members.Projection — what Matrix events do to member rows: `m.room.member`,
  member policies and join requests (`p2p/internal/projector/members.go` and `profiles.go`,
  with `internal/dirextalkprojection/profiles.go`).

  Events are taken as the projector reads their content. A row is looked up, the record
  for it computed, and saved: plainly for member events and policies, and for join
  requests only if the row still has the request id and the membership that were read, or
  is still absent.
-/
import Dirextalk.Members.Calls

namespace Dirextalk.Members

open Lib Lib.Go Dirextalk.Action

def appendEvent (type roomID : String) : AskWork Unit := ExceptT.mk (side (.appendEvent type roomID))

/-- `productpolicy.UserIDFromStateKey`. -/
def userIDFromStateKey (stateKey : String) : String := trimPrefix (trimSpace stateKey) "user:"

/-! ## Join requests -/

structure JoinRequestEvent where
  roomID : String
  stateKey : String
  content : Params
  /-- `eventTime` -/
  time : Int

structure JoinRequestContent where
  userID : String
  channelID : String
  status : String
  requestID : String

/-- `dirextalkstate.JoinRequestFromContent`. -/
def JoinRequestEvent.request (event : JoinRequestEvent) : JoinRequestContent where
  userID :=
    if event.content.string "user_id" ≠ "" then event.content.string "user_id"
    else trimSpace (userIDFromStateKey event.stateKey)
  channelID := event.content.string "channel_id"
  status := lowerTrim (event.content.string "status")
  requestID := event.content.string "request_id"

/-- The membership a join request of some status stands for. -/
def joinRequestMembership (status : String) : Option String :=
  if status = "pending" then some "pending"
  else if status = "approved" then some "invite"
  else if status = "rejected" then some "reject"
  else none

def preserveApprovedJoinRequestWorkflow (existing : MemberRecord) : Bool :=
  lowerTrim existing.membership ∈ ["approved", "joining", "join_failed", "join"]

def preserveJoinRequestGeneration (existing : MemberRecord) (requestID : String) : Bool :=
  trimSpace existing.requestID != "" && trimSpace existing.requestID != trimSpace requestID

def joinRequested (roomID userID membership requestID : String) (now : Int) (m : MemberRecord) : MemberRecord :=
  { m with
    roomID := roomID
    userID := userID
    membership := membership
    role := fallbackString m.role "member"
    domain := fallbackString m.domain (domainFromMXID userID)
    joinedAt := if m.joinedAt = 0 then now else m.joinedAt
    requestID := if requestID ≠ "" then requestID else m.requestID }

/-- `JoinRequestMember`; `none` is a status it does not know. -/
def joinRequestMember (roomID channelID userID : String) (existing : Option MemberRecord) (status requestID : String)
    (now : Int) : Option MemberRecord :=
  let status := lowerTrim status
  let requestID := trimSpace requestID
  (joinRequestMembership status).map fun membership =>
    match existing with
    | some member =>
      if status = "approved" ∧ preserveApprovedJoinRequestWorkflow member then member
      else if preserveJoinRequestGeneration member requestID then member
      else joinRequested roomID userID membership requestID now member
    | none =>
      joinRequested roomID userID membership requestID now
        { MemberRecord.zero with roomID := roomID, channelID := channelID, userID := userID }

/-- The save of a projected join request: whether the row was written. -/
def saveJoinRequest (member : MemberRecord) : Option MemberRecord → Work Bool
  | some expected =>
    if member = expected then pure false else saveMemberIfState member expected.requestID expected.membership
  | none => saveMemberIfAbsent member

def projectJoinRequestState (event : JoinRequestEvent) : Work Unit := do
  let request := event.request
  if request.userID = "" then return ()
  else
    let existing ← lookupMember event.roomID request.userID
    match joinRequestMember event.roomID request.channelID request.userID existing request.status request.requestID
      event.time with
    | none => return ()
    | some member =>
      if ← saveJoinRequest member existing then appendEvent "channel.join_request.changed" event.roomID
      else return ()

/-! ## Member policies -/

structure MemberPolicyEvent where
  roomID : String
  stateKey : String
  role : String
  muted : Option Bool
  time : Int

/-- `MemberPolicy`. -/
def memberPolicy (roomID userID : String) (existing : Option MemberRecord) (role : String) (muted : Option Bool) (now : Int) :
    MemberRecord :=
  let member := existing.getD { MemberRecord.zero with
    roomID := roomID
    userID := userID
    domain := domainFromMXID userID
    membership := "join"
    role := "member"
    joinedAt := now }
  { member with
    role := if trimSpace role ≠ "" then trimSpace role else member.role
    muted := muted.getD member.muted }

def projectMemberPolicyState (event : MemberPolicyEvent) : Work Unit := do
  let userID := trimSpace (userIDFromStateKey event.stateKey)
  if userID = "" then return ()
  else
    let existing ← lookupMember event.roomID userID
    saveMember (memberPolicy event.roomID userID existing event.role event.muted event.time)
    appendEvent "room.member_policy.projected" event.roomID

/-! ## Member events -/

inductive ProductInvite where
  | group (roomID : String)
  | channel (channel : Channel)

structure MemberEvent where
  roomID : String
  eventID : String
  senderID : String
  stateKey : String
  userID : String
  channelID : String
  membership : String
  displayName : Option String
  avatarURL : Option String
  role : String
  muted : Option Bool
  publicJoinRequestID : String
  isDirect : Bool
  /-- a contact request can be read off the invite -/
  contactRequest : Bool
  productInvite : Option ProductInvite
  time : Int

section

variable (event : MemberEvent)

def MemberEvent.user : String :=
  if event.userID ≠ "" then event.userID
  else if userIDFromStateKey event.stateKey ≠ "" then userIDFromStateKey event.stateKey
  else event.senderID

def preservePublicJoinWorkflowOnInvite (existing : MemberRecord) (eventRequestID : String) : Bool :=
  trimSpace existing.requestID != "" && trimSpace eventRequestID == trimSpace existing.requestID &&
    decide (lowerTrim existing.membership ∈ ["pending", "approved", "joining", "join_failed", "reject", "rejected", "join"])

/-- The membership a member event names; one that names none leaves the row as it is, and a row that is not
there or names none is joined. -/
def MemberEvent.named (existing : MemberRecord) : String :=
  normalizeMemberMembership (fallbackString event.membership (fallbackString existing.membership "join"))

/-- The invite is a step of the public join the row is in. -/
def MemberEvent.keepsWorkflow (existing : MemberRecord) : Bool :=
  equalFold (event.named existing) "invite" && preservePublicJoinWorkflowOnInvite existing event.publicJoinRequestID

def MemberEvent.record (channelID : String) (existing : MemberRecord) : MemberRecord :=
  let named := event.named existing
  { roomID := event.roomID
    channelID := channelID
    userID := event.user
    displayName := event.displayName.getD existing.displayName
    avatarURL := event.avatarURL.getD existing.avatarURL
    domain := fallbackString existing.domain (domainFromMXID event.user)
    membership := if event.keepsWorkflow existing then existing.membership else named
    role := fallbackString (if event.role ≠ "" then event.role else existing.role) "member"
    muted := event.muted.getD existing.muted
    joinedAt :=
      if existing.joinedAt = 0 ∨ memberMembershipJoined named ∧ !memberMembershipJoined existing.membership then event.time
      else existing.joinedAt
    requesterNodeBaseURL := existing.requesterNodeBaseURL
    requestID :=
      if equalFold named "invite" ∧ !event.keepsWorkflow existing then
        if event.publicJoinRequestID ≠ "" then event.publicJoinRequestID else event.eventID
      else existing.requestID }

/-- A marked invite of another generation than the row's. -/
def MemberEvent.stale : Option MemberRecord → Bool
  | some existing =>
    equalFold event.membership "invite" && event.publicJoinRequestID != "" && existing.requestID != "" &&
      existing.requestID != event.publicJoinRequestID
  | none => false

/-- `channelIDForRoom`. -/
def channelIDForRoom (roomID : String) : AskWork String := do
  if trimSpace roomID = "" then return ""
  else
    match ← ExceptT.lift (channelByIDOrRoom "" roomID).run with
    | .ok (some channel) => return channel.channelID
    | _ => return ""

def projectContact (roomID userID : String) : AskWork Unit := ExceptT.mk (side (.projectContact roomID userID))

/-- `projectProductInvite`, and the save of what it returns. -/
def projectProductInvite (member : MemberRecord) : Option ProductInvite → Work Unit
  | none => return ()
  | some (.group roomID) => do
    ExceptT.mk (side (.saveGroup roomID))
    saveMember { member with roomID := roomID, channelID := "" }
  | some (.channel channel) => do
    ExceptT.mk (side (.saveChannel channel))
    saveMember { member with roomID := channel.roomID, channelID := channel.channelID }

def MemberEvent.channel : AskWork String :=
  if event.channelID = "" then channelIDForRoom event.roomID else pure event.channelID

end

/-- The event of a row that is written. -/
def projectMemberRecord (node : Node) (event : MemberEvent) (member : MemberRecord) : Work Unit := do
  saveMember member
  -- the error of the event is ignored
  let _ ← ExceptT.lift (appendEvent "room.member.projected" member.roomID).run
  if equalFold member.membership "invite" ∧ !event.isDirect ∧ event.user = node.ownerMXID ∧ event.productInvite.isSome then
    projectProductInvite member event.productInvite
  else if member.channelID = "" ∧ equalFold member.membership "join" ∧ event.user ≠ "" then
    projectContact member.roomID event.user
  else return ()

def projectMember (node : Node) (event : MemberEvent) : Work Unit := do
  let channelID ← event.channel
  let existing ← lookupMember event.roomID event.user
  if event.stale existing then return ()
  else
    let channelID := if channelID = "" then (existing.map (·.channelID)).getD "" else channelID
    let member := event.record channelID (existing.getD MemberRecord.zero)
    if member.channelID = "" ∧ equalFold member.membership "invite" ∧ event.user = node.ownerMXID ∧
        (event.contactRequest ∨ event.isDirect) then
      -- a direct room: the contact is saved in place of the row
      projectContact event.roomID event.senderID
    else projectMemberRecord node event member

end Dirextalk.Members

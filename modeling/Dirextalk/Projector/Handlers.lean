/-
  Dirextalk.Projector.Handlers — the projector: `ProjectOutputEvent` and the handlers it
  dispatches to (`p2p/internal/projector`), with the ports of the service behind them
  (`p2p/projector_ports.go`, `service_member_persistence.go`).

  A handler runs its statements one by one on the tables; the first that is refused ends it
  and leaves what the others wrote. Statements are refused for what they say, not by the
  database: a conversation that would change its kind, a contact in the room or with the
  peer of another. Contacts are projected by the programs of `Contacts.Projection`, channel
  content by the projections of `Content.Projection`. The outbox takes every event and is
  left out; Matrix, the blocks and the counts of members are answers of the node.
-/
import Dirextalk.Channels.Store
import Dirextalk.Contacts.System
import Dirextalk.Content.Projection
import Dirextalk.Lib.Handler
import Dirextalk.Members.Projection

namespace Dirextalk.Projector

open Lib Lib.Go Dirextalk.Action Contacts
open Channels (ChannelRecord ChannelTable)
open Contacts (ContactRecord ContactCall ConversationKind ConversationRecord GroupRecord StrippedState)
open Members (MemberRecord MemberEvent domainFromMXID memberMembershipJoined)

/-! ## Events -/

structure RoomEvent where
  type : String
  roomID : String
  eventID : String
  sender : String
  stateKey : Option String
  originServerTS : Int
  /-- `none` if the content does not decode into an object -/
  content : Option Params
  /-- `unsigned.invite_room_state`, empty when it is not there or cannot be read -/
  inviteRoomState : List StrippedState

/-- A Matrix room id has no blanks around it. -/
def ValidRoomID (roomID : String) : Prop := trimSpace roomID = roomID ∧ roomID ≠ ""

/-- What the roomserver puts out; an invite is projected like the other events of a room. -/
inductive OutputEvent where
  | room (event : RoomEvent)
  | redacted (eventID : String)

/-! ## The node -/

structure State where
  tables : Tables
  channels : ChannelTable
  members : Members.Table
  content : Content.Tables .postgres

def State.empty : State := ⟨.empty, .empty, .empty, .empty _⟩

structure Node where
  ownerMXID : String
  agentRoomID : String
  now : Int
  /-- `spec.NewUserID` accepts the id -/
  validMXID : String → Bool
  /-- `CountProductMembers`, joined and pending -/
  counts : Members.Table → String → String → Int × Int
  /-- blocks, Matrix and the outbox, as the contact programs call them -/
  outside : (c : OutsideCall) → c.Ans

/-- A node whose Matrix refuses nothing it need not. -/
def Node.calm (ownerMXID : String) : Node where
  ownerMXID
  agentRoomID := ""
  now := 1
  validMXID _ := true
  counts _ _ _ := (0, 0)
  outside := OutsideCall.calm

abbrev Project := Handler State

variable (nd : Node)

section

variable (e : RoomEvent)

/-- `eventTime`. -/
def RoomEvent.time : Int := if 0 < e.originServerTS then e.originServerTS else nd.now

/-- `json.Unmarshal` into a map. -/
def RoomEvent.decoded : Project Params :=
  match e.content with
  | some content => pure content
  | none => throw "json: cannot unmarshal"

/-! ## Conversations, groups and channels -/

section

variable (roomID : String)

def conversationByRoom : Project (Option ConversationRecord) :=
  Handler.reads fun s => s.tables.conversations.find roomID

/-- `Save` of the conversation module. -/
def saveConversation (record : ConversationRecord) : Project Unit :=
  Handler.statement "conversation kind conflict" fun s =>
    (Conversations.upsert s.tables.conversations record).map fun conversations =>
      { s with tables := { s.tables with conversations } }

/-- `SetCreator`. -/
def setCreator (roomID creatorMXID : String) : Project Unit :=
  if trimSpace roomID = "" then pure ()
  else Handler.statement "conversation not found" fun s =>
    (s.tables.conversations.find (trimSpace roomID)).map fun record =>
      { s with tables := { s.tables with
        conversations := s.tables.conversations.put { record with createdByMXID := trimSpace creatorMXID } } }

/-- `DeleteKindByRoom`. -/
def deleteKindByRoom (kind : ConversationKind) : Project Unit := do
  if roomID = "" then return ()
  else
    let record ← conversationByRoom roomID
    if record.any (·.kind = kind) then
      Handler.modifies fun s =>
        { s with tables := { s.tables with conversations := s.tables.conversations.delete (·.matrixRoomID = roomID) } }
    else return ()

def groupByRoom : Project (Option GroupRecord) :=
  Handler.reads fun s => if roomID = "" then none else s.tables.groups.find roomID

def upsertGroup (group : GroupRecord) : Project Unit :=
  Handler.modifies fun s => { s with tables := { s.tables with groups := s.tables.groups.put group } }

def conversationFromGroup (group : GroupRecord) : ConversationRecord :=
  { ConversationRecord.of group.roomID .group with title := group.name, avatarURL := group.avatarURL }

/-- `Save` of the groups module. -/
def saveGroup (group : GroupRecord) : Project Unit := do
  upsertGroup group
  saveConversation (conversationFromGroup group)

/-- `Delete` of the groups module, which deletes a conversation of a group too. -/
def deleteGroup : Project Unit := do
  Handler.modifies fun s => { s with tables := { s.tables with groups := s.tables.groups.delete (·.roomID = roomID) } }
  deleteKindByRoom roomID .group

def channelByIDOrRoom (channelID roomID : String) : Project (Option ChannelRecord) :=
  Handler.reads fun s => s.channels.byIDOrRoom (trimSpace channelID) (trimSpace roomID)

def upsertChannel (channel : ChannelRecord) : Project Unit :=
  Handler.modifies fun s => { s with channels := s.channels.upsertChannel channel }

def deleteChannel (channelID : String) : Project Unit :=
  Handler.modifies fun s => { s with channels := s.channels.deleteChannel (trimSpace channelID) }

def conversationFromChannel (channel : ChannelRecord) : ConversationRecord :=
  { ConversationRecord.of channel.roomID .channel with title := channel.name, avatarURL := channel.avatarURL }

/-- `Save` of the channels module. -/
def saveChannel (channel : ChannelRecord) : Project Unit := do
  upsertChannel channel
  saveConversation (conversationFromChannel channel)

/-- `channelIDForRoom`. -/
def channelIDForRoom : Project String := do
  if trimSpace roomID = "" then return ""
  else return ((← channelByIDOrRoom "" roomID).map (·.channelID)).getD ""

/-! ## Contacts -/

/-- How the tables answer a call of a contact program. -/
def contactReply : (c : ContactCall) → State → c.Ans × State
  | .lock _, s => ((), s)
  | .unlock _, s => ((), s)
  | .lockSave _, s => ((), s)
  | .unlockSave, s => ((), s)
  | .contactByRoom roomID, s => (.ok (s.tables.contacts.byRoom roomID), s)
  | .contactByPeer peerMXID, s => (.ok (s.tables.contacts.byPeer peerMXID), s)
  | .listContacts, s => (.ok s.tables.contacts.rows.rows, s)
  | .listConversations, s => (.ok (Conversations.visible s.tables.conversations), s)
  | .conversationByRoom roomID, s => (.ok (s.tables.conversations.find roomID), s)
  | .upsertContact contact, s =>
    match s.tables.contacts.upsert contact with
    | some contacts => (.ok (), { s with tables := { s.tables with contacts } })
    | none => (.error "duplicate key value violates unique constraint", s)
  | .compareAndSwap contact expected, s =>
    match s.tables.compareAndSwap contact expected with
    | some (saved, tables) => (.ok saved, { s with tables })
    | none => (.error "contact projection", s)
  | .saveConversation record, s =>
    match Conversations.upsert s.tables.conversations record with
    | some conversations => (.ok (), { s with tables := { s.tables with conversations } })
    | none => (.error "conversation kind conflict", s)
  | .deleteConversation roomID, s =>
    (.ok (), { s with tables := { s.tables with conversations := s.tables.conversations.delete (·.matrixRoomID = roomID) } })
  | .deleteGroup roomID, s =>
    (.ok (), { s with tables := { s.tables with groups := s.tables.groups.delete (·.roomID = roomID) } })
  | .outside c, s => (nd.outside c, s)

def contacts {α : Type} (p : Work α) : Project α := Handler.ofProg (contactReply nd) p

/-! ## Members -/

def lookupMember (roomID userID : String) : Project (Option MemberRecord) :=
  Handler.reads fun s => if roomID = "" ∨ userID = "" then none else s.members.row roomID userID

/-- `RefreshCounts` of the channels module. -/
def refreshStoredChannelCounts (channelID : String) : Project Unit := do
  if trimSpace channelID = "" then return ()
  else
    match ← channelByIDOrRoom channelID "" with
    | none => return ()
    | some channel =>
      let counts ← Handler.reads fun s => nd.counts s.members channel.roomID (trimSpace channelID)
      saveChannel { channel with memberCount := counts.1, pendingJoinCount := counts.2 }

def refreshStoredGroupCounts : Project Unit := do
  match ← groupByRoom (trimSpace roomID) with
  | none => return ()
  | some group =>
    let counts ← Handler.reads fun s => nd.counts s.members (trimSpace roomID) ""
    upsertGroup { group with memberCount := counts.1 }

end

section

variable (member : MemberRecord)

/-- What every save of a member does after its row. -/
def refreshCounts : Project Unit :=
  if member.channelID = "" then refreshStoredGroupCounts nd member.roomID else refreshStoredChannelCounts nd member.channelID

def saveMember : Project Unit := do
  Handler.modifies fun s => { s with members := s.members.saveMember nd.now member }
  refreshCounts nd member

def saveMemberIfState (expectedRequestID expectedMembership : String) : Project Bool := do
  let saved ← Handler.answers fun s =>
    let r := s.members.saveMemberIfState nd.now member expectedRequestID expectedMembership
    (r.1, { s with members := r.2 })
  if saved then refreshCounts nd member
  return saved

def saveMemberIfAbsent : Project Bool := do
  let saved ← Handler.answers fun s =>
    let r := s.members.saveMemberIfAbsent nd.now member
    (r.1, { s with members := r.2 })
  if saved then refreshCounts nd member
  return saved

end

/-! ## Room state -/

/-- `RoomKindFromRoomType`. -/
def kindFromRoomType (roomType : String) : Option ConversationKind :=
  let t := toLower (trimSpace roomType)
  if t = "io.dirextalk.room.direct" then some .direct
  else if t = "io.dirextalk.room.group" then some .group
  else if t = "io.dirextalk.room.channel" then some .channel
  else none

def groupOrChannel (kind : ConversationKind) : Bool := kind = .group || kind = .channel

/-- `validFullMXID`. -/
def validFullMXID (value : String) : String := if nd.validMXID (trimSpace value) then trimSpace value else ""

def projectCreator : Project Unit :=
  if validFullMXID nd e.sender = "" then pure () else setCreator e.roomID (validFullMXID nd e.sender)

def createdConversation (kind : ConversationKind) : ConversationRecord :=
  { ConversationRecord.of e.roomID kind with projectionState := .pending, projectionReason := "room_profile_pending" }

def projectRoomCreate : Project Unit := do
  if e.stateKey ≠ some "" then return ()
  else
    let content ← e.decoded
    let kind := (kindFromRoomType (content.string "type")).filter groupOrChannel
    match ← conversationByRoom e.roomID with
    | some record =>
      if !groupOrChannel record.kind then return ()
      else if kind.any (· ≠ record.kind) then throw "conversation kind conflict"
      else projectCreator nd e
    | none =>
      match kind with
      | none => return ()
      | some kind =>
        saveConversation (createdConversation e kind)
        projectCreator nd e

def profileConversation (kind : ConversationKind) (content : Params) : ConversationRecord :=
  { ConversationRecord.of e.roomID kind with
    lifecycle := if content.boolOr "dissolved" false then .dissolved else .active
    title := fallbackString (content.string "name") (content.string "display_name")
    avatarURL := content.string "avatar_url" }

/-- `ChannelProfile`, over a zero record where there is no channel yet. -/
def channelProfile (roomID channelID : String) (existing : ChannelRecord) (content : Params) : ChannelRecord where
  channelID
  roomID
  name := fallbackString (content.string "name") (fallbackString existing.name channelID)
  description := if (content "description").isSome then content.string "description" else existing.description
  avatarURL := if (content "avatar_url").isSome then content.string "avatar_url" else existing.avatarURL
  visibility := fallbackString (content.string "visibility") (fallbackString existing.visibility "private")
  joinPolicy := fallbackString (content.string "join_policy") (fallbackString existing.joinPolicy "invite")
  channelType := fallbackString (content.string "channel_type") (fallbackString existing.channelType "post")
  commentsEnabled := content.boolOr "comments_enabled" existing.commentsEnabled
  muted := content.boolOr "muted" existing.muted
  memberCount := if existing.memberCount = 0 then 1 else existing.memberCount
  pendingJoinCount := existing.pendingJoinCount

section

variable (content : Params)

def projectChannelProfileContent : Project Unit := do
  let inRoom ← channelByIDOrRoom "" e.roomID
  let named := content.string "channel_id"
  let known := if named = "" then (inRoom.map (·.channelID)).getD "" else named
  let channelID := if known = "" then e.roomID else known
  let existing ← channelByIDOrRoom channelID e.roomID
  if content.boolOr "dissolved" false then deleteChannel channelID
  else upsertChannel (channelProfile e.roomID channelID (existing.getD .zero) content)

/-- `GroupProfile`. -/
def groupProfile (roomID : String) (existing : Option GroupRecord) (content : Params) : GroupRecord where
  roomID
  name := fallbackString (content.string "name") (fallbackString ((existing.map (·.name)).getD "") roomID)
  topic := if (content "topic").isSome then content.string "topic" else (existing.map (·.topic)).getD ""
  avatarURL := if (content "avatar_url").isSome then content.string "avatar_url" else (existing.map (·.avatarURL)).getD ""
  memberCount := if (existing.map (·.memberCount)).getD 0 = 0 then 1 else (existing.map (·.memberCount)).getD 0
  invitePolicy :=
    fallbackString (content.string "invite_policy") (fallbackString ((existing.map (·.invitePolicy)).getD "") "member")
  muted := content.boolOr "muted" ((existing.map (·.muted)).getD false)

def projectGroupProfileContent : Project Unit := do
  if content.boolOr "dissolved" false then deleteGroup e.roomID
  else
    let existing ← groupByRoom e.roomID
    saveGroup (groupProfile e.roomID existing content)

/-- The peer whose account a dissolved direct room says is deleted. -/
def deletedPeer : String :=
  let requester := content.string "requester_mxid"
  let target := content.string "target_mxid"
  if content.string "deleted_mxid" ≠ "" then content.string "deleted_mxid"
  else if requester ≠ "" ∧ requester ≠ nd.ownerMXID then requester
  else if target ≠ "" ∧ target ≠ nd.ownerMXID then target
  else ""

def projectDirectProfileContent : Project Unit := do
  deleteGroup e.roomID
  if content.boolOr "dissolved" false && content.boolOr "account_deleted" false then
    contacts nd (markDirectContactDeleted e.roomID (deletedPeer nd content))
  else return ()

/-- A profile of one of the kinds, after the deletion that a direct room starts with. -/
def projectProfile (kind : ConversationKind) (content : Params) : Project Unit := do
  saveConversation (profileConversation e kind content)
  match kind with
  | .channel => projectChannelProfileContent e content
  | .group => projectGroupProfileContent e content
  | .direct => projectDirectProfileContent nd e content
  | _ => return ()

def projectRoomProfileState : Project Unit := do
  let content ← e.decoded
  match kindFromRoomType (content.string "room_type") with
  | none => return ()
  | some .direct => do
    deleteGroup e.roomID
    projectProfile nd e .direct content
  | some kind => projectProfile nd e kind content

/-! ## Member state -/

def projectMemberPolicyState : Project Unit := do
  let content ← e.decoded
  let userID := trimSpace (Members.userIDFromStateKey (e.stateKey.getD ""))
  if userID = "" then return ()
  else
    let existing ← lookupMember e.roomID userID
    saveMember nd
      (Members.memberPolicy e.roomID userID existing (content.string "role") ((content "muted").map Value.truth) (e.time nd))

def saveJoinRequest (member : MemberRecord) : Option MemberRecord → Project Unit
  | some expected => do
    if member = expected then return ()
    else
      let _ ← saveMemberIfState nd member expected.requestID expected.membership
      return ()
  | none => do
    let _ ← saveMemberIfAbsent nd member
    return ()

def projectJoinRequestState : Project Unit := do
  let content ← e.decoded
  let request := (Members.JoinRequestEvent.mk e.roomID (e.stateKey.getD "") content (e.time nd)).request
  if request.userID = "" then return ()
  else
    let existing ← lookupMember e.roomID request.userID
    match Members.joinRequestMember e.roomID request.channelID request.userID existing request.status request.requestID
      (e.time nd) with
    | none => return ()
    | some member => saveJoinRequest nd member existing

/-- The room profile of a group or a channel in the state of an invite. -/
def productInvite : Option Params :=
  (e.inviteRoomState.find? fun state => state.type = roomProfileEventType ∧
    state.content.string "room_type" ∈ ["io.dirextalk.room.group", "io.dirextalk.room.channel"]).map (·.content)

def invitedGroup : GroupRecord where
  roomID := fallbackString (content.string "room_id") e.roomID
  name := fallbackString (content.string "name") e.roomID
  topic := content.string "topic"
  avatarURL := content.string "avatar_url"
  memberCount := 0
  invitePolicy := fallbackString (content.string "invite_policy") "member"
  muted := false

def invitedChannel : ChannelRecord where
  channelID := fallbackString (content.string "channel_id") e.roomID
  roomID := fallbackString (content.string "room_id") e.roomID
  name := fallbackString (content.string "name") e.roomID
  description := content.string "description"
  avatarURL := content.string "avatar_url"
  visibility := fallbackString (content.string "visibility") "public"
  joinPolicy := fallbackString (content.string "join_policy") "invite"
  channelType := fallbackString (content.string "channel_type") "post"
  commentsEnabled := content.boolOr "comments_enabled" false
  muted := false
  memberCount := 0
  pendingJoinCount := 0

/-- `projectProductInvite`, and the save of the member that it answers. -/
def projectProductInvite (member : MemberRecord) (content : Params) : Project Unit := do
  if content.string "room_type" = "io.dirextalk.room.group" then
    saveGroup (invitedGroup e content)
    saveMember nd { member with roomID := (invitedGroup e content).roomID, channelID := "" }
  else
    saveChannel (invitedChannel e content)
    saveMember nd { member with roomID := (invitedChannel e content).roomID, channelID := (invitedChannel e content).channelID }

def RoomEvent.member : MemberEvent where
  roomID := e.roomID
  eventID := e.eventID
  senderID := e.sender
  stateKey := e.stateKey.getD ""
  userID := content.string "user_id"
  channelID := content.string "channel_id"
  membership := content.string "membership"
  displayName := if (content "displayname").isSome then some (content.string "displayname") else none
  avatarURL := if (content "avatar_url").isSome then some (content.string "avatar_url") else none
  role := content.string "role"
  muted := (content "muted").map Value.truth
  publicJoinRequestID := content.string "io.dirextalk.public_join_request_id"
  isDirect := content.boolOr "is_direct" false
  contactRequest := false
  productInvite := none
  time := e.time nd

def RoomEvent.invite : InviteEvent :=
  ⟨e.roomID, e.eventID, e.sender, content.boolOr "is_direct" false, e.inviteRoomState⟩

/-- What a join of a room without a channel does to the contact of the room. -/
def projectContactJoin (member : MemberRecord) (content : Params) : Project Unit :=
  if member.userID = nd.ownerMXID then contacts nd (projectOwnerDirectContactJoin member.roomID)
  else contacts nd (projectDirectContactMember
    ⟨member.roomID, member.userID, member.displayName, member.avatarURL, (content "avatar_url").isSome⟩)

/-- A member that is written. -/
def projectMemberRecord (member : MemberRecord) : Project Unit := do
  saveMember nd member
  let invited := equalFold member.membership "invite" && !content.boolOr "is_direct" false && member.userID = nd.ownerMXID
  match (productInvite e).filter fun _ => invited with
  | some profile => projectProductInvite nd e member profile
  | none =>
    if member.channelID = "" ∧ equalFold member.membership "join" ∧ member.userID ≠ "" then projectContactJoin nd member content
    else return ()

def invitedContact (member : MemberRecord) : Option ContactRecord :=
  if member.channelID = "" ∧ equalFold member.membership "invite" ∧ member.userID = nd.ownerMXID then
    (e.invite content).contact nd.ownerMXID
  else none

def projectMember : Project Unit := do
  let content ← e.decoded
  let ev := e.member nd content
  let ofRoom ← channelIDForRoom e.roomID
  let existing ← lookupMember e.roomID ev.user
  if ev.stale existing then return ()
  else
    let named := if ev.channelID = "" then ofRoom else ev.channelID
    let channelID := if named = "" then (existing.map (·.channelID)).getD "" else named
    let member := ev.record channelID (existing.getD .zero)
    match invitedContact nd e content member with
    | some contact => contacts nd (savePendingInboundContact contact)
    | none => projectMemberRecord nd e content member

/-! ## Messages -/

def RoomEvent.contentEvent (type : Content.EventType) (content : Params) : Content.Event :=
  ⟨type, e.roomID, e.eventID, e.stateKey, e.sender, e.originServerTS, content⟩

def projectContent (type : Content.EventType) (content : Params) : Project Unit :=
  Handler.modifies fun s =>
    { s with content := Content.projectRoomEvent nd.agentRoomID nd.now (e.contentEvent type content) s.content }

def shouldProjectRoomMessage : Project Bool := do
  let channelID ← channelIDForRoom e.roomID
  let group ← groupByRoom e.roomID
  let contact ← contacts nd (lookupByRoom e.roomID)
  return content.string "p2p_kind" ≠ "" || content.string "channel_id" ≠ "" || channelID ≠ "" || group.isSome || contact.isSome

def conversationActivityPreview (body msgType : String) : String :=
  let kind := toLower (trimSpace msgType)
  if trimSpace body ≠ "" then trimSpace body
  else if kind ∈ ["m.image", "image"] then "图片"
  else if kind ∈ ["m.video", "video"] then "视频"
  else if kind ∈ ["m.audio", "audio"] then "语音"
  else if kind ∈ ["m.file", "file"] then "文件"
  else ""

def projectConversationActivity : Project Unit := do
  match ← conversationByRoom e.roomID with
  | none => return ()
  | some record =>
    saveConversation { record with
      lastEventID := e.eventID
      lastActivityAt := e.originServerTS
      lastMessage := conversationActivityPreview (content.string "body") (e.contentEvent .roomMessage content).messageType }

end

def projectMessage : Project Unit := do
  let content ← e.decoded
  if Content.isAgentRoom nd.agentRoomID e.roomID then return ()
  else if ← shouldProjectRoomMessage nd e content then
    if content.string "p2p_kind" = "" then projectConversationActivity e content
    else projectContent nd e .roomMessage content
  else return ()

def projectReaction : Project Unit := do
  let content ← e.decoded
  projectContent nd e .reaction content

def projectChannelPostSettings : Project Unit := do
  let content ← e.decoded
  projectContent nd e .channelPostSettings content

/-! ## Dispatch -/

def projectRoomEvent : Project Unit :=
  if e.type = "m.room.create" then projectRoomCreate nd e
  else if e.type = "m.room.message" then projectMessage nd e
  else if e.type = "m.reaction" then projectReaction nd e
  else if e.stateKey = none then pure ()
  else if e.type = "m.room.member" then projectMember nd e
  else if e.type = "io.dirextalk.room.profile" then projectRoomProfileState nd e
  else if e.type = "io.dirextalk.channel.post.settings" then projectChannelPostSettings nd e
  else if e.type = "io.dirextalk.member.policy" then projectMemberPolicyState nd e
  else if e.type = "io.dirextalk.join_request" then projectJoinRequestState nd e
  else pure ()

end

def projectOutputEvent : OutputEvent → Project Unit
  | .room event => projectRoomEvent nd event
  | .redacted eventID => Handler.modifies fun s => { s with content := Content.removeProjectedEvent eventID s.content }

end Dirextalk.Projector

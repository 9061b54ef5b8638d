/-
  Dirextalk.Content.Projection — how Matrix events become channel content: the projections of
  `p2p/internal/channels/content_reactions.go`, called for the events of the room server
  (`p2p/internal/projector/messages_content.go`) and for the history of a channel that was
  just joined (`p2p/service_channel_backfill.go`).

  A delivery changes the tables by at most one statement, except that a redaction is three:
  each is a transaction of its own, but nothing reads between them what they change.
-/
import Dirextalk.Action.Params
import Dirextalk.Content.Store

namespace Dirextalk.Content

open Lib Lib.Go Dirextalk.Action

variable {b : Backend}

/-- `fallback` of the package, which keeps the blanks around a value. -/
def fallback (value fallbackValue : String) : String := if trimSpace value ≠ "" then value else fallbackValue

structure ProjectionEvent where
  roomID : String
  eventID : String
  stateKey : String
  senderMXID : String
  originServerTS : Int
  content : Params
  body : String
  messageType : String

/-! ## Posts and settings -/

/-- `validatedPostVisibility`. -/
def validatedPostVisibility (value : String) : Option Visibility :=
  let v := toLower (trimSpace value)
  if v = "" ∨ v = "private" then some .private else if v = "public" then some .public else none

section

variable (event : ProjectionEvent)

/-- The post a settings event is about: its state key, which the content may repeat. -/
def ProjectionEvent.settingsPostID : Option String :=
  let postID := trimSpace event.stateKey
  let contentPostID := event.content.string "post_id"
  if postID = "" then some contentPostID
  else if contentPostID ≠ "" ∧ contentPostID ≠ postID then none
  else some postID

/-- The settings of an event that `ProjectPostSettings` does not pass over. -/
def ProjectionEvent.settings : Option PostSettings :=
  match event.settingsPostID, validatedPostVisibility (event.content.string "visibility"), event.content "comments_enabled" with
  | some postID, some visibility, some (.bool commentsEnabled) =>
    let postEventID := event.content.string "post_event_id"
    if postID = "" ∨ postEventID = "" then none
    else some {
      postID, channelID := event.content.string "channel_id", roomID := event.roomID
      postEventID, visibility, commentsEnabled, updatedAt := event.originServerTS }
  | _, _, _ => none

section

variable (t : Tables b)

def projectPostSettings : Tables b :=
  match event.settings with
  | some s => t.applyChannelPostSettings s
  | none => t

def ProjectionEvent.post : Post where
  postID :=
    let postID := event.content.string "post_id"
    if postID = "" then "post_" ++ trimPrefix event.eventID "$" else postID
  channelID := event.content.string "channel_id"
  roomID := event.roomID
  eventID := event.eventID
  authorMXID := event.senderMXID
  authorName := event.content.string "sender_name"
  title := event.content.string "post_title"
  body := event.body
  messageType := event.messageType
  mediaJSON := event.content.string "media_json"
  visibility := normalizeChannelPostVisibility (event.content.string "visibility")
  commentsEnabled := event.content.boolOr "comments_enabled" true
  settingsUpdated := false
  originServerTS := event.originServerTS

def projectPost : Tables b := t.insertChannelPost event.post

/-! ## Comments -/

def ProjectionEvent.comment : Comment where
  commentID :=
    let commentID := event.content.string "comment_id"
    if commentID = "" then "comment_" ++ trimPrefix event.eventID "$" else commentID
  postID := event.content.string "post_id"
  channelID := event.content.string "channel_id"
  eventID := event.eventID
  authorMXID := event.senderMXID
  authorName := event.content.string "sender_name"
  body := event.body
  messageType := event.messageType
  mediaJSON := event.content.string "media_json"
  replyToCommentID := event.content.string "reply_to_comment_id"
  replyToAuthorMXID := event.content.string "reply_to_author_mxid"
  originServerTS := event.originServerTS

def Tables.commentsClosed (comment : Comment) : Bool :=
  match t.getChannelPostByID comment.postID comment.channelID with
  | some post => !post.commentsEnabled
  | none => false

def projectComment : Tables b :=
  if t.commentsClosed event.comment then t else t.insertChannelComment event.comment

/-! ## Reactions -/

structure Target where
  type : TargetType
  id : String
  postID : String
  commentID : String
  channelID : String

/-- `ReactionTargetByEventID`. -/
def Tables.reactionTargetByEventID (eventID channelID : String) : Option Target :=
  match t.getChannelCommentByEventID (trimSpace eventID) channelID with
  | some comment => some ⟨.comment, comment.commentID, comment.postID, comment.commentID, comment.channelID⟩
  | none =>
    match t.getChannelPostByEventID (trimSpace eventID) channelID with
    | some post => some ⟨.post, post.postID, post.postID, "", post.channelID⟩
    | none => none

/-- The target that the content names: a comment before a post. -/
def ProjectionEvent.namedTarget : Target :=
  let postID := event.content.string "post_id"
  let commentID := event.content.string "comment_id"
  let channelID := event.content.string "channel_id"
  if commentID ≠ "" then ⟨.comment, commentID, postID, commentID, channelID⟩ else ⟨.post, postID, postID, commentID, channelID⟩

def Tables.reactionTarget (event : ProjectionEvent) : Target :=
  let named := event.namedTarget
  if named.id ≠ "" then named
  else
    let relatedEventID := (event.content.object "m.relates_to").string "event_id"
    match (t.reactionTargetByEventID relatedEventID named.channelID).filter (·.id ≠ "") with
    | some resolved => { resolved with channelID := fallback named.channelID resolved.channelID }
    | none => { named with id := relatedEventID }

end

def ProjectionEvent.reactionName : String :=
  fallback ((event.content.object "m.relates_to").string "key") (fallback (event.content.string "reaction") "like")

def ProjectionEvent.reaction (target : Target) (now : Int) : Reaction where
  eventID := event.eventID
  targetType := target.type
  targetID := target.id
  channelID := target.channelID
  postID := target.postID
  commentID := target.commentID
  reaction := event.reactionName
  userID := event.senderMXID
  active := event.content.boolOr "active" true
  createdAt := if 0 < event.originServerTS then event.originServerTS else now

def projectReaction (now : Int) (t : Tables b) : Tables b :=
  let target := t.reactionTarget event
  if target.id = "" then t else t.upsertReaction (event.reaction target now)

end

/-! ## Redactions -/

def removeProjectedEvent (eventID : String) (t : Tables b) : Tables b :=
  if blank eventID then t
  else ((t.deleteChannelPost eventID).deleteChannelComment eventID).deactivateReactionByEventID eventID

/-! ## Deliveries -/

inductive EventType where
  | roomMessage
  | reaction
  | channelPostSettings
  deriving DecidableEq, Repr

/-- A Matrix event of one of the types that carry channel content. -/
structure Event where
  type : EventType
  roomID : String
  eventID : String
  stateKey : Option String
  sender : String
  originServerTS : Int
  content : Params

def Event.messageType (e : Event) : String :=
  let msgType := fallbackString (e.content.string "client_type") (e.content.string "msgtype")
  if msgType = "" then "text" else msgType

def Event.projection (e : Event) : ProjectionEvent where
  roomID := e.roomID
  eventID := e.eventID
  stateKey := e.stateKey.getD ""
  senderMXID := e.sender
  originServerTS := e.originServerTS
  content := e.content
  body := e.content.string "body"
  messageType := e.messageType

/-- `isAgentRoom`. -/
def isAgentRoom (agentRoomID roomID : String) : Bool :=
  trimSpace roomID ≠ "" && trimSpace roomID = trimSpace agentRoomID

/-- The two kinds of room messages that are channel content. -/
def projectChannelMessage (e : Event) (t : Tables b) : Tables b :=
  if e.content.string "p2p_kind" = "channel_post" then projectPost e.projection t
  else if e.content.string "p2p_kind" = "channel_comment" then projectComment e.projection t
  else t

section

variable (agentRoomID : String)

/-- `ProjectRoomEvent` for these types. -/
def projectRoomEvent (now : Int) (e : Event) (t : Tables b) : Tables b :=
  match e.type with
  | .roomMessage => if isAgentRoom agentRoomID e.roomID then t else projectChannelMessage e t
  | .reaction => projectReaction e.projection now t
  | .channelPostSettings => if e.stateKey.isSome then projectPostSettings e.projection t else t

/-- An event of the history of a joined channel, with the ids it may lack. -/
def backfilled (roomID channelID : String) (e : Event) : Event :=
  { e with
    roomID := if e.roomID = "" then roomID else e.roomID
    content :=
      if e.content.string "channel_id" = "" ∧ channelID ≠ "" then e.content.set "channel_id" (.string channelID) else e.content }

def backfillEvent (roomID channelID : String) (now : Int) (e : Event) (t : Tables b) : Tables b :=
  match e.type with
  | .roomMessage => projectChannelMessage (backfilled roomID channelID e) t
  | .reaction => projectReaction (backfilled roomID channelID e).projection now t
  | .channelPostSettings => t

inductive Delivery where
  | live (e : Event) (now : Int)
  | backfill (roomID channelID : String) (e : Event) (now : Int)
  | redacted (eventID : String)

def Delivery.apply : Delivery → Tables b → Tables b
  | .live e now => projectRoomEvent agentRoomID now e
  | .backfill roomID channelID e now => backfillEvent roomID channelID now e
  | .redacted eventID => removeProjectedEvent eventID

def deliver (deliveries : List Delivery) (t : Tables b) : Tables b :=
  deliveries.foldl (fun t d => d.apply agentRoomID t) t

theorem deliver_append (l l' : List Delivery) (t : Tables b) :
    deliver agentRoomID (l ++ l') t = deliver agentRoomID l' (deliver agentRoomID l t) :=
  List.foldl_append ..

end

/-- What each delivery keeps, all of them keep. -/
theorem deliver_invariant {agentRoomID : String} {I : Tables b → Prop} {deliveries : List Delivery}
    (hstep : ∀ d ∈ deliveries, ∀ t, I t → I (d.apply agentRoomID t)) {t : Tables b} (h : I t) :
    I (deliver agentRoomID deliveries t) := by
  induction deliveries generalizing t with
  | nil => exact h
  | cons d rest ih => exact ih (fun d' hd' => hstep d' (List.mem_cons_of_mem _ hd')) (hstep d List.mem_cons_self t h)

end Dirextalk.Content

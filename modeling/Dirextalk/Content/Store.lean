/-
  Dirextalk.Content.Store — the tables of channel content: posts, their settings, comments
  and reactions, with the statements of the two stores (`p2p/storage/storage_channels.go`,
  `storage_members_events.go`; `memory_channel_content.go`, `memory_social.go`).

  The stores differ in three places, which take the store as an argument: the key of a
  reaction, the order in which a post meets its settings, and how many reactions one
  redaction deactivates.
-/
import Dirextalk.Lib.Go
import Dirextalk.Lib.Rows

namespace Dirextalk.Content

open Lib Lib.Go

/-! ## Records -/

inductive Visibility where
  | «public»
  | «private»
  deriving DecidableEq, Repr

/-- `NormalizeChannelPostVisibility`. -/
def normalizeChannelPostVisibility (visibility : String) : Visibility :=
  if equalFold (trimSpace visibility) "public" then .public else .private

structure Post where
  postID : String
  channelID : String
  roomID : String
  eventID : String
  authorMXID : String
  authorName : String
  title : String
  body : String
  messageType : String
  mediaJSON : String
  visibility : Visibility
  commentsEnabled : Bool
  settingsUpdated : Bool
  originServerTS : Int
  deriving DecidableEq, Repr

structure PostSettings where
  postID : String
  channelID : String
  roomID : String
  postEventID : String
  visibility : Visibility
  commentsEnabled : Bool
  updatedAt : Int
  deriving DecidableEq, Repr

structure Comment where
  commentID : String
  postID : String
  channelID : String
  eventID : String
  authorMXID : String
  authorName : String
  body : String
  messageType : String
  mediaJSON : String
  replyToCommentID : String
  replyToAuthorMXID : String
  originServerTS : Int

inductive TargetType where
  | post
  | comment
  deriving DecidableEq, Repr

def TargetType.text : TargetType → String
  | .post => "post"
  | .comment => "comment"

structure Reaction where
  eventID : String
  targetType : TargetType
  targetID : String
  channelID : String
  postID : String
  commentID : String
  reaction : String
  userID : String
  active : Bool
  createdAt : Int

structure ReactionID where
  targetType : TargetType
  targetID : String
  reaction : String
  userID : String

def Reaction.id (r : Reaction) : ReactionID := ⟨r.targetType, r.targetID, r.reaction, r.userID⟩

/-! ## The tables -/

/-- The order in which Go walks a map: which of some rows comes first. -/
structure MapOrder where
  first : List Reaction → Option Reaction
  mem : ∀ l r, first l = some r → r ∈ l
  nil : ∀ l, first l = none → l = []

def MapOrder.head : MapOrder where
  first := List.head?
  mem _ _ := List.mem_of_mem_head?
  nil _ := List.head?_eq_none_iff.mp

inductive Backend where
  | postgres
  | memory (order : MapOrder)

/-- The primary key as the store compares it; `memoryReactionKey` joins the columns into one text. -/
def Backend.key : Backend → ReactionID → List String
  | .postgres, r => [r.targetType.text, r.targetID, r.reaction, r.userID]
  | .memory _, r => [r.targetType.text ++ "|" ++ r.targetID ++ "|" ++ r.reaction ++ "|" ++ r.userID]

def Backend.reactionKey (b : Backend) (r : Reaction) : List String := b.key r.id

structure Tables (b : Backend) where
  posts : Rows Post.postID
  settings : Rows PostSettings.postID
  comments : Rows Comment.commentID
  reactions : Rows b.reactionKey

def Tables.empty (b : Backend) : Tables b := ⟨.empty, .empty, .empty, .empty⟩

variable {b : Backend}

/-! ## Posts and their settings -/

def Post.withSettings (post : Post) (s : PostSettings) : Post :=
  { post with visibility := s.visibility, commentsEnabled := s.commentsEnabled, settingsUpdated := true }

@[simp] theorem Post.withSettings_postID (s : PostSettings) (post : Post) : (post.withSettings s).postID = post.postID := rfl

section

variable (settings : Rows PostSettings.postID)

/-- The post with the stored settings for its event, if there are any. -/
def Post.synced (post : Post) : Post :=
  match settings.find post.postID with
  | some s => if s.postEventID = post.eventID then post.withSettings s else post
  | none => post

@[simp] theorem Post.synced_postID (post : Post) : (post.synced settings).postID = post.postID := by
  unfold Post.synced
  split
  · split <;> rfl
  · rfl

/-- A post that is stored over another one: explicit settings are not undone. -/
def Post.over (post : Post) : Option Post → Post
  | some old =>
    if old.settingsUpdated then
      { post with visibility := old.visibility, commentsEnabled := old.commentsEnabled, settingsUpdated := true }
    else post
  | none => post

@[simp] theorem Post.over_postID (post : Post) (old : Option Post) : (post.over old).postID = post.postID := by
  cases old with
  | none => rfl
  | some old =>
    unfold Post.over
    dsimp only
    split <;> rfl

def insertedPost (b : Backend) (settings : Rows PostSettings.postID) (old : Option Post) (post : Post) : Post :=
  match b with
  | .postgres => (post.over old).synced settings
  | .memory _ => (post.synced settings).over old

@[simp] theorem insertedPost_postID (old : Option Post) (post : Post) :
    (insertedPost b settings old post).postID = post.postID := by
  cases b <;> simp [insertedPost]

end

section

variable (t : Tables b)

def Tables.insertChannelPost (post : Post) : Tables b :=
  { t with posts := t.posts.put (insertedPost b t.settings (t.posts.find post.postID) post) }

def trimSettings (s : PostSettings) : PostSettings :=
  { s with postID := trimSpace s.postID, postEventID := trimSpace s.postEventID }

/-- Settings are replaced by settings that are not older. -/
def Tables.newerSettings (s : PostSettings) : Bool :=
  Rows.replaces PostSettings.updatedAt s (t.settings.find s.postID)

/-- The posts' update of `ApplyChannelPostSettings`: PostgreSQL takes over the row of the table of settings, the
memory store the settings it was called with, or nothing when they were too old. -/
def appliedPosts (b : Backend) (posts : Rows Post.postID) (settings : Rows PostSettings.postID) (s : PostSettings)
    (newer : Bool) : Rows Post.postID :=
  match b with
  | .postgres => posts.modify (·.postID = s.postID) (Post.synced settings) (Post.synced_postID settings)
  | .memory _ =>
    if newer then posts.modify (fun p => p.postID = s.postID && p.eventID = s.postEventID) (·.withSettings s)
      (Post.withSettings_postID s)
    else posts

def Tables.applyChannelPostSettings (settings : PostSettings) : Tables b :=
  let s := trimSettings settings
  let stored := if t.newerSettings s then t.settings.put s else t.settings
  { t with settings := stored, posts := appliedPosts b t.posts stored s (t.newerSettings s) }

def Tables.getChannelPostByID (postID channelID : String) : Option Post :=
  if postID = "" then none else (t.posts.find postID).filter fun p => channelID = "" || p.channelID = channelID

def Tables.getChannelPostByEventID (eventID channelID : String) : Option Post :=
  if eventID = "" then none
  else t.posts.rows.find? fun p => p.eventID = eventID && (channelID = "" || p.channelID = channelID)

def Tables.deleteChannelPost (postID : String) : Tables b :=
  { t with posts := t.posts.delete fun p => p.postID = postID || p.eventID = postID }

/-! ## Comments -/

def Tables.insertChannelComment (comment : Comment) : Tables b :=
  { t with comments := t.comments.put comment }

def Tables.getChannelCommentByEventID (eventID channelID : String) : Option Comment :=
  if eventID = "" then none
  else t.comments.rows.find? fun m => m.eventID = eventID && (channelID = "" || m.channelID = channelID)

def Tables.getChannelCommentByID (commentID postID : String) : Option Comment :=
  if commentID = "" then none else (t.comments.find commentID).filter fun m => postID = "" || m.postID = postID

def Tables.deleteChannelComment (commentID : String) : Tables b :=
  { t with comments := t.comments.delete fun m => m.commentID = commentID || m.eventID = commentID }

/-! ## Reactions -/

def Tables.upsertReaction (r : Reaction) : Tables b := { t with reactions := t.reactions.put r }

def Reaction.deactivated (r : Reaction) : Reaction := { r with active := false }

@[simp] theorem reactionKey_deactivated (r : Reaction) : b.reactionKey r.deactivated = b.reactionKey r := rfl

/-- `DeactivateReactionByEventID`: PostgreSQL deactivates every row of the event, the memory store the first in
the order of its map. -/
def Tables.deactivateReactionByEventID (eventID : String) : Tables b :=
  let ofEvent : Reaction → Bool := fun r => r.eventID = eventID && r.active
  match b with
  | .postgres =>
    if blank eventID then t else { t with reactions := t.reactions.modify ofEvent Reaction.deactivated reactionKey_deactivated }
  | .memory order =>
    match order.first (t.reactions.rows.filter ofEvent) with
    | some r => { t with reactions := t.reactions.put r.deactivated }
    | none => t

def Tables.countActiveReactions (targetType : TargetType) (targetID reaction : String) : Nat :=
  t.reactions.count fun r => r.targetType = targetType && r.targetID = targetID && r.reaction = reaction && r.active

end

end Dirextalk.Content

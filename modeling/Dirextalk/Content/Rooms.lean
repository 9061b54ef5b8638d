/-
  Dirextalk.Content.Rooms — which channels the messages of a room can write to
  (`message_confined_iff`).

  A post, comment or reaction is stored under the channel id of its own content; nothing
  compares it with the channel of the room that the event was sent in
  (`post_into_foreign_channel`). A message stays in its room's channel exactly if its
  content names that channel and the row its id replaces is of that channel too.
-/
import Dirextalk.Content.Effects

namespace Dirextalk.Content

open Lib Lib.Go Dirextalk.Action

variable {b : Backend}

/-- Some row of the channel is in the tables before or after, but not both. -/
def Touched (channelID : String) (t t' : Tables b) : Prop :=
  Rows.Differ Post.channelID channelID t.posts t'.posts ∨
    Rows.Differ Comment.channelID channelID t.comments t'.comments ∨
    Rows.Differ Reaction.channelID channelID t.reactions t'.reactions

/-- Only channels of the room are touched; `rooms` gives the room of each channel. -/
def Within (rooms : String → Option String) (roomID : String) (t t' : Tables b) : Prop :=
  ∀ c, Touched c t t' → rooms c = some roomID

section Confined

variable (rooms : String → Option String) (e : Event) (t : Tables b)

structure OwnChannel (channelID : String) (replaced : Option String) : Prop where
  named : rooms channelID = some e.roomID
  replaced : ∀ c, replaced = some c → rooms c = some e.roomID

/-- The post that the event carries is of the room's channel, or stored as it is. -/
def ConfinedPost : Prop :=
  let stored := t.posts.find e.projection.post.postID
  stored = some (insertedPost b t.settings stored e.projection.post) ∨
    OwnChannel rooms e (e.content.string "channel_id") (stored.map Post.channelID)

/-- The same of a comment, which is dropped when its post is closed. -/
def ConfinedComment : Prop :=
  let stored := t.comments.find e.projection.comment.commentID
  t.commentsClosed e.projection.comment = true ∨ stored = some e.projection.comment ∨
    OwnChannel rooms e (e.content.string "channel_id") (stored.map Comment.channelID)

/-- The same of a reaction, whose channel may be that of the row it is related to. -/
def ConfinedReaction (now : Int) : Prop :=
  let target := t.reactionTarget e.projection
  let reaction := e.projection.reaction target now
  let stored := t.reactions.find (b.reactionKey reaction)
  target.id = "" ∨ stored = some reaction ∨ OwnChannel rooms e target.channelID (stored.map Reaction.channelID)

/-- A message event that can write to the channel of its room only. -/
def Confined (agentRoomID : String) (now : Int) : Prop :=
  match e.type with
  | .roomMessage =>
    isAgentRoom agentRoomID e.roomID = true ∨
      (e.content.string "p2p_kind" = "channel_post" → ConfinedPost rooms e t) ∧
      (e.content.string "p2p_kind" = "channel_comment" → ConfinedComment rooms e t)
  | .reaction => ConfinedReaction rooms e t now
  | .channelPostSettings => True

end Confined

section Writes

variable {rooms : String → Option String} {roomID : String} {e : Event} {t t' : Tables b}

theorem within_self : Within rooms roomID t t := by
  rintro c (h | h | h) <;> exact absurd h (Rows.not_differ_self _)

/-- A statement that writes posts only. -/
theorem within_posts (posts : Rows Post.postID) :
    Within rooms roomID t { t with posts := posts } ↔
      ∀ c, Rows.Differ Post.channelID c t.posts posts → rooms c = some roomID := by
  constructor
  · exact fun h c hc => h c (.inl hc)
  · rintro h c (hc | hc | hc)
    · exact h c hc
    · exact absurd hc (Rows.not_differ_self _)
    · exact absurd hc (Rows.not_differ_self _)

theorem within_comments (comments : Rows Comment.commentID) : Within rooms roomID t { t with comments := comments } ↔
      ∀ c, Rows.Differ Comment.channelID c t.comments comments → rooms c = some roomID := by
  constructor
  · exact fun h c hc => h c (.inr (.inl hc))
  · rintro h c (hc | hc | hc)
    · exact absurd hc (Rows.not_differ_self _)
    · exact h c hc
    · exact absurd hc (Rows.not_differ_self _)

theorem within_reactions (reactions : Rows b.reactionKey) : Within rooms roomID t { t with reactions := reactions } ↔
      ∀ c, Rows.Differ Reaction.channelID c t.reactions reactions → rooms c = some roomID := by
  constructor
  · exact fun h c hc => h c (.inr (.inr hc))
  · rintro h c (hc | hc | hc)
    · exact absurd hc (Rows.not_differ_self _)
    · exact absurd hc (Rows.not_differ_self _)
    · exact h c hc

/-- The rule for one row, in terms of the row's channel and that of the row it replaces. -/
theorem ownChannel_put {α κ : Type} [DecidableEq κ] {key : α → κ} (f : α → String) (rows : Rows key) (x : α) :
    (∀ c, Rows.Differ f c rows (rows.put x) → rooms c = some e.roomID) ↔
      rows.find (key x) = some x ∨ OwnChannel rooms e (f x) ((rows.find (key x)).map f) := by
  rw [Rows.differ_put_iff (P := fun c => rooms c = some e.roomID)]
  refine or_congr_right
    ⟨fun ⟨hx, hold⟩ => ⟨hx, fun c hc => ?_⟩, fun h => ⟨h.named, fun old hold => h.replaced _ (by rw [hold]; rfl)⟩⟩
  obtain ⟨old, hfind, rfl⟩ := Option.map_eq_some_iff.mp hc
  exact hold old hfind

theorem projectPost_within : Within rooms e.roomID t (projectPost e.projection t) ↔ ConfinedPost rooms e t := by
  have hchannel : (insertedPost b t.settings (t.posts.find e.projection.post.postID) e.projection.post).channelID =
      e.content.string "channel_id" :=
    (written_eq (insertedPost_written t.settings _ e.projection.post)).2.1
  rw [projectPost, Tables.insertChannelPost, within_posts, ownChannel_put, hchannel, insertedPost_postID]
  exact .rfl

theorem projectComment_within : Within rooms e.roomID t (projectComment e.projection t) ↔ ConfinedComment rooms e t := by
  unfold projectComment ConfinedComment
  by_cases hclosed : t.commentsClosed e.projection.comment = true
  · rw [if_pos hclosed]
    exact iff_of_true within_self (.inl hclosed)
  · rw [if_neg hclosed, Tables.insertChannelComment, within_comments, ownChannel_put]
    exact (or_iff_right hclosed).symm

theorem projectReaction_within (now : Int) :
    Within rooms e.roomID t (projectReaction e.projection now t) ↔ ConfinedReaction rooms e t now := by
  unfold projectReaction ConfinedReaction
  by_cases hnone : (t.reactionTarget e.projection).id = ""
  · rw [if_pos hnone]
    exact iff_of_true within_self (.inl hnone)
  · rw [if_neg hnone, Tables.upsertReaction, within_reactions, ownChannel_put]
    exact (or_iff_right hnone).symm

theorem projectChannelMessage_within : Within rooms e.roomID t (projectChannelMessage e t) ↔
    (e.content.string "p2p_kind" = "channel_post" → ConfinedPost rooms e t) ∧
      (e.content.string "p2p_kind" = "channel_comment" → ConfinedComment rooms e t) := by
  unfold projectChannelMessage
  by_cases hpost : e.content.string "p2p_kind" = "channel_post"
  · simp [hpost, projectPost_within]
  · by_cases hcomment : e.content.string "p2p_kind" = "channel_comment"
    · simp [hcomment, projectComment_within]
    · simp [hpost, hcomment, within_self]

end Writes

/-- A message event writes to the channel of its room only, exactly if it is confined to it. -/
theorem message_confined_iff (rooms : String → Option String) (agentRoomID : String) (now : Int) (e : Event)
    (he : e.type ≠ .channelPostSettings) (t : Tables b) :
    (∀ c, Touched c t (projectRoomEvent agentRoomID now e t) → rooms c = some e.roomID) ↔ Confined rooms e t agentRoomID now := by
  change Within rooms e.roomID t _ ↔ _
  unfold projectRoomEvent Confined
  cases htype : e.type with
  | channelPostSettings => exact absurd htype he
  | reaction => exact projectReaction_within now
  | roomMessage =>
    by_cases hagent : isAgentRoom agentRoomID e.roomID = true
    · simp [hagent, within_self]
    · simp [hagent, projectChannelMessage_within]

def postMessage (roomID channelID : String) : Event where
  type := .roomMessage
  roomID
  eventID := "$event"
  stateKey := none
  sender := "@user:host"
  originServerTS := 1
  content key := ([("p2p_kind", "channel_post"), ("channel_id", channelID), ("body", "text")].lookup key).map Value.string

def channelRooms (channelID : String) : Option String := if channelID = "channel" then some "!channel:host" else none

/-- A post that is sent in the channel's room. -/
theorem own_post_confined :
    Touched "channel" (Tables.empty .postgres)
      (projectRoomEvent "" 0 (postMessage "!channel:host" "channel") (Tables.empty .postgres)) ∧
      channelRooms "channel" = some "!channel:host" := by
  have htouched : Touched "channel" (.empty .postgres)
      (projectRoomEvent "" 0 (postMessage "!channel:host" "channel") (.empty .postgres)) :=
    .inl ⟨(postMessage "!channel:host" "channel").projection.post, by decide, by decide +kernel⟩
  refine ⟨htouched,
    (message_confined_iff channelRooms "" 0 (postMessage "!channel:host" "channel") (by decide) (.empty .postgres)).mpr ?_
    "channel" htouched⟩
  refine .inr ⟨fun _ => .inr ⟨by decide, fun c hc => ?_⟩, fun h => absurd h (by decide)⟩
  cases hc

/-- A post that is sent in another room appears in the channel. -/
theorem post_into_foreign_channel :
    Touched "channel" (Tables.empty .postgres)
      (projectRoomEvent "" 0 (postMessage "!elsewhere:host" "channel") (Tables.empty .postgres)) ∧
      channelRooms "channel" ≠ some (postMessage "!elsewhere:host" "channel").roomID := by
  refine ⟨.inl ⟨(postMessage "!elsewhere:host" "channel").projection.post, by decide, ?_⟩, by decide⟩
  decide +kernel

end Dirextalk.Content

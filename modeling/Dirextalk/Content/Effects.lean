/-
  Dirextalk.Content.Effects — what the statements and projections of channel content do to a
  lookup in the tables, each said once.
-/
import Dirextalk.Content.Projection

namespace Dirextalk.Content

open Lib Lib.Go Dirextalk.Action Delivery

variable {b : Backend}

/-! ## Posts -/

theorem find_insertChannelPost (t : Tables b) (post : Post) (postID : String) :
    (t.insertChannelPost post).posts.find postID =
      if post.postID = postID then some (insertedPost b t.settings (t.posts.find post.postID) post) else t.posts.find postID := by
  simp [Tables.insertChannelPost, Rows.find_put]

def Post.written (post : Post) : Post := { post with visibility := .private, commentsEnabled := false, settingsUpdated := false }

theorem written_eq {p q : Post} (h : p.written = q.written) :
    p.eventID = q.eventID ∧ p.channelID = q.channelID ∧ p.roomID = q.roomID ∧ p.authorMXID = q.authorMXID := by
  simp only [Post.written, Post.mk.injEq] at h
  exact ⟨h.2.2.2.1, h.2.1, h.2.2.1, h.2.2.2.2.1⟩

theorem Post.over_written (post : Post) (old : Option Post) : (post.over old).written = post.written := by
  cases old with
  | none => rfl
  | some o => by_cases h : o.settingsUpdated <;> simp [Post.over, h, Post.written]

section

variable (settings : Rows PostSettings.postID)

theorem Post.synced_written (post : Post) : (post.synced settings).written = post.written := by
  unfold Post.synced
  split
  · split <;> rfl
  · rfl

theorem insertedPost_written (old : Option Post) (post : Post) :
    (insertedPost b settings old post).written = post.written := by
  cases b <;> simp [insertedPost, Post.over_written, Post.synced_written]

theorem insertedPost_eventID (old : Option Post) (post : Post) :
    (insertedPost b settings old post).eventID = post.eventID :=
  (written_eq (insertedPost_written settings old post)).1

end

variable {s : PostSettings} {settings : Rows PostSettings.postID}

theorem Post.synced_of_some {post : Post}
    (h : settings.find post.postID = some s) (hs : s.postEventID = post.eventID) :
      post.synced settings = post.withSettings s := by
  simp [Post.synced, h, hs]

theorem Post.synced_of_none {post : Post} (h : settings.find post.postID = none) : post.synced settings = post := by
  simp [Post.synced, h]

/-- Where the flag of an inserted post comes from: the post, the row it replaced or its settings. -/
theorem insertedPost_commentsEnabled (settings : Rows PostSettings.postID) (old : Option Post) (post : Post) :
    (insertedPost b settings old post).commentsEnabled = post.commentsEnabled ∨
      (∃ o, old = some o ∧ (insertedPost b settings old post).commentsEnabled = o.commentsEnabled) ∨
      ∃ s, settings.find post.postID = some s ∧ s.postEventID = post.eventID ∧
        (insertedPost b settings old post).commentsEnabled = s.commentsEnabled := by
  have hover : ∀ p : Post, (p.over old).commentsEnabled = p.commentsEnabled ∨
      ∃ o, old = some o ∧ (p.over old).commentsEnabled = o.commentsEnabled := by
    intro p
    cases old with
    | none => exact .inl rfl
    | some o => by_cases h : o.settingsUpdated <;> simp [Post.over, h]
  have hsynced : ∀ p : Post, (p.synced settings).commentsEnabled = p.commentsEnabled ∨
      ∃ s, settings.find p.postID = some s ∧ s.postEventID = p.eventID ∧
        (p.synced settings).commentsEnabled = s.commentsEnabled := by
    intro p
    cases hfind : settings.find p.postID with
    | none => exact .inl (by rw [Post.synced_of_none hfind])
    | some s =>
      by_cases h : s.postEventID = p.eventID
      · exact .inr ⟨s, rfl, h, by rw [Post.synced_of_some hfind h]; rfl⟩
      · exact .inl (by simp [Post.synced, hfind, h])
  cases b with
  | postgres =>
    obtain h | ⟨s, hs, hevent, h⟩ := hsynced (post.over old)
    · obtain h' | ⟨o, ho, h'⟩ := hover post
      · exact .inl (h.trans h')
      · exact .inr (.inl ⟨o, ho, h.trans h'⟩)
    · rw [Post.over_postID] at hs
      rw [(written_eq (post.over_written old)).1] at hevent
      exact .inr (.inr ⟨s, hs, hevent, h⟩)
  | memory =>
    obtain h | ⟨o, ho, h⟩ := hover (post.synced settings)
    · obtain h' | ⟨s, hs, hevent, h'⟩ := hsynced post
      · exact .inl (h.trans h')
      · exact .inr (.inr ⟨s, hs, hevent, h.trans h'⟩)
    · exact .inr (.inl ⟨o, ho, h⟩)

/-! ## Settings -/

variable {event : ProjectionEvent}

theorem settingsPostID_trimmed (h : event.settingsPostID = some postID) : trimSpace postID = postID := by
  unfold ProjectionEvent.settingsPostID at h
  dsimp only at h
  split at h
  · cases h
    exact Params.trimSpace_string ..
  · split at h
    · cases h
    · cases h
      exact trimSpace_trimSpace _

theorem settings_spec (h : event.settings = some s) : trimSettings s = s ∧ s.updatedAt = event.originServerTS := by
  unfold ProjectionEvent.settings at h
  split at h
  · rename_i postID _ _ hpost _ _
    dsimp only at h
    split at h
    · cases h
    · cases h
      simp [trimSettings, Params.trimSpace_string, settingsPostID_trimmed hpost]
  · cases h

variable {t : Tables b}

theorem find_applied_settings (hs : trimSettings s = s) : (t.applyChannelPostSettings s).settings.find s.postID =
      if Rows.replaces PostSettings.updatedAt s (t.settings.find s.postID) then some s else t.settings.find s.postID := by
  simp only [Tables.applyChannelPostSettings, hs, Tables.newerSettings]
  split
  · rw [Rows.find_put_self]
  · rfl

theorem appliedPosts_stored (posts : Rows Post.postID) (settings : Rows PostSettings.postID) (s : PostSettings) (newer : Bool)
    (postID : String) : ((appliedPosts b posts settings s newer).find postID).isSome = (posts.find postID).isSome := by
  cases b with
  | postgres => simp [appliedPosts, Rows.find_modify]
  | memory => cases newer <;> simp [appliedPosts, Rows.find_modify]

/-- Settings change nothing of a row but its flags, and those to what the table of settings holds for it. -/
theorem find_applied_posts {id : String} {row : Post}
    (h : (t.applyChannelPostSettings s).posts.find id = some row) :
    ∃ o, t.posts.find id = some o ∧
      (row = o ∨ ∃ r, (t.applyChannelPostSettings s).settings.find id = some r ∧ r.postEventID = o.eventID ∧
        row = o.withSettings r) := by
  have hposts : (t.applyChannelPostSettings s).posts =
      appliedPosts b t.posts (t.applyChannelPostSettings s).settings (trimSettings s) (t.newerSettings (trimSettings s)) := rfl
  rw [hposts] at h
  cases b with
  | postgres =>
    rw [appliedPosts, Rows.find_modify, Option.map_eq_some_iff] at h
    obtain ⟨o, ho, rfl⟩ := h
    refine ⟨o, ho, ?_⟩
    by_cases hid : o.postID = (trimSettings s).postID
    · simp only [hid, decide_true, if_true]
      cases hfind : (t.applyChannelPostSettings s).settings.find o.postID with
      | none => exact .inl (Post.synced_of_none hfind)
      | some r =>
        by_cases hevent : r.postEventID = o.eventID
        · have hsynced := Post.synced_of_some hfind hevent
          rw [Rows.key_of_find ho] at hfind
          exact .inr ⟨r, hfind, hevent, hsynced⟩
        · exact .inl (by simp [Post.synced, hfind, hevent])
    · simp [hid]
  | memory =>
    by_cases hnewer : t.newerSettings (trimSettings s)
    · have hsettings : (t.applyChannelPostSettings s).settings = t.settings.put (trimSettings s) := by
        simp [Tables.applyChannelPostSettings, hnewer]
      rw [appliedPosts, if_pos hnewer, Rows.find_modify, Option.map_eq_some_iff] at h
      obtain ⟨o, ho, rfl⟩ := h
      refine ⟨o, ho, ?_⟩
      by_cases hmatch : o.postID = (trimSettings s).postID ∧ o.eventID = (trimSettings s).postEventID
      · right
        refine ⟨trimSettings s, ?_, hmatch.2.symm, by simp [hmatch]⟩
        rw [hsettings, ← Rows.key_of_find ho, hmatch.1, Rows.find_put_self]
      · left
        have hfalse :
            (decide (o.postID = (trimSettings s).postID) && decide (o.eventID = (trimSettings s).postEventID)) = false := by
          simpa using hmatch
        simp [hfalse]
    · rw [appliedPosts, if_neg hnewer] at h
      exact ⟨row, h, .inl rfl⟩

theorem find_applied_settings_cases {r : PostSettings} (hs : trimSettings s = s) {id : String}
    (h : (t.applyChannelPostSettings s).settings.find id = some r) : r = s ∨ t.settings.find id = some r := by
  simp only [Tables.applyChannelPostSettings, hs] at h
  split at h
  · rw [Rows.find_put] at h
    split at h
    · cases h
      exact .inl rfl
    · exact .inr h
  · exact .inr h

/-! ## Comments and redactions -/

theorem projectPostSettings_comments (event : ProjectionEvent) (t : Tables b) :
    (projectPostSettings event t).comments = t.comments := by
  unfold projectPostSettings
  split <;> rfl

theorem projectComment_posts (event : ProjectionEvent) (t : Tables b) :
    (projectComment event t).posts = t.posts ∧ (projectComment event t).settings = t.settings := by
  unfold projectComment
  split <;> exact ⟨rfl, rfl⟩

theorem deactivateReactionByEventID_content (t : Tables b) (eventID : String) :
    (t.deactivateReactionByEventID eventID).posts = t.posts ∧ (t.deactivateReactionByEventID eventID).settings = t.settings ∧
      (t.deactivateReactionByEventID eventID).comments = t.comments := by
  unfold Tables.deactivateReactionByEventID
  cases b with
  | postgres =>
    split <;> exact ⟨rfl, rfl, rfl⟩
  | memory =>
    dsimp only
    split <;> exact ⟨rfl, rfl, rfl⟩

theorem removeProjectedEvent_settings (eventID : String) (t : Tables b) :
    (removeProjectedEvent eventID t).settings = t.settings := by
  unfold removeProjectedEvent
  split
  · rfl
  · rw [(deactivateReactionByEventID_content _ _).2.1]
    rfl

theorem find_removeProjectedEvent_posts (eventID : String) (t : Tables b) (postID : String) :
    (removeProjectedEvent eventID t).posts.find postID =
      (t.posts.find postID).filter fun p => blank eventID || !(p.postID = eventID || p.eventID = eventID) := by
  unfold removeProjectedEvent
  split
  · rename_i hblank
    cases t.posts.find postID <;> simp [hblank, Option.filter]
  · rename_i hblank
    rw [(deactivateReactionByEventID_content _ _).1]
    simp [Tables.deleteChannelComment, Tables.deleteChannelPost, Rows.find_delete, hblank]

theorem find_removeProjectedEvent_comments (eventID : String) (t : Tables b) (commentID : String) :
    (removeProjectedEvent eventID t).comments.find commentID =
      (t.comments.find commentID).filter fun m => blank eventID || !(m.commentID = eventID || m.eventID = eventID) := by
  unfold removeProjectedEvent
  split
  · rename_i hblank
    cases t.comments.find commentID <;> simp [hblank, Option.filter]
  · rename_i hblank
    rw [(deactivateReactionByEventID_content _ _).2.2]
    simp [Tables.deleteChannelComment, Tables.deleteChannelPost, Rows.find_delete, hblank]

theorem find_insertChannelComment (t : Tables b) (comment : Comment) (commentID : String) :
    (t.insertChannelComment comment).comments.find commentID =
      if comment.commentID = commentID then some comment else t.comments.find commentID := by
  simp [Tables.insertChannelComment, Rows.find_put]

/-! ## Deliveries -/

def Delivery.message (agentRoomID : String) : Delivery → Option Event
  | .live e _ => if e.type = .roomMessage ∧ isAgentRoom agentRoomID e.roomID = false then some e else none
  | .backfill roomID channelID e _ => if e.type = .roomMessage then some (backfilled roomID channelID e) else none
  | .redacted _ => none

structure PostEvent (agentRoomID : String) (e : Event) : Prop where
  message : e.type = .roomMessage
  kind : e.content.string "p2p_kind" = "channel_post"
  room : isAgentRoom agentRoomID e.roomID = false

variable {k : String}

theorem string_backfilled (roomID channelID : String) (e : Event) (h : k ≠ "channel_id") :
    (backfilled roomID channelID e).content.string k = e.content.string k := by
  unfold backfilled
  dsimp only
  split
  · simp [Params.string, Params.set, h]
  · rfl

theorem content_backfilled (roomID channelID : String) (e : Event) (h : k ≠ "channel_id") :
    (backfilled roomID channelID e).content k = e.content k := by
  unfold backfilled
  dsimp only
  split
  · simp [Params.set, h]
  · rfl

theorem projectChannelMessage_post (hkind : e.content.string "p2p_kind" = "channel_post") (t : Tables b) :
    projectChannelMessage e t = t.insertChannelPost e.projection.post := by
  rw [projectChannelMessage, if_pos hkind]
  rfl

theorem projectReaction_content (event : ProjectionEvent) (now : Int) (t : Tables b) :
    (projectReaction event now t).posts = t.posts ∧ (projectReaction event now t).comments = t.comments := by
  unfold projectReaction
  dsimp only
  split <;> exact ⟨rfl, rfl⟩

inductive Delivery.Effect (agentRoomID : String) (d : Delivery) (t : Tables b) : Prop
  | post (v : Event) (hv : d.message agentRoomID = some v) (hkind : v.content.string "p2p_kind" = "channel_post")
      (h : d.apply agentRoomID t = t.insertChannelPost v.projection.post)
  | comment (v : Event) (hv : d.message agentRoomID = some v) (hkind : v.content.string "p2p_kind" = "channel_comment")
      (h : d.apply agentRoomID t = projectComment v.projection t)
  | redaction (eventID : String) (hd : d = .redacted eventID) (h : d.apply agentRoomID t = removeProjectedEvent eventID t)
  | settings (s : PostSettings) (h : d.apply agentRoomID t = t.applyChannelPostSettings s)
  | other (hposts : (d.apply agentRoomID t).posts = t.posts) (hcomments : (d.apply agentRoomID t).comments = t.comments)

theorem Delivery.effect_of_message {agentRoomID : String} {d : Delivery} {v : Event} (hv : d.message agentRoomID = some v)
    (h : d.apply agentRoomID t = projectChannelMessage v t) : d.Effect agentRoomID t := by
  unfold projectChannelMessage at h
  split at h
  · rename_i hkind
    exact .post v hv hkind h
  · split at h
    · rename_i hkind
      exact .comment v hv hkind h
    · exact .other (by rw [h]) (by rw [h])

theorem Delivery.effect (agentRoomID : String) (d : Delivery) (t : Tables b) : d.Effect agentRoomID t := by
  have idle {d : Delivery} (h : d.apply agentRoomID t = t) : d.Effect agentRoomID t := .other (by rw [h]) (by rw [h])
  have reacts {d : Delivery} (e : ProjectionEvent) (now : Int) (h : d.apply agentRoomID t = projectReaction e now t) :
      d.Effect agentRoomID t :=
    .other (by rw [h, (projectReaction_content ..).1]) (by rw [h, (projectReaction_content ..).2])
  cases d with
  | redacted eventID => exact .redaction eventID rfl rfl
  | live e now =>
    cases htype : e.type with
    | roomMessage =>
      cases hroom : isAgentRoom agentRoomID e.roomID with
      | true => exact idle (by simp [apply, projectRoomEvent, htype, hroom])
      | false =>
        apply effect_of_message (v := e)
        · simp [message, htype, hroom]
        · simp [apply, projectRoomEvent, htype, hroom]
    | reaction => exact reacts e.projection now (by simp [apply, projectRoomEvent, htype])
    | channelPostSettings =>
      by_cases hkey : e.stateKey.isSome
      · have happly : (live e now).apply agentRoomID t = projectPostSettings e.projection t := by
          simp [apply, projectRoomEvent, htype, hkey]
        rw [projectPostSettings] at happly
        cases hs : e.projection.settings with
        | none =>
          rw [hs] at happly
          exact idle happly
        | some s =>
          rw [hs] at happly
          exact .settings s happly
      · exact idle (by simp [apply, projectRoomEvent, htype, hkey])
  | backfill roomID channelID e now =>
    cases htype : e.type with
    | roomMessage =>
      apply effect_of_message (v := backfilled roomID channelID e)
      · simp [message, htype]
      · simp [apply, backfillEvent, htype]
    | reaction => exact reacts (backfilled roomID channelID e).projection now (by simp [apply, backfillEvent, htype])
    | channelPostSettings => exact idle (by simp [apply, backfillEvent, htype])

end Dirextalk.Content

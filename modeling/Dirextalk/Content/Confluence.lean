/-
  Dirextalk.Content.Confluence — when the projection of a channel does not depend on the order
  of its events (`content_confluent_iff`).

  A redaction deletes what is stored and leaves nothing behind, and a comment is admitted by
  the settings its post has at that moment. So the posts and comments one sees in the end are
  the same in every order exactly when no event is redacted, no two events share the id of a
  row, and no comment is on a post that some event closes.
-/
import Dirextalk.Content.Settings

namespace Dirextalk.Content

open Lib Lib.Go Dirextalk.Action List Delivery Tables
open List (all_cons mem_append mem_cons mem_filter mem_singleton not_mem_nil)

variable {b : Backend}

/-! ## Events of a channel -/

structure CommentEvent (agentRoomID : String) (e : Event) : Prop where
  message : e.type = .roomMessage
  kind : e.content.string "p2p_kind" = "channel_comment"
  room : isAgentRoom agentRoomID e.roomID = false

structure SettingsState (e : Event) : Prop where
  state : e.type = .channelPostSettings
  key : e.stateKey.isSome

def ContentEvent (agentRoomID : String) (e : Event) : Prop :=
  PostEvent agentRoomID e ∨ CommentEvent agentRoomID e ∨ SettingsState e

def Event.isComment (e : Event) : Bool := e.type = .roomMessage && e.content.string "p2p_kind" = "channel_comment"

/-- The event as it comes live and as the history of the joined channel gives it. -/
def Event.forms (roomID channelID : String) (e : Event) : List Event := [e, backfilled roomID channelID e]

inductive Delivery.Carries (roomID channelID : String) (e : Event) : Delivery → Prop
  | live (now : Int) : Carries roomID channelID e (.live e now)
  | backfill (h : e.type = .roomMessage) (now : Int) : Carries roomID channelID e (.backfill roomID channelID e now)

section Effects

variable {agentRoomID roomID channelID : String} {e v : Event} {d : Delivery}

theorem apply_live (hmessage : e.type = .roomMessage) (hroom : isAgentRoom agentRoomID e.roomID = false) (now : Int)
    (t : Tables b) : (live e now).apply agentRoomID t = projectChannelMessage e t := by
  simp [apply, projectRoomEvent, hmessage, hroom]

theorem apply_backfill (hmessage : e.type = .roomMessage) (now : Int) (t : Tables b) :
    (backfill roomID channelID e now).apply agentRoomID t = projectChannelMessage (backfilled roomID channelID e) t := by
  simp [apply, backfillEvent, hmessage]

theorem form_kind (hv : v ∈ e.forms roomID channelID) : v.content.string "p2p_kind" = e.content.string "p2p_kind" := by
  simp only [Event.forms, mem_cons, not_mem_nil, or_false] at hv
  obtain rfl | rfl := hv
  · rfl
  · exact string_backfilled roomID channelID e (by decide)

section

variable (hmessage : e.type = .roomMessage) (hroom : isAgentRoom agentRoomID e.roomID = false)
include hmessage hroom

/-- A message is delivered in one of its forms, -/
theorem Delivery.Carries.message
    (hd : d.Carries roomID channelID e) (t : Tables b) :
    ∃ v ∈ e.forms roomID channelID, d.apply agentRoomID t = projectChannelMessage v t := by
  cases hd with
  | live now => exact ⟨e, by simp [Event.forms], apply_live hmessage hroom now t⟩
  | backfill hmessage now => exact ⟨backfilled roomID channelID e, by simp [Event.forms], apply_backfill hmessage now t⟩

/-- and in each of them by some delivery. -/
theorem exists_delivery
    (hv : v ∈ e.forms roomID channelID) :
    ∃ d : Delivery, d.Carries roomID channelID e ∧ ∀ t : Tables b, d.apply agentRoomID t = projectChannelMessage v t := by
  simp only [Event.forms, mem_cons, not_mem_nil, or_false] at hv
  obtain rfl | rfl := hv
  · exact ⟨.live v 0, .live 0, apply_live hmessage hroom 0⟩
  · exact ⟨.backfill roomID channelID e 0, .backfill hmessage 0, apply_backfill hmessage 0⟩

end

theorem projectChannelMessage_comment (hkind : e.content.string "p2p_kind" = "channel_comment") (t : Tables b) :
    projectChannelMessage e t = projectComment e.projection t := by
  rw [projectChannelMessage, if_neg (by rw [hkind]; decide), if_pos hkind]

section

variable (hd : d.Carries roomID channelID e)
include hd

theorem Delivery.Carries.post (h : PostEvent agentRoomID e) (t : Tables b) :
    ∃ v ∈ e.forms roomID channelID, d.apply agentRoomID t = t.insertChannelPost v.projection.post := by
  obtain ⟨v, hv, happly⟩ := hd.message h.message h.room t
  exact ⟨v, hv, by rw [happly, projectChannelMessage_post (by rw [form_kind hv, h.kind])]⟩

theorem Delivery.Carries.comment (h : CommentEvent agentRoomID e) (t : Tables b) :
    ∃ v ∈ e.forms roomID channelID, d.apply agentRoomID t = projectComment v.projection t := by
  obtain ⟨v, hv, happly⟩ := hd.message h.message h.room t
  exact ⟨v, hv, by rw [happly, projectChannelMessage_comment (by rw [form_kind hv, h.kind])]⟩

theorem Delivery.Carries.settings (h : SettingsState e) (t : Tables b) :
    d.apply agentRoomID t = projectPostSettings e.projection t := by
  cases hd with
  | live now => simp [apply, projectRoomEvent, h.state, h.key]
  | backfill hmessage now => simp [h.state] at hmessage

end

end Effects

theorem comment_form {roomID channelID : String} {e v : Event} (hv : v ∈ e.forms roomID channelID) :
    v.projection.comment.commentID = e.projection.comment.commentID ∧ v.projection.comment.postID = e.projection.comment.postID ∧
      v.projection.comment.eventID = e.eventID := by
  simp only [Event.forms, mem_cons, not_mem_nil, or_false] at hv
  obtain rfl | rfl := hv
  · exact ⟨rfl, rfl, rfl⟩
  · have hcomment := string_backfilled roomID channelID e (k := "comment_id") (by decide)
    have hpost := string_backfilled roomID channelID e (k := "post_id") (by decide)
    refine ⟨?_, ?_, rfl⟩
    · simp only [Event.projection, ProjectionEvent.comment, hcomment]
      rfl
    · simp only [Event.projection, ProjectionEvent.comment, hpost]

theorem post_form {roomID channelID : String} {e v : Event} (hv : v ∈ e.forms roomID channelID) :
    SamePost e.projection.post v.projection.post := by
  simp only [Event.forms, mem_cons, not_mem_nil, or_false] at hv
  obtain rfl | rfl := hv
  · exact samePost_self _
  · exact samePost_backfilled roomID channelID e

/-! ## What one sees -/

/-- The visible posts: their ids with the events they show. -/
def Tables.visiblePosts (t : Tables b) : Set (String × String) := {v | ∃ row, t.posts.find v.1 = some row ∧ row.eventID = v.2}

def Tables.visibleComments (t : Tables b) : Set (String × String) :=
  {v | ∃ row, t.comments.find v.1 = some row ∧ row.eventID = v.2}

def Event.postView (e : Event) : String × String := (e.projection.post.postID, e.eventID)

def Event.commentView (e : Event) : String × String := (e.projection.comment.commentID, e.eventID)

/-- A delivery of the channel: live, or, for messages, from its history, or a redaction. -/
def Delivery.OfChannel (roomID channelID : String) (events : List Event) (redacted : List String) (d : Delivery) : Prop :=
  (∃ e ∈ events, d.Carries roomID channelID e) ∨ ∃ i ∈ redacted, d = .redacted i

structure ContentDelivered (roomID channelID : String) (events : List Event) (redacted : List String)
    (deliveries : List Delivery) : Prop where
  only : ∀ d ∈ deliveries, d.OfChannel roomID channelID events redacted
  events : ∀ e ∈ events, ∃ d ∈ deliveries, d.Carries roomID channelID e
  redacted : ∀ i ∈ redacted, .redacted i ∈ deliveries

/-- A comment and a post, in the forms in which they are delivered, are in one channel. -/
def Meet (roomID channelID : String) (c p : Event) : Prop :=
  ∃ vc ∈ c.forms roomID channelID, ∃ vp ∈ p.forms roomID channelID,
    vc.projection.comment.channelID = "" ∨ vp.projection.post.channelID = vc.projection.comment.channelID

/-- An event closes the post of `p` for comments: the post itself or its settings. -/
def Closes (events : List Event) (p : Event) : Prop :=
  p.projection.post.commentsEnabled = false ∨
    ∃ s ∈ events, SettingsState s ∧ ∃ r, s.projection.settings = some r ∧ r.postID = p.projection.post.postID ∧
      r.postEventID = p.eventID ∧ r.commentsEnabled = false

structure Independent (agentRoomID roomID channelID : String) (events : List Event) (redacted : List String) : Prop where
  posts : ∀ e ∈ events, PostEvent agentRoomID e → ∀ e' ∈ events, PostEvent agentRoomID e' →
    e.projection.post.postID = e'.projection.post.postID → e.eventID = e'.eventID
  comments : ∀ e ∈ events, CommentEvent agentRoomID e → ∀ e' ∈ events, CommentEvent agentRoomID e' →
    e.projection.comment.commentID = e'.projection.comment.commentID → e.eventID = e'.eventID
  postsKept :
    ∀ e ∈ events, PostEvent agentRoomID e → ∀ i ∈ redacted, blank i = false → i ≠ e.eventID ∧ i ≠ e.projection.post.postID
  commentsKept : ∀ e ∈ events, CommentEvent agentRoomID e → ∀ i ∈ redacted, blank i = false →
    i ≠ e.eventID ∧ i ≠ e.projection.comment.commentID
  admitted : ∀ c ∈ events, CommentEvent agentRoomID c → ∀ p ∈ events, PostEvent agentRoomID p →
    p.projection.post.postID = c.projection.comment.postID → Meet roomID channelID c p → ¬ Closes events p

/-! ## Rows come from events -/

/-- Every row shows one of the events, and a post is closed only if some event closes it. -/
structure Faithful (agentRoomID roomID channelID : String) (events : List Event) (t : Tables b) : Prop where
  posts : ∀ id row, t.posts.find id = some row → ∃ p ∈ events, PostEvent agentRoomID p ∧ p.projection.post.postID = id ∧
    row.eventID = p.eventID ∧ (∃ v ∈ p.forms roomID channelID, row.channelID = v.projection.post.channelID) ∧
    (row.commentsEnabled = false → Closes events p)
  settings : ∀ id r, t.settings.find id = some r → ∃ s ∈ events, SettingsState s ∧ s.projection.settings = some r
  comments : ∀ id row, t.comments.find id = some row → ∃ c ∈ events, CommentEvent agentRoomID c ∧
    c.projection.comment.commentID = id ∧ row.eventID = c.eventID

section Sufficient

variable {agentRoomID roomID channelID : String} {events : List Event} {redacted : List String} {t : Tables b} {d : Delivery}

theorem faithful_empty : Faithful agentRoomID roomID channelID events (empty b) where
  posts := by intro id row h; cases h
  settings := by intro id r h; cases h
  comments := by intro id row h; cases h

section

variable (h : Faithful agentRoomID roomID channelID events t)
include h

theorem Faithful.applySettings (hs : s ∈ events)
    (hstate : SettingsState s) : Faithful agentRoomID roomID channelID events (projectPostSettings s.projection t) := by
  unfold projectPostSettings
  cases hr : s.projection.settings with
  | none => exact h
  | some r =>
    have hsettings : ∀ id q, (t.applyChannelPostSettings r).settings.find id = some q →
        ∃ s ∈ events, SettingsState s ∧ s.projection.settings = some q := by
      intro id q hq
      obtain rfl | hold := find_applied_settings_cases (settings_spec hr).1 hq
      · exact ⟨s, hs, hstate, hr⟩
      · exact h.settings id q hold
    refine ⟨?_, hsettings, h.comments⟩
    intro id row hrow
    obtain ⟨o, ho, hcase⟩ := find_applied_posts hrow
    obtain ⟨p, hp, hpost, hid, hevent, hform, hcloses⟩ := h.posts id o ho
    obtain rfl | ⟨q, hq, hqevent, rfl⟩ := hcase
    · exact ⟨p, hp, hpost, hid, hevent, hform, hcloses⟩
    · refine ⟨p, hp, hpost, hid, hevent, hform, fun hclosed => ?_⟩
      obtain ⟨e, he, hestate, hcarries⟩ := hsettings id q hq
      right
      exact ⟨e, he, hestate, q, hcarries, by rw [Rows.key_of_find hq, hid], by rw [hqevent, hevent], hclosed⟩

theorem Faithful.insertComment {c v : Event} (hc : c ∈ events)
    (hcomment : CommentEvent agentRoomID c) (hv : v ∈ c.forms roomID channelID) :
    Faithful agentRoomID roomID channelID events (projectComment v.projection t) where
  posts := by rw [(projectComment_posts _ _).1]; exact h.posts
  settings := by rw [(projectComment_posts _ _).2]; exact h.settings
  comments := by
    intro id row hrow
    unfold projectComment at hrow
    split at hrow
    · exact h.comments id row hrow
    rw [find_insertChannelComment] at hrow
    split at hrow
    · rename_i hid
      cases hrow
      obtain ⟨hform, -, hevent⟩ := comment_form hv
      exact ⟨c, hc, hcomment, by rw [← hform, hid], hevent⟩
    · exact h.comments id row hrow

theorem Faithful.removed (eventID : String) :
    Faithful agentRoomID roomID channelID events (removeProjectedEvent eventID t) where
  posts := by
    intro id row hrow
    rw [find_removeProjectedEvent_posts, Option.filter_eq_some_iff] at hrow
    exact h.posts id row hrow.1
  settings := by
    rw [removeProjectedEvent_settings]
    exact h.settings
  comments := by
    intro id row hrow
    rw [find_removeProjectedEvent_comments, Option.filter_eq_some_iff] at hrow
    exact h.comments id row hrow.1

end

theorem unnamed_kept {i id eventID : String} (h : blank i = false → i ≠ eventID ∧ i ≠ id) :
    (blank i || !(id = i || eventID = i)) = true := by
  cases hblank : blank i with
  | true => rfl
  | false => simp [Ne.symm (h hblank).1, Ne.symm (h hblank).2]

/-- What some delivery stores, and no delivery removes, is stored in the end. -/
theorem stored_of_delivery {deliveries : List Delivery} (hd : d ∈ deliveries) {I P : Tables b → Prop}
    (hstep : ∀ d ∈ deliveries, ∀ t, I t → I (d.apply agentRoomID t))
    (hkeep : ∀ d ∈ deliveries, ∀ t, I t → P t → P (d.apply agentRoomID t))
    (hstore : ∀ t, I t → P (d.apply agentRoomID t)) (h : I t) :
    I (deliver agentRoomID deliveries t) ∧ P (deliver agentRoomID deliveries t) := by
  obtain ⟨before, after, rfl⟩ := append_of_mem hd
  have hbefore : I (deliver agentRoomID before t) := deliver_invariant (fun d' hd' => hstep d' (mem_append_left _ hd')) h
  rw [deliver_append]
  apply deliver_invariant (I := fun t => I t ∧ P t) _ ⟨hstep d hd _ hbefore, hstore _ hbefore⟩
  rintro d' hd' t' ⟨hI, hP⟩
  have hmem : d' ∈ before ++ d :: after := mem_append_right _ (mem_cons_of_mem _ hd')
  exact ⟨hstep d' hmem t' hI, hkeep d' hmem t' hI hP⟩

variable (hcontent : ∀ e ∈ events, ContentEvent agentRoomID e)
  (hids : ∀ e ∈ events, ∀ e' ∈ events, e.eventID = e'.eventID → e = e')
  (hind : Independent agentRoomID roomID channelID events redacted)

include hind

section

variable (h : Faithful agentRoomID roomID channelID events t)
include h

include hids in
theorem Faithful.insertPost {p v : Event} (hp : p ∈ events) (hpost : PostEvent agentRoomID p)
    (hv : v ∈ p.forms roomID channelID) :
      Faithful agentRoomID roomID channelID events (t.insertChannelPost v.projection.post) where
  settings := h.settings
  comments := h.comments
  posts := by
    have hsame := post_form hv
    intro id row hrow
    rw [find_insertChannelPost] at hrow
    split at hrow
    · rename_i hid
      cases hrow
      refine ⟨p, hp, hpost, by rw [← hsame.postID, hid], by rw [insertedPost_eventID, hsame.eventID]; rfl,
        ⟨v, hv, (written_eq (insertedPost_written ..)).2.1⟩, ?_⟩
      intro hclosed
      rcases insertedPost_commentsEnabled t.settings (t.posts.find v.projection.post.postID) v.projection.post with
        hown | ⟨o, ho, hold⟩ | ⟨s, hs, hevent, hset⟩
      · left
        rw [← hsame.commentsEnabled, ← hown, hclosed]
      · -- the row that was replaced shows the same event
        obtain ⟨p', hp', hpost', hid', -, -, hcloses⟩ := h.posts _ o ho
        have heq := hids p' hp' p hp (hind.posts p' hp' hpost' p hp hpost (by rw [hid', hsame.postID]))
        rw [heq] at hcloses
        exact hcloses (by rw [← hold, hclosed])
      · obtain ⟨e, he, hstate, hcarries⟩ := h.settings _ s hs
        right
        exact ⟨e, he, hstate, s, hcarries, by rw [Rows.key_of_find hs, hsame.postID], by rw [hevent, hsame.eventID]; rfl,
          by rw [← hset, hclosed]⟩
    · exact h.posts id row hrow

theorem Faithful.admits {c v : Event} (hc : c ∈ events) (hcomment : CommentEvent agentRoomID c)
    (hv : v ∈ c.forms roomID channelID) : projectComment v.projection t = t.insertChannelComment v.projection.comment := by
  have hopen : t.commentsClosed v.projection.comment = false := by
    unfold commentsClosed getChannelPostByID
    split
    · rename_i row hrow
      split at hrow
      · cases hrow
      rw [Option.filter_eq_some_iff] at hrow
      obtain ⟨p, hp, hpost, hid, -, ⟨vp, hvp, hchannel⟩, hcloses⟩ := h.posts _ row hrow.1
      have hmeet : Meet roomID channelID c p := by
        refine ⟨v, hv, vp, hvp, ?_⟩
        rw [← hchannel]
        simpa using hrow.2
      have hnot := hind.admitted c hc hcomment p hp hpost (by rw [hid, (comment_form hv).2.1]) hmeet
      cases henabled : row.commentsEnabled with
      | true => rfl
      | false => exact absurd (hcloses henabled) hnot
    · rfl
  simp [projectComment, hopen]

include hcontent

include hids in
theorem Faithful.step (hd : d.OfChannel roomID channelID events redacted) :
    Faithful agentRoomID roomID channelID events (d.apply agentRoomID t) := by
  obtain ⟨e, he, hcarries⟩ | ⟨i, -, rfl⟩ := hd
  · obtain hpost | hcomment | hstate := hcontent e he
    · obtain ⟨v, hv, happly⟩ := hcarries.post hpost t
      rw [happly]
      exact h.insertPost hids hind he hpost hv
    · obtain ⟨v, hv, happly⟩ := hcarries.comment hcomment t
      rw [happly]
      exact h.insertComment he hcomment hv
    · rw [hcarries.settings hstate t]
      exact h.applySettings he hstate
  · exact h.removed i

/-- A stored post stays stored. -/
theorem Faithful.keepsPost (hd : d.OfChannel roomID channelID events redacted)
    {id : String} (hstored : (t.posts.find id).isSome) : ((d.apply agentRoomID t).posts.find id).isSome := by
  obtain ⟨e, he, hcarries⟩ | ⟨i, hi, rfl⟩ := hd
  · obtain hpost | hcomment | hstate := hcontent e he
    · obtain ⟨v, -, happly⟩ := hcarries.post hpost t
      rw [happly, find_insertChannelPost]
      split
      · rfl
      · exact hstored
    · obtain ⟨v, -, happly⟩ := hcarries.comment hcomment t
      rw [happly, (projectComment_posts _ _).1]
      exact hstored
    · rw [hcarries.settings hstate t]
      unfold projectPostSettings
      split
      · rw [applyChannelPostSettings, appliedPosts_stored]
        exact hstored
      · exact hstored
  · obtain ⟨row, hrow⟩ := Option.isSome_iff_exists.mp hstored
    obtain ⟨p, hp, hpost, hid, hevent, -⟩ := h.posts id row hrow
    have hkept : (blank i || !(row.postID = i || row.eventID = i)) = true :=
      unnamed_kept (by rw [Rows.key_of_find hrow, hevent, ← hid]; exact hind.postsKept p hp hpost i hi)
    rw [apply, find_removeProjectedEvent_posts, hrow, Option.filter_some, if_pos hkept]
    rfl

/-- A stored comment stays stored. -/
theorem Faithful.keepsComment (hd : d.OfChannel roomID channelID events redacted)
    {id : String} (hstored : (t.comments.find id).isSome) : ((d.apply agentRoomID t).comments.find id).isSome := by
  obtain ⟨e, he, hcarries⟩ | ⟨i, hi, rfl⟩ := hd
  · obtain hpost | hcomment | hstate := hcontent e he
    · obtain ⟨v, -, happly⟩ := hcarries.post hpost t
      rw [happly]
      exact hstored
    · obtain ⟨v, hv, happly⟩ := hcarries.comment hcomment t
      rw [happly, h.admits hind he hcomment hv, find_insertChannelComment]
      split
      · rfl
      · exact hstored
    · rw [hcarries.settings hstate t, projectPostSettings_comments]
      exact hstored
  · obtain ⟨row, hrow⟩ := Option.isSome_iff_exists.mp hstored
    obtain ⟨c, hc, hcomment, hid, hevent⟩ := h.comments id row hrow
    have hkept : (blank i || !(row.commentID = i || row.eventID = i)) = true :=
      unnamed_kept (by rw [Rows.key_of_find hrow, hevent, ← hid]; exact hind.commentsKept c hc hcomment i hi)
    rw [apply, find_removeProjectedEvent_comments, hrow, Option.filter_some, if_pos hkept]
    rfl

end

include hcontent

include hids in
theorem visible_of_independent {deliveries : List Delivery}
    (hdelivered : ContentDelivered roomID channelID events redacted deliveries) :
    (deliver agentRoomID deliveries (empty b)).visiblePosts = {v | ∃ p ∈ events, PostEvent agentRoomID p ∧ p.postView = v} ∧
      (deliver agentRoomID deliveries (empty b)).visibleComments =
        {v | ∃ c ∈ events, CommentEvent agentRoomID c ∧ c.commentView = v} := by
  have hstep : ∀ d ∈ deliveries, ∀ t : Tables b, Faithful agentRoomID roomID channelID events t →
      Faithful agentRoomID roomID channelID events (d.apply agentRoomID t) :=
    fun d hd t ht => ht.step hcontent hids hind (hdelivered.only d hd)
  have hend := deliver_invariant hstep faithful_empty
  constructor
  · ext ⟨id, eventID⟩
    constructor
    · rintro ⟨row, hrow, hevent⟩
      obtain ⟨p, hp, hpost, hid, hpevent, -⟩ := hend.posts id row hrow
      exact ⟨p, hp, hpost, by simp [Event.postView, hid, ← hpevent, hevent]⟩
    · rintro ⟨p, hp, hpost, hview⟩
      obtain ⟨d, hd, hcarries⟩ := hdelivered.events p hp
      have hstored := (stored_of_delivery (P := fun t => (t.posts.find p.projection.post.postID).isSome) hd hstep
        (fun d hd t ht => ht.keepsPost hcontent hind (hdelivered.only d hd))
        (fun t _ => by
          obtain ⟨v, hv, happly⟩ := hcarries.post hpost t
          rw [happly, find_insertChannelPost, if_pos (post_form hv).postID]
          rfl) faithful_empty).2
      obtain ⟨row, hrow⟩ := Option.isSome_iff_exists.mp hstored
      obtain ⟨p', hp', hpost', hid', hevent', -⟩ := hend.posts _ row hrow
      simp only [Event.postView, Prod.mk.injEq] at hview
      refine ⟨row, by rw [← hview.1, hrow], ?_⟩
      rw [hevent', hind.posts p' hp' hpost' p hp hpost hid', hview.2]
  · ext ⟨id, eventID⟩
    constructor
    · rintro ⟨row, hrow, hevent⟩
      obtain ⟨c, hc, hcomment, hid, hcevent⟩ := hend.comments id row hrow
      exact ⟨c, hc, hcomment, by simp [Event.commentView, hid, ← hcevent, hevent]⟩
    · rintro ⟨c, hc, hcomment, hview⟩
      obtain ⟨d, hd, hcarries⟩ := hdelivered.events c hc
      have hstored := (stored_of_delivery (P := fun t => (t.comments.find c.projection.comment.commentID).isSome) hd hstep
        (fun d hd t ht => ht.keepsComment hcontent hind (hdelivered.only d hd))
        (fun t ht => by
          obtain ⟨v, hv, happly⟩ := hcarries.comment hcomment t
          rw [happly, ht.admits hind hc hcomment hv, find_insertChannelComment, if_pos (comment_form hv).1]
          rfl) faithful_empty).2
      obtain ⟨row, hrow⟩ := Option.isSome_iff_exists.mp hstored
      obtain ⟨c', hc', hcomment', hid', hevent'⟩ := hend.comments _ row hrow
      simp only [Event.commentView, Prod.mk.injEq] at hview
      refine ⟨row, by rw [← hview.1, hrow], ?_⟩
      rw [hevent', hind.comments c' hc' hcomment' c hc hcomment hid', hview.2]

end Sufficient

/-! ## Orders that differ -/

def lives (events : List Event) : List Delivery := events.map (.live · 0)

def redactions (redacted : List String) : List Delivery := redacted.map .redacted

section Orders

variable {agentRoomID roomID channelID : String} {events : List Event} {redacted : List String}

variable {l : List Event}

theorem ofChannel_lives (hl : ∀ e ∈ l, e ∈ events) : ∀ d ∈ lives l, d.OfChannel roomID channelID events redacted := by
  intro d hd
  obtain ⟨e, he, rfl⟩ := mem_map.mp hd
  exact .inl ⟨e, hl e he, .live 0⟩

theorem ofChannel_redactions : ∀ d ∈ redactions redacted, d.OfChannel roomID channelID events redacted := by
  intro d hd
  obtain ⟨i, hi, rfl⟩ := mem_map.mp hd
  exact .inr ⟨i, hi, rfl⟩

/-- The events, live, and the redactions in any order. -/
theorem delivered_of_mem {l : List Delivery} (hl : ∀ d, d ∈ l ↔ d ∈ lives events ∨ d ∈ redactions redacted) :
    ContentDelivered roomID channelID events redacted l where
  only := fun d hd => ((hl d).mp hd).elim (ofChannel_lives (fun _ h => h) d) (ofChannel_redactions d)
  events := fun e he => ⟨.live e 0, (hl _).mpr (.inl (mem_map_of_mem he)), .live 0⟩
  redacted := fun _ hi => (hl _).mpr (.inr (mem_map_of_mem hi))

theorem mem_lives_again (he : e ∈ events) (d : Delivery) : d ∈ lives events ∨ d = .live e 0 ↔ d ∈ lives events :=
  or_iff_left_of_imp (by rintro rfl; exact mem_map_of_mem he)

theorem find_redactions (find : Tables b → Option α) {keeps : String → α → Bool}
    (hfind : ∀ i t, find (removeProjectedEvent i t) = (find t).filter (keeps i)) (redacted : List String) (t : Tables b) :
    find (deliver agentRoomID (redactions redacted) t) = (find t).filter fun row => redacted.all (keeps · row) := by
  induction redacted generalizing t with
  | nil => cases h : find t <;> simp [redactions, deliver, h, Option.filter]
  | cons i rest ih =>
    have hcons : deliver agentRoomID (redactions (i :: rest)) t =
      deliver agentRoomID (redactions rest) (removeProjectedEvent i t) := rfl
    rw [hcons, ih, hfind, Option.filter_filter]
    simp only [all_cons]

/-- Redactions leave the rows that none of them names. -/
theorem find_redactions_posts (redacted : List String) (t : Tables b) (id : String) :
    (deliver agentRoomID (redactions redacted) t).posts.find id =
      (t.posts.find id).filter fun p => redacted.all fun i => blank i || !(p.postID = i || p.eventID = i) :=
  find_redactions (·.posts.find id) (fun i t => find_removeProjectedEvent_posts i t id) redacted t

theorem find_redactions_comments (redacted : List String) (t : Tables b) (id : String) :
    (deliver agentRoomID (redactions redacted) t).comments.find id =
      (t.comments.find id).filter fun m => redacted.all fun i => blank i || !(m.commentID = i || m.eventID = i) :=
  find_redactions (·.comments.find id) (fun i t => find_removeProjectedEvent_comments i t id) redacted t

/-- A named row is gone after the redactions. -/
theorem all_redacted_false {p i' : String} {id : String} (hi : i' ∈ redacted) (hblank : blank i' = false) (h : i' = p ∨ i' = id) :
    (redacted.all fun i => blank i || !(id = i || p = i)) = false := by
  rw [all_eq_false]
  refine ⟨i', hi, ?_⟩
  rcases h with rfl | rfl <;> simp [hblank]

/-! ### Posts -/

variable {p : Event}

theorem live_post (h : PostEvent agentRoomID p) (t : Tables b) :
    ∃ row, (deliver agentRoomID [.live p 0] t).posts.find p.projection.post.postID = some row ∧ row.eventID = p.eventID := by
  have happly : deliver agentRoomID [.live p 0] t = t.insertChannelPost p.projection.post :=
    (apply_live h.message h.room 0 t).trans (projectChannelMessage_post h.kind t)
  refine ⟨insertedPost b t.settings (t.posts.find p.projection.post.postID) p.projection.post, ?_, ?_⟩
  · rw [happly, find_insertChannelPost, if_pos rfl]
  · rw [insertedPost_eventID]
    rfl

/-- The post at the end, after all redactions. -/
def postLast (events : List Event) (redacted : List String) (p : Event) : List Delivery :=
  redactions redacted ++ lives events ++ [.live p 0]

theorem postLast_delivered (redacted : List String) (hp : p ∈ events) :
    ContentDelivered roomID channelID events redacted (postLast events redacted p) := by
  refine delivered_of_mem fun d => ?_
  rw [← mem_lives_again hp]
  simp only [postLast, mem_append, mem_singleton]
  tauto

theorem postLast_shows (events : List Event) (redacted : List String) (h : PostEvent agentRoomID p) (t : Tables b) :
    ∃ row, (deliver agentRoomID (postLast events redacted p) t).posts.find p.projection.post.postID = some row ∧
      row.eventID = p.eventID := by
  rw [postLast, deliver_append]
  exact live_post h _

/-- The redactions at the end, after the post. -/
def postRedacted (events : List Event) (redacted : List String) (p : Event) : List Delivery :=
  lives events ++ [.live p 0] ++ redactions redacted

theorem postRedacted_delivered (redacted : List String) (hp : p ∈ events) :
    ContentDelivered roomID channelID events redacted (postRedacted events redacted p) := by
  refine delivered_of_mem fun d => ?_
  rw [← mem_lives_again hp]
  simp only [postRedacted, mem_append, mem_singleton]

theorem postRedacted_hides (h : PostEvent agentRoomID p) (hi : i ∈ redacted) (hblank : blank i = false)
    (hnamed : i = p.eventID ∨ i = p.projection.post.postID) (t : Tables b) :
    (deliver agentRoomID (postRedacted events redacted p) t).posts.find p.projection.post.postID = none := by
  rw [postRedacted, deliver_append, deliver_append, find_redactions_posts]
  obtain ⟨row, hrow, hevent⟩ := live_post h (deliver agentRoomID (lives events) t)
  have hgone := all_redacted_false hi hblank hnamed
  rw [hrow, Option.filter_some, if_neg]
  rw [Rows.key_of_find hrow, hevent, hgone]
  exact Bool.false_ne_true

/-! ### Comments -/

def NoPosts (t : Tables b) : Prop := ∀ id, t.posts.find id = none

variable {t : Tables b} {c : Event}

theorem NoPosts.admits (h : NoPosts t) (event : ProjectionEvent) :
    projectComment event t = t.insertChannelComment event.comment := by
  have hopen : t.commentsClosed event.comment = false := by
    unfold commentsClosed getChannelPostByID
    rw [h]
    by_cases hid : event.comment.postID = "" <;> simp [hid, Option.filter]
  simp [projectComment, hopen]

theorem NoPosts.redactions (h : NoPosts t) (redacted : List String) :
    NoPosts (deliver agentRoomID (redactions redacted) t) := by
  intro id
  rw [find_redactions_posts, h]
  rfl

theorem NoPosts.comments (h : NoPosts t) (hl : ∀ e ∈ l, CommentEvent agentRoomID e) :
    NoPosts (deliver agentRoomID (lives l) t) := by
  apply deliver_invariant _ h
  intro d hd t' ht'
  obtain ⟨e, he, rfl⟩ := mem_map.mp hd
  intro id
  rw [apply_live (hl e he).message (hl e he).room, projectChannelMessage_comment (hl e he).kind, (projectComment_posts _ _).1]
  exact ht' id

theorem NoPosts.live_comment (h : NoPosts t) (hc : CommentEvent agentRoomID c) :
    (deliver agentRoomID [.live c 0] t).comments.find c.projection.comment.commentID = some c.projection.comment := by
  have happly : deliver agentRoomID [.live c 0] t = projectComment c.projection t :=
    (apply_live hc.message hc.room 0 t).trans (projectChannelMessage_comment hc.kind t)
  rw [happly, h.admits, find_insertChannelComment, if_pos rfl]

theorem noPosts_empty : NoPosts (empty b) := fun _ => rfl

theorem isComment_spec (h : ContentEvent agentRoomID e) :
    (e.isComment = true → CommentEvent agentRoomID e) ∧ (e.isComment = false → PostEvent agentRoomID e ∨ SettingsState e) := by
  obtain hpost | hcomment | hstate := h
  · have hno : e.isComment = false := by simp [Event.isComment, hpost.kind]
    exact ⟨by simp [hno], fun _ => .inl hpost⟩
  · have hyes : e.isComment = true := by simp [Event.isComment, hcomment.kind, hcomment.message]
    exact ⟨fun _ => hcomment, by simp [hyes]⟩
  · have hno : e.isComment = false := by simp [Event.isComment, hstate.state]
    exact ⟨by simp [hno], fun _ => .inr hstate⟩

theorem lives_others_comments (hl : ∀ e ∈ l, PostEvent agentRoomID e ∨ SettingsState e) (t : Tables b) :
    (deliver agentRoomID (lives l) t).comments = t.comments := by
  apply deliver_invariant (I := fun t' => t'.comments = t.comments) _ rfl
  intro d hd t' ht'
  obtain ⟨e, he, rfl⟩ := mem_map.mp hd
  have hcarries : (live e 0).Carries "" "" e := .live 0
  obtain hpost | hstate := hl e he
  · obtain ⟨v, -, happly⟩ := hcarries.post hpost t'
    rw [happly]
    exact ht'
  · rw [hcarries.settings hstate t', projectPostSettings_comments, ht']

def commentsOf (events : List Event) : List Event := events.filter Event.isComment

def othersOf (events : List Event) : List Event := events.filter (!·.isComment)

variable (hcontent : ∀ e ∈ events, ContentEvent agentRoomID e)

include hcontent in
theorem commentsOf_spec : ∀ e ∈ commentsOf events, CommentEvent agentRoomID e := by
  intro e he
  rw [commentsOf, mem_filter] at he
  exact (isComment_spec (hcontent e he.1)).1 he.2

include hcontent in
theorem othersOf_spec : ∀ e ∈ othersOf events, PostEvent agentRoomID e ∨ SettingsState e := by
  intro e he
  rw [othersOf, mem_filter] at he
  exact (isComment_spec (hcontent e he.1)).2 (by simpa using he.2)

theorem mem_lives_split (d : Delivery) : d ∈ lives (commentsOf events) ∨ d ∈ lives (othersOf events) ↔ d ∈ lives events := by
  simp only [lives, commentsOf, othersOf, mem_map, mem_filter, Bool.not_eq_true']
  constructor
  · rintro (⟨e, he, rfl⟩ | ⟨e, he, rfl⟩) <;> exact ⟨e, he.1, rfl⟩
  · rintro ⟨e, he, rfl⟩
    cases h : e.isComment
    · exact .inr ⟨e, ⟨he, h⟩, rfl⟩
    · exact .inl ⟨e, ⟨he, h⟩, rfl⟩

/-- All comments before any post, the given one last among them and after all redactions. -/
def commentFirst (events : List Event) (redacted : List String) (c : Event) : List Delivery :=
  redactions redacted ++ lives (commentsOf events) ++ [.live c 0] ++ lives (othersOf events)

theorem commentFirst_delivered (redacted : List String) (hc : c ∈ events) :
    ContentDelivered roomID channelID events redacted (commentFirst events redacted c) := by
  refine delivered_of_mem fun d => ?_
  rw [← mem_lives_again hc, ← mem_lives_split]
  simp only [commentFirst, mem_append, mem_singleton]
  tauto

include hcontent in
theorem commentFirst_shows (redacted : List String) (hc : CommentEvent agentRoomID c) :
    (deliver agentRoomID (commentFirst events redacted c) (empty b)).comments.find c.projection.comment.commentID =
      some c.projection.comment := by
  rw [commentFirst, deliver_append, lives_others_comments (othersOf_spec hcontent), deliver_append, deliver_append]
  exact ((noPosts_empty.redactions redacted).comments (commentsOf_spec hcontent)).live_comment hc

/-- The redactions after all comments, and only then the posts. -/
def commentRedacted (events : List Event) (redacted : List String) (c : Event) : List Delivery :=
  lives (commentsOf events) ++ [.live c 0] ++ redactions redacted ++ lives (othersOf events)

theorem commentRedacted_delivered (redacted : List String) (hc : c ∈ events) :
    ContentDelivered roomID channelID events redacted (commentRedacted events redacted c) := by
  refine delivered_of_mem fun d => ?_
  rw [← mem_lives_again hc, ← mem_lives_split]
  simp only [commentRedacted, mem_append, mem_singleton]
  tauto

include hcontent in
theorem commentRedacted_hides (hc : CommentEvent agentRoomID c)
    (hi : i ∈ redacted) (hblank : blank i = false) (hnamed : i = c.eventID ∨ i = c.projection.comment.commentID) :
    (deliver agentRoomID (commentRedacted events redacted c) (empty b)).comments.find c.projection.comment.commentID = none := by
  rw [commentRedacted, deliver_append, lives_others_comments (othersOf_spec hcontent), deliver_append, deliver_append,
    find_redactions_comments, (noPosts_empty.comments (commentsOf_spec hcontent)).live_comment hc]
  have hgone := all_redacted_false hi hblank hnamed
  rw [Option.filter_some, if_neg]
  rw [show c.projection.comment.eventID = c.eventID from rfl, hgone]
  exact Bool.false_ne_true

/-! ### A comment on a closed post -/

theorem post_postID_ne_empty (event : ProjectionEvent) : event.post.postID ≠ "" := by
  unfold ProjectionEvent.post
  dsimp only
  split
  · intro h
    have hlength := congrArg String.length h
    simp at hlength
  · assumption

theorem projectComment_closed (hrow : t.posts.find event.comment.postID = some row)
    (hid : event.comment.postID ≠ "") (hclosed : row.commentsEnabled = false)
    (hchannel : event.comment.channelID = "" ∨ row.channelID = event.comment.channelID) : projectComment event t = t := by
  have hfound : t.getChannelPostByID event.comment.postID event.comment.channelID = some row := by
    rw [getChannelPostByID, if_neg hid, hrow, Option.filter_some, if_pos (by simpa using hchannel)]
  have hcloses : t.commentsClosed event.comment = true := by simp [commentsClosed, hfound, hclosed]
  rw [projectComment, if_pos hcloses]

theorem find_insert_empty (post : Post) : ((empty b).insertChannelPost post).posts.find post.postID = some post := by
  rw [find_insertChannelPost, if_pos rfl]
  cases b <;> rfl

theorem find_closed_by_settings (hpost : SamePost own post) (hr : trimSettings r = r)
    (hid : r.postID = own.postID) (hevent : r.postEventID = own.eventID) :
    ∃ row, (((empty b).insertChannelPost post).applyChannelPostSettings r).posts.find own.postID = some row ∧
      row.channelID = post.channelID ∧ row.commentsEnabled = r.commentsEnabled := by
  have hstart : Settled own [] false (.empty b) := settled_start rfl rfl
  have hsettled := (hstart.insert hpost).apply hr hid hevent
  obtain ⟨row, hrow⟩ := Option.isSome_iff_exists.mp hsettled.stored
  obtain ⟨o, ho, hcase⟩ := find_applied_posts hrow
  have hchannel : row.channelID = o.channelID := by
    rcases hcase with rfl | ⟨r, -, -, rfl⟩ <;> rfl
  rw [← hpost.postID, find_insert_empty] at ho
  cases ho
  have hregister := hsettled.register
  have hshows := (hsettled.row row hrow).2
  cases hfind : (((empty b).insertChannelPost post).applyChannelPostSettings r).settings.find own.postID with
  | none =>
    rw [hfind] at hregister
    simp [Rows.IsLatest] at hregister
  | some q =>
    rw [hfind] at hregister hshows
    have hq : q = r := by simpa using hregister.1
    exact ⟨row, hrow, hchannel, by rw [hshows.2, hq]⟩

theorem exists_closing (redacted : List String) (hc : c ∈ events) (hcomment : CommentEvent agentRoomID c) (hp : p ∈ events)
    (hpost : PostEvent agentRoomID p) (hid : p.projection.post.postID = c.projection.comment.postID)
    (hmeet : Meet roomID channelID c p) (hcloses : Closes events p) :
    ∃ deliveries : List Delivery, (∀ d ∈ deliveries, d.OfChannel roomID channelID events redacted) ∧
      (∃ d ∈ deliveries, d.Carries roomID channelID c) ∧
      ∀ id, (deliver agentRoomID deliveries (empty b)).comments.find id = none := by
  obtain ⟨vc, hvc, vp, hvp, hchannel⟩ := hmeet
  obtain ⟨dp, hdp, happlyp⟩ := exists_delivery (b := b) hpost.message hpost.room hvp
  obtain ⟨dc, hdc, happlyc⟩ := exists_delivery (b := b) hcomment.message hcomment.room hvc
  have hkindp := projectChannelMessage_post (b := b) ((form_kind hvp).trans hpost.kind)
  have hkindc := projectChannelMessage_comment (b := b) ((form_kind hvc).trans hcomment.kind)
  have hsame := post_form hvp
  have hpostID : vc.projection.comment.postID = p.projection.post.postID := by rw [(comment_form hvc).2.1, hid]
  have hne : vc.projection.comment.postID ≠ "" := by
    rw [hpostID]
    exact post_postID_ne_empty _
  obtain hown | ⟨s, hs, hstate, r, hcarries, hrid, hrevent, hrclosed⟩ := hcloses
  · refine ⟨[dp, dc], ?_, ⟨dc, by simp, hdc⟩, fun id => ?_⟩
    · simp only [forall_mem_cons]
      exact ⟨.inl ⟨p, hp, hdp⟩, .inl ⟨c, hc, hdc⟩, by simp⟩
    · have hrow : ((empty b).insertChannelPost vp.projection.post).posts.find vc.projection.comment.postID =
          some vp.projection.post := by
        rw [hpostID, ← hsame.postID, find_insert_empty]
      simp only [deliver, foldl_cons, foldl_nil, happlyp, happlyc, hkindp, hkindc]
      rw [projectComment_closed hrow hne (by rw [hsame.commentsEnabled, hown]) hchannel]
      rfl
  · refine ⟨[dp, .live s 0, dc], ?_, ⟨dc, by simp, hdc⟩, fun id => ?_⟩
    · simp only [forall_mem_cons]
      exact ⟨.inl ⟨p, hp, hdp⟩, .inl ⟨s, hs, .live 0⟩, .inl ⟨c, hc, hdc⟩, by simp⟩
    · obtain ⟨row, hrow, hrowchannel, hflag⟩ := find_closed_by_settings (b := b) hsame (settings_spec hcarries).1 hrid hrevent
      have happlys : ∀ t : Tables b, (live s 0).apply agentRoomID t = t.applyChannelPostSettings r := by
        intro t
        have hlive : (live s 0).Carries roomID channelID s := .live 0
        rw [hlive.settings hstate t]
        simp [projectPostSettings, hcarries]
      simp only [deliver, foldl_cons, foldl_nil, happlyp, happlyc, happlys, hkindp, hkindc]
      rw [projectComment_closed (by rw [hpostID, hrow]) hne (by rw [hflag, hrclosed]) (by rw [hrowchannel]; exact hchannel)]
      rfl

include hcontent in
/-- No other event shows this one. -/
theorem lives_hide (hl : ∀ e ∈ l, e ∈ events) {eventID : String}
    (hne : ∀ e ∈ l, e.eventID ≠ eventID) (h : ∀ id row, t.comments.find id = some row → row.eventID ≠ eventID) :
    ∀ id row, (deliver agentRoomID (lives l) t).comments.find id = some row → row.eventID ≠ eventID := by
  apply deliver_invariant (I := fun t : Tables b => ∀ id row, t.comments.find id = some row → row.eventID ≠ eventID) _ h
  intro d hd t' ht'
  obtain ⟨e, he, rfl⟩ := mem_map.mp hd
  have hcarries : (live e 0).Carries "" "" e := .live 0
  obtain hpost | hcomment | hstate := hcontent e (hl e he)
  · obtain ⟨v, -, happly⟩ := hcarries.post hpost t'
    rw [happly]
    exact ht'
  · obtain ⟨v, hv, happly⟩ := hcarries.comment hcomment t'
    rw [happly]
    intro id row hrow
    unfold projectComment at hrow
    split at hrow
    · exact ht' id row hrow
    rw [find_insertChannelComment] at hrow
    split at hrow
    · cases hrow
      rw [(comment_form hv).2.2]
      exact hne e he
    · exact ht' id row hrow
  · rw [hcarries.settings hstate t', projectPostSettings_comments]
    exact ht'

include hcontent in
theorem exists_order_hiding (redacted : List String)
    (hids : ∀ e ∈ events, ∀ e' ∈ events, e.eventID = e'.eventID → e = e') (hc : c ∈ events)
    (hcomment : CommentEvent agentRoomID c) (hp : p ∈ events) (hpost : PostEvent agentRoomID p)
    (hid : p.projection.post.postID = c.projection.comment.postID) (hmeet : Meet roomID channelID c p)
    (hcloses : Closes events p) : ∃ deliveries, ContentDelivered roomID channelID events redacted deliveries ∧
      ∀ id row, (deliver agentRoomID deliveries (empty b)).comments.find id = some row → row.eventID ≠ c.eventID := by
  obtain ⟨closing, honly, ⟨dc, hdc, hcarries⟩, hnone⟩ := exists_closing (b := b) redacted hc hcomment hp hpost hid hmeet hcloses
  refine ⟨closing ++ lives (events.filter fun e => e.eventID ≠ c.eventID) ++ redactions redacted, ⟨?_, ?_, ?_⟩, ?_⟩
  · intro d hd
    simp only [mem_append] at hd
    rcases hd with (hd | hd) | hd
    · exact honly d hd
    · exact ofChannel_lives (fun _ h => mem_of_mem_filter h) d hd
    · exact ofChannel_redactions d hd
  · intro e he
    by_cases heq : e.eventID = c.eventID
    · rw [hids e he c hc heq]
      exact ⟨dc, by simp [hdc], hcarries⟩
    · exact ⟨.live e 0, by simp [lives, he, heq], .live 0⟩
  · intro i hi
    simp [redactions, hi]
  · intro id row hrow
    rw [deliver_append, find_redactions_comments, Option.filter_eq_some_iff, deliver_append] at hrow
    refine lives_hide hcontent (fun _ h => mem_of_mem_filter h) ?_ (fun id row hrow => ?_) id row hrow.1
    · intro e he
      simpa using (mem_filter.mp he).2
    · rw [hnone] at hrow
      cases hrow

end Orders

/-- The posts and comments of a channel are the same after every order of its events, live or replayed, exactly when
the events are independent of one another. -/
theorem content_confluent_iff (agentRoomID roomID channelID : String) (events : List Event) (redacted : List String)
    (hcontent : ∀ e ∈ events, ContentEvent agentRoomID e) (hids : ∀ e ∈ events, ∀ e' ∈ events, e.eventID = e'.eventID → e = e') :
    (∀ l l', ContentDelivered roomID channelID events redacted l → ContentDelivered roomID channelID events redacted l' →
        (deliver agentRoomID l (empty b)).visiblePosts = (deliver agentRoomID l' (empty b)).visiblePosts ∧
        (deliver agentRoomID l (empty b)).visibleComments = (deliver agentRoomID l' (empty b)).visibleComments) ↔
      Independent agentRoomID roomID channelID events redacted := by
  constructor
  · intro hconfluent
    -- what one order shows, every order shows
    have hposts : ∀ e ∈ events, PostEvent agentRoomID e → ∀ l, ContentDelivered roomID channelID events redacted l →
        e.postView ∈ (deliver agentRoomID l (.empty b)).visiblePosts := by
      intro e he hpost l hl
      rw [← (hconfluent _ _ (postLast_delivered redacted he) hl).1]
      exact postLast_shows _ _ hpost _
    have hcomments : ∀ e ∈ events, CommentEvent agentRoomID e → ∀ l, ContentDelivered roomID channelID events redacted l →
        e.commentView ∈ (deliver agentRoomID l (.empty b)).visibleComments := by
      intro e he hcomment l hl
      rw [← (hconfluent _ _ (commentFirst_delivered redacted he) hl).2]
      exact ⟨_, commentFirst_shows hcontent redacted hcomment, rfl⟩
    refine ⟨?_, ?_, ?_, ?_, ?_⟩
    · intro e he hpost e' he' hpost' hid
      obtain ⟨row, hrow, hevent⟩ := hposts e he hpost _ (postLast_delivered redacted he')
      obtain ⟨row', hrow', hevent'⟩ := postLast_shows events redacted hpost' (.empty b)
      rw [Event.postView] at hrow hevent
      rw [← hid, hrow] at hrow'
      cases hrow'
      exact hevent.symm.trans hevent'
    · intro e he hcomment e' he' hcomment' hid
      obtain ⟨row, hrow, hevent⟩ := hcomments e he hcomment _ (commentFirst_delivered redacted he')
      have hshown' := commentFirst_shows (b := b) hcontent redacted hcomment'
      rw [Event.commentView] at hrow hevent
      rw [← hid, hrow] at hshown'
      cases hshown'
      exact hevent.symm
    · intro e he hpost i hi hblank
      by_contra hnamed
      rw [not_and_or, not_not, not_not] at hnamed
      obtain ⟨row, hrow, -⟩ := hposts e he hpost _ (postRedacted_delivered redacted he)
      rw [Event.postView, postRedacted_hides hpost hi hblank hnamed] at hrow
      cases hrow
    · intro e he hcomment i hi hblank
      by_contra hnamed
      rw [not_and_or, not_not, not_not] at hnamed
      obtain ⟨row, hrow, -⟩ := hcomments e he hcomment _ (commentRedacted_delivered redacted he)
      rw [Event.commentView, commentRedacted_hides hcontent hcomment hi hblank hnamed] at hrow
      cases hrow
    · intro c hc hcomment p hp hpost hid hmeet hcloses
      obtain ⟨l, hl, hhidden⟩ := exists_order_hiding (b := b) hcontent redacted hids hc hcomment hp hpost hid hmeet hcloses
      obtain ⟨row, hrow, hevent⟩ := hcomments c hc hcomment l hl
      exact hhidden _ row hrow hevent
  · intro hind l l' hl hl'
    obtain ⟨hposts, hcomments⟩ := visible_of_independent (b := b) hcontent hids hind hl
    obtain ⟨hposts', hcomments'⟩ := visible_of_independent (b := b) hcontent hids hind hl'
    exact ⟨hposts.trans hposts'.symm, hcomments.trans hcomments'.symm⟩

namespace Sample

def comment : Event :=
  message "$comment" "@bob" [("p2p_kind", .string "channel_comment"), ("post_id", .string "p1"), ("comment_id", .string "c1")]

theorem comment_isComment : CommentEvent "!agent" comment := ⟨rfl, by decide, by decide⟩

theorem post_not_comment : ¬ CommentEvent "!agent" post := fun h => absurd h.kind (by decide)

theorem comment_not_post : ¬ PostEvent "!agent" comment := fun h => absurd h.kind (by decide)

theorem post_open : ¬ Closes [post, comment] post := by
  rintro (hclosed | ⟨e, he, hstate, -⟩)
  · exact absurd hclosed (by decide)
  · rcases mem_pair.mp he with rfl | rfl <;> cases hstate.state

end Sample

open Sample in
/-- A post and a comment on it, in either order, and the post once more from the history. -/
theorem content_confluent_swapped : (deliver "!agent" [.live post 0, .live comment 0] (empty (.memory .head))).visibleComments =
      (deliver "!agent" [.live comment 0, .live post 0, .backfill "!room" "ch" post 0]
        (empty (.memory .head))).visibleComments := by
  have hindependent : Independent "!agent" "!room" "ch" [post, comment] [] :=
    ⟨by simp [comment_not_post], by simp [post_not_comment], by simp, by simp, by simp [comment_not_post, post_open]⟩
  have hids : ∀ e ∈ [post, comment], ∀ e' ∈ [post, comment], e.eventID = e'.eventID → e = e' := by
    simp [show post.eventID ≠ comment.eventID by decide, show comment.eventID ≠ post.eventID by decide]
  have hconfluent := (content_confluent_iff (b := .memory .head) "!agent" "!room" "ch" [post, comment] []
    (by simpa using ⟨.inl post_isPost, .inr (.inl comment_isComment)⟩) hids).mpr hindependent
  refine (hconfluent _ _ ⟨?_, ?_, by simp⟩ ⟨?_, ?_, by simp⟩).2
  · simp only [forall_mem_cons]
    exact ⟨.inl ⟨post, by simp, .live 0⟩, .inl ⟨comment, by simp, .live 0⟩, by simp⟩
  · simp only [forall_mem_cons]
    exact ⟨⟨_, .head _, .live 0⟩, ⟨_, .tail _ (.head _), .live 0⟩, by simp⟩
  · simp only [forall_mem_cons]
    exact ⟨.inl ⟨comment, by simp, .live 0⟩, .inl ⟨post, by simp, .live 0⟩, .inl ⟨post, by simp, .backfill rfl 0⟩, by simp⟩
  · simp only [forall_mem_cons]
    exact ⟨⟨_, .tail _ (.head _), .live 0⟩, ⟨_, .head _, .live 0⟩, by simp⟩

open Sample in
/-- A redacted post comes back with the history of the channel, and a comment is there or not, depending on
whether the settings that close its post came before it. -/
theorem replay_resurrects :
    (deliver "!agent" [.live post 0, .redacted "$post"] (empty .postgres)).posts.find "p1" = none ∧
      ((deliver "!agent" [.live post 0, .redacted "$post", .backfill "!room" "ch" post 0]
        (empty .postgres)).posts.find "p1").isSome ∧
      ((deliver "!agent" [.live post 0, .live comment 0, .live (settings 7 "private" false) 0] (empty .postgres)).comments.find
        "c1").isSome ∧
      (deliver "!agent" [.live post 0, .live (settings 7 "private" false) 0, .live comment 0] (empty .postgres)).comments.find
        "c1" = none := by
  decide

end Dirextalk.Content

/-
  Dirextalk.Content.Settings — the settings of a post converge (`post_settings_converge`).

  The table of settings is a last-writer register of the post, fed by the time stamps of
  the events. What carries the argument is that the post row, once there is one, shows the
  register (`Settled`): settings that come before the post wait in their table, and a
  replayed post finds them there or keeps what it had.
-/
import Dirextalk.Content.Effects

namespace Dirextalk.Content

open Lib Lib.Go Dirextalk.Action List Post

variable {b : Backend}

/-! ## The register and the row -/

/-- The row shows the settings of the register, or its own when there are none. -/
def Post.Shows (post own : Post) : Option PostSettings → Prop
  | some s => post.visibility = s.visibility ∧ post.commentsEnabled = s.commentsEnabled
  | none => post.settingsUpdated = false ∧ post.visibility = own.visibility ∧ post.commentsEnabled = own.commentsEnabled

/-- After the settings in `seen` (and the post, if `posted`) were delivered. -/
structure Settled (own : Post) (seen : List PostSettings) (posted : Bool) (t : Tables b) : Prop where
  register : Rows.IsLatest PostSettings.updatedAt seen (t.settings.find own.postID)
  ofEvent : ∀ s, t.settings.find own.postID = some s → s.postEventID = own.eventID
  row : ∀ post, t.posts.find own.postID = some post → post.eventID = own.eventID ∧ post.Shows own (t.settings.find own.postID)
  stored : (t.posts.find own.postID).isSome = posted

/-- The post of a delivery of the event: the history may have added a channel id. -/
structure SamePost (own post : Post) : Prop where
  postID : post.postID = own.postID
  eventID : post.eventID = own.eventID
  visibility : post.visibility = own.visibility
  commentsEnabled : post.commentsEnabled = own.commentsEnabled
  settingsUpdated : post.settingsUpdated = false

variable {own : Post} {seen : List PostSettings} {t : Tables b}

theorem insertedPost_shows (hpost : SamePost own post)
    (hevent : ∀ s, settings.find own.postID = some s → s.postEventID = own.eventID)
    (hold : ∀ o, old = some o → o.Shows own (settings.find own.postID)) :
    (insertedPost b settings old post).Shows own (settings.find own.postID) := by
  cases hreg : settings.find own.postID with
  | some s =>
    have hs := hevent s hreg
    cases b with
    | postgres =>
      have hsynced : (post.over old).synced settings = (post.over old).withSettings s :=
        synced_of_some (by rw [over_postID, hpost.postID, hreg])
          (by rw [(written_eq (post.over_written old)).1, hpost.eventID, hs])
      simp [insertedPost, hsynced, withSettings, Shows]
    | memory =>
      have hsynced : post.synced settings = post.withSettings s :=
        synced_of_some (by rw [hpost.postID, hreg]) (by rw [hpost.eventID, hs])
      -- a row with settings of its own keeps them, and they are those of the register
      cases old with
      | none => simp [insertedPost, hsynced, Post.over, withSettings, Shows]
      | some o =>
        have ho := hold o rfl
        rw [hreg] at ho
        by_cases hupdated : o.settingsUpdated
        · simpa [insertedPost, hsynced, Post.over, hupdated, Shows] using ho
        · simp [insertedPost, hsynced, Post.over, hupdated, withSettings, Shows]
  | none =>
    have hover : post.over old = post := by
      cases old with
      | none => rfl
      | some o =>
        have ho := hold o rfl
        rw [hreg] at ho
        simp [Post.over, ho.1]
    have hsynced : post.synced settings = post := synced_of_none (by rw [hpost.postID, hreg])
    have hinserted : insertedPost b settings old post = post := by cases b <;> simp [insertedPost, hover, hsynced]
    rw [hinserted]
    exact ⟨hpost.settingsUpdated, hpost.visibility, hpost.commentsEnabled⟩

theorem Settled.insert
    (h : Settled own seen posted t) (hpost : SamePost own post) : Settled own seen true (t.insertChannelPost post) where
  register := h.register
  ofEvent := h.ofEvent
  row := by
    intro stored hfind
    rw [find_insertChannelPost, if_pos hpost.postID] at hfind
    cases hfind
    refine ⟨by rw [insertedPost_eventID, hpost.eventID], ?_⟩
    apply insertedPost_shows hpost h.ofEvent
    intro o ho
    rw [hpost.postID] at ho
    exact (h.row o ho).2
  stored := by rw [find_insertChannelPost, if_pos hpost.postID]; rfl

theorem appliedPosts_shows (hid : s.postID = own.postID) (hevent : s.postEventID = own.eventID)
    (hregister : ∀ r, settings.find own.postID = some r → r.postEventID = own.eventID)
    (hnewer : newer = true → settings.find own.postID = some s)
    (hkept : newer = false → ∀ o, posts.find own.postID = some o → o.Shows own (settings.find own.postID))
    (hsome : (settings.find own.postID).isSome)
    (hrow : ∀ o, posts.find own.postID = some o → o.eventID = own.eventID)
    (h : (appliedPosts b posts settings s newer).find own.postID = some post) :
    post.eventID = own.eventID ∧ post.Shows own (settings.find own.postID) := by
  cases b with
  | postgres =>
    obtain ⟨r, hr⟩ := Option.isSome_iff_exists.mp hsome
    rw [appliedPosts, Rows.find_modify, Option.map_eq_some_iff] at h
    obtain ⟨o, ho, rfl⟩ := h
    have hokey := Rows.key_of_find ho
    have hsynced := synced_of_some (by rw [hokey, hr]) (by rw [hregister r hr, hrow o ho])
    simp [hokey, hid, hsynced, hr, withSettings, Shows, hrow o ho]
  | memory =>
    cases hn : newer with
    | true =>
      rw [appliedPosts, hn, if_pos rfl, Rows.find_modify, Option.map_eq_some_iff] at h
      obtain ⟨o, ho, rfl⟩ := h
      have hokey := Rows.key_of_find ho
      simp [hokey, hid, hevent, hrow o ho, hnewer hn, withSettings, Shows]
    | false =>
      rw [appliedPosts, hn, if_neg Bool.false_ne_true] at h
      exact ⟨hrow post h, hkept hn post h⟩

theorem Settled.apply
    (h : Settled own seen posted t) (hs : trimSettings s = s) (hid : s.postID = own.postID)
    (hevent : s.postEventID = own.eventID) : Settled own (seen ++ [s]) posted (t.applyChannelPostSettings s) := by
  have hfind := find_applied_settings (t := t) hs
  rw [hid] at hfind
  have hregister : ∀ r, (t.applyChannelPostSettings s).settings.find own.postID = some r → r.postEventID = own.eventID := by
    intro r hr
    rw [hfind] at hr
    split at hr
    · cases hr
      exact hevent
    · exact h.ofEvent r hr
  have hposts : (t.applyChannelPostSettings s).posts =
      appliedPosts b t.posts (t.applyChannelPostSettings s).settings s
        (Rows.replaces PostSettings.updatedAt s (t.settings.find own.postID)) := by
    simp only [Tables.applyChannelPostSettings, hs, Tables.newerSettings, hid]
  refine ⟨?_, hregister, ?_, ?_⟩
  · rw [hfind]
    exact h.register.write s
  · intro post hpost
    rw [hposts] at hpost
    refine appliedPosts_shows hid hevent hregister ?_ ?_ ?_ (fun o ho => (h.row o ho).1) hpost
    · intro hnewer
      rw [hfind, if_pos hnewer]
    · intro hold o ho
      rw [hfind, if_neg (by simp [hold])]
      exact (h.row o ho).2
    · rw [hfind]
      cases hreg : t.settings.find own.postID with
      | none => simp [Rows.replaces]
      | some r => split <;> rfl
  · rw [hposts, appliedPosts_stored]
    exact h.stored

/-! ## A whole delivery -/

structure SettingsEvent (e s : Event) (r : PostSettings) : Prop where
  state : s.type = .channelPostSettings
  key : s.stateKey.isSome
  carries : s.projection.settings = some r
  post : r.postID = e.projection.post.postID
  ofEvent : r.postEventID = e.eventID

/-- The post comes live or from the history of the channel; settings come live. -/
inductive Delivery.Concerns (e : Event) (settings : List Event) : Delivery → Prop
  | live (now : Int) : Concerns e settings (.live e now)
  | backfill (roomID channelID : String) (now : Int) : Concerns e settings (.backfill roomID channelID e now)
  | settings {s : Event} (hs : s ∈ settings) (now : Int) : Concerns e settings (.live s now)

theorem samePost_self (e : Event) : SamePost e.projection.post e.projection.post := ⟨rfl, rfl, rfl, rfl, rfl⟩

theorem samePost_backfilled (roomID channelID : String) (e : Event) :
    SamePost e.projection.post (backfilled roomID channelID e).projection.post where
  postID := by
    have hid := string_backfilled roomID channelID e (k := "post_id") (by decide)
    simp only [Event.projection, ProjectionEvent.post, hid]
    rfl
  eventID := rfl
  visibility := by
    have hvisibility := string_backfilled roomID channelID e (k := "visibility") (by decide)
    simp only [Event.projection, ProjectionEvent.post, hvisibility]
  commentsEnabled := by
    have hcomments := content_backfilled roomID channelID e (k := "comments_enabled") (by decide)
    simp only [Event.projection, ProjectionEvent.post, Params.boolOr, hcomments]
  settingsUpdated := rfl

def Delivery.settings : Delivery → Option PostSettings
  | .live e _ => if e.type = .channelPostSettings then e.projection.settings else none
  | _ => none

def Delivery.isMessage : Delivery → Bool
  | .live e _ | .backfill _ _ e _ => e.type = .roomMessage
  | .redacted _ => false

variable {agentRoomID : String} {e : Event}

theorem Settled.deliver {settings : List Event} (hpost : PostEvent agentRoomID e)
    (hsettings : ∀ s ∈ settings, ∃ r, SettingsEvent e s r) {posted : Bool}
    (h : Settled e.projection.post seen posted t) {d : Delivery} (hd : d.Concerns e settings) :
    Settled e.projection.post (seen ++ d.settings.toList) (posted || d.isMessage) (d.apply agentRoomID t) := by
  cases hd with
  | live now =>
    have hinsert := h.insert (samePost_self e)
    have hnone : (Delivery.live e now).settings = none := by simp [Delivery.settings, hpost.message]
    have hmessage : (Delivery.live e now).isMessage = true := by simp [Delivery.isMessage, hpost.message]
    have happly : (Delivery.live e now).apply agentRoomID t = t.insertChannelPost e.projection.post := by
      simp [Delivery.apply, projectRoomEvent, hpost.message, hpost.room, projectChannelMessage_post hpost.kind]
    rw [hnone, hmessage, happly, Bool.or_true]
    simpa using hinsert
  | backfill roomID channelID now =>
    have hkind : (backfilled roomID channelID e).content.string "p2p_kind" = "channel_post" := by
      rw [string_backfilled roomID channelID e (by decide), hpost.kind]
    have hinsert := h.insert (samePost_backfilled roomID channelID e)
    have hmessage : (Delivery.backfill roomID channelID e now).isMessage = true := by simp [Delivery.isMessage, hpost.message]
    have happly : (Delivery.backfill roomID channelID e now).apply agentRoomID t =
        t.insertChannelPost (backfilled roomID channelID e).projection.post := by
      simp [Delivery.apply, backfillEvent, hpost.message, projectChannelMessage_post hkind]
    rw [hmessage, happly, Bool.or_true]
    simpa [Delivery.settings] using hinsert
  | @settings s hs now =>
    obtain ⟨r, hr⟩ := hsettings s hs
    have hsome : (Delivery.live s now).settings = some r := by simp [Delivery.settings, hr.state, hr.carries]
    have hmessage : (Delivery.live s now).isMessage = false := by simp [Delivery.isMessage, hr.state]
    have happly : (Delivery.live s now).apply agentRoomID t = t.applyChannelPostSettings r := by
      simp [Delivery.apply, projectRoomEvent, hr.state, hr.key, projectPostSettings, hr.carries]
    rw [hsome, hmessage, happly, Bool.or_false]
    exact h.apply (settings_spec hr.carries).1 hr.post hr.ofEvent

theorem Settled.run {settings : List Event} (hpost : PostEvent agentRoomID e)
    (hsettings : ∀ s ∈ settings, ∃ r, SettingsEvent e s r) (deliveries : List Delivery)
    (hconcern : ∀ d ∈ deliveries, d.Concerns e settings) {posted : Bool}
    (h : Settled e.projection.post seen posted t) :
    Settled e.projection.post (seen ++ deliveries.filterMap Delivery.settings) (posted || deliveries.any Delivery.isMessage)
      (Content.deliver agentRoomID deliveries t) := by
  induction deliveries generalizing seen posted t with
  | nil => simpa [Content.deliver] using h
  | cons d rest ih =>
    have hstep := h.deliver hpost hsettings (hconcern d (by simp))
    have hrest := ih (fun d' hd' => hconcern d' (by simp [hd'])) hstep
    rw [append_assoc, Bool.or_assoc] at hrest
    cases hd : d.settings <;> simpa [Content.deliver, hd] using hrest

theorem settled_start (hpost : t.posts.find own.postID = none)
    (hsettings : t.settings.find own.postID = none) : Settled own [] false t where
  register := by rw [hsettings]; rfl
  ofEvent := by simp [hsettings]
  row := by simp [hpost]
  stored := by simp [hpost]

structure Delivered (e : Event) (settings : List Event) (deliveries : List Delivery) : Prop where
  only : ∀ d ∈ deliveries, d.Concerns e settings
  post : (∃ now, .live e now ∈ deliveries) ∨ ∃ roomID channelID now, .backfill roomID channelID e now ∈ deliveries
  settings : ∀ s ∈ settings, ∃ now, .live s now ∈ deliveries

theorem Delivered.posted {settings : List Event} {deliveries : List Delivery}
    (h : Delivered e settings deliveries) (hpost : PostEvent agentRoomID e) : deliveries.any Delivery.isMessage = true := by
  rw [any_eq_true]
  obtain ⟨now, hd⟩ | ⟨roomID, channelID, now, hd⟩ := h.post
  · exact ⟨_, hd, by simp [Delivery.isMessage, hpost.message]⟩
  · exact ⟨_, hd, by simp [Delivery.isMessage, hpost.message]⟩

theorem Delivered.mem_settings {settings : List Event} {deliveries : List Delivery}
    (h : Delivered e settings deliveries) (hpost : PostEvent agentRoomID e) {r : PostSettings} :
    r ∈ deliveries.filterMap Delivery.settings ↔
      ∃ s ∈ settings, s.type = .channelPostSettings ∧ s.projection.settings = some r := by
  rw [mem_filterMap]
  constructor
  · rintro ⟨d, hd, hr⟩
    cases h.only d hd with
    | live now => simp [Delivery.settings, hpost.message] at hr
    | backfill => cases hr
    | @settings s hs now =>
      by_cases htype : s.type = .channelPostSettings
      · exact ⟨s, hs, htype, by simpa [Delivery.settings, htype] using hr⟩
      · simp [Delivery.settings, htype] at hr
  · rintro ⟨s, hs, htype, hr⟩
    obtain ⟨now, hd⟩ := h.settings s hs
    exact ⟨_, hd, by simp [Delivery.settings, htype, hr]⟩

namespace Sample

def message (eventID sender : String) (fields : List (String × Value)) : Event where
  type := .roomMessage
  roomID := "!room"
  eventID := eventID
  stateKey := none
  sender := sender
  originServerTS := 1
  content k := fields.lookup k

def post : Event :=
  message "$post" "@alice" [("p2p_kind", .string "channel_post"), ("post_id", .string "p1"), ("body", .string "hello")]

def settings (ts : Int) (visibility : String) (commentsEnabled : Bool) : Event where
  type := .channelPostSettings
  roomID := "!room"
  eventID := "$settings"
  stateKey := some "p1"
  sender := "@alice"
  originServerTS := ts
  content k := [("post_event_id", Value.string "$post"), ("visibility", .string visibility),
    ("comments_enabled", .bool commentsEnabled)].lookup k

theorem post_isPost : PostEvent "!agent" post := ⟨rfl, by decide, by decide⟩

theorem opened_settings : SettingsEvent post (settings 5 "public" true) ⟨"p1", "", "!room", "$post", .public, true, 5⟩ :=
  ⟨rfl, rfl, by decide, by decide, rfl⟩

theorem closed_settings : SettingsEvent post (settings 7 "private" false) ⟨"p1", "", "!room", "$post", .private, false, 7⟩ :=
  ⟨rfl, rfl, by decide, by decide, rfl⟩

end Sample

end Dirextalk.Content

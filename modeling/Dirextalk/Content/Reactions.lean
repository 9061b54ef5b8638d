/-
  Dirextalk.Content.Reactions — when the reactions of one user to one target converge
  (`reactions_converge_iff`).

  The row of a reaction is overwritten by whatever event comes last, and a redaction only
  finds the event the row came from: an order ends with the flag of its last event, or
  inactive if that event was redacted afterwards.
-/
import Dirextalk.Content.Settings

namespace Dirextalk.Content

open Lib Lib.Go Dirextalk.Action List Delivery

variable {b : Backend}

def Event.active (e : Event) : Bool := e.content.boolOr "active" true

structure ReactionEvent (id : ReactionID) (e : Event) : Prop where
  type : e.type = .reaction
  targetType : e.projection.namedTarget.type = id.targetType
  targetID : e.projection.namedTarget.id = id.targetID
  named : id.targetID ≠ ""
  reaction : e.projection.reactionName = id.reaction
  sender : e.sender = id.userID
  eventID : blank e.eventID = false

/-! ## One delivery -/

structure RowOf (id : ReactionID) (e : Event) (r : Reaction) : Prop where
  id : r.id = id
  eventID : r.eventID = e.eventID
  active : r.active = e.active

variable {id : ReactionID} {e : Event}

theorem projectReaction_row (h : ReactionEvent id e) (now : Int) (t : Tables b) :
    ∃ r, projectReaction e.projection now t = t.upsertReaction r ∧ RowOf id e r := by
  have hid : e.projection.namedTarget.id ≠ "" := by
    rw [h.targetID]
    exact h.named
  have htarget : t.reactionTarget e.projection = e.projection.namedTarget := by rw [Tables.reactionTarget, if_pos hid]
  refine ⟨e.projection.reaction e.projection.namedTarget now, ?_, ?_, rfl, rfl⟩
  · simp only [projectReaction, htarget, if_neg hid]
  · simp [Reaction.id, ProjectionEvent.reaction, h.targetType, h.targetID, h.reaction]
    simpa [Event.projection] using congrArg _ h.sender

section

variable (roomID channelID : String) (e : Event)

theorem namedTarget_backfilled :
    (backfilled roomID channelID e).projection.namedTarget.type = e.projection.namedTarget.type ∧
      (backfilled roomID channelID e).projection.namedTarget.id = e.projection.namedTarget.id := by
  have hpost := string_backfilled roomID channelID e (k := "post_id") (by decide)
  have hcomment := string_backfilled roomID channelID e (k := "comment_id") (by decide)
  simp only [ProjectionEvent.namedTarget, Event.projection, hpost, hcomment]
  by_cases hnamed : e.content.string "comment_id" = "" <;> simp [hnamed]

theorem reactionName_backfilled :
    (backfilled roomID channelID e).projection.reactionName = e.projection.reactionName := by
  have hreaction := string_backfilled roomID channelID e (k := "reaction") (by decide)
  have hrelates := content_backfilled roomID channelID e (k := "m.relates_to") (by decide)
  simp only [ProjectionEvent.reactionName, Event.projection, Params.object, hreaction, hrelates]

end

theorem ReactionEvent.backfilled (h : ReactionEvent id e) (roomID channelID : String) :
    ReactionEvent id (backfilled roomID channelID e) where
  type := h.type
  targetType := by rw [(namedTarget_backfilled roomID channelID e).1, h.targetType]
  targetID := by rw [(namedTarget_backfilled roomID channelID e).2, h.targetID]
  named := h.named
  reaction := by rw [reactionName_backfilled, h.reaction]
  sender := h.sender
  eventID := h.eventID

inductive Delivery.Brings (e : Event) : Delivery → Prop
  | live (now : Int) : Brings e (.live e now)
  | backfill (roomID channelID : String) (now : Int) : Brings e (.backfill roomID channelID e now)

theorem Delivery.Brings.upserts (h : ReactionEvent id e) {d : Delivery} (hd : d.Brings e)
    (agentRoomID : String) (t : Tables b) : ∃ r, (d.apply agentRoomID t).reactions = t.reactions.put r ∧ RowOf id e r := by
  cases hd with
  | live now =>
    obtain ⟨r, hr, hrow⟩ := projectReaction_row h now t
    refine ⟨r, ?_, hrow⟩
    simp only [apply, projectRoomEvent, h.type, hr]
    rfl
  | backfill roomID channelID now =>
    obtain ⟨r, hr, hrow⟩ := projectReaction_row (h.backfilled roomID channelID) now t
    refine ⟨r, ?_, hrow.id, hrow.eventID, ?_⟩
    · simp only [apply, backfillEvent, h.type, hr]
      rfl
    · rw [hrow.active]
      simp only [Event.active, Params.boolOr, content_backfilled roomID channelID e (k := "active") (by decide)]

theorem redacted_reactions (hid : blank eventID = false) (agentRoomID : String) (t : Tables b)
    (hothers : ∀ r ∈ t.reactions.others k, r.eventID ≠ eventID) :
    ((redacted eventID).apply agentRoomID t).reactions.others k = t.reactions.others k ∧
      ((redacted eventID).apply agentRoomID t).reactions.find k =
        (t.reactions.find k).map fun r => if r.eventID = eventID && r.active then r.deactivated else r := by
  have hnone : ∀ r ∈ t.reactions.others k, (r.eventID = eventID && r.active) = false := by
    intro r hr
    simp [hothers r hr]
  simp only [apply, removeProjectedEvent, hid, Bool.false_eq_true, if_false]
  cases b with
  | postgres =>
    simp only [Tables.deactivateReactionByEventID, hid, Bool.false_eq_true, if_false, Tables.deleteChannelComment,
      Tables.deleteChannelPost, Rows.find_modify, and_true]
    exact Rows.others_modify _ _ _ _ k hnone
  | memory order =>
    simp only [Tables.deactivateReactionByEventID, Tables.deleteChannelComment, Tables.deleteChannelPost]
    -- a row that matches is the row of the key
    have hkey : ∀ r ∈ t.reactions.rows, (r.eventID = eventID && r.active) = true → (Backend.memory order).reactionKey r = k := by
      intro r hr hmatch
      by_contra hne
      have hother : r ∈ t.reactions.others k := mem_filter.mpr ⟨hr, by simpa using hne⟩
      rw [hnone r hother] at hmatch
      exact Bool.false_ne_true hmatch
    cases hfirst : order.first (t.reactions.rows.filter fun r => r.eventID = eventID && r.active) with
    | none =>
      refine ⟨rfl, ?_⟩
      cases hrow : t.reactions.find k with
      | none => rfl
      | some r =>
        have hr := filter_eq_nil_iff.mp (order.nil _ hfirst) r (t.reactions.find_eq_some.mp hrow).1
        rw [Option.map_some, if_neg hr]
    | some r =>
      obtain ⟨hmem, hmatch⟩ := mem_filter.mp (order.mem _ r hfirst)
      have hr := hkey r hmem hmatch
      have hrow := t.reactions.find_eq_some.mpr ⟨hmem, hr⟩
      constructor
      · rw [← hr, ← reactionKey_deactivated, Rows.others_put]
      · rw [Rows.find_put, if_pos (by rw [reactionKey_deactivated, hr]), hrow, Option.map_some, if_pos hmatch]

/-! ## A whole delivery -/

/-- The newest of some events; of two at one time, the one that stands first. -/
def newest : List Event → Option Event
  | [] => none
  | e :: es =>
    match newest es with
    | some later => if e.originServerTS < later.originServerTS then some later else some e
    | none => some e

/-- What a user last said: the flag of their newest event that was not redacted. -/
def latestActive (events : List Event) (redacted : List String) : Bool :=
  match newest (events.filter fun e => e.eventID ∉ redacted) with
  | some e => e.active
  | none => false

structure ReactionsDelivered (events : List Event) (redacted : List String) (deliveries : List Delivery) : Prop where
  only : ∀ d ∈ deliveries, (∃ e ∈ events, d.Brings e) ∨ ∃ eventID ∈ redacted, d = .redacted eventID
  events : ∀ e ∈ events, ∃ d ∈ deliveries, d.Brings e
  redacted : ∀ eventID ∈ redacted, .redacted eventID ∈ deliveries

def EndsWith (id : ReactionID) (t t' : Tables b) (active : Bool) : Prop :=
  ∃ r, t'.reactions.find (b.key id) = some r ∧ r.active = active ∧
    t'.countActiveReactions id.targetType id.targetID id.reaction =
      t.countActiveReactions id.targetType id.targetID id.reaction + (if active then 1 else 0)

structure Reacting (id : ReactionID) (others : List Reaction) (t : Tables b) : Prop where
  others : t.reactions.others (b.key id) = others
  row : ∀ r, t.reactions.find (b.key id) = some r → r.id = id

theorem RowOf.key (h : RowOf id e r) : b.reactionKey r = b.key id := by
  rw [Backend.reactionKey, h.id]

section Deliveries

variable {id : ReactionID} {events : List Event} {others : List Reaction} (agentRoomID : String)

variable {e : Event} {t : Tables b}

theorem Reacting.brings (he : ReactionEvent id e) {d : Delivery} (hd : d.Brings e)
    (h : Reacting id others t) :
    Reacting id others (d.apply agentRoomID t) ∧
      ∃ r, (d.apply agentRoomID t).reactions.find (b.key id) = some r ∧ RowOf id e r := by
  obtain ⟨r, hput, hrow⟩ := hd.upserts he agentRoomID t
  have hfind : (d.apply agentRoomID t).reactions.find (b.key id) = some r := by rw [hput, Rows.find_put, if_pos hrow.key]
  refine ⟨⟨?_, ?_⟩, r, hfind, hrow⟩
  · rw [hput, ← hrow.key, Rows.others_put, hrow.key, h.others]
  · intro r' hr'
    rw [hfind] at hr'
    cases hr'
    exact hrow.id

theorem Reacting.redacted (hid : blank eventID = false) (hothers : ∀ r ∈ others, r.eventID ≠ eventID)
    (h : Reacting id others t) :
    Reacting id others ((redacted eventID).apply agentRoomID t) ∧
      ((redacted eventID).apply agentRoomID t).reactions.find (b.key id) =
        (t.reactions.find (b.key id)).map fun r => if r.eventID = eventID && r.active then r.deactivated else r := by
  obtain ⟨hrest, hrow⟩ := redacted_reactions hid (k := b.key id) agentRoomID t (by rw [h.others]; exact hothers)
  refine ⟨⟨by rw [hrest, h.others], ?_⟩, hrow⟩
  intro r hr
  rw [hrow, Option.map_eq_some_iff] at hr
  obtain ⟨r', hr', rfl⟩ := hr
  rw [← h.row r' hr']
  split <;> rfl

theorem Reacting.count (h : Reacting id others t) : t.countActiveReactions id.targetType id.targetID id.reaction =
      others.countP (fun r => r.targetType = id.targetType && r.targetID = id.targetID && r.reaction = id.reaction && r.active) +
        (t.reactions.find (b.key id)).toList.countP Reaction.active := by
  rw [Tables.countActiveReactions, Rows.count_eq _ _ (b.key id), h.others]
  congr 1
  cases hrow : t.reactions.find (b.key id) with
  | none => rfl
  | some r =>
    have hid := h.row r hrow
    have htype : r.targetType = id.targetType := congrArg ReactionID.targetType hid
    have htarget : r.targetID = id.targetID := congrArg ReactionID.targetID hid
    have hreaction : r.reaction = id.reaction := congrArg ReactionID.reaction hid
    simp [htype, htarget, hreaction]

section

variable {redacted : List String} {deliveries : List Delivery} (hevents : ∀ e ∈ events, ReactionEvent id e)
  (hredacted : ∀ i ∈ redacted, ∃ e ∈ events, e.eventID = i) (hothers : ∀ r ∈ others, ∀ e ∈ events, r.eventID ≠ e.eventID)
  (honly : ∀ d ∈ deliveries, (∃ e ∈ events, d.Brings e) ∨ ∃ i ∈ redacted, d = .redacted i)
include hevents hredacted hothers honly

/-- What deliveries of the events and redactions keep, with what each of them makes true of the row. -/
theorem Reacting.keeps {P : Option Reaction → Prop} (hbrings : ∀ e ∈ events, ∀ r, RowOf id e r → P (some r))
    (hredacts : ∀ i ∈ redacted,
      ∀ o : Option Reaction, P o → P (o.map fun r => if r.eventID = i && r.active then r.deactivated else r))
    (h : Reacting id others t) (hrow : P (t.reactions.find (b.key id))) :
    Reacting id others (deliver agentRoomID deliveries t) ∧ P ((deliver agentRoomID deliveries t).reactions.find (b.key id)) := by
  apply deliver_invariant (I := fun t => Reacting id others t ∧ P (t.reactions.find (b.key id))) _ ⟨h, hrow⟩
  rintro d hd t' ⟨ht', hrow'⟩
  obtain ⟨e, he, hd⟩ | ⟨i, hi, rfl⟩ := honly d hd
  · obtain ⟨hnext, r, hr, hof⟩ := ht'.brings agentRoomID (hevents e he) hd
    exact ⟨hnext, hr ▸ hbrings e he r hof⟩
  · obtain ⟨e, he, rfl⟩ := hredacted i hi
    obtain ⟨hnext, hfind⟩ := ht'.redacted agentRoomID (hevents e he).eventID (fun r hr => hothers r hr e he)
    exact ⟨hnext, hfind ▸ hredacts _ hi _ hrow'⟩

theorem Reacting.run (h : Reacting id others t) : Reacting id others (deliver agentRoomID deliveries t) :=
  (h.keeps (P := fun _ => True) agentRoomID hevents hredacted hothers honly (fun _ _ _ _ => trivial)
    (fun _ _ _ _ => trivial) trivial).1

/-- When all events carry one flag, and an inactive one if any of them is redacted, the row has it. -/
theorem Reacting.flag {v : Bool} (hflag : ∀ e ∈ events, e.active = v) (hv : redacted ≠ [] → v = false)
    (h : Reacting id others t) (hrow : ∀ r, t.reactions.find (b.key id) = some r → r.active = v) :
    ∀ r, (deliver agentRoomID deliveries t).reactions.find (b.key id) = some r → r.active = v := by
  refine (h.keeps (P := fun o => ∀ r, o = some r → r.active = v) agentRoomID hevents hredacted hothers honly ?_ ?_ hrow).2
  · rintro e he r hof _ ⟨⟩
    rw [hof.active, hflag e he]
  · intro i hi o ho r' hr'
    obtain ⟨r, hr, rfl⟩ := Option.map_eq_some_iff.mp hr'
    split
    · exact (hv (ne_nil_of_mem hi)).symm
    · exact ho r hr

end

/-- Redactions leave a row of its event, and inactive if it was or its event is among them. -/
theorem Reacting.redactAll {redacted : List String} (hids : ∀ i ∈ redacted, blank i = false)
    (hothers : ∀ r ∈ others, ∀ i ∈ redacted, r.eventID ≠ i) (h : Reacting id others t) {r : Reaction}
    (hrow : t.reactions.find (b.key id) = some r) :
    ∃ r', (deliver agentRoomID (redacted.map .redacted) t).reactions.find (b.key id) = some r' ∧ r'.eventID = r.eventID ∧
      (r.active = false ∨ r.eventID ∈ redacted → r'.active = false) := by
  induction redacted generalizing t r with
  | nil => exact ⟨r, hrow, rfl, by simp⟩
  | cons i rest ih =>
    obtain ⟨hnext, hfind⟩ := h.redacted agentRoomID (hids i (by simp)) (fun r hr => hothers r hr i (by simp))
    rw [hrow, Option.map_some] at hfind
    obtain ⟨r', hr', hevent, hactive⟩ :=
      ih (fun j hj => hids j (by simp [hj])) (fun r hr j hj => hothers r hr j (by simp [hj])) hnext hfind
    have hkept : (if r.eventID = i && r.active then r.deactivated else r).eventID = r.eventID := by split <;> rfl
    rw [hkept] at hevent hactive
    refine ⟨r', hr', hevent, fun hcase => hactive ?_⟩
    by_cases hmatch : (r.eventID = i && r.active) = true
    · left
      rw [if_pos hmatch]
      rfl
    · rw [if_neg hmatch]
      obtain hinactive | hmem := hcase
      · exact .inl hinactive
      · obtain heq | hrest := mem_cons.mp hmem
        · left
          simpa [heq] using hmatch
        · exact .inr hrest

/-- All events first, the given one last among them, then all redactions. -/
theorem reactionsDelivered_redactedLast (redacted : List String) (he : e ∈ events) :
    ReactionsDelivered events redacted (events.map (.live · 0) ++ [.live e 0] ++ redacted.map .redacted) where
  only := by
    intro d hd
    simp only [mem_append, mem_map, mem_singleton] at hd
    rcases hd with (⟨e', he', rfl⟩ | rfl) | ⟨i, hi, rfl⟩
    · exact .inl ⟨e', he', .live 0⟩
    · exact .inl ⟨e, he, .live 0⟩
    · exact .inr ⟨i, hi, rfl⟩
  events := fun e' he' => ⟨.live e' 0, by simp [he'], .live 0⟩
  redacted := fun i hi => by simp [hi]

/-- All redactions first, the given event at the end. -/
theorem reactionsDelivered_redactedFirst (redacted : List String) (he : e ∈ events) :
    ReactionsDelivered events redacted (redacted.map .redacted ++ events.map (.live · 0) ++ [.live e 0]) := by
  obtain ⟨honly, hevents, hredacted⟩ := reactionsDelivered_redactedLast redacted he
  have hmem : ∀ d, d ∈ redacted.map Delivery.redacted ++ events.map (.live · 0) ++ [.live e 0] ↔
      d ∈ events.map (live · 0) ++ [.live e 0] ++ redacted.map .redacted := by
    intro d
    simp only [mem_append]
    tauto
  exact ⟨by simpa only [hmem] using honly, by simpa only [hmem] using hevents, by simpa only [hmem] using hredacted⟩

/-- A row, once there is one, stays. -/
theorem Reacting.stored {redacted : List String} (hevents : ∀ e ∈ events, ReactionEvent id e)
    (hredacted : ∀ i ∈ redacted, ∃ e ∈ events, e.eventID = i) (hothers : ∀ r ∈ others, ∀ e ∈ events, r.eventID ≠ e.eventID)
    {deliveries : List Delivery} (honly : ∀ d ∈ deliveries, (∃ e ∈ events, d.Brings e) ∨ ∃ i ∈ redacted, d = .redacted i)
    {d : Delivery} (hd : d ∈ deliveries) {e : Event} (he : e ∈ events) (hbrings : d.Brings e)
    {t : Tables b} (h : Reacting id others t) : ((deliver agentRoomID deliveries t).reactions.find (b.key id)).isSome := by
  obtain ⟨before, after, rfl⟩ := append_of_mem hd
  have hbefore := h.run agentRoomID hevents hredacted hothers (fun d' hd' => honly d' (mem_append_left _ hd'))
  obtain ⟨hnext, r, hr, -⟩ := hbefore.brings agentRoomID (hevents e he) hbrings
  rw [deliver_append]
  refine (hnext.keeps (P := fun o => o.isSome) agentRoomID hevents hredacted hothers
    (fun d' hd' => honly d' (mem_append_right _ (mem_cons_of_mem _ hd'))) (fun _ _ _ _ => rfl) (fun _ _ o ho => ?_)
      (by simp [hr])).2
  rwa [Option.isSome_map]

end Deliveries

/-- The reactions of one user to one target converge to the flag of the newest event that was not redacted exactly
when all carry that flag and, if any is redacted, it is the inactive one. -/
theorem reactions_converge_iff (agentRoomID : String) (t : Tables b) (id : ReactionID) (events : List Event)
    (redacted : List String) (hevents : ∀ e ∈ events, ReactionEvent id e) (hsome : events ≠ [])
    (hredacted : ∀ i ∈ redacted, ∃ e ∈ events, e.eventID = i)
    (hfresh : t.reactions.find (b.key id) = none) (hids : ∀ r ∈ t.reactions.rows, ∀ e ∈ events, r.eventID ≠ e.eventID) :
    (∀ deliveries, ReactionsDelivered events redacted deliveries →
        EndsWith id t (deliver agentRoomID deliveries t) (latestActive events redacted)) ↔
      (∀ e ∈ events, e.active = latestActive events redacted) ∧ (redacted ≠ [] → latestActive events redacted = false) := by
  have hothers : ∀ r ∈ t.reactions.others (b.key id), ∀ e ∈ events, r.eventID ≠ e.eventID :=
    fun r hr => hids r (mem_of_mem_filter hr)
  have hstart : Reacting id (t.reactions.others (b.key id)) t := ⟨rfl, by simp [hfresh]⟩
  constructor
  · intro hconverges
    constructor
    · intro e he
      -- an order that ends with this event
      have hdelivered := reactionsDelivered_redactedFirst redacted he
      obtain ⟨r, hr, hactive, -⟩ := hconverges _ hdelivered
      have hbefore : Reacting id (t.reactions.others (b.key id))
          (deliver agentRoomID (redacted.map .redacted ++ events.map (.live · 0)) t) :=
        hstart.run agentRoomID hevents hredacted hothers (fun d hd => hdelivered.only d (mem_append_left _ hd))
      obtain ⟨-, r', hr', hof⟩ := hbefore.brings agentRoomID (hevents e he) (.live 0)
      rw [deliver_append] at hr
      rw [show deliver agentRoomID [live e 0] _ = (live e 0).apply agentRoomID _ from rfl, hr'] at hr
      cases hr
      rw [← hactive, hof.active]
    · intro hne
      -- an order that redacts the event it ended with
      obtain ⟨i, hi⟩ := exists_mem_of_ne_nil redacted hne
      obtain ⟨e, he, rfl⟩ := hredacted i hi
      have hdelivered := reactionsDelivered_redactedLast redacted he
      obtain ⟨r, hr, hactive, -⟩ := hconverges _ hdelivered
      have hbefore : Reacting id (t.reactions.others (b.key id)) (deliver agentRoomID (events.map (.live · 0)) t) :=
        hstart.run agentRoomID hevents hredacted hothers
          (fun d hd => hdelivered.only d (mem_append_left _ (mem_append_left _ hd)))
      obtain ⟨hnext, r', hr', hof⟩ := hbefore.brings agentRoomID (hevents e he) (.live 0)
      have hblank : ∀ j ∈ redacted, blank j = false := by
        intro j hj
        obtain ⟨e', he', rfl⟩ := hredacted j hj
        exact (hevents e' he').eventID
      have hforeign : ∀ r ∈ t.reactions.others (b.key id), ∀ j ∈ redacted, r.eventID ≠ j := by
        intro r hr j hj
        obtain ⟨e', he', rfl⟩ := hredacted j hj
        exact hothers r hr e' he'
      obtain ⟨r'', hr'', -, hinactive⟩ := hnext.redactAll agentRoomID hblank hforeign hr'
      rw [deliver_append, deliver_append] at hr
      rw [show deliver agentRoomID [live e 0] _ = (live e 0).apply agentRoomID _ from rfl, hr''] at hr
      cases hr
      rw [← hactive]
      exact hinactive (.inr (by rw [hof.eventID]; exact hi))
  · rintro ⟨hflag, hv⟩ deliveries hdelivered
    obtain ⟨e, he⟩ := exists_mem_of_ne_nil events hsome
    obtain ⟨d, hd, hbrings⟩ := hdelivered.events e he
    have hend := hstart.run agentRoomID hevents hredacted hothers hdelivered.only
    obtain ⟨r, hr⟩ := Option.isSome_iff_exists.mp
      (hstart.stored agentRoomID hevents hredacted hothers hdelivered.only hd he hbrings)
    have hactive := hstart.flag agentRoomID hevents hredacted hothers hdelivered.only hflag hv (by simp [hfresh]) r hr
    rw [← hactive]
    refine ⟨r, hr, rfl, ?_⟩
    rw [hend.count, hstart.count, hfresh, hr]
    cases hactive : r.active <;> simp [hactive]

namespace Sample

def like : ReactionID := ⟨.post, "p1", "like", "@bob"⟩

def reaction (eventID : String) (ts : Int) (active : Bool) : Event where
  type := .reaction
  roomID := "!room"
  eventID := eventID
  stateKey := none
  sender := "@bob"
  originServerTS := ts
  content k := [("post_id", Value.string "p1"), ("reaction", .string "like"), ("active", .bool active)].lookup k

theorem on_isReaction : ReactionEvent like (reaction "$on" 1 true) :=
  ⟨rfl, by decide, by decide, by decide, by decide, rfl, by decide⟩

end Sample

open Sample in
/-- A user reacts twice; the events come the other way round, and one of them is replayed from the history. -/
theorem reactions_converge_reordered : EndsWith like (Tables.empty (.memory .head))
      (deliver "!agent" [.live (reaction "$again" 2 true) 0, .live (reaction "$on" 1 true) 0,
        .backfill "!room" "c1" (reaction "$again" 2 true) 0] (Tables.empty (.memory .head))) true := by
  have hagain : ReactionEvent like (reaction "$again" 2 true) :=
    ⟨rfl, by decide, by decide, by decide, by decide, rfl, by decide⟩
  refine (reactions_converge_iff "!agent" (.empty (.memory .head)) like [reaction "$on" 1 true, reaction "$again" 2 true] []
    (by simpa using ⟨on_isReaction, hagain⟩) (by simp) (by simp) rfl (fun r hr => absurd hr not_mem_nil) |>.mpr
      ⟨by decide, by simp⟩) _ ⟨?_, ?_, by simp⟩
  · simp only [forall_mem_cons]
    exact ⟨.inl ⟨_, .tail _ (.head _), .live 0⟩, .inl ⟨_, .head _, .live 0⟩,
      .inl ⟨_, .tail _ (.head _), .backfill _ _ 0⟩, by simp⟩
  · simp only [forall_mem_cons]
    exact ⟨⟨_, .tail _ (.head _), .live 0⟩, ⟨_, .head _, .live 0⟩, by simp⟩

open Sample in
/-- The user took the reaction back, and the history of the channel replays the event before: it is active again. -/
theorem replay_reactivates :
    (ReactionEvent like (reaction "$on" 1 true) ∧ ReactionEvent like (reaction "$off" 2 false)) ∧
      ReactionsDelivered [reaction "$on" 1 true, reaction "$off" 2 false] []
        [.live (reaction "$on" 1 true) 0, .live (reaction "$off" 2 false) 0, .backfill "!room" "c1" (reaction "$on" 1 true) 0] ∧
      latestActive [reaction "$on" 1 true, reaction "$off" 2 false] [] = false ∧
      ((deliver "!agent" [.live (reaction "$on" 1 true) 0, .live (reaction "$off" 2 false) 0,
        .backfill "!room" "c1" (reaction "$on" 1 true) 0] (Tables.empty .postgres)).reactions.find
          (Backend.postgres.key like)).map Reaction.active = some true := by
  refine ⟨⟨on_isReaction, rfl, by decide, by decide, by decide, by decide, rfl, by decide⟩, ⟨?_, ?_, by simp⟩, by decide,
    by decide⟩
  · simp only [forall_mem_cons]
    exact ⟨.inl ⟨_, .head _, .live 0⟩, .inl ⟨_, .tail _ (.head _), .live 0⟩, .inl ⟨_, .head _, .backfill _ _ 0⟩, by simp⟩
  · simp only [forall_mem_cons]
    exact ⟨⟨_, .head _, .live 0⟩, ⟨_, .tail _ (.head _), .live 0⟩, by simp⟩

end Dirextalk.Content

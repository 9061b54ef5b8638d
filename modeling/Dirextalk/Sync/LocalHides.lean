/-
  Dirextalk.Sync.LocalHides — what users delete for themselves
  (`syncapi/storage/shared/local_event_hides.go`,
  `syncapi/storage/postgres/local_event_hides_table.go`, `syncapi/routing/local_delete.go`).

  A user hides single events, or clears a room up to a position of the stream, which is read
  first and then stored over the one before it. Events are written and rooms purged. What
  reads have left out, until its room is purged, is ghost state (`filtered`).

  It should stay left out. It does not (`cleared_reappears`): of two clears the one that read
  first may be stored last. An event that is not in the table counts as one of position zero,
  so it also comes back when it is written. It stays in runs without either
  (`local_deletes_stay`).
-/
import Dirextalk.Lib.Rows
import Dirextalk.Lib.Run

namespace Dirextalk.Sync.LocalHides

open Lib List

structure Event where
  eventID : String
  roomID : String

structure StreamEvent extends Event where
  streamPosition : Nat

structure State where
  outputEvents : Rows fun e : StreamEvent => e.eventID
  /-- The last position given. -/
  sequence : Nat
  /-- By user, room and event. -/
  hides : List (String × String × String)
  /-- `through_stream_pos` by user and room; zero without a row. -/
  clears : String → String → Nat
  /-- The positions that clears have read. -/
  reading : List (String × String × Nat)
  filtered : List (String × String × String)

inductive Ev where
  | write (e : Event)
  | hide (userID roomID : String) (eventIDs : List String)
  | readPosition (userID roomID : String)
  | clear (userID roomID : String) (pos : Nat)
  | read (userID roomID : String) (events : List Event)
  | purge (roomID : String)

def Ev.user : Ev → Option String
  | .hide userID _ _ | .readPosition userID _ | .clear userID _ _ | .read userID _ _ => some userID
  | .write _ | .purge _ => none

namespace State

variable (s : State)

/-- `IsHidden`, for the state that `SelectLocalEventHideState` returns. -/
def isHidden (userID roomID eventID : String) (pos : Nat) : Prop :=
  (userID, roomID, eventID) ∈ s.hides ∨ 0 < s.clears userID roomID ∧ pos ≤ s.clears userID roomID

instance (userID roomID eventID : String) (pos : Nat) : Decidable (s.isHidden userID roomID eventID pos) :=
  inferInstanceAs (Decidable (_ ∨ _))

def eventRoom (roomID : String) (e : Event) : String := if roomID = "" then e.roomID else roomID

def hidden (userID roomID : String) (events : List StreamEvent) : List StreamEvent :=
  events.filter fun e => userID ≠ "" ∧ eventRoom roomID e.toEvent ≠ "" ∧
    s.isHidden userID (eventRoom roomID e.toEvent) e.eventID e.streamPosition

def filterLocalHiddenStreamEvents (userID roomID : String) (events : List StreamEvent) : List StreamEvent :=
  events.filter (·.eventID ∉ (s.hidden userID roomID events).map (·.eventID))

/-- Events as the table has them; others are at position zero. -/
def streamEvents (events : List Event) : List StreamEvent := events.map fun e => (s.outputEvents.find e.eventID).getD ⟨e, 0⟩

def filterLocalHiddenEvents (userID roomID : String) (events : List Event) : List Event :=
  (s.filterLocalHiddenStreamEvents userID roomID (s.streamEvents events)).map (·.toEvent)

def maxStreamPosition : Nat := (s.outputEvents.rows.map (·.streamPosition)).foldr max 0

@[simp] def after : Ev → State
  | .write e =>
    { s with
      outputEvents := if (s.outputEvents.find e.eventID).isSome then s.outputEvents else s.outputEvents.put ⟨e, s.sequence + 1⟩
      sequence := s.sequence + 1 }
  | .hide userID roomID eventIDs => { s with hides := eventIDs.map (userID, roomID, ·) ++ s.hides }
  | .readPosition userID roomID => { s with reading := (userID, roomID, s.maxStreamPosition) :: s.reading }
  | .clear userID roomID pos => { s with clears := fun u r => if u = userID ∧ r = roomID then pos else s.clears u r }
  | .read userID roomID events =>
    { s with
      filtered := (s.hidden userID roomID (s.streamEvents events)).map
        (fun e => (userID, eventRoom roomID e.toEvent, e.eventID)) ++ s.filtered }
  | .purge roomID =>
    { s with
      outputEvents := s.outputEvents.delete (·.roomID = roomID)
      hides := s.hides.filter (·.2.1 ≠ roomID)
      clears := fun u r => if r = roomID then 0 else s.clears u r
      filtered := s.filtered.filter (·.2.1 ≠ roomID) }

/-- A clear stores what it has read. -/
@[simp] def May : Ev → Prop
  | .clear userID roomID pos => (userID, roomID, pos) ∈ s.reading
  | _ => True

@[simp] def Step (s : State) (e : Ev) (s' : State) : Prop := s.May e ∧ s' = s.after e

/-- A clear does not go back, and an event that is new to the table was not left out before. -/
@[simp] def Fits (s : State) (e : Ev) (_ : State) : Prop :=
  match e with
  | .write e => s.outputEvents.find e.eventID = none → ∀ k ∈ s.filtered, k.2.2 ≠ e.eventID
  | .clear userID roomID pos => s.clears userID roomID ≤ pos
  | _ => True

def empty : State := ⟨.empty, 0, [], fun _ _ => 0, [], []⟩

def position (eventID : String) : Nat := ((s.outputEvents.find eventID).map (·.streamPosition)).getD 0

/-- What was left out is hidden still. -/
def Kept : Prop := ∀ k ∈ s.filtered, k.1 ≠ "" ∧ k.2.1 ≠ "" ∧ s.isHidden k.1 k.2.1 k.2.2 (s.position k.2.2)

variable {s}

theorem position_of_mem (he : e ∈ s.streamEvents events) : s.position e.eventID = e.streamPosition := by
  obtain ⟨asked, -, rfl⟩ := mem_map.mp he
  cases hfind : s.outputEvents.find asked.eventID with
  | none => simp [position, hfind]
  | some row =>
    have hrow : s.outputEvents.find row.eventID = some row := by rwa [Rows.key_of_find hfind]
    simp [position, hrow]

theorem Kept.step (h : s.Kept) (hfits : s.Fits e (s.after e)) : (s.after e).Kept := by
  unfold Kept isHidden at *
  intro k hk
  cases e with
  | write e =>
    -- an event that was left out is not the one that is put
    cases hfind : s.outputEvents.find e.eventID with
    | some row => simpa [position, hfind] using h k hk
    | none => simpa [position, hfind, Rows.find_put, (hfits hfind k hk).symm] using h k hk
  | hide userID roomID eventIDs => grind [after, position]
  | readPosition userID roomID => exact h k hk
  | clear userID roomID pos => grind [after, Fits, position]
  | read userID roomID events =>
    obtain hnew | hold := mem_append.mp hk
    · obtain ⟨e, he, rfl⟩ := mem_map.mp hnew
      obtain ⟨hmem, hhidden⟩ := mem_filter.mp he
      have hposition : (s.after (.read userID roomID events)).position e.eventID = e.streamPosition := position_of_mem hmem
      rw [hposition]
      exact of_decide_eq_true hhidden
    · exact h k hold
  | purge roomID =>
    -- an event that is deleted from the table is at position zero from then on
    have hposition : (s.after (.purge roomID)).position k.2.2 ≤ s.position k.2.2 := by
      simp only [after, position, Rows.find_delete]
      cases s.outputEvents.find k.2.2 with
      | none => simp
      | some row => by_cases hrow : row.roomID = roomID <;> simp [Option.filter_some, hrow]
    obtain ⟨hk, hother⟩ := mem_filter.mp hk
    grind [after]

theorem filterLocalHiddenEvents_congr {s' : State} {userID roomID : String} (hrows : s'.outputEvents = s.outputEvents)
    (h : ∀ room eventID pos, s'.isHidden userID room eventID pos ↔ s.isHidden userID room eventID pos) :
    s'.filterLocalHiddenEvents userID roomID = s.filterLocalHiddenEvents userID roomID := by
  have hhidden : ∀ events, s'.hidden userID roomID events = s.hidden userID roomID events :=
    fun events => filter_congr fun e _ => by simp [h]
  funext events
  have hstream : s'.streamEvents events = s.streamEvents events := by simp only [streamEvents, hrows]
  rw [filterLocalHiddenEvents, filterLocalHiddenStreamEvents, hstream, hhidden]
  rfl

end State

open State

/-- What a user deleted locally stays hidden from that user, by either way of reading, and what others hide does not
matter to them. -/
theorem local_deletes_stay (s : State) : (∀ es, Run (Under Step Fits) .empty es s → ∀ k ∈ s.filtered,
      ∀ roomID events, ∀ e ∈ s.filterLocalHiddenEvents k.1 roomID events, e.eventID = k.2.2 → eventRoom roomID e ≠ k.2.1) ∧
    ∀ userID roomID, (∀ events, (∀ e ∈ events, e ∈ s.outputEvents.rows) →
        s.filterLocalHiddenEvents userID roomID (events.map (·.toEvent)) =
          (s.filterLocalHiddenStreamEvents userID roomID events).map (·.toEvent)) ∧
      ∀ e s', s.Step e s' → (∃ other, e.user = some other ∧ other ≠ userID) →
        s'.filterLocalHiddenEvents userID roomID = s.filterLocalHiddenEvents userID roomID := by
  refine ⟨?_, fun userID roomID => ⟨?_, ?_⟩⟩
  · intro es hrun k hk roomID events e he hid hroom
    have hkept : s.Kept := hrun.inv_under (I := State.Kept) (by rintro s e _ h ⟨-, rfl⟩ hfits; exact h.step hfits) nofun
    obtain ⟨row, hrow, rfl⟩ := mem_map.mp he
    obtain ⟨hmem, hshown⟩ := mem_filter.mp hrow
    apply of_decide_eq_true hshown
    refine mem_map_of_mem (mem_filter.mpr ⟨hmem, decide_eq_true ?_⟩)
    rw [hroom, ← position_of_mem hmem, hid]
    exact hkept k hk
  · intro events hrows
    have hevents : s.streamEvents (events.map (·.toEvent)) = events := by
      rw [streamEvents, map_map]
      refine (map_congr_left fun e he => ?_).trans (map_id events)
      simp [(Rows.find_eq_some _).mpr ⟨hrows e he, rfl⟩]
    rw [filterLocalHiddenEvents, hevents]
  · rintro e _ ⟨-, rfl⟩ ⟨other, huser, hother⟩
    cases e with
    | write | purge => cases huser
    | hide userID' roomID' eventIDs =>
      cases huser
      exact filterLocalHiddenEvents_congr rfl fun _ _ _ => by simp [isHidden, hother]
    | readPosition => rfl
    | clear userID' roomID' pos =>
      cases huser
      exact filterLocalHiddenEvents_congr rfl fun _ _ _ => by simp [isHidden, hother.symm]
    | read => rfl

/-- A user clears a room and reads it. -/
theorem cleared_event_stays : ∃ es s, Run (Under Step Fits) .empty es s ∧ ("@user", "!room", "$event") ∈ s.filtered ∧
      ∀ e ∈ s.filterLocalHiddenEvents "@user" "!room" [⟨"$event", "!room"⟩], e.eventID = "$event" →
        eventRoom "!room" e ≠ "!room" := by
  have hrun : Run (Under Step Fits) .empty _ _ :=
    .cons (l := .write ⟨"$event", "!room"⟩) ⟨⟨by simp, rfl⟩, by simp [State.empty]⟩ <|
    .cons (l := .readPosition "@user" "!room") ⟨⟨by simp, rfl⟩, by simp⟩ <|
    .cons (l := .clear "@user" "!room" 1) ⟨⟨by simp; exact .inl rfl, rfl⟩, by simp [State.empty]⟩ <|
    .single (l := .read "@user" "!room" [⟨"$event", "!room"⟩]) ⟨⟨by simp, rfl⟩, by simp⟩
  exact ⟨_, _, hrun, .head _, (local_deletes_stay _).1 _ hrun _ (.head _) "!room" [⟨"$event", "!room"⟩]⟩

/-- Two devices clear a room; the one that read first stores last. -/
theorem cleared_reappears : ∃ es s, Run Step .empty es s ∧ ("@user", "!room", "$new") ∈ s.filtered ∧
      s.filterLocalHiddenEvents "@user" "!room" [⟨"$new", "!room"⟩] = [⟨"$new", "!room"⟩] := by
  have hrun : Run Step .empty _ _ :=
    .cons (l := .write ⟨"$old", "!room"⟩) ⟨by simp, rfl⟩ <|
    .cons (l := .readPosition "@user" "!room") ⟨by simp, rfl⟩ <|
    .cons (l := .write ⟨"$new", "!room"⟩) ⟨by simp, rfl⟩ <|
    .cons (l := .readPosition "@user" "!room") ⟨by simp, rfl⟩ <|
    .cons (l := .clear "@user" "!room" 2) ⟨by simp; exact .inl rfl, rfl⟩ <|
    .cons (l := .read "@user" "!room" [⟨"$new", "!room"⟩]) ⟨by simp, rfl⟩ <|
    .single (l := .clear "@user" "!room" 1) ⟨by simp; exact .inr (.inl rfl), rfl⟩
  exact ⟨_, _, hrun, .head _, rfl⟩

end Dirextalk.Sync.LocalHides

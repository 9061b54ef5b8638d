/-
  Dirextalk.Roomserver.Extremities — the forward extremities of a room
  (`roomserver/internal/input/input_events.go`: `processRoomEvent`;
  `input_latest_events.go`: `updateLatestEvents`, `calculateLatest`;
  `roomserver/storage/shared/storage.go`: `StoreEvent`; `room_updater.go`:
  `IsReferenced`, `SetLatestEvents`).

  Events of a room are processed one after the other, and each is stored with the events it
  names as previous ones. Only an event that is new, not rejected and not soft-failed
  recalculates the latest events: it joins them unless a stored event names it, and takes
  out those that stored events name. What becomes of an event and the previous events of
  each id are given; no event rewrites the state.

  The latest events should be the accepted ones that no other accepted one names (`Exact`).
  They are not (`rejected_event_removes`) but in runs whose steps meet `Fits`.
-/
import Mathlib.Tactic.Push
import Mathlib.Tactic.Tauto
import Dirextalk.Lib.Run

namespace Dirextalk.Roomserver

open Lib List

abbrev Graph := String → List String

inductive Kind where
  | new
  | old
  | outlier
  deriving DecidableEq, Repr

structure Input where
  eventID : String
  kind : Kind
  rejected : Bool
  softFailed : Bool
  deriving DecidableEq, Repr

structure EventRow where
  isRejected : Bool
  sentToOutput : Bool

structure Room where
  events : String → Option EventRow
  /-- `roomserver_previous_events`: an event and one that names it. -/
  previous : List (String × String)
  latest : List String

namespace Room

def empty : Room := ⟨fun _ => none, [], []⟩

def isReferenced (r : Room) (eventID : String) : Bool := r.previous.any (·.1 == eventID)

def hasEventBeenSent (r : Room) (eventID : String) : Bool := (r.events eventID).any (·.sentToOutput)

/-- `INSERT … ON CONFLICT … DO UPDATE SET is_rejected = $7 WHERE … e.is_rejected = TRUE`. -/
def insertEvent (eventID : String) (isRejected : Bool) (r : Room) : Room :=
  { r with events := Function.update r.events eventID (some (match r.events eventID with
      | none => ⟨isRejected, false⟩
      | some row => if row.isRejected then { row with isRejected := isRejected } else row)) }

def storeEvent (G : Graph) (eventID : String) (isRejected : Bool) (r : Room) : Room :=
  let r := r.insertEvent eventID isRejected
  { r with previous := (G eventID).map (fun prev => (prev, eventID)) ++ r.previous }

def calculateLatest (G : Graph) (eventID : String) (r : Room) : List String :=
  if eventID ∈ r.latest then r.latest
  else if r.isReferenced eventID then r.latest
  else eventID :: (r.latest.filter fun old => !r.isReferenced old).filter fun old => old ∉ G eventID

def markEventAsSent (eventID : String) (r : Room) : Room :=
  { r with events := Function.update r.events eventID ((r.events eventID).map fun row => { row with sentToOutput := true }) }

/-- `SetLatestEvents` refuses an empty list, and the transaction is rolled back. -/
def updateLatestEvents (G : Graph) (eventID : String) (r : Room) : Room :=
  if r.hasEventBeenSent eventID then r
  else if r.calculateLatest G eventID = [] then r
  else { r with latest := r.calculateLatest G eventID }.markEventAsSent eventID

/-- Soft failure is only looked for in new events. -/
def processRoomEvent (G : Graph) (input : Input) (r : Room) : Room :=
  if input.kind = .outlier ∧ (r.events input.eventID).any (!·.isRejected) then r
  else
    let r := r.storeEvent G input.eventID input.rejected
    if input.kind = .outlier ∨ input.rejected then r
    else
      match input.kind with
      | .new => if input.softFailed then r else r.updateLatestEvents G input.eventID
      | _ => r

end Room

/-! ## What should hold -/

def Input.accepted (input : Input) : Bool :=
  input.kind ≠ .outlier && !input.rejected && !(input.kind = .new && input.softFailed)

structure Seen where
  room : Room
  accepted : List String

def Seen.empty : Seen := ⟨.empty, []⟩

def Seen.process (G : Graph) (input : Input) (s : Seen) : Seen :=
  ⟨s.room.processRoomEvent G input, if input.accepted then input.eventID :: s.accepted else s.accepted⟩

def Process (G : Graph) (s : Seen) (input : Input) (s' : Seen) : Prop := s' = s.process G input

/-- The latest events are the accepted ones that no other accepted one names. -/
def Exact (G : Graph) (s : Seen) : Prop :=
  ∀ x, x ∈ s.room.latest ↔ x ∈ s.accepted ∧ ∀ y ∈ s.accepted, y ≠ x → x ∉ G y

/-- What an accepted event that has not been accepted before must meet. If it does not recalculate the latest events,
it is named by an accepted one and names no latest event; otherwise it names all the latest events that stored events
name. -/
def Fits (G : Graph) (s : Seen) (input : Input) : Prop :=
  input.accepted = true → input.eventID ∉ s.accepted →
    if input.kind = .old ∨ (s.room.storeEvent G input.eventID input.rejected).isReferenced input.eventID then
      (∃ y ∈ s.accepted, input.eventID ∈ G y) ∧ ∀ x ∈ s.room.latest, x ∉ G input.eventID
    else ∀ x ∈ s.room.latest, s.room.isReferenced x = true → x ∈ G input.eventID

variable {G : Graph} {s s' : Seen} {input : Input} {r : Room} {eventID x : String} {isRejected : Bool}

/-! ## One event -/

theorem isReferenced_iff : r.isReferenced x = true ↔ ∃ y, (x, y) ∈ r.previous := by
  simp [Room.isReferenced]

theorem storeEvent_isReferenced :
    (r.storeEvent G eventID isRejected).isReferenced x = true ↔ x ∈ G eventID ∨ r.isReferenced x = true := by
  simp only [isReferenced_iff, Room.storeEvent, Room.insertEvent, mem_append, mem_map, Prod.mk.injEq]
  constructor
  · rintro ⟨y, ⟨prev, hprev, rfl, -⟩ | hold⟩
    · exact .inl hprev
    · exact .inr ⟨y, hold⟩
  · rintro (hprev | ⟨y, hold⟩)
    · exact ⟨eventID, .inl ⟨x, hprev, rfl, rfl⟩⟩
    · exact ⟨y, .inr hold⟩

theorem storeEvent_sent : (r.storeEvent G eventID isRejected).hasEventBeenSent x = r.hasEventBeenSent x := by
  unfold Room.hasEventBeenSent Room.storeEvent Room.insertEvent
  by_cases hx : x = eventID
  · subst hx
    dsimp only
    rw [Function.update_self]
    cases r.events x with
    | none => rfl
    | some row =>
      dsimp only
      split <;> rfl
  · dsimp only
    rw [Function.update_of_ne hx]

theorem markEventAsSent_sent (h : (r.markEventAsSent eventID).hasEventBeenSent x = true) :
    x = eventID ∨ r.hasEventBeenSent x = true := by
  by_cases hx : x = eventID
  · exact .inl hx
  · refine .inr ?_
    unfold Room.hasEventBeenSent Room.markEventAsSent at h
    dsimp only at h
    rwa [Function.update_of_ne hx] at h

theorem processRoomEvent_eq : r.processRoomEvent G input =
    if input.kind = .outlier ∧ (r.events input.eventID).any (!·.isRejected) then r
    else if input.accepted = true ∧ input.kind = .new then
      (r.storeEvent G input.eventID input.rejected).updateLatestEvents G input.eventID
    else r.storeEvent G input.eventID input.rejected := by
  obtain ⟨eventID, kind, rejected, softFailed⟩ := input
  cases kind <;> cases rejected <;> cases softFailed <;> simp [Room.processRoomEvent, Input.accepted]

/-- An empty list of latest events was empty before. -/
theorem calculateLatest_nil (h : r.calculateLatest G eventID = []) : r.latest = [] := by
  unfold Room.calculateLatest at h
  split at h
  · exact h
  split at h
  · exact h
  · cases h

theorem updateLatestEvents_latest : (r.updateLatestEvents G eventID).latest =
    if r.hasEventBeenSent eventID then r.latest else r.calculateLatest G eventID := by
  unfold Room.updateLatestEvents
  split
  · rfl
  split
  · next hnil => rw [hnil, calculateLatest_nil hnil]
  · rfl

theorem updateLatestEvents_isReferenced : (r.updateLatestEvents G eventID).isReferenced x = r.isReferenced x := by
  unfold Room.updateLatestEvents
  split
  · rfl
  · split <;> rfl

theorem updateLatestEvents_sent (h : (r.updateLatestEvents G eventID).hasEventBeenSent x = true) :
    x = eventID ∨ r.hasEventBeenSent x = true := by
  unfold Room.updateLatestEvents at h
  split at h
  · exact .inr h
  split at h
  · exact .inr h
  · exact markEventAsSent_sent h

theorem process_latest : (s.process G input).room.latest =
    if input.accepted = true ∧ input.kind = .new ∧ s.room.hasEventBeenSent input.eventID = false then
      (s.room.storeEvent G input.eventID input.rejected).calculateLatest G input.eventID
    else s.room.latest := by
  show (s.room.processRoomEvent G input).latest = _
  rw [processRoomEvent_eq]
  split
  · next hknown =>
    rw [if_neg]
    rintro ⟨-, hnew, -⟩
    rw [hknown.1] at hnew
    cases hnew
  · split
    · next haccepted =>
      rw [updateLatestEvents_latest, storeEvent_sent]
      cases s.room.hasEventBeenSent input.eventID with
      | true => simp [Room.storeEvent, Room.insertEvent]
      | false => simp [haccepted]
    · next hnot =>
      rw [if_neg fun h => hnot ⟨h.1, h.2.1⟩]
      rfl

/-! ## Between the steps -/

/-- What accepted events name is on record, and what has been sent was accepted. -/
structure Linked (G : Graph) (s : Seen) : Prop where
  named : ∀ y ∈ s.accepted, ∀ x ∈ G y, s.room.isReferenced x = true
  sent : ∀ x, s.room.hasEventBeenSent x = true → x ∈ s.accepted

theorem Linked.empty : Linked G Seen.empty where
  named _ hy := nomatch hy
  sent _ hx := nomatch hx

theorem mem_process_accepted {y : String} :
    y ∈ (s.process G input).accepted ↔ y ∈ s.accepted ∨ input.accepted = true ∧ y = input.eventID := by
  unfold Seen.process
  split
  · next h => simp [h, or_comm]
  · next h => simp [h]

theorem processRoomEvent_isReferenced (h : r.isReferenced x = true) : (r.processRoomEvent G input).isReferenced x = true := by
  rw [processRoomEvent_eq]
  split
  · exact h
  split
  · rw [updateLatestEvents_isReferenced]
    exact storeEvent_isReferenced.mpr (.inr h)
  · exact storeEvent_isReferenced.mpr (.inr h)

theorem Linked.process (h : Linked G s) (input : Input) : Linked G (s.process G input) := by
  constructor
  · intro y hy x hx
    show (s.room.processRoomEvent G input).isReferenced x = true
    obtain hold | ⟨haccepted, rfl⟩ := mem_process_accepted.mp hy
    · exact processRoomEvent_isReferenced (h.named y hold x hx)
    · rw [processRoomEvent_eq]
      split
      · next hknown => simp [Input.accepted, hknown.1] at haccepted
      split
      · rw [updateLatestEvents_isReferenced]
        exact storeEvent_isReferenced.mpr (.inl hx)
      · exact storeEvent_isReferenced.mpr (.inl hx)
  · intro x hx
    have hx : (s.room.processRoomEvent G input).hasEventBeenSent x = true := hx
    rw [mem_process_accepted]
    rw [processRoomEvent_eq] at hx
    split at hx
    · exact .inl (h.sent x hx)
    split at hx
    · next haccepted =>
      obtain rfl | hold := updateLatestEvents_sent hx
      · exact .inr ⟨haccepted.1, rfl⟩
      · rw [storeEvent_sent] at hold
        exact .inl (h.sent x hold)
    · rw [storeEvent_sent] at hx
      exact .inl (h.sent x hx)

/-! ## One step from an exact state -/

theorem exact_kept_iff (h : Exact G s) (hnew : eventID ∉ s.accepted) :
    Exact G ⟨⟨r.events, r.previous, s.room.latest⟩, eventID :: s.accepted⟩ ↔
      (∃ y ∈ s.accepted, eventID ∈ G y) ∧ ∀ x ∈ s.room.latest, x ∉ G eventID := by
  have hout : eventID ∉ s.room.latest := fun hmem => hnew ((h eventID).mp hmem).1
  constructor
  · intro hexact
    constructor
    · by_contra hnone
      push Not at hnone
      exact hout ((hexact eventID).mpr ⟨mem_cons_self, fun y hy hne =>
        hnone y ((mem_cons.mp hy).resolve_left hne)⟩)
    · intro x hx
      have hne : eventID ≠ x := by
        rintro rfl
        exact hout hx
      exact ((hexact x).mp hx).2 eventID mem_cons_self hne
  · rintro ⟨⟨y, hy, hnames⟩, hapart⟩ x
    constructor
    · intro hx
      obtain ⟨hmem, hall⟩ := (h x).mp hx
      refine ⟨mem_cons_of_mem _ hmem, fun z hz hne => ?_⟩
      obtain rfl | hz := mem_cons.mp hz
      · exact hapart x hx
      · exact hall z hz hne
    · rintro ⟨hmem, hall⟩
      obtain rfl | hmem := mem_cons.mp hmem
      · have hne : y ≠ x := by
          rintro rfl
          exact hnew hy
        exact absurd hnames (hall y (mem_cons_of_mem _ hy) hne)
      · exact (h x).mpr ⟨hmem, fun z hz => hall z (mem_cons_of_mem _ hz)⟩

theorem exact_joined_iff (h : Exact G s) (hlinked : Linked G s) (hnew : eventID ∉ s.accepted)
    (hfree : (s.room.storeEvent G eventID isRejected).isReferenced eventID = false) :
    Exact G ⟨⟨r.events, r.previous,
      eventID :: s.room.latest.filter fun old => !(s.room.storeEvent G eventID isRejected).isReferenced old⟩,
        eventID :: s.accepted⟩ ↔
      ∀ x ∈ s.room.latest, s.room.isReferenced x = true → x ∈ G eventID := by
  have hout : eventID ∉ s.room.latest := fun hmem => hnew ((h eventID).mp hmem).1
  have hself : eventID ∉ G eventID ∧ ∀ y ∈ s.accepted, eventID ∉ G y := by
    constructor
    · intro hself
      rw [storeEvent_isReferenced.mpr (.inl hself)] at hfree
      cases hfree
    · intro y hy hnames
      rw [storeEvent_isReferenced.mpr (.inr (hlinked.named y hy eventID hnames))] at hfree
      cases hfree
  -- which of the old ones stay
  have hmem : ∀ x, x ≠ eventID →
      (x ∈ eventID :: s.room.latest.filter (fun old => !(s.room.storeEvent G eventID isRejected).isReferenced old) ↔
      x ∈ s.room.latest ∧ x ∉ G eventID ∧ s.room.isReferenced x = false) := by
    intro x hne
    rw [mem_cons, mem_filter, Bool.not_eq_true', ← Bool.not_eq_true, storeEvent_isReferenced, ← Bool.not_eq_true]
    tauto
  constructor
  · intro hexact x hx href
    by_contra hnot
    have hne : x ≠ eventID := by
      rintro rfl
      exact hout hx
    obtain ⟨hacc, hall⟩ := (h x).mp hx
    have hstays := (hexact x).mpr ⟨mem_cons_of_mem _ hacc, fun y hy hyx => by
      obtain rfl | hy := mem_cons.mp hy
      · exact hnot
      · exact hall y hy hyx⟩
    rw [((hmem x hne).mp hstays).2.2] at href
    cases href
  · intro hcond x
    by_cases hne : x = eventID
    · subst hne
      refine ⟨fun _ => ⟨mem_cons_self, fun y hy hyx => ?_⟩, fun _ => mem_cons_self⟩
      exact hself.2 y ((mem_cons.mp hy).resolve_left hyx)
    · show x ∈ eventID :: s.room.latest.filter _ ↔ x ∈ eventID :: s.accepted ∧ ∀ y ∈ eventID :: s.accepted, y ≠ x → x ∉ G y
      rw [hmem x hne]
      constructor
      · rintro ⟨hx, hapart, -⟩
        obtain ⟨hacc, hall⟩ := (h x).mp hx
        refine ⟨mem_cons_of_mem _ hacc, fun y hy hyx => ?_⟩
        obtain rfl | hy := mem_cons.mp hy
        · exact hapart
        · exact hall y hy hyx
      · rintro ⟨hacc, hall⟩
        have hacc := (mem_cons.mp hacc).resolve_left hne
        have hapart := hall eventID mem_cons_self (Ne.symm hne)
        have hx := (h x).mpr ⟨hacc, fun y hy => hall y (mem_cons_of_mem _ hy)⟩
        refine ⟨hx, hapart, ?_⟩
        by_contra href
        exact hapart (hcond x hx (eq_true_of_ne_false href))

theorem exact_congr {a b : Seen} (hlatest : a.room.latest = b.room.latest) (haccepted : ∀ x, x ∈ a.accepted ↔ x ∈ b.accepted) :
    Exact G a ↔ Exact G b := by
  simp only [Exact, hlatest, haccepted]

/-- An event that was accepted before changes nothing: if it is not a latest event, an accepted one names it. -/
theorem exact_process_known (h : Exact G s) (hlinked : Linked G s) (hknown : input.eventID ∈ s.accepted) :
    Exact G (s.process G input) := by
  refine (exact_congr ?_ fun x => ?_).mpr h
  · rw [process_latest]
    split
    · unfold Room.calculateLatest
      split
      · rfl
      next hout =>
      have hnamed : ∃ y ∈ s.accepted, input.eventID ∈ G y := by
        by_contra hnone
        push Not at hnone
        exact hout ((h input.eventID).mpr ⟨hknown, fun y hy _ => hnone y hy⟩)
      obtain ⟨y, hy, hnames⟩ := hnamed
      rw [if_pos (storeEvent_isReferenced.mpr (.inr (hlinked.named y hy _ hnames)))]
      rfl
    · rfl
  · rw [mem_process_accepted]
    constructor
    · rintro (hx | ⟨-, rfl⟩)
      · exact hx
      · exact hknown
    · exact .inl

theorem process_latest_kept
    (h : input.kind = .old ∨ (s.room.storeEvent G input.eventID input.rejected).isReferenced input.eventID = true) :
    (s.process G input).room.latest = s.room.latest := by
  rw [process_latest]
  split
  · next hnew =>
    have href := h.resolve_left fun hold => by
      rw [hold] at hnew
      exact nomatch hnew.2.1
    rw [Room.calculateLatest, if_pos href, ite_self]
    rfl
  · rfl

theorem process_latest_joined (haccepted : input.accepted = true) (hkind : input.kind = .new)
    (hunsent : s.room.hasEventBeenSent input.eventID = false) (hout : input.eventID ∉ s.room.latest)
    (hfree : (s.room.storeEvent G input.eventID input.rejected).isReferenced input.eventID = false) :
    (s.process G input).room.latest =
      input.eventID :: s.room.latest.filter fun old => !(s.room.storeEvent G input.eventID input.rejected).isReferenced old := by
  rw [process_latest, if_pos ⟨haccepted, hkind, hunsent⟩, Room.calculateLatest,
    if_neg (show input.eventID ∉ (s.room.storeEvent G input.eventID input.rejected).latest from hout), if_neg (by simp [hfree])]
  -- what the event itself names is on record
  refine congrArg _ (filter_eq_self.mpr fun x hx => decide_eq_true fun hmem => ?_)
  have hx := (mem_filter.mp hx).2
  rw [storeEvent_isReferenced.mpr (.inl hmem)] at hx
  cases hx

/-- The condition is what a step must meet to leave the latest events exact. -/
theorem exact_process_iff (h : Exact G s) (hlinked : Linked G s) (input : Input) :
    Exact G (s.process G input) ↔ Fits G s input := by
  by_cases haccepted : input.accepted = true
  · by_cases hknown : input.eventID ∈ s.accepted
    · exact ⟨fun _ _ hnew => absurd hknown hnew, fun _ => exact_process_known h hlinked hknown⟩
    · have haccepts : ∀ x, x ∈ (s.process G input).accepted ↔ x ∈ input.eventID :: s.accepted := by
        intro x
        rw [mem_process_accepted, mem_cons]
        simp [haccepted, or_comm]
      rw [Fits, imp_iff_right haccepted, imp_iff_right hknown]
      by_cases hstays : input.kind = .old ∨ (s.room.storeEvent G input.eventID input.rejected).isReferenced input.eventID = true
      · rw [if_pos hstays, ← exact_kept_iff (r := s.room) h hknown]
        exact exact_congr (process_latest_kept hstays) haccepts
      · rw [if_neg hstays]
        push Not at hstays
        have hfree := eq_false_of_ne_true hstays.2
        have hkind : input.kind = .new := by
          unfold Input.accepted at haccepted
          cases hkind : input.kind with
          | new => rfl
          | old => exact absurd hkind hstays.1
          | outlier => simp [hkind] at haccepted
        have hunsent : s.room.hasEventBeenSent input.eventID = false := by
          by_contra hsent
          exact hknown (hlinked.sent _ (eq_true_of_ne_false hsent))
        have hout : input.eventID ∉ s.room.latest := fun hmem => hknown ((h _).mp hmem).1
        rw [← exact_joined_iff (r := s.room) h hlinked hknown hfree]
        exact exact_congr (process_latest_joined haccepted hkind hunsent hout hfree) haccepts
  · refine ⟨fun _ hacc => absurd hacc haccepted, fun _ => (exact_congr ?_ fun x => ?_).mpr h⟩
    · rw [process_latest, if_neg fun hall => haccepted hall.1]
    · rw [mem_process_accepted]
      simp [haccepted]

theorem linked_run {ls : List Input} (hr : Run (Process G) Seen.empty ls s) : Linked G s :=
  hr.inv (fun _ input _ h hstep => by rw [hstep]; exact h.process input) .empty

theorem exact_empty : Exact G Seen.empty := fun x => by simp [Seen.empty, Room.empty]

/-- A run of fitting steps. -/
abbrev FittingRun (G : Graph) : List Input → Seen → Prop :=
  Run (Under (Process G) fun s input _ => Fits G s input) Seen.empty

/-- The latest events are exact in every run of fitting steps, which two runs that accept the same events therefore
end with; and from an exact state only a fitting step leaves them exact. -/
theorem extremities_exact (G : Graph) :
    (∀ ls s, FittingRun G ls s → Exact G s) ∧
      (∀ ls s ls' s', FittingRun G ls s → FittingRun G ls' s' →
        (∀ x, x ∈ s.accepted ↔ x ∈ s'.accepted) → ∀ x, x ∈ s.room.latest ↔ x ∈ s'.room.latest) ∧
      ∀ ls s input s', Run (Process G) Seen.empty ls s → Exact G s → Process G s input s' → (Exact G s' ↔ Fits G s input) := by
  have hexact : ∀ ls s, FittingRun G ls s → Exact G s := by
    intro ls s hr
    have hboth := hr.inv (I := fun s => Exact G s ∧ Linked G s) (fun s input s' h hstep => by
      obtain ⟨rfl, hfits⟩ := hstep
      exact ⟨(exact_process_iff h.1 h.2 input).mpr hfits, h.2.process input⟩) ⟨exact_empty, .empty⟩
    exact hboth.1
  refine ⟨hexact, ?_, ?_⟩
  · intro ls s ls' s' hr hr' hsame x
    rw [hexact ls s hr x, hexact ls' s' hr' x]
    simp only [hsame]
  · rintro ls s input s' hr h rfl
    exact exact_process_iff h (linked_run hr) input

def sampleGraph : Graph := fun x => if x = "a" ∨ x = "b" then ["root"] else if x = "r" then ["a"] else []

def accept (eventID : String) : Input := ⟨eventID, .new, false, false⟩

instance : Decidable (Fits G s input) := by
  delta Fits
  infer_instance

/-- A fork, taken in either order, and one of its events received twice. -/
theorem extremities_exact_forked : ∃ s s', s.room.latest = ["b", "a"] ∧ Exact sampleGraph s' ∧
    FittingRun sampleGraph (["root", "a", "b"].map accept) s ∧ FittingRun sampleGraph (["root", "b", "a", "b"].map accept) s' ∧
    ∀ x, x ∈ s.room.latest ↔ x ∈ s'.room.latest := by
  have hrun : FittingRun sampleGraph (["root", "a", "b"].map accept) _ :=
    .cons ⟨rfl, by decide⟩ (.cons ⟨rfl, by decide⟩ (.single ⟨rfl, by decide⟩))
  have hrun' : FittingRun sampleGraph (["root", "b", "a", "b"].map accept) _ :=
    .cons ⟨rfl, by decide⟩ (.cons ⟨rfl, by decide⟩ (.cons ⟨rfl, by decide⟩ (.single ⟨rfl, by decide⟩)))
  obtain ⟨hexact, hsame, -⟩ := extremities_exact sampleGraph
  refine ⟨_, _, by decide, hexact _ _ hrun', hrun, hrun', hsame _ _ _ _ hrun hrun' fun x => ?_⟩
  grind [Seen.process, Seen.empty, accept, Input.accepted]

/-- The event `a` is accepted and no accepted event names it. After the rejected `r` and the fork it is not among
the latest events. -/
theorem rejected_event_removes :
    ∃ s, Run (Process sampleGraph) Seen.empty [accept "root", accept "a", ⟨"r", .new, true, false⟩, accept "b"] s ∧
      s.accepted = ["b", "a", "root"] ∧ s.room.latest = ["b"] ∧ ¬ Exact sampleGraph s := by
  refine ⟨_, .cons rfl (.cons rfl (.cons rfl (.single rfl))), by decide, by decide, ?_⟩
  intro h
  have ha := (h "a").mpr (by decide)
  revert ha
  decide

end Dirextalk.Roomserver

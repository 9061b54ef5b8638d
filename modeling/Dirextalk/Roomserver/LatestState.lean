/-
  Dirextalk.Roomserver.LatestState — the current state of a room and what is announced of it
  (`roomserver/internal/input/input_latest_events.go`: `doUpdateLatestEvents`, `latestState`,
  `calculateLatest`, `makeOutputNewRoomEvent`; `roomserver/state/state.go`:
  `CalculateAndStoreStateAfterEvents`, `DifferenceBetweeenStateSnapshots`;
  `room_updater.go`: `SetLatestEvents`).

  Every event is stored with a snapshot of the state before it, which may be given (`place`).
  An event that is new and accepted then updates the latest events, the current snapshot
  becomes the state after them, and the difference is sent out. A message event skips the
  calculation when the snapshots before the latest events stay the same. An event that
  rewrites the state starts from no latest events, and sends out all of the new state.

  The current snapshot should be the state after the latest events, and a consumer that applies
  what is sent out should hold the current state (`Tracks`). It is not so (`stale_after_skip`):
  a state event among the latest ones counts in the state after them but not in the snapshot
  before it, so when it is dropped for a message event with the same snapshot the state keeps
  it. Beside that `AddState` may lose an entry (`Snapshots.added_entry_lost`), and an event
  processed again with a given state takes it without an update.

  Proved (`output_tracks_state`): differences of stored snapshots are exact, and in every run
  whose steps meet `Fits` the room tracks in every state.
-/
import Dirextalk.Roomserver.StateQueries

namespace Dirextalk.Roomserver.LatestState

open Lib List Snapshots Function

/-- The type and state key of every event. -/
abbrev Tuples := EventNID → StateKeyTuple

def eventsOf (tuple : Tuples) : Events := fun nid => some (tuple nid)

def entryOf (tuple : Tuples) (nid : EventNID) : StateEntry := ⟨tuple nid, nid⟩

/-! ## Storing the state after events -/

def maxStateBlockNIDs : Nat := 64

section

variable (events : Events) (resolve : Resolve) (t : Snapshots) (prevStates : List StateAtEvent)

def calculateAndStoreStateAfterManyEvents : Option (StateSnapshotNID × Snapshots) :=
  (calculateStateAfterManyEvents events resolve t prevStates).bind (t.addState [])

def calculateAndStoreStateAfterEvents : Option (StateSnapshotNID × Snapshots) :=
  match prevStates with
  | [] => t.addState [] []
  | [p] =>
    if !p.isStateEvent || p.isRejected then some (p.beforeStateSnapshotNID, t)
    else (t.snapshots.find p.beforeStateSnapshotNID).bind fun nids =>
      if nids.length < maxStateBlockNIDs then t.addState nids [p.entry]
      else calculateAndStoreStateAfterManyEvents events resolve t [p]
  | _ => calculateAndStoreStateAfterManyEvents events resolve t prevStates

end

/-- The number 0 stands for no snapshot. -/
def stateAt (events : Events) (t : Snapshots) (stateNID : StateSnapshotNID) : Option (List StateEntry) :=
  if stateNID = 0 then some [] else t.loadStateAtSnapshot events stateNID

/-- What was removed and what was added. -/
def differenceBetweenStateSnapshots (events : Events) (t : Snapshots) (oldStateNID newStateNID : StateSnapshotNID) :
    Option (List StateEntry × List StateEntry) :=
  if oldStateNID = newStateNID then some ([], [])
  else do
    let oldEntries ← stateAt events t oldStateNID
    let newEntries ← stateAt events t newStateNID
    return difference oldEntries newEntries

/-! ## Updating the latest events -/

structure Room where
  states : Snapshots
  /-- The snapshot before each event. -/
  before : EventNID → StateSnapshotNID
  latest : List EventNID
  current : StateSnapshotNID
  sent : List EventNID
  /-- The state events a consumer holds who applied what was sent out. -/
  announced : List EventNID

def Room.empty : Room := ⟨.empty, fun _ => 0, [], 0, [], []⟩

structure Update where
  eventNID : EventNID
  prevEventNIDs : List EventNID
  referenced : List EventNID
  rewritesState : Bool

structure Change where
  states : Snapshots
  newStateNID : StateSnapshotNID
  removed : List StateEntry
  added : List StateEntry

namespace Update

/-- The latest events with the new one, and whether it is one of them. -/
def calculateLatest (u : Update) (oldLatest : List EventNID) : List EventNID × Bool :=
  if u.eventNID ∈ oldLatest ∨ u.eventNID ∈ u.referenced then (oldLatest, false)
  else (u.eventNID :: (oldLatest.filter (· ∉ u.referenced)).filter (· ∉ u.prevEventNIDs), true)

end Update

namespace Room

variable (tuple : Tuples) (resolve : Resolve) (r : Room) (u : Update)

def stateAtEvent (nid : EventNID) : StateAtEvent := ⟨r.before nid, false, entryOf tuple nid⟩

def stateAfter (latest : List EventNID) : Option (List StateEntry) :=
  calculateStateAfterManyEvents (eventsOf tuple) resolve r.states (latest.map (r.stateAtEvent tuple))

/-- The state before an event is stored. -/
abbrev IsPlaced (nid : EventNID) : Prop := (r.states.snapshots.find (r.before nid)).isSome

def oldLatest : List EventNID := if u.rewritesState then [] else r.latest

def oldStateNID : StateSnapshotNID := if u.rewritesState then 0 else r.current

def newLatest : List EventNID := (u.calculateLatest (r.oldLatest u)).1

/-- The snapshots before the latest events stay the same, and the new event is no state event. -/
def skips : Bool :=
  !(r.stateAtEvent tuple u.eventNID).isStateEvent &&
    normalize id ((r.oldLatest u).map r.before) = normalize id ((r.newLatest u).map r.before)

def latestState : Option Change :=
  if r.skips tuple u then some ⟨r.states, r.oldStateNID u, [], []⟩
  else (calculateAndStoreStateAfterEvents (eventsOf tuple) resolve r.states
    ((r.newLatest u).map (r.stateAtEvent tuple))).bind fun c =>
    if u.rewritesState then (c.2.loadStateAtSnapshot (eventsOf tuple) c.1).map fun added => ⟨c.2, c.1, [], added⟩
    else (differenceBetweenStateSnapshots (eventsOf tuple) c.2 (r.oldStateNID u) c.1).map fun d => ⟨c.2, c.1, d.1, d.2⟩

def change : Option Change :=
  if (u.calculateLatest (r.oldLatest u)).2 || u.rewritesState then r.latestState tuple resolve u
  else some ⟨r.states, r.oldStateNID u, [], []⟩

/-- What a consumer does with the output: a rewrite starts from nothing. -/
def announce (c : Change) : List EventNID :=
  if u.rewritesState then c.added.map (·.eventNID)
  else r.announced.filter (· ∉ c.removed.map (·.eventNID)) ++ c.added.map (·.eventNID)

/-- `SetLatestEvents` refuses no events and no snapshot, and the transaction is rolled back. -/
def doUpdateLatestEvents : Option Room :=
  if u.eventNID ∈ r.sent then some r
  else (r.change tuple resolve u).bind fun c =>
    if r.newLatest u = [] ∨ c.newStateNID = 0 then none
    else some
      { r with
        states := c.states
        latest := r.newLatest u
        current := c.newStateNID
        sent := u.eventNID :: r.sent
        announced := r.announce u c }

end Room

/-! ## Runs -/

inductive Label where
  /-- The state before an event is stored, with whatever else the tables take in. -/
  | place (nid : EventNID) (calls : List (List StateBlockNID × List StateEntry)) (stateNID : StateSnapshotNID)
  | update (u : Update)
  /-- The output is sent, and then the event is not marked as sent or the transaction not committed. -/
  | uncommitted (u : Update)

def Step (tuple : Tuples) (resolve : Resolve) (r : Room) : Label → Room → Prop
  | .place nid calls stateNID, r' => ∃ t, Run (Add (eventsOf tuple)) r.states calls t ∧ (t.snapshots.find stateNID).isSome ∧
      r' = { r with states := t, before := update r.before nid stateNID }
  | .update u, r' => r.IsPlaced u.eventNID ∧ r.doUpdateLatestEvents tuple resolve u = some r'
  | .uncommitted u, r' => r.IsPlaced u.eventNID ∧ ∃ written, r.doUpdateLatestEvents tuple resolve u = some written ∧
      r' = { r with announced := written.announced }

/-- The current snapshot is the state after the latest events, and it is what was announced. -/
def Tracks (tuple : Tuples) (resolve : Resolve) (r : Room) : Prop :=
  ∃ current full, stateAt (eventsOf tuple) r.states r.current = some current ∧ r.stateAfter tuple resolve r.latest = some full ∧
    (∀ x, x ∈ current ↔ x ∈ full) ∧ ∀ nid, nid ∈ r.announced ↔ ∃ x ∈ current, x.eventNID = nid

/-- No entry of the state before an event is replaced by it. -/
def Adds (events : Events) (t : Snapshots) (p : StateAtEvent) : Prop :=
  ∀ before ∈ t.loadStateAtSnapshot events p.beforeStateSnapshotNID, ∀ x ∈ before, ∀ y ∈ p.own, x.tuple = y.tuple → x = y

/-- A single state event fits behind the snapshot before it, where `AddState` puts it there. -/
def Single (events : Events) (t : Snapshots) (prevStates : List StateAtEvent) : Prop :=
  ∀ p ∈ prevStates, prevStates.length = 1 → p.isStateEvent = true → ∀ nids ∈ t.snapshots.find p.beforeStateSnapshotNID,
    nids.length < maxStateBlockNIDs → Snapshots.Fits events t nids [p.entry]

/-- The latest events keep the states before them. When an event becomes one of them and the calculation is skipped, no
state event is dropped, and none among them replaces another one. What is sent in vain is what consumers hold already. -/
def Fits (tuple : Tuples) (r : Room) : Label → Room → Prop
  | .place nid _ stateNID, _ => nid ∈ r.latest → stateNID = r.before nid
  | .update u, _ => u.eventNID ∉ r.sent → (u.calculateLatest (r.oldLatest u)).2 = true →
      (r.skips tuple u = true → ∀ nid ∈ r.latest, Adds (eventsOf tuple) r.states (r.stateAtEvent tuple nid) ∧
        ((r.stateAtEvent tuple nid).isStateEvent = true → nid ∈ r.newLatest u)) ∧
      Single (eventsOf tuple) r.states ((r.newLatest u).map (r.stateAtEvent tuple))
  | .uncommitted _, r' => r'.announced = r.announced

instance : Decidable (Adds events t p) := inferInstanceAs (Decidable (∀ _ ∈ _, _))

instance : Decidable (Single events t prevStates) := inferInstanceAs (Decidable (∀ _ ∈ _, _))

instance : ∀ label, Decidable (Fits tuple r label r')
  | .place .. => inferInstanceAs (Decidable (_ → _))
  | .update _ => inferInstanceAs (Decidable (_ → _))
  | .uncommitted _ => inferInstanceAs (Decidable (_ = _))

variable {tuple : Tuples} {resolve : Resolve} {events : Events} {t t' : Snapshots} {prevStates prevStates' : List StateAtEvent}
  {p : StateAtEvent} {nids : List StateBlockNID} {n stateNID : StateSnapshotNID} {l full : List StateEntry} {x : StateEntry}
  {r r' : Room} {u : Update} {nid : EventNID}

/-! ## What is stored stays -/

theorem load_grows (ht : t.Sound) (hg : t.Grows t') (hn : t.snapshots.find n = some nids) :
    t'.loadStateAtSnapshot events n = t.loadStateAtSnapshot events n := by
  have hknown := ht n nids hn
  rw [loadStateAtSnapshot, loadStateAtSnapshot, (hg.known hknown).load_eq (hg.snapshots n nids hn), hknown.load_eq hn,
    hg.blockEntries hknown.stored]

theorem stateAfterEvent_grows (ht : t.Sound) (ht' : t'.Sound) (hg : t.Grows t')
    (hp : (t.snapshots.find p.beforeStateSnapshotNID).isSome) : stateAfterEvent events t' p = stateAfterEvent events t p := by
  obtain ⟨nids, hnids⟩ := Option.isSome_iff_exists.mp hp
  rw [stateAfterEvent_eq ht' (hg.snapshots _ _ hnids), stateAfterEvent_eq ht hnids, hg.blockEntries (ht _ _ hnids).stored]

section

variable (ht : t.Sound) (ht' : t'.Sound) (hg : t.Grows t')
  (hplaced : ∀ p ∈ prevStates, (t.snapshots.find p.beforeStateSnapshotNID).isSome)
include ht ht' hg hplaced

theorem combined_grows :
    loadCombinedStateAfterEvents events t' prevStates = loadCombinedStateAfterEvents events t prevStates := by
  induction prevStates with
  | nil => rfl
  | cons p ps ih =>
    rw [loadCombinedStateAfterEvents, loadCombinedStateAfterEvents, stateAfterEvent_grows ht ht' hg (hplaced p mem_cons_self),
      ih fun q hq => hplaced q (mem_cons_of_mem _ hq)]

theorem calculate_grows :
    calculateStateAfterManyEvents events resolve t' prevStates = calculateStateAfterManyEvents events resolve t prevStates := by
  rw [calculateStateAfterManyEvents, calculateStateAfterManyEvents, combined_grows ht ht' hg hplaced]

end

variable {calls : List (List StateBlockNID × List StateEntry)}

theorem run_grows (hr : Run (Add events) t calls t') (ht : t.Sound) : t'.Sound ∧ t.Grows t' := by
  refine ⟨hr.inv (fun _ _ _ ht hadd => hadd.sound ht) ht, hr.rel (fun _ => .refl) (fun _ _ _ => .trans)
    (fun _ _ _ ht hadd => hadd.sound ht) ?_ ht⟩
  rintro t call t' - ⟨-, -, n, hadd⟩
  exact addState_grows hadd

/-! ## The state after events -/

theorem mem_combined (h : loadCombinedStateAfterEvents events t prevStates = some l) :
    x ∈ l ↔ ∃ p ∈ prevStates, ∃ fullState, stateAfterEvent events t p = some fullState ∧ x ∈ fullState := by
  induction prevStates generalizing l with
  | nil =>
    cases h
    simp
  | cons p ps ih =>
    simp only [loadCombinedStateAfterEvents, Option.bind_eq_bind, Option.bind_eq_some_iff] at h
    obtain ⟨fullState, hfull, combined, hcombined, heq⟩ := h
    cases heq
    rw [mem_append, ih hcombined]
    simp [hfull]

theorem stateAfterEvent_adds (ht : t.Sound) (hp : Placed events t p) (hadds : Adds events t p) :
    ∃ fullState before, stateAfterEvent events t p = some fullState ∧
      t.loadStateAtSnapshot events p.beforeStateSnapshotNID = some before ∧ ∀ x, x ∈ fullState ↔ x ∈ p.own ∨ x ∈ before := by
  obtain ⟨nids, hnids⟩ := hp.snapshot
  obtain ⟨fullState, hfull, -, hmem⟩ := stateAfterEvent_spec ht hnids events
  obtain ⟨before, hbefore, -, hload⟩ := (ht _ _ hnids).load events [] hnids
  refine ⟨fullState, before, hfull, hbefore, fun x => ?_⟩
  have hkept := hadds before hbefore x
  rw [hmem, or_own_eq_some]
  simp only [hload, chosen_nil, true_and] at hkept ⊢
  refine ⟨fun h => h.imp_right And.left, fun h => ?_⟩
  by_cases hx : x ∈ p.own
  · exact .inl hx
  · exact .inr ⟨h.resolve_left hx, fun y hy hk => hx (hkept (h.resolve_left hx) y hy hk ▸ hy)⟩

/-- The joined states are the states before and the events, if these are only added. -/
theorem combined_subset {a b : List EventNID} (ht : r.states.Sound)
    (hadds : ∀ nid, nid ∈ a ∨ nid ∈ b → r.IsPlaced nid ∧ Adds (eventsOf tuple) r.states (r.stateAtEvent tuple nid))
    (hl : loadCombinedStateAfterEvents (eventsOf tuple) r.states (a.map (r.stateAtEvent tuple)) = some l)
    (hl' : loadCombinedStateAfterEvents (eventsOf tuple) r.states (b.map (r.stateAtEvent tuple)) = some full)
    (hbefore : ∀ nid ∈ a, ∃ m ∈ b, r.before m = r.before nid)
    (hown : ∀ nid ∈ a, (r.stateAtEvent tuple nid).isStateEvent = true → nid ∈ b) (hx : x ∈ l) : x ∈ full := by
  have hadds (nid : EventNID) (h : nid ∈ a ∨ nid ∈ b) :=
    stateAfterEvent_adds ht ⟨Option.isSome_iff_exists.mp (hadds nid h).1, fun _ => rfl⟩ (hadds nid h).2
  obtain ⟨p, hp, fullState, hfull, hx⟩ := (mem_combined hl).mp hx
  obtain ⟨nid, hnid, rfl⟩ := mem_map.mp hp
  obtain ⟨_, before, hfull', hload, hmem⟩ := hadds nid (.inl hnid)
  cases hfull.symm.trans hfull'
  obtain hx | hx := (hmem x).mp hx
  · have hb := hown nid hnid (mem_own.mp hx).1
    exact (mem_combined hl').mpr ⟨_, mem_map_of_mem hb, fullState, hfull, (hmem x).mpr (.inl hx)⟩
  · obtain ⟨m, hm, heq⟩ := hbefore nid hnid
    obtain ⟨fullState', before', hfull', hload', hmem'⟩ := hadds m (.inr hm)
    have hsame : r.states.loadStateAtSnapshot (eventsOf tuple) (r.before m) = some before := by
      rw [heq]
      exact hload
    cases hsame.symm.trans hload'
    exact (mem_combined hl').mpr ⟨_, mem_map_of_mem hm, fullState', hfull', (hmem' x).mpr (.inr hx)⟩

theorem calculate_same (hl : loadCombinedStateAfterEvents events t prevStates = some l)
    (hl' : loadCombinedStateAfterEvents events t prevStates' = some full) (hmem : ∀ x, x ∈ l ↔ x ∈ full) :
    calculateStateAfterManyEvents events resolve t prevStates = calculateStateAfterManyEvents events resolve t prevStates' := by
  have hcombined : normalize id l = normalize id full :=
    eq_of_sorted id normalize_sorted normalize_sorted fun x => by rw [mem_normalize_keys, mem_normalize_keys, hmem]
  rw [calculateStateAfterManyEvents, calculateStateAfterManyEvents, hl, hl', Option.bind_some, Option.bind_some, resolveCombined,
    resolveCombined, hcombined]

theorem addState_whole (ht : t.Sound) (hl : Stated events l) (h : t.addState [] l = some (n, t')) :
    (t'.snapshots.find n).isSome ∧ ∃ state, t'.loadStateAtSnapshot events n = some state ∧ ∀ x, x ∈ state ↔ x ∈ l := by
  have hfits : Snapshots.Fits events t [] l := by
    refine ⟨fun x _ hoccurs => absurd hoccurs (by simp [occurs]), fun x _ => ?_⟩
    rintro ⟨_, -, -, m, hm, -⟩
    cases hm
  obtain ⟨nids, state, hn, hstate, hmem⟩ := hfits.load ht ⟨.nil, by simp⟩ hl h
  refine ⟨by rw [hn]; rfl, state, hstate, fun x => ?_⟩
  rw [hmem, show t.entryAt events [] x.tuple = none from rfl, Option.or_none, hl.at]
  simp

/-- A state that was stored whole is what its snapshot gives ever after. -/
theorem stored_state_kept (hr : Run (Add events) .empty calls t) (hl : Stated events l) (hadd : t.addState [] l = some (n, t'))
    (hlater : Run (Add events) t' later t'') :
      ∃ state, t''.loadStateAtSnapshot events n = some state ∧ ∀ x, x ∈ state ↔ x ∈ l := by
  have ht := run_sound hr
  have ht' := addState_sound ht (by simp) hadd
  obtain ⟨hn, hstate⟩ := addState_whole ht hl hadd
  obtain ⟨nids, hn⟩ := Option.isSome_iff_exists.mp hn
  rwa [load_grows ht' (run_grows hlater ht').2 hn]

theorem topic_kept : ∃ state, (built [([], [topic 1]), ([], [topic 2])]).loadStateAtSnapshot topics 1 = some state ∧
    ∀ x, x ∈ state ↔ x ∈ [topic 1] :=
  have hlater : Run (Add topics) (built [([], [topic 1])]) [([], [topic 2])] _ :=
    .single ⟨by simp, ⟨by decide, by decide⟩, 2, rfl⟩
  stored_state_kept (l := [topic 1]) (.nil _) ⟨by decide, by decide⟩ rfl hlater

structure Stores (events : Events) (resolve : Resolve) (t : Snapshots) (prevStates : List StateAtEvent) (n : StateSnapshotNID)
    (t' : Snapshots) : Prop where
  sound : t'.Sound
  grows : t.Grows t'
  stored : (t'.snapshots.find n).isSome
  exact : ∃ full state, calculateStateAfterManyEvents events resolve t prevStates = some full ∧
    t'.loadStateAtSnapshot events n = some state ∧ ∀ x, x ∈ state ↔ x ∈ full

theorem many_stores (ht : t.Sound) (hplaced : ∀ p ∈ prevStates, Placed events t p) (hresolve : Resolves events resolve)
    (h : calculateAndStoreStateAfterManyEvents events resolve t prevStates = some (n, t')) :
      Stores events resolve t prevStates n t' := by
  obtain ⟨full, hfull, hadd⟩ := Option.bind_eq_some_iff.mp h
  obtain ⟨hstored, state, hstate, hmem⟩ := addState_whole ht (calculated_stated ht hplaced hresolve hfull) hadd
  exact ⟨addState_sound ht (by simp) hadd, addState_grows hadd, hstored, full, state, hfull, hstate, hmem⟩

theorem single_stores (ht : t.Sound) (hp : Placed events t p) (hresolve : Resolves events resolve) (hfits : Single events t [p])
    (h : calculateAndStoreStateAfterEvents events resolve t [p] = some (n, t')) : Stores events resolve t [p] n t' := by
  obtain ⟨nids, hnids⟩ := hp.snapshot
  obtain ⟨full, hfull, hmem⟩ := calculate_single ht hnids events resolve
  rw [calculateAndStoreStateAfterEvents] at h
  split at h
  · rename_i hmessage
    cases h
    have hown : p.own = [] := by
      cases hstate : p.isStateEvent <;> cases hrejected : p.isRejected <;> simp_all [StateAtEvent.own]
    obtain ⟨state, hstate, -, hload⟩ := (ht _ _ hnids).load events [] hnids
    refine ⟨ht, .refl, by rw [hnids]; rfl, full, state, hfull, hstate, fun x => ?_⟩
    rw [hload, hmem, hown]
    simp [chosen_nil, latest]
  · rename_i hstate
    obtain ⟨hstate, hrejected⟩ : p.isStateEvent = true ∧ p.isRejected = false := by simpa using hstate
    have hown : p.own = [p.entry] := by simp [StateAtEvent.own, hstate, hrejected]
    rw [hnids, Option.bind_some] at h
    split at h
    · rename_i hshort
      have hstated : Stated events [p.entry] := ⟨by simpa using hp.stored hstate, by simp⟩
      have hbehind := hfits p mem_cons_self rfl hstate nids hnids hshort
      obtain ⟨nids', state, hn, hload, hmem'⟩ := hbehind.load ht (ht _ _ hnids) hstated h
      refine ⟨addState_sound ht (ht _ _ hnids).stored h, addState_grows h, by rw [hn]; rfl, full, state, hfull, hload,
        fun x => ?_⟩
      rw [hmem', hmem, hown]
    · exact many_stores ht (by simpa using hp) hresolve h

theorem calculated_stores (ht : t.Sound) (hplaced : ∀ p ∈ prevStates, Placed events t p) (hresolve : Resolves events resolve)
    (hfits : Single events t prevStates) (h : calculateAndStoreStateAfterEvents events resolve t prevStates = some (n, t')) :
    Stores events resolve t prevStates n t' := by
  match prevStates with
  | [] =>
    obtain ⟨hstored, state, hstate, hmem⟩ := addState_whole ht ⟨by simp, by simp⟩ h
    exact ⟨addState_sound ht (by simp) h, addState_grows h, hstored, [], state, rfl, hstate, hmem⟩
  | [p] => exact single_stores ht (hplaced p mem_cons_self) hresolve hfits h
  | _ :: _ :: _ => exact many_stores ht hplaced hresolve h

/-! ## Differences -/

theorem entry_lt (h : x.tuple < y.tuple) : x < y := Prod.Lex.toLex_lt_toLex.mpr (.inl h)

theorem stateAt_sorted (events : Events) (ht : t.Sound) (hn : n = 0 ∨ (t.snapshots.find n).isSome) :
    ∃ state, stateAt events t n = some state ∧ state.Pairwise (· < ·) ∧ ∀ x ∈ state, events x.eventNID = some x.tuple := by
  unfold stateAt
  split
  · exact ⟨[], rfl, .nil, by simp⟩
  rename_i hzero
  obtain ⟨nids, hnids⟩ := Option.isSome_iff_exists.mp (hn.resolve_left hzero)
  obtain ⟨state, hstate, hsorted, hmem⟩ := (ht n nids hnids).load events [] hnids
  exact ⟨state, hstate, hsorted.imp entry_lt, fun x hx => stored_of_entryAt ((hmem x).mp hx).2⟩

theorem difference_exact (events : Events) (ht : t.Sound) (hold : old = 0 ∨ (t.snapshots.find old).isSome)
    (hnew : new = 0 ∨ (t.snapshots.find new).isSome) :
    ∃ removed added before after, differenceBetweenStateSnapshots events t old new = some (removed, added) ∧
      stateAt events t old = some before ∧ stateAt events t new = some after ∧
      ∀ x, (x ∈ removed ↔ x ∈ before ∧ x ∉ after) ∧ (x ∈ added ↔ x ∈ after ∧ x ∉ before) := by
  obtain ⟨before, hbefore, hsorted, -⟩ := stateAt_sorted events ht hold
  obtain ⟨after, hafter, hsorted', -⟩ := stateAt_sorted events ht hnew
  unfold differenceBetweenStateSnapshots
  split
  · rename_i heq
    subst heq
    cases hbefore.symm.trans hafter
    exact ⟨[], [], before, before, rfl, hbefore, hbefore, fun x => by simp⟩
  · exact ⟨_, _, before, after, by rw [hbefore, hafter]; rfl, hbefore, hafter, fun x => mem_difference hsorted hsorted'⟩

/-- A consumer that held the old state holds the new one. -/
theorem applied_exact {announced : List EventNID} {removed added before after : List StateEntry}
    (hstored : ∀ x ∈ before, events x.eventNID = some x.tuple) (hstored' : ∀ x ∈ after, events x.eventNID = some x.tuple)
    (hexact : ∀ x, (x ∈ removed ↔ x ∈ before ∧ x ∉ after) ∧ (x ∈ added ↔ x ∈ after ∧ x ∉ before))
    (hheld : ∀ nid, nid ∈ announced ↔ ∃ x ∈ before, x.eventNID = nid) :
    nid ∈ announced.filter (· ∉ removed.map (·.eventNID)) ++ added.map (·.eventNID) ↔ ∃ x ∈ after, x.eventNID = nid := by
  have hsame : ∀ x y : StateEntry, events x.eventNID = some x.tuple → events y.eventNID = some y.tuple → x.eventNID = y.eventNID →
      x = y := by
    rintro ⟨kx, nx⟩ ⟨ky, ny⟩ hx hy rfl
    cases hx.symm.trans hy
    rfl
  simp only [mem_append, mem_filter, decide_eq_true_eq, mem_map, hheld, (hexact _).1, (hexact _).2]
  constructor
  · rintro (⟨⟨x, hx, rfl⟩, hkept⟩ | ⟨x, ⟨hx, -⟩, rfl⟩)
    · by_contra hnone
      exact hkept ⟨x, ⟨hx, fun hx' => hnone ⟨x, hx', rfl⟩⟩, rfl⟩
    · exact ⟨x, hx, rfl⟩
  · rintro ⟨x, hx, rfl⟩
    by_cases hbefore : x ∈ before
    · refine .inl ⟨⟨x, hbefore, rfl⟩, ?_⟩
      rintro ⟨y, ⟨hy, hgone⟩, heq⟩
      exact hgone (hsame y x (hstored y hy) (hstored' x hx) heq ▸ hx)
    · exact .inr ⟨x, ⟨hx, hbefore⟩, rfl⟩

/-! ## Every state reached -/

structure Inv (tuple : Tuples) (resolve : Resolve) (r : Room) : Prop where
  sound : r.states.Sound
  placed : ∀ nid ∈ r.latest, r.IsPlaced nid
  current : r.current = 0 ∨ (r.states.snapshots.find r.current).isSome
  tracks : Tracks tuple resolve r

theorem Inv.empty : Inv tuple resolve .empty where
  sound := empty_sound
  placed := by simp [Room.empty]
  current := .inl rfl
  tracks := ⟨[], [], rfl, rfl, by simp, by simp [Room.empty]⟩

theorem stateAt_grows (ht : t.Sound) (hg : t.Grows t') (hn : n = 0 ∨ (t.snapshots.find n).isSome) :
    stateAt events t' n = stateAt events t n := by
  unfold stateAt
  split
  · rfl
  rename_i hzero
  obtain ⟨nids, hnids⟩ := Option.isSome_iff_exists.mp (hn.resolve_left hzero)
  exact load_grows ht hg hnids

theorem isSome_grows (hg : t.Grows t') (hn : (t.snapshots.find n).isSome) : (t'.snapshots.find n).isSome := by
  obtain ⟨nids, hnids⟩ := Option.isSome_iff_exists.mp hn
  rw [hg.snapshots n nids hnids]
  rfl

theorem placed_of (tuple : Tuples) (h : ∀ nid ∈ nids, r.IsPlaced nid) :
    ∀ p ∈ nids.map (r.stateAtEvent tuple), Placed (eventsOf tuple) r.states p := by
  intro p hp
  obtain ⟨nid, hnid, rfl⟩ := mem_map.mp hp
  exact ⟨Option.isSome_iff_exists.mp (h nid hnid), fun _ => rfl⟩

theorem Inv.place (hi : Inv tuple resolve r)
    (hr : Run (Add (eventsOf tuple)) r.states calls t) (hfits : nid ∈ r.latest → stateNID = r.before nid) :
    Inv tuple resolve { r with states := t, before := update r.before nid stateNID } := by
  obtain ⟨hsound, hgrows⟩ := run_grows hr hi.sound
  have hbefore : ∀ m ∈ r.latest, update r.before nid stateNID m = r.before m := by
    intro m hm
    rw [update_apply]
    split
    · rename_i heq
      rw [heq, hfits (heq ▸ hm)]
    · rfl
  obtain ⟨current, full, hcurrent, hfull, hsame, hheld⟩ := hi.tracks
  refine ⟨hsound, fun m hm => ?_, ?_, current, full, ?_, ?_, hsame, hheld⟩
  · simp only [Room.IsPlaced, hbefore m hm]
    exact isSome_grows hgrows (hi.placed m hm)
  · exact hi.current.imp_right (isSome_grows hgrows)
  · rw [stateAt_grows hi.sound hgrows hi.current, hcurrent]
  · have hlatest : r.latest.map (Room.stateAtEvent tuple { r with states := t, before := update r.before nid stateNID }) =
        r.latest.map (r.stateAtEvent tuple) := by
      apply map_congr_left
      intro m hm
      simp only [Room.stateAtEvent, hbefore m hm]
    rw [Room.stateAfter, hlatest, calculate_grows hi.sound hsound hgrows, ← hfull]
    · rfl
    intro p hp
    obtain ⟨m, hm, rfl⟩ := mem_map.mp hp
    exact hi.placed m hm

theorem mem_newLatest (h : nid ∈ r.newLatest u) : nid = u.eventNID ∨ nid ∈ r.latest := by
  have hold : ∀ m ∈ r.oldLatest u, m ∈ r.latest := by
    intro m hm
    unfold Room.oldLatest at hm
    split at hm
    · cases hm
    · exact hm
  unfold Room.newLatest Update.calculateLatest at h
  split at h
  · exact .inr (hold nid h)
  · obtain rfl | h := mem_cons.mp h
    · exact .inl rfl
    · exact .inr (hold nid (mem_filter.mp (mem_filter.mp h).1).1)

theorem newLatest_placed (hi : Inv tuple resolve r) (hplaced : r.IsPlaced u.eventNID) :
    ∀ nid ∈ r.newLatest u, r.IsPlaced nid := by
  intro nid hnid
  obtain rfl | h := mem_newLatest hnid
  · exact hplaced
  · exact hi.placed nid h

structure Follows (tuple : Tuples) (resolve : Resolve) (r : Room) (u : Update) (c : Change) : Prop where
  sound : c.states.Sound
  grows : r.states.Grows c.states
  stored : c.newStateNID = 0 ∨ (c.states.snapshots.find c.newStateNID).isSome
  exact : c.newStateNID ≠ 0 → ∃ current full, stateAt (eventsOf tuple) c.states c.newStateNID = some current ∧
    r.stateAfter tuple resolve (r.newLatest u) = some full ∧
    (∀ x, x ∈ current ↔ x ∈ full) ∧ ∀ nid, nid ∈ r.announce u c ↔ ∃ x ∈ current, x.eventNID = nid

section

variable (hi : Inv tuple resolve r)
include hi

theorem follows_unchanged
    (hsame : u.rewritesState = false → r.stateAfter tuple resolve (r.newLatest u) = r.stateAfter tuple resolve r.latest) :
    Follows tuple resolve r u ⟨r.states, r.oldStateNID u, [], []⟩ := by
  obtain ⟨current, full, hcurrent, hfull, hexact, hheld⟩ := hi.tracks
  cases hrewrites : u.rewritesState with
  | true =>
    have hzero : r.oldStateNID u = 0 := by simp [Room.oldStateNID, hrewrites]
    exact ⟨hi.sound, .refl, .inl hzero, fun hne => absurd hzero hne⟩
  | false =>
    have hold : r.oldStateNID u = r.current := by simp [Room.oldStateNID, hrewrites]
    refine ⟨hi.sound, .refl, by rw [hold]; exact hi.current, fun _ => ?_⟩
    refine ⟨current, full, by rw [hold, hcurrent], (hsame hrewrites).trans hfull, hexact, ?_⟩
    simpa [Room.announce, hrewrites] using hheld

theorem follows_skip (hplaced : r.IsPlaced u.eventNID) (hskips : r.skips tuple u = true)
    (hfits : ∀ nid ∈ r.latest, Adds (eventsOf tuple) r.states (r.stateAtEvent tuple nid) ∧
      ((r.stateAtEvent tuple nid).isStateEvent = true → nid ∈ r.newLatest u)) :
    Follows tuple resolve r u ⟨r.states, r.oldStateNID u, [], []⟩ := by
  refine follows_unchanged hi fun hrewrites => ?_
  have hold : r.oldLatest u = r.latest := by simp [Room.oldLatest, hrewrites]
  simp only [Room.skips, Bool.and_eq_true, Bool.not_eq_true', decide_eq_true_eq, hold] at hskips
  obtain ⟨hmessage, hsame⟩ := hskips
  have hbefore : ∀ n, (∃ nid ∈ r.latest, r.before nid = n) ↔ ∃ nid ∈ r.newLatest u, r.before nid = n := by
    intro n
    have hmem := congrArg (n ∈ ·) hsame
    simpa only [mem_normalize_keys, mem_map] using hmem.to_iff
  have hadds :
      ∀ nid, nid = u.eventNID ∨ nid ∈ r.latest → r.IsPlaced nid ∧ Adds (eventsOf tuple) r.states (r.stateAtEvent tuple nid) := by
    rintro nid (rfl | h)
    · refine ⟨hplaced, fun _ _ _ _ y hy => ?_⟩
      cases hmessage.symm.trans (mem_own.mp hy).1
    · exact ⟨hi.placed nid h, (hfits nid h).1⟩
  obtain ⟨l, hl, -⟩ := combined_stored hi.sound (placed_of tuple (newLatest_placed hi hplaced))
  obtain ⟨l', hl', -⟩ := combined_stored hi.sound (placed_of tuple hi.placed)
  refine calculate_same hl hl' fun x => ⟨?_, ?_⟩
  · refine combined_subset hi.sound (fun nid h => hadds nid (h.elim mem_newLatest .inr)) hl hl' ?_ fun nid hnid hstate => ?_
    · exact fun nid hnid => (hbefore _).mpr ⟨nid, hnid, rfl⟩
    · obtain rfl | h := mem_newLatest hnid
      · cases hmessage.symm.trans hstate
      · exact h
  · refine combined_subset hi.sound (fun nid h => hadds nid (h.elim .inr mem_newLatest)) hl' hl ?_
      fun nid hnid => (hfits nid hnid).2
    exact fun nid hnid => (hbefore _).mp ⟨nid, hnid, rfl⟩

section

variable (hresolve : Resolves (eventsOf tuple) resolve) (hplaced : r.IsPlaced u.eventNID)
include hresolve hplaced

theorem follows_calculated {c : Change} (hfits : Single (eventsOf tuple) r.states ((r.newLatest u).map (r.stateAtEvent tuple)))
    (hskips : r.skips tuple u = false) (hc : r.latestState tuple resolve u = some c) : Follows tuple resolve r u c := by
  rw [Room.latestState, hskips, if_neg Bool.false_ne_true, Option.bind_eq_some_iff] at hc
  obtain ⟨⟨n, t'⟩, hstore, hc⟩ := hc
  have hstores := calculated_stores hi.sound (placed_of tuple (newLatest_placed hi hplaced)) hresolve hfits hstore
  obtain ⟨full, state, hfull, hload, hexact⟩ := hstores.exact
  cases hrewrites : u.rewritesState with
  | true =>
    rw [if_pos hrewrites, hload] at hc
    cases hc
    refine ⟨hstores.sound, hstores.grows, .inr hstores.stored, fun hne => ?_⟩
    refine ⟨state, full, by rw [stateAt, if_neg hne, hload], hfull, hexact, fun nid => ?_⟩
    simp [Room.announce, hrewrites]
  | false =>
    obtain ⟨current, _, hcurrent, -, -, hheld⟩ := hi.tracks
    obtain ⟨current', hcurrent', -, hstored⟩ := stateAt_sorted (eventsOf tuple) hi.sound hi.current
    cases hcurrent.symm.trans hcurrent'
    have hold : r.oldStateNID u = r.current := by simp [Room.oldStateNID, hrewrites]
    obtain ⟨removed, added, before, after, hdiff, hbefore, hafter, hchanged⟩ := difference_exact (eventsOf tuple) hstores.sound
      (hi.current.imp_right (isSome_grows hstores.grows)) (.inr hstores.stored)
    obtain ⟨after', hafter', -, hstored'⟩ := stateAt_sorted (eventsOf tuple) hstores.sound (.inr hstores.stored)
    cases hafter.symm.trans hafter'
    rw [stateAt_grows hi.sound hstores.grows hi.current, hcurrent] at hbefore
    cases hbefore
    rw [if_neg (by simp [hrewrites]), hold, hdiff] at hc
    cases hc
    refine ⟨hstores.sound, hstores.grows, .inr hstores.stored, fun hne => ⟨after, full, hafter, hfull, ?_, fun nid => ?_⟩⟩
    · rw [stateAt, if_neg hne, hload] at hafter
      cases hafter
      exact hexact
    · rw [Room.announce, if_neg (by simp [hrewrites])]
      exact applied_exact hstored hstored' hchanged hheld

theorem change_follows (hsent : u.eventNID ∉ r.sent) (hfits : Fits tuple r (.update u) r') (hnew : r.newLatest u ≠ [])
    (hc : r.change tuple resolve u = some c) : Follows tuple resolve r u c := by
  unfold Room.change at hc
  cases hchanged : (u.calculateLatest (r.oldLatest u)).2 with
  | true =>
    obtain ⟨hskip, hsingle⟩ := hfits hsent hchanged
    rw [hchanged, Bool.true_or, if_pos rfl] at hc
    cases hskips : r.skips tuple u with
    | true =>
      rw [Room.latestState, if_pos hskips] at hc
      cases hc
      exact follows_skip hi hplaced hskips (hskip hskips)
    | false => exact follows_calculated hi hresolve hplaced hsingle hskips hc
  | false =>
    have hold : r.newLatest u = r.oldLatest u := by
      unfold Room.newLatest
      unfold Update.calculateLatest at hchanged ⊢
      split at hchanged
      · rename_i hknown
        rw [if_pos hknown]
      · cases hchanged
    cases hrewrites : u.rewritesState with
    | true => exact absurd (hold.trans (if_pos hrewrites)) hnew
    | false =>
      rw [hchanged, hrewrites, Bool.or_false, if_neg Bool.false_ne_true] at hc
      cases hc
      refine follows_unchanged hi fun _ => ?_
      rw [hold, Room.oldLatest, if_neg (by simp [hrewrites])]

theorem Inv.update (hfits : Fits tuple r (.update u) r')
    (h : r.doUpdateLatestEvents tuple resolve u = some r') : Inv tuple resolve r' := by
  unfold Room.doUpdateLatestEvents at h
  split at h
  · cases h
    exact hi
  rename_i hsent
  obtain ⟨c, hc, h⟩ := Option.bind_eq_some_iff.mp h
  split at h
  · cases h
  rename_i hrefused
  rw [not_or] at hrefused
  cases h
  have hfollows := change_follows hi hresolve hplaced hsent hfits hrefused.1 hc
  obtain ⟨current, full, hcurrent, hfull, hexact, hheld⟩ := hfollows.exact hrefused.2
  have hlatest := newLatest_placed hi hplaced
  refine ⟨hfollows.sound, fun nid hnid => isSome_grows hfollows.grows (hlatest nid hnid), hfollows.stored, ?_⟩
  refine ⟨current, full, hcurrent, ?_, hexact, hheld⟩
  rw [← hfull]
  apply calculate_grows hi.sound hfollows.sound hfollows.grows
  intro p hp
  obtain ⟨nids, hnids⟩ := (placed_of tuple hlatest p hp).snapshot
  rw [hnids]
  rfl

end

end

/-- Differences of stored snapshots are exact, and the current state is the one after the latest events and is what
consumers hold. -/
theorem output_tracks_state (hresolve : Resolves (eventsOf tuple) resolve) {labels : List Label}
    (hr : Run (Under (Step tuple resolve) (Fits tuple)) .empty labels r) :
    Tracks tuple resolve r ∧
    ∀ old new, (old = 0 ∨ (r.states.snapshots.find old).isSome) → (new = 0 ∨ (r.states.snapshots.find new).isSome) →
      ∃ removed added before after, differenceBetweenStateSnapshots (eventsOf tuple) r.states old new = some (removed, added) ∧
        stateAt (eventsOf tuple) r.states old = some before ∧ stateAt (eventsOf tuple) r.states new = some after ∧
        ∀ x, (x ∈ removed ↔ x ∈ before ∧ x ∉ after) ∧ (x ∈ added ↔ x ∈ after ∧ x ∉ before) := by
  have hi : Inv tuple resolve r := by
    refine hr.inv_under (fun r label r' hi hstep hfits => ?_) .empty
    cases label with
    | place nid calls stateNID =>
      obtain ⟨t, hcalls, -, rfl⟩ := hstep
      exact hi.place hcalls hfits
    | update u => exact hi.update hresolve hstep.1 hfits hstep.2
    | uncommitted u =>
      obtain ⟨-, written, -, rfl⟩ := hstep
      rw [show written.announced = r.announced from hfits]
      exact hi
  exact ⟨hi.tracks, fun old new hold hnew => difference_exact _ hi.sound hold hnew⟩

def sampleTuple : Tuples := fun nid => if nid = 1 then ⟨1, 1⟩ else if nid = 3 then ⟨8, 1⟩ else ⟨10, 0⟩

def placed (r : Room) (nid : EventNID) (stateNID : StateSnapshotNID) : Room := { r with before := update r.before nid stateNID }

def updated (r : Room) (u : Update) : Room := (r.doUpdateLatestEvents sampleTuple (fun _ _ => none) u).getD r

def openRoom : Room := placed { Room.empty with states := built [([], [])] } 1 1

def created : Room := updated openRoom ⟨1, [], [], false⟩

theorem placed_step (h : (r.states.snapshots.find stateNID).isSome) :
    Step sampleTuple resolve r (.place nid [] stateNID) (placed r nid stateNID) :=
  ⟨r.states, .nil _, h, rfl⟩

theorem updated_eq (h : (r.doUpdateLatestEvents sampleTuple (fun _ _ => none) u).isSome) :
    r.doUpdateLatestEvents sampleTuple (fun _ _ => none) u = some (updated r u) := by
  obtain ⟨r', hr'⟩ := Option.isSome_iff_exists.mp h
  rw [updated, hr']
  rfl

theorem open_step : Step sampleTuple resolve .empty (.place 1 [([], [])] 1) openRoom :=
  ⟨_, .single ⟨by simp, ⟨by simp, by simp⟩, 1, rfl⟩, rfl, rfl⟩

/-- A message after the first event, then the topic, and the state of a second message. -/
def topicSet : Room :=
  placed (updated (placed (updated (placed created 2 2) ⟨2, [1], [1], false⟩) 3 2) ⟨3, [2], [1, 2], false⟩) 5 2

theorem topic_run : Run (Under (Step sampleTuple fun _ _ => none) (Fits sampleTuple)) .empty
    [.place 1 [([], [])] 1, .update ⟨1, [], [], false⟩, .place 2 [] 2, .update ⟨2, [1], [1], false⟩, .place 3 [] 2,
      .update ⟨3, [2], [1, 2], false⟩, .place 5 [] 2] topicSet := by
  refine .cons ⟨open_step, by decide⟩ (.cons ⟨⟨by decide, updated_eq (by decide)⟩, by decide⟩ ?_)
  refine .cons ⟨placed_step (by decide), by decide⟩ (.cons ⟨⟨by decide, updated_eq (by decide)⟩, by decide⟩ ?_)
  refine .cons ⟨placed_step (by decide), by decide⟩ (.cons ⟨⟨by decide, updated_eq (by decide)⟩, by decide⟩ ?_)
  exact .single ⟨placed_step (by decide), by decide⟩

def beside : Update := ⟨5, [2], [1, 2], false⟩

/-- The second message stands beside the topic, and is sent twice. -/
theorem sample_tracks : Tracks sampleTuple (fun _ _ => none) (updated topicSet beside) ∧
    (updated topicSet beside).latest = [5, 3] ∧ (updated topicSet beside).announced = [1, 3] := by
  have hsame : (updated topicSet beside).announced = topicSet.announced := by decide +kernel
  have hsent : Step sampleTuple (fun _ _ => none) topicSet (.uncommitted beside) topicSet :=
    ⟨by decide, _, updated_eq (by decide), by rw [hsame]⟩
  have hlast : Step sampleTuple (fun _ _ => none) topicSet (.update beside) (updated topicSet beside) :=
    ⟨by decide, updated_eq (by decide)⟩
  have hr := topic_run.trans (.cons ⟨hsent, rfl⟩ (.single ⟨hlast, by decide⟩))
  exact ⟨(output_tracks_state (fun _ _ _ _ h => by cases h) hr).1, by decide, by decide +kernel⟩

/-- The second message when an event that is not accepted has named the topic. -/
def forked : Room := updated topicSet ⟨5, [2], [1, 2, 3], false⟩

/-- The topic is no latest event any more, and the state keeps it. -/
theorem stale_after_skip : Run (Step sampleTuple fun _ _ => none) .empty
      [.place 1 [([], [])] 1, .update ⟨1, [], [], false⟩, .place 2 [] 2, .update ⟨2, [1], [1], false⟩, .place 3 [] 2,
        .update ⟨3, [2], [1, 2], false⟩, .place 5 [] 2, .update ⟨5, [2], [1, 2, 3], false⟩] forked ∧
    forked.latest = [5] ∧ forked.stateAfter sampleTuple (fun _ _ => none) forked.latest = some [⟨⟨1, 1⟩, 1⟩] ∧
    stateAt (eventsOf sampleTuple) forked.states forked.current = some [⟨⟨1, 1⟩, 1⟩, ⟨⟨8, 1⟩, 3⟩] :=
  ⟨topic_run.of_under.snoc ⟨by decide, updated_eq (by decide)⟩, by decide, by decide, by decide⟩

end Dirextalk.Roomserver.LatestState

/-
  Dirextalk.Roomserver.StateQueries — the state after events, whole and in part
  (`roomserver/state/state.go`: `LoadCombinedStateAfterEvents`,
  `calculateStateAfterManyEvents`, `findDuplicateStateKeys`,
  `LoadStateAtSnapshotForStringTuples`, `stringTuplesToNumericTuples`,
  `LoadStateAfterEventsForStringTuples`, `loadStateAfterEventsForNumericTuples`;
  `roomserver/storage/shared/storage.go`: `EventTypeNIDs`, `EventStateKeyNIDs`).

  The state after events joins the states after each of them; where these conflict, state
  resolution decides, which is given. A query names the tuples it wants by type and state
  key. Unknown types are dropped, and unknown state keys are given a number.

  A query should return the entries of the whole state at its tuples. It does not
  (`restricted_too_much`).

  Proved (`restricted_state_exact_iff`): a query of a snapshot is exact just when the entries it
  chooses were asked for, one after a single event just when `Restricts` holds, and one after
  any other number of events always.
-/
import Dirextalk.Roomserver.Snapshots

namespace Dirextalk.Roomserver

open Lib Snapshots List

/-- `StateEntry.LessThan`: by tuple, then by event. -/
instance : LinearOrder StateEntry :=
  LinearOrder.lift' (fun x => toLex (x.tuple, x.eventNID)) (by rintro ⟨⟩ ⟨⟩ h; cases h; rfl)

structure StateAtEvent where
  beforeStateSnapshotNID : StateSnapshotNID
  isRejected : Bool
  entry : StateEntry

/-- Events that are no state events have no state key. -/
def StateAtEvent.isStateEvent (p : StateAtEvent) : Bool := p.entry.tuple.eventStateKeyNID != 0

def StateAtEvent.own (p : StateAtEvent) : List StateEntry := if p.isStateEvent && !p.isRejected then [p.entry] else []

/-- `resolveConflicts`: the entries without conflicts and those with. -/
abbrev Resolve := List StateEntry → List StateEntry → Option (List StateEntry)

/-! ## The whole state -/

def stateAfterEvent (events : Events) (t : Snapshots) (p : StateAtEvent) : Option (List StateEntry) := do
  let nids ← t.snapshots.find p.beforeStateSnapshotNID
  let lists ← t.stateEntriesForTuples events nids []
  return normalize StateEntry.tuple (lists.flatten ++ p.own)

def loadCombinedStateAfterEvents (events : Events) (t : Snapshots) : List StateAtEvent → Option (List StateEntry)
  | [] => some []
  | p :: ps => do
    let fullState ← stateAfterEvent events t p
    let combined ← loadCombinedStateAfterEvents events t ps
    return fullState ++ combined

/-- The entries of a list without repetitions that share their tuple with another one. -/
def findDuplicateStateKeys (a : List StateEntry) : List StateEntry := a.filter fun x => a.any fun y => y.tuple = x.tuple && y ≠ x

def resolveCombined (resolve : Resolve) (combined : List StateEntry) : Option (List StateEntry) :=
  let combined := normalize id combined
  let conflicts := findDuplicateStateKeys combined
  if conflicts = [] then some combined else resolve (combined.filter fun x => !conflicts.any (·.tuple = x.tuple)) conflicts

def calculateStateAfterManyEvents (events : Events) (resolve : Resolve) (t : Snapshots) (prevStates : List StateAtEvent) :
    Option (List StateEntry) :=
  (loadCombinedStateAfterEvents events t prevStates).bind (resolveCombined resolve)

/-! ## Parts of it -/

structure Names (events : Events) where
  types : Interned String
  stateKeys : Interned String
  named : ∀ nid k, events nid = some k → (types.find k.eventTypeNID).isSome ∧ (stateKeys.find k.eventStateKeyNID).isSome

variable {events : Events}

section

variable (names : Names events)

/-- `EventStateKeyNIDs` gives a number to the keys that have none. -/
def stringTuplesToNumericTuples (tuples : List (String × String)) : List StateKeyTuple :=
  let stateKeys := (tuples.map (·.2)).foldl (fun t key => (t.insert key).2) names.stateKeys
  tuples.filterMap fun s => do
    let eventTypeNID ← names.types.number s.1
    let eventStateKeyNID ← stateKeys.number s.2
    return ⟨eventTypeNID, eventStateKeyNID⟩

def loadStateAtSnapshotForStringTuples (t : Snapshots) (stateNID : StateSnapshotNID)
    (tuples : List (String × String)) : Option (List StateEntry) :=
  t.loadStateAtSnapshotForNumericTuples events stateNID (stringTuplesToNumericTuples names tuples)

/-- Put an entry in the place of the one at its tuple, or at the end. -/
def setEntry (result : List StateEntry) (x : StateEntry) : List StateEntry :=
  if result.any (·.tuple = x.tuple) then result.map fun y => if y.tuple = x.tuple then x else y else result ++ [x]

def loadStateAfterEventsForNumericTuples (events : Events) (resolve : Resolve) (t : Snapshots) (prevStates : List StateAtEvent)
    (tuples : List StateKeyTuple) : Option (List StateEntry) :=
  match prevStates with
  | [p] => (t.loadStateAtSnapshotForNumericTuples events p.beforeStateSnapshotNID tuples).map fun result =>
      if p.isStateEvent then setEntry result p.entry else result
  | _ => (calculateStateAfterManyEvents events resolve t prevStates).map fun fullState =>
      (tuples.filterMap fun k => (fullState.insertionSort (· ≤ ·)).find? (·.tuple = k)).insertionSort (· ≤ ·)

def loadStateAfterEventsForStringTuples (resolve : Resolve) (t : Snapshots) (prevStates : List StateAtEvent)
    (tuples : List (String × String)) : Option (List StateEntry) :=
  loadStateAfterEventsForNumericTuples events resolve t prevStates (stringTuplesToNumericTuples names tuples)

/-! ## What is asked for -/

/-- The tuple's type and state key are one of those named. -/
def Asked (tuples : List (String × String)) (k : StateKeyTuple) : Prop :=
  ∃ s ∈ tuples, names.types.find k.eventTypeNID = some s.1 ∧ names.stateKeys.find k.eventStateKeyNID = some s.2

instance {events : Events} {names : Names events} {tuples : List (String × String)} {k : StateKeyTuple} :
    Decidable (Asked names tuples k) :=
  inferInstanceAs (Decidable (∃ _ ∈ _, _ ∧ _))

/-- A single previous event that is a state event is asked for and, when it is rejected, is in the state anyway. What else is
chosen of the state before it is asked for. -/
def Restricts (t : Snapshots) (prevStates : List StateAtEvent) (tuples : List (String × String)) : Prop :=
  ∀ p before, prevStates = [p] → t.loadStateAtSnapshot events p.beforeStateSnapshotNID = some before →
    (p.isStateEvent = true → Asked names tuples p.entry.tuple ∧ (p.isRejected = true → p.entry ∈ before)) ∧
      ∀ x ∈ before, (p.isStateEvent = true → x.tuple ≠ p.entry.tuple) →
        chosen (stringTuplesToNumericTuples names tuples) x.tuple = true → Asked names tuples x.tuple

end

variable {names : Names events} {t : Snapshots} {tuples : List (String × String)} {nids : List StateBlockNID} {k : StateKeyTuple}
  {nid : EventNID} {x y : StateEntry} {p : StateAtEvent} {resolve : Resolve} {prevStates : List StateAtEvent}
  {l full : List StateEntry}

theorem mem_numericTuples (h : events nid = some k) : k ∈ stringTuplesToNumericTuples names tuples ↔ Asked names tuples k := by
  obtain ⟨key, hkey⟩ := Option.isSome_iff_exists.mp (names.named nid k h).2
  have hstays := Interned.find_foldl_insert hkey (tuples.map (·.2))
  simp only [stringTuplesToNumericTuples, mem_filterMap, Asked, Option.bind_eq_bind, Option.bind_eq_some_iff,
    Interned.number_eq_some]
  constructor
  · rintro ⟨s, hs, a, ha, b, hb, heq⟩
    cases heq
    exact ⟨s, hs, ha, by rw [hkey, ← hstays, hb]⟩
  · rintro ⟨s, hs, htype, hstate⟩
    exact ⟨s, hs, _, htype, _, by rw [hstays, ← hkey, hstate], rfl⟩

theorem chosen_of_mem {tuples : List StateKeyTuple} (h : k ∈ tuples) : chosen tuples k = true := by
  simp only [chosen, Bool.and_eq_true, Bool.or_eq_true, any_eq_true]
  exact ⟨.inr ⟨k, h, by simp⟩, .inr ⟨k, h, by simp⟩⟩

theorem stored_of_entryAt (h : t.entryAt events nids k = some x) : events x.eventNID = some x.tuple := by
  obtain ⟨n, -, hn⟩ := mem_flatMap.mp (of_latest h).1
  exact (mem_bulkSelect.mp hn).2

theorem snapshot_exact_iff (ht : t.Sound) {s : StateSnapshotNID} (hs : t.snapshots.find s = some nids) :
    ∃ full l, t.loadStateAtSnapshot events s = some full ∧ loadStateAtSnapshotForStringTuples names t s tuples = some l ∧
      ((∀ x, x ∈ l ↔ x ∈ full ∧ Asked names tuples x.tuple) ↔
        ∀ x ∈ full, chosen (stringTuplesToNumericTuples names tuples) x.tuple = true → Asked names tuples x.tuple) := by
  obtain ⟨full, hfull, -, hmem⟩ := (ht s nids hs).load events [] hs
  obtain ⟨l, hl, -, hmem'⟩ := (ht s nids hs).load events (stringTuplesToNumericTuples names tuples) hs
  refine ⟨full, l, hfull, hl, ?_⟩
  simp only [hmem, hmem', chosen_nil, true_and]
  constructor
  · intro h x hx hchosen
    exact ((h x).mp ⟨hchosen, hx⟩).2
  · intro h x
    refine ⟨fun hx => ⟨hx.2, h x hx.2 hx.1⟩,
      fun hx => ⟨chosen_of_mem ((mem_numericTuples (stored_of_entryAt hx.1)).mpr hx.2), hx.1⟩⟩

/-! ### After one event -/

variable (ht : t.Sound) (hp : t.snapshots.find p.beforeStateSnapshotNID = some nids)

include ht hp in
theorem stateAfterEvent_eq :
    stateAfterEvent events t p = some (normalize StateEntry.tuple (nids.flatMap (t.blockEntries events []) ++ p.own)) := by
  simp only [stateAfterEvent, hp, (ht _ _ hp).stateEntries, Option.bind_eq_bind, Option.bind_some, flatMap_def]
  rfl

include ht hp in
theorem stateAfterEvent_spec (events : Events) :
    ∃ l, stateAfterEvent events t p = some l ∧ l.Pairwise (·.tuple < ·.tuple) ∧
      ∀ x, x ∈ l ↔ (latest StateEntry.tuple p.own x.tuple).or (t.entryAt events nids x.tuple) = some x := by
  refine ⟨_, stateAfterEvent_eq ht hp, normalize_sorted, fun x => ?_⟩
  rw [mem_normalize, latest_append]
  rfl

theorem mem_setEntry : y ∈ setEntry l x ↔ y = x ∨ y ∈ l ∧ y.tuple ≠ x.tuple := by
  unfold setEntry
  split
  · rename_i hany
    obtain ⟨z, hz, hk⟩ := any_eq_true.mp hany
    rw [mem_map]
    constructor
    · rintro ⟨w, hw, rfl⟩
      by_cases h : w.tuple = x.tuple <;> simp [h, hw]
    · rintro (rfl | ⟨hy, hne⟩)
      · exact ⟨z, hz, if_pos (by simpa using hk)⟩
      · exact ⟨y, hy, if_neg hne⟩
  · rename_i hnone
    simp only [any_eq_true, decide_eq_true_eq, not_exists, not_and] at hnone
    rw [mem_append, mem_singleton]
    constructor
    · rintro (hy | rfl)
      · exact .inr ⟨hy, hnone y hy⟩
      · exact .inl rfl
    · rintro (rfl | ⟨hy, -⟩)
      · exact .inr rfl
      · exact .inl hy

theorem mem_own : x ∈ p.own ↔ p.isStateEvent = true ∧ p.isRejected = false ∧ x = p.entry := by
  unfold StateAtEvent.own
  split <;> simp_all

/-- The event's own entry, and what the state before it has at other tuples. -/
theorem or_own_eq_some {before : Option StateEntry} : (latest StateEntry.tuple p.own x.tuple).or before = some x ↔
    x ∈ p.own ∨ before = some x ∧ ∀ y ∈ p.own, x.tuple ≠ y.tuple := by
  unfold StateAtEvent.own
  split
  · rw [latest_singleton]
    by_cases hk : p.entry.tuple = x.tuple
    · simp [hk, eq_comm]
    · have hne : x ≠ p.entry := fun h => hk (by rw [h])
      simp [hk, hne, Ne.symm hk]
  · simp [latest]

/-- Without conflicts nothing is resolved. -/
theorem resolveCombined_of_distinct (h : ∀ x ∈ l, ∀ y ∈ l, x.tuple = y.tuple → x = y) :
    resolveCombined resolve l = some (normalize id l) := by
  have hmem : ∀ x, x ∈ normalize id l ↔ x ∈ l := fun x => mem_normalize_keys
  have hnone : findDuplicateStateKeys (normalize id l) = [] := by
    rw [findDuplicateStateKeys, filter_eq_nil_iff]
    intro x hx hany
    obtain ⟨y, hy, hyx⟩ := any_eq_true.mp hany
    simp only [Bool.and_eq_true, decide_eq_true_eq] at hyx
    exact hyx.2 (h y ((hmem y).mp hy) x ((hmem x).mp hx) hyx.1)
  rw [resolveCombined, if_pos hnone]

theorem eq_of_tuple (h : l.Pairwise (·.tuple < ·.tuple)) (hx : x ∈ l) (hy : y ∈ l) (heq : x.tuple = y.tuple) : x = y := by
  have hmap := pairwise_map.mpr (h.imp ne_of_lt)
  exact inj_on_of_nodup_map hmap hx hy heq

include ht hp in
theorem calculate_single (events : Events) (resolve : Resolve) :
    ∃ full, calculateStateAfterManyEvents events resolve t [p] = some full ∧
      ∀ x, x ∈ full ↔ (latest StateEntry.tuple p.own x.tuple).or (t.entryAt events nids x.tuple) = some x := by
  obtain ⟨l, hl, hsorted, hmem⟩ := stateAfterEvent_spec ht hp events
  refine ⟨normalize id l, ?_, fun x => ?_⟩
  · simp only [calculateStateAfterManyEvents, loadCombinedStateAfterEvents, hl, Option.bind_eq_bind, Option.bind_some, append_nil,
      Option.pure_def]
    exact resolveCombined_of_distinct fun x hx y hy => eq_of_tuple hsorted hx hy
  · rw [mem_normalize_keys, hmem]

include ht hp in
theorem single_exact_iff (hfull : calculateStateAfterManyEvents events resolve t [p] = some full) :
    ∃ l, loadStateAfterEventsForStringTuples names resolve t [p] tuples = some l ∧
      ((∀ x, x ∈ l ↔ x ∈ full ∧ Asked names tuples x.tuple) ↔ Restricts names t [p] tuples) := by
  obtain ⟨full', hfull', hmem⟩ := calculate_single ht hp events resolve
  obtain rfl : full' = full := Option.some.inj (hfull'.symm.trans hfull)
  obtain ⟨before, hbefore, hsorted, hmemBefore⟩ := (ht _ _ hp).load events [] hp
  obtain ⟨l, hl, -, hmemPart⟩ := (ht _ _ hp).load events (stringTuplesToNumericTuples names tuples) hp
  simp only [chosen_nil, true_and] at hmemBefore
  have hload : t.loadStateAtSnapshot events p.beforeStateSnapshotNID = some before := hbefore
  have hasked : ∀ x ∈ before, Asked names tuples x.tuple → chosen (stringTuplesToNumericTuples names tuples) x.tuple = true :=
    fun x hx hx' => chosen_of_mem ((mem_numericTuples (stored_of_entryAt ((hmemBefore x).mp hx))).mpr hx')
  have hsame : ∀ x, x ∈ full' ↔ x ∈ p.own ∨ x ∈ before ∧ ∀ y ∈ p.own, x.tuple ≠ y.tuple :=
    fun x => by rw [hmem, hmemBefore, or_own_eq_some]
  simp only [← hmemBefore] at hmemPart
  simp only [Restricts, cons.injEq, and_true, forall_comm (α := List StateEntry) (β := _ = _), forall_eq', hload,
    Option.some.injEq]
  simp only [loadStateAfterEventsForStringTuples, loadStateAfterEventsForNumericTuples, hl, Option.map_some, Option.some.injEq,
    exists_eq_left']
  by_cases hstate : p.isStateEvent = true
  · simp only [hstate, if_true, mem_setEntry, hmemPart, true_imp_iff]
    cases hrejected : p.isRejected with
    | false =>
      have hown : p.own = [p.entry] := by simp [StateAtEvent.own, hstate, hrejected]
      simp only [hsame, hown, mem_singleton, forall_eq, Bool.false_eq_true, false_imp_iff, and_true]
      constructor
      · intro h
        refine ⟨((h _).mp (.inl rfl)).2, fun x hx hne hchosen => ((h x).mp (.inr ⟨⟨hchosen, hx⟩, hne⟩)).2⟩
      · rintro ⟨hown, hrest⟩ x
        constructor
        · rintro (rfl | ⟨⟨hchosen, hx⟩, hne⟩)
          · exact ⟨.inl rfl, hown⟩
          · exact ⟨.inr ⟨hx, hne⟩, hrest x hx hne hchosen⟩
        · rintro ⟨rfl | ⟨hx, hne⟩, hx'⟩
          · exact .inl rfl
          · exact .inr ⟨⟨hasked x hx hx', hx⟩, hne⟩
    | true =>
      have hown : p.own = [] := by simp [StateAtEvent.own, hrejected]
      simp only [hsame, hown, not_mem_nil, false_or, false_imp_iff, implies_true, and_true, true_imp_iff]
      constructor
      · intro h
        have hentry := (h _).mp (.inl rfl)
        exact ⟨⟨hentry.2, hentry.1⟩, fun x hx hne hchosen => ((h x).mp (.inr ⟨⟨hchosen, hx⟩, hne⟩)).2⟩
      · rintro ⟨⟨hown, hin⟩, hrest⟩ x
        constructor
        · rintro (rfl | ⟨⟨hchosen, hx⟩, hne⟩)
          · exact ⟨hin, hown⟩
          · exact ⟨hx, hrest x hx hne hchosen⟩
        · rintro ⟨hx, hx'⟩
          by_cases hk : x.tuple = p.entry.tuple
          · exact .inl (eq_of_tuple hsorted hx hin hk)
          · exact .inr ⟨⟨hasked x hx hx', hx⟩, hk⟩
  · have hown : p.own = [] := by simp [StateAtEvent.own, hstate]
    simp only [hstate, Bool.false_eq_true, if_false, hmemPart, hsame, hown, not_mem_nil, false_or, false_imp_iff,
      implies_true, and_true, true_and, true_imp_iff]
    constructor
    · intro h x hx hchosen
      exact ((h x).mp ⟨hchosen, hx⟩).2
    · intro h x
      exact ⟨fun hx => ⟨hx.2, h x hx.2 hx.1⟩, fun hx => ⟨hasked x hx.1 hx.2, hx.1⟩⟩

/-! ### After several events -/

/-- A previous event whose state is stored, and it too if it is a state event. -/
structure Placed (events : Events) (t : Snapshots) (p : StateAtEvent) : Prop where
  snapshot : ∃ nids, t.snapshots.find p.beforeStateSnapshotNID = some nids
  stored : p.isStateEvent = true → events p.entry.eventNID = some p.entry.tuple

/-- Resolution gives one stored event for each tuple, if it is given stored events. -/
def Resolves (events : Events) (resolve : Resolve) : Prop :=
  ∀ notConflicted conflicted out, (∀ x ∈ notConflicted ++ conflicted, events x.eventNID = some x.tuple) →
    resolve notConflicted conflicted = some out → Stated events out

theorem combined_stored (ht : t.Sound) (hplaced : ∀ p ∈ prevStates, Placed events t p) :
    ∃ l, loadCombinedStateAfterEvents events t prevStates = some l ∧ ∀ x ∈ l, events x.eventNID = some x.tuple := by
  induction prevStates with
  | nil => exact ⟨[], rfl, by simp⟩
  | cons p ps ih =>
    have hp := hplaced p mem_cons_self
    obtain ⟨nids, hnids⟩ := hp.snapshot
    obtain ⟨fullState, hfull, -, hmem⟩ := stateAfterEvent_spec ht hnids events
    obtain ⟨l, hl, hstored⟩ := ih fun q hq => hplaced q (mem_cons_of_mem _ hq)
    refine ⟨fullState ++ l, by simp [loadCombinedStateAfterEvents, hfull, hl], fun x hx => ?_⟩
    obtain hx | hx := mem_append.mp hx
    · obtain hown | ⟨hentry, -⟩ := or_own_eq_some.mp ((hmem x).mp hx)
      · obtain ⟨hstate, -, rfl⟩ := mem_own.mp hown
        exact hp.stored hstate
      · exact stored_of_entryAt hentry
    · exact hstored x hx

theorem calculated_stated (ht : t.Sound) (hplaced : ∀ p ∈ prevStates, Placed events t p) (hresolve : Resolves events resolve)
    (hfull : calculateStateAfterManyEvents events resolve t prevStates = some full) : Stated events full := by
  obtain ⟨l, hl, hstored⟩ := combined_stored ht hplaced
  have hmem : ∀ x, x ∈ normalize id l ↔ x ∈ l := fun x => mem_normalize_keys
  rw [calculateStateAfterManyEvents, hl, Option.bind_some, resolveCombined] at hfull
  split at hfull
  · rename_i hnone
    cases hfull
    refine ⟨fun x hx => hstored x ((hmem x).mp hx), fun x hx y hy hk => ?_⟩
    by_contra hne
    apply filter_eq_nil_iff.mp hnone x hx
    exact any_eq_true.mpr ⟨y, hy, by simp [hk, Ne.symm hne]⟩
  · refine hresolve _ _ _ (fun x hx => ?_) hfull
    rcases mem_append.mp hx with hx | hx <;> exact hstored x ((hmem x).mp (mem_filter.mp hx).1)

theorem several_exact (names : Names events) (tuples : List (String × String)) (ht : t.Sound)
    (hplaced : ∀ p ∈ prevStates, Placed events t p) (hresolve : Resolves events resolve)
    (hsingle : ∀ p, prevStates ≠ [p]) (hfull : calculateStateAfterManyEvents events resolve t prevStates = some full) :
    ∃ l, loadStateAfterEventsForStringTuples names resolve t prevStates tuples = some l ∧
      ∀ x, x ∈ l ↔ x ∈ full ∧ Asked names tuples x.tuple := by
  have hstated := calculated_stated ht hplaced hresolve hfull
  have hload : loadStateAfterEventsForStringTuples names resolve t prevStates tuples =
      some (((stringTuplesToNumericTuples names tuples).filterMap fun k =>
        (full.insertionSort (· ≤ ·)).find? (·.tuple = k)).insertionSort (· ≤ ·)) := by
    unfold loadStateAfterEventsForStringTuples loadStateAfterEventsForNumericTuples
    split
    · exact absurd rfl (hsingle _)
    · rw [hfull, Option.map_some]
  refine ⟨_, hload, fun x => ?_⟩
  rw [mem_insertionSort, mem_filterMap]
  constructor
  · rintro ⟨k, hk, hfind⟩
    have hx := (mem_insertionSort _).mp (mem_of_find?_eq_some hfind)
    have htuple : x.tuple = k := by simpa using find?_some hfind
    exact ⟨hx, (mem_numericTuples (hstated.stored x hx)).mp (htuple ▸ hk)⟩
  · rintro ⟨hx, hx'⟩
    refine ⟨x.tuple, (mem_numericTuples (hstated.stored x hx)).mpr hx', ?_⟩
    cases hfind : (full.insertionSort (· ≤ ·)).find? (·.tuple = x.tuple) with
    | none => simpa using find?_eq_none.mp hfind x ((mem_insertionSort _).mpr hx)
    | some y =>
      have hy := (mem_insertionSort _).mp (mem_of_find?_eq_some hfind)
      have htuple : y.tuple = x.tuple := by simpa using find?_some hfind
      rw [hstated.distinct y hy x hx htuple]

/-- Loading some tuples of a snapshot gives the part of the full state that is asked for, exactly if what their numbers
choose was asked for. After events it does too, but for a single one whose own entry counts as well. -/
theorem restricted_state_exact_iff {calls : List (List StateBlockNID × List StateEntry)} (hr : Run (Add events) .empty calls t)
    (hresolve : Resolves events resolve) (names : Names events) (tuples : List (String × String)) :
    (∀ s, (t.snapshots.find s).isSome → ∃ full l, t.loadStateAtSnapshot events s = some full ∧
      loadStateAtSnapshotForStringTuples names t s tuples = some l ∧
      ((∀ x, x ∈ l ↔ x ∈ full ∧ Asked names tuples x.tuple) ↔
        ∀ x ∈ full, chosen (stringTuplesToNumericTuples names tuples) x.tuple = true → Asked names tuples x.tuple)) ∧
    ∀ prevStates full, (∀ p ∈ prevStates, Placed events t p) →
      calculateStateAfterManyEvents events resolve t prevStates = some full →
      ∃ l, loadStateAfterEventsForStringTuples names resolve t prevStates tuples = some l ∧
        ((∀ x, x ∈ l ↔ x ∈ full ∧ Asked names tuples x.tuple) ↔ Restricts names t prevStates tuples) := by
  have ht := run_sound hr
  refine ⟨fun s hs => ?_, fun prevStates full hplaced hfull => ?_⟩
  · obtain ⟨nids, hnids⟩ := Option.isSome_iff_exists.mp hs
    exact snapshot_exact_iff ht hnids
  · by_cases hsingle : ∃ p, prevStates = [p]
    · obtain ⟨p, rfl⟩ := hsingle
      obtain ⟨nids, hnids⟩ := (hplaced p mem_cons_self).snapshot
      exact single_exact_iff ht hnids hfull
    · obtain ⟨l, hl, hexact⟩ := several_exact names tuples ht hplaced hresolve (fun p hp => hsingle ⟨p, hp⟩) hfull
      refine ⟨l, hl, fun _ p before hp => absurd ⟨p, hp⟩ hsingle, fun _ => hexact⟩

def memberEvents : Events := fun nid => [none, some ⟨5, 2⟩, some ⟨5, 3⟩, some ⟨6, 2⟩, some ⟨6, 3⟩].getD nid none

def memberNames : Names memberEvents where
  types := ⟨[(5, "m.room.member"), (6, "io.dirextalk.member.policy")], 7, by decide, by decide, by decide⟩
  stateKeys := ⟨[(2, "@a:home"), (3, "@b:home")], 4, by decide, by decide, by decide⟩
  named := by
    intro nid k h
    match nid, h with
    | 1, h | 2, h | 3, h | 4, h =>
      cases h
      decide
    | 0, h => cases h
    | _ + 5, h => cases h

def memberState : List StateEntry := [⟨⟨5, 2⟩, 1⟩, ⟨⟨5, 3⟩, 2⟩, ⟨⟨6, 2⟩, 3⟩]

theorem memberState_built : Run (Add memberEvents) .empty [([], memberState)] (built [([], memberState)]) :=
  .single ⟨by simp, ⟨by decide, by decide⟩, 1, rfl⟩

theorem sample_restricted : ∃ full l, (built [([], memberState)]).loadStateAtSnapshot memberEvents 1 = some full ∧
      loadStateAtSnapshotForStringTuples memberNames (built [([], memberState)]) 1 [("m.room.member", "@a:home")] = some l ∧
      ∀ x, x ∈ l ↔ x ∈ full ∧ Asked memberNames [("m.room.member", "@a:home")] x.tuple := by
  have hresolve : Resolves memberEvents fun _ _ => none := fun _ _ _ _ h => by cases h
  obtain ⟨full, l, hfull, hl, hexact⟩ :=
    (restricted_state_exact_iff memberState_built hresolve memberNames [("m.room.member", "@a:home")]).1 1 rfl
  refine ⟨full, l, hfull, hl, hexact.mpr fun x hx hchosen => ?_⟩
  have hstate : (built [([], memberState)]).loadStateAtSnapshot memberEvents 1 = some memberState := by decide
  cases hstate.symm.trans hfull
  exact (by decide : ∀ x ∈ memberState, chosen _ x.tuple = true → Asked memberNames [("m.room.member", "@a:home")] x.tuple)
    x hx hchosen

/-- One member and the policy of the other are asked for: both members are returned. With no known tuple everything is. And
after a rejected event its entry is, which was not asked for. -/
theorem restricted_too_much : Run (Add memberEvents) .empty [([], memberState)] (built [([], memberState)]) ∧
    loadStateAtSnapshotForStringTuples memberNames (built [([], memberState)]) 1
      [("m.room.member", "@b:home"), ("io.dirextalk.member.policy", "@a:home")] = some memberState ∧
    loadStateAtSnapshotForStringTuples memberNames (built [([], memberState)]) 1 [("m.room.topic", "")] = some memberState ∧
    loadStateAfterEventsForStringTuples memberNames (fun _ _ => none) (built [([], memberState)]) [⟨1, true, ⟨⟨6, 3⟩, 4⟩⟩]
      [("m.room.member", "@a:home")] = some [⟨⟨5, 2⟩, 1⟩, ⟨⟨6, 3⟩, 4⟩] :=
  ⟨memberState_built, by decide, by decide, by decide⟩

end Dirextalk.Roomserver

/-
  Dirextalk.Roomserver.Snapshots — how the state of a room is stored
  (`roomserver/storage/shared/storage.go`: `addState`, `stateEntries`, `stateEntriesForTuples`;
  `roomserver/storage/postgres/state_block_table.go`, `state_snapshot_table.go`,
  `events_table.go`: `BulkSelectStateEventByNID`; `roomserver/state/state.go`:
  `LoadStateAtSnapshot`, `loadStateAtSnapshotForNumericTuples`).

  A snapshot is a sorted list of blocks and a block a sorted list of events; of two blocks
  with an event for the same tuple the one with the larger number counts. `AddState` puts
  entries in a new block behind those of a snapshot, but leaves out events that some block
  holds already, and a block with the events of an older one is that older one.

  Loading the new snapshot should give the entries that were added and, at other tuples, what
  the old one gave. It does not (`added_entry_lost`).

  Proved (`added_state_exact_iff`): in every store that calls of `AddState` build, the new
  snapshot gives what it should just when the entries fit (`Fits`).

  The events table gives each stored event its type and state key, which never change.
-/
import Mathlib.Data.Prod.Lex
import Dirextalk.Lib.Interned
import Dirextalk.Lib.Run

namespace Dirextalk.Roomserver

open Lib List
open Option (map_some none_or some_or)

abbrev EventNID := Nat
abbrev StateBlockNID := Nat
abbrev StateSnapshotNID := Nat

structure StateKeyTuple where
  eventTypeNID : Nat
  eventStateKeyNID : Nat

/-- `StateKeyTuple.LessThan`: by type, then by state key. -/
instance : LinearOrder StateKeyTuple :=
  LinearOrder.lift' (fun k => toLex (k.eventTypeNID, k.eventStateKeyNID)) (by rintro ⟨⟩ ⟨⟩ h; cases h; rfl)

structure StateEntry where
  tuple : StateKeyTuple
  eventNID : EventNID
  deriving DecidableEq

open StateEntry (tuple)

/-- `roomserver_events`: the type and state key of each stored event. -/
abbrev Events := EventNID → Option StateKeyTuple

structure Snapshots where
  blocks : Interned (List EventNID)
  snapshots : Interned (List StateBlockNID)

/-! ## Reading -/

/-- Types and state keys are looked for apart, and an empty list chooses everything. -/
def chosen (tuples : List StateKeyTuple) (k : StateKeyTuple) : Bool :=
  (tuples.isEmpty || tuples.any (·.eventTypeNID == k.eventTypeNID)) &&
    (tuples.isEmpty || tuples.any (·.eventStateKeyNID == k.eventStateKeyNID))

def bulkSelectStateEventByNID (events : Events) (nids : List EventNID) (tuples : List StateKeyTuple) : List StateEntry :=
  ((nids.filterMap fun nid => (events nid).map (⟨·, nid⟩)).filter (chosen tuples <| ·.tuple)).insertionSort (·.tuple ≤ ·.tuple)

namespace Snapshots

def empty : Snapshots := ⟨.empty, .empty⟩

section

variable (t : Snapshots) (nids : List StateBlockNID)

def bulkSelectStateBlockEntries : Option (List (List EventNID)) :=
  let rows := t.blocks.select nids
  if rows.length = nids.length then some (rows.map (·.2)) else none

def stateEntriesForTuples (events : Events) (t : Snapshots) (nids : List StateBlockNID) (tuples : List StateKeyTuple) :
    Option (List (List StateEntry)) :=
  (t.bulkSelectStateBlockEntries nids).map (·.map (bulkSelectStateEventByNID events · tuples))

def loadStateAtSnapshotForNumericTuples (events : Events) (t : Snapshots) (stateNID : StateSnapshotNID)
    (tuples : List StateKeyTuple) : Option (List StateEntry) := do
  let nids ← t.snapshots.find stateNID
  let lists ← t.stateEntriesForTuples events nids tuples
  return normalize tuple lists.flatten

def loadStateAtSnapshot (events : Events) (t : Snapshots) (stateNID : StateSnapshotNID) : Option (List StateEntry) :=
  t.loadStateAtSnapshotForNumericTuples events stateNID []

/-! ## Writing -/

def eventNIDsOf (entries : List StateEntry) : List EventNID := (normalize StateEntry.eventNID entries).map (·.eventNID)

def bulkInsertStateData (t : Snapshots) (entries : List StateEntry) : StateBlockNID × Snapshots :=
  let r := t.blocks.insert (eventNIDsOf entries)
  (r.1, { t with blocks := r.2 })

def insertState : StateSnapshotNID × Snapshots :=
  let r := t.snapshots.insert (normalize id nids)
  (r.1, { t with snapshots := r.2 })

def newEntries (state : List StateEntry) : Option (List StateEntry) :=
  if nids = [] ∨ state = [] then some state
  else (t.bulkSelectStateBlockEntries nids).map fun blocks => state.filter fun x => !blocks.any (x.eventNID ∈ ·)

def addState (state : List StateEntry) : Option (StateSnapshotNID × Snapshots) :=
  (t.newEntries nids state).map fun state =>
    if state = [] then t.insertState nids
    else
      let r := t.bulkInsertStateData state
      r.2.insertState (nids ++ [r.1])

end

/-! ## What counts -/

variable {events : Events} {t t' : Snapshots} {nids : List StateBlockNID} {n m : Nat} {k : StateKeyTuple}
  {tuples : List StateKeyTuple} {x y : StateEntry} {e l : List StateEntry}

def blockEntries (events : Events) (t : Snapshots) (tuples : List StateKeyTuple) (n : StateBlockNID) : List StateEntry :=
  bulkSelectStateEventByNID events ((t.blocks.find n).getD []) tuples

/-- The entry of a list of blocks at a tuple. -/
def entryAt (events : Events) (t : Snapshots) (nids : List StateBlockNID) (k : StateKeyTuple) : Option StateEntry :=
  latest tuple (nids.flatMap (t.blockEntries events [])) k

structure Known (t : Snapshots) (nids : List StateBlockNID) : Prop where
  sorted : nids.Pairwise (· < ·)
  stored : ∀ n ∈ nids, (t.blocks.find n).isSome

def Sound (t : Snapshots) : Prop := ∀ n nids, t.snapshots.find n = some nids → t.Known nids

structure Grows (t t' : Snapshots) : Prop where
  blocks : ∀ n b, t.blocks.find n = some b → t'.blocks.find n = some b
  snapshots : ∀ n s, t.snapshots.find n = some s → t'.snapshots.find n = some s

theorem chosen_nil : chosen [] k = true := rfl

theorem latest_bulkSelect : latest tuple (bulkSelectStateEventByNID events nids tuples) k =
      if chosen tuples k then latest tuple (bulkSelectStateEventByNID events nids []) k else none := by
  unfold bulkSelectStateEventByNID
  rw [latest_insertionSort tuple, latest_insertionSort tuple, latest_filter (chosen tuples),
    latest_filter (chosen []), chosen_nil, if_pos rfl]

theorem mem_bulkSelect :
    x ∈ bulkSelectStateEventByNID events nids [] ↔ x.eventNID ∈ nids ∧ events x.eventNID = some x.tuple := by
  simp only [bulkSelectStateEventByNID, mem_insertionSort, mem_filter, chosen_nil, and_true, mem_filterMap,
    Option.map_eq_some_iff]
  constructor
  · rintro ⟨nid, hnid, k, hk, rfl⟩
    exact ⟨hnid, hk⟩
  · rintro ⟨hnid, hk⟩
    exact ⟨x.eventNID, hnid, x.tuple, hk, rfl⟩

theorem Known.select (h : t.Known nids) :
    t.bulkSelectStateBlockEntries nids = some (nids.map fun n => (t.blocks.find n).getD []) := by
  unfold bulkSelectStateBlockEntries
  rw [t.blocks.select_eq h.sorted h.stored]
  simp [Function.comp_def, default]

theorem Known.stateEntries (h : t.Known nids) :
    t.stateEntriesForTuples events nids tuples = some (nids.map (t.blockEntries events tuples)) := by
  rw [stateEntriesForTuples, h.select, map_some, map_map]
  rfl

theorem entryAt_chosen : latest tuple (nids.flatMap (t.blockEntries events tuples)) k =
    if chosen tuples k then t.entryAt events nids k else none := by
  split
  · rename_i hchosen
    apply latest_flatMap_congr
    intro n _
    rw [blockEntries, latest_bulkSelect, if_pos hchosen]
    rfl
  · rename_i hnot
    rw [latest_eq_none]
    intro x hx hk
    obtain ⟨n, -, hx⟩ := mem_flatMap.mp hx
    have hnone : latest tuple (t.blockEntries events tuples n) k = none := by rw [blockEntries, latest_bulkSelect, if_neg hnot]
    exact latest_eq_none.mp hnone x hx hk

theorem Known.load_eq (h : t.Known nids) (hfind : t.snapshots.find n = some nids) :
    t.loadStateAtSnapshotForNumericTuples events n tuples =
      some (normalize tuple (nids.flatMap (t.blockEntries events tuples))) := by
  simp only [loadStateAtSnapshotForNumericTuples, hfind, h.stateEntries, Option.bind_eq_bind, Option.bind_some, flatMap_def]
  rfl

/-- What is loaded are the entries that count and were chosen, in the order of their tuples. -/
theorem Known.load (h : t.Known nids) (events : Events) (tuples : List StateKeyTuple) (hfind : t.snapshots.find n = some nids) :
    ∃ l, t.loadStateAtSnapshotForNumericTuples events n tuples = some l ∧ l.Pairwise (·.tuple < ·.tuple) ∧
      ∀ x, x ∈ l ↔ chosen tuples x.tuple ∧ t.entryAt events nids x.tuple = some x := by
  refine ⟨_, h.load_eq hfind, normalize_sorted, fun x => ?_⟩
  rw [mem_normalize, entryAt_chosen]
  by_cases hchosen : chosen tuples x.tuple <;> simp [hchosen]

/-! ## What is added -/

def occurs (t : Snapshots) (nids : List StateBlockNID) (eventNID : EventNID) : Bool :=
  nids.any fun n => eventNID ∈ (t.blocks.find n).getD []

/-- The entries that go into a new block. -/
def kept (t : Snapshots) (nids : List StateBlockNID) (state : List StateEntry) : List StateEntry :=
  state.filter fun x => !t.occurs nids x.eventNID

/-- The block of the new entries is an older one, and a block behind it has an entry at the tuple. -/
def Overridden (events : Events) (t : Snapshots) (nids : List StateBlockNID) (e : List StateEntry) (k : StateKeyTuple) : Prop :=
  ∃ r ∈ t.blocks.rows, r.2 = eventNIDsOf (t.kept nids e) ∧ ∃ m ∈ nids, r.1 < m ∧ ∃ y ∈ t.blockEntries events [] m, y.tuple = k

/-- What is added is effective already or goes behind every block with an entry at its tuple. -/
def Fits (events : Events) (t : Snapshots) (nids : List StateBlockNID) (e : List StateEntry) : Prop :=
  (∀ x ∈ e, t.occurs nids x.eventNID = true → t.entryAt events nids x.tuple = some x) ∧
    ∀ x ∈ t.kept nids e, ¬Overridden events t nids e x.tuple

instance : Decidable (Overridden events t nids e k) := inferInstanceAs (Decidable (∃ _ ∈ _, _ ∧ _))

instance : Decidable (Fits events t nids e) := inferInstanceAs (Decidable (_ ∧ _))

structure Stated (events : Events) (e : List StateEntry) : Prop where
  stored : ∀ x ∈ e, events x.eventNID = some x.tuple
  distinct : ∀ x ∈ e, ∀ y ∈ e, x.tuple = y.tuple → x = y

section

variable (h : Stated events e)
include h

theorem Stated.filter (p : StateEntry → Bool) : Stated events (e.filter p) where
  stored x hx := h.stored x (mem_filter.mp hx).1
  distinct x hx y hy := h.distinct x (mem_filter.mp hx).1 y (mem_filter.mp hy).1

theorem Stated.kept : Stated events (t.kept nids e) := h.filter _

theorem Stated.same (hx : x ∈ e) (hy : y ∈ e) (heq : x.eventNID = y.eventNID) : x = y := by
  have htuple := (h.stored x hx).symm.trans ((congrArg events heq).trans (h.stored y hy))
  exact h.distinct x hx y hy (Option.some.inj htuple)

theorem Stated.at : latest tuple e k = some x ↔ x ∈ e ∧ x.tuple = k := by
  constructor
  · exact of_latest
  · rintro ⟨hx, rfl⟩
    exact latest_of_mem (fun y hy hk => h.distinct y hy x hx hk) hx

/-- A block holds the entries it was made of. -/
theorem Stated.block : latest tuple (bulkSelectStateEventByNID events (eventNIDsOf e) []) k = latest tuple e k := by
  have hmem : ∀ x, x ∈ bulkSelectStateEventByNID events (eventNIDsOf e) [] ↔ x ∈ e := by
    intro x
    have hsame : ∀ a ∈ e, ∀ b ∈ e, a.eventNID = b.eventNID → a = b := fun a ha b hb => h.same ha hb
    rw [mem_bulkSelect, eventNIDsOf, mem_map]
    constructor
    · rintro ⟨⟨y, hy, heq⟩, hstored⟩
      have hy := (mem_normalize_of_distinct hsame).mp hy
      have htuple := (h.stored y hy).symm.trans ((congrArg events heq).trans hstored)
      obtain ⟨ky, ny⟩ := y
      obtain ⟨kx, nx⟩ := x
      cases heq
      cases htuple
      exact hy
    · intro hx
      exact ⟨⟨x, (mem_normalize_of_distinct hsame).mpr hx, rfl⟩, h.stored x hx⟩
  apply Option.ext
  intro x
  rw [h.at]
  constructor
  · intro hx
    exact ⟨(hmem x).mp (of_latest hx).1, (of_latest hx).2⟩
  · rintro ⟨hx, rfl⟩
    exact latest_of_mem (fun y hy hk => h.distinct y ((hmem y).mp hy) x hx hk) ((hmem x).mpr hx)

end

theorem Known.newEntries (h : t.Known nids) : t.newEntries nids e = some (t.kept nids e) := by
  unfold Snapshots.newEntries kept occurs
  split
  · rename_i hempty
    obtain rfl | rfl := hempty
    · simp
    · rfl
  · rw [h.select, map_some]
    simp only [any_map, Function.comp_def]

theorem entryAt_append :
    t.entryAt events (nids ++ nids') k = (t.entryAt events nids' k).or (t.entryAt events nids k) := by
  rw [entryAt, flatMap_append, latest_append]
  rfl

theorem entryAt_cons :
    t.entryAt events (n :: nids) k = (t.entryAt events nids k).or (latest tuple (t.blockEntries events [] n) k) := by
  rw [entryAt, flatMap_cons, latest_append]
  rfl

theorem Grows.blockEntries (h : t.Grows t') (hstored : ∀ n ∈ nids, (t.blocks.find n).isSome) :
    nids.flatMap (t'.blockEntries events tuples) = nids.flatMap (t.blockEntries events tuples) := by
  apply flatMap_congr
  intro n hn
  obtain ⟨b, hb⟩ := Option.isSome_iff_exists.mp (hstored n hn)
  rw [Snapshots.blockEntries, Snapshots.blockEntries, h.blocks n b hb, hb]

theorem Grows.entryAt (h : t.Grows t') (hstored : ∀ n ∈ nids, (t.blocks.find n).isSome) :
    t'.entryAt events nids k = t.entryAt events nids k := by
  rw [Snapshots.entryAt, h.blockEntries hstored]
  rfl

theorem Grows.known (h : t.Grows t') (hknown : t.Known nids) : t'.Known nids where
  sorted := hknown.sorted
  stored n hn := by
    obtain ⟨b, hb⟩ := Option.isSome_iff_exists.mp (hknown.stored n hn)
    rw [h.blocks n b hb]
    rfl

theorem Grows.refl : t.Grows t := ⟨fun _ _ h => h, fun _ _ h => h⟩

theorem Grows.trans (h : t.Grows t') (h' : t'.Grows u) : t.Grows u :=
  ⟨fun n b hb => h'.blocks n b (h.blocks n b hb), fun n s hs => h'.snapshots n s (h.snapshots n s hs)⟩

theorem insertState_grows : t.Grows (t.insertState nids).2 := ⟨fun _ _ h => h, fun _ _ h => Interned.find_insert h _⟩

theorem known_normalize (h : ∀ n ∈ nids, (t.blocks.find n).isSome) : t.Known (normalize id nids) where
  sorted := normalize_sorted
  stored n hn := h n (mem_normalize_keys.mp hn)

theorem insertState_sound (ht : t.Sound) (h : ∀ n ∈ nids, (t.blocks.find n).isSome) : (t.insertState nids).2.Sound := by
  intro n s hs
  obtain hold | ⟨-, rfl⟩ := Interned.of_find_insert hs
  · exact ⟨(ht n s hold).sorted, (ht n s hold).stored⟩
  · exact ⟨normalize_sorted, (known_normalize h).stored⟩

theorem bulkInsert_grows : t.Grows (t.bulkInsertStateData e).2 := ⟨fun _ _ h => Interned.find_insert h _, fun _ _ h => h⟩

theorem find_bulkInsert : (t.bulkInsertStateData e).2.blocks.find (t.bulkInsertStateData e).1 = some (eventNIDsOf e) :=
  t.blocks.find_insert_self _

theorem find_insertState : (t.insertState nids).2.snapshots.find (t.insertState nids).1 = some (normalize id nids) :=
  t.snapshots.find_insert_self _

theorem bulkInsert_stored (h : ∀ n ∈ nids, (t.blocks.find n).isSome) :
    ∀ n ∈ nids ++ [(t.bulkInsertStateData e).1], ((t.bulkInsertStateData e).2.blocks.find n).isSome := by
  intro n hn
  obtain hn | hn := mem_append.mp hn
  · obtain ⟨b, hb⟩ := Option.isSome_iff_exists.mp (h n hn)
    rw [bulkInsert_grows.blocks n b hb]
    rfl
  · rw [mem_singleton.mp hn, find_bulkInsert]
    rfl

theorem addState_sound (ht : t.Sound) (h : ∀ n ∈ nids, (t.blocks.find n).isSome) (hadd : t.addState nids e = some (n, t')) :
    t'.Sound := by
  obtain ⟨l, -, hl⟩ := Option.map_eq_some_iff.mp hadd
  split at hl
  · have hsound := insertState_sound ht h
    rwa [hl] at hsound
  · have hsound := insertState_sound (fun n s hs => bulkInsert_grows.known (ht n s hs)) (bulkInsert_stored (e := l) h)
    rwa [hl] at hsound

theorem addState_grows (hadd : t.addState nids e = some (n, t')) : t.Grows t' := by
  obtain ⟨l, -, hl⟩ := Option.map_eq_some_iff.mp hadd
  split at hl
  · have hgrows : t.Grows (t.insertState nids).2 := insertState_grows
    rwa [hl] at hgrows
  · have hgrows : t.Grows ((t.bulkInsertStateData l).2.insertState (nids ++ [(t.bulkInsertStateData l).1])).2 :=
      bulkInsert_grows.trans insertState_grows
    rwa [hl] at hgrows

/-- Adding a block to others. -/
theorem insert_block (h : t.Known nids) (he : Stated events e) (hkept : t.kept nids e ≠ []) :
    let r := t.bulkInsertStateData (t.kept nids e)
    r.1 ∉ nids ∧ ∀ k, Overridden events t nids e k ↔ t.entryAt events (nids.filter (r.1 < ·)) k ≠ none := by
  intro r
  have hnumber := t.blocks.insert_cases (eventNIDsOf (t.kept nids e))
  have hfresh : r.1 ∉ nids := by
    intro hmem
    obtain ⟨b, hb⟩ := Option.isSome_iff_exists.mp (h.stored _ hmem)
    obtain ⟨hfind, -⟩ | ⟨-, habove, -⟩ := hnumber
    · obtain ⟨x, hx⟩ := exists_mem_of_ne_nil _ hkept
      have hnew : t.occurs nids x.eventNID = false := by simpa using (mem_filter.mp hx).2
      have hheld : x.eventNID ∈ (t.blocks.find r.1).getD [] := by
        rw [show t.blocks.find r.1 = _ from hfind]
        exact mem_map.mpr ⟨x, (mem_normalize_of_distinct fun _ ha _ hb => he.kept.same ha hb).mpr hx, rfl⟩
      exact any_eq_false.mp hnew _ hmem (decide_eq_true hheld)
    · exact Nat.lt_irrefl _ (habove _ _ hb)
  refine ⟨hfresh, fun k => ?_⟩
  rw [Ne, entryAt, latest_eq_none]
  push Not
  constructor
  · rintro ⟨⟨n, b⟩, hn, rfl, m, hm, hlt, y, hy, rfl⟩
    have hn := Interned.find_eq_some.mpr hn
    obtain ⟨hfind, -⟩ | ⟨hnone, -⟩ := hnumber
    · simp only [Interned.find_inj hn hfind] at hlt
      exact ⟨y, mem_flatMap.mpr ⟨m, mem_filter.mpr ⟨hm, decide_eq_true hlt⟩, hy⟩, rfl⟩
    · exact absurd hn (hnone n)
  · rintro ⟨y, hy, rfl⟩
    obtain ⟨m, hm, hy⟩ := mem_flatMap.mp hy
    obtain ⟨hm, hlt⟩ := mem_filter.mp hm
    have hlt : r.1 < m := by simpa using hlt
    obtain ⟨hfind, -⟩ | ⟨-, habove, -⟩ := hnumber
    · exact ⟨_, Interned.find_eq_some.mp hfind, rfl, m, hm, hlt, y, hy, rfl⟩
    · obtain ⟨b, hb⟩ := Option.isSome_iff_exists.mp (h.stored m hm)
      exact absurd hlt (habove m b hb).not_gt

/-- What `AddState` does: the new entries count unless a later block overrides theirs. -/
theorem addState_spec (h : t.Known nids) (he : Stated events e) :
    ∃ n t' nids', t.addState nids e = some (n, t') ∧ t'.snapshots.find n = some nids' ∧
      ∀ k, (Overridden events t nids e k → t'.entryAt events nids' k = t.entryAt events nids k) ∧
        (¬Overridden events t nids e k →
          t'.entryAt events nids' k = (latest tuple (t.kept nids e) k).or (t.entryAt events nids k)) := by
  by_cases hkept : t.kept nids e = []
  · have hadd : t.addState nids e = some (t.insertState nids) := by rw [addState, h.newEntries, map_some, if_pos hkept]
    have hnids := normalize_sorted_keys h.sorted
    refine ⟨(t.insertState nids).1, (t.insertState nids).2, nids, hadd, ?_, fun k => ⟨fun _ => ?_, fun _ => ?_⟩⟩
    · rw [find_insertState, hnids]
    · exact insertState_grows.entryAt h.stored
    · rw [hkept, insertState_grows.entryAt h.stored]
      rfl
  · obtain ⟨hfresh, hover⟩ := insert_block h he hkept
    set r := t.bulkInsertStateData (t.kept nids e) with hr
    have hadd : t.addState nids e = some (r.2.insertState (nids ++ [r.1])) := by
      rw [addState, h.newEntries, map_some, if_neg hkept]
    have hnids := normalize_added_key h.sorted hfresh
    have hblock : r.2.blocks.find r.1 = some (eventNIDsOf (t.kept nids e)) := find_bulkInsert
    have hknown : r.2.Known (normalize id (nids ++ [r.1])) := known_normalize (bulkInsert_stored h.stored)
    have hentry : ∀ k, (r.2.insertState (nids ++ [r.1])).2.entryAt events (normalize id (nids ++ [r.1])) k =
        (t.entryAt events (nids.filter (r.1 < ·)) k).or
          ((latest tuple (t.kept nids e) k).or (t.entryAt events (nids.filter (· < r.1)) k)) := by
      intro k
      rw [insertState_grows.entryAt hknown.stored, hnids, entryAt_append, entryAt_cons, Option.or_assoc, blockEntries, hblock,
        Option.getD_some, he.kept.block, bulkInsert_grows.entryAt fun n hn => h.stored n (mem_filter.mp hn).1,
        bulkInsert_grows.entryAt fun n hn => h.stored n (mem_filter.mp hn).1]
    have hold : ∀ k, t.entryAt events nids k =
        (t.entryAt events (nids.filter (r.1 < ·)) k).or (t.entryAt events (nids.filter (· < r.1)) k) := by
      intro k
      rw [← entryAt_append, ← sorted_split h.sorted hfresh]
    refine ⟨_, (r.2.insertState (nids ++ [r.1])).2, _, hadd, find_insertState, fun k => ⟨fun h => ?_, fun h => ?_⟩⟩
    · obtain ⟨y, hy⟩ := Option.ne_none_iff_exists'.mp ((hover k).mp h)
      rw [hentry, hold, hy, some_or, some_or]
    · rw [hover, not_not] at h
      rw [hentry, hold, h, none_or, none_or]

/-- Entries that fit count, and nothing else changes. -/
theorem Fits.entryAt (hfits : Fits events t nids e) (he : Stated events e)
    (hover : Overridden events t nids e k → o = t.entryAt events nids k)
    (hnot : ¬Overridden events t nids e k → o = (latest tuple (t.kept nids e) k).or (t.entryAt events nids k)) :
    o = (latest tuple e k).or (t.entryAt events nids k) := by
  cases hk : latest tuple (t.kept nids e) k with
  | some x =>
    obtain ⟨hx, rfl⟩ := of_latest hk
    rw [hnot (hfits.2 x hx), hk, he.at.mpr ⟨(mem_filter.mp hx).1, rfl⟩]
  | none =>
    have ho : o = t.entryAt events nids k := by
      by_cases h : Overridden events t nids e k
      · exact hover h
      · rw [hnot h, hk, none_or]
    rw [ho]
    cases hx : latest tuple e k with
    | none => rfl
    | some x =>
      obtain ⟨hmem, rfl⟩ := of_latest hx
      have hoccurs : t.occurs nids x.eventNID = true := by
        by_contra hnew
        exact latest_eq_none.mp hk x (mem_filter.mpr ⟨hmem, by simpa using hnew⟩) rfl
      rw [hfits.1 x hmem hoccurs, some_or]

theorem Fits.load (hfits : Fits events t nids e) (ht : t.Sound) (h : t.Known nids) (he : Stated events e)
    (hadd : t.addState nids e = some (n, t')) :
    ∃ nids' state, t'.snapshots.find n = some nids' ∧ t'.loadStateAtSnapshot events n = some state ∧
      ∀ x, x ∈ state ↔ (latest tuple e x.tuple).or (t.entryAt events nids x.tuple) = some x := by
  obtain ⟨n', t'', nids', hadd', hn, hentry⟩ := addState_spec h he
  cases hadd.symm.trans hadd'
  obtain ⟨state, hstate, -, hmem⟩ := (addState_sound ht h.stored hadd n nids' hn).load events [] hn
  refine ⟨nids', state, hn, hstate, fun x => ?_⟩
  rw [hmem, chosen_nil, hfits.entryAt he (hentry x.tuple).1 (hentry x.tuple).2]
  simp

/-- Whose loaded state is as it should be, they fit. -/
theorem Fits.of_exact (he : Stated events e) {entry : StateKeyTuple → Option StateEntry}
    (hover : ∀ k, Overridden events t nids e k → entry k = t.entryAt events nids k)
    (hnot : ∀ k, ¬Overridden events t nids e k → entry k = (latest tuple (t.kept nids e) k).or (t.entryAt events nids k))
    (hexact : ∀ x ∈ e, entry x.tuple = some x) : Fits events t nids e := by
  refine ⟨fun x hx hoccurs => ?_, fun x hx hoverridden => ?_⟩
  · have hnone : latest tuple (t.kept nids e) x.tuple = none := by
      rw [latest_eq_none]
      intro y hy hk
      obtain ⟨hmem, hnew⟩ := mem_filter.mp hy
      rw [he.distinct y hmem x hx hk, hoccurs] at hnew
      cases hnew
    rw [← hexact x hx]
    by_cases h : Overridden events t nids e x.tuple
    · rw [hover _ h]
    · rw [hnot _ h, hnone, none_or]
  · obtain ⟨hmem, hnew⟩ := mem_filter.mp hx
    have hentry := (hover _ hoverridden).symm.trans (hexact x hmem)
    obtain ⟨n, hn, hblock⟩ := mem_flatMap.mp (of_latest hentry).1
    have hoccurs : t.occurs nids x.eventNID = true := any_eq_true.mpr ⟨n, hn, decide_eq_true (mem_bulkSelect.mp hblock).1⟩
    rw [hoccurs] at hnew
    cases hnew

/-! ## Stores that calls build -/

/-- A call of `AddState` on stored blocks for entries of stored events. -/
def Add (events : Events) (t : Snapshots) (call : List StateBlockNID × List StateEntry) (t' : Snapshots) : Prop :=
  (∀ n ∈ call.1, (t.blocks.find n).isSome) ∧ Stated events call.2 ∧ ∃ n, t.addState call.1 call.2 = some (n, t')

theorem Add.sound (hadd : Add events t call t') (ht : t.Sound) : t'.Sound := by
  obtain ⟨hstored, -, n, hadd⟩ := hadd
  exact addState_sound ht hstored hadd

theorem empty_sound : empty.Sound := fun n nids h => absurd h (by simp [empty, Interned.empty, Interned.find])

theorem run_sound (hr : Run (Add events) .empty calls t) : t.Sound :=
  hr.inv (fun _ _ _ ht hadd => hadd.sound ht) empty_sound

/-- Adding entries to a snapshot gives the state before with the entries at their tuples replaced, exactly if each
entry is effective already or goes behind every block with an entry at its tuple. -/
theorem added_state_exact_iff {calls : List (List StateBlockNID × List StateEntry)} {s : StateSnapshotNID}
    (hr : Run (Add events) .empty calls t) (hs : t.snapshots.find s = some nids) (he : Stated events e) :
    ∃ n t' before after, t.addState nids e = some (n, t') ∧ t.loadStateAtSnapshot events s = some before ∧
      t'.loadStateAtSnapshot events n = some after ∧
      ((∀ x, x ∈ after ↔ x ∈ e ∨ x ∈ before ∧ ∀ y ∈ e, y.tuple ≠ x.tuple) ↔ Fits events t nids e) := by
  have ht := run_sound hr
  have hknown := ht s nids hs
  obtain ⟨n, t', nids', hadd, hn, hentry⟩ := addState_spec hknown he
  obtain ⟨before, hbefore, -, hmem⟩ := hknown.load events [] hs
  obtain ⟨after, hafter, -, hmem'⟩ := (addState_sound ht hknown.stored hadd n nids' hn).load events [] hn
  refine ⟨n, t', before, after, hadd, hbefore, hafter, ?_⟩
  simp only [hmem, hmem', chosen_nil, true_and]
  constructor
  · intro hexact
    exact .of_exact he (fun k => (hentry k).1) (fun k => (hentry k).2) fun x hx => (hexact x).mpr (.inl hx)
  · intro hfits x
    rw [hfits.entryAt he (hentry x.tuple).1 (hentry x.tuple).2]
    cases hx : latest tuple e x.tuple with
    | none =>
      have hnone := latest_eq_none.mp hx
      rw [none_or]
      exact ⟨fun h => .inr ⟨h, hnone⟩, fun h => h.elim (fun h => absurd rfl (hnone x h)) And.left⟩
    | some y =>
      obtain ⟨hy, hk⟩ := of_latest hx
      rw [some_or, Option.some.injEq]
      constructor
      · rintro rfl
        exact .inl hy
      · rintro (h | ⟨-, hother⟩)
        · exact he.distinct y hy x h hk
        · exact absurd hk (hother y hy)

def topics : Events := fun nid => if nid ≤ 2 then some ⟨8, 1⟩ else if nid = 3 then some ⟨9, 1⟩ else none

def topic (nid : EventNID) : StateEntry := ⟨⟨8, 1⟩, nid⟩

def name : StateEntry := ⟨⟨9, 1⟩, 3⟩

def built (calls : List (List StateBlockNID × List StateEntry)) : Snapshots :=
  calls.foldl (fun t call => ((t.addState call.1 call.2).map (·.2)).getD t) .empty

theorem sample_added : ∃ n t' before after, (built [([], [topic 1])]).addState [1] [name] = some (n, t') ∧
      (built [([], [topic 1])]).loadStateAtSnapshot topics 1 = some before ∧ t'.loadStateAtSnapshot topics n = some after ∧
      ∀ x, x ∈ after ↔ x ∈ [name] ∨ x ∈ before ∧ ∀ y ∈ [name], y.tuple ≠ x.tuple := by
  have hstated : Stated topics [name] := ⟨by decide, by decide⟩
  have hr : Run (Add topics) .empty [([], [topic 1])] (built [([], [topic 1])]) :=
    .single ⟨by simp, ⟨by decide, by decide⟩, 1, rfl⟩
  have hfind : (built [([], [topic 1])]).snapshots.find 1 = some [1] := rfl
  obtain ⟨n, t', before, after, hadd, hbefore, hafter, hexact⟩ := added_state_exact_iff hr hfind hstated
  exact ⟨n, t', before, after, hadd, hbefore, hafter, hexact.mpr (by decide)⟩

/-- The first topic is added again behind the second one, whose block overrides it: it is left out. And where the
second topic is the state, the first one's block is an older one and stands before it. -/
theorem added_entry_lost :
    (Run (Add topics) .empty [([], [topic 1]), ([1], [topic 2])] (built [([], [topic 1]), ([1], [topic 2])]) ∧
      ∃ n t', (built [([], [topic 1]), ([1], [topic 2])]).addState [1, 2] [topic 1] = some (n, t') ∧
        t'.loadStateAtSnapshot topics n = some [topic 2]) ∧
    Run (Add topics) .empty [([], [topic 1]), ([], [topic 2])] (built [([], [topic 1]), ([], [topic 2])]) ∧
      ∃ n t', (built [([], [topic 1]), ([], [topic 2])]).addState [2] [topic 1] = some (n, t') ∧
        t'.loadStateAtSnapshot topics n = some [topic 2] := by
  have hfirst : Stated topics [topic 1] := ⟨by decide, by decide⟩
  have hsecond : Stated topics [topic 2] := ⟨by decide, by decide⟩
  refine ⟨⟨.cons ⟨by simp, hfirst, 1, rfl⟩ (.single ⟨by decide, hsecond, 2, rfl⟩), _, _, rfl, by decide⟩,
    .cons ⟨by simp, hfirst, 1, rfl⟩ (.single ⟨by simp, hsecond, 2, rfl⟩), _, _, rfl, by decide⟩

end Snapshots

end Dirextalk.Roomserver

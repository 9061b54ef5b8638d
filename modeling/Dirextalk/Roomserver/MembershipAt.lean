/-
  Dirextalk.Roomserver.MembershipAt — a user's membership at events
  (`roomserver/internal/query/query.go`: `QueryMembershipAtEvent`;
  `roomserver/storage/postgres/state_snapshot_table.go`:
  `BulkSelectMembershipForHistoryVisibility` and its query).

  The query joins each event with its snapshot, the blocks of the snapshot, and the user's
  member events in those blocks. Of the rows of one event the last counts, in whatever order
  the database returns them; no block overrides another. A row whose JSON cannot be read
  gives an empty event.

  The report should be the user's entry in the state before the event. It is not
  (`left_reported_joined`): a member event that a later block has replaced may come last.
-/
import Mathlib.Data.List.Dedup
import Dirextalk.Roomserver.Snapshots

namespace Dirextalk.Roomserver.MembershipAt

open Lib Snapshots List

/-- The events in the blocks of a snapshot. -/
def held (states : Snapshots) (snapshot : StateSnapshotNID) : List EventNID :=
  ((states.snapshots.find snapshot).getD []).flatMap fun n => (states.blocks.find n).getD []

structure Store where
  events : Events
  roomNID : EventNID → Nat
  stateSnapshotNID : EventNID → StateSnapshotNID
  eventNID : String → Option EventNID
  /-- `roomserver_event_json` has the event, and it can be parsed. -/
  readable : EventNID → Bool
  states : Snapshots
  sound : states.Sound
  /-- The state of an event is made of events of its room. -/
  oneRoom : ∀ e, ∀ nid ∈ held states (stateSnapshotNID e), roomNID nid = roomNID e

/-- `m.room.member` has the number 5. -/
def memberTuple (userNID : Nat) : StateKeyTuple := ⟨5, userNID⟩

namespace Store

variable (s : Store) (userNID roomNID : Nat)

/-- `bulkSelectMembershipForHistoryVisibilitySQL`: the event's id with a member event. -/
def bulkSelectMembership (eventIDs : List String) : List (String × EventNID) :=
  eventIDs.dedup.flatMap fun id =>
    ((s.eventNID id).elim [] fun e => held s.states (s.stateSnapshotNID e)).filter (fun nid =>
      s.roomNID nid = roomNID ∧ s.events nid = some (memberTuple userNID)) |>.map (id, ·)

/-- The map that the rows are folded into: by event id, an empty event or a member event. -/
def membershipOfRows (rows : List (String × EventNID)) (id : String) : Option (Option EventNID) :=
  (latest Prod.fst rows id).map fun row => if s.readable row.2 then some row.2 else none

/-- The user's entry in the state that is loaded from the event's snapshot. -/
def memberAt (id : String) : Option StateEntry := do
  let e ← s.eventNID id
  let state ← s.states.loadStateAtSnapshot s.events (s.stateSnapshotNID e)
  state.find? (·.tuple = memberTuple userNID)

end Store

/-- `QueryMembershipAtEvent`, given the rows as the database returns them. -/
def queryMembershipAtEvent (s : Store) (info stateKeyNID : Option Nat) (senderID : String)
    (rows : Nat → Nat → List (String × EventNID)) : Except String (String → Option (Option EventNID)) :=
  match info, stateKeyNID with
  | none, _ => throw "no roomInfo found"
  | _, none => throw s!"requested stateKeyNID for {senderID} was not found"
  | some roomNID, some userNID => return s.membershipOfRows (rows userNID roomNID)

namespace Store

variable {s : Store} {userNID roomNID : Nat} {eventIDs : List String} {id : String} {nid : EventNID}

/-- The user's member events in the blocks before an event. -/
def Holds (s : Store) (userNID : Nat) (id : String) (nid : EventNID) : Prop :=
  ∃ e, s.eventNID id = some e ∧ nid ∈ held s.states (s.stateSnapshotNID e) ∧ s.events nid = some (memberTuple userNID)

/-- One member event at most, which can be read, before an event of the room. -/
def Single (s : Store) (userNID roomNID : Nat) (id : String) : Prop :=
  ∀ nid, s.Holds userNID id nid → s.roomNID nid = roomNID ∧ s.readable nid = true ∧ ∀ nid', s.Holds userNID id nid' → nid' = nid

theorem mem_rows : (id, nid) ∈ s.bulkSelectMembership userNID roomNID eventIDs ↔
    id ∈ eventIDs ∧ s.Holds userNID id nid ∧ s.roomNID nid = roomNID := by
  simp only [bulkSelectMembership, mem_flatMap, mem_dedup, mem_map, mem_filter, Prod.mk.injEq, Holds]
  constructor
  · rintro ⟨_, hid, _, ⟨hheld, hrow⟩, rfl, rfl⟩
    cases he : s.eventNID _ with
    | none => simp [he] at hheld
    | some e => simp_all
  · rintro ⟨hid, ⟨e, he, hheld, hevent⟩, hroom⟩
    exact ⟨id, hid, nid, by simp [he, hheld, hevent, hroom], rfl, rfl⟩

theorem Holds.sameRoom {nid' : EventNID} (h : s.Holds userNID id nid) (h' : s.Holds userNID id nid') :
    s.roomNID nid' = s.roomNID nid := by
  obtain ⟨e, he, hheld, -⟩ := h
  obtain ⟨e', he', hheld', -⟩ := h'
  cases he.symm.trans he'
  rw [s.oneRoom e nid' hheld', s.oneRoom e nid hheld]

theorem memberAt_cases (s : Store) (userNID : Nat) (id : String) :
    (∃ x, s.memberAt userNID id = some x ∧ s.Holds userNID id x.eventNID) ∨
      s.memberAt userNID id = none ∧ ∀ nid, ¬ s.Holds userNID id nid := by
  unfold memberAt Holds held
  cases s.eventNID id with
  | none => simp
  | some e =>
    cases hnids : s.states.snapshots.find (s.stateSnapshotNID e) with
    | none => simp [hnids, loadStateAtSnapshot, loadStateAtSnapshotForNumericTuples]
    | some nids =>
      obtain ⟨l, hload, -, hmem⟩ := (s.sound _ nids hnids).load s.events [] hnids
      have hheld (x : StateEntry) : x ∈ nids.flatMap (s.states.blockEntries s.events []) ↔
          x.eventNID ∈ nids.flatMap (fun n => (s.states.blocks.find n).getD []) ∧ s.events x.eventNID = some x.tuple := by
        simp only [mem_flatMap, blockEntries, mem_bulkSelect]
        tauto
      simp only [loadStateAtSnapshot, hload, Option.bind_eq_bind, Option.bind_some, hnids, Option.getD_some, Option.some.injEq,
        exists_eq_left']
      cases hfind : l.find? (·.tuple = memberTuple userNID) with
      | some x =>
        have htuple : x.tuple = memberTuple userNID := by simpa using find?_some hfind
        have hcounts := ((hmem x).mp (mem_of_find?_eq_some hfind)).2
        exact .inl ⟨x, rfl, htuple ▸ (hheld x).mp (of_latest hcounts).1⟩
      | none =>
        refine .inr ⟨rfl, fun nid hnid => ?_⟩
        -- an event that is held is overridden, if at all, by another of the user's
        cases hentry : s.states.entryAt s.events nids (memberTuple userNID) with
        | none => exact latest_eq_none.mp hentry ⟨memberTuple userNID, nid⟩ ((hheld _).mpr hnid) rfl
        | some x =>
          have htuple := (of_latest hentry).2
          have hl := (hmem x).mpr ⟨chosen_nil, htuple ▸ hentry⟩
          simpa [htuple] using find?_eq_none.mp hfind x hl

end Store

/-- In whatever order the rows come, the query reports the user's entry in the
state before each event just when the blocks before it hold one member event of the user at most, which can be read
and is of the room. -/
theorem membership_at_event_iff (s : Store) (roomNID userNID : Nat) (senderID : String) (eventIDs : List String) :
    (∀ rows, rows.Perm (s.bulkSelectMembership userNID roomNID eventIDs) →
      ∃ result, queryMembershipAtEvent s (some roomNID) (some userNID) senderID (fun _ _ => rows) = .ok result ∧
        ∀ id ∈ eventIDs, result id = (s.memberAt userNID id).map (some ·.eventNID)) ↔
      ∀ id ∈ eventIDs, s.Single userNID roomNID id := by
  constructor
  · intro h id hid nid hnid
    obtain ⟨x, hx, hheld⟩ | ⟨-, hnone⟩ := s.memberAt_cases userNID id
    swap
    · exact absurd hnid (hnone nid)
    have hroom : s.roomNID nid = roomNID := by
      -- otherwise there is no row for the event
      obtain ⟨_, ⟨⟩, hresult⟩ := h _ (.refl _)
      have hreport := hresult id hid
      rw [hx] at hreport
      obtain ⟨row, hrow, -⟩ := Option.map_eq_some_iff.mp hreport
      obtain ⟨hmem, rfl⟩ := of_latest hrow
      obtain ⟨-, hother, hroom⟩ := Store.mem_rows.mp hmem
      rw [← hroom, hother.sameRoom hnid]
    -- any of the events that are held may come last
    have hlast (nid' : EventNID) (h' : s.Holds userNID id nid') : s.readable nid' = true ∧ nid' = x.eventNID := by
      have hmem := Store.mem_rows.mpr ⟨hid, h', (hnid.sameRoom h').trans hroom⟩
      obtain ⟨_, ⟨⟩, hresult⟩ := h _ ((perm_append_singleton _ _).trans (perm_cons_erase hmem).symm)
      have hreport := hresult id hid
      rw [Store.membershipOfRows, latest_append, latest_singleton, if_pos rfl, hx] at hreport
      by_cases hread : s.readable nid' <;> simp_all
    exact ⟨hroom, (hlast nid hnid).1, fun nid' h' => (hlast nid' h').2.trans (hlast nid hnid).2.symm⟩
  · intro h rows hperm
    refine ⟨_, rfl, fun id hid => ?_⟩
    have hrow {nid : EventNID} : (id, nid) ∈ rows ↔ s.Holds userNID id nid ∧ s.roomNID nid = roomNID := by
      rw [hperm.mem_iff, Store.mem_rows, and_iff_right hid]
    unfold Store.membershipOfRows
    obtain ⟨x, hx, hheld⟩ | ⟨hx, hnone⟩ := s.memberAt_cases userNID id
    · obtain ⟨hroom, hread, hsingle⟩ := h id hid _ hheld
      cases hlast : latest Prod.fst rows id with
      | none => exact absurd rfl (latest_eq_none.mp hlast _ (hrow.mpr ⟨hheld, hroom⟩))
      | some row =>
        obtain ⟨hmem, rfl⟩ := of_latest hlast
        have hrow := hsingle _ (hrow.mp hmem).1
        simp [hx, hrow, hread]
    · have hlast : latest Prod.fst rows id = none := by
        rw [latest_eq_none]
        rintro row hmem rfl
        exact hnone _ (hrow.mp hmem).1
      simp [hlast, hx]

def memberEvents : Events := fun nid => if nid ≤ 2 then some (memberTuple 7) else none

def member (nid : EventNID) : StateEntry := ⟨memberTuple 7, nid⟩

theorem member_stored : Run (Add memberEvents) .empty [([], [member 1]), ([1], [member 2])]
    (built [([], [member 1]), ([1], [member 2])]) := by
  have hjoin : Stated memberEvents [member 1] := ⟨by decide, by decide⟩
  have hleave : Stated memberEvents [member 2] := ⟨by decide, by decide⟩
  exact .cons ⟨by simp, hjoin, 1, rfl⟩ (.single ⟨by decide, hleave, 2, rfl⟩)

def leftStore : Store where
  events := memberEvents
  roomNID _ := 1
  stateSnapshotNID _ := 2
  eventNID id := if id = "$message" then some 3 else none
  readable _ := true
  states := built [([], [member 1]), ([1], [member 2])]
  sound := run_sound member_stored
  oneRoom _ _ _ := rfl

/-- The join that was replaced is reported if its row comes last. -/
theorem left_reported_joined : leftStore.memberAt 7 "$message" = some (member 2) ∧
      [("$message", 2), ("$message", 1)].Perm (leftStore.bulkSelectMembership 7 1 ["$message"]) ∧
      ∃ result, queryMembershipAtEvent leftStore (some 1) (some 7) "@a:s"
        (fun _ _ => [("$message", 2), ("$message", 1)]) = .ok result ∧ result "$message" = some (some 1) :=
  ⟨by decide, by decide, _, rfl, by decide⟩

end Dirextalk.Roomserver.MembershipAt

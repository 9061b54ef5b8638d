/-
  Dirextalk.Sync.Gaps — the backward extremities of the sync database.

  A write deletes the rows that wait for its event and puts a row for each previous event
  that has not been written; the event itself is there before the previous ones are looked
  up. `Tables.writeEvent` is what the transaction of a write leaves (`writeEvent_triple`).
-/
import Dirextalk.Sync.Acknowledged

namespace Dirextalk.Sync

open List Tables

/-- Events by their ids; previous events are of the same room. -/
structure EventGraph where
  roomID : String → String
  prevEventIDs : String → List String
  within : ∀ id, ∀ prev ∈ prevEventIDs id, roomID prev = roomID id

/-- The write of an event of the graph, live, old or backfilled, at the position it is given. -/
structure Write (G : EventGraph) where
  ev : Event
  added : List Event
  adds : List String
  removes : List String
  excludeFromSync : Bool
  pos : Int
  room : ev.roomID = G.roomID ev.eventID
  prevs : ev.prevEventIDs = G.prevEventIDs ev.eventID

variable {G : EventGraph} {t : Tables} {ev : Event} {row : BackwardExtremity}

def Write.run (t : Tables) (w : Write G) : Tables := t.writeEvent w.ev w.added w.adds w.removes w.excludeFromSync w.pos

theorem hasEvent_run (t : Tables) (w : Write G) (id : String) :
    (w.run t).hasEvent id = true ↔ t.hasEvent id = true ∨ id = w.ev.eventID := by
  rw [hasEvent, Write.run, writeEvent_outputEvents]
  simp only [insertEvent, upsert, hasEvent]
  split
  · rename_i hany
    obtain ⟨old, hold, heq⟩ := any_eq_true.mp hany
    rw [any_map]
    have hsame : ∀ row : OutputRow,
        (if decide (row.eventID = w.ev.eventID) = true then { row with excludeFromSync := w.excludeFromSync } else row).eventID =
          row.eventID := by
      intro row
      split <;> rfl
    simp only [Function.comp_def, hsame, any_eq_true, beq_iff_eq]
    refine ⟨.inl, ?_⟩
    rintro (h | rfl)
    · exact h
    · exact ⟨old, hold, of_decide_eq_true heq⟩
  · simp [eq_comm (a := id)]

theorem mem_insertsBackwardExtremity (roomID eventID prevEventID : String) :
    row ∈ (t.insertsBackwardExtremity roomID eventID prevEventID).backwardExtremities ↔
      row ∈ t.backwardExtremities ∨ row = ⟨roomID, eventID, prevEventID⟩ := by
  simp only [insertsBackwardExtremity, upsert]
  split
  · rename_i hany
    obtain ⟨old, hold, heq⟩ := any_eq_true.mp hany
    simp only [id_eq, ite_self, map_id']
    refine ⟨.inl, ?_⟩
    rintro (h | rfl)
    · exact h
    · exact of_decide_eq_true heq ▸ hold
  · simp

/-- The loop over the previous events puts a row for each that is missing. -/
theorem mem_insertExtremities (prevs : List String) (t : Tables) :
    row ∈ (prevs.foldl
      (fun t eID => if t.hasEvent eID then t else t.insertsBackwardExtremity ev.roomID ev.eventID eID) t).backwardExtremities ↔
      row ∈ t.backwardExtremities ∨ ∃ prev ∈ prevs, t.hasEvent prev = false ∧ row = ⟨ev.roomID, ev.eventID, prev⟩ := by
  induction prevs generalizing t with
  | nil => simp
  | cons eID prevs ih =>
    rw [foldl_cons, ih]
    by_cases hfound : t.hasEvent eID = true
    · simp [hfound]
    · have hkept : ∀ id, (t.insertsBackwardExtremity ev.roomID ev.eventID eID).hasEvent id = t.hasEvent id := fun _ => rfl
      rw [if_neg hfound, mem_insertsBackwardExtremity]
      simp [hkept, hfound, or_assoc]

theorem addRoomState_backwardExtremities (pos topo : Int) (t : Tables) (ev : Event) :
    (t.addRoomState pos topo ev).backwardExtremities = t.backwardExtremities := by
  unfold Tables.addRoomState
  split
  · rfl
  · split <;> rfl

theorem mem_run (t : Tables) (w : Write G) : row ∈ (w.run t).backwardExtremities ↔
      row ∈ t.backwardExtremities ∧ ¬ (row.roomID = w.ev.roomID ∧ row.prevEventID = w.ev.eventID) ∨
      ∃ prev ∈ w.ev.prevEventIDs, (w.run t).hasEvent prev = false ∧ row = ⟨w.ev.roomID, w.ev.eventID, prev⟩ := by
  have hdelete :
      ∀ (t : Tables) (eventID : String), (t.deleteRoomStateByEventID eventID).backwardExtremities = t.backwardExtremities :=
    fun _ _ => rfl
  have hevents : ∀ id, (w.run t).hasEvent id = (t.insertEvent w.ev w.adds w.removes w.excludeFromSync w.pos).hasEvent id := by
    intro id
    rw [hasEvent, Write.run, writeEvent_outputEvents]
    rfl
  simp only [hevents]
  rw [Write.run, Tables.writeEvent, Tables.updateRoomState, foldl_keeps (addRoomState_backwardExtremities _ _),
    foldl_keeps hdelete, Tables.handleBackwardExtremities, mem_insertExtremities]
  simp only [deleteBackwardExtremity, mem_filter, Bool.not_eq_true', Bool.and_eq_false_iff, beq_eq_false_iff_ne,
    ← not_and_or]
  rfl

/-- The backward extremities are the known gaps. After any writes of events of the graph, the rows are the pairs of a
written event, in its room, and a previous event of it that has not been written. -/
theorem extremities_are_gaps (G : EventGraph) (writes : List (Write G)) (roomID e p : String) :
    ⟨roomID, e, p⟩ ∈ (writes.foldl Write.run .empty).backwardExtremities ↔
      (∃ w ∈ writes, w.ev.eventID = e) ∧ roomID = G.roomID e ∧ p ∈ G.prevEventIDs e ∧ ∀ w ∈ writes, w.ev.eventID ≠ p := by
  have hwritten : ∀ (ws : List (Write G)) (id : String),
      (ws.foldl Write.run .empty).hasEvent id = true ↔ ∃ w ∈ ws, w.ev.eventID = id := by
    intro ws id
    induction ws using reverseRecOn with
    | nil => simp [hasEvent, empty]
    | append_singleton ws w ih =>
      rw [foldl_append, foldl_cons, foldl_nil, hasEvent_run, ih]
      simp [or_and_right, exists_or, eq_comm (a := id)]
  induction writes using reverseRecOn with
  | nil => simp [empty]
  | append_singleton ws w ih =>
    have hmissing : ∀ id, ((ws ++ [w]).foldl Write.run .empty).hasEvent id = false ↔ ∀ x ∈ ws ++ [w], x.ev.eventID ≠ id := by
      intro id
      rw [← Bool.not_eq_true, hwritten]
      simp only [not_exists, not_and, ne_eq]
    rw [foldl_append, foldl_cons, foldl_nil] at hmissing ⊢
    refine (mem_run _ w).trans ((or_congr_left (and_congr_left' ih)).trans ?_)
    simp only [hmissing, w.room, w.prevs, BackwardExtremity.mk.injEq]
    constructor
    · rintro (⟨⟨⟨x, hx, rfl⟩, rfl, hprev, hgap⟩, hkept⟩ | ⟨prev, hprev, hgap, rfl, rfl, rfl⟩)
      · refine ⟨⟨x, mem_append_left _ hx, rfl⟩, rfl, hprev, fun y hy => ?_⟩
        rcases mem_append.mp hy with hy | hy
        · exact hgap y hy
        · -- the event just written is not the missing one: rows that wait for it were deleted
          rw [mem_singleton.mp hy]
          rintro rfl
          exact hkept ⟨(G.within _ _ hprev).symm, rfl⟩
      · exact ⟨⟨w, by simp, rfl⟩, rfl, hprev, hgap⟩
    · rintro ⟨⟨x, hx, rfl⟩, rfl, hprev, hgap⟩
      by_cases hsame : x.ev.eventID = w.ev.eventID
      · exact .inr ⟨p, hsame ▸ hprev, hgap, by rw [hsame], hsame, rfl⟩
      · have hold : x ∈ ws := (mem_append.mp hx).resolve_right fun h => hsame (by rw [mem_singleton.mp h])
        refine .inl ⟨⟨⟨x, hold, rfl⟩, rfl, hprev, fun y hy => hgap y (mem_append_left _ hy)⟩, fun h => ?_⟩
        exact hgap w (by simp) h.2.symm

end Dirextalk.Sync

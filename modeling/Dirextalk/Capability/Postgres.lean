/-
  Dirextalk.Capability.Postgres — the PostgreSQL store as a backend that keeps the laws of
  an operation store (`postgres_lawful`).

  A transaction of the PostgreSQL store commits, is refused by its own checks, fails and
  is rolled back, or commits without the caller learning of it (`Commits`). The tables
  are the ledger's and the staged events; `inserted` keeps every staged event ever
  inserted and is read by no code.
-/
import Dirextalk.Capability.System

namespace Dirextalk.Capability

open Lib Lib.Go
open Function (update)

/-! ## The PostgreSQL store -/

structure Tables where
  ledger : Ledger
  staged : String → Option PreparedRow
  inserted : List PreparedMatrixEvent

/-- The outcomes of a transaction that started in `s`. Failures of the connection wrap none of the
sentinels. -/
inductive Commits {α S : Type} (tx : Except Error (α × S)) (s : S) : Except Error α → S → Prop where
  | done {a : α} {s' : S} (h : tx = .ok (a, s')) : Commits tx s (.ok a) s'
  | refused {e : Error} (h : tx = .error e) : Commits tx s (.error e) s
  | failed {e : Error} (he : e.wraps = []) : Commits tx s (.error e) s
  | unacknowledged {a : α} {s' : S} {e : Error} (he : e.wraps = []) (h : tx = .ok (a, s')) :
      Commits tx s (.error e) s'

theorem operationMatches_key : operationMatches a b = true ↔ a.key = b.key := by
  simp [operationMatches, OperationRecord.key, and_assoc]

namespace Tables

def empty : Tables := ⟨Ledger.empty, fun _ => none, []⟩

def row (T : Tables) (id : String) : Option OperationRow := (T.ledger id).row

def tx {α : Type} (T : Tables) (id : String) (f : Slot → Except Error (α × Slot)) : Except Error (α × Tables) :=
  (onSlot T.ledger id f).map fun r => (r.1, { T with ledger := r.2 })

/-- `DeleteMatrixPreparedEventByOperation`. -/
def deletePrepared (T : Tables) (id : String) : Except Error (Unit × Tables) :=
  if blank id then .error (Err.new "operation id is required")
  else .ok ((), { T with staged := update T.staged id none })

def prepare (pg : Platform) (T : Tables) (e : PreparedMatrixEvent) : Except Error (Unit × Tables) :=
  (prepareMatrixEvent pg e (T.row e.operationID) (T.staged e.operationID)).map fun st =>
    ((), { T with staged := update T.staged e.operationID st,
                  inserted := if (T.staged e.operationID).isNone then T.inserted ++ [e] else T.inserted })

def markSent (T : Tables) (c : OperationContext) (receipt : SendMessageResult) : Except Error (Unit × Tables) :=
  (markMatrixPreparedEventSent c receipt (T.staged c.operationID)).map fun st =>
    ((), { T with staged := update T.staged c.operationID st })

def view (T : Tables) : View := fun id =>
  (T.row id).map fun row => ⟨(scanOperationRow id row).key, row.state, row.revision⟩

end Tables

def pgCall (pg : Platform) : (c : StoreCall) → Tables → c.Ans → Tables → Prop
  | .start record, T, r, T' => ∃ raced, Commits (T.tx record.id (start record raced)) T r T'
  | .claimReplay id, T, r, T' => Commits (T.tx id (claimReplay id)) T r T'
  | .finish id result err, T, r, T' => Commits (T.tx id (finish pg result err)) T r T'
  | .markUncertain id err, T, r, T' => Commits (T.tx id (markUncertain id err)) T r T'
  | .cancel id, T, r, T' => Commits (T.tx id (cancel (preparedMatrixPresent id (T.staged id)))) T r T'
  | .deletePrepared id, T, r, T' => Commits (T.deletePrepared id) T r T'

/-- The prepared store's calls run on the tables; every other call of a handler may answer anything. -/
def pgHandle (pg : Platform) : (c : HandlerCall) → Tables → c.Ans → Tables → Prop
  | .getPrepared c, T, r, T' =>
    T' = T ∧ (r = getMatrixPreparedEvent pg c (T.staged c.operationID) ∨ ∃ e : Error, e.wraps = [] ∧ r = .error e)
  | .prepareEvent e, T, r, T' => Commits (T.prepare pg e) T r T'
  | .markSent c receipt, T, r, T' => Commits (T.markSent c receipt) T r T'
  | _, T, _, T' => T' = T

/-- A restarted process runs `ensureSchema`; where that fails it does not come up and the tables stay. -/
def pgRestart (T T' : Tables) : Prop :=
  T' = T ∨ ∃ ids l, InFlight T.ledger ids ∧ ensureSchema ids T.ledger = .ok l ∧ T' = { T with ledger := l }

abbrev postgres (pg : Platform) : Backend where
  Store := Tables
  init := Tables.empty
  view := Tables.view
  call := pgCall pg
  handle _ := pgHandle pg
  restart := pgRestart

/-! ## The PostgreSQL store is lawful -/

variable {pg : Platform} {T T' : Tables} {id : String}

theorem Commits.split
    (h : Commits tx s r s') :
    (∃ a, tx = .ok (a, s') ∧ (r = .ok a ∨ ∃ e, r = .error e ∧ e.wraps = [])) ∨
      (s' = s ∧ ∃ e, r = .error e ∧ (tx = .error e ∨ e.wraps = [])) := by
  cases h with
  | done h => exact .inl ⟨_, h, .inl rfl⟩
  | refused h => exact .inr ⟨rfl, _, rfl, .inl h⟩
  | failed he => exact .inr ⟨rfl, _, rfl, .inr he⟩
  | unacknowledged he h => exact .inl ⟨_, h, .inr ⟨_, rfl, he⟩⟩

namespace Tables

def setSlot (T : Tables) (id : String) (s : Slot) : Tables := { T with ledger := update T.ledger id s }

theorem tx_ok (h : T.tx id f = .ok (a, T')) : ∃ s, f (T.ledger id) = .ok (a, s) ∧ T' = T.setSlot id s := by
  unfold tx at h
  rcases ho : onSlot T.ledger id f with e | ⟨b, l⟩
  · rw [ho] at h
    cases h
  · rw [ho] at h
    cases h
    obtain ⟨s, hf, rfl⟩ := onSlot_ok ho
    exact ⟨s, hf, rfl⟩

variable (T id)

theorem row_setSlot (s : Slot) : (T.setSlot id s).row = update T.row id s.row := by
  funext i
  by_cases hi : i = id
  · subst hi
    simp [row, setSlot]
  · simp [row, setSlot, hi]

def rowView (id : String) (row : OperationRow) : OpView := ⟨(scanOperationRow id row).key, row.state, row.revision⟩

theorem view_apply : T.view id = (T.row id).map (rowView id) := rfl

theorem view_setSlot (s : Slot) : (T.setSlot id s).view = update T.view id (s.row.map (rowView id)) := by
  funext i
  rw [view_apply, row_setSlot]
  by_cases hi : i = id
  · subst hi
    simp
  · simp [hi, view_apply]

theorem setSlot_self : T.setSlot id (T.ledger id) = T := by
  simp [setSlot]

theorem view_moved (row : OperationRow) (state : OperationState)
    (result : Option String) (code message : String) (log : List OperationEvent) :
    (T.setSlot id ⟨some (row.moved state result code message), log⟩).view =
      update T.view id (some ((rowView id row).move state)) := by
  rw [view_setSlot]
  rfl

end Tables

variable {record : OperationRecord} {r : Except Error Unit}

theorem start_view {r : OperationRecord} {raced : Bool}
    (h : T.tx record.id (start record raced) = .ok (r, T')) :
    (T' = T ∧ ∃ row, T.row record.id = some row ∧ r = scanOperationRow record.id row ∧
        (Tables.rowView record.id row).key = record.key) ∨
      (T.row record.id = none ∧ r = { record with state := .pending, revision := 1, created := true } ∧
        T'.view = update T.view record.id (some ⟨record.key, .pending, 1⟩)) := by
  obtain ⟨s, htx, rfl⟩ := Tables.tx_ok h
  obtain ⟨row, hrow, rfl, rfl, hm⟩ | ⟨hnone, _, rfl, rfl⟩ := start_cases htx
  · exact .inl ⟨T.setSlot_self _, row, hrow, rfl, operationMatches_key.mp hm⟩
  · refine .inr ⟨hnone, rfl, ?_⟩
    rw [Tables.view_setSlot]
    rfl

variable (pg : Platform)

theorem postgres_start {r : Except Error OperationRecord}
    (h : pgCall pg (.start record) T r T') : CallSpec (.start record) T.view r T'.view := by
  obtain ⟨raced, hc⟩ := h
  obtain ⟨a, htx, hr⟩ | ⟨rfl, e, rfl, _⟩ := hc.split
  · obtain ⟨rfl, row, hrow, rfl, hkey⟩ | ⟨hnone, rfl, hview⟩ := start_view htx
    · obtain rfl | ⟨e, rfl, _⟩ := hr
      · refine ⟨rfl, .inr ⟨rfl, rfl, Tables.rowView record.id row, ?_, hkey, rfl⟩⟩
        rw [Tables.view_apply, hrow]
        rfl
      · exact .inl rfl
    · have hv : T.view record.id = none := by rw [Tables.view_apply, hnone]; rfl
      obtain rfl | ⟨e, rfl, _⟩ := hr
      · exact ⟨rfl, .inl ⟨rfl, rfl, hv, hview⟩⟩
      · exact .inr ⟨hv, hview⟩
  · exact .inl rfl

theorem Tables.view_some {row : OperationRow} (h : T.row id = some row) : T.view id = some (rowView id row) := by
  rw [view_apply, h]
  rfl

theorem Commits.move (ok : OperationState → Prop) {α : Type} {f : Slot → Except Error (α × Slot)} {r : Except Error α}
    {state : OperationState} (h : Commits (T.tx id f) T r T')
    (hf : ∀ a s, f (T.ledger id) = .ok (a, s) → s = T.ledger id ∨ ∃ row, T.row id = some row ∧ ok row.state ∧
      ∃ result code message, s.row = some (row.moved state result code message)) :
    T'.view = T.view ∨ ∃ o, T.view id = some o ∧ ok o.state ∧ T'.view = update T.view id (some (o.move state)) := by
  obtain ⟨a, htx, _⟩ | ⟨rfl, _⟩ := Commits.split h
  · obtain ⟨s, hs, rfl⟩ := Tables.tx_ok htx
    obtain rfl | ⟨row, hrow, hok, result, code, message, hs⟩ := hf a s hs
    · rw [T.setSlot_self id]
      exact .inl rfl
    · obtain ⟨_, log⟩ := s
      cases hs
      exact .inr ⟨_, Tables.view_some hrow, hok, Tables.view_moved T id row state result code message log⟩
  · exact .inl rfl

theorem postgres_claim {r : Except Error Bool} (h : pgCall pg (.claimReplay id) T r T') :
    CallSpec (.claimReplay id) T.view r T'.view := by
  obtain ⟨b, htx, hr⟩ | ⟨rfl, e, rfl, _⟩ := Commits.split h
  · obtain ⟨s, hclaim, rfl⟩ := Tables.tx_ok htx
    obtain ⟨rfl, rfl⟩ | ⟨rfl, row, hrow, hu, rfl⟩ := claimReplay_cases hclaim
    · refine .inl ⟨?_, by rw [T.setSlot_self]⟩
      rcases hr with rfl | ⟨e, rfl, _⟩ <;> simp
    · exact .inr ⟨_, Tables.view_some hrow, hu, Tables.view_moved T id row _ _ _ _ _⟩
  · exact .inl ⟨by simp, rfl⟩

theorem postgres_finish {result : String} {err : Option CapabilityError} {r : Except Error Bool}
    (h : pgCall pg (.finish id result err) T r T') : CallSpec (.finish id result err) T.view r T'.view := by
  refine Commits.move (·.terminal = false) h fun _ s hf => ?_
  obtain ⟨_, hs, _⟩ | ⟨_, row, column, hrow, hlive, hs⟩ := finish_cases hf
  · exact .inl hs
  · exact .inr ⟨row, hrow, hlive, _, _, _, by rw [hs]; rfl⟩

theorem postgres_mark
    (h : pgCall pg (.markUncertain id err) T r T') : CallSpec (.markUncertain id err) T.view r T'.view := by
  refine Commits.move (·.terminal = false) h fun _ s hf => ?_
  obtain ⟨hs, _⟩ | ⟨row, code, message, ev, hrow, hlive, hs⟩ := markUncertain_cases hf
  · exact .inl hs
  · exact .inr ⟨row, hrow, hlive, _, _, _, by rw [hs]; rfl⟩

theorem postgres_cancel (h : pgCall pg (.cancel id) T r T') :
    CallSpec (.cancel id) T.view r T'.view := by
  refine Commits.move (· ∈ [.pending, .running]) h fun _ s hf => ?_
  obtain ⟨row, hrow, hlive, _, hs⟩ := cancel_cases hf
  exact .inr ⟨row, hrow, hlive, _, _, _, by rw [hs]; rfl⟩

theorem pgHandle_ledger {c : HandlerCall} {r : c.Ans} (h : pgHandle pg c T r T') : T'.ledger = T.ledger := by
  cases c with
  | getPrepared => rw [h.1]
  | prepareEvent e =>
    obtain ⟨u, htx, _⟩ | ⟨rfl, _⟩ := Commits.split h
    · unfold Tables.prepare at htx
      rcases hp : prepareMatrixEvent pg e (T.row e.operationID) (T.staged e.operationID) with _ | st <;>
        rw [hp] at htx <;> cases htx
      rfl
    · rfl
  | markSent ctx receipt =>
    obtain ⟨u, htx, _⟩ | ⟨rfl, _⟩ := Commits.split h
    · unfold Tables.markSent at htx
      rcases hp : markMatrixPreparedEventSent ctx receipt (T.staged ctx.operationID) with _ | st <;>
        rw [hp] at htx <;> cases htx
      rfl
    · rfl
  | _ => exact congrArg Tables.ledger h

theorem Tables.view_of_ledger (h : T'.ledger = T.ledger) : T'.view = T.view := by
  funext i
  simp [view, row, h]

theorem pgRestart_view (h : pgRestart T T') (id : String) : RestartSpec (T.view id) (T'.view id) := by
  obtain rfl | ⟨ids, l, hsel, hl, rfl⟩ := h
  · exact .inl rfl
  · obtain ⟨hmem, hfence⟩ | ⟨_, hsame⟩ := ensureSchema_at hsel.1 hl id
    · obtain ⟨row, hrow, hlive⟩ := (hsel.2 id).mp hmem
      have hl := fenceRestart_cases hrow hlive hfence
      refine .inr ⟨_, Tables.view_some hrow, hlive, ?_⟩
      simp only [Tables.view, Tables.row, hl]
      rfl
    · exact .inl (by simp [Tables.view, Tables.row, hsame])

theorem postgres_conflict {r : Except Error OperationRecord} {o : OpView}
    (h : pgCall pg (.start record) T r T') (ho : T.view record.id = some o) (hne : o.key ≠ record.key) :
    T' = T ∧ ∃ e, r = .error e := by
  obtain ⟨raced, hc⟩ := h
  obtain ⟨a, htx, _⟩ | ⟨rfl, e, rfl, _⟩ := hc.split
  · obtain ⟨_, row, hrow, _, hkey⟩ | ⟨hnone, _⟩ := start_view htx
    · rw [Tables.view_some hrow, Option.some.injEq] at ho
      exact absurd (ho ▸ hkey) hne
    · rw [Tables.view_apply, hnone] at ho
      cases ho
  · exact ⟨rfl, e, rfl⟩

theorem postgres_deletePrepared (h : pgCall pg (.deletePrepared id) T r T') :
    T'.ledger = T.ledger := by
  obtain ⟨u, htx, _⟩ | ⟨rfl, _⟩ := Commits.split h
  · unfold Tables.deletePrepared at htx
    split at htx <;> cases htx
    rfl
  · rfl

theorem postgres_lawful : (postgres pg).Lawful fun _ => True where
  init := ⟨trivial, fun _ => rfl⟩
  call {c s r s'} _ h := by
    refine ⟨trivial, ?_⟩
    cases c with
    | start record => exact postgres_start pg h
    | claimReplay id => exact postgres_claim pg h
    | finish id result err => exact postgres_finish pg h
    | markUncertain id err => exact postgres_mark pg h
    | cancel id => exact postgres_cancel pg h
    | deletePrepared id => exact Tables.view_of_ledger (postgres_deletePrepared pg h)
  conflict h ho hne := postgres_conflict pg h ho hne
  handle _ h := ⟨trivial, Tables.view_of_ledger (pgHandle_ledger pg h)⟩
  restart _ h := ⟨trivial, pgRestart_view h⟩

end Dirextalk.Capability

/-
  Dirextalk.Capability.Memory — the operation store without a database
  (`internal/productcapability/operations.go`, the branches under `s.db == nil`): records
  in a map under a mutex, so that every call is one atomic step that cannot fail halfway.

  The watch events a call emits after it released the mutex are not part of this store.
-/
import Dirextalk.Capability.Postgres

namespace Dirextalk.Capability.Memory

open Lib Lib.Go
open Function (update update_eq_self)

abbrev Cell := Option OperationRecord

def start (record : OperationRecord) (cell : Cell) : Except Error (OperationRecord × Cell) :=
  if record.id == "" || (record.rootDigest.length == 0 && record.digest.length == 0) then
    .error (Err.new "operation id and request digest are required")
  else
    match cell with
    | some existing =>
      if operationMatches existing record then .ok ({ existing with created := false }, cell)
      else .error errOperationConflict
    | none =>
      let inserted := { record with created := true, state := .pending, revision := 1 }
      .ok (inserted, some inserted)

def moved (record : OperationRecord) (state : OperationState) : OperationRecord :=
  { record with state := state, revision := record.revision + 1 }

def claimReplay (id : String) (cell : Cell) : Except Error (Bool × Cell) :=
  if blank id then .error (Err.new "operation id is required")
  else
    match cell with
    | some record => if record.state = .uncertain then .ok (true, some (moved record .running)) else .ok (false, cell)
    | none => .ok (false, cell)

/-- `finish`; a missing record is an error here. -/
def finish (result : String) (err : Option CapabilityError) (cell : Cell) : Except Error (Bool × Cell) :=
  match cell with
  | none => .error errNoRows
  | some record =>
    if record.state.terminal then .ok (false, cell)
    else
      let settled := moved record (if err.isSome then .failed else .completed)
      .ok (true, some { settled with result := result, err := err })

def markUncertain (id : String) (err : Option CapabilityError) (cell : Cell) : Except Error (Unit × Cell) :=
  if blank id then .error errNoRows
  else
    match cell with
    | none => .error errNoRows
    | some record =>
      if record.state.terminal then .ok ((), cell)
      else
        let err := err.getD ⟨.upstreamFailed, "Matrix event acceptance is unknown"⟩
        .ok ((), some { moved record .uncertain with err := some err })

/-- `cancel`. Without a row lock to share, an operation that may have a staged event is never cancelled;
`preparedStore` says whether there is a prepared store. -/
def cancel (preparedStore : Bool) (cell : Cell) : Except Error (Unit × Cell) :=
  match cell with
  | none => .error errNoRows
  | some record =>
    if record.state.terminal || record.state == .uncertain then .error errNoRows
    else if preparedStore && isPreparedMatrixMutation record.capability record.operation then
      .error errOperationPrepared
    else .ok ((), some (moved record .cancelled))

abbrev Records := String → Cell

/-- A call on one record: it answers, and writes what it returns when it does not fail. -/
def On {α : Type} (s : Records) (id : String) (f : Cell → Except Error (α × Cell)) (r : Except Error α)
    (s' : Records) : Prop :=
  (∃ a cell, f (s id) = .ok (a, cell) ∧ r = .ok a ∧ s' = update s id cell) ∨
    (∃ e, f (s id) = .error e ∧ r = .error e ∧ s' = s)

def call (preparedStore : Bool) : (c : StoreCall) → Records → c.Ans → Records → Prop
  | .start record, s, r, s' => On s record.id (start record) r s'
  | .claimReplay id, s, r, s' => On s id (claimReplay id) r s'
  | .finish id result err, s, r, s' => On s id (finish result err) r s'
  | .markUncertain id err, s, r, s' => On s id (markUncertain id err) r s'
  | .cancel id, s, r, s' => On s id (cancel preparedStore) r s'
  | .deletePrepared _, s, _, s' => s' = s

def recordView (record : OperationRecord) : OpView := ⟨record.key, record.state, record.revision⟩

def view (s : Records) : View := fun id => (s id).map recordView

/-- The store of a process without a database; it does not outlive the process. -/
abbrev backend (preparedStore : Bool) : Backend where
  Store := Records
  init _ := none
  view := view
  call := call preparedStore
  handle _ _ s _ s' := s' = s
  restart _ _ := False

/-! ## The store in memory is lawful -/

variable {s s' : Records} {id : String}

theorem view_update (s : Records) (id : String) (cell : Cell) :
    view (update s id cell) = update (view s) id (cell.map recordView) := by
  funext i
  by_cases hi : i = id
  · subst hi
    simp [view]
  · simp [view, hi]

variable {record : OperationRecord} {cell cell' : Cell}

theorem view_some (h : s id = some record) : view s id = some (recordView record) := by
  rw [view, h]
  rfl

def Keyed (s : Records) : Prop := ∀ id record, s id = some record → record.id = id

theorem Keyed.update (hk : Keyed s) (h : ∀ record, cell = some record → record.id = id) : Keyed (update s id cell) := by
  intro i record hi
  by_cases hid : i = id
  · subst hid
    rw [Function.update_self] at hi
    exact h record hi
  · rw [Function.update_of_ne hid] at hi
    exact hk i record hi

theorem On.move (ok : OperationState → Prop)
    (h : On s id f r s') (hk : Keyed s)
    (hf : ∀ a cell, f (s id) = .ok (a, cell) → cell = s id ∨ ∃ record record', s id = some record ∧ ok record.state ∧
      cell = some record' ∧ record'.id = record.id ∧ recordView record' = (recordView record).move state) :
    Keyed s' ∧ (view s' = view s ∨
      ∃ o, view s id = some o ∧ ok o.state ∧ view s' = update (view s) id (some (o.move state))) := by
  obtain ⟨a, cell, hcell, _, rfl⟩ | ⟨e, _, _, rfl⟩ := h
  · obtain rfl | ⟨record, record', hrec, hok, rfl, hid, hmove⟩ := hf a cell hcell
    · rw [update_eq_self]
      exact ⟨hk, .inl rfl⟩
    · refine ⟨hk.update ?_, .inr ⟨_, view_some hrec, hok, by rw [view_update, ← hmove]; rfl⟩⟩
      rintro _ ⟨⟩
      exact hid.trans (hk id record hrec)
  · exact ⟨hk, .inl rfl⟩

theorem start_cases (h : start record cell = .ok (r, cell')) :
    (∃ existing, cell = some existing ∧ cell' = cell ∧ r = { existing with created := false } ∧
        existing.key = record.key) ∨
      (cell = none ∧ cell' = some r ∧ r = { record with created := true, state := .pending, revision := 1 }) := by
  unfold start at h
  split at h
  · cases h
  obtain _ | existing := cell
  · cases h
    exact .inr ⟨rfl, rfl, rfl⟩
  · dsimp only at h
    split at h
    · rename_i hm
      cases h
      exact .inl ⟨existing, rfl, rfl, rfl, operationMatches_key.mp hm⟩
    · cases h

variable {r : Except Error OperationRecord}

theorem start_spec (hk : Keyed s) (h : On s record.id (start record) r s') :
    Keyed s' ∧ CallSpec (.start record) (view s) r (view s') := by
  obtain ⟨a, cell, hcell, rfl, rfl⟩ | ⟨e, _, rfl, rfl⟩ := h
  · obtain ⟨existing, hex, rfl, rfl, hkey⟩ | ⟨hnone, rfl, rfl⟩ := start_cases hcell
    · rw [update_eq_self]
      exact ⟨hk, hk _ existing hex, .inr ⟨rfl, rfl, _, view_some hex, hkey, rfl⟩⟩
    · refine ⟨hk.update ?_, rfl, .inl ⟨rfl, rfl, by rw [view, hnone]; rfl, by rw [view_update]; rfl⟩⟩
      rintro _ ⟨⟩
      rfl
  · exact ⟨hk, .inl rfl⟩

theorem claim_cases (h : claimReplay id cell = .ok (b, cell')) : (b = false ∧ cell' = cell) ∨
      (b = true ∧ ∃ record, cell = some record ∧ record.state = .uncertain ∧ cell' = some (moved record .running)) := by
  unfold claimReplay at h
  split at h
  · cases h
  obtain _ | record := cell
  · cases h
    exact .inl ⟨rfl, rfl⟩
  · dsimp only at h
    split at h
    · rename_i hu
      cases h
      exact .inr ⟨rfl, record, rfl, hu, rfl⟩
    · cases h
      exact .inl ⟨rfl, rfl⟩

variable {err : Option CapabilityError}

theorem finish_cases (h : finish result err cell = .ok (b, cell')) :
    cell' = cell ∨ ∃ record, cell = some record ∧ record.state.terminal = false ∧
      cell' = some { moved record (if err.isSome then .failed else .completed) with result := result, err := err } := by
  obtain _ | record := cell
  · cases h
  · simp only [finish] at h
    split at h
    · cases h
      exact .inl rfl
    · rename_i hlive
      cases h
      exact .inr ⟨record, rfl, by simpa using hlive, rfl⟩

theorem mark_cases
    (h : markUncertain id err cell = .ok (u, cell')) :
    cell' = cell ∨ ∃ record e, cell = some record ∧ record.state.terminal = false ∧
      cell' = some { moved record .uncertain with err := e } := by
  unfold markUncertain at h
  split at h
  · cases h
  obtain _ | record := cell
  · cases h
  · dsimp only at h
    split at h
    · cases h
      exact .inl rfl
    · rename_i hlive
      cases h
      exact .inr ⟨record, _, rfl, by simpa using hlive, rfl⟩

theorem cancel_cases (h : cancel preparedStore cell = .ok (u, cell')) :
    ∃ record, cell = some record ∧ record.state ∈ [OperationState.pending, .running] ∧
      cell' = some (moved record .cancelled) := by
  obtain _ | record := cell
  · cases h
  · simp only [cancel] at h
    split at h
    · cases h
    rename_i hlive
    split at h
    · cases h
    · cases h
      exact ⟨record, rfl, by revert hlive; cases record.state <;> decide, rfl⟩

theorem call_spec (preparedStore : Bool) {c : StoreCall} {r : c.Ans} (hk : Keyed s)
    (h : call preparedStore c s r s') : Keyed s' ∧ CallSpec c (view s) r (view s') := by
  cases c with
  | start record => exact start_spec hk h
  | claimReplay id =>
    obtain ⟨b, cell, hcell, rfl, rfl⟩ | ⟨e, _, rfl, rfl⟩ := h
    · obtain ⟨rfl, rfl⟩ | ⟨rfl, record, hrec, hu, rfl⟩ := claim_cases hcell
      · rw [update_eq_self]
        exact ⟨hk, .inl ⟨by simp, rfl⟩⟩
      · refine ⟨hk.update ?_, .inr ⟨_, view_some hrec, hu, by rw [view_update]; rfl⟩⟩
        rintro _ ⟨⟩
        exact hk id record hrec
    · exact ⟨hk, .inl ⟨by simp, rfl⟩⟩
  | finish id result err =>
    refine On.move (·.terminal = false) h hk fun b cell hc => ?_
    obtain rfl | ⟨record, hrec, hlive, rfl⟩ := finish_cases hc
    · exact .inl rfl
    · exact .inr ⟨record, _, hrec, hlive, rfl, rfl, rfl⟩
  | markUncertain id err =>
    refine On.move (·.terminal = false) h hk fun u cell hc => ?_
    obtain rfl | ⟨record, e, hrec, hlive, rfl⟩ := mark_cases hc
    · exact .inl rfl
    · exact .inr ⟨record, _, hrec, hlive, rfl, rfl, rfl⟩
  | cancel id =>
    refine On.move (· ∈ [.pending, .running]) h hk fun u cell hc => ?_
    obtain ⟨record, hrec, hlive, rfl⟩ := cancel_cases hc
    exact .inr ⟨record, _, hrec, hlive, rfl, rfl, rfl⟩
  | deletePrepared id => exact ⟨h ▸ hk, congrArg view h⟩

theorem conflict
    (h : On s record.id (start record) r s') (ho : view s record.id = some o) (hne : o.key ≠ record.key) :
    s' = s ∧ ∃ e, r = .error e := by
  obtain ⟨a, cell, hcell, _, _⟩ | ⟨e, _, rfl, rfl⟩ := h
  · obtain ⟨existing, hex, _, _, hkey⟩ | ⟨hnone, _⟩ := start_cases hcell
    · rw [view_some hex, Option.some.injEq] at ho
      exact absurd (ho ▸ hkey) hne
    · rw [view, hnone] at ho
      cases ho
  · exact ⟨rfl, e, rfl⟩

theorem lawful (preparedStore : Bool) : (backend preparedStore).Lawful Keyed where
  init := ⟨by simp [Keyed], fun _ => rfl⟩
  call hk h := call_spec preparedStore hk h
  conflict h ho hne := conflict h ho hne
  handle hk h := ⟨h ▸ hk, congrArg view h⟩
  restart _ h := h.elim

end Dirextalk.Capability.Memory

/-
  Dirextalk.Capability.Ledger — the PostgreSQL operation ledger
  (`internal/productcapability/operations.go`), one definition per transaction.

  Every statement of the ledger names one `operation_id`, so a transaction works on a
  `Slot`: the operation's row and its rows in `p2p_capability_operation_events`. A
  transaction that returns an error is rolled back.

  Proved (`ledger_contract`), for every run of ledger calls and restarts:
  (a) a terminal row never changes again;
  (b) the revision moves by one exactly at the committed transitions: the changes of state
      and the `markUncertain` that finds its row already uncertain
      (`revision_moves_without_state`: that one leaves the state as it is);
  (c) the event log of an operation is numbered 1..n, starts with the accepted event, and
      holds a terminal event exactly when the row is terminal, once and at its end.
-/
import Dirextalk.Lib.Numbered
import Dirextalk.Lib.Run
import Dirextalk.Capability.Record

namespace Dirextalk.Capability

open Lib Lib.Go List OperationRow OperationState
open Function (update update_of_ne update_self)

structure Platform where
  /-- The text PostgreSQL stores for a `::jsonb` cast, `none` when the cast fails. -/
  jsonb : String → Option String
  sha256 : Bytes → Bytes
  jsonValid : Bytes → Bool

structure Slot where
  row : Option OperationRow
  log : List OperationEvent

abbrev Ledger := String → Slot

def Slot.empty : Slot := ⟨none, []⟩

def Ledger.empty : Ledger := fun _ => Slot.empty

/-! ## The transactions -/

def Slot.append (s : Slot) (event : WatchEvent) : Slot :=
  { s with log := s.log ++ [⟨nextNumber OperationEvent.sequence s.log, event⟩] }

def insertOperationEventTx (s : Slot) (event : WatchEvent) : Except Error Slot :=
  match s.row with
  | none => .error errNoRows
  | some _ => .ok (s.append event)

/-- `UPDATE … SET …, revision=revision+1 WHERE operation_id=$1 AND state IN (…)`. -/
def Slot.update (s : Slot) (states : List OperationState) (set : OperationRow → OperationRow) : Slot :=
  match s.row with
  | some row => if row.state ∈ states then { s with row := some { set row with revision := row.revision + 1 } } else s
  | none => s

/-- The row `start` inserts; the columns it does not name take their defaults. -/
def insertedRow (record : OperationRecord) : OperationRow where
  capability := record.capability
  operation := record.operation
  ownerID := record.ownerID
  generation := record.generation
  rootDigest := record.rootDigest
  digest := record.digest
  state := .pending
  resultJSON := none
  errorCode := ""
  errorMessage := ""
  revision := 1

def startReplay (record : OperationRecord) (existing : OperationRow) (s : Slot) :
    Except Error (OperationRecord × Slot) :=
  let found := scanOperationRow record.id existing
  if operationMatches found record then .ok (found, s) else .error errOperationConflict

/-- `start`. With `raced` the first SELECT ran before a concurrent insert committed, so that the INSERT decides. -/
def start (record : OperationRecord) (raced : Bool) (s : Slot) : Except Error (OperationRecord × Slot) :=
  if record.id == "" || (record.rootDigest.length == 0 && record.digest.length == 0) then
    .error (Err.new "operation id and request digest are required")
  else
    match if raced then none else s.row with
    | some existing => startReplay record existing s
    | none =>
      match s.row with
      | some existing => startReplay record existing s
      | none =>
        if (insertedRow record).checks record.id then do
          let s' ← insertOperationEventTx { s with row := some (insertedRow record) } acceptedEvent
          return ({ record with state := .pending, revision := 1, created := true }, s')
        else
          .error (Err.new "new row violates a check constraint of p2p_capability_operations")

/-- `claimReplay`: whether this call moved the row from uncertain to running. -/
def claimReplay (id : String) (s : Slot) : Except Error (Bool × Slot) :=
  if blank id then
    .error (Err.new "operation id is required")
  else
    let s' := s.update [.uncertain] fun row => { row with state := .running }
    .ok (s.row.any (·.state == .uncertain), s')

/-- `result_json=CASE WHEN $2='' THEN NULL ELSE $2::jsonb END`. -/
def resultColumn (pg : Platform) (result : String) : Except Error (Option String) :=
  if result == "" then .ok none
  else
    match pg.jsonb result with
    | some text => .ok (some text)
    | none => .error (Err.new "invalid input syntax for type json")

/-- `finish`, up to its commit: whether this call made the row terminal. A row that is missing or terminal is no
error. -/
def finish (pg : Platform) (result : String) (capabilityErr : Option CapabilityError) (s : Slot) :
    Except Error (Bool × Slot) :=
  let state := if capabilityErr.isSome then failed else .completed
  match s.row with
  | none => .ok (false, s)
  | some row =>
    if row.state.terminal then .ok (false, s)
    else do
      let column ← resultColumn pg result
      let s' := s.update [.pending, .running, .uncertain] fun row =>
        { row with state := state, resultJSON := column, errorCode := (capabilityErr.map (·.code.string)).getD "",
                   errorMessage := (capabilityErr.map (·.message)).getD "" }
      let s'' ← insertOperationEventTx s' (terminalEvent result capabilityErr)
      return (true, s'')

def markUncertain (id : String) (capabilityErr : Option CapabilityError) (s : Slot) : Except Error (Unit × Slot) :=
  if blank id then .error errNoRows
  else
    let err := capabilityErr.getD ⟨.upstreamFailed, "Matrix event acceptance is unknown"⟩
    match s.row with
    | none => .error errNoRows
    | some row =>
      if row.state.terminal then .ok ((), s)
      else do
        -- the guard lets an uncertain row be marked again
        let s' := s.update [.pending, .running, .uncertain] fun row =>
          { row with state := .uncertain, errorCode := err.code.string, errorMessage := err.message }
        let s'' ← insertOperationEventTx s' (uncertainEvent (some err))
        return ((), s'')

/-- `cancel`, up to its commit; `prepared` is what `preparedMatrixPresent` answers for the row. -/
def cancel (prepared : OperationRow → Except Error Bool) (s : Slot) : Except Error (Unit × Slot) :=
  match s.row with
  | none => .error errNoRows
  | some row =>
    if row.state.terminal || row.state == .uncertain then .error errNoRows
    else do
      if ← prepared row then .error errOperationPrepared
      else
        let s' := s.update [.pending, .running] fun row => { row with state := .cancelled }
        let s'' ← insertOperationEventTx s' cancelledEvent
        return ((), s'')

def restartMessage : String := "operation was in flight when message-server restarted"

/-- One turn of the loop of `ensureSchema` over the in-flight operations. -/
def fenceRestart (s : Slot) : Except Error Slot :=
  let s' := s.update [.pending, .running] fun row =>
    { row with state := .uncertain, errorCode := "SERVICE_RESTARTED", errorMessage := restartMessage }
  insertOperationEventTx s' (uncertainEvent (some ⟨.upstreamFailed, restartMessage⟩))

/-! ## Calls and runs -/

def onSlot {α : Type} (l : Ledger) (id : String) (tx : Slot → Except Error (α × Slot)) : Except Error (α × Ledger) :=
  (tx (l id)).map fun r => (r.1, update l id r.2)

/-- `ensureSchema` over the operation ids its SELECT returned. -/
def ensureSchema : List String → Ledger → Except Error Ledger
  | [], l => .ok l
  | id :: ids, l => do
    let s ← fenceRestart (l id)
    ensureSchema ids (update l id s)

inductive Call where
  | start (record : OperationRecord) (raced : Bool)
  | claimReplay (id : String)
  | finish (id : String) (result : String) (err : Option CapabilityError)
  | markUncertain (id : String) (err : Option CapabilityError)
  | cancel (id : String) (prepared : OperationRow → Except Error Bool)
  | ensureSchema (operationIDs : List String)

def commit (pg : Platform) (c : Call) (l : Ledger) : Except Error Ledger :=
  match c with
  | .start record raced => (onSlot l record.id (start record raced)).map (·.2)
  | .claimReplay id => (onSlot l id (claimReplay id)).map (·.2)
  | .finish id result err => (onSlot l id (finish pg result err)).map (·.2)
  | .markUncertain id err => (onSlot l id (markUncertain id err)).map (·.2)
  | .cancel id prepared => (onSlot l id (cancel prepared)).map (·.2)
  | .ensureSchema ids => ensureSchema ids l

/-- The answer of `SELECT operation_id … WHERE state IN ('pending','running')`. -/
def InFlight (l : Ledger) (ids : List String) : Prop :=
  ids.Nodup ∧ ∀ id, id ∈ ids ↔ ∃ row, (l id).row = some row ∧ row.state ∈ [.pending, .running]

def Call.Admissible (l : Ledger) : Call → Prop
  | .ensureSchema ids => InFlight l ids
  | _ => True

inductive Step (pg : Platform) : Ledger → Call → Ledger → Prop where
  | committed {l l' : Ledger} {c : Call} (hadm : c.Admissible l) (h : commit pg c l = .ok l') : Step pg l c l'
  | rolledBack (l : Ledger) (c : Call) : Step pg l c l

/-! ## What a transaction can do to an operation -/

/-- The row after a transition: a new state, result and error, and the next revision. -/
def OperationRow.moved (row : OperationRow) (state : OperationState) (resultJSON : Option String)
    (errorCode errorMessage : String) : OperationRow :=
  { row with state := state, resultJSON := resultJSON, errorCode := errorCode,
             errorMessage := errorMessage, revision := row.revision + 1 }

inductive Effect (again : Prop) : Slot → Slot → Prop where
  | same (s : Slot) : Effect again s s
  | created {row : OperationRow} {log : List OperationEvent} (hstate : row.state = .pending)
      (hrev : row.revision = 1) : Effect again ⟨none, log⟩ (Slot.append ⟨some row, log⟩ acceptedEvent)
  | claimed {row : OperationRow} {log : List OperationEvent} (hstate : row.state = .uncertain) :
      Effect again ⟨some row, log⟩ ⟨some (row.moved .running row.resultJSON row.errorCode row.errorMessage), log⟩
  | doubted {row : OperationRow} {log : List OperationEvent} (code message : String)
      (err : Option CapabilityError) (hlive : row.state.terminal = false)
      (hagain : row.state = .uncertain → again) :
      Effect again ⟨some row, log⟩
        (Slot.append ⟨some (row.moved .uncertain row.resultJSON code message), log⟩ (uncertainEvent err))
  | settled {row : OperationRow} {log : List OperationEvent} {state : OperationState} {event : WatchEvent}
      (result : Option String) (code message : String) (hlive : row.state.terminal = false)
      (hstate : state.terminal = true) (hevent : event.terminal = true) :
      Effect again ⟨some row, log⟩ (Slot.append ⟨some (row.moved state result code message), log⟩ event)

variable {pg : Platform} {s s' : Slot} {id : String} {again : Prop}

theorem not_terminal_iff {st : OperationState} : st.terminal = false ↔ st ∈ [.pending, .running, .uncertain] := by
  cases st <;> decide

theorem inFlight_live (h : st ∈ [pending, .running]) : st.terminal = false := by
  revert h
  cases st <;> decide

variable {row : OperationRow} {log : List OperationEvent} {record r : OperationRecord} {b : Bool}
  {err : Option CapabilityError} {u : Unit} {α : Type} {l l' : Ledger}

theorem update_live
    (set : OperationRow → OperationRow) (h : row.state ∈ states) :
    Slot.update ⟨some row, log⟩ states set = ⟨some { set row with revision := row.revision + 1 }, log⟩ := by
  simp [Slot.update, h]

/-- `start` either finds a matching row and changes nothing, or inserts the row it was given. -/
theorem start_cases (h : start record raced s = .ok (r, s')) :
    (∃ row, s.row = some row ∧ s' = s ∧ r = scanOperationRow record.id row ∧ operationMatches r record = true) ∨
      (s.row = none ∧ (insertedRow record).checks record.id = true ∧
        s' = Slot.append ⟨some (insertedRow record), s.log⟩ acceptedEvent ∧
        r = { record with state := .pending, revision := 1, created := true }) := by
  unfold start at h
  split at h
  · cases h
  rcases hrow : s.row with _ | row
  · simp only [hrow, ite_self] at h
    split at h
    · rename_i hc
      cases h
      exact .inr ⟨rfl, hc, rfl, rfl⟩
    · cases h
  · refine .inl ⟨row, rfl, ?_⟩
    cases raced <;> simp only [hrow, if_true, if_false, Bool.false_eq_true] at h
    all_goals
      unfold startReplay at h
      dsimp only at h
      split at h
      · rename_i hm
        cases h
        exact ⟨rfl, rfl, hm⟩
      · cases h

theorem claimReplay_cases (h : claimReplay id s = .ok (b, s')) : (b = false ∧ s' = s) ∨
      (b = true ∧ ∃ row, s.row = some row ∧ row.state = .uncertain ∧
        s' = ⟨some (row.moved .running row.resultJSON row.errorCode row.errorMessage), s.log⟩) := by
  obtain ⟨_ | row, log⟩ := s
  · simp only [claimReplay, Slot.update] at h
    split at h <;> cases h
    exact .inl ⟨rfl, rfl⟩
  · simp only [claimReplay] at h
    split at h
    · cases h
    by_cases hu : row.state = .uncertain
    · rw [update_live _ (by simp [hu])] at h
      cases h
      exact .inr ⟨by simp [hu], row, rfl, hu, rfl⟩
    · cases h
      exact .inl ⟨by simp [hu], by simp [Slot.update, hu]⟩

theorem finish_cases
    (h : finish pg result err s = .ok (b, s')) :
    (b = false ∧ s' = s ∧ ∀ row, s.row = some row → row.state.terminal = true) ∨
      (b = true ∧ ∃ row column, s.row = some row ∧ row.state.terminal = false ∧
        s' = Slot.append ⟨some (row.moved (if err.isSome then .failed else .completed) column
          ((err.map (·.code.string)).getD "") ((err.map (·.message)).getD "")), s.log⟩
          (terminalEvent result err)) := by
  obtain ⟨_ | row, log⟩ := s
  · cases h
    exact .inl ⟨rfl, rfl, by simp⟩
  · simp only [finish] at h
    split at h
    · rename_i ht
      cases h
      exact .inl ⟨rfl, rfl, by simpa using ht⟩
    · rename_i ht
      have hlive : row.state.terminal = false := by simpa using ht
      rcases hc : resultColumn pg result with e | column
      · rw [hc] at h
        cases h
      · simp only [hc, bind, Except.bind] at h
        rw [update_live _ (not_terminal_iff.mp hlive)] at h
        cases h
        exact .inr ⟨rfl, row, column, rfl, hlive, rfl⟩

theorem markUncertain_cases
    (h : markUncertain id err s = .ok (u, s')) :
    (s' = s ∧ ∃ row, s.row = some row ∧ row.state.terminal = true) ∨
      (∃ row code message ev, s.row = some row ∧ row.state.terminal = false ∧
        s' = Slot.append ⟨some (row.moved .uncertain row.resultJSON code message), s.log⟩ (uncertainEvent ev)) := by
  obtain ⟨_ | row, log⟩ := s <;> simp only [markUncertain] at h <;> split at h
  · cases h
  · cases h
  · cases h
  · split at h
    · rename_i ht
      cases h
      exact .inl ⟨rfl, row, rfl, ht⟩
    · rename_i ht
      have hlive : row.state.terminal = false := by simpa using ht
      rw [update_live _ (not_terminal_iff.mp hlive)] at h
      cases h
      exact .inr ⟨row, _, _, _, rfl, hlive, rfl⟩

variable {prepared : OperationRow → Except Error Bool}

theorem cancel_cases
    (h : cancel prepared s = .ok (u, s')) :
    ∃ row, s.row = some row ∧ row.state ∈ [.pending, .running] ∧ prepared row = .ok false ∧
      s' = Slot.append ⟨some (row.moved .cancelled row.resultJSON row.errorCode row.errorMessage), s.log⟩
        cancelledEvent := by
  obtain ⟨_ | row, log⟩ := s
  · cases h
  · simp only [cancel] at h
    split at h
    · cases h
    rename_i ht
    have hlive : row.state ∈ [.pending, .running] := by
      revert ht; cases row.state <;> decide
    rcases hp : prepared row with e | p
    · rw [hp] at h
      cases h
    · cases p
      · rw [hp, update_live _ hlive] at h
        cases h
        exact ⟨row, rfl, hlive, hp, rfl⟩
      · rw [hp] at h
        cases h

theorem fenceRestart_cases (hrow : s.row = some row)
    (hlive : row.state ∈ [.pending, .running]) (h : fenceRestart s = .ok s') :
    s' = Slot.append ⟨some (row.moved .uncertain row.resultJSON "SERVICE_RESTARTED" restartMessage), s.log⟩
      (uncertainEvent (some ⟨.upstreamFailed, restartMessage⟩)) := by
  obtain ⟨_, log⟩ := s
  cases hrow
  rw [fenceRestart, update_live _ hlive] at h
  cases h
  rfl

variable {tx : Slot → Except Error (α × Slot)}

theorem onSlot_ok
    (h : onSlot l id tx = .ok (a, l')) : ∃ s', tx (l id) = .ok (a, s') ∧ l' = update l id s' := by
  unfold onSlot at h
  rcases ht : tx (l id) with e | ⟨a', s'⟩
  · rw [ht] at h
    cases h
  · rw [ht] at h
    cases h
    exact ⟨s', rfl, rfl⟩

theorem ensureSchema_at (hnd : ids.Nodup)
    (h : ensureSchema ids l = .ok l') (id : String) :
    (id ∈ ids ∧ fenceRestart (l id) = .ok (l' id)) ∨ (id ∉ ids ∧ l' id = l id) := by
  induction ids generalizing l with
  | nil =>
    cases h
    exact .inr ⟨by simp, rfl⟩
  | cons a rest ih =>
    rw [nodup_cons] at hnd
    simp only [ensureSchema] at h
    rcases hf : fenceRestart (l a) with e | s
    · rw [hf] at h
      cases h
    · rw [hf] at h
      obtain ⟨hmem, hfence⟩ | ⟨hmem, hsame⟩ := ih hnd.2 h
      · have hne : id ≠ a := fun he => hnd.1 (he ▸ hmem)
        rw [update_of_ne hne] at hfence
        exact .inl ⟨mem_cons_of_mem _ hmem, hfence⟩
      · by_cases he : id = a
        · subst he
          rw [update_self] at hsame
          exact .inl ⟨by simp, by rw [hsame]; exact hf⟩
        · rw [update_of_ne he] at hsame
          exact .inr ⟨by simp [he, hmem], hsame⟩

theorem map_snd_ok {x : Except Error (α × Ledger)}
    (h : x.map (·.2) = .ok l') : ∃ a, x = .ok (a, l') := by
  obtain e | ⟨a, l''⟩ := x
  · cases h
  · cases h
    exact ⟨a, rfl⟩

theorem onSlot_effect (h : (onSlot l key tx).map (·.2) = .ok l')
    (heff : ∀ a s', tx (l key) = .ok (a, s') → id = key → Effect again (l key) s') :
    Effect again (l id) (l' id) := by
  obtain ⟨a, ho⟩ := map_snd_ok h
  obtain ⟨s', htx, rfl⟩ := onSlot_ok ho
  by_cases he : id = key
  · subst he
    rw [update_self]
    exact heff a s' htx rfl
  · rw [update_of_ne he]
    exact .same _

theorem start_effect (h : start record raced s = .ok (r, s')) : Effect again s s' := by
  obtain ⟨_, _, rfl, _⟩ | ⟨hnone, _, rfl, _⟩ := start_cases h
  · exact .same _
  · obtain ⟨_, log⟩ := s
    cases hnone
    exact .created rfl rfl

theorem claimReplay_effect (h : claimReplay id s = .ok (b, s')) : Effect again s s' := by
  obtain ⟨_, rfl⟩ | ⟨_, row, hrow, hu, rfl⟩ := claimReplay_cases h
  · exact .same _
  · obtain ⟨_, log⟩ := s
    cases hrow
    exact .claimed hu

theorem finish_effect
    (h : finish pg result err s = .ok (b, s')) : Effect again s s' := by
  obtain ⟨_, rfl, _⟩ | ⟨_, row, column, hrow, hlive, rfl⟩ := finish_cases h
  · exact .same _
  · obtain ⟨_, log⟩ := s
    cases hrow
    exact .settled _ _ _ hlive (by split <;> rfl) (terminalEvent_terminal _ _)

theorem markUncertain_effect (hagain : again)
    (h : markUncertain id err s = .ok (u, s')) : Effect again s s' := by
  obtain ⟨rfl, _⟩ | ⟨row, code, message, ev, hrow, hlive, rfl⟩ := markUncertain_cases h
  · exact .same _
  · obtain ⟨_, log⟩ := s
    cases hrow
    exact .doubted _ _ _ hlive fun _ => hagain

theorem cancel_effect
    (h : cancel prepared s = .ok (u, s')) : Effect again s s' := by
  obtain ⟨row, hrow, hlive, _, rfl⟩ := cancel_cases h
  obtain ⟨_, log⟩ := s
  cases hrow
  exact .settled _ _ _ (inFlight_live hlive) rfl rfl

theorem fenceRestart_effect (hrow : s.row = some row)
    (hlive : row.state ∈ [.pending, .running]) (h : fenceRestart s = .ok s') : Effect again s s' := by
  obtain rfl := fenceRestart_cases hrow hlive h
  obtain ⟨_, log⟩ := s
  cases hrow
  refine .doubted _ _ _ (inFlight_live hlive) fun hu => ?_
  simp [hu] at hlive

/-- Every step is, on each operation, one of the effects; only `markUncertain` marks again. -/
theorem Step.effect {c : Call} (h : Step pg l c l') (id : String) :
    Effect (∃ err, c = .markUncertain id err) (l id) (l' id) := by
  cases h with
  | rolledBack => exact .same _
  | committed hadm h =>
    cases c with
    | start record raced => exact onSlot_effect h fun _ _ ht _ => start_effect ht
    | claimReplay key => exact onSlot_effect h fun _ _ ht _ => claimReplay_effect ht
    | finish key result err => exact onSlot_effect h fun _ _ ht _ => finish_effect ht
    | markUncertain key err => exact onSlot_effect h fun _ _ ht he => markUncertain_effect ⟨err, he ▸ rfl⟩ ht
    | cancel key prepared => exact onSlot_effect h fun _ _ ht _ => cancel_effect ht
    | ensureSchema ids =>
      obtain ⟨hmem, hfence⟩ | ⟨_, hsame⟩ := ensureSchema_at hadm.1 h id
      · obtain ⟨row, hrow, hlive⟩ := (hadm.2 id).mp hmem
        exact fenceRestart_effect hrow hlive hfence
      · rw [hsame]
        exact .same _

/-! ## The contract of the ledger -/

def Slot.revision (s : Slot) : Nat := (s.row.map (·.revision)).getD 0

def Slot.state (s : Slot) : Option OperationState := s.row.map (·.state)

structure LogContract (row : OperationRow) (log : List OperationEvent) : Prop where
  numbered : log.map (·.sequence) = range' 1 log.length
  accepted : ∃ e rest, log = e :: rest ∧ e.event = acceptedEvent
  terminal_iff : (∃ e ∈ log, e.event.terminal = true) ↔ row.state.terminal = true
  terminal_last : ∀ front e back, log = front ++ e :: back → e.event.terminal = true → back = []

/-- An operation without a row has no events; one with a row has a log as the contract says. -/
structure Slot.WF (s : Slot) : Prop where
  absent : s.row = none → s.log = []
  log : ∀ row, s.row = some row → LogContract row s.log

theorem LogContract.live (h : LogContract row log)
    (hlive : row.state.terminal = false) : ∀ e ∈ log, e.event.terminal = false := by
  intro e he
  by_contra hne
  have ht := h.terminal_iff.mp ⟨e, he, by simpa using hne⟩
  simp [hlive] at ht

/-- A log without terminal events takes any next event; the row's state has to follow it. -/
theorem LogContract.append (h : LogContract row log) (hlive : row.state.terminal = false)
    (hrow : row'.state.terminal = event.terminal) :
    LogContract row' (Slot.append ⟨some row', log⟩ event).log where
  numbered := Numbered.snoc (b := 0) h.numbered (by simpa using Numbered.next h.numbered)
  accepted := by
    obtain ⟨e, rest, rfl, he⟩ := h.accepted
    exact ⟨e, _, rfl, he⟩
  terminal_iff := by
    have hold := h.live hlive
    constructor
    · rintro ⟨e, he, ht⟩
      obtain hin | hin := mem_append.mp he
      · simp [hold e hin] at ht
      · rw [hrow]
        rw [mem_singleton] at hin
        simpa [hin] using ht
    · intro ht
      exact ⟨_, mem_append_right _ (mem_singleton_self _), hrow ▸ ht⟩
  terminal_last := by
    intro front e back heq ht
    -- a terminal entry is not one of the old ones, so it is the appended one
    obtain rfl | ⟨back', last, rfl⟩ := eq_nil_or_concat back
    · rfl
    · rw [concat_eq_append, ← cons_append, ← append_assoc] at heq
      have hcut : log = front ++ e :: back' := (append_inj' heq rfl).1
      have hfalse := h.live hlive e (by simp [hcut])
      simp [hfalse] at ht

theorem Effect.wf (h : Effect again s s') (hs : s.WF) : s'.WF := by
  cases h with
  | same => exact hs
  | created hstate hrev =>
    have hnil := hs.absent rfl
    subst hnil
    refine ⟨by simp [Slot.append], ?_⟩
    rintro row ⟨⟩
    refine ⟨rfl, ⟨_, [], rfl, rfl⟩, ?_, ?_⟩
    · simp [Slot.append, acceptedEvent, WatchEvent.terminal, hstate, terminal]
    · intro front e back heq
      rcases front with _ | ⟨x, front⟩ <;> simp [Slot.append] at heq
      exact fun _ => heq.2
  | claimed hstate =>
    refine ⟨by simp, ?_⟩
    rintro _ ⟨⟩
    have hc := hs.log _ rfl
    refine ⟨hc.numbered, hc.accepted, ?_, hc.terminal_last⟩
    simpa [moved, hstate, terminal] using hc.terminal_iff
  | doubted code message err hlive hagain =>
    refine ⟨by simp [Slot.append], ?_⟩
    rintro _ ⟨⟩
    exact (hs.log _ rfl).append hlive rfl
  | settled result code message hlive hstate hevent =>
    refine ⟨by simp [Slot.append], ?_⟩
    rintro _ ⟨⟩
    exact (hs.log _ rfl).append hlive (hstate.trans hevent.symm)

theorem Effect.terminal_fixed (h : Effect again s s') (hrow : s.row = some row)
    (ht : row.state.terminal = true) : s' = s := by
  cases h with
  | same => rfl
  | created => cases hrow
  | claimed hstate =>
    cases hrow
    simp [hstate, terminal] at ht
  | doubted _ _ _ hlive =>
    cases hrow
    simp [hlive] at ht
  | settled _ _ _ hlive =>
    cases hrow
    simp [hlive] at ht

/-- An effect leaves the row as it is, or moves the revision by one with a change of state or with a
repeated mark of an uncertain row. -/
theorem Effect.revision (h : Effect again s s') : s'.row = s.row ∨ (s'.revision = s.revision + 1 ∧
      (s'.state ≠ s.state ∨ (s.state = some .uncertain ∧ again))) := by
  cases h with
  | same => exact .inl rfl
  | created hstate hrev => exact .inr ⟨by simp [Slot.revision, Slot.append, hrev], .inl (by simp [Slot.state, Slot.append])⟩
  | claimed hstate =>
    exact .inr ⟨by simp [Slot.revision, moved], .inl (by simp [Slot.state, moved, hstate])⟩
  | @doubted row _ _ _ _ hlive hagain =>
    refine .inr ⟨by simp [Slot.revision, Slot.append, moved], ?_⟩
    by_cases hu : row.state = .uncertain
    · exact .inr ⟨by simp [Slot.state, hu], hagain hu⟩
    · exact .inl (by simpa [Slot.state, Slot.append, moved] using Ne.symm hu)
  | settled _ _ _ hlive hstate =>
    refine .inr ⟨by simp [Slot.revision, Slot.append, moved], .inl ?_⟩
    intro he
    simp only [Slot.state, Slot.append, moved, Option.map_some, Option.some.injEq] at he
    simp [he, hlive] at hstate

theorem run_terminal_fixed (hr : Run (Step pg) l cs l')
    (hrow : (l id).row = some row) (ht : row.state.terminal = true) : l' id = l id := by
  refine hr.inv (I := fun k => k id = l id) (fun s _ t hi hs => ?_) rfl
  rw [(hs.effect id).terminal_fixed (by rw [hi]; exact hrow) ht, hi]

theorem empty_wf (id : String) : (Ledger.empty id).WF := ⟨fun _ => rfl, fun _ h => by cases h⟩

/-- A committed `markUncertain` on an uncertain row takes a revision although the state stays. -/
theorem commit_remark
    (h : commit pg (.markUncertain id err) l = .ok l') (hu : (l id).state = some .uncertain) :
    (l' id).revision = (l id).revision + 1 ∧ (l' id).state = some .uncertain := by
  obtain ⟨_, ho⟩ := map_snd_ok h
  obtain ⟨s', htx, rfl⟩ := onSlot_ok ho
  rw [update_self]
  obtain ⟨row, hrow, hst⟩ : ∃ row, (l id).row = some row ∧ row.state = .uncertain := by
    simpa [Slot.state] using hu
  obtain ⟨_, row', hrow', ht⟩ | ⟨row', _, _, _, hrow', _, rfl⟩ := markUncertain_cases htx
  · cases hrow.symm.trans hrow'
    simp [hst, terminal] at ht
  · cases hrow.symm.trans hrow'
    simp [Slot.revision, Slot.state, Slot.append, moved, hrow]

/-- The contract of the ledger along every run from the empty tables. -/
theorem ledger_contract (pg : Platform) {cs : List Call} {l : Ledger}
    (hr : Run (Step pg) Ledger.empty cs l) :
    -- (a) terminal rows are final
    (∀ cs' l', Run (Step pg) l cs' l' → ∀ id row, (l id).row = some row → row.state.terminal = true →
      (l' id).row = some row) ∧
    -- (b) revisions count the committed transitions
    (∀ c l', Step pg l c l' → ∀ id, ((l' id).state ≠ (l id).state → (l' id).revision = (l id).revision + 1) ∧
      ((l' id).revision ≠ (l id).revision → (l' id).revision = (l id).revision + 1 ∧ ((l' id).state ≠ (l id).state ∨
          ((l id).state = some .uncertain ∧ ∃ err, c = .markUncertain id err)))) ∧
    (∀ id err l', commit pg (.markUncertain id err) l = .ok l' → (l id).state = some .uncertain →
      (l' id).revision = (l id).revision + 1) ∧
    -- (c) the durable log
    (∀ id row, (l id).row = some row → LogContract row (l id).log) ∧
    (∀ id, (l id).row = none → (l id).log = []) := by
  have hwf := hr.inv (I := fun l => ∀ id, (l id).WF) (fun _ _ _ hi hs id => (hs.effect id).wf (hi id)) empty_wf
  refine ⟨?_, ?_, fun id err l' h hu => (commit_remark h hu).1, fun id => (hwf id).log, fun id => (hwf id).absent⟩
  · intro cs' l' hr' id row hrow ht
    rw [run_terminal_fixed hr' hrow ht, hrow]
  · intro c l' hs id
    obtain hsame | ⟨hrev, hwhy⟩ := (hs.effect id).revision
    · refine ⟨fun hne => absurd ?_ hne, fun hne => absurd ?_ hne⟩
      · simp [Slot.state, hsame]
      · simp [Slot.revision, hsame]
    · exact ⟨fun _ => hrev, fun _ => ⟨hrev, hwhy⟩⟩

/-- A platform and a record to run the ledger on. -/
def samplePlatform : Platform := ⟨some, fun _ => replicate 32 0, fun _ => true⟩

def sampleRecord : OperationRecord where
  id := "op-1"
  capability := "product.messages.v1"
  operation := "send"
  ownerID := "@owner:example.com"
  generation := 1
  rootDigest := replicate 32 0
  digest := replicate 32 1
  state := .pending
  result := ""
  err := none
  revision := 0
  created := false

/-- A second `markUncertain` moves the revision while the state stays uncertain. -/
theorem revision_moves_without_state : ∃ l m, Run (Step samplePlatform) Ledger.empty
        [.start sampleRecord false, .markUncertain "op-1" none] l ∧
      Step samplePlatform l (.markUncertain "op-1" none) m ∧
      (m "op-1").state = (l "op-1").state ∧ (m "op-1").revision ≠ (l "op-1").revision := by
  refine ⟨_, _, .cons (.committed trivial rfl) (.single (.committed trivial rfl)), .committed trivial rfl, rfl, ?_⟩
  decide

/-- The contract at a run that starts an operation and completes it. -/
theorem ledger_contract_completed : ∃ l, Run (Step samplePlatform) Ledger.empty
        [.start sampleRecord false, .finish "op-1" "done" none] l ∧
      ∃ row, (l "op-1").row = some row ∧ row.state = .completed ∧ LogContract row (l "op-1").log := by
  refine' ⟨_, ?run, _, ?stored, ?state, (ledger_contract samplePlatform ?run).2.2.2.1 _ _ ?stored⟩
  case run => exact .cons (.committed trivial rfl) (.single (.committed trivial rfl))
  case stored => rfl
  case state => rfl

end Dirextalk.Capability

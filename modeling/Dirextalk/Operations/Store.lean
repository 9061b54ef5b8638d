/-
  Dirextalk.Operations.Store — durable operation records (`p2p/internal/operations`), the two
  statements that write them (`ClaimOperation` and `CompareAndSwapOperation` of
  `p2p/storage/storage_operations.go` and `p2p/storage/memory_operations.go`) and the tracker
  of one claimant (`tracker.go`).

  A call touches the row of its operation id only, so each is a function on one row. The
  store reads its clock when it computes a lease and when it compares one with the time; in
  the database these are two readings, and the first of a claim can be older than the last
  write to the row, because the statement waits for the row after it.
-/
import Dirextalk.Lib.Go

namespace Dirextalk.Operations

open Lib.Go

structure Record where
  operationID : String
  action : String
  status : String
  phase : String
  roomID : String
  currentRoomID : String
  userID : String
  peerMXID : String
  requestID : String
  baseRequestID : String
  resultJSON : String
  errorCode : String
  revision : Int
  leaseOwner : String
  /-- milliseconds of the store clock -/
  leaseUntil : Int
  createdAt : Int
  updatedAt : Int
  deriving DecidableEq, Repr

/-- The lease a call asks for. An empty owner or a duration that is not positive asks for none. -/
def lease (owner : String) (leaseDurationMillis now : Int) : String × Int :=
  if owner ≠ "" ∧ 0 < leaseDurationMillis then (owner, now + leaseDurationMillis) else ("", 0)

/-- A record with the next revision and a new lease. -/
def Record.leased (current : Record) (l : String × Int) : Record :=
  { current with revision := current.revision + 1, leaseOwner := l.1, leaseUntil := l.2 }

/-- The claimed record is the one the caller means: empty fields of the caller's record match anything. -/
def sameIdentity (current record : Record) : Bool :=
  current.action == record.action && (record.roomID == "" || current.roomID == record.roomID) &&
    (record.userID == "" || current.userID == record.userID) &&
    (record.peerMXID == "" || current.peerMXID == record.peerMXID) &&
    (record.requestID == "" || current.requestID == record.requestID)

abbrev Row := Option Record

/-- `ClaimOperation` on a row, but for when a lease may be taken over: what it returns, and the row after
it. -/
def claimRow (free : Record → Bool) (record : Record) (l : String × Int) : Row → (Record × Bool) × Row
  | none =>
    let inserted := { record with revision := 1, leaseOwner := l.1, leaseUntil := l.2 }
    ((inserted, true), some inserted)
  | some current =>
    if free current && sameIdentity current record then ((current.leased l, true), some (current.leased l))
    else ((current, false), some current)

/-- `ClaimOperation` of the database. The lease was computed at `leaseNow`; the row is compared with it, so a claim
that asks for none takes over no lease before it ends. -/
def claimOperation (record : Record) (owner : String) (leaseDurationMillis leaseNow now : Int) : Row → (Record × Bool) × Row :=
  let l := lease owner leaseDurationMillis leaseNow
  claimRow (fun current => current.leaseOwner == "" || current.leaseOwner == l.1 || decide (current.leaseUntil ≤ now)) record l

/-- `ClaimOperation` in memory: the row is compared with the name of the caller. -/
def Memory.claimOperation (record : Record) (owner : String) (leaseDurationMillis now : Int) : Row → (Record × Bool) × Row :=
  claimRow (fun current => !(current.leaseOwner != "" && current.leaseOwner != owner && decide (now < current.leaseUntil)))
    record (lease owner leaseDurationMillis now)

/-- `CompareAndSwapOperation` of both stores: the lease is compared with the time `now`, the new lease is
computed at `leaseNow`. -/
def compareAndSwapOperation (record : Record) (expectedRevision : Int) (owner : String)
    (leaseDurationMillis now leaseNow : Int) : Row → Option Record × Row
  | none => (none, none)
  | some current =>
    if current.revision = expectedRevision ∧ current.leaseOwner = owner ∧ now < current.leaseUntil then
      let l := lease record.leaseOwner leaseDurationMillis leaseNow
      let updated := { record with revision := current.revision + 1, leaseOwner := l.1, leaseUntil := l.2 }
      (some updated, some updated)
    else (none, some current)

/-! ## The tracker -/

structure Tracker where
  owner : String
  record : Record
  leaseDurationMillis : Int

structure Progress where
  status : String
  phase : String
  currentRoomID : String
  errorCode : String
  resultJSON : String

/-- `if value != "" { field = value }`. -/
def orKeep (value current : String) : String := if value = "" then current else value

/-- The record `Update` sends; `now` is the clock of the process. -/
def Tracker.updated (t : Tracker) (p : Progress) (now : Int) : Record :=
  { t.record with
      status := orKeep p.status t.record.status
      phase := orKeep p.phase t.record.phase
      currentRoomID := orKeep p.currentRoomID t.record.currentRoomID
      errorCode := p.errorCode
      resultJSON := p.resultJSON
      updatedAt := now }

/-- What `Heartbeat` passes to `Update`: the values of a snapshot it took before. -/
def heartbeat (snapshot : Record) : Progress :=
  ⟨snapshot.status, snapshot.phase, snapshot.currentRoomID, snapshot.errorCode, snapshot.resultJSON⟩

def Tracker.released (t : Tracker) (now : Int) : Record :=
  { t.record with leaseOwner := "", leaseUntil := 0, updatedAt := now }

/-! ## What the calls do -/

variable {record current : Record} {owner : String} {duration leaseNow now expectedRevision : Int} {row : Row}

theorem claimRow_some : (claimRow free record l (some current) = ((current, false), some current)) ∨
      (free current = true ∧ sameIdentity current record = true ∧
        claimRow free record l (some current) = ((current.leased l, true), some (current.leased l))) := by
  by_cases h : (free current && sameIdentity current record) = true
  · obtain ⟨hfree, hsame⟩ := Bool.and_eq_true_iff.mp h
    exact .inr ⟨hfree, hsame, if_pos h⟩
  · exact .inl (if_neg h)

/-- A swap succeeds exactly if the row has the expected revision and an unexpired lease of the caller. -/
theorem compareAndSwap_some_iff :
    (compareAndSwapOperation record expectedRevision owner duration now leaseNow row).1 = some updated ↔
      ∃ current, row = some current ∧ current.revision = expectedRevision ∧ current.leaseOwner = owner ∧
        now < current.leaseUntil ∧
        updated = { record with revision := current.revision + 1
                                leaseOwner := (lease record.leaseOwner duration leaseNow).1
                                leaseUntil := (lease record.leaseOwner duration leaseNow).2 } := by
  cases row with
  | none => simp [compareAndSwapOperation]
  | some current =>
    by_cases h : current.revision = expectedRevision ∧ current.leaseOwner = owner ∧ now < current.leaseUntil
    · simp [compareAndSwapOperation, h, eq_comm]
    · simp only [compareAndSwapOperation, if_neg h]
      constructor
      · intro hnone
        cases hnone
      · rintro ⟨_, hrow, hrevision, howner, huntil, _⟩
        cases hrow
        exact absurd ⟨hrevision, howner, huntil⟩ h

theorem compareAndSwap_row : (compareAndSwapOperation record expectedRevision owner duration now leaseNow row).2 =
      (compareAndSwapOperation record expectedRevision owner duration now leaseNow row).1.or row := by
  cases row with
  | none => rfl
  | some current =>
    simp only [compareAndSwapOperation]
    split <;> rfl

end Dirextalk.Operations

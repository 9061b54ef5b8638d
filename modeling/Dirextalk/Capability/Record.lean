/-
  Dirextalk.Capability.Record — the data of the product-capability operation ledger
  (`internal/productcapability/operations.go`): records, table rows, watch events and
  the replay fence `operationMatches`.

  Columns no modelled function reads (`updated_at`, `created_at`, event timestamps) are
  left out. The state column carries a CHECK over six values, so it is an enumeration.
-/
import Dirextalk.Lib.Go

namespace Dirextalk.Capability

open Lib.Go

/-- The sentinel errors the code compares with `errors.Is` or `==`. -/
inductive Sentinel where
  | sqlNoRows
  | operationConflict
  | operationPrepared
  | matrixEventUnknown
  | matrixEventRejected
  /-- A `productpolicy.PolicyError`, which `errors.As` recovers. -/
  | policy (code : Int) (message : String)
  deriving DecidableEq, Repr

abbrev Error := Err Sentinel

def errNoRows : Error := ⟨"sql: no rows in result set", [.sqlNoRows]⟩

def errOperationConflict : Error :=
  ⟨"operation id already exists with a different request or owner", [.operationConflict]⟩

def errOperationPrepared : Error :=
  ⟨"operation has a prepared Matrix mutation", [.operationPrepared]⟩

inductive OperationState where
  | pending
  | running
  | completed
  | failed
  | cancelled
  | uncertain
  deriving DecidableEq, Repr

def OperationState.terminal : OperationState → Bool
  | .completed | .failed | .cancelled => true
  | _ => false

inductive ErrorCode where
  | invalidArgument
  | conflict
  | upstreamFailed
  deriving DecidableEq, Repr

def ErrorCode.string : ErrorCode → String
  | .invalidArgument => "ERROR_CODE_INVALID_ARGUMENT"
  | .conflict => "ERROR_CODE_CONFLICT"
  | .upstreamFailed => "ERROR_CODE_UPSTREAM_FAILED"

structure CapabilityError where
  code : ErrorCode
  message : String
  deriving DecidableEq, Repr

structure OperationRecord where
  id : String
  capability : String
  operation : String
  ownerID : String
  generation : Int
  rootDigest : Bytes
  digest : Bytes
  state : OperationState
  result : String
  err : Option CapabilityError
  revision : Nat
  created : Bool

/-- A row of `p2p_capability_operations`; the key column `operation_id` indexes the table. -/
structure OperationRow where
  capability : String
  operation : String
  ownerID : String
  generation : Int
  rootDigest : Bytes
  digest : Bytes
  state : OperationState
  resultJSON : Option String
  errorCode : String
  errorMessage : String
  revision : Nat

/-- The CHECK constraints of `p2p_capability_operations`. -/
def OperationRow.checks (id : String) (row : OperationRow) : Bool :=
  id != "" && row.capability != "" && row.operation != "" && row.ownerID != "" &&
    decide (0 < row.generation) && row.rootDigest.length == 32 && row.digest.length == 32 &&
    decide (0 < row.revision)

def scanOperationRow (id : String) (row : OperationRow) : OperationRecord where
  id := id
  capability := row.capability
  operation := row.operation
  ownerID := row.ownerID
  generation := row.generation
  rootDigest := row.rootDigest
  digest := row.digest
  state := row.state
  result := row.resultJSON.getD ""
  -- whatever code was stored, it is read back as UPSTREAM_FAILED
  err := if row.errorCode = "" then none else some ⟨.upstreamFailed, row.errorMessage⟩
  revision := row.revision
  created := false

/-- The digest `operationMatches` compares: the root digest, or the final one when it is empty. -/
def OperationRecord.fenceDigest (r : OperationRecord) : Bytes :=
  if r.rootDigest.length = 0 then r.digest else r.rootDigest

def operationMatches (existing requested : OperationRecord) : Bool :=
  existing.capability == requested.capability && existing.operation == requested.operation &&
    existing.ownerID == requested.ownerID && existing.generation == requested.generation &&
    existing.fenceDigest == requested.fenceDigest

/-- The payload of a watch event; `progress` carries the error of the uncertain record. -/
inductive WatchEvent where
  | accepted (state : OperationState)
  | progress (state : String) (err : Option CapabilityError)
  | result (resultJSON : String)
  | error (err : CapabilityError)
  | cancelled (reason : String)
  deriving DecidableEq, Repr

/-- The events after which `WatchOperation` stops sending. -/
def WatchEvent.terminal : WatchEvent → Bool
  | .result _ | .error _ | .cancelled _ => true
  | _ => false

structure OperationEvent where
  sequence : Nat
  event : WatchEvent
  deriving DecidableEq, Repr

def acceptedEvent : WatchEvent := .accepted .pending

def uncertainEvent (err : Option CapabilityError) : WatchEvent := .progress "uncertain" err

def terminalEvent (result : String) (err : Option CapabilityError) : WatchEvent :=
  match err with
  | some e => .error e
  | none => .result result

def cancelledEvent : WatchEvent := .cancelled "cancelled by caller"

@[simp] theorem terminalEvent_terminal (result : String) (err : Option CapabilityError) :
    (terminalEvent result err).terminal = true := by
  cases err <;> rfl

end Dirextalk.Capability

/-
  Dirextalk.Capability.Mutation — `ExecutePreparedMatrixMutation`
  (`internal/dirextalktransport/prepared.go`) as a program over the calls a capability
  handler makes.

  A status-capable port may answer anything at each call. Success is justified by an
  `accepted` status or a receipt for the staged event.
-/
import Dirextalk.Lib.Prog
import Dirextalk.Capability.Prepared

namespace Dirextalk.Capability

open Lib Lib.Go

/-! ## The calls of a handler -/

structure SendMessageRequest where
  senderMXID : String
  roomID : String
  messageType : String
  logicalID : String
  postID : String

/-- `MatrixEventDisposition`, a string type of which three values have a meaning. -/
inductive Disposition where
  | accepted
  | rejected
  | unknown
  | other (text : String)

structure StatusError where
  status : Int
  message : String

/-- A decoded parameter map: its string entries ("" when absent) and its boolean ones. -/
structure Params where
  text : String → String
  flag : String → Bool

structure Identity where
  ownerMXID : String
  agentMXID : String
  agentRoomID : String

structure ContentOwner where
  mxid : String
  displayName : String
  agentMXID : String
  agentDisplayName : String

structure Post where
  channelID : String
  roomID : String
  commentsEnabled : Bool

structure Comment where
  commentID : String
  postID : String
  channelID : String
  eventID : String
  authorMXID : String
  authorName : String
  body : String
  messageType : String
  originServerTS : Int

/-- What a handler returns, before `json.Marshal`. -/
inductive ResultValue where
  | message (roomID eventID : String) (originServerTS : Int)
  | comment (postID commentID : String) (originServerTS : Int)

/-- The two places where `ExecutePreparedMatrixMutation` calls `EventExists`. -/
inductive ExistsSite where
  | underUnknown
  | beforeSend

inductive PostSite where
  | forRoom
  | forComment

/-- The calls of a capability handler. `mutated` marks the return of `ExecutePreparedMatrixMutation`. -/
inductive HandlerCall where
  | decodeInput (capability input : String)
  | encodeResult (value : ResultValue)
  | accountDeprovisioned
  | roomBlocked (roomID : String)
  | identity
  | requireJoinedRoom (roomID : String)
  | requireMatrixJoinedUser (roomID userID : String)
  | matrixWired
  | preparedWired
  | sendMessage (request : SendMessageRequest)
  | clock
  | commentToken
  | newEventID (contentID : String)
  | contentOwner
  | postByID (site : PostSite) (postID channelID : String)
  | channelByID (channelID : String)
  | contentJoined (roomID : String)
  | insertComment (comment : Comment)
  | existingComment (comment : Comment)
  | commentOperation (roomID : String)
  | getPrepared (c : OperationContext)
  | prepareMessage (request : SendMessageRequest)
  | prepareEvent (e : PreparedMatrixEvent)
  | eventStatus (message : PreparedMessage)
  | eventExists (site : ExistsSite) (roomID eventID : String)
  | sendPrepared (message : PreparedMessage)
  | markSent (c : OperationContext) (receipt : SendMessageResult)
  | mutated (result : Except Error SendMessageResult)

@[reducible] def HandlerCall.Ans : HandlerCall → Type
  | .decodeInput _ _ => Except Error (String × Params)
  | .encodeResult _ => Except Error String
  | .accountDeprovisioned | .roomBlocked _ | .matrixWired | .preparedWired => Bool
  | .identity => Identity
  | .requireJoinedRoom _ | .requireMatrixJoinedUser _ _ | .contentJoined _ => Option StatusError
  | .sendMessage _ | .sendPrepared _ => Except Error SendMessageResult
  | .clock => Int
  | .commentToken | .newEventID _ => String
  | .contentOwner => ContentOwner
  | .postByID _ _ _ => Except Error (Option Post)
  | .channelByID _ => Except Error (Option String)
  | .insertComment _ | .commentOperation _ | .prepareEvent _ | .markSent _ _ => Except Error Unit
  | .existingComment _ => Except Error (Option Comment)
  | .getPrepared _ => Except Error PreparedMatrixEvent
  | .prepareMessage _ => Except Error PreparedMessage
  | .eventStatus _ => Except Error Disposition
  | .eventExists _ _ _ => Except Error Bool
  | .mutated _ => Unit

abbrev HandlerSig : Sig := ⟨HandlerCall, HandlerCall.Ans⟩

abbrev Handler (α : Type) := Prog HandlerSig α

def invoke (c : HandlerCall) : Handler c.Ans := Prog.ask (σ := HandlerSig) c

/-! ## The algorithm -/

/-- Whether port and store are both present, and implement the optional `MatrixEventStatusPort` and
`PreparedMatrixMutationReceiptStore`. -/
structure Ports where
  present : Bool
  statusPort : Bool
  receiptStore : Bool

/-- `fmt.Errorf("%w: …", ErrMatrixEventUnknown, …)`. -/
def unknownError (text : String) : Error :=
  ⟨"matrix event acceptance is unknown: " ++ text, [.matrixEventUnknown]⟩

def rejectedError (text : String) : Error :=
  ⟨"matrix event was rejected: " ++ text, [.matrixEventRejected]⟩

def OperationContext.complete (c : OperationContext) : Bool :=
  c.operationID != "" && c.ownerID != "" && decide (0 < c.generation) && c.rootDigest.length == 32

def validatePreparedMessage (m : PreparedMessage) : Except Error Unit :=
  if m.eventID == "" || m.roomID == "" || m.senderMXID == "" || m.roomVersion == "" ||
      m.eventJSON.length == 0 || decide (maxPreparedMatrixEventBytes < m.eventJSON.length) ||
      m.contentDigest.length != 32 then
    .error (Err.new "prepared Matrix PDU is incomplete")
  else .ok ()

def validatePreparedReceipt (prepared : PreparedMessage) (result : SendMessageResult) :
    Except Error SendMessageResult :=
  if result.eventID == "" then .error (Err.new "matrix transport returned an empty event id")
  else if result.eventID != prepared.eventID then
    .error (Err.new ("matrix transport returned event " ++ result.eventID ++ " for prepared event " ++
      prepared.eventID))
  else .ok { result with
    originServerTS := if result.originServerTS = 0 then prepared.originServerTS else result.originServerTS }

section

variable (ports : Ports) (op : OperationContext)

/-- Note the receipt if the store can, whatever it answers, and return it. -/
def succeed (result : SendMessageResult) : Handler (Except Error SendMessageResult) := do
  if ports.receiptStore then
    let _ ← invoke (.markSent op result)
    return .ok result
  else return .ok result

/-- Hand the exact staged event to the port; `verb` is "send" or "resend". -/
def sendStaged (verb : String) (event : PreparedMessage) : Handler (Except Error SendMessageResult) := do
  match ← invoke (.sendPrepared event) with
  | .error e =>
    if e.is .matrixEventRejected then return .error e
    else return .error (unknownError (verb ++ " prepared Matrix event " ++ event.eventID ++ ": " ++ e.text))
  | .ok result =>
    match validatePreparedReceipt event result with
    | .error e => return .error (unknownError ("invalid Matrix receipt for " ++ event.eventID ++ ": " ++ e.text))
    | .ok result => succeed ports op result

def reconcileError (event : PreparedMessage) (e : Error) : Error :=
  unknownError ("reconcile prepared Matrix event " ++ event.eventID ++ ": " ++ e.text)

/-- The part every port takes: probe the room, then resend what is missing. -/
def probeAndResend (event : PreparedMessage) : Handler (Except Error SendMessageResult) := do
  match ← invoke (.eventExists .beforeSend event.roomID event.eventID) with
  | .error e => return .error (reconcileError event e)
  | .ok true => succeed ports op ⟨event.eventID, event.originServerTS⟩
  | .ok false => sendStaged ports op "resend" event

/-- The replay of an operation whose event is staged. -/
def reconcileStaged (event : PreparedMessage) : Handler (Except Error SendMessageResult) := do
  if ports.statusPort then
    match ← invoke (.eventStatus event) with
    | .error e => return .error (reconcileError event e)
    | .ok .accepted => succeed ports op ⟨event.eventID, event.originServerTS⟩
    | .ok .rejected => return .error (rejectedError event.eventID)
    | .ok .unknown =>
      match ← invoke (.eventExists .underUnknown event.roomID event.eventID) with
      | .error e => return .error (reconcileError event e)
      | .ok true => return .error (unknownError event.eventID)
      | .ok false => probeAndResend ports op event
    | .ok (.other text) =>
      return .error (Err.new ("prepared Matrix event " ++ event.eventID ++
        " returned invalid disposition \"" ++ text ++ "\""))
  else probeAndResend ports op event

/-- The event `ExecutePreparedMatrixMutation` stages for a message it prepared. -/
def stagedEvent (op : OperationContext) (capability operationName : String) (request : SendMessageRequest)
    (prepared : PreparedMessage) : PreparedMatrixEvent where
  operationID := op.operationID
  capability := capability
  operation := operationName
  ownerID := op.ownerID
  generation := op.generation
  rootDigest := op.rootDigest
  logicalID := request.logicalID
  postID := request.postID
  state := .prepared
  attempt := 1
  revision := 1
  receipt := none
  event := prepared

/-- The first attempt: prepare, stage, send. -/
def prepareAndSend (capability operationName : String)
    (request : SendMessageRequest) : Handler (Except Error SendMessageResult) := do
  match ← invoke (.prepareMessage request) with
  | .error e => return .error e
  | .ok prepared =>
    match validatePreparedMessage prepared with
    | .error e => return .error e
    | .ok () =>
      match ← invoke (.prepareEvent (stagedEvent op capability operationName request prepared)) with
      | .error e => return .error e
      | .ok () => sendStaged ports op "send" prepared

def executePreparedMatrixMutation (capability operationName : String)
    (request : SendMessageRequest) : Handler (Except Error SendMessageResult) := do
  if !ports.present then return .error (Err.new "durable Matrix mutation is unavailable")
  else if !op.complete then return .error (Err.new "capability operation context is incomplete")
  else
    match ← invoke (.getPrepared op) with
    | .ok existing =>
      if existing.capability != capability || existing.operation != operationName then
        return .error (Err.new "prepared Matrix event operation binding mismatch")
      else reconcileStaged ports op existing.event
    | .error e =>
      if e.is .sqlNoRows then prepareAndSend ports op capability operationName request
      else return .error e

end

/-! ## Success on a staged row -/

/-- What the environment answers, with the calls before in view. -/
abbrev Answers := Prog.Trace HandlerSig → (c : HandlerSig.Call) → HandlerSig.Ans c

def AnsweredStatus (d : Disposition) (tr : Prog.Trace HandlerSig) : Prop :=
  ∃ message, ⟨HandlerCall.eventStatus message, (Except.ok d : Except Error Disposition)⟩ ∈ tr

def ReceiptReturned (eventID : String) (tr : Prog.Trace HandlerSig) : Prop :=
  ∃ message result, ⟨HandlerCall.sendPrepared message, (Except.ok result : Except Error SendMessageResult)⟩ ∈ tr ∧
    result.eventID = eventID

structure SuccessJustified (eventID : String) (out : Except Error SendMessageResult × Prog.Trace HandlerSig) :
    Prop where
  justified : ∀ result, out.1 = .ok result → AnsweredStatus .accepted out.2 ∨ ReceiptReturned eventID out.2
  unknown : AnsweredStatus .unknown out.2 → ∀ result, out.1 = .ok result → ReceiptReturned eventID out.2

variable {o : Answers} {ports : Ports} {op : OperationContext} {tr : Prog.Trace HandlerSig}

variable {result : SendMessageResult}

theorem validatePreparedReceipt_ok (h : validatePreparedReceipt prepared result = .ok result') :
    result.eventID = prepared.eventID ∧ result'.eventID = prepared.eventID := by
  unfold validatePreparedReceipt at h
  split at h
  · cases h
  split at h
  · cases h
  rename_i hne
  cases h
  have he : result.eventID = prepared.eventID := by simpa using hne
  exact ⟨he, he⟩

theorem eval_invoke (c : HandlerCall) (f : c.Ans → Handler α) :
    (invoke c >>= f).eval o tr = (f (o tr c)).eval o (⟨c, o tr c⟩ :: tr) := rfl

theorem sendStaged_receipt (h : ((sendStaged ports op verb event).eval o tr).1 = .ok result) :
    ReceiptReturned event.eventID ((sendStaged ports op verb event).eval o tr).2 := by
  revert h
  rw [sendStaged, eval_invoke]
  generalize o tr (.sendPrepared event) = r
  intro h
  obtain e | receipt := r
  · dsimp only at h
    split at h <;> cases h
  · dsimp only at h ⊢
    rcases hv : validatePreparedReceipt event receipt with e | receipt'
    · rw [hv] at h
      cases h
    · exact ⟨event, receipt, (Prog.eval_suffix o _ _).subset List.mem_cons_self, (validatePreparedReceipt_ok hv).1⟩

theorem probeAndResend_success
    (h : ((probeAndResend ports op event).eval o tr).1 = .ok result) :
    o tr (.eventExists .beforeSend event.roomID event.eventID) = .ok true ∨
      ReceiptReturned event.eventID ((probeAndResend ports op event).eval o tr).2 := by
  revert h
  rw [probeAndResend, eval_invoke]
  generalize o tr (.eventExists .beforeSend event.roomID event.eventID) = r
  intro h
  obtain e | present := r
  · cases h
  · cases present
    · exact .inr (sendStaged_receipt h)
    · exact .inl rfl

theorem succeed_eval (o : Answers) (ports : Ports) (op : OperationContext) (tr : Prog.Trace HandlerSig)
    (result : SendMessageResult) :
    ((succeed ports op result).eval o tr).1 = .ok result ∧
      ∀ x ∈ ((succeed ports op result).eval o tr).2, x ∈ tr ∨ x.1 = .markSent op result := by
  unfold succeed
  split
  · rw [eval_invoke]
    refine ⟨rfl, fun x hx => ?_⟩
    obtain rfl | hx := List.mem_cons.mp hx
    · exact .inr rfl
    · exact .inl hx
  · exact ⟨rfl, fun x hx => .inl hx⟩

section Reconcile

variable (op) (staged : PreparedMatrixEvent)

/-- The traces before the three questions a status-capable port is asked. -/
def afterLookup : Prog.Trace HandlerSig := [⟨HandlerCall.getPrepared op, (.ok staged : Except Error _)⟩]

def afterStatus : Prog.Trace HandlerSig :=
  ⟨HandlerCall.eventStatus staged.event, (.ok .unknown : Except Error Disposition)⟩ :: afterLookup op staged

def afterProbe : Prog.Trace HandlerSig :=
  ⟨HandlerCall.eventExists .underUnknown staged.event.roomID staged.event.eventID, (.ok false : Except Error Bool)⟩ ::
    afterStatus op staged

/-- The answers that turn presence into success: the status is unknown, the event absent when first
asked for and present when asked again. -/
structure PresenceTaken (o : Answers) (ports : Ports) (capability operationName : String) : Prop where
  wired : ports.present = true
  complete : op.complete = true
  bound : staged.capability = capability ∧ staged.operation = operationName
  status : o (afterLookup op staged) (.eventStatus staged.event) = .ok .unknown
  absent : o (afterStatus op staged) (.eventExists .underUnknown staged.event.roomID staged.event.eventID) = .ok false
  present : o (afterProbe op staged) (.eventExists .beforeSend staged.event.roomID staged.event.eventID) = .ok true

end Reconcile

variable {staged : PreparedMatrixEvent} {capability operationName : String} {request : SendMessageRequest}

theorem execute_staged (hget : o [] (.getPrepared op) = .ok staged) (hw : ports.present = true)
    (hc : op.complete = true) (hb : staged.capability = capability ∧ staged.operation = operationName) :
    (executePreparedMatrixMutation ports op capability operationName request).eval o [] =
      (reconcileStaged ports op staged.event).eval o (afterLookup op staged) := by
  rw [executePreparedMatrixMutation, if_neg (by simp [hw]), if_neg (by simp [hc]), eval_invoke, hget]
  dsimp only
  rw [if_neg (by simp [hb])]
  rfl

theorem execute_staged_success (hget : o [] (.getPrepared op) = .ok staged)
    (h : ((executePreparedMatrixMutation ports op capability operationName request).eval o []).1 = .ok result) :
    ports.present = true ∧ op.complete = true ∧ staged.capability = capability ∧ staged.operation = operationName := by
  unfold executePreparedMatrixMutation at h
  split at h
  · cases h
  split at h
  · cases h
  rename_i hp hc
  rw [eval_invoke, hget] at h
  dsimp only at h
  split at h
  · cases h
  · rename_i hb
    exact ⟨by simpa using hp, by simpa using hc, by simpa using hb⟩

section

variable (hstatus : ports.statusPort = true)
include hstatus

theorem reconcile_unknown_absent
    (h : o (afterLookup op staged) (.eventStatus staged.event) = .ok .unknown)
    (habs : o (afterStatus op staged) (.eventExists .underUnknown staged.event.roomID staged.event.eventID) = .ok false) :
    (reconcileStaged ports op staged.event).eval o (afterLookup op staged) =
      (probeAndResend ports op staged.event).eval o (afterProbe op staged) := by
  rw [reconcileStaged, if_pos hstatus, eval_invoke, h]
  unfold afterStatus at habs
  rw [eval_invoke, habs]
  rfl

/-- What success on a staged row means for the answers of a status-capable port. -/
theorem reconcile_success
    (h : ((reconcileStaged ports op staged.event).eval o (afterLookup op staged)).1 = .ok result) :
    o (afterLookup op staged) (.eventStatus staged.event) = .ok .accepted ∨
      (o (afterLookup op staged) (.eventStatus staged.event) = .ok .unknown ∧
        o (afterStatus op staged) (.eventExists .underUnknown staged.event.roomID staged.event.eventID) = .ok false) := by
  revert h
  rw [reconcileStaged, if_pos hstatus, eval_invoke]
  generalize hd : o (afterLookup op staged) (.eventStatus staged.event) = d
  intro h
  obtain e | d := d
  · cases h
  · cases d with
    | accepted => exact .inl rfl
    | rejected | other => cases h
    | unknown =>
      refine .inr ⟨rfl, ?_⟩
      revert h
      rw [eval_invoke]
      unfold afterStatus
      generalize o _ (.eventExists .underUnknown staged.event.roomID staged.event.eventID) = p
      intro h
      obtain e | p := p
      · cases h
      · cases p
        · rfl
        · cases h

/-- A run in which presence is taken for acceptance ends in success without a receipt. -/
theorem presenceTaken_not_justified
    (hget : o [] (.getPrepared op) = .ok staged) (hp : PresenceTaken op staged o ports capability operationName) :
    ¬ SuccessJustified staged.event.eventID
      ((executePreparedMatrixMutation ports op capability operationName request).eval o []) := by
  intro hj
  rw [execute_staged hget hp.wired hp.complete hp.bound,
    reconcile_unknown_absent hstatus hp.status hp.absent, probeAndResend, eval_invoke, hp.present] at hj
  revert hj
  generalize htr : (⟨.eventExists .beforeSend staged.event.roomID staged.event.eventID,
    (.ok true : Except Error Bool)⟩ :: afterProbe op staged : Prog.Trace HandlerSig) = tr
  intro hj
  obtain ⟨hok, hmem⟩ := succeed_eval o ports op tr ⟨staged.event.eventID, staged.event.originServerTS⟩
  have hunknown : AnsweredStatus .unknown tr := ⟨staged.event, by rw [← htr]; simp [afterProbe, afterStatus]⟩
  obtain ⟨m, r, hsent, _⟩ := hj.unknown (hunknown.imp fun _ h => (Prog.eval_suffix o _ tr).subset h) _ hok
  obtain hsent | hsent := hmem _ hsent
  · rw [← htr] at hsent
    simp only [afterProbe, afterStatus, afterLookup, List.mem_cons, List.not_mem_nil, or_false] at hsent
    rcases hsent with he | he | he | he <;> cases he
  · cases hsent

theorem justified_of_not_presenceTaken
    (hget : o [] (.getPrepared op) = .ok staged)
    (hp : ¬ PresenceTaken op staged o ports capability operationName) :
    SuccessJustified staged.event.eventID
      ((executePreparedMatrixMutation ports op capability operationName request).eval o []) := by
  generalize hout : (executePreparedMatrixMutation ports op capability operationName request).eval o [] = out
  -- both fields follow from what a successful run was answered
  suffices hs : ∀ result, out.1 = .ok result → (AnsweredStatus .accepted out.2 ∧ ¬ AnsweredStatus .unknown out.2) ∨
      ReceiptReturned staged.event.eventID out.2 by
    refine ⟨fun result h => (hs result h).imp (·.1) id, fun hu result h => ?_⟩
    obtain ⟨_, hnu⟩ | hr := hs result h
    · exact absurd hu hnu
    · exact hr
  intro result h
  subst hout
  obtain ⟨hw, hc, hb⟩ := execute_staged_success hget h
  rw [execute_staged hget hw hc hb] at h ⊢
  obtain hacc | ⟨hunk, habs⟩ := reconcile_success hstatus h
  · rw [reconcileStaged, if_pos hstatus, eval_invoke, hacc]
    obtain ⟨_, hmem⟩ := succeed_eval o ports op
      (⟨.eventStatus staged.event, (.ok .accepted : Except Error Disposition)⟩ ::
        afterLookup op staged) ⟨staged.event.eventID, staged.event.originServerTS⟩
    refine .inl ⟨⟨staged.event, (Prog.eval_suffix o _ _).subset (by simp)⟩, ?_⟩
    rintro ⟨m, hu⟩
    obtain hu | hu := hmem _ hu
    · simp only [afterLookup, List.mem_cons, List.not_mem_nil, or_false] at hu
      rcases hu with he | he <;> cases he
    · cases hu
  · rw [reconcile_unknown_absent hstatus hunk habs] at h ⊢
    obtain hpres | hr := probeAndResend_success h
    · exact absurd ⟨hw, hc, hb, hunk, habs, hpres⟩ hp
    · exact .inr hr

end

/-- On an existing staged row, success is justified exactly when presence is not taken for acceptance. -/
theorem success_justified_iff (ports : Ports) (op : OperationContext) (capability operationName : String)
    (request : SendMessageRequest) (staged : PreparedMatrixEvent) (o : Answers)
    (hstatus : ports.statusPort = true) (hget : o [] (.getPrepared op) = .ok staged) :
    SuccessJustified staged.event.eventID
        ((executePreparedMatrixMutation ports op capability operationName request).eval o []) ↔
      ¬ PresenceTaken op staged o ports capability operationName :=
  ⟨fun hj hp => presenceTaken_not_justified hstatus hget hp hj, justified_of_not_presenceTaken hstatus hget⟩

def sampleMessage : PreparedMessage where
  eventID := "$prepared"
  roomID := "!room:example.com"
  senderMXID := "@agent:example.com"
  eventType := "m.room.message"
  messageType := "text"
  originServerTS := 1
  roomVersion := "11"
  eventJSON := [123, 125]
  contentDigest := List.replicate 32 0

def sampleContext : OperationContext := ⟨"op-1", "@owner:example.com", 1, List.replicate 32 0⟩

def sampleRequest : SendMessageRequest := ⟨"@agent:example.com", "!room:example.com", "text", "!room:example.com", ""⟩

def sampleStaged : PreparedMatrixEvent :=
  stagedEvent sampleContext "product.messages.v1" "send" sampleRequest sampleMessage

/-- An answer for every call, to build ports from: lookups fail, checks pass. -/
def defaultAnswer : (c : HandlerCall) → c.Ans
  | .decodeInput _ _ | .encodeResult _ => .error (Err.new "json")
  | .accountDeprovisioned | .roomBlocked _ => false
  | .matrixWired | .preparedWired => true
  | .identity => ⟨"@owner:example.com", "@agent:example.com", ""⟩
  | .requireJoinedRoom _ | .requireMatrixJoinedUser _ _ | .contentJoined _ => none
  | .sendMessage _ | .sendPrepared _ => .error (Err.new "timeout")
  | .clock => (0 : Int)
  | .commentToken | .newEventID _ => ""
  | .contentOwner => ⟨"@owner:example.com", "", "@agent:example.com", ""⟩
  | .postByID _ _ _ => .ok none
  | .channelByID _ => .ok none
  | .insertComment _ | .commentOperation _ | .prepareEvent _ | .markSent _ _ => .ok ()
  | .existingComment _ => .ok none
  | .getPrepared _ => .error errNoRows
  | .prepareMessage _ => .ok sampleMessage
  | .eventStatus _ => .ok .unknown
  | .eventExists _ _ _ => .ok false
  | .mutated _ => ()

/-- The event becomes visible between the two probes. -/
def appearingAnswers : Answers
  | _, .getPrepared _ => .ok sampleStaged
  | _, .eventExists .beforeSend _ _ => .ok true
  | _, c => defaultAnswer c

def receiptAnswers : Answers
  | _, .getPrepared _ => .ok sampleStaged
  | _, .sendPrepared m => .ok ⟨m.eventID, m.originServerTS⟩
  | _, c => defaultAnswer c

/-- The event appears between the two probes and the operation succeeds on its presence. -/
theorem unknown_then_present :
    ((executePreparedMatrixMutation ⟨true, true, true⟩ sampleContext "product.messages.v1" "send"
        sampleRequest).eval appearingAnswers []).1 = .ok ⟨"$prepared", 1⟩ ∧
      ¬ SuccessJustified "$prepared" ((executePreparedMatrixMutation ⟨true, true, true⟩ sampleContext
        "product.messages.v1" "send" sampleRequest).eval appearingAnswers []) := by
  have hp : PresenceTaken sampleContext sampleStaged appearingAnswers ⟨true, true, true⟩
      "product.messages.v1" "send" := ⟨rfl, by decide, ⟨rfl, rfl⟩, rfl, rfl, rfl⟩
  exact ⟨rfl, presenceTaken_not_justified rfl rfl hp⟩

theorem receipt_justified :
    SuccessJustified "$prepared" ((executePreparedMatrixMutation ⟨true, true, true⟩ sampleContext
      "product.messages.v1" "send" sampleRequest).eval receiptAnswers []) := by
  refine (success_justified_iff ⟨true, true, true⟩ sampleContext "product.messages.v1" "send" sampleRequest
    sampleStaged receiptAnswers rfl rfl).mpr fun h => ?_
  have hpresent : (Except.ok false : Except Error Bool) = .ok true := h.present
  cases hpresent

end Dirextalk.Capability

/-
  Dirextalk.Events.Completion — completion receipts of agent executions: what the domain
  accepts (`internal/dirextalkdomain/agent_execution.go`), the call of the service
  (`p2p/product_capability.go`) and what it needs of a store.

  A receipt has two keys, its event id and its execution in the owner's generation. It is
  stored together with one product event, and the number of that event is the answer to
  the call and to every call that repeats it.

  `CompletionStore` is what the two stores have in common, `CompletionStore.Laws` what one
  call may do. `exactly_once` is derived from the laws alone, for every order of calls with
  arbitrary receipts and of other events being inserted.
-/
import Dirextalk.Lib.Encoding
import Dirextalk.Lib.Clock
import Dirextalk.Events.Outbox

namespace Dirextalk.Events

open Lib Lib.Go List

/-! ## Validation -/

structure UuidPackage where
  UUID : Type
  parse : String → Option UUID
  string : UUID → String
  /-- `parsed == uuid.Nil`. -/
  isNil : UUID → Bool

/-- `xxxxxxxx-xxxx-xxxx-xxxx-xxxxxxxxxxxx` in lowercase hexadecimal digits. -/
def standardUuid (s : String) : Bool :=
  s.length == 36 && s.toList.zipIdx.all fun (c, i) => if i ∈ [8, 13, 18, 23] then c == '-' else c ∈ hexDigits

def canonicalNonNilUUID (pkg : UuidPackage) (value : String) : Bool :=
  match pkg.parse value with
  | some parsed => !pkg.isNil parsed && pkg.string parsed == value
  | none => false

def canonicalCompletionTime (value : String) : Except Error String :=
  match parseRFC3339Nano value with
  | some parsed =>
    if parsed.isZero then .error (Err.new "completed_at must be canonical UTC RFC3339Nano")
    else .ok (formatRFC3339Nano parsed)
  | none => .error (Err.new "completed_at must be canonical UTC RFC3339Nano")

/-- The digest binds the seven public fields other than the digest itself, in this order. -/
def canonicalAgentExecutionCompletionDigest (r : Receipt) : Except Error String := do
  let completedAt ← canonicalCompletionTime r.completedAt
  let payload := jsonStrings [("event_id", r.eventID), ("execution_id", r.executionID), ("run_id", r.runID),
    ("conversation_id", r.conversationID), ("turn_id", r.turnID), ("terminal_state", r.terminalState),
    ("completed_at", completedAt)]
  return hexEncode (sum256 (bytesOf payload))

namespace Receipt

/-- The map `Validate` ranges over. -/
def ids (r : Receipt) : List (String × String) :=
  [("event_id", r.eventID), ("execution_id", r.executionID), ("run_id", r.runID),
    ("conversation_id", r.conversationID), ("turn_id", r.turnID)]

/-- An order in which Go may range over that map. -/
abbrev Order (r : Receipt) : Type := { order : List (String × String) // order.Perm r.ids }

/-- `strings.ToLower(r.PayloadDigest) != r.PayloadDigest`: after `hex.DecodeString` only the digits `A` to `F` are
left to refuse. -/
def lowercaseHex (digest : String) : Bool :=
  digest.utf8ByteSize == 64 && hexDecodes digest && digest.toList.all fun c => !('A' ≤ c && c ≤ 'Z')

def validate (pkg : UuidPackage) (r : Receipt) (order : r.Order) : Except Error Unit :=
  match order.val.find? fun id => !canonicalNonNilUUID pkg id.2 with
  | some (name, _) => .error (Err.new (name ++ " must be a canonical lowercase non-nil UUID"))
  | none =>
    if r.terminalState ∉ ["succeeded", "failed", "canceled"] then .error (Err.new "terminal_state is invalid")
    else
      match canonicalCompletionTime r.completedAt with
      | .error e => .error e
      | .ok completedAt =>
        if completedAt ≠ r.completedAt then .error (Err.new "completed_at must be canonical UTC RFC3339Nano")
        else if !lowercaseHex r.payloadDigest then .error (Err.new "payload_digest must be lowercase 64-hex")
        else if canonicalAgentExecutionCompletionDigest r ≠ .ok r.payloadDigest then
          .error (Err.new "payload_digest does not match completion payload")
        else if trimSpace r.ownerID = "" ∨ r.ownerID ≠ trimSpace r.ownerID then .error (Err.new "owner_id is required")
        else if r.accountGeneration ≤ 0 then .error (Err.new "account_generation must be positive")
        else .ok ()

/-- `PublicPayload` as JSON text: the keys of a map are sorted. -/
def publicPayload (r : Receipt) : String :=
  jsonStrings [("completed_at", r.completedAt), ("conversation_id", r.conversationID), ("event_id", r.eventID),
    ("execution_id", r.executionID), ("payload_digest", r.payloadDigest), ("run_id", r.runID),
    ("terminal_state", r.terminalState), ("turn_id", r.turnID)]

end Receipt

/-! ## A store for receipts -/

structure Answer where
  inserted : Bool
  eventSeq : Int
  err : Option Error
  deriving DecidableEq, Repr

structure CompletionStore where
  State : Type
  empty : State
  /-- A receipt is stored, with the number of its event. -/
  stored : State → ReceiptRow → Prop
  /-- The product events. -/
  events : State → List Event
  /-- The text an id is kept and found under. -/
  column : String → Option String
  record : Receipt → Event → State → Answer × State
  insertEvent : Event → State → Bool × State

def CompletionStore.Shares (S : CompletionStore) (a b : Receipt) : Prop :=
  S.column a.eventID = S.column b.eventID ∨ (a.ownerID = b.ownerID ∧ a.accountGeneration = b.accountGeneration ∧
      S.column a.executionID = S.column b.executionID)

inductive Outcome (S : CompletionStore) (receipt : Receipt) (event : Event) (d : S.State) : Answer × S.State → Prop where
  | inserted {columns : Receipt} {seq : Int} {d' : S.State} (hcolumns : receipt.keyed S.column = some columns)
      (hnone : ∀ row, S.stored d row → ¬ S.Shares receipt row.receipt) (hseq : ∀ e ∈ S.events d, e.seq ≠ seq)
      (hstored : ∀ row, S.stored d' row ↔ S.stored d row ∨ row = ⟨columns, seq⟩)
      (hevents : ∀ e, e ∈ S.events d' ↔ e ∈ S.events d ∨ e = { event with seq := seq }) :
      Outcome S receipt event d (⟨true, seq, none⟩, d')
  | known {seq : Int} (hstored : S.stored d ⟨receipt, seq⟩) : Outcome S receipt event d (⟨false, seq, none⟩, d)
  | refused (seq : Int) (e : Error) : Outcome S receipt event d (⟨false, seq, some e⟩, d)

structure CompletionStore.Laws (S : CompletionStore) where
  Inv : S.State → Prop
  empty : Inv S.empty ∧ (∀ row, ¬ S.stored S.empty row) ∧ S.events S.empty = []
  record_inv : ∀ {d} receipt event, Inv d → Inv (S.record receipt event d).2
  insertEvent_inv : ∀ {d} event, Inv d → Inv (S.insertEvent event d).2
  /-- No number is given to two events. -/
  distinct : ∀ {d}, Inv d → (S.events d).Pairwise fun a b => a.seq ≠ b.seq
  /-- What is stored is found under the same texts. -/
  fixed : ∀ {d row}, Inv d → S.stored d row → row.receipt.keyed S.column = some row.receipt
  outcome : ∀ {d} receipt event, Inv d → Outcome S receipt event d (S.record receipt event d)
  known : ∀ {d} {row : ReceiptRow} event, Inv d → S.stored d row →
    S.record row.receipt event d = (⟨false, row.eventSeq, none⟩, d)
  conflict : ∀ {d receipt} {row : ReceiptRow} event, Inv d → S.stored d row → S.Shares receipt row.receipt →
    receipt ≠ row.receipt → ∃ seq e, S.record receipt event d = (⟨false, seq, some e⟩, d)
  inserts : ∀ {d} event, Inv d → (∀ row, S.stored (S.insertEvent event d).2 row ↔ S.stored d row) ∧
    ((S.insertEvent event d).2 = d ∨ ((∀ e ∈ S.events d, e.seq ≠ event.seq) ∧
      ∀ e, e ∈ S.events (S.insertEvent event d).2 ↔ e ∈ S.events d ∨ e = event))

/-! ## The service -/

structure Account where
  ownerMXID : String
  accountGeneration : Int

def completionEvent (now : Int) (receipt : Receipt) : Event where
  seq := now
  type := "agent.execution.v2.completed"
  roomID := ""
  eventID := receipt.eventID
  dedupeKey := "agent.execution.v2.completed:" ++ receipt.eventID
  payload := receipt.publicPayload
  createdAt := formatRFC3339Nano ⟨now / 1000000000, (now % 1000000000).toNat⟩

/-- `Service.RecordAgentExecutionCompletion` up to the store: the event it hands over. -/
def checkCompletion (pkg : UuidPackage) (account : Account) (now : Int) (receipt : Receipt) (order : receipt.Order) :
    Except Error Event := do
  if receipt.ownerID ≠ account.ownerMXID ∨ receipt.accountGeneration ≠ account.accountGeneration then
    throw errAgentExecutionCompletionConflict
  receipt.validate pkg order
  return completionEvent now receipt

/-- `Service.RecordAgentExecutionCompletion`: whether the receipt was known already. -/
def recordCompletion (S : CompletionStore) (pkg : UuidPackage) (account : Account) (now : Int) (receipt : Receipt)
    (order : receipt.Order) (d : S.State) : Except Error Bool × S.State :=
  match checkCompletion pkg account now receipt order with
  | .error e => (.error e, d)
  | .ok event =>
    let (answer, d') := S.record receipt event d
    match answer.err with
    | some e => (.error e, d')
    | none => (.ok !answer.inserted, d')

/-! ## Runs -/

structure Entry where
  receipt : Receipt
  event : Event
  answer : Answer

structure Recorded (S : CompletionStore) where
  state : S.State
  log : List Entry

inductive CompletionEv where
  /-- The call of the service. -/
  | service (account : Account) (now : Int) (receipt : Receipt) (order : receipt.Order)
  /-- Any call of the method of the store. -/
  | record (receipt : Receipt) (event : Event)
  /-- An event of somebody else. -/
  | insert (event : Event)

def Recorded.record {S : CompletionStore} (g : Recorded S) (receipt : Receipt) (event : Event) : Recorded S :=
  ⟨(S.record receipt event g.state).2, g.log ++ [⟨receipt, event, (S.record receipt event g.state).1⟩]⟩

inductive CompletionStep (S : CompletionStore) (pkg : UuidPackage) : Recorded S → CompletionEv → Recorded S → Prop where
  | service {g : Recorded S} {account : Account} {now : Int} {receipt : Receipt} {order : receipt.Order} {event : Event}
      (hok : checkCompletion pkg account now receipt order = .ok event) :
      CompletionStep S pkg g (.service account now receipt order) (g.record receipt event)
  | turnedDown {g : Recorded S} {account : Account} {now : Int} {receipt : Receipt} {order : receipt.Order} {e : Error}
      (herr : checkCompletion pkg account now receipt order = .error e) :
      CompletionStep S pkg g (.service account now receipt order) g
  | record {g : Recorded S} (receipt : Receipt) (event : Event) :
      CompletionStep S pkg g (.record receipt event) (g.record receipt event)
  | insert {g : Recorded S} (event : Event) :
      CompletionStep S pkg g (.insert event) { g with state := (S.insertEvent event g.state).2 }

structure ExactlyOnce (S : CompletionStore) (pkg : UuidPackage) (g : Recorded S) : Prop where
  byEvent : ∀ a b, S.stored g.state a → S.stored g.state b → a.receipt.eventID = b.receipt.eventID → a = b
  byExecution : ∀ a b, S.stored g.state a → S.stored g.state b → a.receipt.ownerID = b.receipt.ownerID →
    a.receipt.accountGeneration = b.receipt.accountGeneration → a.receipt.executionID = b.receipt.executionID → a = b
  /-- One call has stored the receipt, and its event is the only one with the number it returned. -/
  oneEvent : ∀ row, S.stored g.state row → ∃ call, g.log.filter (·.answer = ⟨true, row.eventSeq, none⟩) = [call] ∧
    call.receipt.keyed S.column = some row.receipt ∧
    (S.events g.state).filter (·.seq = row.eventSeq) = [{ call.event with seq := row.eventSeq }]
  /-- Every call that was not refused has returned the number of its receipt's event. -/
  answered : ∀ call ∈ g.log, call.answer.err = none →
    ∃ row, S.stored g.state row ∧ call.receipt.keyed S.column = some row.receipt ∧ call.answer.eventSeq = row.eventSeq
  /-- A receipt identical to a stored one. -/
  repeated : ∀ row event, S.stored g.state row →
    S.record row.receipt event g.state = (⟨false, row.eventSeq, none⟩, g.state)
  /-- A valid receipt that was accepted is sent again. -/
  resent : ∀ call ∈ g.log, call.answer.err = none → ∀ order, call.receipt.validate pkg order = .ok () → ∀ event,
    S.record call.receipt event g.state = (⟨false, call.answer.eventSeq, none⟩, g.state)
  /-- A receipt that was accepted is sent again to the service. -/
  served : ∀ call ∈ g.log, call.answer.err = none → ∀ account now order event,
    checkCompletion pkg account now call.receipt order = .ok event →
    recordCompletion S pkg account now call.receipt order g.state = (.ok true, g.state)
  conflicting : ∀ row receipt event, S.stored g.state row → S.Shares receipt row.receipt → receipt ≠ row.receipt →
    ∃ seq e, S.record receipt event g.state = (⟨false, seq, some e⟩, g.state)

/-! ## From the laws -/

section Laws

variable {S : CompletionStore} {pkg : UuidPackage} {g g' : Recorded S} {ev : CompletionEv}

theorem Receipt.keyed_ids {column : String → Option String} {r columns : Receipt} (h : r.keyed column = some columns) :
    column r.eventID = some columns.eventID ∧ column r.executionID = some columns.executionID ∧
      columns.ownerID = r.ownerID ∧ columns.accountGeneration = r.accountGeneration := by
  simp only [Receipt.keyed, Option.bind_eq_bind, Option.bind_eq_some_iff] at h
  obtain ⟨eventID, hevent, executionID, hexecution, runID, _, conversationID, _, turnID, _, hr⟩ := h
  cases hr
  exact ⟨hevent, hexecution, rfl, rfl⟩

/-- An event with a number of its own is the only one with that number. -/
theorem filter_seq {events : List Event} (hd : events.Pairwise fun a b => a.seq ≠ b.seq) {e : Event} (he : e ∈ events) :
    events.filter (·.seq = e.seq) = [e] := by
  induction events with
  | nil => cases he
  | cons x rest ih =>
    obtain ⟨hx, hrest⟩ := pairwise_cons.mp hd
    obtain rfl | hmem := mem_cons.mp he
    · have hnone : rest.filter (fun y => decide (y.seq = e.seq)) = [] := by
        simpa using fun y hy => (hx y hy).symm
      simp [hnone]
    · rw [filter_cons_of_neg (by simpa using hx e hmem)]
      exact ih hrest hmem

/-- The invariant: every stored receipt has its call and its event, every call its receipt. -/
structure CompletionStore.Laws.Kept (L : S.Laws) (g : Recorded S) : Prop where
  inv : L.Inv g.state
  byEvent : ∀ a b, S.stored g.state a → S.stored g.state b → a.receipt.eventID = b.receipt.eventID → a = b
  byExecution : ∀ a b, S.stored g.state a → S.stored g.state b → a.receipt.ownerID = b.receipt.ownerID →
    a.receipt.accountGeneration = b.receipt.accountGeneration → a.receipt.executionID = b.receipt.executionID → a = b
  called : ∀ row, S.stored g.state row → ∃ call, g.log.filter (·.answer = ⟨true, row.eventSeq, none⟩) = [call] ∧
    call.receipt.keyed S.column = some row.receipt ∧ { call.event with seq := row.eventSeq } ∈ S.events g.state
  answered : ∀ call ∈ g.log, call.answer.err = none →
    ∃ row, S.stored g.state row ∧ call.receipt.keyed S.column = some row.receipt ∧ call.answer.eventSeq = row.eventSeq

namespace CompletionStore.Laws.Kept

variable {L : S.Laws}

theorem empty : L.Kept ⟨S.empty, []⟩ where
  inv := L.empty.1
  byEvent a _ ha := absurd ha (L.empty.2.1 a)
  byExecution a _ ha := absurd ha (L.empty.2.1 a)
  called row hrow := absurd hrow (L.empty.2.1 row)
  answered call hcall := by cases hcall

section

variable (h : L.Kept g)
include h

theorem numbered (hrow : S.stored g.state row) : ∃ e ∈ S.events g.state, e.seq = row.eventSeq := by
  obtain ⟨call, _, _, he⟩ := h.called row hrow
  exact ⟨_, he, rfl⟩

theorem filter_fresh (hseq : ∀ e ∈ S.events g.state, e.seq ≠ seq) :
    g.log.filter (·.answer = ⟨true, seq, none⟩) = [] := by
  rw [filter_eq_nil_iff]
  intro call hcall hanswer
  have hanswer : call.answer = ⟨true, seq, none⟩ := by simpa using hanswer
  obtain ⟨row, hrow, _, hnum⟩ := h.answered call hcall (by rw [hanswer])
  obtain ⟨e, he, hes⟩ := h.numbered hrow
  rw [hanswer] at hnum
  exact hseq e he (hes.trans hnum.symm)

/-- A call that repeats an answer or refuses. -/
theorem quiet (hins : call.answer.inserted = false)
    (hanswered : call.answer.err = none →
      ∃ row, S.stored g.state row ∧ call.receipt.keyed S.column = some row.receipt ∧ call.answer.eventSeq = row.eventSeq) :
    L.Kept ⟨g.state, g.log ++ [call]⟩ where
  inv := h.inv
  byEvent := h.byEvent
  byExecution := h.byExecution
  called row hrow := by
    obtain ⟨first, hfirst, hrest⟩ := h.called row hrow
    refine ⟨first, ?_, hrest⟩
    have hne : call.answer ≠ ⟨true, row.eventSeq, none⟩ := fun heq => by simp [heq] at hins
    simp [filter_append, hfirst, hne]
  answered c hc hnone := by
    obtain hold | hnew := mem_append.mp hc
    · exact h.answered c hold hnone
    · rw [mem_singleton.mp hnew] at hnone ⊢
      exact hanswered hnone

theorem insert {receipt columns : Receipt} {event : Event} {seq : Int} {d' : S.State} (hinv : L.Inv d')
    (hcolumns : receipt.keyed S.column = some columns)
    (hnone : ∀ row, S.stored g.state row → ¬ S.Shares receipt row.receipt) (hseq : ∀ e ∈ S.events g.state, e.seq ≠ seq)
    (hstored : ∀ row, S.stored d' row ↔ S.stored g.state row ∨ row = ⟨columns, seq⟩)
    (hevents : ∀ e, e ∈ S.events d' ↔ e ∈ S.events g.state ∨ e = { event with seq := seq }) :
    L.Kept ⟨d', g.log ++ [⟨receipt, event, ⟨true, seq, none⟩⟩]⟩ := by
  obtain ⟨hevent, hexecution, howner, hgeneration⟩ := Receipt.keyed_ids hcolumns
  -- the new receipt has neither key of an old one
  have hapart : ∀ row, S.stored g.state row → row.receipt.eventID ≠ columns.eventID ∧
      ¬ (row.receipt.ownerID = columns.ownerID ∧ row.receipt.accountGeneration = columns.accountGeneration ∧
        row.receipt.executionID = columns.executionID) := by
    intro row hrow
    obtain ⟨hevent', hexecution', _, _⟩ := Receipt.keyed_ids (L.fixed h.inv hrow)
    refine ⟨fun heq => hnone row hrow (.inl ?_), fun ⟨ho, hg, hx⟩ => hnone row hrow (.inr ⟨?_, ?_, ?_⟩)⟩
    · rw [hevent, hevent', heq]
    · rw [ho, howner]
    · rw [hg, hgeneration]
    · rw [hexecution, hexecution', hx]
  refine ⟨hinv, ?_, ?_, ?_, ?_⟩
  · intro a b ha hb heq
    rcases (hstored a).mp ha with ha | rfl <;> rcases (hstored b).mp hb with hb | rfl
    · exact h.byEvent a b ha hb heq
    · exact absurd heq (hapart a ha).1
    · exact absurd heq.symm (hapart b hb).1
    · rfl
  · intro a b ha hb ho hg hx
    rcases (hstored a).mp ha with ha | rfl <;> rcases (hstored b).mp hb with hb | rfl
    · exact h.byExecution a b ha hb ho hg hx
    · exact absurd ⟨ho, hg, hx⟩ (hapart a ha).2
    · exact absurd ⟨ho.symm, hg.symm, hx.symm⟩ (hapart b hb).2
    · rfl
  · intro row hrow
    obtain hold | rfl := (hstored row).mp hrow
    · obtain ⟨first, hfirst, hkeyed, he⟩ := h.called row hold
      refine ⟨first, ?_, hkeyed, (hevents _).mpr (.inl he)⟩
      have hne : seq ≠ row.eventSeq := fun heq => hseq _ he heq.symm
      simp [filter_append, hfirst, hne]
    · refine ⟨⟨receipt, event, ⟨true, seq, none⟩⟩, ?_, hcolumns, (hevents _).mpr (.inr rfl)⟩
      simp [filter_append, h.filter_fresh hseq]
  · intro c hc herr
    obtain hold | hnew := mem_append.mp hc
    · obtain ⟨row, hrow, hrest⟩ := h.answered c hold herr
      exact ⟨row, (hstored row).mpr (.inl hrow), hrest⟩
    · rw [mem_singleton.mp hnew]
      exact ⟨⟨columns, seq⟩, (hstored _).mpr (.inr rfl), hcolumns, rfl⟩

theorem record (receipt : Receipt) (event : Event) : L.Kept (g.record receipt event) := by
  have hinv := L.record_inv receipt event h.inv
  have houtcome := L.outcome receipt event h.inv
  unfold Recorded.record
  generalize S.record receipt event g.state = result at hinv houtcome
  cases houtcome with
  | inserted hcolumns hnone hseq hstored hevents => exact h.insert hinv hcolumns hnone hseq hstored hevents
  | known hstored => exact h.quiet rfl fun _ => ⟨_, hstored, L.fixed h.inv hstored, rfl⟩
  | refused seq e => exact h.quiet rfl fun hnone => by cases hnone

theorem insertEvent (event : Event) : L.Kept { g with state := (S.insertEvent event g.state).2 } := by
  obtain ⟨hstored, hevents⟩ := L.inserts event h.inv
  refine ⟨L.insertEvent_inv event h.inv, ?_, ?_, ?_, ?_⟩
  · intro a b ha hb
    exact h.byEvent a b ((hstored a).mp ha) ((hstored b).mp hb)
  · intro a b ha hb
    exact h.byExecution a b ((hstored a).mp ha) ((hstored b).mp hb)
  · intro row hrow
    obtain ⟨call, hcall, hkeyed, he⟩ := h.called row ((hstored row).mp hrow)
    refine ⟨call, hcall, hkeyed, ?_⟩
    obtain heq | ⟨_, hmem⟩ := hevents
    · rw [heq]
      exact he
    · exact (hmem _).mpr (.inl he)
  · intro call hcall hnone
    obtain ⟨row, hrow, hrest⟩ := h.answered call hcall hnone
    exact ⟨row, (hstored row).mpr hrow, hrest⟩

theorem step (hs : CompletionStep S pkg g ev g') : L.Kept g' := by
  cases hs with
  | service hok => exact h.record _ _
  | turnedDown herr => exact h
  | record receipt event => exact h.record receipt event
  | insert event => exact h.insertEvent event

theorem exactlyOnce
    (hvalid : ∀ r order, Receipt.validate pkg r order = .ok () → r.keyed S.column = some r) : ExactlyOnce S pkg g := by
  have hresent : ∀ call ∈ g.log, call.answer.err = none → ∀ order, call.receipt.validate pkg order = .ok () → ∀ event,
      S.record call.receipt event g.state = (⟨false, call.answer.eventSeq, none⟩, g.state) := by
    intro call hcall hnone order hok event
    obtain ⟨row, hrow, hkeyed, hnum⟩ := h.answered call hcall hnone
    have hsame := Option.some.inj ((hvalid _ order hok).symm.trans hkeyed)
    rw [hsame, hnum]
    exact L.known event h.inv hrow
  refine ⟨h.byEvent, h.byExecution, ?_, h.answered, fun row event => L.known event h.inv, hresent, ?_, ?_⟩
  · intro row hrow
    obtain ⟨call, hcall, hkeyed, he⟩ := h.called row hrow
    exact ⟨call, hcall, hkeyed, filter_seq (L.distinct h.inv) he⟩
  · intro call hcall hnone account now order event hcheck
    have hok : call.receipt.validate pkg order = .ok () := by
      unfold checkCompletion at hcheck
      cases hv : call.receipt.validate pkg order with
      | ok _ => rfl
      | error e =>
        rw [hv] at hcheck
        split at hcheck <;> cases hcheck
    simp [recordCompletion, hcheck, hresent call hcall hnone order hok event]
  · intro row receipt event hrow hshares hne
    exact L.conflict event h.inv hrow hshares hne

end

end CompletionStore.Laws.Kept

end Laws

end Dirextalk.Events

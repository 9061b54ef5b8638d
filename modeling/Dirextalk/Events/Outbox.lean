/-
  Dirextalk.Events.Outbox — the product event outbox: the table `p2p_events`
  (`p2p/storage/storage_members_events.go`), the events module that numbers its rows
  (`p2p/internal/events/module.go`) and the completion receipts that write to the same
  table (`p2p/storage/agent_execution_completion.go`).

  Two allocators share one sequence space. `Append` numbers a row from the counter of the
  process and the clock; a completion numbers its row from the table and the clock, and
  tells the counter afterwards. `InsertEvent` reports a taken number like a known dedupe
  key: nothing is inserted, without an error.
-/
import Dirextalk.Lib.Go
import Dirextalk.Lib.Paging
import Dirextalk.Lib.Run

namespace Dirextalk.Events

open Lib Lib.Go List

inductive Sentinel where
  | completionConflict
  deriving DecidableEq, Repr

abbrev Error := Err Sentinel

def errAgentExecutionCompletionConflict : Error :=
  ⟨"agent execution completion receipt conflicts with an existing receipt", [.completionConflict]⟩

structure Platform where
  /-- `time.Unix(0, n).UTC().Format(time.RFC3339Nano)`. -/
  rfc3339Nano : Int → String
  /-- The text PostgreSQL prints for a `::uuid` cast, `none` when the cast fails. -/
  uuid : String → Option String

/-! ## The tables -/

/-- A product event; the payload is its JSON text. -/
structure Event where
  seq : Int
  type : String
  roomID : String
  eventID : String
  dedupeKey : String
  payload : String
  createdAt : String
  deriving DecidableEq, Repr

/-- `p2p_events` in the order of its primary key; the non-empty dedupe keys are unique. -/
structure EventTable where
  rows : List Event
  sorted : Ascending Event.seq rows
  unique : ∀ a ∈ rows, ∀ b ∈ rows, a.dedupeKey ≠ "" → a.dedupeKey = b.dedupeKey → a = b

section

variable (t : EventTable)

/-- No row has the number of `event`, or its dedupe key if it has one. -/
def EventTable.Free (event : Event) : Prop :=
  ∀ r ∈ t.rows, r.seq ≠ event.seq ∧ (event.dedupeKey = "" ∨ r.dedupeKey ≠ event.dedupeKey)

instance (event : Event) : Decidable (t.Free event) :=
  inferInstanceAs (Decidable (∀ r ∈ t.rows, _))

def EventTable.empty : EventTable := ⟨[], Ascending.nil, by simp⟩

def EventTable.insert (event : Event) (h : t.Free event) : EventTable where
  rows := insertByKey Event.seq event t.rows
  sorted := t.sorted.insertByKey event
  unique := by
    have hmem := fun {x : Event} => mem_insertByKey (x := x) fun r hr => (h r hr).1
    intro a ha b hb hne heq
    rcases hmem.mp ha with rfl | hold <;> rcases hmem.mp hb with rfl | hold'
    · rfl
    · exact absurd heq.symm ((h b hold').2.resolve_left hne)
    · exact absurd heq ((h a hold).2.resolve_left (heq ▸ hne))
    · exact t.unique a hold b hold' hne heq

/-- `DELETE FROM p2p_events`, keeping the rows that meet `keep`. -/
def EventTable.delete (keep : Event → Bool) : EventTable where
  rows := t.rows.filter keep
  sorted := t.sorted.filter keep
  unique := fun a ha b hb => t.unique a (mem_of_mem_filter ha) b (mem_of_mem_filter hb)

/-- `INSERT … ON CONFLICT DO NOTHING`: whether a row was inserted. -/
def insertEvent (event : Event) (t : EventTable) : Bool × EventTable :=
  if h : t.Free event then (true, t.insert event h) else (false, t)

def limitRows (limit : Int) : Nat := if limit ≤ 0 ∨ 500 < limit then 100 else limit.toNat

/-- `ListEvents`, as `List` calls it. -/
def listEvents (since limit : Int) (t : EventTable) : List Event :=
  page Event.seq since (limitRows limit) t.rows

structure EventBounds where
  minSeq : Int
  maxSeq : Int
  count : Nat

/-- `SELECT MIN(seq), MAX(seq), COUNT(*)`; a NULL is read as 0. -/
def eventBounds : EventBounds :=
  ⟨(t.rows.head?.map (·.seq)).getD 0, (t.rows.getLast?.map (·.seq)).getD 0, t.rows.length⟩

end

def pruneEventsBefore (beforeSeq : Int) (t : EventTable) : EventTable :=
  if beforeSeq ≤ 0 then t else t.delete fun r => !(r.seq < beforeSeq)

/-- `… WHERE seq NOT IN (SELECT seq FROM p2p_events ORDER BY seq DESC LIMIT $1)`. -/
def pruneEventsToMaxRows (maxRows : Int) (t : EventTable) : EventTable :=
  if maxRows ≤ 0 then t else t.delete fun r => (t.rows.reverse.take maxRows.toNat).any (·.seq == r.seq)

/-! ## Completion receipts -/

structure Receipt where
  eventID : String
  executionID : String
  runID : String
  conversationID : String
  turnID : String
  terminalState : String
  completedAt : String
  payloadDigest : String
  ownerID : String
  accountGeneration : Int
  deriving DecidableEq, Repr

structure ReceiptRow where
  receipt : Receipt
  eventSeq : Int
  deriving DecidableEq, Repr

/-- Two rows that share the value of one of the table's unique keys. -/
def ReceiptRow.Clash (a b : ReceiptRow) : Prop :=
  a.receipt.eventID = b.receipt.eventID ∨
    (a.receipt.ownerID = b.receipt.ownerID ∧ a.receipt.accountGeneration = b.receipt.accountGeneration ∧
      a.receipt.executionID = b.receipt.executionID) ∨
    a.eventSeq = b.eventSeq

instance (a b : ReceiptRow) : Decidable (a.Clash b) := inferInstanceAs (Decidable (_ ∨ _))

structure ReceiptTable where
  rows : List ReceiptRow
  unique : rows.Pairwise fun a b => ¬ a.Clash b

def ReceiptTable.insert (t : ReceiptTable) (row : ReceiptRow) (h : ∀ r ∈ t.rows, ¬ r.Clash row) : ReceiptTable where
  rows := t.rows ++ [row]
  unique := pairwise_append.mpr ⟨t.unique, pairwise_singleton _ _, fun r hr _ hx =>
    mem_singleton.mp hx ▸ h r hr⟩

/-- The receipt as a store keeps it, when every id is kept under `column`. -/
def Receipt.keyed (column : String → Option String) (r : Receipt) : Option Receipt := do
  let eventID ← column r.eventID
  let executionID ← column r.executionID
  let runID ← column r.runID
  let conversationID ← column r.conversationID
  let turnID ← column r.turnID
  return { r with eventID := eventID, executionID := executionID, runID := runID,
                  conversationID := conversationID, turnID := turnID }

section

variable (pg : Platform)

/-- The receipt as the UUID columns store it. -/
def Receipt.columns (r : Receipt) : Option Receipt := r.keyed pg.uuid

/-- The CHECK constraints of the receipt table. -/
def Receipt.checks (r : Receipt) : Bool :=
  r.runID == r.executionID && r.terminalState ∈ ["succeeded", "failed", "canceled"] && r.completedAt != "" &&
    r.payloadDigest.length == 64 && r.payloadDigest.toList.all (· ∈ "0123456789abcdef".toList) &&
    r.ownerID != "" && decide (0 < r.accountGeneration)

structure Tables where
  events : EventTable
  receipts : ReceiptTable

/-- The transaction of `RecordAgentExecutionCompletion`: whether a receipt was inserted, and the number
of its event. -/
def recordAgentExecutionCompletion (receipt : Receipt) (event : Event) (d : Tables) :
    Except Error ((Bool × Int) × Tables) :=
  match pg.uuid receipt.eventID, pg.uuid receipt.executionID with
  | some eventID, some executionID =>
    match d.receipts.rows.find? (·.receipt.eventID == eventID),
      d.receipts.rows.find? fun r => r.receipt.ownerID == receipt.ownerID &&
        r.receipt.accountGeneration == receipt.accountGeneration && r.receipt.executionID == executionID with
    | none, none =>
      let seq := max ((eventBounds d.events).maxSeq + 1) event.seq
      let row := { event with seq := seq }
      if he : d.events.Free row then
        match receipt.columns pg with
        | none => .error (Err.new "invalid input syntax for type uuid")
        | some columns =>
          if hr : ∀ r ∈ d.receipts.rows, ¬ r.Clash ⟨columns, seq⟩ then
            if columns.checks then
              .ok ((true, seq), ⟨d.events.insert row he, d.receipts.insert ⟨columns, seq⟩ hr⟩)
            else .error (Err.new "new row violates a check constraint")
          else .error (Err.new "duplicate key value violates a unique constraint")
      else .error (Err.new "duplicate key value violates a unique constraint")
    | some byEvent, some byExecution =>
      if byEvent.receipt ≠ receipt ∨ byExecution.receipt ≠ receipt ∨ byEvent.eventSeq ≠ byExecution.eventSeq then
        .error errAgentExecutionCompletionConflict
      else .ok ((false, byEvent.eventSeq), d)
    | _, _ => .error errAgentExecutionCompletionConflict
  | _, _ => .error (Err.new "invalid input syntax for type uuid")

/-! ## The events module -/

structure Config where
  retentionMaxRows : Int
  retentionPruneOnWrite : Bool

/-- The memory of the module: its counter, and how many `eventWake` channels it has closed. -/
structure Module where
  nextSeq : Int
  wake : Nat

def Module.new : Module := ⟨0, 0⟩

/-- `Append` up to the insert: the event with its defaults and its number. -/
def allocate (now : Int) (event : Event) (m : Module) : Event × Module :=
  let seq :=
    if event.seq ≤ 0 ∨ event.seq ≤ m.nextSeq then
      if now ≤ m.nextSeq then m.nextSeq + 1 else now
    else event.seq
  ({ event with
      seq := seq
      createdAt := if event.createdAt = "" then pg.rfc3339Nano now else event.createdAt
      dedupeKey := trimSpace event.dedupeKey },
    { m with nextSeq := seq })

def Config.prunes (cfg : Config) : Bool := cfg.retentionPruneOnWrite && decide (0 < cfg.retentionMaxRows)

def notify (m : Module) : Module := { m with wake := m.wake + 1 }

def notifyPersisted (sequence : Int) (m : Module) : Module :=
  if sequence ≤ 0 then m
  else ⟨if m.nextSeq < sequence then sequence else m.nextSeq, m.wake + 1⟩

def resetSequence (m : Module) : Module := { m with nextSeq := 0 }

/-! ## The outbox -/

/-- The process, the tables, and all rows ever stored in `p2p_events`, oldest first. -/
structure Outbox where
  process : Module
  tables : Tables
  stored : List Event

def Outbox.empty : Outbox := ⟨Module.new, ⟨EventTable.empty, ⟨[], Pairwise.nil⟩⟩, []⟩

def Outbox.prune (o : Outbox) (t : EventTable) : Outbox := { o with tables := { o.tables with events := t } }

def Outbox.store (o : Outbox) (tables : Tables) (row : Event) : Outbox :=
  { o with tables := tables, stored := o.stored ++ [row] }

/-- `InsertEvent` on an allocated row. -/
def Outbox.insertRow (o : Outbox) (row : Event) : Bool × Outbox :=
  match insertEvent row o.tables.events with
  | (true, t) => (true, o.store { o.tables with events := t } row)
  | (false, _) => (false, o)

inductive Fault where
  | none
  | insert
  | prune
  deriving DecidableEq, Repr

def errDatabase : Error := Err.new "the database failed the statement"

def append (cfg : Config) (now : Int) (event : Event) (fault : Fault) (o : Outbox) : Except Error Unit × Outbox :=
  let (row, process) := allocate pg now event o.process
  let o := { o with process := process }
  if fault = .insert then (.error errDatabase, o)
  else
    match o.insertRow row with
    -- a taken number and a known key are the same to `Append`
    | (false, o) => (.ok (), o)
    | (true, o) =>
      if cfg.prunes then
        if fault = .prune then (.error errDatabase, o)
        else
          let o := o.prune (pruneEventsToMaxRows cfg.retentionMaxRows o.tables.events)
          (.ok (), { o with process := notify o.process })
      else (.ok (), { o with process := notify o.process })

/-- A committed `RecordAgentExecutionCompletion`, before the service calls `NotifyPersisted`. -/
def complete (receipt : Receipt) (event : Event) (o : Outbox) : Outbox :=
  match recordAgentExecutionCompletion pg receipt event o.tables with
  | .ok ((true, seq), tables) => o.store tables { event with seq := seq }
  | .ok ((false, _), _) | .error _ => o

inductive OutboxEv where
  | append (now : Int) (event : Event) (fault : Fault)
  | complete (receipt : Receipt) (event : Event)
  | notifyPersisted (sequence : Int)
  | resetSequence
  | pruneBefore (beforeSeq : Int)
  | pruneToMaxRows (maxRows : Int)
  | restart

def Outbox.exec (cfg : Config) (o : Outbox) : OutboxEv → Outbox
  | .append now event fault => (Events.append pg cfg now event fault o).2
  | .complete receipt event => Events.complete pg receipt event o
  | .notifyPersisted sequence => { o with process := Events.notifyPersisted sequence o.process }
  | .resetSequence => { o with process := Events.resetSequence o.process }
  | .pruneBefore beforeSeq => o.prune (pruneEventsBefore beforeSeq o.tables.events)
  | .pruneToMaxRows maxRows => o.prune (pruneEventsToMaxRows maxRows o.tables.events)
  | .restart => { o with process := Module.new }

def OutboxStep (cfg : Config) (o : Outbox) (ev : OutboxEv) (o' : Outbox) : Prop :=
  o' = o.exec pg cfg ev

/-! ## What an append owes its caller -/

/-- The dedupe key is empty or not stored. -/
def Fresh (o : Outbox) (event : Event) : Prop :=
  trimSpace event.dedupeKey = "" ∨ ∀ r ∈ o.tables.events.rows, r.dedupeKey ≠ trimSpace event.dedupeKey

/-- An append with a fresh key that the database does not fail stores its row, and a row that a step
stores has a number above those of all rows stored before. -/
structure Stores (o : Outbox) (ev : OutboxEv) (o' : Outbox) : Prop where
  inserted : ∀ now event fault, ev = .append now event fault → fault ≠ .insert → Fresh o event →
    o'.stored = o.stored ++ [(allocate pg now event o.process).1]
  above : ∀ row, o'.stored = o.stored ++ [row] → ∀ r ∈ o.stored, r.seq < row.seq

/-- The allocator of the step is ahead of all rows stored so far: the number given by the caller of an
append, or else the clock or the counter; for a completion, the clock or the rows still in the table. -/
def Ahead (o : Outbox) : OutboxEv → Prop
  | .append now event fault => fault ≠ .insert → Fresh o event → ∀ r ∈ o.stored,
      if 0 < event.seq ∧ o.process.nextSeq < event.seq then r.seq < event.seq
      else r.seq < now ∨ r.seq ≤ o.process.nextSeq
  | .complete receipt event => ∀ seq tables,
      recordAgentExecutionCompletion pg receipt event o.tables = .ok ((true, seq), tables) →
      ∀ r ∈ o.stored, r.seq < event.seq ∨ r.seq ≤ (eventBounds o.tables.events).maxSeq
  | _ => True

end

def samplePlatform : Platform := ⟨fun _ => "", some⟩

def sampleEvent (seq : Int) : Event := ⟨seq, "room.updated", "", "", "", "", ""⟩

def sampleReceipt : Receipt where
  eventID := "event"
  executionID := "execution"
  runID := "execution"
  conversationID := "conversation"
  turnID := "turn"
  terminalState := "succeeded"
  completedAt := "2026-01-01T00:00:00Z"
  payloadDigest := String.ofList (replicate 64 'a')
  ownerID := "@owner:example.com"
  accountGeneration := 1

/-- A completion takes the number after the last row. The next append comes before its `NotifyPersisted` and in the
same instant, allocates the same number from the counter, and is dropped without an error. -/
theorem append_swallowed : ∃ o, Run (OutboxStep samplePlatform ⟨0, false⟩) Outbox.empty
        [.append 1000 (sampleEvent 0) .none,
          .complete sampleReceipt { sampleEvent 1000 with dedupeKey := "agent.execution.v2.completed:event" }] o ∧
      o.stored.map (·.seq) = [1000, 1001] ∧ Fresh o (sampleEvent 0) ∧
      append samplePlatform ⟨0, false⟩ 1000 (sampleEvent 0) .none o = (.ok (), { o with process := ⟨1001, 1⟩ }) :=
  ⟨_, .cons rfl (.single rfl), by decide, .inl (by decide), rfl⟩

/-! ## What each operation does to the rows -/

variable {pg : Platform} {cfg : Config} {o o' : Outbox} {row : Event}

variable {event : Event}

/-- The number of an append is above `q` exactly if its allocator is. -/
theorem lt_allocate_iff : q < (allocate pg now event m).1.seq ↔
      if 0 < event.seq ∧ m.nextSeq < event.seq then q < event.seq else q < now ∨ q ≤ m.nextSeq := by
  simp only [allocate]
  split <;> split <;> (try split) <;> omega

theorem prune_before_sublist (beforeSeq : Int) (t : EventTable) :
    (pruneEventsBefore beforeSeq t).rows.Sublist t.rows := by
  unfold pruneEventsBefore
  split
  · exact .refl _
  · exact filter_sublist

theorem prune_rows_sublist (maxRows : Int) (t : EventTable) :
    (pruneEventsToMaxRows maxRows t).rows.Sublist t.rows := by
  unfold pruneEventsToMaxRows
  split
  · exact .refl _
  · exact filter_sublist

/-- A row goes in or is refused. -/
theorem insertRow_cases (o : Outbox) (row : Event) : (∃ h : o.tables.events.Free row, o.insertRow row =
      (true, o.store { o.tables with events := o.tables.events.insert row h } row)) ∨
    (¬ o.tables.events.Free row ∧ o.insertRow row = (false, o)) := by
  unfold Outbox.insertRow insertEvent
  by_cases h : o.tables.events.Free row
  · exact .inl ⟨h, by rw [dif_pos h]⟩
  · exact .inr ⟨h, by rw [dif_neg h]⟩

theorem record_inserts (h : recordAgentExecutionCompletion pg receipt event d = .ok ((true, seq), d')) :
    seq = max ((eventBounds d.events).maxSeq + 1) event.seq ∧
      ∃ hf : d.events.Free { event with seq := seq }, d'.events = d.events.insert { event with seq := seq } hf := by
  unfold recordAgentExecutionCompletion at h
  split at h
  · split at h
    · dsimp only at h
      split at h
      · rename_i hf
        split at h
        · cases h
        split at h
        · split at h
          · cases h
            exact ⟨rfl, hf, rfl⟩
          · cases h
        · cases h
      · cases h
    · split at h <;> cases h
    · cases h
  · cases h

theorem complete_cases (pg : Platform) (receipt : Receipt) (event : Event) (o : Outbox) :
    complete pg receipt event o = o ∨
      ∃ seq tables, recordAgentExecutionCompletion pg receipt event o.tables = .ok ((true, seq), tables) ∧
        complete pg receipt event o = o.store tables { event with seq := seq } := by
  unfold complete
  split
  · rename_i seq tables h
    exact .inr ⟨seq, tables, h, rfl⟩
  · exact .inl rfl
  · exact .inl rfl

theorem EventTable.mem_insert {t : EventTable} (h : t.Free row) {r : Event} :
    r ∈ (t.insert row h).rows ↔ r = row ∨ r ∈ t.rows :=
  mem_insertByKey fun r hr => (h r hr).1

/-! ## Every row of the table has been stored -/

def Outbox.Logged (o : Outbox) : Prop := ∀ r ∈ o.tables.events.rows, r ∈ o.stored

namespace Outbox.Logged

theorem empty : Outbox.empty.Logged := by simp [Outbox.Logged, Outbox.empty, EventTable.empty]

section

variable (h : o.Logged)
include h

theorem prune (ht : t.rows.Sublist o.tables.events.rows) : (o.prune t).Logged :=
  fun r hr => h r (ht.subset hr)

theorem store {tables : Tables} (hf : o.tables.events.Free row)
    (htable : tables.events = o.tables.events.insert row hf) : (o.store tables row).Logged := by
  intro r hr
  rw [Outbox.store, htable] at hr
  obtain rfl | hold := (EventTable.mem_insert hf).mp hr
  · exact mem_append_right _ (mem_singleton_self _)
  · exact mem_append_left _ (h r hold)

theorem insertRow (row : Event) : (o.insertRow row).2.Logged := by
  rcases insertRow_cases o row with ⟨hf, heq⟩ | ⟨_, heq⟩ <;> rw [heq]
  · exact h.store hf rfl
  · exact h

theorem complete (pg : Platform) (receipt : Receipt) (event : Event) : (complete pg receipt event o).Logged := by
  rcases complete_cases pg receipt event o with heq | ⟨seq, tables, hrec, heq⟩ <;> rw [heq]
  · exact h
  · obtain ⟨_, hf, htable⟩ := record_inserts hrec
    exact h.store hf htable

theorem append (pg : Platform) (cfg : Config) (now : Int) (event : Event) (fault : Fault) :
    (append pg cfg now event fault o).2.Logged := by
  have hrow := insertRow (o := { o with process := (allocate pg now event o.process).2 }) h
    (allocate pg now event o.process).1
  unfold Events.append
  dsimp only
  split
  · exact h
  split
  · rename_i heq
    rwa [heq] at hrow
  · rename_i heq
    rw [heq] at hrow
    split
    · split
      · exact hrow
      · exact hrow.prune (prune_rows_sublist ..)
    · exact hrow

theorem exec (pg : Platform) (cfg : Config) (ev : OutboxEv) : (o.exec pg cfg ev).Logged := by
  cases ev with
  | append now event fault => exact h.append pg cfg now event fault
  | complete receipt event => exact h.complete pg receipt event
  | notifyPersisted | resetSequence => exact h
  | pruneBefore beforeSeq => exact h.prune (prune_before_sublist ..)
  | pruneToMaxRows maxRows => exact h.prune (prune_rows_sublist ..)
  | restart => exact h

end

theorem of_run (hr : Run (OutboxStep pg cfg) Outbox.empty evs o) : o.Logged := by
  refine hr.inv (I := Outbox.Logged) (fun o ev o' hi hs => ?_) .empty
  obtain rfl : o' = o.exec pg cfg ev := hs
  exact hi.exec pg cfg ev

end Outbox.Logged

/-! ## Ahead of the rows -/

theorem append_stored (pg : Platform) (cfg : Config) (now : Int) (event : Event) (fault : Fault) (o : Outbox) :
    (append pg cfg now event fault o).2.stored =
      if fault ≠ .insert ∧ o.tables.events.Free (allocate pg now event o.process).1
        then o.stored ++ [(allocate pg now event o.process).1] else o.stored := by
  unfold append
  dsimp only
  by_cases hfault : fault = .insert
  · rw [if_pos hfault, if_neg fun h => h.1 hfault]
  · rw [if_neg hfault]
    rcases insertRow_cases { o with process := (allocate pg now event o.process).2 }
      (allocate pg now event o.process).1 with ⟨hf, heq⟩ | ⟨hf, heq⟩ <;> rw [heq]
    · rw [if_pos ⟨hfault, hf⟩]
      dsimp only
      split
      · split <;> rfl
      · rfl
    · rw [if_neg fun h => hf h.2]

theorem append_stores_iff (h : o.Logged) :
    Stores pg o (.append now event fault) (o.exec pg cfg (.append now event fault)) ↔
      Ahead pg o (.append now event fault) := by
  have hstored : (o.exec pg cfg (.append now event fault)).stored = _ := append_stored pg cfg now event fault o
  constructor
  · intro hs hfault hfresh r hr
    have hins := hs.inserted _ _ _ rfl hfault hfresh
    exact lt_allocate_iff.mp (hs.above _ hins r hr)
  · intro hahead
    refine ⟨?_, ?_⟩
    · rintro _ _ _ ⟨⟩ hfault hfresh
      have habove : ∀ r ∈ o.stored, r.seq < (allocate pg now event o.process).1.seq :=
        fun r hr => lt_allocate_iff.mpr (hahead hfault hfresh r hr)
      rw [hstored, if_pos ⟨hfault, fun r hr => ⟨(habove r (h r hr)).ne, hfresh.imp_right fun hk => hk r hr⟩⟩]
    · intro row hrow r hr
      rw [hstored] at hrow
      split at hrow
      · rename_i hcond
        have hfresh : Fresh o event := or_iff_not_imp_left.mpr fun hne r hr => (hcond.2 r hr).2.resolve_left hne
        obtain rfl : _ = row := by simpa using hrow
        exact lt_allocate_iff.mpr (hahead hcond.1 hfresh r hr)
      · simp at hrow

theorem complete_stores_iff : Stores pg o (.complete receipt event) (complete pg receipt event o) ↔
      Ahead pg o (.complete receipt event) := by
  have hlt : ∀ q m n : Int, q < max (m + 1) n ↔ q < n ∨ q ≤ m := by omega
  constructor
  · intro hs seq tables hrec r hr
    have habove := hs.above { event with seq := seq } (by simp [complete, hrec, Outbox.store]) r hr
    rwa [(record_inserts hrec).1, hlt] at habove
  · intro hahead
    refine ⟨by rintro _ _ _ ⟨⟩, fun row hrow r hr => ?_⟩
    rcases complete_cases pg receipt event o with heq | ⟨seq, tables, hrec, heq⟩ <;> rw [heq] at hrow
    · simp at hrow
    · obtain rfl : _ = row := by simpa [Outbox.store] using hrow
      rw [(record_inserts hrec).1, hlt]
      exact hahead seq tables hrec r hr

theorem exec_stores_iff (h : o.Logged) (ev : OutboxEv) : Stores pg o ev (o.exec pg cfg ev) ↔ Ahead pg o ev := by
  cases ev with
  | append now event fault => exact append_stores_iff h
  | complete receipt event => exact complete_stores_iff
  | _ => exact iff_of_true ⟨nofun, fun row hrow => by simp [Outbox.exec, Outbox.prune] at hrow⟩ trivial

theorem exec_stored (o : Outbox) (ev : OutboxEv) :
    (o.exec pg cfg ev).stored = o.stored ∨ ∃ row, (o.exec pg cfg ev).stored = o.stored ++ [row] := by
  cases ev with
  | append now event fault =>
    have hstored : (o.exec pg cfg (.append now event fault)).stored = _ := append_stored pg cfg now event fault o
    rw [hstored]
    split
    · exact .inr ⟨_, rfl⟩
    · exact .inl rfl
  | complete receipt event =>
    obtain heq | ⟨seq, tables, _, heq⟩ := complete_cases pg receipt event o
    · exact .inl (congrArg Outbox.stored heq)
    · exact .inr ⟨_, congrArg Outbox.stored heq⟩
  | _ => exact .inl rfl

theorem logged_ascending
    (hr : Run (Under (OutboxStep pg cfg) fun o ev _ => Ahead pg o ev) Outbox.empty evs o) :
    o.Logged ∧ Ascending Event.seq o.stored := by
  refine hr.inv_under (I := fun o => o.Logged ∧ Ascending Event.seq o.stored) ?_
    ⟨.empty, .nil⟩
  rintro o ev o' ⟨hlog, hasc⟩ hs hok
  obtain rfl : o' = o.exec pg cfg ev := hs
  refine ⟨hlog.exec pg cfg ev, ?_⟩
  obtain hsame | ⟨row, hrow⟩ := exec_stored o ev
  · rw [hsame]
    exact hasc
  · rw [hrow]
    exact hasc.snoc (((exec_stores_iff hlog ev).mpr hok).above row hrow)

/-- While every allocator is ahead of the rows stored before, rows are stored in the order of their numbers and no
append is swallowed; and a step keeps this exactly if its allocator is ahead. -/
theorem outbox_stores_above (pg : Platform) (cfg : Config) :
    (∀ evs o, Run (Under (OutboxStep pg cfg) fun o ev _ => Ahead pg o ev) Outbox.empty evs o →
      Ascending Event.seq o.stored ∧ ∀ ev, Ahead pg o ev → Stores pg o ev (o.exec pg cfg ev)) ∧
    (∀ evs o, Run (OutboxStep pg cfg) Outbox.empty evs o →
      ∀ ev, Stores pg o ev (o.exec pg cfg ev) ↔ Ahead pg o ev) := by
  refine ⟨fun evs o hr => ?_, fun evs o hr => exec_stores_iff (.of_run hr)⟩
  obtain ⟨hlog, hasc⟩ := logged_ascending hr
  exact ⟨hasc, fun ev => (exec_stores_iff hlog ev).mpr⟩

/-- With the completion's number told to the counter first, the append is stored. -/
theorem outbox_stores_above_notified :
    ∃ o, Run (Under (OutboxStep samplePlatform ⟨0, false⟩) fun o ev _ => Ahead samplePlatform o ev) Outbox.empty
        [.append 1000 (sampleEvent 0) .none,
          .complete sampleReceipt { sampleEvent 1000 with dedupeKey := "agent.execution.v2.completed:event" },
          .notifyPersisted 1001, .append 1000 (sampleEvent 0) .none] o ∧
      o.stored.map (·.seq) = [1000, 1001, 1002] ∧ Ascending Event.seq o.stored := by
  refine' ⟨_, ?run, ?seqs, ((outbox_stores_above samplePlatform ⟨0, false⟩).1 _ _ ?run).1⟩
  case run =>
    refine .cons ⟨rfl, fun _ _ => ?_⟩ (.cons ⟨rfl, fun _ _ _ => ?_⟩ (.cons ⟨rfl, trivial⟩ (.single ⟨?last, fun _ _ => ?_⟩)))
    case last => rfl
    all_goals decide
  case seqs => decide

end Dirextalk.Events

/-
  Dirextalk.Events.CompletionStores — the two stores of completion receipts
  (`p2p/storage/agent_execution_completion.go`, `p2p/storage/memory_events.go`) keep the
  laws of `CompletionStore`.

  In the database the method is one transaction. It locks the receipt table against other
  writers before it looks for the receipt, and the event table before it takes a number, so
  that it stands in one place among all other writes. In memory it runs under the mutex of
  the store.

  The database keeps ids in UUID columns: they are found and printed in standard form. A
  receipt whose ids are written otherwise is stored in standard form, and differs from what
  was stored when it is sent again; `Validate` lets no such receipt pass.
-/
import Mathlib.Data.List.Pairwise
import Dirextalk.Events.Completion

namespace Dirextalk.Events

open Lib Lib.Go List
open Function (update)

/-! ## The database -/

def databaseStore (pg : Platform) : CompletionStore where
  State := Tables
  empty := Outbox.empty.tables
  stored d row := row ∈ d.receipts.rows
  events d := d.events.rows
  column := pg.uuid
  record receipt event d :=
    match recordAgentExecutionCompletion pg receipt event d with
    | .error e => (⟨false, 0, some e⟩, d)
    | .ok (answer, d') => (⟨answer.1, answer.2, none⟩, d')
  insertEvent event d := ((Events.insertEvent event d.events).1, { d with events := (Events.insertEvent event d.events).2 })

structure Platform.PrintsUuids (pg : Platform) : Prop where
  standard : ∀ v w, pg.uuid v = some w → standardUuid w = true
  fixed : ∀ v, standardUuid v = true → pg.uuid v = some v

/-- `UUID.String` returns the standard form. -/
def UuidPackage.PrintsStandard (pkg : UuidPackage) : Prop := ∀ u, standardUuid (pkg.string u) = true

section Database

variable {pg : Platform} {d d' : Tables} {receipt columns : Receipt} {event : Event} {row : ReceiptRow}

theorem record_cases (pg : Platform) (receipt : Receipt) (event : Event) (d : Tables) :
    (∃ columns seq hf hr, receipt.columns pg = some columns ∧ recordAgentExecutionCompletion pg receipt event d =
        .ok ((true, seq), ⟨d.events.insert { event with seq := seq } hf, d.receipts.insert ⟨columns, seq⟩ hr⟩)) ∨
    (∃ row ∈ d.receipts.rows, row.receipt = receipt ∧
      recordAgentExecutionCompletion pg receipt event d = .ok ((false, row.eventSeq), d)) ∨
    ∃ e, recordAgentExecutionCompletion pg receipt event d = .error e := by
  unfold recordAgentExecutionCompletion
  split
  · split
    · dsimp only
      split
      · rename_i hf
        split
        · exact .inr (.inr ⟨_, rfl⟩)
        rename_i columns hcolumns
        split
        · rename_i hr
          split
          · exact .inl ⟨columns, _, hf, hr, hcolumns, rfl⟩
          · exact .inr (.inr ⟨_, rfl⟩)
        · exact .inr (.inr ⟨_, rfl⟩)
      · exact .inr (.inr ⟨_, rfl⟩)
    · rename_i byEvent byExecution hevent hexecution
      split
      · exact .inr (.inr ⟨_, rfl⟩)
      rename_i hsame
      refine .inr (.inl ⟨byEvent, mem_of_find?_eq_some hevent, ?_, rfl⟩)
      by_contra hne
      exact hsame (.inl hne)
    · exact .inr (.inr ⟨_, rfl⟩)
  · exact .inr (.inr ⟨_, rfl⟩)

theorem ReceiptRow.Clash.symm {a b : ReceiptRow} (h : a.Clash b) : b.Clash a := by
  obtain h | ⟨ho, hg, hx⟩ | h := h
  · exact .inl h.symm
  · exact .inr (.inl ⟨ho.symm, hg.symm, hx.symm⟩)
  · exact .inr (.inr h.symm)

theorem ReceiptTable.eq_of_clash {t : ReceiptTable} {a b : ReceiptRow} (ha : a ∈ t.rows) (hb : b ∈ t.rows)
    (h : a.Clash b) : a = b := by
  by_contra hne
  have hsymm : Std.Symm fun a b : ReceiptRow => ¬ a.Clash b := ⟨fun _ _ hab hba => hab hba.symm⟩
  exact t.unique.forall ha hb hne h

def Tables.Printed (pg : Platform) (d : Tables) : Prop :=
  ∀ row ∈ d.receipts.rows, row.receipt.columns pg = some row.receipt

theorem columns_columns (hpg : pg.PrintsUuids) (h : receipt.columns pg = some columns) :
    columns.columns pg = some columns := by
  have hfix : ∀ {v w}, pg.uuid v = some w → pg.uuid w = some w := fun hv => hpg.fixed _ (hpg.standard _ _ hv)
  simp only [Receipt.columns, Receipt.keyed, Option.bind_eq_bind, Option.bind_eq_some_iff] at h
  obtain ⟨eventID, hevent, executionID, hexecution, runID, hrun, conversationID, hconversation, turnID, hturn, hr⟩ := h
  cases hr
  simp [Receipt.columns, Receipt.keyed, hfix hevent, hfix hexecution, hfix hrun, hfix hconversation, hfix hturn]

theorem clash_of_shares (hd : d.Printed pg) (hrow : row ∈ d.receipts.rows)
    (h : (databaseStore pg).Shares receipt row.receipt)
    (hevent : pg.uuid receipt.eventID = some eventID) (hexecution : pg.uuid receipt.executionID = some executionID) :
    row.receipt.eventID = eventID ∨ (row.receipt.ownerID = receipt.ownerID ∧
      row.receipt.accountGeneration = receipt.accountGeneration ∧ row.receipt.executionID = executionID) := by
  obtain ⟨hevent', hexecution', _, _⟩ := Receipt.keyed_ids (hd row hrow)
  obtain h | ⟨ho, hg, hx⟩ := h
  · refine .inl (Option.some.inj ?_)
    rw [← hevent', ← hevent]
    exact h.symm
  · refine .inr ⟨ho.symm, hg.symm, Option.some.inj ?_⟩
    rw [← hexecution', ← hexecution]
    exact hx.symm

theorem find_event (hrow : row ∈ d.receipts.rows) :
    d.receipts.rows.find? (·.receipt.eventID == row.receipt.eventID) = some row := by
  cases hfind : d.receipts.rows.find? (·.receipt.eventID == row.receipt.eventID) with
  | none => exact absurd (find?_eq_none.mp hfind row hrow) (by simp)
  | some found =>
    have heq : found.receipt.eventID = row.receipt.eventID := by simpa using find?_some hfind
    rw [ReceiptTable.eq_of_clash (mem_of_find?_eq_some hfind) hrow (.inl heq)]

theorem find_execution (hrow : row ∈ d.receipts.rows) :
    d.receipts.rows.find? (fun r => r.receipt.ownerID == row.receipt.ownerID &&
      r.receipt.accountGeneration == row.receipt.accountGeneration && r.receipt.executionID == row.receipt.executionID) =
        some row := by
  cases hfind : d.receipts.rows.find? (fun r => r.receipt.ownerID == row.receipt.ownerID &&
      r.receipt.accountGeneration == row.receipt.accountGeneration && r.receipt.executionID == row.receipt.executionID) with
  | none => exact absurd (find?_eq_none.mp hfind row hrow) (by simp)
  | some found =>
    have heq := find?_some hfind
    simp only [Bool.and_eq_true, beq_iff_eq] at heq
    rw [ReceiptTable.eq_of_clash (mem_of_find?_eq_some hfind) hrow (.inr (.inl ⟨heq.1.1, heq.1.2, heq.2⟩))]

/-- The transaction repeats its answer for a stored receipt. -/
theorem record_known (event : Event) (hd : d.Printed pg) (hrow : row ∈ d.receipts.rows) :
    recordAgentExecutionCompletion pg row.receipt event d = .ok ((false, row.eventSeq), d) := by
  obtain ⟨hevent, hexecution, _, _⟩ := Receipt.keyed_ids (hd row hrow)
  simp [recordAgentExecutionCompletion, hevent, hexecution, find_event hrow, find_execution hrow]

theorem record_conflict (event : Event) (hd : d.Printed pg) (hrow : row ∈ d.receipts.rows)
    (hshares : (databaseStore pg).Shares receipt row.receipt) (hne : receipt ≠ row.receipt) :
    ∃ e, recordAgentExecutionCompletion pg receipt event d = .error e := by
  unfold recordAgentExecutionCompletion
  split
  · rename_i eventID executionID hevent hexecution
    obtain rfl | ⟨ho, hg, rfl⟩ := clash_of_shares hd hrow hshares hevent hexecution
    · rw [find_event hrow]
      split
      · rename_i hnone _
        cases hnone
      · rename_i hsome _
        cases hsome
        rw [if_pos (.inl hne.symm)]
        exact ⟨_, rfl⟩
      · exact ⟨_, rfl⟩
    · rw [← ho, ← hg, find_execution hrow]
      split
      · rename_i hnone
        cases hnone
      · rename_i hsome
        cases hsome
        rw [if_pos (.inr (.inl hne.symm))]
        exact ⟨_, rfl⟩
      · exact ⟨_, rfl⟩
  · exact ⟨_, rfl⟩

theorem record_outcome (hd : d.Printed pg) :
    Outcome (databaseStore pg) receipt event d ((databaseStore pg).record receipt event d) := by
  rcases record_cases pg receipt event d with ⟨columns, seq, hf, hr, hcolumns, heq⟩ | ⟨row, hrow, hsame, heq⟩ | ⟨e, heq⟩ <;>
    simp only [databaseStore, heq]
  · refine .inserted hcolumns ?_ (fun e he => (hf e he).1) (fun row => ?_) (fun e => ?_)
    · intro row hrow hshares
      obtain ⟨hevent, hexecution, howner, hgeneration⟩ := Receipt.keyed_ids hcolumns
      obtain h | ⟨ho, hg, hx⟩ := clash_of_shares hd hrow hshares hevent hexecution
      · exact hr row hrow (.inl h)
      · exact hr row hrow (.inr (.inl ⟨ho.trans howner.symm, hg.trans hgeneration.symm, hx⟩))
    · simp [ReceiptTable.insert]
    · exact (EventTable.mem_insert hf).trans or_comm
  · refine .known ?_
    rw [← hsame]
    exact hrow
  · exact .refused 0 e

theorem record_printed (hpg : pg.PrintsUuids) (hd : d.Printed pg) :
    Tables.Printed pg ((databaseStore pg).record receipt event d).2 := by
  rcases record_cases pg receipt event d with ⟨columns, seq, hf, hr, hcolumns, heq⟩ | ⟨row, hrow, hsame, heq⟩ | ⟨e, heq⟩ <;>
    simp only [databaseStore, heq]
  · intro row hrow
    obtain hold | hnew := mem_append.mp hrow
    · exact hd row hold
    · rw [mem_singleton.mp hnew]
      exact columns_columns hpg hcolumns
  · exact hd
  · exact hd

def databaseLaws (hpg : pg.PrintsUuids) : (databaseStore pg).Laws where
  Inv := Tables.Printed pg
  empty := ⟨fun _ hrow => absurd hrow not_mem_nil, fun _ => not_mem_nil, rfl⟩
  record_inv _ _ hd := record_printed hpg hd
  insertEvent_inv _ hd := hd
  distinct {d} _ := d.events.sorted.imp fun h => (Int.ne_of_lt h)
  fixed hd hrow := hd _ hrow
  outcome receipt event hd := record_outcome hd
  known event hd hrow := by simp [databaseStore, record_known event hd hrow]
  conflict event hd hrow hshares hne := by
    obtain ⟨e, heq⟩ := record_conflict event hd hrow hshares hne
    exact ⟨0, e, by simp [databaseStore, heq]⟩
  inserts {d} event _ := by
    refine ⟨fun _ => Iff.rfl, ?_⟩
    by_cases hf : d.events.Free event
    · refine .inr ⟨fun e he => (hf e he).1, fun e => ?_⟩
      simp only [databaseStore, insertEvent, dif_pos hf]
      exact (EventTable.mem_insert hf).trans or_comm
    · refine .inl ?_
      simp only [databaseStore, insertEvent, dif_neg hf]
      rfl

end Database

/-! ## Memory -/

/-- `completionExecutionKey`. -/
def completionExecutionKey (receipt : Receipt) : String :=
  receipt.ownerID ++ "\x00" ++ toString receipt.accountGeneration ++ "\x00" ++ receipt.executionID

structure Memory where
  completionReceipts : String → Option Receipt
  completionExecutions : String → Option String
  completionEventSeq : String → Option Int
  events : List Event
  eventSeq : List Int
  eventDedupe : String → Option Int

def Memory.empty : Memory := ⟨fun _ => none, fun _ => none, fun _ => none, [], [], fun _ => none⟩

/-- `for { if _, exists := s.eventSeq[seq]; !exists { break }; seq++ }`, for at most `fuel` rounds. -/
def nextFree (taken : List Int) : Nat → Int → Int
  | 0, seq => seq
  | fuel + 1, seq => if seq ∈ taken then nextFree taken fuel (seq + 1) else seq

namespace Memory

/-- The entries of a new receipt and of its event. -/
def store (m : Memory) (receipt : Receipt) (event : Event) (seq : Int) : Memory where
  completionReceipts := update m.completionReceipts receipt.eventID (some receipt)
  completionExecutions := update m.completionExecutions (completionExecutionKey receipt) (some receipt.eventID)
  completionEventSeq := update m.completionEventSeq receipt.eventID (some seq)
  events := m.events ++ [{ event with seq := seq }]
  eventSeq := seq :: m.eventSeq
  eventDedupe := update m.eventDedupe event.dedupeKey (some seq)

/-- `MemoryStore.RecordAgentExecutionCompletion`. -/
def record (receipt : Receipt) (event : Event) (m : Memory) : Answer × Memory :=
  let executionKey := completionExecutionKey receipt
  match m.completionReceipts receipt.eventID, m.completionExecutions executionKey with
  | none, none =>
    match m.eventDedupe event.dedupeKey with
    | some existingSeq => (⟨false, existingSeq, some errAgentExecutionCompletionConflict⟩, m)
    | none =>
      if event.seq ≤ 0 then (⟨false, 0, some (Err.new "completion event sequence is required")⟩, m)
      else
        let seq := nextFree m.eventSeq (m.eventSeq.length + 1) event.seq
        (⟨true, seq, none⟩, m.store receipt event seq)
  | some eventReceipt, some executionEventID =>
    if m.completionReceipts executionEventID = some receipt ∧ executionEventID = receipt.eventID ∧ eventReceipt = receipt then
      -- a missing entry of a map reads as zero
      (⟨false, (m.completionEventSeq receipt.eventID).getD 0, none⟩, m)
    else (⟨false, 0, some errAgentExecutionCompletionConflict⟩, m)
  | _, _ => (⟨false, 0, some errAgentExecutionCompletionConflict⟩, m)

/-- `MemoryStore.InsertEvent`. -/
def insertEvent (event : Event) (m : Memory) : Bool × Memory :=
  if event.seq ∈ m.eventSeq then (false, m)
  else if event.dedupeKey ≠ "" then
    if (m.eventDedupe event.dedupeKey).isSome then (false, m)
    else (true, { m with events := m.events ++ [event]
                         eventSeq := event.seq :: m.eventSeq
                         eventDedupe := update m.eventDedupe event.dedupeKey (some event.seq) })
  else (true, { m with events := m.events ++ [event], eventSeq := event.seq :: m.eventSeq })

def stored (m : Memory) (row : ReceiptRow) : Prop :=
  m.completionReceipts row.receipt.eventID = some row.receipt ∧
    (m.completionEventSeq row.receipt.eventID).getD 0 = row.eventSeq

structure Consistent (m : Memory) : Prop where
  receipts : ∀ id receipt, m.completionReceipts id = some receipt →
    receipt.eventID = id ∧ m.completionExecutions (completionExecutionKey receipt) = some id
  executions : ∀ key id, m.completionExecutions key = some id →
    ∃ receipt, m.completionReceipts id = some receipt ∧ completionExecutionKey receipt = key
  numbers : ∀ n, n ∈ m.eventSeq ↔ ∃ e ∈ m.events, e.seq = n
  distinct : m.events.Pairwise fun a b => a.seq ≠ b.seq

end Memory

def memoryStore : CompletionStore where
  State := Memory
  empty := Memory.empty
  stored := Memory.stored
  events := Memory.events
  column := some
  record := Memory.record
  insertEvent := Memory.insertEvent

/-- The loop ends at a free number when it may go round once more than there are numbers left. -/
theorem nextFree_not_mem (taken : List Int) (fuel : Nat) (seq : Int) (h : (taken.filter (seq ≤ ·)).length < fuel) :
    nextFree taken fuel seq ∉ taken := by
  induction fuel generalizing seq with
  | zero => omega
  | succ fuel ih =>
    unfold nextFree
    split
    · rename_i hmem
      refine ih (seq + 1) ?_
      -- the number just passed is no longer ahead
      have hsub : (taken.filter (seq + 1 ≤ ·)).length < (taken.filter (seq ≤ ·)).length := by
        have heq : taken.filter (seq + 1 ≤ ·) = (taken.filter (seq ≤ ·)).filter (· ≠ seq) := by
          rw [filter_filter]
          refine filter_congr fun x _ => ?_
          rw [Bool.eq_iff_iff]
          simp only [Bool.and_eq_true, decide_eq_true_eq]
          omega
        rw [heq]
        exact length_filter_lt_length_iff_exists.mpr ⟨seq, by simp [hmem], by simp⟩
      omega
    · assumption

namespace Memory

variable {m : Memory} {receipt : Receipt} {event : Event} {row : ReceiptRow}

theorem free_seq (hm : m.Consistent) (seq : Int) :
    ∀ e ∈ m.events, e.seq ≠ nextFree m.eventSeq (m.eventSeq.length + 1) seq := by
  intro e he heq
  refine nextFree_not_mem m.eventSeq (m.eventSeq.length + 1) seq ?_ ((hm.numbers _).mpr ⟨e, he, heq⟩)
  exact Nat.lt_succ_of_le (length_filter_le ..)

theorem append_numbers (hm : m.Consistent) (hnew : ∀ x ∈ m.events, x.seq ≠ e.seq) :
    (∀ n, n ∈ e.seq :: m.eventSeq ↔ ∃ x ∈ m.events ++ [e], x.seq = n) ∧
      (m.events ++ [e]).Pairwise fun a b => a.seq ≠ b.seq := by
  constructor
  · intro n
    rw [mem_cons, hm.numbers]
    grind
  · refine pairwise_append.mpr ⟨hm.distinct, pairwise_singleton _ _, ?_⟩
    intro x hx y hy
    rw [mem_singleton.mp hy]
    exact hnew x hx

theorem record_known (event : Event) (hm : m.Consistent) (hrow : m.stored row) :
    m.record row.receipt event = (⟨false, row.eventSeq, none⟩, m) := by
  obtain ⟨hreceipt, hseq⟩ := hrow
  have hexecution := (hm.receipts _ _ hreceipt).2
  simp [record, hreceipt, hexecution, hseq]

theorem record_conflict (event : Event) (hm : m.Consistent) (hrow : m.stored row)
    (hshares : memoryStore.Shares receipt row.receipt)
    (hne : receipt ≠ row.receipt) : ∃ e, m.record receipt event = (⟨false, 0, some e⟩, m) := by
  obtain ⟨hreceipt, _⟩ := hrow
  have hexecution := (hm.receipts _ _ hreceipt).2
  obtain h | ⟨ho, hg, hx⟩ := hshares
  · have hid := Option.some.inj h
    unfold record
    rw [hid, hreceipt]
    dsimp only
    split
    · rename_i hnone _
      cases hnone
    · rename_i hsome _
      cases hsome
      rw [if_neg fun hsame => hne hsame.2.2.symm]
      exact ⟨_, rfl⟩
    · exact ⟨_, rfl⟩
  · have hkey : completionExecutionKey receipt = completionExecutionKey row.receipt := by
      rw [completionExecutionKey, completionExecutionKey, ho, hg, Option.some.inj hx]
    unfold record
    dsimp only
    rw [hkey, hexecution]
    split
    · rename_i hnone
      cases hnone
    · rename_i hsome
      cases hsome
      rw [hreceipt, if_neg fun hsame => hne (Option.some.inj hsame.1).symm]
      exact ⟨_, rfl⟩
    · exact ⟨_, rfl⟩

section Store

variable {seq : Int} (hreceipt : m.completionReceipts receipt.eventID = none)
  (hexecution : m.completionExecutions (completionExecutionKey receipt) = none)

include hreceipt

theorem store_stored (row : ReceiptRow) :
    (m.store receipt event seq).stored row ↔ m.stored row ∨ row = ⟨receipt, seq⟩ := by
  obtain ⟨r, n⟩ := row
  by_cases hid : r.eventID = receipt.eventID
  · simp only [stored, store, hid, Function.update_self, hreceipt, Option.getD_some, ReceiptRow.mk.injEq]
    simp [eq_comm]
  · have hne : r ≠ receipt := fun heq => hid (by rw [heq])
    simp [stored, store, hid, hne]

include hexecution

/-- A receipt with a key of another one finds something under that key. -/
theorem not_shares (hm : m.Consistent) (row : ReceiptRow) (hrow : m.stored row) :
    ¬ memoryStore.Shares receipt row.receipt := by
  rintro (h | ⟨ho, hg, hx⟩)
  · rw [Option.some.inj h, hrow.1] at hreceipt
    cases hreceipt
  · have hkey : completionExecutionKey receipt = completionExecutionKey row.receipt := by
      rw [completionExecutionKey, completionExecutionKey, ho, hg, Option.some.inj hx]
    rw [hkey, (hm.receipts _ _ hrow.1).2] at hexecution
    cases hexecution

theorem store_consistent (hm : m.Consistent) (hfree : ∀ e ∈ m.events, e.seq ≠ seq) :
    (m.store receipt event seq).Consistent := by
  obtain ⟨hnumbers, hdistinct⟩ := append_numbers hm (e := { event with seq := seq }) hfree
  refine ⟨?_, ?_, hnumbers, hdistinct⟩
  · intro id r hr
    by_cases hid : id = receipt.eventID
    · subst hid
      obtain rfl : receipt = r := by simpa [store] using hr
      simp [store]
    · have hold : m.completionReceipts id = some r := by simpa [store, hid] using hr
      obtain ⟨heq, hkey⟩ := hm.receipts id r hold
      have hne : completionExecutionKey r ≠ completionExecutionKey receipt := by
        intro h
        rw [h, hexecution] at hkey
        cases hkey
      exact ⟨heq, by simpa [store, hne] using hkey⟩
  · intro key id hid
    by_cases hkey : key = completionExecutionKey receipt
    · subst hkey
      obtain rfl : receipt.eventID = id := by simpa [store] using hid
      exact ⟨receipt, by simp [store], rfl⟩
    · have hold : m.completionExecutions key = some id := by simpa [store, hkey] using hid
      obtain ⟨r, hr, hrkey⟩ := hm.executions key id hold
      have hne : id ≠ receipt.eventID := by
        intro h
        rw [h, hreceipt] at hr
        cases hr
      exact ⟨r, by simpa [store, hne] using hr, hrkey⟩

end Store

/-- What a call does, and that the maps still agree. -/
theorem record_outcome (hm : m.Consistent) :
    Outcome memoryStore receipt event m (m.record receipt event) ∧ (m.record receipt event).2.Consistent := by
  unfold record
  dsimp only
  split
  · rename_i hreceipt hexecution
    split
    · exact ⟨.refused _ _, hm⟩
    split
    · exact ⟨.refused _ _, hm⟩
    have hfree := free_seq hm event.seq
    refine ⟨.inserted rfl (not_shares hreceipt hexecution hm) hfree (store_stored hreceipt) ?_,
      store_consistent hreceipt hexecution hm hfree⟩
    intro e
    simp [memoryStore, store]
  · split
    · rename_i hsame
      refine ⟨.known ⟨?_, rfl⟩, hm⟩
      exact hsame.2.1 ▸ hsame.1
    · exact ⟨.refused _ _, hm⟩
  · exact ⟨.refused _ _, hm⟩

/-- An event of somebody else leaves the receipts. -/
theorem insertEvent_cases (event : Event) (m : Memory) :
    (m.insertEvent event).2 = m ∨ (event.seq ∉ m.eventSeq ∧ ∃ dedupe,
      (m.insertEvent event).2 =
        { m with events := m.events ++ [event], eventSeq := event.seq :: m.eventSeq, eventDedupe := dedupe }) := by
  unfold insertEvent
  split
  · exact .inl rfl
  rename_i hseq
  split
  · split
    · exact .inl rfl
    · exact .inr ⟨hseq, _, rfl⟩
  · exact .inr ⟨hseq, m.eventDedupe, rfl⟩

theorem not_numbered (hm : m.Consistent) (hseq : event.seq ∉ m.eventSeq) : ∀ e ∈ m.events, e.seq ≠ event.seq :=
  fun e he heq => hseq ((hm.numbers _).mpr ⟨e, he, heq⟩)

theorem insertEvent_consistent (hm : m.Consistent) : (m.insertEvent event).2.Consistent := by
  rcases insertEvent_cases event m with heq | ⟨hseq, dedupe, heq⟩ <;> rw [heq]
  · exact hm
  · obtain ⟨hnumbers, hdistinct⟩ := append_numbers hm (not_numbered hm hseq)
    exact ⟨hm.receipts, hm.executions, hnumbers, hdistinct⟩

end Memory

def memoryLaws : memoryStore.Laws where
  Inv := Memory.Consistent
  empty := by
    refine ⟨⟨?_, ?_, ?_, Pairwise.nil⟩, ?_, rfl⟩ <;> simp [memoryStore, Memory.empty, Memory.stored]
  record_inv _ _ hm := (Memory.record_outcome hm).2
  insertEvent_inv _ hm := Memory.insertEvent_consistent hm
  distinct hm := hm.distinct
  fixed _ _ := rfl
  outcome _ _ hm := (Memory.record_outcome hm).1
  known event hm hrow := Memory.record_known event hm hrow
  conflict event hm hrow hshares hne := by
    obtain ⟨e, heq⟩ := Memory.record_conflict event hm hrow hshares hne
    exact ⟨0, e, heq⟩
  inserts {m} event hm := by
    simp only [memoryStore]
    rcases Memory.insertEvent_cases event m with heq | ⟨hseq, dedupe, heq⟩ <;> rw [heq]
    · exact ⟨fun _ => Iff.rfl, .inl rfl⟩
    · exact ⟨fun _ => Iff.rfl, .inr ⟨Memory.not_numbered hm hseq, fun e => by simp⟩⟩

/-! ## Both stores -/

theorem validate_ids {pkg : UuidPackage} (hpkg : pkg.PrintsStandard) {r : Receipt} {order : r.Order}
    (h : r.validate pkg order = .ok ()) : ∀ id ∈ r.ids, standardUuid id.2 = true := by
  unfold Receipt.validate at h
  split at h
  · cases h
  rename_i hnone
  intro id hid
  have hcanonical := find?_eq_none.mp hnone id (order.property.mem_iff.mpr hid)
  simp only [canonicalNonNilUUID, Bool.not_eq_true', Bool.not_eq_false] at hcanonical
  split at hcanonical
  · rename_i parsed _
    have hstring : pkg.string parsed = id.2 := by simpa using (Bool.and_eq_true_iff.mp hcanonical).2
    rw [← hstring]
    exact hpkg parsed
  · cases hcanonical

theorem validate_columns {pg : Platform} (hpg : pg.PrintsUuids) {pkg : UuidPackage} (hpkg : pkg.PrintsStandard)
    {r : Receipt} {order : r.Order} (h : r.validate pkg order = .ok ()) : r.columns pg = some r := by
  have hids := validate_ids hpkg h
  simp only [Receipt.ids, mem_cons, not_mem_nil, or_false, forall_eq_or_imp, forall_eq] at hids
  obtain ⟨hevent, hexecution, hrun, hconversation, hturn⟩ := hids
  simp [Receipt.columns, Receipt.keyed, hpg.fixed _ hevent, hpg.fixed _ hexecution, hpg.fixed _ hrun, hpg.fixed _ hconversation,
    hpg.fixed _ hturn]

def standardPackage : UuidPackage where
  UUID := { s : String // standardUuid s = true }
  parse s := if h : standardUuid s = true then some ⟨s, h⟩ else none
  string u := u.val
  isNil u := u.val == "00000000-0000-0000-0000-000000000000"

def standardPlatform : Platform := ⟨fun _ => "", fun s => if standardUuid s then some s else none⟩

def validReceipt : Receipt where
  eventID := "11111111-1111-4111-8111-111111111111"
  executionID := "22222222-2222-4222-8222-222222222222"
  runID := "22222222-2222-4222-8222-222222222222"
  conversationID := "33333333-3333-4333-8333-333333333333"
  turnID := "44444444-4444-4444-8444-444444444444"
  terminalState := "succeeded"
  completedAt := "2026-01-01T00:00:00.5Z"
  payloadDigest := "6f3ea127b13c75b06f100da87dfe8e58b77e6c929308f5c6e33a6d167dddc992"
  ownerID := "@owner:example.com"
  accountGeneration := 1

theorem standardPlatform_prints : standardPlatform.PrintsUuids where
  standard v w h := by
    simp only [standardPlatform, Option.ite_none_right_eq_some, Option.some.injEq] at h
    exact h.2 ▸ h.1
  fixed v h := by simp [standardPlatform, h]

end Dirextalk.Events

/-
  Dirextalk.Events.Stream — the outbox with its writers and its readers at work: `Append`
  calls in their separate steps, completions and their notifications, retention, and the
  handlers of the event stream (`productEventsHandler` of `p2p/events_http.go`).

  An `Append` takes its number under the mutex and inserts its row later, so that rows
  become visible in any order. A handler checks its cursor once, when it connects, and then
  lists, writes and waits until its client goes away. Every step below is one of the places
  where other goroutines can come in between.
-/
import Dirextalk.Events.Outbox

namespace Dirextalk.Events

open Lib List

/-! ## The stream handler -/

def productEventBatchLimit : Int := 100

inductive Phase where
  /-- about to call `List` -/
  | list
  | writing (batch : List Event)
  /-- `List` was empty, about to call `Waiter` -/
  | idle
  | waiting (channel : Nat)

def Phase.batch : Phase → List Event
  | .writing batch => batch
  | _ => []

/-- A connected client: the cursor it came with, `afterSeq`, and what has been written to it. `lost`
are the rows that were pruned since it connected. -/
structure Stream where
  since : Int
  cursor : Int
  phase : Phase
  written : List Event
  lost : List Event
  connected : Bool

/-- `CursorStatus(since).Expired`. -/
def cursorExpired (since : Int) (t : EventTable) : Bool :=
  decide (0 < since) && decide (0 < (eventBounds t).count) && decide (0 < (eventBounds t).minSeq) &&
    decide (since < (eventBounds t).minSeq)

def Stream.connect (since : Int) : Stream := ⟨since, since, .list, [], [], true⟩

def Stream.lose (h : Stream) (gone : List Event) : Stream := { h with lost := h.lost ++ gone }

def Stream.close (h : Stream) : Stream := { h with connected := false }

inductive HandlerEv where
  | list
  | write
  | waiter
  | heartbeat
  | woken
  | disconnect
  deriving DecidableEq, Repr

inductive HandlerStep (o : Outbox) : Stream → HandlerEv → Stream → Prop where
  | listed {h : Stream} {e : Event} {batch : List Event} (hp : h.phase = .list)
      (hl : listEvents h.cursor productEventBatchLimit o.tables.events = e :: batch) :
      HandlerStep o h .list { h with phase := .writing (e :: batch) }
  | listedNone {h : Stream} (hp : h.phase = .list)
      (hl : listEvents h.cursor productEventBatchLimit o.tables.events = []) :
      HandlerStep o h .list { h with phase := .idle }
  | write {h : Stream} {e e' : Event} {rest : List Event} (hp : h.phase = .writing (e :: e' :: rest)) :
      HandlerStep o h .write { h with cursor := e.seq, written := h.written ++ [e], phase := .writing (e' :: rest) }
  | writeLast {h : Stream} {e : Event} (hp : h.phase = .writing [e]) :
      HandlerStep o h .write { h with cursor := e.seq, written := h.written ++ [e], phase := .list }
  | waiter {h : Stream} (hp : h.phase = .idle) : HandlerStep o h .waiter { h with phase := .waiting o.process.wake }
  | heartbeat {h : Stream} {channel : Nat} (hp : h.phase = .waiting channel) :
      HandlerStep o h .heartbeat { h with phase := .list }
  | woken {h : Stream} {channel : Nat} (hp : h.phase = .waiting channel) (hclosed : channel < o.process.wake) :
      HandlerStep o h .woken { h with phase := .list }
  /-- The client is gone, or a write to it fails. -/
  | disconnect (h : Stream) : HandlerStep o h .disconnect h.close

/-! ## The system -/

inductive Task where
  /-- an `Append` with its number -/
  | insert (row : Event)
  /-- an `Append` whose row is stored -/
  | prune
  | notify
  /-- a completion whose transaction has committed -/
  | persisted (sequence : Int)

structure System where
  outbox : Outbox
  tasks : List Task
  streams : List Stream

def System.empty : System := ⟨Outbox.empty, [], []⟩

def System.rows (s : System) : List Event := s.outbox.tables.events.rows

def afterInsert (cfg : Config) (inserted : Bool) : List Task :=
  if inserted then [if cfg.prunes then .prune else .notify] else []

def afterComplete (pg : Platform) (receipt : Receipt) (event : Event) (d : Tables) : List Task :=
  match recordAgentExecutionCompletion pg receipt event d with
  | .ok ((true, seq), _) => [.persisted seq]
  | _ => []

/-- Rows are deleted; the streams that are connected keep count of them. -/
def System.prune (s : System) (t : EventTable) : System :=
  { s with outbox := s.outbox.prune t
           streams := s.streams.map (·.lose (s.rows.filter (· ∉ t.rows))) }

inductive Ev where
  | allocate (now : Int) (event : Event)
  | insert (i : Nat)
  | prune (i : Nat)
  | notify (i : Nat)
  /-- the database fails the statement of the call, which returns the error -/
  | fail (i : Nat)
  | complete (receipt : Receipt) (event : Event)
  | resetSequence
  | pruneBefore (beforeSeq : Int)
  | pruneToMaxRows (maxRows : Int)
  | restart
  | connect (since : Int)
  | stream (i : Nat) (ev : HandlerEv)

def Ev.lists (i : Nat) : Ev → Bool
  | .stream j .list => i == j
  | _ => false

inductive SystemStep (pg : Platform) (cfg : Config) : System → Ev → System → Prop where
  | allocate {s : System} (now : Int) (event : Event) : SystemStep pg cfg s (.allocate now event)
        { s with outbox := { s.outbox with process := (Events.allocate pg now event s.outbox.process).2 }
                 tasks := s.tasks ++ [.insert (Events.allocate pg now event s.outbox.process).1] }
  | insert {s : System} {i : Nat} {row : Event} (h : s.tasks[i]? = some (.insert row)) :
      SystemStep pg cfg s (.insert i)
        { s with outbox := (s.outbox.insertRow row).2
                 tasks := s.tasks.eraseIdx i ++ afterInsert cfg (s.outbox.insertRow row).1 }
  | prune {s : System} {i : Nat} (h : s.tasks[i]? = some .prune) : SystemStep pg cfg s (.prune i)
        { s.prune (pruneEventsToMaxRows cfg.retentionMaxRows s.outbox.tables.events) with
            tasks := s.tasks.eraseIdx i ++ [.notify] }
  | notify {s : System} {i : Nat} (h : s.tasks[i]? = some .notify) : SystemStep pg cfg s (.notify i)
        { s with outbox := { s.outbox with process := Events.notify s.outbox.process }
                 tasks := s.tasks.eraseIdx i }
  | persisted {s : System} {i : Nat} {sequence : Int} (h : s.tasks[i]? = some (.persisted sequence)) :
      SystemStep pg cfg s (.notify i)
        { s with outbox := { s.outbox with process := notifyPersisted sequence s.outbox.process }
                 tasks := s.tasks.eraseIdx i }
  | fail {s : System} {i : Nat} {task : Task} (h : s.tasks[i]? = some task)
      (htask : (∃ row, task = .insert row) ∨ task = .prune) :
      SystemStep pg cfg s (.fail i) { s with tasks := s.tasks.eraseIdx i }
  | complete {s : System} (receipt : Receipt) (event : Event) : SystemStep pg cfg s (.complete receipt event)
        { s with outbox := Events.complete pg receipt event s.outbox
                 tasks := s.tasks ++ afterComplete pg receipt event s.outbox.tables }
  | resetSequence {s : System} : SystemStep pg cfg s .resetSequence
        { s with outbox := { s.outbox with process := Events.resetSequence s.outbox.process } }
  | pruneBefore {s : System} (beforeSeq : Int) :
      SystemStep pg cfg s (.pruneBefore beforeSeq) (s.prune (pruneEventsBefore beforeSeq s.outbox.tables.events))
  | pruneToMaxRows {s : System} (maxRows : Int) : SystemStep pg cfg s (.pruneToMaxRows maxRows)
        (s.prune (pruneEventsToMaxRows maxRows s.outbox.tables.events))
  /-- A new process: its calls and connections are gone. -/
  | restart {s : System} : SystemStep pg cfg s .restart
        ⟨{ s.outbox with process := Module.new }, [], s.streams.map (·.close)⟩
  | connect {s : System} {since : Int} (hsince : 0 ≤ since)
      (hok : cursorExpired since s.outbox.tables.events = false) :
      SystemStep pg cfg s (.connect since) { s with streams := s.streams ++ [Stream.connect since] }
  /-- The client is told `cursor_reset` and the stream ends. -/
  | cursorReset {s : System} {since : Int} (hsince : 0 ≤ since)
      (hexpired : cursorExpired since s.outbox.tables.events = true) : SystemStep pg cfg s (.connect since) s
  | stream {s : System} {i : Nat} {h h' : Stream} {ev : HandlerEv} (hi : s.streams[i]? = some h)
      (hconn : h.connected = true) (hstep : HandlerStep s.outbox h ev h') :
      SystemStep pg cfg s (.stream i ev) { s with streams := s.streams.set i h' }

/-! ## What a step does to a stream -/

def Stream.batch (h : Stream) : List Event := h.phase.batch

inductive HandlerEffect (o : Outbox) (h : Stream) : HandlerEv → Stream → Prop where
  | listed {h' : Stream} (hempty : h.batch = [])
      (hbatch : h'.batch = listEvents h.cursor productEventBatchLimit o.tables.events)
      (hcursor : h'.cursor = h.cursor) (hwritten : h'.written = h.written) : HandlerEffect o h .list h'
  | wrote {h' : Stream} {e : Event} (hbatch : h.batch = e :: h'.batch) (hcursor : h'.cursor = e.seq)
      (hwritten : h'.written = h.written ++ [e]) : HandlerEffect o h .write h'
  | idle {ev : HandlerEv} {h' : Stream} (hev : ev ≠ .list ∧ ev ≠ .write) (hbatch : h'.batch = h.batch)
      (hcursor : h'.cursor = h.cursor) (hwritten : h'.written = h.written) : HandlerEffect o h ev h'

theorem HandlerStep.effect (hs : HandlerStep o h ev h') :
    h'.since = h.since ∧ h'.lost = h.lost ∧ HandlerEffect o h ev h' := by
  cases hs with
  | listed hp hl | listedNone hp hl => exact ⟨rfl, rfl, .listed (by rw [Stream.batch, hp]; rfl) hl.symm rfl rfl⟩
  | write hp | writeLast hp => exact ⟨rfl, rfl, .wrote (by rw [Stream.batch, hp]; rfl) rfl rfl⟩
  | waiter hp | heartbeat hp | woken hp =>
    exact ⟨rfl, rfl, .idle (by decide) (by rw [Stream.batch, Stream.batch, hp]; rfl) rfl rfl⟩
  | disconnect => exact ⟨rfl, rfl, .idle (by decide) rfl rfl rfl⟩

/-! ## What a step does to the rows and the streams -/

inductive Change (s : System) (ev : Ev) (s' : System) : Prop where
  | quiet (hev : ∀ i, ev.lists i = false) (hrows : s'.rows = s.rows) (hstored : s'.outbox.stored = s.outbox.stored)
      (hstreams : s'.streams = s.streams)
  | stored {row : Event} (hev : ∀ i, ev.lists i = false) (hfree : s.outbox.tables.events.Free row)
      (htable : s'.outbox.tables.events = s.outbox.tables.events.insert row hfree)
      (hstored : s'.outbox.stored = s.outbox.stored ++ [row]) (hstreams : s'.streams = s.streams)
  | pruned (hev : ∀ i, ev.lists i = false) (hrows : s'.rows.Sublist s.rows) (hstored : s'.outbox.stored = s.outbox.stored)
      (hstreams : s'.streams = s.streams.map (·.lose (s.rows.filter (· ∉ s'.rows))))
  | dropped (hev : ∀ i, ev.lists i = false) (hrows : s'.rows = s.rows) (hstored : s'.outbox.stored = s.outbox.stored)
      (hstreams : s'.streams = s.streams.map (·.close))
  | connected {since : Int} (hev : ev = .connect since) (hrows : s'.rows = s.rows)
      (hstored : s'.outbox.stored = s.outbox.stored) (hstreams : s'.streams = s.streams ++ [Stream.connect since])
  | stream {i : Nat} {h h' : Stream} {hev : HandlerEv} (hev' : ev = .stream i hev) (hi : s.streams[i]? = some h)
      (hconn : h.connected = true) (hstep : HandlerStep s.outbox h hev h') (hrows : s'.rows = s.rows)
      (hstored : s'.outbox.stored = s.outbox.stored) (hstreams : s'.streams = s.streams.set i h')

variable {pg : Platform} {cfg : Config} {s s' : System} {ev : Ev}

theorem SystemStep.change (h : SystemStep pg cfg s ev s') : Change s ev s' := by
  cases h with
  | @insert i row hi =>
    rcases insertRow_cases s.outbox row with ⟨hf, heq⟩ | ⟨_, heq⟩ <;> rw [heq]
    · exact .stored (fun _ => rfl) hf rfl rfl rfl
    · exact .quiet (fun _ => rfl) rfl rfl rfl
  | complete receipt event =>
    rcases complete_cases pg receipt event s.outbox with heq | ⟨seq, tables, hrec, heq⟩ <;> rw [heq]
    · exact .quiet (fun _ => rfl) rfl rfl rfl
    · obtain ⟨_, hf, htable⟩ := record_inserts hrec
      exact .stored (fun _ => rfl) hf htable rfl rfl
  | pruneBefore beforeSeq => exact .pruned (fun _ => rfl) (prune_before_sublist ..) rfl rfl
  | prune | pruneToMaxRows => exact .pruned (fun _ => rfl) (prune_rows_sublist ..) rfl rfl
  | restart => exact .dropped (fun _ => rfl) rfl rfl rfl
  | connect hsince hok => exact .connected rfl rfl rfl rfl
  | stream hi hconn hstep => exact .stream rfl hi hconn hstep rfl rfl rfl
  | _ => exact .quiet (fun _ => rfl) rfl rfl rfl

theorem Change.stored_mono (h : Change s ev s') (hr : r ∈ s.outbox.stored) : r ∈ s'.outbox.stored := by
  cases h with
  | stored _ _ _ hstored => simp [hstored, hr]
  | quiet _ _ hstored => rwa [hstored]
  | pruned _ _ hstored => rwa [hstored]
  | dropped _ _ hstored => rwa [hstored]
  | connected _ _ hstored => rwa [hstored]
  | stream _ _ _ _ _ hstored => rwa [hstored]

/-! ## Numbers are positive -/

/-- The counter is not negative, so that all rows get positive numbers; the rows of the table have been
stored. -/
structure System.Positive (s : System) : Prop where
  counter : 0 ≤ s.outbox.process.nextSeq
  allocated : ∀ row, Task.insert row ∈ s.tasks → 0 < row.seq
  stored : ∀ r ∈ s.outbox.stored, 0 < r.seq
  logged : s.outbox.Logged

theorem allocate_positive (pg : Platform) (now : Int) (event : Event) (h : 0 ≤ m.nextSeq) :
    0 < (allocate pg now event m).1.seq ∧ 0 ≤ (allocate pg now event m).2.nextSeq := by
  simp only [allocate]
  split
  · split <;> omega
  · omega

theorem bounds_nonneg (h : ∀ r ∈ t.rows, 0 < r.seq) : 0 ≤ (eventBounds t).maxSeq := by
  rcases hlast : t.rows.getLast? with _ | r
  · simp [eventBounds, hlast]
  · simpa [eventBounds, hlast] using (h r (mem_of_getLast? hlast)).le

namespace System.Positive

theorem empty : System.empty.Positive :=
  ⟨Int.le_refl _, by simp [System.empty], by simp [System.empty, Outbox.empty], .empty⟩

/-- A task that goes on leaves no insert behind. -/
theorem allocated_erase (h : s.Positive) (i : Nat) (next : List Task) (hnext : ∀ row, Task.insert row ∉ next) :
    ∀ row, Task.insert row ∈ s.tasks.eraseIdx i ++ next → 0 < row.seq := by
  intro row hrow
  obtain hold | hnew := mem_append.mp hrow
  · exact h.allocated row (mem_of_mem_eraseIdx hold)
  · exact absurd hnew (hnext row)

theorem insert (h : s.Positive) (hi : s.tasks[i]? = some (.insert row)) :
    System.Positive { s with outbox := (s.outbox.insertRow row).2
                             tasks := s.tasks.eraseIdx i ++ afterInsert cfg (s.outbox.insertRow row).1 } := by
  have hrow := h.allocated row (mem_of_getElem? hi)
  have htasks := h.allocated_erase i (afterInsert cfg (s.outbox.insertRow row).1) (by
    intro row'
    unfold afterInsert
    split
    · split <;> simp
    · simp)
  have hlogged := h.logged.insertRow row
  obtain ⟨hf, heq⟩ | ⟨_, heq⟩ := insertRow_cases s.outbox row
  · rw [heq] at htasks hlogged ⊢
    refine ⟨h.counter, htasks, fun r hr => ?_, hlogged⟩
    obtain hold | hnew := mem_append.mp hr
    · exact h.stored r hold
    · rw [mem_singleton.mp hnew]
      exact hrow
  · rw [heq] at htasks hlogged ⊢
    exact ⟨h.counter, htasks, h.stored, hlogged⟩

theorem complete (h : s.Positive) (receipt : Receipt) (event : Event) :
    System.Positive { s with outbox := Events.complete pg receipt event s.outbox
                             tasks := s.tasks ++ afterComplete pg receipt event s.outbox.tables } := by
  have htasks : ∀ row, .insert row ∈ s.tasks ++ afterComplete pg receipt event s.outbox.tables → 0 < row.seq := by
    intro row hrow
    obtain hold | hnew := mem_append.mp hrow
    · exact h.allocated row hold
    · unfold afterComplete at hnew
      split at hnew <;> simp at hnew
  have hlogged := h.logged.complete pg receipt event
  obtain heq | ⟨seq, tables, hrec, heq⟩ := complete_cases pg receipt event s.outbox
  · rw [heq] at hlogged ⊢
    exact ⟨h.counter, htasks, h.stored, hlogged⟩
  · rw [heq] at hlogged ⊢
    refine ⟨h.counter, htasks, fun r hr => ?_, hlogged⟩
    obtain hold | hnew := mem_append.mp hr
    · exact h.stored r hold
    · have hmax := bounds_nonneg fun r hr => h.stored r (h.logged r hr)
      rw [mem_singleton.mp hnew]
      change 0 < seq
      rw [(record_inserts hrec).1]
      omega

theorem step (h : s.Positive) (hs : SystemStep pg cfg s ev s') : s'.Positive := by
  cases hs with
  | allocate now event =>
    have hnum := allocate_positive pg now event h.counter
    refine ⟨hnum.2, fun row hrow => ?_, h.stored, h.logged⟩
    obtain hold | hnew := mem_append.mp hrow
    · exact h.allocated row hold
    · cases mem_singleton.mp hnew
      exact hnum.1
  | insert hi => exact h.insert hi
  | prune hi =>
    exact ⟨h.counter, h.allocated_erase _ _ (by simp), h.stored, h.logged.prune (prune_rows_sublist ..)⟩
  | persisted hi =>
    refine ⟨?_, by simpa using h.allocated_erase _ [] (by simp), h.stored, h.logged⟩
    have hcounter := h.counter
    simp only [notifyPersisted]
    split
    · exact hcounter
    · dsimp only
      split <;> omega
  | notify hi | fail hi => exact ⟨h.counter, by simpa using h.allocated_erase _ [] (by simp), h.stored, h.logged⟩
  | complete receipt event => exact h.complete receipt event
  | resetSequence => exact ⟨Int.le_refl _, h.allocated, h.stored, h.logged⟩
  | pruneBefore beforeSeq => exact ⟨h.counter, h.allocated, h.stored, h.logged.prune (prune_before_sublist ..)⟩
  | pruneToMaxRows maxRows => exact ⟨h.counter, h.allocated, h.stored, h.logged.prune (prune_rows_sublist ..)⟩
  | restart => exact ⟨Int.le_refl _, by simp, h.stored, h.logged⟩
  | cursorReset hsince hexpired => exact h
  | connect | stream => exact { h with }

end System.Positive

end Dirextalk.Events

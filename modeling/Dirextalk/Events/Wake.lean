/-
  Dirextalk.Events.Wake — the waiter channel of the event stream: check, then wait.

  A handler that finds nothing to list asks `Waiter` for the channel that the next
  notification closes, and blocks on it. A notification between the two steps closes the
  channel before, which nobody holds, and the handler blocks on its successor with the
  event already stored.

  `Watched` puts beside the system what no code reads: the row each task is about, the rows
  whose notification has run, and for each stream those that had run when it asked for
  its channel.
-/
import Mathlib.Data.List.Forall2
import Dirextalk.Events.Stream

namespace Dirextalk.Events

open Lib List

/-! ## The rows behind the tasks -/

structure Watched where
  system : System
  /-- For each task, the row it inserts or has inserted. -/
  rows : List Event
  /-- The rows whose notification has run, oldest first. -/
  notified : List Event
  /-- For each stream, the rows notified when it last asked for its channel. -/
  before : List (List Event)

def Watched.empty : Watched := ⟨System.empty, [], [], []⟩

def completedRow (pg : Platform) (receipt : Receipt) (event : Event) (d : Tables) : List Event :=
  match recordAgentExecutionCompletion pg receipt event d with
  | .ok ((true, seq), _) => [{ event with seq := seq }]
  | _ => []

def Watched.nextRows (pg : Platform) (g : Watched) : Ev → List Event
  | .allocate now event => g.rows ++ [(Events.allocate pg now event g.system.outbox.process).1]
  | .insert i => g.rows.eraseIdx i ++ g.rows[i]?.toList.filter fun row => (g.system.outbox.insertRow row).1
  | .prune i => g.rows.eraseIdx i ++ g.rows[i]?.toList
  | .notify i | .fail i => g.rows.eraseIdx i
  | .complete receipt event => g.rows ++ completedRow pg receipt event g.system.outbox.tables
  | .restart => []
  | _ => g.rows

def Watched.nextNotified (g : Watched) : Ev → List Event
  | .notify i => g.notified ++ g.rows[i]?.toList
  | _ => g.notified

def Watched.nextBefore (g : Watched) (s' : System) : Ev → List (List Event)
  | .stream i .waiter => g.before.set i g.notified
  -- a stream that has just connected has not asked yet
  | .connect _ => if g.system.streams.length < s'.streams.length then g.before ++ [[]] else g.before
  | _ => g.before

/-- A step of the system, with the rows it is about. -/
inductive WatchStep (pg : Platform) (cfg : Config) : Watched → Ev → Watched → Prop where
  | step {g : Watched} {ev : Ev} {s' : System} (h : SystemStep pg cfg g.system ev s') :
      WatchStep pg cfg g ev ⟨s', g.nextRows pg ev, g.nextNotified ev, g.nextBefore s' ev⟩

/-- No handler that is blocked on an open channel has missed an event: what was notified before it
asked for the channel is behind its cursor. -/
def NoLostWakeup (g : Watched) : Prop :=
  ∀ (i : Nat) (h : Stream) (channel : Nat) (before : List Event), g.system.streams[i]? = some h →
    h.connected = true → h.phase = .waiting channel → ¬ channel < g.system.outbox.process.wake →
    g.before[i]? = some before → ∀ r ∈ before, r.seq ≤ h.cursor

/-- A notification runs for no row ahead of a handler that is between its empty list and its channel.
`PruneEventsBefore` leaves the newest row. -/
def Timely (g : Watched) : Ev → Prop
  | .notify i => ∀ row ∈ g.rows[i]?, ∀ h ∈ g.system.streams, h.connected = true → h.phase = .idle → row.seq ≤ h.cursor
  | .pruneBefore beforeSeq => beforeSeq ≤ (eventBounds g.system.outbox.tables.events).maxSeq
  | _ => True

/-- The handler lists nothing, row 1 is stored and notified, and only then it asks for its channel: it blocks on an
open channel behind row 1. -/
theorem wakeup_lost : ∃ g h, Run (WatchStep samplePlatform ⟨0, false⟩) Watched.empty
        [.connect 0, .stream 0 .list, .allocate 1 (sampleEvent 0), .insert 0, .notify 0, .stream 0 .waiter] g ∧
      g.system.streams[0]? = some h ∧ h.phase = .waiting 1 ∧ g.system.outbox.process.wake = 1 ∧
      h.cursor = 0 ∧ g.system.rows = [sampleEvent 1] ∧ g.before[0]? = some [sampleEvent 1] ∧ ¬ NoLostWakeup g := by
  refine ⟨_, _, .cons (.step (.connect (by decide) rfl)) (.cons (.step (.stream rfl rfl (.listedNone rfl rfl)))
    (.cons (.step (.allocate 1 _)) (.cons (.step (.insert rfl)) (.cons (.step (.notify rfl))
    (.single (.step (.stream rfl rfl (.waiter rfl)))))))), rfl, rfl, rfl, rfl, rfl, rfl, ?_⟩
  intro hno
  have hle := hno 0 _ 1 [sampleEvent 1] rfl rfl rfl (by decide) rfl (sampleEvent 1) (by simp)
  exact absurd hle (by decide)

/-! ## The newest row stays -/

variable {pg : Platform} {cfg : Config} {o : Outbox} {g g' : Watched} {s s' : System} {ev : Ev}

/-- Whatever was stored, a row at least as new is in the table. -/
def Outbox.Newest (o : Outbox) : Prop := ∀ r ∈ o.stored, ∃ r' ∈ o.tables.events.rows, r.seq ≤ r'.seq

theorem prune_rows_keeps_last (maxRows : Int) (h : t.rows.getLast? = some l) :
    l ∈ (pruneEventsToMaxRows maxRows t).rows := by
  unfold pruneEventsToMaxRows
  split
  · exact mem_of_getLast? h
  · rename_i hpos
    refine mem_filter.mpr ⟨mem_of_getLast? h, ?_⟩
    obtain ⟨init, hinit⟩ := getLast?_eq_some_iff.mp h
    obtain ⟨n, hn⟩ : ∃ n, maxRows.toNat = n + 1 := ⟨maxRows.toNat - 1, by omega⟩
    simp [hinit, hn]

theorem prune_before_keeps_last (hb : beforeSeq ≤ (eventBounds t).maxSeq)
    (h : t.rows.getLast? = some l) : l ∈ (pruneEventsBefore beforeSeq t).rows := by
  unfold pruneEventsBefore
  split
  · exact mem_of_getLast? h
  · have hmax : (eventBounds t).maxSeq = l.seq := by simp [eventBounds, h]
    refine mem_filter.mpr ⟨mem_of_getLast? h, ?_⟩
    simp only [Bool.not_eq_true', decide_eq_false_iff_not]
    omega

namespace Outbox.Newest

theorem store (h : o.Newest) {tables : Tables} {row : Event} (hf : o.tables.events.Free row)
    (htable : tables.events = o.tables.events.insert row hf) : (o.store tables row).Newest := by
  intro r hr
  simp only [Outbox.store] at hr ⊢
  rw [htable]
  obtain hold | hnew := mem_append.mp hr
  · obtain ⟨r', hr', hle⟩ := h r hold
    exact ⟨r', (EventTable.mem_insert hf).mpr (.inr hr'), hle⟩
  · rw [mem_singleton.mp hnew]
    exact ⟨row, (EventTable.mem_insert hf).mpr (.inl rfl), Int.le_refl _⟩

theorem prune (h : o.Newest) (hlast : ∀ l, o.tables.events.rows.getLast? = some l → l ∈ t.rows) :
    (o.prune t).Newest := by
  intro r hr
  obtain ⟨r', hr', hle⟩ := h r hr
  obtain ⟨l, hl⟩ := Option.isSome_iff_exists.mp (getLast?_isSome.mpr (ne_nil_of_mem hr'))
  have hmax := o.tables.events.sorted.le_getLast hl hr'
  exact ⟨l, hlast l hl, by omega⟩

theorem insertRow (h : o.Newest) (row : Event) : (o.insertRow row).2.Newest := by
  rcases insertRow_cases o row with ⟨hf, heq⟩ | ⟨_, heq⟩ <;> rw [heq]
  · exact h.store hf rfl
  · exact h

theorem complete (h : o.Newest) (pg : Platform) (receipt : Receipt) (event : Event) :
    (complete pg receipt event o).Newest := by
  rcases complete_cases pg receipt event o with heq | ⟨seq, tables, hrec, heq⟩ <;> rw [heq]
  · exact h
  · obtain ⟨_, hf, htable⟩ := record_inserts hrec
    exact h.store hf htable

end Outbox.Newest

theorem SystemStep.newest (h : SystemStep pg cfg g.system ev s') (hi : g.system.outbox.Newest)
    (hok : Timely g ev) : s'.outbox.Newest := by
  cases h with
  | insert _ => exact hi.insertRow _
  | complete receipt event => exact hi.complete pg receipt event
  | pruneBefore beforeSeq => exact hi.prune fun l hl => prune_before_keeps_last hok hl
  | prune | pruneToMaxRows => exact hi.prune fun l hl => prune_rows_keeps_last _ hl
  | _ => exact hi

/-! ## The row of a task -/

/-- The row a task has still to insert, or one that is stored. -/
def About (stored : List Event) : Task → Event → Prop
  | .insert row, r => r = row
  | _, r => r ∈ stored

theorem About.mono (hsub : ∀ r ∈ stored, r ∈ stored') (task : Task) (r : Event)
    (h : About stored task r) : About stored' task r := by
  cases task with
  | insert row => exact h
  | _ => exact hsub r h

theorem forall₂_eraseIdx
    (h : Forall₂ R tasks rows) (i : Nat) : Forall₂ R (tasks.eraseIdx i) (rows.eraseIdx i) := by
  rw [eraseIdx_eq_take_drop_succ, eraseIdx_eq_take_drop_succ]
  exact rel_append (forall₂_take i h) (forall₂_drop (i + 1) h)

theorem forall₂_getElem? {R : Task → Event → Prop} {tasks : List Task} {rows : List Event}
    (h : Forall₂ R tasks rows) {i : Nat} {task : Task} (hi : tasks[i]? = some task) :
    ∃ row, rows[i]? = some row ∧ R task row := by
  obtain ⟨hlt, rfl⟩ := List.getElem?_eq_some_iff.mp hi
  have hlt' := h.length_eq ▸ hlt
  exact ⟨rows[i], getElem?_eq_getElem hlt', h.get hlt hlt'⟩

def Watched.Aligned (g : Watched) : Prop := Forall₂ (About g.system.outbox.stored) g.system.tasks g.rows

namespace Watched.Aligned

theorem insert (h : g.Aligned) {i : Nat} {row : Event} (hi : g.system.tasks[i]? = some (.insert row)) :
    Forall₂ (About (g.system.outbox.insertRow row).2.stored)
      (g.system.tasks.eraseIdx i ++ afterInsert cfg (g.system.outbox.insertRow row).1)
      (g.nextRows pg (.insert i)) := by
  obtain ⟨r, hr, rfl⟩ := forall₂_getElem? h hi
  simp only [nextRows, hr, Option.toList_some]
  obtain ⟨hf, heq⟩ | ⟨_, heq⟩ := insertRow_cases g.system.outbox r
  · refine rel_append ((forall₂_eraseIdx h i).imp (About.mono fun x hx => ?_)) ?_
    · rw [heq]
      exact mem_append_left _ hx
    · have hstored : r ∈ (g.system.outbox.insertRow r).2.stored := by rw [heq]; simp [Outbox.store]
      simp only [afterInsert, heq, if_true, filter_cons, filter_nil]
      rw [heq] at hstored
      split <;> exact .cons hstored .nil
  · have hnone : Forall₂ (About g.system.outbox.stored) (afterInsert cfg false)
        ([r].filter fun row => (g.system.outbox.insertRow row).1) := by
      simp [afterInsert, heq]
    rw [heq]
    exact rel_append (forall₂_eraseIdx h i) hnone

theorem complete (h : g.Aligned) (receipt : Receipt) (event : Event) :
    Forall₂ (About (Events.complete pg receipt event g.system.outbox).stored)
      (g.system.tasks ++ afterComplete pg receipt event g.system.outbox.tables)
      (g.nextRows pg (.complete receipt event)) := by
  simp only [nextRows]
  cases hrec : recordAgentExecutionCompletion pg receipt event g.system.outbox.tables with
  | error e => simpa [Events.complete, afterComplete, completedRow, hrec, Aligned] using h
  | ok answer =>
    obtain ⟨⟨inserted, seq⟩, tables⟩ := answer
    cases inserted with
    | false => simpa [Events.complete, afterComplete, completedRow, hrec, Aligned] using h
    | true =>
      simp only [Events.complete, afterComplete, completedRow, hrec, Outbox.store]
      refine rel_append (h.imp (.mono fun x hx => mem_append_left _ hx)) (.cons ?_ .nil)
      exact mem_append_right _ (mem_singleton_self _)

theorem step (h : g.Aligned) (hs : SystemStep pg cfg g.system ev s') :
    Forall₂ (About s'.outbox.stored) s'.tasks (g.nextRows pg ev) := by
  cases hs with
  | allocate now event => exact rel_append h (.cons rfl .nil)
  | insert hi => exact h.insert hi
  | @prune i hi =>
    obtain ⟨r, hr, hstored⟩ := forall₂_getElem? h hi
    simp only [nextRows, hr, Option.toList_some]
    exact rel_append (forall₂_eraseIdx h i) (.cons hstored .nil)
  | notify | persisted | fail => exact forall₂_eraseIdx h _
  | complete receipt event => exact h.complete receipt event
  | restart => exact .nil
  | _ => exact h

end Watched.Aligned

/-! ## Behind the cursor -/

/-- What has been notified is behind every handler that is about to ask for its channel, and was behind
it when it asked. -/
structure Watched.Awake (g : Watched) : Prop where
  aligned : g.Aligned
  newest : g.system.outbox.Newest
  notified : ∀ r ∈ g.notified, r ∈ g.system.outbox.stored
  idle : ∀ h ∈ g.system.streams, h.connected = true → h.phase = .idle → ∀ r ∈ g.notified, r.seq ≤ h.cursor
  waiting : ∀ (i : Nat) (h : Stream) (channel : Nat) (before : List Event), g.system.streams[i]? = some h →
    h.connected = true → h.phase = .waiting channel → g.before[i]? = some before → ∀ r ∈ before, r.seq ≤ h.cursor

/-- A handler that lists nothing is past everything that was ever stored. -/
theorem Outbox.Newest.of_empty (h : o.Newest) (hl : listEvents c productEventBatchLimit o.tables.events = []) :
    ∀ r ∈ o.stored, r.seq ≤ c := by
  intro r hr
  obtain ⟨r', hr', hle⟩ := h r hr
  by_contra hgt
  have hout : r' ∉ listEvents c productEventBatchLimit o.tables.events := by simp [hl]
  have hfull := (not_mem_page o.tables.events.sorted hr' (by omega) hout).2
  rw [listEvents] at hl
  rw [hl] at hfull
  exact absurd hfull (by decide)

namespace Watched.Awake

theorem empty : Watched.empty.Awake where
  aligned := .nil
  newest := by simp [Outbox.Newest, Watched.empty, System.empty, Outbox.empty]
  notified := by simp [Watched.empty]
  idle := by simp [Watched.empty]
  waiting := by simp [Watched.empty, System.empty]

/-- A notification adds the row of its task. -/
theorem notified_step (h : g.Awake) (hs : SystemStep pg cfg g.system ev s') :
    ∀ r ∈ g.nextNotified ev, r ∈ s'.outbox.stored := by
  intro r hr
  have hmono := fun hold : r ∈ g.notified => hs.change.stored_mono (h.notified r hold)
  have hnew : ∀ {i : Nat} {task : Task}, g.system.tasks[i]? = some task → (∀ row, task ≠ .insert row) → r ∈ g.rows[i]? →
      r ∈ g.system.outbox.stored := by
    intro i task hi hne hmem
    obtain ⟨row, hrow, habout⟩ := forall₂_getElem? h.aligned hi
    obtain rfl : row = r := Option.some.inj (hrow.symm.trans hmem)
    cases task with
    | insert row => exact absurd rfl (hne row)
    | _ => exact habout
  cases hs with
  | notify hi | persisted hi =>
    obtain hold | hmem := mem_append.mp hr
    · exact hmono hold
    · exact hnew hi (by simp) (by simpa using hmem)
  | _ => exact hmono hr

theorem handle (ha : g.Awake) (s' : System) (hi : g.system.streams[i]? = some h)
    (hconn : h.connected = true) (hs : HandlerStep g.system.outbox h hev h') (hconn' : h'.connected = true) :
    (h'.phase = .idle → ∀ r ∈ g.notified, r.seq ≤ h'.cursor) ∧
      ∀ channel, h'.phase = .waiting channel → ∀ before, (g.nextBefore s' (.stream i hev))[i]? = some before →
        ∀ r ∈ before, r.seq ≤ h'.cursor := by
  cases hs with
  | listedNone hp hl =>
    refine ⟨fun _ r hr => ha.newest.of_empty hl r (ha.notified r hr), ?_⟩
    intro channel hphase
    cases hphase
  | waiter hp =>
    refine ⟨fun hphase => (by cases hphase), ?_⟩
    intro channel _ before hbefore r hr
    have hidle := ha.idle h (mem_of_getElem? hi) hconn hp
    simp only [nextBefore] at hbefore
    by_cases hlt : i < g.before.length
    · rw [getElem?_set_self hlt] at hbefore
      cases hbefore
      exact hidle r hr
    · rw [getElem?_eq_none (by simpa using hlt)] at hbefore
      cases hbefore
  | disconnect => cases hconn'
  | _ => exact ⟨fun hphase => (by cases hphase), fun channel hphase => (by cases hphase)⟩

end Watched.Awake

/-! ## Over a run -/

inductive Came (s : System) (ev : Ev) (j : Nat) (h' : Stream) : Prop where
  | stayed {h : Stream} (hj : s.streams[j]? = some h) (hconn : h.connected = true) (hphase : h.phase = h'.phase)
      (hcursor : h.cursor = h'.cursor) (hev : ∀ hev, ev ≠ .stream j hev)
  | connected (hphase : h'.phase = .list)
  | handled {h : Stream} {hev : HandlerEv} (hj : s.streams[j]? = some h) (hconn : h.connected = true)
      (hev' : ev = .stream j hev) (hstep : HandlerStep s.outbox h hev h')

theorem SystemStep.came (hs : SystemStep pg cfg s ev s') (hj : s'.streams[j]? = some h')
    (hconn : h'.connected = true) : Came s ev j h' := by
  have hstay : s'.streams = s.streams → (∀ hev, ev ≠ .stream j hev) → Came s ev j h' := fun heq hne =>
    .stayed (heq ▸ hj) hconn rfl rfl hne
  -- pruning leaves phase and cursor of every stream
  have hprune : ∀ gone, s'.streams = s.streams.map (·.lose gone) → (∀ hev, ev ≠ .stream j hev) → Came s ev j h' := by
    intro gone heq hne
    rw [heq, getElem?_map] at hj
    obtain ⟨h, hh, rfl⟩ := Option.map_eq_some_iff.mp hj
    exact .stayed hh hconn rfl rfl hne
  cases hs with
  | prune | pruneBefore | pruneToMaxRows => exact hprune _ rfl (by simp)
  | restart =>
    rw [getElem?_map] at hj
    obtain ⟨h, hh, rfl⟩ := Option.map_eq_some_iff.mp hj
    cases hconn
  | connect hsince hok =>
    by_cases hlt : j < s.streams.length
    · rw [getElem?_append_left hlt] at hj
      exact .stayed hj hconn rfl rfl (by simp)
    · rw [getElem?_append_right (by omega)] at hj
      have hnew := mem_of_getElem? hj
      rw [mem_singleton.mp hnew]
      exact .connected rfl
  | @stream i h h'' hev hi hconn' hstep =>
    by_cases hij : i = j
    · subst hij
      have hlt := (List.getElem?_eq_some_iff.mp hi).1
      rw [getElem?_set_self hlt] at hj
      cases hj
      exact .handled hi hconn' rfl hstep
    · rw [getElem?_set_ne hij] at hj
      refine .stayed hj hconn rfl rfl ?_
      intro hev' heq
      cases heq
      exact hij rfl
  | _ => exact hstay rfl (by simp)

namespace Watched.Awake

/-- A notification that comes in time is behind the handlers that are about to ask. -/
theorem idle_step (ha : g.Awake) (hok : Timely g ev) (hmem : h ∈ g.system.streams)
    (hconn : h.connected = true) (hphase : h.phase = .idle) : ∀ r ∈ g.nextNotified ev, r.seq ≤ h.cursor := by
  intro r hr
  cases ev with
  | notify i =>
    obtain hold | hnew := mem_append.mp hr
    · exact ha.idle h hmem hconn hphase r hold
    · exact hok r (by simpa using hnew) h hmem hconn hphase
  | _ => exact ha.idle h hmem hconn hphase r hr

/-- The rows notified before a handler asked are recorded by its own `Waiter` only. -/
theorem before_step {j : Nat} {before : List Event} (hne : ∀ hev, ev ≠ .stream j hev)
    (hb : (g.nextBefore s' ev)[j]? = some before) : g.before[j]? = some before ∨ before = [] := by
  unfold nextBefore at hb
  split at hb
  · rename_i i
    have hij : i ≠ j := fun heq => hne .waiter (by rw [heq])
    rw [getElem?_set_ne hij] at hb
    exact .inl hb
  · split at hb
    · by_cases hlt : j < g.before.length
      · rw [getElem?_append_left hlt] at hb
        exact .inl hb
      · rw [getElem?_append_right (by omega)] at hb
        exact .inr (mem_singleton.mp (mem_of_getElem? hb))
    · exact .inl hb
  · exact .inl hb

theorem step (ha : g.Awake) (hs : WatchStep pg cfg g ev g') (hok : Timely g ev) : g'.Awake := by
  obtain ⟨hs⟩ := hs
  refine ⟨ha.aligned.step hs, hs.newest ha.newest hok, ha.notified_step hs, ?_, ?_⟩
  · intro h' hmem hconn hphase
    obtain ⟨j, hj⟩ := mem_iff_getElem?.mp hmem
    cases hs.came hj hconn with
    | stayed hj' hconn' hphase' hcursor _ =>
      rw [← hcursor]
      exact ha.idle_step hok (mem_of_getElem? hj') hconn' (hphase'.trans hphase)
    | connected hnew => cases hphase.symm.trans hnew
    | handled hj' hconn' hev hstep =>
      subst hev
      exact (ha.handle g.system hj' hconn' hstep hconn).1 hphase
  · intro j h' channel before hj hconn hphase hbefore
    cases hs.came hj hconn with
    | stayed hj' hconn' hphase' hcursor hne =>
      rw [← hcursor]
      obtain hold | rfl := before_step hne hbefore
      · exact ha.waiting j _ channel before hj' hconn' (hphase'.trans hphase) hold
      · simp
    | connected hnew => cases hphase.symm.trans hnew
    | handled hj' hconn' hev hstep =>
      subst hev
      exact (ha.handle _ hj' hconn' hstep hconn).2 channel hphase before hbefore

end Watched.Awake

/-- In every run whose notifications come in time, no handler is blocked on an open channel behind an event notified
before it asked for the channel. -/
theorem no_lost_wakeup (pg : Platform) (cfg : Config) {evs : List Ev} {g : Watched}
    (hr : Run (Under (WatchStep pg cfg) fun g ev _ => Timely g ev) Watched.empty evs g) : NoLostWakeup g := by
  have hawake : g.Awake := hr.inv_under (I := Watched.Awake) (fun _ _ _ ha hs hok => ha.step hs hok) .empty
  intro i h channel before hi hconn hphase _ hbefore
  exact hawake.waiting i h channel before hi hconn hphase hbefore

/-- The row is notified before the handler lists, and the handler waits behind nothing. -/
theorem no_lost_wakeup_listed :
    ∃ g, Run (Under (WatchStep samplePlatform ⟨0, false⟩) fun g ev _ => Timely g ev) Watched.empty
        [.connect 0, .allocate 1 (sampleEvent 0), .insert 0, .notify 0, .stream 0 .list, .stream 0 .write,
          .stream 0 .list, .stream 0 .waiter] g ∧ g.before[0]? = some [sampleEvent 1] ∧ NoLostWakeup g := by
  refine' ⟨_, ?run, ?before, no_lost_wakeup samplePlatform ⟨0, false⟩ ?run⟩
  case run =>
    refine .cons ⟨.step (.connect (by decide) rfl), trivial⟩ (.cons ⟨.step (.allocate 1 _), trivial⟩
      (.cons ⟨.step (.insert rfl), trivial⟩ (.cons ⟨.step (.notify rfl), ?_⟩
      (.cons ⟨.step (.stream rfl rfl (.listed rfl rfl)), trivial⟩
      (.cons ⟨.step (.stream rfl rfl (.writeLast rfl)), trivial⟩
      (.cons ⟨.step (.stream rfl rfl (.listedNone rfl rfl)), trivial⟩
      (.single ⟨.step (.stream rfl rfl (.waiter rfl)), trivial⟩)))))))
    -- the only handler has not listed yet
    intro row _ h hmem _ hphase
    rw [mem_singleton.mp hmem] at hphase
    cases hphase
  case before => rfl

end Dirextalk.Events

/-
  Dirextalk.Events.Delivery — what a reader of the event stream gets.

  A reader lists the rows above the last number it received. It relies on rows becoming
  visible in the order of their numbers. `Append` does not see to that: it takes a number
  and inserts the row later, and another call can overtake it in between.
-/
import Dirextalk.Events.Stream

namespace Dirextalk.Events

open Lib List

def Stream.received (h : Stream) : List Event := h.written ++ h.batch

def Stream.frontier (h : Stream) : Int := (h.batch.getLast?.map (·.seq)).getD h.cursor

/-- An append inserts above all rows stored so far, a completion's allocator is ahead of them, and a reader starts
from 0 or from the number of a row it received earlier. -/
def InOrder (pg : Platform) (s : System) (ev : Ev) (_ : System) : Prop :=
  match ev with
  | .insert i => ∀ row, s.tasks[i]? = some (.insert row) → s.outbox.tables.events.Free row →
      ∀ r ∈ s.outbox.stored, r.seq < row.seq
  | .complete receipt event => Ahead pg s.outbox (.complete receipt event)
  | .connect since => since = 0 ∨ ∃ r ∈ s.outbox.stored, r.seq = since
  | _ => True

/-- Two appends take the numbers 10 and 11 and insert in the other order, with a reader in between. -/
theorem append_behind_cursor : ∃ s s' h, Run (SystemStep samplePlatform ⟨0, false⟩) System.empty
        [.allocate 10 (sampleEvent 0), .allocate 10 (sampleEvent 0), .insert 1, .connect 0,
          .stream 0 .list, .stream 0 .write] s ∧
      SystemStep samplePlatform ⟨0, false⟩ s (.insert 0) s' ∧
      s'.streams = [h] ∧ h.cursor = 11 ∧ (sampleEvent 10) ∈ s'.rows ∧ (sampleEvent 10) ∉ h.received ∧
      (sampleEvent 10) ∉ listEvents h.cursor productEventBatchLimit s'.outbox.tables.events :=
  ⟨_, _, _, .cons (.allocate 10 _) (.cons (.allocate 10 _) (.cons (.insert rfl) (.cons (.connect (by decide) rfl)
    (.cons (.stream rfl rfl (.listed rfl rfl)) (.single (.stream rfl rfl (.writeLast rfl))))))),
    .insert rfl, rfl, rfl, by decide, by decide, by decide⟩

/-! ## What a reader has been given -/

variable {pg : Platform} {cfg : Config} {s s' : System} {ev : Ev} {h h' : Stream} {e row : Event}
  {stored rows : List Event}

/-- The reader has received, once and in order, every row between its start and its frontier that the
table still holds; its frontier is no further than the rows stored. -/
structure Stream.Caught (stored rows : List Event) (h : Stream) : Prop where
  ascending : Ascending Event.seq h.received
  written_le : ∀ e ∈ h.written, e.seq ≤ h.cursor
  batch_above : ∀ e ∈ h.batch, h.cursor < e.seq
  reached : h.frontier ≤ 0 ∨ ∃ r ∈ stored, h.frontier ≤ r.seq
  none_skipped : ∀ e ∈ rows, h.since < e.seq → e ∈ h.received ∨ h.frontier < e.seq

theorem Stream.frontier_nil (hb : h.batch = []) : h.frontier = h.cursor := by
  simp [Stream.frontier, hb]

theorem Stream.Caught.le_frontier (hc : h.Caught stored rows) (he : e ∈ h.batch) : e.seq ≤ h.frontier := by
  obtain ⟨front, last, hb⟩ : ∃ front last, h.batch = front ++ [last] :=
    ⟨_, _, (dropLast_append_getLast (ne_nil_of_mem he)).symm⟩
  have hfrontier : h.frontier = last.seq := by simp [Stream.frontier, hb]
  have hasc := hc.ascending.sublist (sublist_append_right h.written h.batch)
  rw [hb] at hasc he
  rw [hfrontier]
  obtain hfront | hlast := mem_append.mp he
  · exact ((pairwise_append.mp hasc).2.2 e hfront last (mem_singleton_self _)).le
  · rw [mem_singleton.mp hlast]

theorem Stream.Caught.cursor_le (hc : h.Caught stored rows) : h.cursor ≤ h.frontier := by
  rcases hb : h.batch with _ | ⟨e, rest⟩
  · rw [Stream.frontier_nil hb]
  · have he : e ∈ h.batch := by simp [hb]
    exact (hc.batch_above e he).le.trans (hc.le_frontier he)

theorem Stream.Caught.start (hstart : h.cursor = h.since) (hwritten : h.written = []) (hbatch : h.batch = [])
    (hreached : h.since ≤ 0 ∨ ∃ r ∈ stored, h.since ≤ r.seq) : h.Caught stored rows := by
  have hfrontier : h.frontier = h.since := by rw [Stream.frontier_nil hbatch, hstart]
  refine ⟨?_, by simp [hwritten], by simp [hbatch], by rwa [hfrontier], fun e _ hlt => .inr (by rwa [hfrontier])⟩
  rw [Stream.received, hwritten, hbatch]
  exact .nil

theorem Stream.Caught.update (hc : h.Caught stored rows)
    (hstored : ∀ r ∈ stored, r ∈ stored') (hrows : ∀ r ∈ rows', r ∈ rows ∨ h.frontier < r.seq) :
    h.Caught stored' rows' := by
  refine ⟨hc.ascending, hc.written_le, hc.batch_above, ?_, fun e he hlt => ?_⟩
  · exact hc.reached.imp_right fun ⟨r, hr, hle⟩ => ⟨r, hstored r hr, hle⟩
  · obtain hold | hnew := hrows e he
    · exact hc.none_skipped e hold hlt
    · exact .inr hnew

/-- Only where the reader stands in its rows matters. -/
theorem Stream.Caught.congr (hc : h.Caught stored rows) (hsince : h'.since = h.since) (hcursor : h'.cursor = h.cursor)
    (hwritten : h'.written = h.written) (hbatch : h'.batch = h.batch) : h'.Caught stored rows := by
  have hreceived : h'.received = h.received := by rw [Stream.received, hwritten, hbatch, Stream.received]
  have hfrontier : h'.frontier = h.frontier := by rw [Stream.frontier, hbatch, hcursor, Stream.frontier]
  refine ⟨hreceived ▸ hc.ascending, ?_, ?_, hfrontier ▸ hc.reached, ?_⟩
  · rw [hwritten, hcursor]
    exact hc.written_le
  · rw [hbatch, hcursor]
    exact hc.batch_above
  · rw [hsince, hreceived, hfrontier]
    exact hc.none_skipped

/-- A write moves the first row of the batch to what is written. -/
theorem Stream.received_wrote (hbatch : h.batch = e :: h'.batch) (hcursor : h'.cursor = e.seq)
    (hwritten : h'.written = h.written ++ [e]) : h'.received = h.received ∧ h'.frontier = h.frontier := by
  constructor
  · rw [Stream.received, Stream.received, hwritten, hbatch, append_assoc, singleton_append]
  · rw [Stream.frontier, Stream.frontier, hbatch, hcursor]
    obtain hnil | ⟨front, last, hlast⟩ := h'.batch.eq_nil_or_concat
    · simp [hnil]
    · simp [hlast, getLast?_cons]

theorem Stream.Caught.wrote (hc : h.Caught stored rows) (hsince : h'.since = h.since) (hbatch : h.batch = e :: h'.batch)
    (hcursor : h'.cursor = e.seq) (hwritten : h'.written = h.written ++ [e]) : h'.Caught stored rows := by
  obtain ⟨hreceived, hfrontier⟩ := Stream.received_wrote hbatch hcursor hwritten
  have hasc := hc.ascending.sublist (sublist_append_right h.written h.batch)
  rw [hbatch] at hasc
  refine ⟨hreceived ▸ hc.ascending, ?_, ?_, hfrontier ▸ hc.reached, ?_⟩
  · rw [hwritten, hcursor]
    intro x hx
    obtain hold | hnew := mem_append.mp hx
    · exact (hc.written_le x hold).trans (hc.batch_above e (by simp [hbatch])).le
    · rw [mem_singleton.mp hnew]
  · rw [hcursor]
    exact (pairwise_cons.mp hasc).1
  · rw [hsince, hreceived, hfrontier]
    exact hc.none_skipped

/-- The last row of a page is above everything before it on the page, and a page of no rows leaves the
frontier at the cursor. -/
theorem Stream.frontier_cases (h : Stream) :
    (h.batch = [] ∧ h.frontier = h.cursor) ∨ ∃ last ∈ h.batch, h.frontier = last.seq := by
  rcases hb : h.batch.getLast? with _ | last
  · exact .inl ⟨getLast?_eq_none_iff.mp hb, by simp [Stream.frontier, hb]⟩
  · exact .inr ⟨last, mem_of_getLast? hb, by simp [Stream.frontier, hb]⟩

theorem Stream.Caught.listed {o : Outbox} (hc : h.Caught o.stored o.tables.events.rows) (hlog : o.Logged)
    (hsince : h'.since = h.since) (hempty : h.batch = [])
    (hbatch : h'.batch = listEvents h.cursor productEventBatchLimit o.tables.events)
    (hcursor : h'.cursor = h.cursor) (hwritten : h'.written = h.written) :
    h'.Caught o.stored o.tables.events.rows := by
  have hpage : ∀ e ∈ h'.batch, e ∈ o.tables.events.rows ∧ h.cursor < e.seq := by
    intro e he
    rw [hbatch] at he
    exact mem_page he
  have hold : h.received = h.written := by rw [Stream.received, hempty, append_nil]
  refine ⟨?_, ?_, ?_, ?_, ?_⟩
  · have hfirst := hc.ascending
    rw [hold] at hfirst
    rw [Stream.received, hwritten]
    refine pairwise_append.mpr ⟨hfirst, ?_, fun x hx y hy => ?_⟩
    · rw [hbatch]
      exact o.tables.events.sorted.page
    · exact (hc.written_le x hx).trans_lt (hpage y hy).2
  · rw [hwritten, hcursor]
    exact hc.written_le
  · rw [hcursor]
    exact fun e he => (hpage e he).2
  · rcases h'.frontier_cases with ⟨_, heq⟩ | ⟨last, hlast, heq⟩ <;> rw [heq]
    · rw [hcursor, ← Stream.frontier_nil hempty]
      exact hc.reached
    · exact .inr ⟨last, hlog last (hpage last hlast).1, Int.le_refl _⟩
  · intro e he hlt
    rw [hsince] at hlt
    obtain hrec | habove := hc.none_skipped e he hlt
    · rw [hold] at hrec
      exact .inl (mem_append_left _ (hwritten ▸ hrec))
    · rw [Stream.frontier_nil hempty] at habove
      by_cases hin : e ∈ h'.batch
      · exact .inl (mem_append_right _ hin)
      · rw [hbatch] at hin
        have hbelow := (not_mem_page o.tables.events.sorted he habove hin).1
        refine .inr ?_
        rcases h'.frontier_cases with ⟨_, heq⟩ | ⟨last, hlast, heq⟩ <;> rw [heq]
        · rwa [hcursor]
        · rw [hbatch] at hlast
          exact hbelow last hlast

theorem Stream.Caught.handle (hc : h.Caught o.stored o.tables.events.rows)
    (hlog : o.Logged) (hs : HandlerStep o h hev h') : h'.Caught o.stored o.tables.events.rows := by
  obtain ⟨hsince, _, heff⟩ := hs.effect
  cases heff with
  | listed hempty hbatch hcursor hwritten => exact hc.listed hlog hsince hempty hbatch hcursor hwritten
  | wrote hbatch hcursor hwritten => exact hc.wrote hsince hbatch hcursor hwritten
  | idle _ hbatch hcursor hwritten => exact hc.congr hsince hcursor hwritten hbatch

/-! ## Runs that store in order -/

structure System.Caught (s : System) : Prop where
  positive : s.Positive
  ascending : Ascending Event.seq s.outbox.stored
  streams : ∀ h ∈ s.streams, h.Caught s.outbox.stored s.rows

theorem Stream.Caught.frontier_lt (hc : h.Caught stored rows) (hpos : 0 < row.seq)
    (habove : ∀ r ∈ stored, r.seq < row.seq) : h.frontier < row.seq := by
  obtain hle | ⟨r, hr, hle⟩ := hc.reached
  · omega
  · exact hle.trans_lt (habove r hr)

theorem InOrder.above (hok : InOrder pg s ev s') (hs : SystemStep pg cfg s ev s')
    (hrow : s'.outbox.stored = s.outbox.stored ++ [row]) : ∀ r ∈ s.outbox.stored, r.seq < row.seq := by
  cases hs with
  | @insert i row' hi =>
    rcases insertRow_cases s.outbox row' with ⟨hf, heq⟩ | ⟨_, heq⟩ <;> rw [heq] at hrow
    · obtain rfl : row' = row := by simpa [Outbox.store] using hrow
      exact hok row' hi hf
    · simp at hrow
  | complete receipt event => exact (complete_stores_iff.mpr hok).above row hrow
  | _ => exact absurd hrow (by simp [System.prune, Outbox.prune])

theorem System.Caught.step (hc : s.Caught) (hs : SystemStep pg cfg s ev s') (hok : InOrder pg s ev s') : s'.Caught := by
  have hpos := hc.positive.step hs
  cases hs.change with
  | quiet _ hrows hstored hstreams =>
    refine ⟨hpos, hstored ▸ hc.ascending, ?_⟩
    rw [hstreams, hstored, hrows]
    exact hc.streams
  | @stored row _ hfree htable hstored hstreams =>
    have habove := hok.above hs hstored
    have hnum := hpos.stored row (by simp [hstored])
    refine ⟨hpos, hstored ▸ hc.ascending.snoc habove, fun h hh => ?_⟩
    rw [hstreams] at hh
    refine (hc.streams h hh).update (fun r hr => by simp [hstored, hr]) fun r hr => ?_
    rw [System.rows, htable] at hr
    obtain rfl | hold := (EventTable.mem_insert hfree).mp hr
    · exact .inr ((hc.streams h hh).frontier_lt hnum habove)
    · exact .inl hold
  | pruned _ hrows hstored hstreams =>
    refine ⟨hpos, hstored ▸ hc.ascending, fun h hh => ?_⟩
    rw [hstreams] at hh
    obtain ⟨h₀, hh₀, rfl⟩ := mem_map.mp hh
    refine .congr (h := h₀) ?_ rfl rfl rfl rfl
    exact (hc.streams h₀ hh₀).update (fun r hr => hstored ▸ hr) fun r hr => .inl (hrows.subset hr)
  | dropped _ hrows hstored hstreams =>
    refine ⟨hpos, hstored ▸ hc.ascending, fun h hh => ?_⟩
    rw [hstreams] at hh
    obtain ⟨h₀, hh₀, rfl⟩ := mem_map.mp hh
    rw [hstored, hrows]
    exact (hc.streams h₀ hh₀).congr rfl rfl rfl rfl
  | @connected since hev hrows hstored hstreams =>
    refine ⟨hpos, hstored ▸ hc.ascending, fun h hh => ?_⟩
    rw [hstreams] at hh
    rw [hstored, hrows]
    obtain hold | hnew := mem_append.mp hh
    · exact hc.streams h hold
    · obtain rfl := mem_singleton.mp hnew
      refine .start rfl rfl rfl ?_
      subst hev
      obtain rfl | ⟨r, hr, rfl⟩ := hok
      · exact .inl (Int.le_refl _)
      · exact .inr ⟨r, hr, Int.le_refl _⟩
  | @stream i h₀ h₁ hev _ hi _ hstep hrows hstored hstreams =>
    refine ⟨hpos, hstored ▸ hc.ascending, fun h hh => ?_⟩
    rw [hstreams] at hh
    rw [hstored, hrows]
    obtain hold | rfl := mem_or_eq_of_mem_set hh
    · exact hc.streams h hold
    · exact (hc.streams h₀ (mem_of_getElem? hi)).handle hc.positive.logged hstep

theorem System.Caught.of_run (hr : Run (Under (SystemStep pg cfg) (InOrder pg)) System.empty evs s) : s.Caught :=
  hr.inv_under (I := System.Caught) (fun _ _ _ hi hs hok => hi.step hs hok)
    ⟨.empty, .nil, by simp [System.empty]⟩

/-! ## A reader gets closer to a row -/

/-- What a step does for the reader `i` and the row `e`, if the table still holds it: the reader has it,
or is as far from it as before, and closer after a `List`. -/
def Progress (i : Nat) (e : Event) (s : System) (ev : Ev) (s' : System) (h h' : Stream) : Prop :=
  e ∈ s'.rows → e ∈ s.rows ∧ (e ∈ h'.received ∨ (e ∉ h.received ∧
    rank Event.seq h'.frontier e s'.rows + (if ev.lists i then 1 else 0) ≤ rank Event.seq h.frontier e s.rows))

variable {i : Nat}

section

variable (hev : ev.lists i = false) (hreceived : h'.received = h.received) (hfrontier : h'.frontier = h.frontier)
include hev hreceived hfrontier

theorem Progress.unmoved
    (hrows : e ∈ s'.rows → e ∈ s.rows ∧ rank Event.seq h.frontier e s'.rows ≤ rank Event.seq h.frontier e s.rows) :
    Progress i e s ev s' h h' := by
  intro he
  refine ⟨(hrows he).1, ?_⟩
  rw [hreceived, hfrontier, hev, if_neg (by decide)]
  by_cases hrec : e ∈ h.received
  · exact .inl hrec
  · exact .inr ⟨hrec, (hrows he).2⟩

theorem Progress.same_rows (hrows : s'.rows = s.rows) : Progress i e s ev s' h h' :=
  .unmoved hev hreceived hfrontier fun he => ⟨hrows ▸ he, by rw [hrows]⟩

end

theorem Stream.Caught.progress (hc : h.Caught s.outbox.stored s.rows)
    (hlog : s.outbox.Logged) (hstep : HandlerStep s.outbox h hev h') (hrows : s'.rows = s.rows) (hlt : h.since < e.seq) :
    Progress i e s (.stream i hev) s' h h' := by
  have hc' := hc.handle hlog hstep
  obtain ⟨_, _, heff⟩ := hstep.effect
  cases heff with
  | wrote hbatch hcursor hwritten =>
    obtain ⟨hreceived, hfrontier⟩ := Stream.received_wrote hbatch hcursor hwritten
    exact .same_rows rfl hreceived hfrontier hrows
  | idle hne hbatch hcursor hwritten =>
    refine .same_rows ?_ ?_ ?_ hrows
    · cases hev <;> simp_all [Ev.lists]
    · rw [Stream.received, hwritten, hbatch, Stream.received]
    · rw [Stream.frontier, hbatch, hcursor, Stream.frontier]
  | listed hempty hbatch hcursor hwritten =>
    intro he
    rw [hrows] at he ⊢
    refine ⟨he, ?_⟩
    by_cases hin : e ∈ h'.received
    · exact .inl hin
    · obtain ⟨hout, hpage⟩ : e ∉ h.written ∧ e ∉ h'.batch := by
        simpa [Stream.received, hwritten] using hin
      have hold : e ∉ h.received := by simpa [Stream.received, hempty] using hout
      have habove := (hc.none_skipped e he hlt).resolve_left hold
      rw [Stream.frontier_nil hempty] at habove ⊢
      have hcloser := rank_page_lt s.outbox.tables.events.sorted he habove (n := limitRows productEventBatchLimit) (by decide)
          (by rw [hbatch] at hpage; exact hpage) (hcursor ▸ hc'.cursor_le)
          (fun y hy => hc'.le_frontier (by rw [hbatch]; exact hy))
      refine .inr ⟨hold, ?_⟩
      rw [if_pos (by simp [Ev.lists])]
      exact hcloser

theorem System.Caught.progress (hc : s.Caught) (hs : SystemStep pg cfg s ev s') (hok : InOrder pg s ev s')
    (hi : s.streams[i]? = some h) (he : e ∈ s.outbox.stored) (hlt : h.since < e.seq) :
    ∃ h', s'.streams[i]? = some h' ∧ h'.since = h.since ∧ Progress i e s ev s' h h' := by
  cases hs.change with
  | quiet hev hrows _ hstreams => exact ⟨h, hstreams ▸ hi, rfl, .same_rows (hev i) rfl rfl hrows⟩
  | @stored row hev hfree htable hstored hstreams =>
    have habove := hok.above hs hstored
    have hrows : s'.rows = s.rows ++ [row] := by
      rw [System.rows, htable]
      exact insertByKey_above fun r hr => habove r (hc.positive.logged r hr)
    refine ⟨h, hstreams ▸ hi, rfl, .unmoved (hev i) rfl rfl fun hin => ?_⟩
    rw [hrows] at hin ⊢
    obtain hold | hnew := mem_append.mp hin
    · exact ⟨hold, (rank_snoc_above (habove e he)).le⟩
    · -- the row was stored before, so it is not the one stored now
      have hself := habove e he
      rw [mem_singleton.mp hnew] at hself
      exact absurd hself (Int.lt_irrefl _)
  | pruned hev hrows _ hstreams =>
    refine ⟨h.lose _, by rw [hstreams, getElem?_map, hi]; rfl, rfl, ?_⟩
    exact .unmoved (hev i) rfl rfl fun hin => ⟨hrows.subset hin, (hrows.filter _).length_le⟩
  | dropped hev hrows _ hstreams =>
    exact ⟨h.close, by rw [hstreams, getElem?_map, hi]; rfl, rfl, .same_rows (hev i) rfl rfl hrows⟩
  | connected hev hrows _ hstreams =>
    have hlen := (List.getElem?_eq_some_iff.mp hi).1
    exact ⟨h, by rw [hstreams, getElem?_append_left hlen, hi], rfl, .same_rows (by rw [hev]; rfl) rfl rfl hrows⟩
  | @stream j h₀ h₁ hev hev' hj _ hstep hrows _ hstreams =>
    subst hev'
    by_cases hij : j = i
    · subst hij
      obtain rfl : h₀ = h := Option.some.inj (hj.symm.trans hi)
      refine ⟨h₁, ?_, hstep.effect.1, ?_⟩
      · rw [hstreams, List.getElem?_set_self (List.getElem?_eq_some_iff.mp hi).1]
      · exact (hc.streams h₀ (mem_of_getElem? hi)).progress hc.positive.logged hstep hrows hlt
    · refine ⟨h, by rw [hstreams, getElem?_set_ne hij, hi], rfl, .same_rows ?_ rfl rfl hrows⟩
      cases hev <;> simp [Ev.lists, Ne.symm hij]

/-- The reader `i` on its way to the row `e`: it has received it, or what is left of the `n` rows that
were between them is at most `n` less the lists made. -/
def Approaches (i : Nat) (e : Event) (n : Nat) (evs : List Ev) (s : System) : Prop :=
  s.Caught ∧ e ∈ s.outbox.stored ∧ ∃ h, s.streams[i]? = some h ∧ h.since < e.seq ∧
    (e ∈ s.rows → e ∈ h.received ∨ rank Event.seq h.frontier e s.rows + evs.countP (Ev.lists i) ≤ n)

theorem Approaches.step (ha : Approaches i e n evs s)
    (hs : Under (SystemStep pg cfg) (InOrder pg) s ev s') : Approaches i e n (evs ++ [ev]) s' := by
  obtain ⟨hc, he, h, hi, hlt, hgot⟩ := ha
  obtain ⟨h', hi', hsince, hprog⟩ := hc.progress hs.1 hs.2 hi he hlt
  refine ⟨hc.step hs.1 hs.2, hs.1.change.stored_mono he, h', hi', hsince ▸ hlt, fun hin => ?_⟩
  obtain ⟨hold, hrec | ⟨hout, hle⟩⟩ := hprog hin
  · exact .inl hrec
  · have hbound := (hgot hold).resolve_left hout
    rw [countP_append, countP_singleton]
    exact .inr (by omega)

/-- A reader that lists as often as there are rows between it and `e` has received `e`, unless `e` was
pruned. -/
theorem System.Caught.received (hc : s.Caught) (hi : s.streams[i]? = some h) (he : e ∈ s.rows)
    (hlt : h.since < e.seq) (hr : Run (Under (SystemStep pg cfg) (InOrder pg)) s evs s')
    (hlists : rank Event.seq h.frontier e s.rows ≤ evs.countP (Ev.lists i)) (hin : e ∈ s'.rows) :
    ∃ h', s'.streams[i]? = some h' ∧ e ∈ h'.received := by
  have hstart : Approaches i e (rank Event.seq h.frontier e s.rows) [] s :=
    ⟨hc, hc.positive.logged e he, h, hi, hlt, fun _ => .inr (by simp)⟩
  obtain ⟨hc', _, h', hi', hlt', hgot⟩ := hr.inv_trace (fun _ _ _ _ ha hs => ha.step hs) hstart
  refine ⟨h', hi', ?_⟩
  by_contra hout
  have habove := ((hc'.streams h' (mem_of_getElem? hi')).none_skipped e hin hlt').resolve_left hout
  have hpos := rank_pos hin habove
  have hbound := (hgot hin).resolve_left hout
  omega

theorem Stream.Caught.count (hc : h.Caught stored rows) (he : e ∈ h.received) : h.received.count e = 1 :=
  by rw [hc.ascending.nodup.count, if_pos he]

/-- In a run that stores its rows in order, no row is stored behind a cursor, and every row above a reader's start
that stays in the table is returned exactly once. -/
theorem stream_complete (pg : Platform) (cfg : Config) {evs : List Ev} {s : System}
    (hr : Run (Under (SystemStep pg cfg) (InOrder pg)) System.empty evs s) :
    (∀ ev s' row, SystemStep pg cfg s ev s' → InOrder pg s ev s' →
      s'.outbox.stored = s.outbox.stored ++ [row] → ∀ h ∈ s.streams, h.cursor < row.seq) ∧
    (∀ h ∈ s.streams, ∀ e ∈ h.received, h.received.count e = 1) ∧
    (∀ i h e, s.streams[i]? = some h → e ∈ s.rows → h.since < e.seq →
      ∀ evs' s', Run (Under (SystemStep pg cfg) (InOrder pg)) s evs' s' →
        rank Event.seq h.frontier e s.rows ≤ evs'.countP (Ev.lists i) → e ∈ s'.rows →
        ∃ h', s'.streams[i]? = some h' ∧ h'.received.count e = 1) := by
  have hc := System.Caught.of_run hr
  refine ⟨fun ev s' row hs hok hrow h hh => ?_, fun h hh e he => (hc.streams h hh).count he, ?_⟩
  · have hnum : 0 < row.seq := (hc.positive.step hs).stored row (by simp [hrow])
    have hch := hc.streams h hh
    exact hch.cursor_le.trans_lt (hch.frontier_lt hnum (hok.above hs hrow))
  · intro i h e hi he hlt evs' s' hr' hlists hin
    obtain ⟨h', hi', hrec⟩ := hc.received hi he hlt hr' hlists hin
    have hc' : s'.Caught := hr'.inv_under (I := System.Caught) (fun _ _ _ hi hs hok => hi.step hs hok) hc
    exact ⟨h', hi', (hc'.streams h' (mem_of_getElem? hi')).count hrec⟩

/-- A reader that is connected when a row is stored lists once and has it. -/
theorem stream_complete_listed :
    ∃ s s', Run (Under (SystemStep samplePlatform ⟨0, false⟩) (InOrder samplePlatform)) System.empty
        [.connect 0, .allocate 10 (sampleEvent 0), .insert 0] s ∧
      Run (Under (SystemStep samplePlatform ⟨0, false⟩) (InOrder samplePlatform)) s [.stream 0 .list] s' ∧
      ∃ h, s'.streams[0]? = some h ∧ h.received.count (sampleEvent 10) = 1 := by
  refine' ⟨_, _, ?run, .single ⟨?list, trivial⟩, (stream_complete samplePlatform ⟨0, false⟩ ?run).2.2 0 _ (sampleEvent 10) ?stream
    ?_ ?_ _ _ (.single ⟨?list, trivial⟩) ?_ ?_⟩
  case run =>
    exact .cons ⟨.connect (by decide) rfl, .inl rfl⟩ (.cons ⟨.allocate 10 _, trivial⟩
      (.single ⟨.insert rfl, fun _ _ _ _ hr => absurd hr not_mem_nil⟩))
  case list => exact .stream rfl rfl (.listed rfl rfl)
  case stream => rfl
  all_goals decide

end Dirextalk.Events

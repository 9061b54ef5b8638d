/-
  Dirextalk.Events.Retention — pruning under the feet of a connected stream.

  The handler compares its cursor with the bounds of the table once, when the client
  connects. Retention goes on deleting rows for as long as the stream lives, and a `List`
  that finds the rows after the cursor gone returns the next ones that are left.
-/
import Dirextalk.Events.Stream

namespace Dirextalk.Events

open Lib List

/-- A row goes from the table only if every connected stream is past it or has it in its batch. -/
def Covered (s : System) (_ : Ev) (s' : System) : Prop :=
  ∀ r ∈ s.rows, r ∉ s'.rows → ∀ h ∈ s.streams, h.connected = true → r.seq ≤ h.cursor ∨ r ∈ h.batch

instance (s s' : System) (ev : Ev) : Decidable (Covered s ev s') :=
  inferInstanceAs (Decidable (∀ r ∈ s.rows, r ∉ s'.rows → ∀ h ∈ s.streams, _))

/-- A stream has written row 1 when rows 2 and 3 are stored and the rows before 3 are pruned: it writes
row 3 next. -/
theorem prune_ahead_of_stream : ∃ s s' h h' r, Run (SystemStep samplePlatform ⟨0, false⟩) System.empty
        [.allocate 1 (sampleEvent 0), .insert 0, .connect 0, .stream 0 .list, .stream 0 .write,
          .allocate 1 (sampleEvent 0), .insert 1, .allocate 1 (sampleEvent 0), .insert 2,
          .pruneBefore 3, .stream 0 .list] s ∧
      SystemStep samplePlatform ⟨0, false⟩ s (.stream 0 .write) s' ∧
      s.streams[0]? = some h ∧ s'.streams[0]? = some h' ∧ r ∈ h.lost ∧ h.cursor < r.seq ∧ r.seq < h'.cursor :=
  ⟨_, _, _, _, sampleEvent 2, .cons (.allocate 1 _) (.cons (.insert rfl) (.cons (.connect (by decide) rfl)
    (.cons (.stream rfl rfl (.listed rfl rfl)) (.cons (.stream rfl rfl (.writeLast rfl)) (.cons (.allocate 1 _)
    (.cons (.insert rfl) (.cons (.allocate 1 _) (.cons (.insert rfl) (.cons (.pruneBefore 3)
    (.single (.stream rfl rfl (.listed rfl rfl)))))))))))),
    .stream rfl rfl (.writeLast rfl), rfl, rfl, by decide, by decide, by decide⟩

/-! ## A stream with nothing missing -/

variable {pg : Platform} {cfg : Config} {s s' : System} {ev : Ev} {h h' : Stream}

/-- What was pruned since the stream connected lies behind its cursor or in its batch. -/
structure Stream.Steady (h : Stream) : Prop where
  sorted : Ascending Event.seq h.batch
  above : ∀ e ∈ h.batch, h.cursor < e.seq
  lost : ∀ r ∈ h.lost, r.seq ≤ h.cursor ∨ r ∈ h.batch

theorem Stream.Steady.handle {o : Outbox} {hev : HandlerEv} (hd : h.Steady) (hs : HandlerStep o h hev h') :
    h'.Steady := by
  obtain ⟨_, hlost, heff⟩ := hs.effect
  cases heff with
  | listed hempty hbatch hcursor _ =>
    refine ⟨?_, ?_, ?_⟩
    · rw [hbatch]
      exact o.tables.events.sorted.page
    · rw [hbatch, hcursor]
      exact fun e he => (mem_page he).2
    · rw [hlost, hcursor]
      intro r hr
      have hold := hd.lost r hr
      rw [hempty] at hold
      exact .inl (hold.resolve_right not_mem_nil)
  | @wrote _ e hbatch hcursor _ =>
    have hsorted := hd.sorted
    rw [hbatch] at hsorted
    obtain ⟨hnext, hrest⟩ := pairwise_cons.mp hsorted
    refine ⟨hrest, by rw [hcursor]; exact hnext, ?_⟩
    rw [hlost, hcursor]
    intro r hr
    obtain hle | hin := hd.lost r hr
    · exact .inl (hle.trans (hd.above e (by simp [hbatch])).le)
    · rw [hbatch] at hin
      obtain rfl | hin := mem_cons.mp hin
      · exact .inl (Int.le_refl _)
      · exact .inr hin
  | idle _ hbatch hcursor _ =>
    exact ⟨hbatch ▸ hd.sorted, by rw [hbatch, hcursor]; exact hd.above, by rw [hlost, hbatch, hcursor]; exact hd.lost⟩

def System.Steady (s : System) : Prop := ∀ h ∈ s.streams, h.connected = true → h.Steady

theorem System.Steady.step (hd : s.Steady) (hs : SystemStep pg cfg s ev s') (hok : Covered s ev s') : s'.Steady := by
  intro h hh hconn
  cases hs.change with
  | quiet _ _ _ hstreams | stored _ _ _ _ hstreams => exact hd h (hstreams ▸ hh) hconn
  | pruned _ _ _ hstreams =>
    rw [hstreams] at hh
    obtain ⟨h₀, hh₀, rfl⟩ := mem_map.mp hh
    have hold := hd h₀ hh₀ hconn
    refine ⟨hold.sorted, hold.above, fun r hr => ?_⟩
    obtain hbefore | hnow := mem_append.mp hr
    · exact hold.lost r hbefore
    · obtain ⟨hrow, hgone⟩ := mem_filter.mp hnow
      exact hok r hrow (by simpa using hgone) h₀ hh₀ hconn
  | dropped _ _ _ hstreams =>
    rw [hstreams] at hh
    obtain ⟨h₀, _, rfl⟩ := mem_map.mp hh
    cases hconn
  | connected _ _ _ hstreams =>
    rw [hstreams] at hh
    obtain hold | hnew := mem_append.mp hh
    · exact hd h hold hconn
    · obtain rfl := mem_singleton.mp hnew
      exact ⟨.nil, fun e he => absurd he not_mem_nil, fun r hr => absurd hr not_mem_nil⟩
  | @stream i h₀ h₁ _ _ hi hconn₀ hstep _ _ hstreams =>
    rw [hstreams] at hh
    obtain hold | rfl := mem_or_eq_of_mem_set hh
    · exact hd h hold hconn
    · exact (hd h₀ (mem_of_getElem? hi) hconn₀).handle hstep

/-- While no prune runs ahead of a connected stream, no row between a stream's cursor and the row it
writes next was pruned since it connected. -/
theorem no_silent_gap (pg : Platform) (cfg : Config) {evs : List Ev} {s : System}
    (hr : Run (Under (SystemStep pg cfg) Covered) System.empty evs s) :
    ∀ i s' h h', SystemStep pg cfg s (.stream i .write) s' → s.streams[i]? = some h → s'.streams[i]? = some h' →
      ∀ r ∈ h.lost, ¬ (h.cursor < r.seq ∧ r.seq < h'.cursor) := by
  have hd : s.Steady := hr.inv_under (I := System.Steady) (fun _ _ _ hi hs hok => hi.step hs hok)
    (by simp [System.Steady, System.empty])
  rintro i s' h h' hs hi hi' r hr ⟨hlow, hhigh⟩
  cases hs with
  | @stream _ h₀ h₁ _ hi₀ hconn hstep =>
    obtain rfl : h₀ = h := Option.some.inj (hi₀.symm.trans hi)
    obtain rfl : h₁ = h' := by
      rw [List.getElem?_set_self (List.getElem?_eq_some_iff.mp hi).1] at hi'
      exact Option.some.inj hi'
    have hsteady := hd h₀ (mem_of_getElem? hi) hconn
    cases hstep.effect.2.2 with
    | idle hev => exact hev.2 rfl
    | @wrote _ e hbatch hcursor _ =>
      have hsorted := hsteady.sorted
      rw [hbatch] at hsorted
      rw [hcursor] at hhigh
      obtain hle | hin := hsteady.lost r hr
      · omega
      · rw [hbatch] at hin
        obtain rfl | hin := mem_cons.mp hin
        · exact absurd hhigh (Int.lt_irrefl _)
        · have hafter := (pairwise_cons.mp hsorted).1 r hin
          omega

/-- A prune of what the stream has written already: the next row follows without a gap. -/
theorem no_silent_gap_behind : ∃ s s' h h', Run (Under (SystemStep samplePlatform ⟨0, false⟩) Covered) System.empty
        [.allocate 1 (sampleEvent 0), .insert 0, .allocate 1 (sampleEvent 0), .insert 1, .connect 0,
          .stream 0 .list, .stream 0 .write, .pruneBefore 2] s ∧
      SystemStep samplePlatform ⟨0, false⟩ s (.stream 0 .write) s' ∧
      s.streams[0]? = some h ∧ s'.streams[0]? = some h' ∧ sampleEvent 1 ∈ h.lost ∧ h'.cursor = 2 ∧
      ∀ r ∈ h.lost, ¬ (h.cursor < r.seq ∧ r.seq < h'.cursor) := by
  refine' ⟨_, _, _, _, ?run, .stream ?before ?_ ?write, ?before, ?after, ?lost, ?cursor,
    no_silent_gap samplePlatform ⟨0, false⟩ ?run 0 _ _ _ (.stream ?before ?_ ?write) ?before ?after⟩
  case run =>
    exact .cons ⟨.allocate 1 _, by decide⟩ (.cons ⟨.insert rfl, by decide⟩ (.cons ⟨.allocate 1 _, by decide⟩
      (.cons ⟨.insert rfl, by decide⟩ (.cons ⟨.connect (by decide) rfl, by decide⟩
      (.cons ⟨.stream rfl rfl (.listed rfl rfl), by decide⟩ (.cons ⟨.stream rfl rfl (.write rfl), by decide⟩
      (.single ⟨.pruneBefore 2, by decide⟩)))))))
  case before => rfl
  case write => exact .writeLast rfl
  case lost => decide
  all_goals rfl

end Dirextalk.Events

/-
  Dirextalk.Lib.Run — runs of a labelled step relation.

  A run is a finite list of labels between two states; there is an invariant rule for states,
  for states with their history, for pairs of states and for runs under a side condition.
-/
import Mathlib.Logic.Function.Basic

namespace Dirextalk.Lib

variable {S L : Type} {step : S → L → S → Prop}

/-- A finite run; the labels stand in the order in which the steps were taken. -/
inductive Run (step : S → L → S → Prop) : S → List L → S → Prop where
  | nil (s : S) : Run step s [] s
  | snoc {s t u : S} {ls : List L} {l : L} : Run step s ls t → step t l u → Run step s (ls ++ [l]) u

/-- The steps of `step` that meet `cond` in the state they are taken from. -/
def Under (step : S → L → S → Prop) (cond : S → L → S → Prop) (s : S) (l : L) (t : S) : Prop :=
  step s l t ∧ cond s l t

namespace Run

variable {s t : S}

theorem single (h : step s l t) : Run step s [l] t :=
  .snoc (.nil s) h

variable {ls : List L}

theorem trans (h₁ : Run step s ls t) (h₂ : Run step t ms u) : Run step s (ls ++ ms) u := by
  induction h₂ with
  | nil => simpa using h₁
  | snoc _ hstep ih =>
    rw [← List.append_assoc]
    exact .snoc ih hstep

theorem cons (h : step s l t) (hr : Run step t ls u) : Run step s (l :: ls) u :=
  .trans (.single h) hr

theorem split_at (hr : Run step s ls t) (hl : l ∈ ls) :
    ∃ before u v after, Run step s before u ∧ step u l v ∧ Run step v after t := by
  induction hr with
  | nil => cases hl
  | snoc hr hs ih =>
    obtain hl | hl := List.mem_append.mp hl
    · obtain ⟨before, u, v, after, hbefore, hstep, hafter⟩ := ih hl
      exact ⟨before, u, v, _, hbefore, hstep, .snoc hafter hs⟩
    · rw [List.mem_singleton.mp hl]
      exact ⟨_, _, _, [], hr, hs, .nil _⟩

variable {I : S → Prop}

/-- A state predicate that every step keeps holds at the end of every run. -/
theorem inv (hstep : ∀ s l t, I s → step s l t → I t)
    (hr : Run step s ls t) (h0 : I s) : I t := by
  induction hr with
  | nil => exact h0
  | snoc _ hs ih => exact hstep _ _ _ ih hs

/-- The invariant rule for predicates that speak of the steps taken so far. -/
theorem inv_trace {I : List L → S → Prop} (hstep : ∀ ls s l t, I ls s → step s l t → I (ls ++ [l]) t)
    (hr : Run step s ls t) (h0 : I [] s) : I ls t := by
  induction hr with
  | nil => exact h0
  | snoc _ hs ih => exact hstep _ _ _ _ ih hs

/-- A relation between states that composes and that every step from an invariant state keeps
relates the two ends of a run. -/
theorem rel {R : S → S → Prop} (hrefl : ∀ s, R s s)
    (htrans : ∀ s t u, R s t → R t u → R s u) (hinv : ∀ s l t, I s → step s l t → I t)
    (hstep : ∀ s l t, I s → step s l t → R s t) {s t : S} {ls : List L}
    (hr : Run step s ls t) (h0 : I s) : R s t := by
  induction hr with
  | nil => exact hrefl _
  | snoc hr hs ih => exact htrans _ _ _ ih (hstep _ _ _ (hr.inv hinv h0) hs)

variable {cond : S → L → S → Prop}

/-- The invariant rule for runs restricted to steps that meet a condition. -/
theorem inv_under (hstep : ∀ s l t, I s → step s l t → cond s l t → I t)
    (hr : Run (Under step cond) s ls t) (h0 : I s) : I t :=
  hr.inv (fun s l t hi h => hstep s l t hi h.1 h.2) h0

theorem of_under (hr : Run (Under step cond) s ls t) : Run step s ls t := by
  induction hr with
  | nil => exact .nil _
  | snoc _ hs ih => exact .snoc ih hs.1

end Run

end Dirextalk.Lib

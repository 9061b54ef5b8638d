/-
  Dirextalk.Lib.Handler — functions that change a state as they go and may fail on the way.

  An error leaves the state where it arose. `Runs P p Q` is total correctness: from every
  state of `P` the function goes through to its end, with an answer and a state of `Q`.
-/
import Dirextalk.Lib.Trace

namespace Dirextalk.Lib

/-- A function that may return an `error` and changes the state until then. -/
abbrev Handler (S : Type) := ExceptT String (StateM S)

namespace Handler

variable {S α β : Type} {σ : Sig}

def outcome (p : Handler S α) (s : S) : Except String α × S := p.run.run s

/-- What is read off the state. -/
def reads (f : S → α) : Handler S α := ExceptT.mk fun s => (.ok (f s), s)

/-- A statement, refused where there is no next state. -/
def statement (refusal : String) (f : S → Option S) : Handler S Unit := ExceptT.mk fun s =>
  match f s with
  | some s' => (.ok (), s')
  | none => (.error refusal, s)

/-- A statement that is never refused. -/
def modifies (f : S → S) : Handler S Unit := ExceptT.mk fun s => (.ok (), f s)

/-- A statement that answers. -/
def answers (f : S → α × S) : Handler S α := ExceptT.mk fun s => (.ok (f s).1, (f s).2)

/-- A program, each of its calls answered by a function of the state. -/
def ofProg (reply : (c : σ.Call) → S → σ.Ans c × S) (p : ExceptT String (Prog σ) α) : Handler S α :=
  ExceptT.mk fun s => p.run.perform reply s

theorem outcome_bind (p : Handler S α) (f : α → Handler S β) (s : S) : (p >>= f).outcome s = match p.outcome s with
      | (.ok a, s') => (f a).outcome s'
      | (.error e, s') => (.error e, s') := by
  simp only [outcome]
  show (ExceptT.bindCont f (p.run.run s).1).run (p.run.run s).2 = _
  rcases p.run.run s with ⟨_ | a, s'⟩ <;> rfl

theorem outcome_bind_ok {p : Handler S α} {f : α → Handler S β} {s s' : S} {a : α} (h : p.outcome s = (.ok a, s')) :
    (p >>= f).outcome s = (f a).outcome s' := by
  rw [outcome_bind, h]

/-! ## Total correctness -/

/-- From every state of `P` the function goes through, to an answer and a state of `Q`. -/
def Runs (P : S → Prop) (p : Handler S α) (Q : α → S → Prop) : Prop := ∀ s, P s → ∃ a s', p.outcome s = (.ok a, s') ∧ Q a s'

namespace Runs

variable {P P' : S → Prop} {Q Q' : α → S → Prop} {R : β → S → Prop}

theorem pure (h : ∀ s, P s → Q a s) : Runs P (Pure.pure a) Q := fun s hs => ⟨a, s, rfl, h s hs⟩

variable {p : Handler S α} {reply : (c : σ.Call) → S → σ.Ans c × S}

theorem bind {f : α → Handler S β} (h : Runs P p Q) (hf : ∀ a, Runs (Q a) (f a) R) : Runs P (p >>= f) R := by
  intro s hs
  obtain ⟨a, s', hp, ha⟩ := h s hs
  rw [outcome_bind_ok hp]
  exact hf a s' ha

theorem mono (h : Runs P p Q) (hQ : ∀ a s, Q a s → Q' a s) : Runs P p Q' := by
  intro s hs
  obtain ⟨a, s', hp, ha⟩ := h s hs
  exact ⟨a, s', hp, hQ a s' ha⟩

theorem strengthen (h : Runs P p Q) (hP : ∀ s, P' s → P s) : Runs P' p Q := fun s hs => h s (hP s hs)

/-- A fact that is not of the state. -/
theorem assuming (h : φ → Runs P p Q) : Runs (fun s => P s ∧ φ) p Q := fun s hs => h hs.2 s hs.1

theorem reads (h : ∀ s, P s → Q (f s) s) : Runs P (Handler.reads f) Q := fun s hs => ⟨f s, s, rfl, h s hs⟩

theorem modifies {f : S → S} {Q : Unit → S → Prop} (h : ∀ s, P s → Q () (f s)) : Runs P (Handler.modifies f) Q :=
  fun s hs => ⟨(), f s, rfl, h s hs⟩

theorem answers (h : ∀ s, P s → Q (f s).1 (f s).2) : Runs P (Handler.answers f) Q :=
  fun s hs => ⟨(f s).1, (f s).2, rfl, h s hs⟩

theorem statement {refusal : String} {f : S → Option S} {Q : Unit → S → Prop} (h : ∀ s, P s → ∃ s', f s = some s' ∧ Q () s') :
    Runs P (Handler.statement refusal f) Q := by
  intro s hs
  obtain ⟨s', hf, hs'⟩ := h s hs
  refine ⟨(), s', ?_, hs'⟩
  simp only [outcome, Handler.statement, ExceptT.run, ExceptT.mk, StateT.run, hf]

theorem progBind {p : ExceptT String (Prog σ) α} {f : α → ExceptT String (Prog σ) β}
    (h : Runs P (ofProg reply p) Q) (hf : ∀ a, Runs (Q a) (ofProg reply (f a)) R) : Runs P (ofProg reply (p >>= f)) R := by
  intro s hs
  obtain ⟨a, s', hp, ha⟩ := h s hs
  have hbind : (ofProg reply (p >>= f)).outcome s = (ofProg reply (f a)).outcome s' := Prog.perform_bindOk hp
  rw [hbind]
  exact hf a s' ha

/-- A program, by what it computes. -/
theorem prog {p : ExceptT String (Prog σ) α}
    (h : ∀ s, P s → ∃ a s', p.run.perform reply s = (.ok a, s') ∧ Q a s') : Runs P (ofProg reply p) Q := h

theorem progPure (h : ∀ s, P s → Q a s) : Runs P (ofProg reply (Pure.pure a : ExceptT String (Prog σ) α)) Q :=
  fun s hs => ⟨a, s, rfl, h s hs⟩

end Runs

/-! ## What is left alone -/

/-- The function leaves a part of the state alone, whether it goes through or not. -/
def Leaves {γ : Type} (part : S → γ) (p : Handler S α) : Prop := ∀ s, part (p.outcome s).2 = part s

namespace Leaves

variable {γ : Type} {part : S → γ}

theorem pure (a : α) : Leaves part (Pure.pure a : Handler S α) := fun _ => rfl

theorem bind (h : Leaves part p) (hf : ∀ a, Leaves part (f a)) : Leaves part (p >>= f) := by
  intro s
  rw [outcome_bind]
  have hp := h s
  rcases hout : p.outcome s with ⟨_ | a, s'⟩
  · rwa [hout] at hp
  · rw [hout] at hp
    exact (hf a s').trans hp

theorem reads (f : S → α) : Leaves part (Handler.reads f) := fun _ => rfl

theorem modifies (h : ∀ s, part (f s) = part s) : Leaves part (Handler.modifies f) := h

theorem statement (h : ∀ s s', f s = some s' → part s' = part s) : Leaves part (Handler.statement refusal f) := by
  intro s
  simp only [outcome, Handler.statement, ExceptT.run, ExceptT.mk, StateT.run]
  cases hf : f s with
  | none => rfl
  | some s' => exact h s s' hf

end Leaves

end Handler

end Dirextalk.Lib

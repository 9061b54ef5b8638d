/-
  Dirextalk.Lib.Prog — sequential programs over a signature of calls, pools of threads
  that run them against a shared world, and proof outlines for such pools.

  A program (`Prog`) is a tree of calls: what a call answers is up to the environment.
  A `Machine` says which program a request starts, what a call may answer and do to the
  world, and what a crash of the process leaves of it. A `Pool` runs any number of
  threads, one call at a time in any order; a crash drops all of them.

  A proof outline (`Outline`) has a world invariant, what every thread may rely on
  between two of its calls, and a precondition for each call.
  `Outline.Valid.run`: if the outline is valid, its invariant holds in every reachable
  pool; `Outline.Valid.strengthen`: from then on the preconditions may be taken as
  facts about every call, which is how one outline is built on another.
-/
import Dirextalk.Lib.Run

namespace Dirextalk.Lib

open Function

/-- The calls a program can make and the type of what each of them answers. -/
structure Sig where
  Call : Type
  Ans : Call → Type

inductive Prog (σ : Sig) (α : Type) where
  | ret (a : α)
  | call (c : σ.Call) (k : σ.Ans c → Prog σ α)

variable {σ τ : Sig} {α β : Type}

namespace Prog

def bind : Prog σ α → (α → Prog σ β) → Prog σ β
  | .ret a, f => f a
  | .call c k, f => .call c fun r => (k r).bind f

instance : Monad (Prog σ) where
  pure := .ret
  bind := Prog.bind

/-- One call, answered. -/
def ask (c : σ.Call) : Prog σ (σ.Ans c) := .call c .ret

/-- The program with each of its calls made through another signature. -/
def via (call : τ.Call → σ.Call) (back : ∀ c, σ.Ans (call c) → τ.Ans c) : Prog τ α → Prog σ α
  | .ret a => .ret a
  | .call c k => .call (call c) fun r => (k (back c r)).via call back

theorem via_bind (call : τ.Call → σ.Call) (back : ∀ c, σ.Ans (call c) → τ.Ans c) (p : Prog τ α) (f : α → Prog τ β) :
    (p >>= f).via call back = p.via call back >>= fun a => (f a).via call back := by
  induction p with
  | ret a => rfl
  | call c k ih => exact congrArg (Prog.call (call c)) (funext fun r => ih (back c r))

theorem via_self (p : Prog σ α) : p.via (σ := σ) id (fun _ r => r) = p := by
  induction p with
  | ret a => rfl
  | call c k ih => exact congrArg (Prog.call c) (funext ih)

abbrev Trace (σ : Sig) := List ((c : σ.Call) × σ.Ans c)

/-- A run alone, each answer given by an oracle that sees the calls before it. -/
def eval (oracle : Trace σ → (c : σ.Call) → σ.Ans c) : Prog σ α → Trace σ → α × Trace σ
  | .ret a, tr => (a, tr)
  | .call c k, tr => (k (oracle tr c)).eval oracle (⟨c, oracle tr c⟩ :: tr)

section

variable (oracle : Trace σ → (c : σ.Call) → σ.Ans c) (p : Prog σ α)

/-- A run only adds to the trace. -/
theorem eval_suffix (tr : Trace σ) : tr <:+ (p.eval oracle tr).2 := by
  induction p generalizing tr with
  | ret a => exact List.suffix_refl _
  | call c k ih => exact (List.suffix_cons _ _).trans (ih (oracle tr c) _)

theorem eval_bind (f : α → Prog σ β) (tr : Trace σ) :
    (p >>= f).eval oracle tr = (f (p.eval oracle tr).1).eval oracle (p.eval oracle tr).2 := by
  induction p generalizing tr with
  | ret a => rfl
  | call c k ih => exact ih (oracle tr c) _

end

/-- The result of a run alone in a state that stays as it is and answers every call. -/
def value (answer : (c : σ.Call) → σ.Ans c) : Prog σ α → α
  | .ret a => a
  | .call c k => (k (answer c)).value answer

variable {answer : (c : σ.Call) → σ.Ans c} {ε : Type}

@[simp] theorem value_bind (p : Prog σ α) (f : α → Prog σ β) :
    (p >>= f).value answer = (f (p.value answer)).value answer := by
  induction p with
  | ret a => rfl
  | call c k ih => exact ih (answer c)

/-- A step of a program that may fail goes through exactly if both halves do. -/
theorem value_bind_eq_ok {p : ExceptT ε (Prog σ) α} {f : α → ExceptT ε (Prog σ) β} {b : β} :
    (p >>= f).run.value answer = .ok b ↔ ∃ a, p.run.value answer = .ok a ∧ (f a).run.value answer = .ok b := by
  have hbind : (p >>= f).run.value answer = (p.run.value answer).bind fun a => (f a).run.value answer := by
    show (p.run >>= ExceptT.bindCont f).value answer = _
    rw [value_bind]
    cases p.run.value answer <;> rfl
  rw [hbind]
  cases p.run.value answer <;> simp [Except.bind]

end Prog

/-! ## Machines and pools -/

variable {Q W : Type}

structure Machine (σ : Sig) (Q W : Type) where
  /-- The program a request starts. -/
  entry : Q → Prog σ Unit
  /-- What a call of a thread may answer and do to the world. -/
  exec : Nat → Q → (c : σ.Call) → W → σ.Ans c → W → Prop
  /-- What the world may be when the process comes up again. -/
  crash : W → W → Prop

structure Thread (σ : Sig) (Q : Type) where
  origin : Q
  prog : Prog σ Unit

structure Pool (σ : Sig) (Q W : Type) where
  world : W
  thread : Nat → Option (Thread σ Q)
  /-- The number the next thread gets. -/
  next : Nat

namespace Pool

def start (w : W) : Pool σ Q W := ⟨w, fun _ => none, 0⟩

inductive Ev (σ : Sig) (Q : Type) where
  | arrive (q : Q)
  | answer (t : Nat) (c : σ.Call) (r : σ.Ans c)
  | crash

inductive Step (m : Machine σ Q W) : Pool σ Q W → Ev σ Q → Pool σ Q W → Prop where
  | arrive (s : Pool σ Q W) (q : Q) : Step m s (.arrive q)
        { s with thread := update s.thread s.next (some ⟨q, m.entry q⟩), next := s.next + 1 }
  | answer {s : Pool σ Q W} {t : Nat} {q : Q} {c : σ.Call} {k : σ.Ans c → Prog σ Unit} {r : σ.Ans c} {w : W}
      (hthread : s.thread t = some ⟨q, .call c k⟩) (hexec : m.exec t q c s.world r w) :
      Step m s (.answer t c r) { s with world := w, thread := update s.thread t (some ⟨q, k r⟩) }
  | crash {s : Pool σ Q W} {w : W} (hcrash : m.crash s.world w) :
      Step m s .crash { s with world := w, thread := fun _ => none }

/-- Where the threads of the next pool come from: one has arrived, one has been answered, the others are as
they were. -/
theorem Step.thread_cases (hs : Step m s e s')
    (hth : s'.thread t = some th) :
    (∃ q, e = .arrive q ∧ t = s.next ∧ th = ⟨q, m.entry q⟩) ∨
      (∃ q c k r, e = .answer t c r ∧ s.thread t = some ⟨q, .call c k⟩ ∧ th = ⟨q, k r⟩) ∨
      s.thread t = some th ∧ ∀ c r, e ≠ .answer t c r := by
  cases hs with
  | arrive q =>
    dsimp only at hth
    by_cases ht : t = s.next
    · subst ht
      rw [update_self, Option.some.injEq] at hth
      exact .inl ⟨q, rfl, rfl, hth.symm⟩
    · rw [update_of_ne ht] at hth
      exact .inr (.inr ⟨hth, fun c r h => nomatch h⟩)
  | @answer u q c k r w hthread _ =>
    dsimp only at hth
    by_cases ht : t = u
    · subst ht
      rw [update_self, Option.some.injEq] at hth
      exact .inr (.inl ⟨q, c, k, r, rfl, hthread, hth.symm⟩)
    · rw [update_of_ne ht] at hth
      refine .inr (.inr ⟨hth, fun c' r' h => ?_⟩)
      injection h with hu
      exact ht hu.symm
  | crash _ => cases hth

end Pool

/-! ## Proof outlines -/

structure Outline (m : Machine σ Q W) where
  Inv : W → Prop
  /-- What thread `t` may count on between two of its calls. -/
  Rely : Nat → W → W → Prop
  Pre : Nat → Q → σ.Call → W → Prop
  /-- What holds of the number of a thread that has not arrived. -/
  Fresh : Nat → W → Prop

variable {m : Machine σ Q W}

/-- From `w` on, thread `t` meets the precondition of each of its calls, whatever the environment
does in between that `t` may rely on. -/
def Prog.Safe (o : Outline m) (t : Nat) (q : Q) (post : α → W → Prop) : Prog σ α → W → Prop
  | .ret a, w => ∀ w', o.Rely t w w' → o.Inv w' → post a w'
  | .call c k, w => ∀ w', o.Rely t w w' → o.Inv w' → o.Pre t q c w' ∧
      ∀ r w'', m.exec t q c w' r w'' → (k r).Safe o t q post w''

structure Outline.Valid (o : Outline m) : Prop where
  refl : ∀ t w, o.Rely t w w
  trans : ∀ t w₁ w₂ w₃, o.Rely t w₁ w₂ → o.Rely t w₂ w₃ → o.Rely t w₁ w₃
  exec_inv : ∀ {t q c w r w'}, o.Inv w → o.Pre t q c w → m.exec t q c w r w' → o.Inv w'
  exec_rely : ∀ {t u q c w r w'}, t ≠ u → o.Inv w → o.Pre t q c w → m.exec t q c w r w' → o.Rely u w w'
  crash_inv : ∀ {w w'}, o.Inv w → m.crash w w' → o.Inv w'
  fresh_rely : ∀ {t w w'}, o.Fresh t w → o.Rely t w w' → o.Fresh t w'
  fresh_crash : ∀ {t w w'}, o.Fresh t w → m.crash w w' → o.Fresh t w'
  entry : ∀ {t q w}, o.Inv w → o.Fresh t w → (m.entry q).Safe o t q (fun _ _ => True) w

variable {o : Outline m} {t : Nat} {q : Q} {post : α → W → Prop}

namespace Prog.Safe

variable {p : Prog σ α} {w : W}

/-- Safety is kept by everything the thread relies on. -/
theorem later (trans : ∀ t w₁ w₂ w₃, o.Rely t w₁ w₂ → o.Rely t w₂ w₃ → o.Rely t w₁ w₃)
    (h : p.Safe o t q post w) (hr : o.Rely t w w') : p.Safe o t q post w' := by
  cases p with
  | ret | call => exact fun w'' hr' => h w'' (trans _ _ _ _ hr hr')

/-- To be safe from `w` on it is enough to be safe at every invariant state one may rely on. -/
theorem of_later (refl : ∀ t w, o.Rely t w w)
    (h : ∀ w', o.Rely t w w' → o.Inv w' → p.Safe o t q post w') : p.Safe o t q post w := by
  cases p with
  | ret | call => exact fun w' hr hi => h w' hr hi w' (refl _ _) hi

theorem mono (hpost : ∀ a w, o.Inv w → post a w → post' a w)
    (h : p.Safe o t q post w) : p.Safe o t q post' w := by
  induction p generalizing w with
  | ret a => exact fun w' hr hi => hpost a w' hi (h w' hr hi)
  | call c k ih =>
    intro w' hr hi
    obtain ⟨hpre, hk⟩ := h w' hr hi
    exact ⟨hpre, fun r w'' he => ih r (hk r w'' he)⟩

/-- Safety for an outline that asks for more where its invariant gives it, of a machine that does no more. -/
theorem transfer {m' : Machine σ Q W} (h : p.Safe o t q post w) (o' : Outline m')
    (hexec : ∀ c w r w', m'.exec t q c w r w' → m.exec t q c w r w') (hrely : ∀ w w', o'.Rely t w w' → o.Rely t w w')
    (hinv : ∀ w, o'.Inv w → o.Inv w) (hpre : ∀ c w, o'.Inv w → o.Pre t q c w → o'.Pre t q c w) : p.Safe o' t q post w := by
  induction p generalizing w with
  | ret a => exact fun w' hr hi => h w' (hrely _ _ hr) (hinv _ hi)
  | call c k ih =>
    intro w' hr hi
    obtain ⟨hc, hk⟩ := h w' (hrely _ _ hr) (hinv _ hi)
    exact ⟨hpre c w' hi hc, fun r w'' he => ih r (hk r w'' (hexec _ _ _ _ he))⟩

theorem ite [Decidable c] (hp : c → p.Safe o t q post w) (hp' : ¬ c → p'.Safe o t q post w) :
    (if c then p else p').Safe o t q post w := by
  split
  · exact hp ‹_›
  · exact hp' ‹_›

theorem bind (refl : ∀ t w, o.Rely t w w) {post' : β → W → Prop} {f : α → Prog σ β}
    (h : p.Safe o t q post w) (hf : ∀ a w', o.Inv w' → post a w' → (f a).Safe o t q post' w') :
    (p >>= f).Safe o t q post' w := by
  induction p generalizing w with
  | ret a => exact of_later refl fun w' hr hi => hf a w' hi (h w' hr hi)
  | call c k ih =>
    intro w' hr hi
    obtain ⟨hpre, hk⟩ := h w' hr hi
    exact ⟨hpre, fun r w'' he => ih r (hk r w'' he)⟩

end Prog.Safe

structure Outline.Holds (o : Outline m) (s : Pool σ Q W) : Prop where
  inv : o.Inv s.world
  threads : ∀ t th, s.thread t = some th → th.prog.Safe o t th.origin (fun _ _ => True) s.world
  fresh : ∀ t, s.next ≤ t → s.thread t = none ∧ o.Fresh t s.world

namespace Outline.Valid

variable {s s' : Pool σ Q W} {e : Pool.Ev σ Q}

theorem start (w : W) (hinv : o.Inv w) (hfresh : ∀ t, o.Fresh t w) : o.Holds (Pool.start w) :=
  ⟨hinv, by simp [Pool.start], fun t _ => ⟨rfl, hfresh t⟩⟩

theorem step (v : o.Valid) (h : o.Holds s) (hs : Pool.Step m s e s') : o.Holds s' := by
  cases hs with
  | arrive q =>
    refine ⟨h.inv, ?_, ?_⟩
    · intro t th hth
      dsimp only at hth
      by_cases ht : t = s.next
      · subst ht
        simp only [update_self, Option.some.injEq] at hth
        subst hth
        exact v.entry h.inv (h.fresh _ (Nat.le_refl _)).2
      · rw [update_of_ne ht] at hth
        exact h.threads t th hth
    · intro t ht
      dsimp only at ht ⊢
      obtain ⟨hnone, hfresh⟩ := h.fresh t (by omega)
      exact ⟨by rw [update_of_ne (by omega)]; exact hnone, hfresh⟩
  | @answer t q c k r w hthread hexec =>
    obtain ⟨hpre, hk⟩ := h.threads _ _ hthread _ (v.refl _ _) h.inv
    refine ⟨v.exec_inv h.inv hpre hexec, ?_, ?_⟩
    · intro u th hth
      dsimp only at hth
      by_cases hu : u = t
      · subst hu
        simp only [update_self, Option.some.injEq] at hth
        subst hth
        exact hk r w hexec
      · rw [update_of_ne hu] at hth
        exact (h.threads u th hth).later v.trans (v.exec_rely (Ne.symm hu) h.inv hpre hexec)
    · intro u hu
      obtain ⟨hnone, hfresh⟩ := h.fresh u hu
      have hne : t ≠ u := by
        rintro rfl
        rw [hnone] at hthread
        cases hthread
      exact ⟨by dsimp only; rw [update_of_ne hne.symm]; exact hnone,
        v.fresh_rely hfresh (v.exec_rely hne h.inv hpre hexec)⟩
  | crash hcrash =>
    exact ⟨v.crash_inv h.inv hcrash, by simp, fun t ht => ⟨rfl, v.fresh_crash (h.fresh t ht).2 hcrash⟩⟩

theorem run (v : o.Valid) (h : o.Holds s) (hr : Run (Pool.Step m) s es s') : o.Holds s' :=
  hr.inv (fun _ _ _ hi hs => v.step hi hs) h

end Outline.Valid

/-- The machine whose calls are known to meet the invariant and the preconditions of an outline. -/
def Machine.restrict (m : Machine σ Q W) (o : Outline m) : Machine σ Q W where
  entry := m.entry
  exec t q c w r w' := m.exec t q c w r w' ∧ o.Inv w ∧ o.Pre t q c w
  crash w w' := m.crash w w' ∧ o.Inv w

/-- Every run of the machine is a run of the restricted one. -/
theorem Outline.Valid.strengthen (v : o.Valid)
    (h : o.Holds s) (hr : Run (Pool.Step m) s es s') : Run (Pool.Step (m.restrict o)) s es s' := by
  induction hr with
  | nil => exact .nil _
  | snoc hr hs ih =>
    have hmid := v.run h hr
    refine .snoc ih ?_
    cases hs with
    | arrive q => exact .arrive (m := m.restrict o) _ q
    | answer hthread hexec =>
      have hpre := (hmid.threads _ _ hthread _ (v.refl _ _) hmid.inv).1
      exact .answer (m := m.restrict o) hthread ⟨hexec, hmid.inv, hpre⟩
    | crash hcrash => exact .crash (m := m.restrict o) ⟨hcrash, hmid.inv⟩

end Dirextalk.Lib

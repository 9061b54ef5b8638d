/-
  Dirextalk.Lib.Monitor — sequential programs against a monitor of their calls.

  A monitor knows something (`K`), allows or forbids each call at what it knows, and
  learns from the answers. That a program obeys it (`Prog.Obeys`) is a statement about
  the program alone: no world, no other threads. `Prog.Only` is for one without memory.
-/
import Dirextalk.Lib.Prog

namespace Dirextalk.Lib

open List

variable {σ τ : Sig} {α β ε K Q W : Type}

/-- A monitor of a program's calls: which calls it allows at what it knows, which answers it counts
on, and what it knows after an answer. -/
structure Monitor (σ : Sig) (K : Type) where
  allows : K → σ.Call → Prop
  expects : K → (c : σ.Call) → σ.Ans c → Prop
  next : K → (c : σ.Call) → σ.Ans c → K

/-- From `κ` on, the program makes only calls the monitor allows and returns as `post` says. -/
inductive Prog.Obeys (M : Monitor σ K) (post : α → K → Prop) : Prog σ α → K → Prop where
  | ret {a : α} {κ : K} (h : post a κ) : Obeys M post (.ret a) κ
  | call {c : σ.Call} {k : σ.Ans c → Prog σ α} {κ : K} (hc : M.allows κ c)
      (hk : ∀ r, M.expects κ c r → (k r).Obeys M post (M.next κ c r)) : Obeys M post (.call c k) κ

namespace Prog.Obeys

variable {M : Monitor σ K} {post : α → K → Prop} {κ : K}

theorem pure (h : post a κ) : Prog.Obeys M post (Pure.pure a : Prog σ α) κ := .ret h

theorem ask (hc : M.allows κ c)
    (hf : ∀ r, M.expects κ c r → (f r).Obeys M post (M.next κ c r)) : (Prog.ask c >>= f).Obeys M post κ :=
  .call hc hf

theorem bind {post' : β → K → Prop} {p : Prog σ α} {f : α → Prog σ β}
    (h : p.Obeys M post κ) (hf : ∀ a κ', post a κ' → (f a).Obeys M post' κ') : (p >>= f).Obeys M post' κ := by
  induction h with
  | ret h => exact hf _ _ h
  | call hc _ ih => exact .call hc ih

theorem mono {post' : α → K → Prop} {p : Prog σ α} (h : p.Obeys M post κ) (hpost : ∀ a κ, post a κ → post' a κ) :
    p.Obeys M post' κ := by
  induction h with
  | ret h => exact .ret (hpost _ _ h)
  | call hc _ ih => exact .call hc ih

/-- A program that obeys a monitor is safe for an outline, if what the monitor knows is a stable fact of the world and
the calls it allows meet the outline's preconditions. -/
theorem safe {M : Monitor τ K} {post : α → K → Prop} {m : Machine σ Q W} {o : Outline m} {t : Nat} {q : Q}
    (call : τ.Call → σ.Call) (back : ∀ c, σ.Ans (call c) → τ.Ans c) (R : K → W → Prop)
    (stable : ∀ {κ w w'}, R κ w → o.Rely t w w' → R κ w')
    (pre : ∀ {κ c w}, o.Inv w → R κ w → M.allows κ c → o.Pre t q (call c) w)
    (step : ∀ {κ c w r w'}, o.Inv w → R κ w → M.allows κ c → m.exec t q (call c) w r w' →
      M.expects κ c (back c r) ∧ R (M.next κ c (back c r)) w')
    {p : Prog τ α} {κ : K} {w : W} (h : p.Obeys M post κ) (hR : R κ w) :
    (p.via call back).Safe o t q (fun a w => ∃ κ, post a κ ∧ R κ w) w := by
  induction h generalizing w with
  | ret h => exact fun w' hr _ => ⟨_, h, stable hR hr⟩
  | call hc _ ih =>
    intro w' hr hi
    have hR' := stable hR hr
    refine ⟨pre hi hR' hc, fun r w'' he => ?_⟩
    obtain ⟨hexp, hR''⟩ := step hi hR' hc he
    exact ih _ hexp hR''

end Prog.Obeys

/-! ## The calls of a program -/

/-- The monitor that knows nothing and allows the calls with a property. -/
def Monitor.only (P : σ.Call → Prop) : Monitor σ Unit := ⟨fun _ => P, fun _ _ _ => True, fun _ _ _ => ()⟩

/-- Whatever it is answered, the program makes only calls with a property and returns as `post` says. -/
abbrev Prog.Only (P : σ.Call → Prop) (post : α → Prop) (p : Prog σ α) : Prop :=
  p.Obeys (Monitor.only P) (fun a _ => post a) ()

/-- What a program that may fail returns when it does not. -/
abbrev Prog.OkPost (post : α → Prop) : Except ε α → Prop := fun r => ∀ a, r = .ok a → post a

namespace Prog.Only

variable {P : σ.Call → Prop} {post : α → Prop}

theorem ask (hc : P c) (hf : ∀ r, (f r).Only P post) : (Prog.ask c >>= f).Only P post :=
  Obeys.ask hc fun r _ => hf r

variable {p : Prog σ α}

theorem bind {post' : β → Prop} {f : α → Prog σ β} (h : p.Only P post)
    (hf : ∀ a, post a → (f a).Only P post') : (p >>= f).Only P post' :=
  Obeys.bind h fun a _ ha => hf a ha

/-- A step of a program that may fail: an error ends it. -/
theorem bindExcept {post' : β → Prop} {p : ExceptT ε (Prog σ) α} {f : α → ExceptT ε (Prog σ) β}
    (h : p.run.Only P (OkPost post)) (hf : ∀ a, post a → (f a).run.Only P (OkPost post')) :
    (p >>= f).run.Only P (OkPost post') := by
  apply Only.bind h
  intro r hr
  cases r with
  | error e => exact .pure (fun b hb => nomatch hb)
  | ok a => exact hf a (hr a rfl)

/-- Another error in its place. -/
theorem adapt {ε' : Type} {p : ExceptT ε (Prog σ) α} (f : ε → ε') (h : p.run.Only P (OkPost post)) :
    (p.adapt f).run.Only P (OkPost post) := by
  apply Only.bind h
  intro r hr
  cases r with
  | error e => exact .pure (fun b hb => nomatch hb)
  | ok a => exact .pure (fun b hb => hr b (congrArg Except.ok (Except.ok.inj hb)))

theorem mono (h : p.Only P post) (hpost : ∀ a, post a → post' a) : p.Only P post' :=
  Obeys.mono h fun a _ => hpost a

theorem weaken (h : p.Only P post) (hP : ∀ c, P c → P' c) : p.Only P' post := by
  induction p with
  | ret a =>
    cases h with
    | ret h => exact .ret h
  | call c k ih =>
    cases h with
    | call hc hk => exact .call (hP c hc) fun r he => ih r (hk r he)

/-- What is known of every result stays known through another signature. -/
theorem via {Q : τ.Call → Prop} (call : τ.Call → σ.Call) (back : ∀ c, σ.Ans (call c) → τ.Ans c)
    (hcall : ∀ c, Q c → P (call c)) {p : Prog τ α} (h : p.Only Q post) : (p.via call back).Only P post := by
  induction p with
  | ret a =>
    cases h with
    | ret h => exact .ret h
  | call c k ih =>
    cases h with
    | call hc hk => exact .call (hcall c hc) fun r _ => ih (back c r) (hk _ trivial)

/-- A program does whatever it does. -/
theorem any (p : Prog σ α) : p.Only (fun _ => True) (fun _ => True) := by
  induction p with
  | ret a => exact .ret trivial
  | call c k ih => exact .call trivial fun r _ => ih r

theorem anyOk (p : ExceptT ε (Prog σ) α) : p.run.Only (fun _ => True) (OkPost fun _ => True) :=
  (any p.run).mono fun _ _ _ _ => trivial

theorem eval (h : p.Only P post) (oracle : Trace σ → (c : σ.Call) → σ.Ans c) (tr : Trace σ) :
    post (p.eval oracle tr).1 ∧ ∃ new, (p.eval oracle tr).2 = new ++ tr ∧ ∀ x ∈ new, P x.1 := by
  induction p generalizing tr with
  | ret a =>
    cases h with
    | ret h => exact ⟨h, [], rfl, fun _ hx => absurd hx not_mem_nil⟩
  | call c k ih =>
    cases h with
    | call hc hk =>
      obtain ⟨hpost, new, hnew, hP⟩ := ih (oracle tr c) (hk _ trivial) (⟨c, oracle tr c⟩ :: tr)
      refine ⟨hpost, new ++ [⟨c, oracle tr c⟩], by simpa [Prog.eval] using hnew, ?_⟩
      intro x hx
      obtain hx | hx := mem_append.mp hx
      · exact hP x hx
      · rw [mem_singleton.mp hx]
        exact hc

end Prog.Only

/-- The calls of the threads of a pool: what is known of every program a request may start is known of
what is left of it. -/
theorem Pool.only_run {m : Machine σ Q W} {P : Q → σ.Call → Prop} (hentry : ∀ q, (m.entry q).Only (P q) fun _ => True)
    {w : W} {es : List (Pool.Ev σ Q)} {s : Pool σ Q W} (hr : Run (Pool.Step m) (Pool.start w) es s) :
    ∀ t th, s.thread t = some th → th.prog.Only (P th.origin) fun _ => True := by
  refine hr.inv (I := fun s => ∀ t th, s.thread t = some th → th.prog.Only (P th.origin) fun _ => True) ?_
    (by simp [Pool.start])
  intro s e s' hi hs t th hth
  obtain ⟨q, -, -, rfl⟩ | ⟨q, c, k, r, -, hthread, rfl⟩ | ⟨hold, -⟩ := hs.thread_cases hth
  · exact hentry q
  · cases hi _ _ hthread with
    | call _ hk => exact hk r trivial
  · exact hi t th hold

/-! ## Calls in their history -/

/-- The monitor that knows all calls so far with their answers. -/
def Monitor.history (allows : Prog.Trace σ → σ.Call → Prop) : Monitor σ (Prog.Trace σ) :=
  ⟨allows, fun _ _ _ => True, fun tr c r => ⟨c, r⟩ :: tr⟩

variable {allows : Prog.Trace σ → σ.Call → Prop}

/-- Calls that are allowed whatever came before. -/
theorem Prog.Only.history {P : σ.Call → Prop} {post : α → Prop} {p : Prog σ α} (h : p.Only P post)
    (hP : ∀ tr c, P c → allows tr c) (tr : Prog.Trace σ) :
    p.Obeys (Monitor.history allows) (fun a tr' => post a ∧ ∃ new, tr' = new ++ tr ∧ ∀ x ∈ new, P x.1) tr := by
  induction p generalizing tr with
  | ret a =>
    cases h with
    | ret h => exact .ret ⟨h, [], rfl, fun _ hx => absurd hx not_mem_nil⟩
  | call c k ih =>
    cases h with
    | call hc hk =>
      refine .call (hP tr c hc) fun r _ => (ih r (hk r trivial) _).mono ?_
      rintro a tr' ⟨hpost, new, rfl, hnew⟩
      refine ⟨hpost, new ++ [⟨c, r⟩], by simp [Monitor.history], ?_⟩
      intro x hx
      obtain hx | hx := mem_append.mp hx
      · exact hnew x hx
      · rw [mem_singleton.mp hx]
        exact hc

theorem Prog.Obeys.eval_history {post : α → Prog.Trace σ → Prop} {p : Prog σ α} {tr : Prog.Trace σ}
    (h : p.Obeys (Monitor.history allows) post tr) (oracle : Prog.Trace σ → (c : σ.Call) → σ.Ans c)
    {later earlier : Prog.Trace σ} {c : σ.Call} {r : σ.Ans c} (hsplit : (p.eval oracle tr).2 = later ++ ⟨c, r⟩ :: earlier)
    (hlen : tr.length ≤ earlier.length) : allows earlier c := by
  induction p generalizing tr with
  | ret a =>
    have := congrArg length hsplit
    simp only [Prog.eval, length_append, length_cons] at this
    omega
  | call c' k ih =>
    cases h with
    | call hc hk =>
      by_cases hlt : tr.length < earlier.length
      · exact ih _ (hk _ trivial) hsplit hlt
      · -- this is the call in question: the trace only grows in front of it
        obtain ⟨new, hnew⟩ := Prog.eval_suffix oracle (k (oracle tr c')) (⟨c', oracle tr c'⟩ :: tr)
        have heq := hsplit.symm.trans hnew.symm
        obtain ⟨-, hcons⟩ := append_inj' heq (by simp; omega)
        injection hcons with hcall htr
        subst htr
        injection hcall with hcc
        subst hcc
        exact hc

end Dirextalk.Lib

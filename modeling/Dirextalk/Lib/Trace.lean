/-
  Dirextalk.Lib.Trace — monitors for programs that may return an error, what runs of one
  program alone leave (`Prog.Triple`), and what the threads of a pool have obeyed.
-/
import Dirextalk.Lib.Monitor

namespace Dirextalk.Lib

variable {σ τ : Sig} {α β ε ε' K Q W : Type}

/-- What a program that may fail leaves when it does not. -/
abbrev Prog.OkAt (post : α → K → Prop) : Except ε α → K → Prop := fun r κ => ∀ a, r = .ok a → post a κ

namespace Prog.Obeys

variable {post : α → K → Prop}

/-- A program that obeys a monitor also obeys one that knows less, with its calls made through another signature. -/
theorem via {K' : Type} {M : Monitor σ K'} {N : Monitor τ K} {post' : α → K' → Prop} (f : K → K') (call : τ.Call → σ.Call)
    (back : ∀ c, σ.Ans (call c) → τ.Ans c) (hallows : ∀ κ c, N.allows κ c → M.allows (f κ) (call c))
    (hexpects : ∀ κ c r, M.expects (f κ) (call c) r → N.expects κ c (back c r))
    (hnext : ∀ κ c r, f (N.next κ c (back c r)) = M.next (f κ) (call c) r) (hpost : ∀ a κ, post a κ → post' a (f κ))
    {p : Prog τ α} {κ : K} (h : p.Obeys N post κ) : (p.via call back).Obeys M post' (f κ) := by
  induction h with
  | ret h => exact .ret (hpost _ _ h)
  | call hc _ ih =>
    refine .call (hallows _ _ hc) fun r hr => ?_
    rw [← hnext]
    exact ih _ (hexpects _ _ _ hr)

variable {M : Monitor τ K} {κ : K} {f : α → ExceptT ε (Prog τ) β} {p : ExceptT ε (Prog τ) α}

/-- A step of a program that may fail, for any monitor: an error ends it with what is known then. -/
theorem bindExcept {post : Except ε α → K → Prop} {post' : Except ε β → K → Prop}
    (h : p.run.Obeys M post κ) (herror : ∀ e κ', post (.error e) κ' → post' (.error e) κ')
    (hok : ∀ a κ', post (.ok a) κ' → (f a).run.Obeys M post' κ') : (p >>= f).run.Obeys M post' κ := by
  apply Obeys.bind h
  intro r κ' hpost
  cases r with
  | error e => exact .ret (herror e κ' hpost)
  | ok a => exact hok a κ' hpost

theorem seqOk
    (h : p.run.Obeys M (OkAt post) κ) (hf : ∀ a κ', post a κ' → (f a).run.Obeys M (OkAt post') κ') :
    (p >>= f).run.Obeys M (OkAt post') κ :=
  bindExcept h (fun _ _ _ _ hb => nomatch hb) fun a κ' hpost => hf a κ' (hpost a rfl)

theorem pureOk (h : post a κ) : (Pure.pure a : ExceptT ε (Prog τ) α).run.Obeys M (OkAt post) κ := by
  refine .pure fun b hb => ?_
  cases hb
  exact h

theorem throwOk (e : ε) : (throw e : ExceptT ε (Prog τ) α).run.Obeys M (OkAt post) κ :=
  .pure fun _ hb => nomatch hb

theorem liftOk {p : Prog τ α} (h : p.Obeys M post κ) :
    (ExceptT.lift p : ExceptT ε (Prog τ) α).run.Obeys M (OkAt post) κ := by
  apply Obeys.bind h
  intro a κ' hpost
  refine .pure fun b hb => ?_
  cases hb
  exact hpost

end Prog.Obeys

/-! ## A run alone -/

/-- A run of a program alone in a world, with its calls and their answers, oldest first. -/
inductive Prog.Exec (exec : (c : σ.Call) → W → σ.Ans c → W → Prop) : Prog σ α → W → Prog.Trace σ → α → W → Prop where
  | ret (a : α) (w : W) : Exec exec (.ret a) w [] a w
  | call {c : σ.Call} {k : σ.Ans c → Prog σ α} {w w' w'' : W} {r : σ.Ans c} {tr : Prog.Trace σ} {a : α}
      (hexec : exec c w r w') (hrest : Exec exec (k r) w' tr a w'') : Exec exec (.call c k) w (⟨c, r⟩ :: tr) a w''

/-- What a program that obeys a monitor leaves behind, if each of its calls keeps what the monitor knows
true of the world; `Good` holds of the answers it gets. -/
theorem Prog.Obeys.exec {M : Monitor σ K} {exec : (c : σ.Call) → W → σ.Ans c → W → Prop} {R : K → W → Prop}
    {Good : (c : σ.Call) → σ.Ans c → Prop} {post : α → K → Prop}
    (step : ∀ {κ c w r w'}, R κ w → M.allows κ c → exec c w r w' → Good c r → M.expects κ c r ∧ R (M.next κ c r) w')
    {p : Prog σ α} {κ : K} {w w' : W} {tr : Prog.Trace σ} {a : α} (h : p.Obeys M post κ) (hR : R κ w)
    (hx : p.Exec exec w tr a w') (hgood : ∀ x ∈ tr, Good x.1 x.2) : ∃ κ', post a κ' ∧ R κ' w' := by
  induction hx generalizing κ with
  | ret a w =>
    cases h with
    | ret h => exact ⟨κ, h, hR⟩
  | call hexec _ ih =>
    cases h with
    | call hc hk =>
      obtain ⟨hexp, hR'⟩ := step hR hc hexec (hgood _ List.mem_cons_self)
      exact ih (hk _ hexp) hR' fun x hx => hgood x (List.mem_cons_of_mem _ hx)

/-- A run alone, each call answered by a function of the world. -/
def Prog.perform (reply : (c : σ.Call) → W → σ.Ans c × W) : Prog σ α → W → α × W
  | .ret a, w => (a, w)
  | .call c k, w => (k (reply c w).1).perform reply (reply c w).2

namespace Prog

variable {reply : (c : σ.Call) → W → σ.Ans c × W}

theorem perform_bind (p : Prog σ α) (f : α → Prog σ β) (w : W) :
    (p >>= f).perform reply w = (f (p.perform reply w).1).perform reply (p.perform reply w).2 := by
  induction p generalizing w with
  | ret a => rfl
  | call c k ih => exact ih (reply c w).1 (reply c w).2

/-- A step of a program that may fail, if it goes through. -/
theorem perform_bindOk {p : ExceptT ε (Prog σ) α} {f : α → ExceptT ε (Prog σ) β} {w w' : W} {a : α}
    (h : p.run.perform reply w = (.ok a, w')) : (p >>= f).run.perform reply w = (f a).run.perform reply w' := by
  show (p.run >>= ExceptT.bindCont f).perform reply w = _
  rw [perform_bind, h]
  rfl

theorem perform_unchanged (hkeep : ∀ c w, (reply c w).2 = w) (p : Prog σ α) (w : W) : (p.perform reply w).2 = w := by
  induction p generalizing w with
  | ret a => rfl
  | call c k ih => exact (ih (reply c w).1 (reply c w).2).trans (hkeep c w)

theorem perform_exec (hfair : ∀ c w, exec c w (reply c w).1 (reply c w).2)
    (p : Prog σ α) (w : W) : ∃ tr, p.Exec exec w tr (p.perform reply w).1 (p.perform reply w).2 := by
  induction p generalizing w with
  | ret a => exact ⟨[], .ret a w⟩
  | call c k ih =>
    obtain ⟨tr, htr⟩ := ih (reply c w).1 (reply c w).2
    exact ⟨_, .call (hfair c w) htr⟩

end Prog

/-! ## Triples of a run alone -/

/-- Partial correctness: from a world of `P` the program returns, if at all, with an answer and a world of `Q`. -/
def Prog.Triple (exec : (c : σ.Call) → W → σ.Ans c → W → Prop) (P : W → Prop) (p : Prog σ α) (Q : α → W → Prop) : Prop :=
  ∀ w tr a w', P w → p.Exec exec w tr a w' → Q a w'

/-- What is left of a function that may return an error: `E` with the error, `Q` without. -/
def Prog.Ends (E : ε → W → Prop) (Q : α → W → Prop) : Except ε α → W → Prop
  | .ok a, w => Q a w
  | .error e, w => E e w

namespace Prog.Triple

variable {exec : (c : σ.Call) → W → σ.Ans c → W → Prop} {P P' : W → Prop} {E : ε → W → Prop} {E' : ε' → W → Prop}
  {Q Q' : α → W → Prop} {R : β → W → Prop}

theorem ret (h : ∀ w, P w → Q a w) : Triple exec P (.ret a) Q := by
  intro w tr a' w' hw hx
  cases hx
  exact h w hw

theorem call {c : σ.Call} {k : σ.Ans c → Prog σ α} {S : σ.Ans c → W → Prop} (h : ∀ w r w', P w → exec c w r w' → S r w')
    (hk : ∀ r, Triple exec (S r) (k r) Q) : Triple exec P (.call c k) Q := by
  intro w tr a w' hw hx
  cases hx with
  | call hexec hrest => exact hk _ _ _ _ _ (h _ _ _ hw hexec) hrest

theorem ask {c : σ.Call} {Q : σ.Ans c → W → Prop} (h : ∀ w r w', P w → exec c w r w' → Q r w') : Triple exec P (Prog.ask c) Q :=
  call h fun _ => ret fun _ hw => hw

variable {p : Prog σ α}

theorem bind (h : Triple exec P p Q) (hf : ∀ a, Triple exec (Q a) (f a) R) : Triple exec P (p >>= f) R := by
  induction p generalizing P with
  | ret a => exact fun w tr b w' hw hx => hf a _ _ _ _ (h _ _ _ _ hw (.ret a w)) hx
  | call c k ih =>
    intro w tr b w' hw hx
    cases hx with
    | @call _ _ _ w₁ _ r _ _ hexec hrest =>
      refine ih r (P := fun w₁ => exec c w r w₁) (fun w₁ tr a w₂ hw₁ hp => ?_) _ _ _ _ hexec hrest
      exact h _ _ _ _ hw (.call hw₁ hp)

theorem mono (h : Triple exec P p Q) (hQ : ∀ a w, Q a w → Q' a w) : Triple exec P p Q' :=
  fun w tr a w' hw hx => hQ a w' (h w tr a w' hw hx)

/-- A fact that is not of the world. -/
theorem assuming (h : φ → Triple exec P p Q) : Triple exec (fun w => P w ∧ φ) p Q :=
  fun w tr a w' hw hx => h hw.2 w tr a w' hw.1 hx

theorem ofExists {ι : Type} {P : ι → W → Prop} (h : ∀ i, Triple exec (P i) p Q) : Triple exec (fun w => ∃ i, P i w) p Q :=
  fun w tr a w' ⟨i, hw⟩ hx => h i w tr a w' hw hx

/-! ### Functions that may return an error -/

theorem pureExcept (h : ∀ w, P w → Q a w) : Triple exec P (Pure.pure a : ExceptT ε (Prog σ) α).run (Ends E Q) := ret h

theorem throwExcept (h : ∀ w, P w → E e w) : Triple exec P (throw e : ExceptT ε (Prog σ) α).run (Ends E Q) := ret h

theorem seqExcept {p : ExceptT ε (Prog σ) α} {f : α → ExceptT ε (Prog σ) β} (h : Triple exec P p.run (Ends E Q))
    (hf : ∀ a, Triple exec (Q a) (f a).run (Ends E R)) : Triple exec P (p >>= f).run (Ends E R) := by
  refine bind h fun out => ?_
  cases out with
  | error e => exact ret fun _ hw => hw
  | ok a => exact hf a

theorem monoExcept {p : ExceptT ε (Prog σ) α} {E' : ε → W → Prop} (h : Triple exec P p.run (Ends E Q))
    (hE : ∀ e w, E e w → E' e w) (hQ : ∀ a w, Q a w → Q' a w) : Triple exec P p.run (Ends E' Q') := by
  refine mono h fun out w hw => ?_
  cases out with
  | error e => exact hE e w hw
  | ok a => exact hQ a w hw

theorem adaptExcept {p : ExceptT ε (Prog σ) α} (f : ε → ε') (h : Triple exec P p.run (Ends (fun e => E' (f e)) Q)) :
    Triple exec P (p.adapt f).run (Ends E' Q) := by
  refine bind h fun out => ?_
  cases out with
  | error | ok => exact ret fun _ hw => hw

theorem liftExcept (h : Triple exec P p Q) : Triple exec P (ExceptT.lift p : ExceptT ε (Prog σ) α).run (Ends E Q) :=
  bind h fun _ => ret fun _ hw => hw

end Prog.Triple

/-! ## Threads that may return an error -/

namespace Prog.Safe

variable {m : Machine σ Q W} {o : Outline m} {t : Nat} {q : Q} {w : W} {E : ε → W → Prop} {E' : ε' → W → Prop} {A : α → W → Prop}
  {B : β → W → Prop}

/-- One call: its precondition, and what is left of it once the others have moved on. -/
theorem ask (hpre : ∀ w', o.Rely t w w' → o.Inv w' → o.Pre t q c w')
    (hpost : ∀ w' r w'' w₃, o.Rely t w w' → o.Inv w' → m.exec t q c w' r w'' → o.Rely t w'' w₃ → o.Inv w₃ → post r w₃) :
    (Prog.ask c).Safe o t q post w :=
  fun w' hrely hinv => ⟨hpre w' hrely hinv, fun r w'' hexec w₃ => hpost w' r w'' w₃ hrely hinv hexec⟩

theorem seqExcept (refl : ∀ t w, o.Rely t w w) {p : ExceptT ε (Prog σ) α} {f : α → ExceptT ε (Prog σ) β}
    (h : p.run.Safe o t q (Ends E A) w) (hlater : ∀ e w w', E e w → o.Rely t w w' → E e w')
    (hf : ∀ a w', o.Inv w' → A a w' → (f a).run.Safe o t q (Ends E B) w') : (p >>= f).run.Safe o t q (Ends E B) w := by
  refine bind refl h fun out w' hinv hout => ?_
  cases out with
  | error e => exact fun w'' hrely _ => hlater _ _ _ hout hrely
  | ok a => exact hf a w' hinv hout

theorem adaptExcept (refl : ∀ t w, o.Rely t w w) {p : ExceptT ε (Prog σ) α} (f : ε → ε')
    (h : p.run.Safe o t q (Ends (fun e => E' (f e)) A) w) (hlater : ∀ r w w', Ends E' A r w → o.Rely t w w' → Ends E' A r w') :
    (p.adapt f).run.Safe o t q (Ends E' A) w := by
  refine bind refl h fun out w' _ hout => ?_
  cases out with
  | error e => exact fun w'' hrely _ => hlater (.error (f e)) _ _ hout hrely
  | ok a => exact fun w'' hrely _ => hlater (.ok a) _ _ hout hrely

end Prog.Safe

/-! ## The threads of a pool -/

/-- Every thread of a pool obeys its monitor, at knowledge that `R` ties to the events so far and the world;
`fin` is what is known at its end. -/
def Pool.Obeying (M : Q → Monitor σ K) (fin : K → Prop) (R : List (Pool.Ev σ Q) → Nat → Q → K → W → Prop)
    (es : List (Pool.Ev σ Q)) (s : Pool σ Q W) : Prop :=
  ∀ t th, s.thread t = some th → ∃ κ, th.prog.Obeys (M th.origin) (fun _ => fin) κ ∧ R es t th.origin κ s.world

/-- An invariant of a pool whose threads obey a monitor: `J` holds of the events so far and the pool, to which `R`
ties what the monitor knows of a thread. A thread may be judged by what all of them know. -/
theorem Pool.obeying_run (κ₀ : Q → K) {m : Machine σ Q W} {step : Pool σ Q W → Pool.Ev σ Q → Pool σ Q W → Prop}
    (hsub : ∀ {s e s'}, step s e s' → Pool.Step m s e s') {M : Q → Monitor σ K} {fin : K → Prop}
    {J : List (Pool.Ev σ Q) → Pool σ Q W → Prop} {R : List (Pool.Ev σ Q) → Nat → Q → K → W → Prop}
    (keep : ∀ {es s e s' t th κ}, J es s → Pool.Obeying M fin R es s → s.thread t = some th → s'.thread t = some th →
      th.prog.Obeys (M th.origin) (fun _ => fin) κ → R es t th.origin κ s.world → step s e s' → (∀ c r, e ≠ .answer t c r) →
      ∃ κ', th.prog.Obeys (M th.origin) (fun _ => fin) κ' ∧ R (es ++ [e]) t th.origin κ' s'.world)
    (arrive : ∀ {es s q s'}, J es s → Pool.Obeying M fin R es s → step s (.arrive q) s' →
      (m.entry q).Obeys (M q) (fun _ => fin) (κ₀ q) ∧ R (es ++ [.arrive q]) s.next q (κ₀ q) s'.world ∧ J (es ++ [.arrive q]) s')
    (crash : ∀ {es s s'}, J es s → step s .crash s' → J (es ++ [.crash]) s')
    (exec : ∀ {es s t q c k r s' κ}, J es s → Pool.Obeying M fin R es s → R es t q κ s.world → s.thread t = some ⟨q, .call c k⟩ →
      (M q).allows κ c → step s (.answer t c r) s' → (M q).expects κ c r ∧
        R (es ++ [.answer t c r]) t q ((M q).next κ c r) s'.world ∧ J (es ++ [.answer t c r]) s')
    {w : W} {es : List (Pool.Ev σ Q)} {s : Pool σ Q W} (hr : Run step (Pool.start w) es s) (h0 : J [] (Pool.start w)) :
    J es s ∧ Pool.Obeying M fin R es s := by
  refine hr.inv_trace (I := fun es s => J es s ∧ Pool.Obeying M fin R es s) ?_ ⟨h0, by simp [Pool.Obeying, Pool.start]⟩
  intro es s e s' hI hstep
  obtain ⟨hJ, hthreads⟩ := hI
  -- what the step does for the thread that takes it
  have hactive : J (es ++ [e]) s' ∧
      (∀ q, e = .arrive q → (m.entry q).Obeys (M q) (fun _ => fin) (κ₀ q) ∧ R (es ++ [e]) s.next q (κ₀ q) s'.world) ∧
      ∀ t q c k r, e = .answer t c r → s.thread t = some ⟨q, .call c k⟩ →
        ∃ κ, (k r).Obeys (M q) (fun _ => fin) κ ∧ R (es ++ [e]) t q κ s'.world := by
    cases e with
    | arrive q =>
      obtain ⟨hentry, hR', hJ'⟩ := arrive hJ hthreads hstep
      refine ⟨hJ', fun q' h => ?_, fun t q' c k r h => ?_⟩
      · cases h
        exact ⟨hentry, hR'⟩
      · cases h
    | crash =>
      refine ⟨crash hJ hstep, fun q h => ?_, fun t q c k r h => ?_⟩
      · cases h
      · cases h
    | answer u c r =>
      cases hsub hstep with
      | @answer _ q _ k _ w' hthread _ =>
        obtain ⟨κ, hobeys, hR⟩ := hthreads _ _ hthread
        cases hobeys with
        | call hc hk =>
          obtain ⟨hexp, hR', hJ'⟩ := exec hJ hthreads hR hthread hc hstep
          refine ⟨hJ', fun q' h => ?_, fun t q' c' k' r' h hthread' => ?_⟩
          · cases h
          · cases h
            rw [hthread] at hthread'
            cases hthread'
            exact ⟨_, hk r hexp, hR'⟩
  refine ⟨hactive.1, fun t th hth => ?_⟩
  obtain ⟨q, rfl, rfl, rfl⟩ | ⟨q, c, k, r, rfl, hthread, rfl⟩ | ⟨hold, hother⟩ := (hsub hstep).thread_cases hth
  · exact ⟨κ₀ q, hactive.2.1 q rfl⟩
  · exact hactive.2.2 t q c k r rfl hthread
  · obtain ⟨κ, hobeys, hR⟩ := hthreads t th hold
    exact keep hJ hthreads hold hth hobeys hR hstep hother

end Dirextalk.Lib

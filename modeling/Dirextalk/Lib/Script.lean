/-
  Dirextalk.Lib.Script — runs of a pool that are written down as scripts and computed.

  A move starts a thread, or lets a thread make its next call, with a function that
  answers whatever call that is. `play_run`: if the answers are ones the machine may give,
  what `play` computes is reached by a run with the events `events` computes. `play_run_under`
  does the same for scripts whose steps pass a check, which calls that may have to wait need.
-/
import Dirextalk.Lib.Prog

namespace Dirextalk.Lib

open List

variable {σ : Sig} {Q W : Type}

abbrev Reply (σ : Sig) (W : Type) := (c : σ.Call) → W → σ.Ans c × W

inductive Move (σ : Sig) (Q W : Type) where
  | arrive (q : Q)
  | call (t : Nat) (reply : Reply σ W)

namespace Pool

def arrived (m : Machine σ Q W) (q : Q) (s : Pool σ Q W) : Pool σ Q W :=
  { s with thread := Function.update s.thread s.next (some ⟨q, m.entry q⟩), next := s.next + 1 }

def answered (t : Nat) (reply : Reply σ W) (s : Pool σ Q W) : Option (Pool σ Q W) :=
  match s.thread t with
  | some ⟨q, .call c k⟩ =>
    some { s with world := (reply c s.world).2, thread := Function.update s.thread t (some ⟨q, k (reply c s.world).1⟩) }
  | _ => none

def play (m : Machine σ Q W) : List (Move σ Q W) → Pool σ Q W → Option (Pool σ Q W)
  | [], s => some s
  | .arrive q :: moves, s => play m moves (s.arrived m q)
  | .call t reply :: moves, s => (s.answered t reply).bind (play m moves)

def events (m : Machine σ Q W) : List (Move σ Q W) → Pool σ Q W → List (Ev σ Q)
  | [], _ => []
  | .arrive q :: moves, s => .arrive q :: events m moves (s.arrived m q)
  | .call t reply :: moves, s =>
    match s.thread t, s.answered t reply with
    | some ⟨_, .call c _⟩, some s' => .answer t c (reply c s.world).1 :: events m moves s'
    | _, _ => []

variable {m : Machine σ Q W} {s s' : Pool σ Q W}

/-- The answers of a move are ones the machine may give. -/
def Fair (m : Machine σ Q W) : Move σ Q W → Prop
  | .arrive _ => True
  | .call t reply => ∀ q c w, m.exec t q c w (reply c w).1 (reply c w).2

variable {t : Nat} {reply : Reply σ W} {moves : List (Move σ Q W)}

theorem answered_cases (h : s.answered t reply = some s') : ∃ q c k, s.thread t = some ⟨q, .call c k⟩ ∧
      s' = { s with world := (reply c s.world).2, thread := Function.update s.thread t (some ⟨q, k (reply c s.world).1⟩) } := by
  unfold answered at h
  split at h
  · rename_i q c k hthread
    cases h
    exact ⟨q, c, k, hthread, rfl⟩
  · cases h

theorem answered_step (hfair : Fair m (.call t reply)) (h : s.answered t reply = some s') :
    ∃ c r, Step m s (.answer t c r) s' := by
  obtain ⟨q, c, k, hthread, rfl⟩ := answered_cases h
  exact ⟨c, _, .answer hthread (hfair q c s.world)⟩

theorem play_run (hfair : ∀ move ∈ moves, Fair m move) (h : play m moves s = some s') :
    Run (Step m) s (events m moves s) s' := by
  induction moves generalizing s with
  | nil =>
    cases h
    exact .nil _
  | cons move moves ih =>
    have hrest : ∀ move ∈ moves, Fair m move := fun x hx => hfair x (mem_cons_of_mem _ hx)
    cases move with
    | arrive q => exact .cons (.arrive _ q) (ih hrest h)
    | call t reply =>
      obtain ⟨mid, hmid, hplay⟩ := Option.bind_eq_some_iff.mp h
      obtain ⟨q, c, k, hthread, hafter⟩ := answered_cases hmid
      have hstep : Step m s (.answer t c (reply c s.world).1) mid := by
        rw [hafter]
        exact .answer hthread (hfair _ mem_cons_self q c s.world)
      rw [events, hthread, hmid]
      exact .cons hstep (ih hrest hplay)

/-! ## Scripts whose steps are checked -/

/-- Every step of a script passes a check where it is taken. -/
def passes (m : Machine σ Q W) (check : Pool σ Q W → Ev σ Q → Bool) : List (Move σ Q W) → Pool σ Q W → Bool
  | [], _ => true
  | .arrive q :: moves, s => check s (.arrive q) && passes m check moves (s.arrived m q)
  | .call t reply :: moves, s =>
    match s.thread t, s.answered t reply with
    | some ⟨_, .call c _⟩, some s' => check s (.answer t c (reply c s.world).1) && passes m check moves s'
    | _, _ => false

/-- The answers of a move are ones the machine may give where they pass the check. -/
def FairWhere (m : Machine σ Q W) (check : Pool σ Q W → Ev σ Q → Bool) : Move σ Q W → Prop
  | .arrive _ => True
  | .call t reply =>
    ∀ s q c, check s (.answer t c (reply c s.world).1) = true → m.exec t q c s.world (reply c s.world).1 (reply c s.world).2

variable {check : Pool σ Q W → Ev σ Q → Bool}

theorem play_run_under (hfair : ∀ move ∈ moves, FairWhere m check move)
    (hpasses : passes m check moves s = true) (h : play m moves s = some s') :
    Run (Under (Step m) fun s e _ => check s e = true) s (events m moves s) s' := by
  induction moves generalizing s with
  | nil =>
    cases h
    exact .nil _
  | cons move moves ih =>
    have hrest : ∀ move ∈ moves, FairWhere m check move := fun x hx => hfair x (mem_cons_of_mem _ hx)
    cases move with
    | arrive q =>
      obtain ⟨hcheck, hpasses⟩ := Bool.and_eq_true_iff.mp hpasses
      exact .cons ⟨.arrive _ q, hcheck⟩ (ih hrest hpasses h)
    | call t reply =>
      obtain ⟨mid, hmid, hplay⟩ := Option.bind_eq_some_iff.mp h
      obtain ⟨q, c, k, hthread, hafter⟩ := answered_cases hmid
      rw [passes, hthread, hmid] at hpasses
      obtain ⟨hcheck, hpasses⟩ := Bool.and_eq_true_iff.mp hpasses
      have hstep : Step m s (.answer t c (reply c s.world).1) mid := by
        rw [hafter]
        exact .answer hthread (hfair _ mem_cons_self s q c hcheck)
      rw [events, hthread, hmid]
      exact .cons ⟨hstep, hcheck⟩ (ih hrest hpasses hplay)

/-- A script and one more call of thread `t`, and what is seen of it: `f` gets the events of the script and the
pools before and after the call. -/
def observe {α : Type} (m : Machine σ Q W) (check : Pool σ Q W → Ev σ Q → Bool) (moves : List (Move σ Q W)) (t : Nat)
    (reply : Reply σ W) (f : List (Ev σ Q) → Pool σ Q W → Pool σ Q W → α) (s : Pool σ Q W) : Option α :=
  (play m moves s).bind fun mid =>
    match mid.thread t, mid.answered t reply with
    | some ⟨_, .call c _⟩, some last =>
      if passes m check moves s && check mid (.answer t c (reply c mid.world).1) then
        some (f (events m moves s) mid last) else none
    | _, _ => none

theorem observe_run
    (hfair : ∀ move ∈ moves ++ [.call t reply], FairWhere m check move)
    (h : observe m check moves t reply f s = some a) :
      ∃ es mid c r last, Run (Under (Step m) fun s e _ => check s e = true) s es mid ∧
      Under (Step m) (fun s e _ => check s e = true) mid (.answer t c r) last ∧ f es mid last = a := by
  obtain ⟨mid, hplay, h⟩ := Option.bind_eq_some_iff.mp h
  split at h
  · rename_i q c k last hthread hlast
    split at h
    · rename_i hpasses
      obtain ⟨hpasses, hcheck⟩ := Bool.and_eq_true_iff.mp hpasses
      cases h
      have hmoves : ∀ move ∈ moves, FairWhere m check move := fun move hmove => hfair move (mem_append_left _ hmove)
      have hcall := hfair (.call t reply) (mem_append_right _ mem_cons_self)
      obtain ⟨q', c', k', hthread', rfl⟩ := answered_cases hlast
      rw [hthread] at hthread'
      cases hthread'
      exact ⟨_, mid, c, _, _, play_run_under hmoves hpasses hplay, ⟨.answer hthread (hcall mid q c hcheck), hcheck⟩, rfl⟩
    · cases h
  · cases h

structure Arrived (qs : List Q) (s : Pool σ Q W) : Prop where
  next : s.next = qs.length
  origin : ∀ t, (s.thread t).map (·.origin) = qs[t]?

def arrivals : List (Move σ Q W) → List Q
  | [] => []
  | .arrive q :: moves => q :: arrivals moves
  | .call _ _ :: moves => arrivals moves

variable {qs : List Q}

theorem Arrived.arrived (h : Arrived qs s) (q : Q) : Arrived (qs ++ [q]) (s.arrived m q) := by
  refine ⟨by simp [Pool.arrived, h.next], fun t => ?_⟩
  by_cases ht : t = s.next
  · subst ht
    simp [Pool.arrived, h.next]
  · have hold := h.origin t
    rw [h.next] at ht
    simp only [Pool.arrived, h.next, Function.update_of_ne ht, hold, getElem?_append]
    split
    · rfl
    · rw [getElem?_eq_none (by omega), getElem?_eq_none (by simp; omega)]

theorem Arrived.answered (h : Arrived qs s) (ha : s.answered t reply = some s') : Arrived qs s' := by
  obtain ⟨q, c, k, hthread, rfl⟩ := answered_cases ha
  refine ⟨h.next, fun u => ?_⟩
  by_cases hu : u = t
  · subst hu
    have horigin := h.origin u
    rw [hthread] at horigin
    simpa using horigin
  · simpa only [Function.update_of_ne hu] using h.origin u

theorem Arrived.play (h : Arrived qs s) (hp : play m moves s = some s') : Arrived (qs ++ arrivals moves) s' := by
  induction moves generalizing s qs with
  | nil =>
    cases hp
    simpa [arrivals] using h
  | cons move moves ih =>
    cases move with
    | arrive q => simpa [arrivals] using ih (h.arrived q) hp
    | call t reply =>
      obtain ⟨mid, hmid, hplay⟩ := Option.bind_eq_some_iff.mp hp
      exact ih (h.answered hmid) hplay

/-- The thread with number `t` is the one of the `t`-th request of the script. -/
theorem play_origin (hp : play m moves (start w) = some s)
    (hq : (arrivals moves)[t]? = some q) : ∃ p, s.thread t = some ⟨q, p⟩ := by
  have hstart : Arrived [] (start w : Pool σ Q W) := ⟨rfl, by simp [start]⟩
  have horigin := (hstart.play hp).origin t
  rw [nil_append, hq, Option.map_eq_some_iff] at horigin
  obtain ⟨⟨q', p⟩, hthread, rfl⟩ := horigin
  exact ⟨p, hthread⟩

end Pool

end Dirextalk.Lib

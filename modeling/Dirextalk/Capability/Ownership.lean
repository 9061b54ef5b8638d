/-
  Dirextalk.Capability.Ownership — who holds the execution of an operation.

  A thread becomes the holder of an operation when its `start` creates the row or its
  `claimReplay` moves it from uncertain to running, and stops being it with the call that
  settles the execution. While an operation is held its state is pending, running or
  cancelled, so neither of the two can happen again (`Held`). The history says which rows
  exist and who may have begun an execution (`Recorded`).

  `Change` lists what a call can do to holders, running executions, rows and history.
  From it: a call keeps the invariant (`Change.excl`) and leaves alone what another thread
  relies on (`Change.rely`), over every lawful store.
-/
import Dirextalk.Capability.System

namespace Dirextalk.Capability

open Lib Lib.Go List
open Function (update update_of_ne update_self)

variable {B : Backend} {Ok : B.Store → Prop} {w w' : World B} {t u : Nat} {id : String} {c : SysCall}

def Act.isCreated (id : String) : Act → Bool
  | .created _ i => i == id
  | _ => false

def Act.isBegan (t : Nat) : Act → Bool
  | .began u _ => u == t
  | _ => false

/-- The states of an operation whose execution has a holder. -/
def held : List OperationState := [.pending, .running, .cancelled]

structure Held (view : View) (holder : String → Option Nat) (active : String → List Nat) : Prop where
  state : ∀ id t, holder id = some t → ∃ o, view id = some o ∧ o.state ∈ held
  active : ∀ id, active id = [] ∨ ∃ t, active id = [t] ∧ holder id = some t

structure Recorded (present : String → Prop) (history : List Act) : Prop where
  rows : ∀ id, present id ↔ (∃ t, .created t id ∈ history) ∨ .unacknowledged id ∈ history
  creations : ∀ id, history.countP (Act.isCreated id) ≤ 1
  began : ∀ t id, .began t id ∈ history → .created t id ∈ history ∨ .claimed t id ∈ history
  executions : ∀ t, history.countP (Act.isBegan t) ≤ 1

structure Excl (B : Backend) (Ok : B.Store → Prop) (w : World B) : Prop where
  ok : Ok w.store
  held : Held (B.view w.store) w.holder w.active
  recorded : Recorded (fun id => (B.view w.store id).isSome = true) w.history

def Mine (q : Request) (id : String) (w : World B) : Prop :=
  ∃ req, q = .start req ∧ req.operationID = id ∧ ∃ o, B.view w.store id = some o ∧ o.key = req.record.key

structure Idle (t : Nat) (w : World B) : Prop where
  unused : ∀ i, .began t i ∉ w.history
  outside : ∀ i, t ∉ w.active i

structure Owns (t : Nat) (id : String) (w : World B) : Prop extends Idle t w where
  holder : w.holder id = some t
  source : .created t id ∈ w.history ∨ .claimed t id ∈ w.history

structure Inside (t : Nat) (id : String) (w : World B) : Prop where
  holder : w.holder id = some t
  inside : t ∈ w.active id

structure Settling (t : Nat) (id : String) (w : World B) : Prop where
  holder : w.holder id = some t
  outside : t ∉ w.active id

def CallPre (t : Nat) (q : Request) (w : World B) : SysCall → Prop
  | .wrapInput id _ _ => Settling t id w ∧ Mine q id w
  | .enter id => Owns t id w ∧ Mine q id w
  | .leave id => Inside t id w ∧ Mine q id w
  | .handler ctx _ => Inside t ctx.operationID w ∧ Mine q ctx.operationID w
  | .store (.start record) => ∃ req, q = .start req ∧ record = req.record
  | .store (.claimReplay id) => Mine q id w
  | .store (.finish id _ _) | .store (.markUncertain id _) => Settling t id w ∧ Mine q id w
  | .store (.cancel id) => q = .cancel id
  | .store (.deletePrepared id) => Mine q id w ∨ q = .cancel id

/-- What thread `t` may rely on: what it holds stays its own, what it did is on record, rows stay. -/
structure ExclRely (t : Nat) (w w' : World B) : Prop where
  holder : ∀ id, w.holder id = some t → w'.holder id = some t
  active : ∀ id, t ∈ w'.active id ↔ t ∈ w.active id
  history : w.history ⊆ w'.history
  began : ∀ id, .began t id ∈ w'.history → .began t id ∈ w.history
  rows : ∀ id o, B.view w.store id = some o → ∃ o', B.view w'.store id = some o' ∧ o'.key = o.key

def exclusion (B : Backend) (Ok : B.Store → Prop) (registry : Registry) : Outline (server B registry) where
  Inv := Excl B Ok
  Rely := ExclRely
  Pre t q c w := CallPre t q w c
  Fresh := Idle

/-! ## What the threads rely on -/

theorem ExclRely.refl (t : Nat) (w : World B) : ExclRely t w w :=
  ⟨fun _ h => h, fun _ => .rfl, fun _ h => h, fun _ h => h, fun _ o h => ⟨o, h, rfl⟩⟩

theorem ExclRely.trans (h : ExclRely t w₁ w₂) (h' : ExclRely t w₂ w₃) : ExclRely t w₁ w₃ where
  holder id hid := h'.holder id (h.holder id hid)
  active id := (h'.active id).trans (h.active id)
  history := List.Subset.trans h.history h'.history
  began id hid := h.began id (h'.began id hid)
  rows id o ho := by
    obtain ⟨o₂, ho₂, hk₂⟩ := h.rows id o ho
    obtain ⟨o₃, ho₃, hk₃⟩ := h'.rows id o₂ ho₂
    exact ⟨o₃, ho₃, hk₃.trans hk₂⟩

section

variable (hr : ExclRely t w w')
include hr

theorem Mine.later (h : Mine q id w) : Mine q id w' := by
  obtain ⟨req, hq, hid, o, ho, hk⟩ := h
  obtain ⟨o', ho', hk'⟩ := hr.rows _ o ho
  exact ⟨req, hq, hid, o', ho', hk'.trans hk⟩

theorem Idle.later (h : Idle t w) : Idle t w' :=
  ⟨fun i hi => h.unused i (hr.began i hi), fun i hi => h.outside i ((hr.active i).mp hi)⟩

theorem Owns.later (h : Owns t id w) : Owns t id w' where
  toIdle := h.toIdle.later hr
  holder := hr.holder id h.holder
  source := h.source.imp (fun hm => hr.history hm) (fun hm => hr.history hm)

theorem Inside.later (h : Inside t id w) : Inside t id w' :=
  ⟨hr.holder id h.holder, (hr.active id).mpr h.inside⟩

theorem Settling.later (h : Settling t id w) : Settling t id w' :=
  ⟨hr.holder id h.holder, fun hi => h.outside ((hr.active id).mp hi)⟩

end

theorem Owns.settling (h : Owns t id w) : Settling t id w := ⟨h.holder, h.outside id⟩

/-- An operation whose holder is outside the handler has no execution running. -/
theorem Excl.idle (h : Excl B Ok w) (hs : Settling t id w) : w.active id = [] := by
  obtain he | ⟨u, hu, hh⟩ := h.held.active id
  · exact he
  · have heq := Option.some.inj (hh.symm.trans hs.holder)
    exact absurd (by rw [hu, heq]; exact mem_singleton_self t) hs.outside

/-! ## How holders change -/

namespace Held

variable {view view' : View} {holder : String → Option Nat} {active : String → List Nat} {o : OpView}

section

variable (h : Held view holder active)
include h

/-- An operation that is absent or uncertain has no holder. -/
theorem free (ho : ∀ o, view id = some o → o.state ∉ Capability.held) : holder id = none := by
  rcases hh : holder id with _ | u
  · rfl
  · obtain ⟨o, hv, hs⟩ := h.state id u hh
    exact absurd hs (ho o hv)

theorem acquire (hfree : holder id = none) (hs : o.state ∈ Capability.held) :
    Held (update view id (some o)) (update holder id (some t)) active where
  state i u hu := by
    by_cases he : i = id
    · subst he
      exact ⟨o, update_self .., hs⟩
    · rw [update_of_ne he] at hu ⊢
      exact h.state i u hu
  active i := by
    obtain hnil | ⟨u, hu, hh⟩ := h.active i
    · exact .inl hnil
    · have he : i ≠ id := by
        rintro rfl
        rw [hfree] at hh
        cases hh
      exact .inr ⟨u, hu, by rw [update_of_ne he]; exact hh⟩

theorem move (hs : holder id ≠ none → o.state ∈ Capability.held) : Held (update view id (some o)) holder active where
  state i u hu := by
    by_cases he : i = id
    · subst he
      exact ⟨o, update_self .., hs (by simp [hu])⟩
    · rw [update_of_ne he]
      exact h.state i u hu
  active := h.active

theorem release (hidle : active id = []) (hv : ∀ i, i ≠ id → view' i = view i) :
    Held view' (update holder id none) active where
  state i u hu := by
    have he : i ≠ id := by
      rintro rfl
      rw [update_self] at hu
      cases hu
    rw [update_of_ne he] at hu
    rw [hv i he]
    exact h.state i u hu
  active i := by
    by_cases he : i = id
    · subst he
      exact .inl hidle
    · rw [update_of_ne he]
      exact h.active i

theorem enter (hh : holder id = some t) (hidle : active id = []) :
    Held view holder (update active id (t :: active id)) where
  state := h.state
  active i := by
    by_cases he : i = id
    · subst he
      exact .inr ⟨t, by simp [hidle], hh⟩
    · rw [update_of_ne he]
      exact h.active i

theorem leave (ht : t ∈ active id) : Held view holder (update active id ((active id).erase t)) where
  state := h.state
  active i := by
    by_cases he : i = id
    · subst he
      obtain hnil | ⟨u, hu, _⟩ := h.active i
      · exact .inl (by simp [hnil])
      · have hut : t = u := by simpa [hu] using ht
        exact .inl (by simp [hu, hut])
    · rw [update_of_ne he]
      exact h.active i

end

end Held

/-! ## How the history grows -/

def Act.quiet : Act → Bool
  | .created _ _ | .unacknowledged _ | .claimed _ _ | .began _ _ => false
  | _ => true

theorem quiet_mem (hq : ∀ b ∈ acts, b.quiet = true) (ha : a.quiet = false)
    (l : List Act) : a ∈ l ++ acts ↔ a ∈ l := by
  rw [mem_append]
  refine ⟨fun h => h.resolve_right fun hin => ?_, .inl⟩
  simp [hq a hin] at ha

theorem countP_isCreated {l : List Act} : l.countP (Act.isCreated id) = 0 ↔ ∀ t, .created t id ∉ l := by
  rw [countP_eq_zero]
  refine ⟨fun h t hm => h _ hm (by simp [Act.isCreated]), fun h a ha hp => ?_⟩
  cases a <;> simp [Act.isCreated] at hp
  exact h _ (hp ▸ ha)

theorem countP_isBegan {l : List Act} : l.countP (Act.isBegan t) = 0 ↔ ∀ id, .began t id ∉ l := by
  rw [countP_eq_zero]
  refine ⟨fun h i hm => h _ hm (by simp [Act.isBegan]), fun h a ha hp => ?_⟩
  cases a <;> simp [Act.isBegan] at hp
  exact h _ (hp ▸ ha)

namespace Recorded

variable {present present' : String → Prop} {history : List Act}

theorem congr (h : Recorded present history) (hp : ∀ id, present' id ↔ present id) : Recorded present' history :=
  ⟨fun id => (hp id).trans (h.rows id), h.creations, h.began, h.executions⟩

variable {acts : List Act}

section

variable (h : Recorded present history)
include h

/-- An execution on record stays one that its call created or claimed. -/
theorem began_append (hb : ∀ u i, .began u i ∉ acts) (u : Nat)
    (i : String) (hu : .began u i ∈ history ++ acts) :
    .created u i ∈ history ++ acts ∨ .claimed u i ∈ history ++ acts := by
  have hold := (mem_append.mp hu).resolve_right (hb u i)
  exact (h.began u i hold).imp (mem_append_left _) (mem_append_left _)

theorem executions_append (hb : ∀ u i, .began u i ∉ acts) (u : Nat) :
    (history ++ acts).countP (Act.isBegan u) ≤ 1 := by
  rw [countP_append, countP_isBegan.mpr (hb u), Nat.add_zero]
  exact h.executions u

theorem creations_append (hc : ∀ i u, .created u i ∉ acts)
    (i : String) : (history ++ acts).countP (Act.isCreated i) ≤ 1 := by
  rw [countP_append, countP_isCreated.mpr (hc i), Nat.add_zero]
  exact h.creations i

theorem append (hq : ∀ a ∈ acts, a.quiet = true) : Recorded present (history ++ acts) where
  rows id := by
    simp only [quiet_mem hq (a := .created _ id) rfl, quiet_mem hq (a := .unacknowledged id) rfl]
    exact h.rows id
  creations := h.creations_append fun _ _ hin => Bool.noConfusion (hq _ hin)
  began := h.began_append fun _ _ hin => Bool.noConfusion (hq _ hin)
  executions := h.executions_append fun _ _ hin => Bool.noConfusion (hq _ hin)

theorem create (hnew : ¬ present id) (hp : ∀ i, present' i ↔ i = id ∨ present i) :
    Recorded present' (history ++ [.created t id]) where
  rows i := by
    rw [hp, h.rows i]
    by_cases he : i = id <;> simp [he]
  creations i := by
    rw [countP_append]
    by_cases he : i = id
    · have hzero := countP_isCreated.mpr fun u hu => hnew ((h.rows id).mpr (.inl ⟨u, hu⟩))
      simp [he, hzero, Act.isCreated]
    · simpa [Act.isCreated, Ne.symm he] using h.creations i
  began := h.began_append (by simp)
  executions := h.executions_append (by simp)

theorem lose (hp : ∀ i, present' i ↔ i = id ∨ present i) : Recorded present' (history ++ [.unacknowledged id]) where
  rows i := by
    rw [hp, h.rows i]
    by_cases he : i = id <;> simp [he]
  creations := h.creations_append (by simp)
  began := h.began_append (by simp)
  executions := h.executions_append (by simp)

theorem claim : Recorded present (history ++ [.claimed t id]) where
  rows i := by
    rw [h.rows i]
    simp
  creations := h.creations_append (by simp)
  began := h.began_append (by simp)
  executions := h.executions_append (by simp)

theorem begin (hsource : .created t id ∈ history ∨ .claimed t id ∈ history)
    (hunused : ∀ i, .began t i ∉ history) : Recorded present (history ++ [.began t id]) where
  rows i := by
    rw [h.rows i]
    simp
  creations := h.creations_append (by simp)
  began u i hu := by
    rw [mem_append, mem_singleton] at hu
    refine .imp (mem_append_left _) (mem_append_left _) ?_
    obtain hu | hu := hu
    · exact h.began u i hu
    · cases hu
      exact hsource
  executions u := by
    rw [countP_append]
    by_cases he : u = t
    · subst he
      rw [countP_isBegan.mpr hunused]
      simp [Act.isBegan]
    · simpa [Act.isBegan, Ne.symm he] using h.executions u

end

end Recorded

/-! ## What a call changes -/

/-- Everything a call `c` of thread `t` can do to views, holders, active executions and the history. -/
inductive Change (B : Backend) (t : Nat) (c : SysCall) (w : World B) : World B → Prop where
  | quiet {w' : World B} (hh : w'.holder = w.holder) (ha : w'.active = w.active) (acts : List Act)
      (hq : ∀ a ∈ acts, a.quiet = true) (hhist : w'.history = w.history ++ acts)
      (hv : B.view w'.store = B.view w.store) : Change B t c w w'
  | created {w' : World B} (record : OperationRecord) (hc : c = .store (.start record))
      (hnone : B.view w.store record.id = none)
      (hv : B.view w'.store = update (B.view w.store) record.id (some ⟨record.key, .pending, 1⟩))
      (hh : w'.holder = update w.holder record.id (some t)) (ha : w'.active = w.active)
      (hhist : w'.history = w.history ++ [.created t record.id]) : Change B t c w w'
  | lost {w' : World B} (id : String) (o : OpView) (hnone : B.view w.store id = none)
      (hv : B.view w'.store = update (B.view w.store) id (some o))
      (hh : w'.holder = w.holder) (ha : w'.active = w.active)
      (hhist : w'.history = w.history ++ [.unacknowledged id]) : Change B t c w w'
  | claimed {w' : World B} (id : String) (o : OpView) (ho : B.view w.store id = some o) (hstate : o.state = .uncertain)
      (hv : B.view w'.store = update (B.view w.store) id (some (o.move .running)))
      (hh : w'.holder = update w.holder id (some t)) (ha : w'.active = w.active)
      (hhist : w'.history = w.history ++ [.claimed t id]) : Change B t c w w'
  | moved {w' : World B} (id : String) (o : OpView) (state : OperationState) (ho : B.view w.store id = some o)
      (hstate : state ∈ held) (hv : B.view w'.store = update (B.view w.store) id (some (o.move state)))
      (hh : w'.holder = w.holder) (ha : w'.active = w.active) (hhist : w'.history = w.history) : Change B t c w w'
  | settled {w' : World B} (id : String) (hs : Settling t id w)
      (hv : B.view w'.store = B.view w.store ∨ ∃ o state, B.view w.store id = some o ∧
        B.view w'.store = update (B.view w.store) id (some (o.move state)))
      (hh : w'.holder = update w.holder id none) (ha : w'.active = w.active)
      (hhist : w'.history = w.history) : Change B t c w w'
  | entered {w' : World B} (id : String) (hc : c = .enter id) (hs : Owns t id w) (hst : w'.store = w.store)
    (hh : w'.holder = w.holder)
      (ha : w'.active = update w.active id (t :: w.active id))
      (hhist : w'.history = w.history ++ [.began t id]) : Change B t c w w'
  | left {w' : World B} (id : String) (hs : Inside t id w) (hst : w'.store = w.store) (hh : w'.holder = w.holder)
      (ha : w'.active = update w.active id ((w.active id).erase t))
      (hhist : w'.history = w.history ++ [.ended t id]) : Change B t c w w'

theorem taint_quiet (history : List Act) (id : String) (clean : Bool) : ∀ a ∈ taint history id clean, a.quiet = true := by
  intro a ha
  unfold taint at ha
  split at ha
  · rw [mem_singleton] at ha
    rw [ha]
    rfl
  · cases ha

theorem acts_quiet (id : String) (c : HandlerCall) (r : c.Ans) : ∀ a ∈ c.acts id r, a.quiet = true := by
  intro a ha
  unfold HandlerCall.acts at ha
  split at ha <;> simp at ha
  all_goals
    rw [ha]
    rfl

theorem World.Exec.change (law : B.Lawful Ok) (hi : Excl B Ok w)
    (hp : CallPre t q w c) (h : World.Exec B t c w r w') : Ok w'.store ∧ Change B t c w w' := by
  cases h with
  | wrapInput r => exact ⟨hi.ok, .quiet rfl rfl _ (taint_quiet _ _ _) rfl rfl⟩
  | enter => exact ⟨hi.ok, .entered _ rfl hp.1 rfl rfl rfl rfl⟩
  | leave => exact ⟨hi.ok, .left _ hp.1 rfl rfl rfl rfl⟩
  | @handler _ ctx c r st h =>
    obtain ⟨hok, hv⟩ := law.handle hi.ok h
    refine ⟨hok, .quiet rfl rfl (c.acts ctx.operationID r ++ taint (w.history ++ c.acts ctx.operationID r)
      ctx.operationID (c.clean r)) ?_ (append_assoc _ _ _) hv⟩
    intro a ha
    obtain ha | ha := mem_append.mp ha
    · exact acts_quiet _ c r a ha
    · exact taint_quiet _ _ _ a ha
  | @store _ c r st h =>
    obtain ⟨hok, hspec⟩ := law.call hi.ok h
    cases c with
    | start record =>
      cases r with
      | error e =>
        simp only [World.afterStore]
        split
        · rename_i hlost
          simp only [Bool.and_eq_true, Option.isNone_iff_eq_none] at hlost
          obtain hv | ⟨hnone, hv⟩ := hspec
          · rw [hv, hlost.1] at hlost
            simp at hlost
          · exact ⟨hok, .lost _ _ hnone hv rfl rfl rfl⟩
        · rename_i hkept
          obtain hv | ⟨hnone, hv⟩ := hspec
          · exact ⟨hok, .quiet rfl rfl [] (by simp) (by simp) hv⟩
          · simp [hnone, hv] at hkept
      | ok e =>
        simp only [World.afterStore]
        obtain ⟨_, ⟨hc, _, hnone, hv⟩ | ⟨hc, hv, _⟩⟩ := hspec
        · rw [if_pos hc]
          exact ⟨hok, .created _ rfl hnone hv rfl rfl rfl⟩
        · rw [if_neg (by simp [hc])]
          exact ⟨hok, .quiet rfl rfl [] (by simp) (by simp) hv⟩
    | claimReplay id =>
      obtain ⟨hr, hv⟩ | ⟨o, ho, hu, hv⟩ := hspec
      · have hafter : w.afterStore t st (.claimReplay id) r = { w with store := st } := by
          obtain e | b := r
          · rfl
          · cases b
            · rfl
            · exact absurd rfl hr
        rw [hafter]
        exact ⟨hok, .quiet rfl rfl [] (by simp) (by simp) hv⟩
      · obtain e | b := r
        · exact ⟨hok, .moved _ _ _ ho (by decide) hv rfl rfl rfl⟩
        · cases b
          · exact ⟨hok, .moved _ _ _ ho (by decide) hv rfl rfl rfl⟩
          · exact ⟨hok, .claimed _ _ ho hu hv rfl rfl rfl⟩
    | finish id | markUncertain id =>
      refine ⟨hok, .settled id hp.1 ?_ rfl rfl rfl⟩
      exact hspec.imp_right fun ⟨o, ho, _, hv⟩ => ⟨o, _, ho, hv⟩
    | cancel id =>
      obtain hv | ⟨o, ho, _, hv⟩ := hspec
      · exact ⟨hok, .quiet rfl rfl [] (by simp) (by simp [World.afterStore]) hv⟩
      · exact ⟨hok, .moved _ _ _ ho (by decide) hv rfl rfl rfl⟩
    | deletePrepared id => exact ⟨hok, .quiet rfl rfl [] (by simp) (by simp [World.afterStore]) hspec⟩

theorem isSome_update (view : View) (id : String) (o : OpView) (i : String) :
    (update view id (some o) i).isSome = true ↔ i = id ∨ (view i).isSome = true := by
  by_cases he : i = id <;> simp [he]

theorem isSome_update_some {view : View} {o o' : OpView} (ho : view id = some o) (i : String) :
    (update view id (some o') i).isSome = true ↔ (view i).isSome = true := by
  by_cases he : i = id <;> simp [he, ho]

section

variable (h : Change B t c w w')
include h

theorem Change.excl (hi : Excl B Ok w) (hok : Ok w'.store) : Excl B Ok w' := by
  have hheld := hi.held
  have hrec := hi.recorded
  cases h with
  | quiet hh ha acts hq hhist hv =>
    exact ⟨hok, by rw [hv, hh, ha]; exact hheld, by rw [hhist, hv]; exact hrec.append hq⟩
  | created record _ hnone hv hh ha hhist =>
    have hfree := hheld.free fun o ho => by rw [hnone] at ho; cases ho
    refine ⟨hok, ?_, ?_⟩
    · rw [hv, hh, ha]
      exact hheld.acquire hfree (by show OperationState.pending ∈ held; decide)
    · rw [hhist, hv]
      exact hrec.create (by simp [hnone]) (isSome_update _ _ _)
  | lost id o hnone hv hh ha hhist =>
    have hfree := hheld.free fun o ho => by rw [hnone] at ho; cases ho
    refine ⟨hok, ?_, ?_⟩
    · rw [hv, hh, ha]
      exact hheld.move fun hne => absurd hfree hne
    · rw [hhist, hv]
      exact hrec.lose (isSome_update _ _ _)
  | claimed id o ho hstate hv hh ha hhist =>
    have hfree := hheld.free fun o' ho' => by
      rw [ho] at ho'
      cases ho'
      rw [hstate]
      decide
    refine ⟨hok, ?_, ?_⟩
    · rw [hv, hh, ha]
      exact hheld.acquire hfree (by show OperationState.running ∈ held; decide)
    · rw [hhist, hv]
      exact hrec.claim.congr (isSome_update_some ho)
  | moved id o state ho hstate hv hh ha hhist =>
    refine ⟨hok, ?_, ?_⟩
    · rw [hv, hh, ha]
      exact hheld.move fun _ => hstate
    · rw [hhist, hv]
      exact hrec.congr (isSome_update_some ho)
  | settled id hs hv hh ha hhist =>
    refine ⟨hok, ?_, ?_⟩
    · rw [hh, ha]
      refine hheld.release (hi.idle hs) fun i hne => ?_
      obtain hv | ⟨o, state, _, hv⟩ := hv
      · rw [hv]
      · rw [hv, update_of_ne hne]
    · rw [hhist]
      obtain hv | ⟨o, state, ho, hv⟩ := hv
      · rw [hv]
        exact hrec
      · rw [hv]
        exact hrec.congr (isSome_update_some ho)
  | entered id _ hs hst hh ha hhist =>
    refine ⟨hok, ?_, ?_⟩
    · rw [hst, hh, ha]
      exact hheld.enter hs.holder (hi.idle hs.settling)
    · rw [hst, hhist]
      exact hrec.begin hs.source hs.unused
  | left id hs hst hh ha hhist =>
    refine ⟨hok, ?_, ?_⟩
    · rw [hst, hh, ha]
      exact hheld.leave hs.inside
    · rw [hst, hhist]
      exact hrec.append (by simp [Act.quiet])

/-! ## What a call leaves to the other threads -/

theorem Change.history : ∃ acts, w'.history = w.history ++ acts ∧ ∀ i, t ≠ u → .began u i ∉ acts := by
  cases h with
  | quiet _ _ acts hq hhist _ =>
    exact ⟨acts, hhist, fun i _ hb => Bool.noConfusion (hq _ hb)⟩
  | entered id _ hs hst hh ha hhist => exact ⟨_, hhist, by simp +contextual [eq_comm]⟩
  | moved _ _ _ _ _ _ _ _ hhist | settled _ _ _ _ _ hhist => exact ⟨[], by simp [hhist], by simp⟩
  | created _ _ _ _ _ _ hhist | lost _ _ _ _ _ _ hhist | claimed _ _ _ _ _ _ _ hhist
  | left _ _ _ _ _ hhist => exact ⟨_, hhist, by simp⟩

theorem Change.holder (hi : Excl B Ok w) (hne : t ≠ u) (hu : w.holder id = some u) : w'.holder id = some u := by
  -- the call takes hold of an operation that is free, or gives up one that is its own
  have take : ∀ {i}, w.holder i ≠ some u → w'.holder = update w.holder i (some t) → w'.holder id = some u := by
    intro i hfree hh
    rw [hh, update_of_ne (by rintro rfl; exact hfree hu)]
    exact hu
  cases h with
  | created record _ hnone _ hh =>
    refine take ?_ hh
    rw [hi.held.free fun o ho => by rw [hnone] at ho; cases ho]
    simp
  | claimed i o ho hstate _ hh =>
    refine take ?_ hh
    rw [hi.held.free fun o' ho' => by rw [ho] at ho'; cases ho'; rw [hstate]; decide]
    simp
  | settled i hs _ hh =>
    rw [hh, update_of_ne ?_]
    · exact hu
    · rintro rfl
      exact hne (Option.some.inj (hs.holder.symm.trans hu))
  | quiet hh | lost _ _ _ _ hh | moved _ _ _ _ _ _ hh | entered _ _ _ _ hh | left _ _ _ hh =>
    rw [hh]
    exact hu

theorem Change.active (hne : t ≠ u) : u ∈ w'.active id ↔ u ∈ w.active id := by
  cases h with
  | entered i _ _ _ _ ha =>
    rw [ha]
    by_cases he : id = i
    · subst he
      simp [hne.symm]
    · rw [update_of_ne he]
  | left i _ _ _ ha =>
    rw [ha]
    by_cases he : id = i
    · subst he
      simp [mem_erase_of_ne hne.symm]
    · rw [update_of_ne he]
  | quiet _ ha | created _ _ _ _ _ ha | lost _ _ _ _ _ ha | claimed _ _ _ _ _ _ ha | moved _ _ _ _ _ _ _ ha
  | settled _ _ _ _ ha => rw [ha]

theorem Change.rows (ho : B.view w.store id = some o) : ∃ o', B.view w'.store id = some o' ∧ o'.key = o.key := by
  have moves : ∀ {i p state}, B.view w.store i = some p →
      B.view w'.store = update (B.view w.store) i (some (p.move state)) →
      ∃ o', B.view w'.store id = some o' ∧ o'.key = o.key := by
    intro i p state hp hv
    rw [hv]
    by_cases he : id = i
    · subst he
      rw [hp] at ho
      cases ho
      exact ⟨_, update_self .., rfl⟩
    · exact ⟨o, by rw [update_of_ne he]; exact ho, rfl⟩
  have creates : ∀ {i p}, B.view w.store i = none → B.view w'.store = update (B.view w.store) i (some p) →
      ∃ o', B.view w'.store id = some o' ∧ o'.key = o.key := by
    intro i p hnone hv
    rw [hv, update_of_ne (by rintro rfl; rw [hnone] at ho; cases ho)]
    exact ⟨o, ho, rfl⟩
  cases h with
  | quiet _ _ _ _ _ hv => exact ⟨o, by rw [hv]; exact ho, rfl⟩
  | created record _ hnone hv | lost i p hnone hv => exact creates hnone hv
  | claimed i p hp _ hv | moved i p _ hp _ hv => exact moves hp hv
  | settled i hs hv =>
    obtain hv | ⟨p, state, hp, hv⟩ := hv
    · exact ⟨o, by rw [hv]; exact ho, rfl⟩
    · exact moves hp hv
  | entered _ _ _ hst | left _ _ hst => exact ⟨o, by rw [hst]; exact ho, rfl⟩

theorem Change.rely (hi : Excl B Ok w) (hne : t ≠ u) : ExclRely u w w' where
  holder _ hu := h.holder hi hne hu
  active _ := h.active hne
  history := by
    obtain ⟨acts, hhist, _⟩ := h.history (u := u)
    rw [hhist]
    exact subset_append_left _ _
  began i hb := by
    obtain ⟨acts, hhist, hnew⟩ := h.history (u := u)
    rw [hhist, mem_append] at hb
    exact hb.resolve_right (hnew i hne)
  rows _ _ ho := h.rows ho

end

/-! ## Restarts -/

theorem World.Restart.excl (law : B.Lawful Ok) (hi : Excl B Ok w) (h : World.Restart w w') : Excl B Ok w' := by
  obtain ⟨st, hst, rfl⟩ := h
  obtain ⟨hok, hviews⟩ := law.restart hi.ok hst
  refine ⟨hok, ⟨fun i u hu => (nomatch hu), fun i => .inl rfl⟩, hi.recorded.congr fun i => ?_⟩
  obtain hv | ⟨o, ho, _, hv⟩ := hviews i
  · rw [hv]
  · simp [hv, ho]

end Dirextalk.Capability

/-
  Dirextalk.Capability.Exclusive — one execution at a time: no lock is held while a
  handler runs, so mutual exclusion rests on the state of the operation alone.

  Every program of the server meets the outline `exclusion`: it begins an execution only
  as the holder of the operation, and settles it before it gives the operation up.

  Proved (`execution_exclusive`), over both stores, every registry of handlers, every
  schedule and every restart: two executions of one operation never overlap; at most one
  call observes `Created`, one if no acknowledgement of a creating commit was lost; every
  execution is the only one of its call and follows the creation, or the committed step
  from uncertain to running, by that call; a call whose key differs from the row's does
  nothing.
-/
import Dirextalk.Capability.Memory
import Dirextalk.Capability.Ownership

namespace Dirextalk.Capability

open Lib Lib.Go World

variable {B : Backend} {Ok : B.Store → Prop} {w w' : World B} {t u : Nat} {id : String} {c : SysCall}

/-! ## The programs meet the outline -/

section Programs

variable {registry : Registry} {q : Request}

theorem Mine.exec (law : B.Lawful Ok) (hi : Excl B Ok w) (hp : CallPre t q w c)
    (h : Exec B t c w r w') (hm : Mine q id w) : Mine q id w' := by
  obtain ⟨req, hq, hid, o, ho, hk⟩ := hm
  obtain ⟨o', ho', hk'⟩ := (h.change law hi hp).2.rows ho
  exact ⟨req, hq, hid, o', ho', hk'.trans hk⟩

/-- Whatever a handler does, it stays inside its own operation. -/
theorem under_safe (law : B.Lawful Ok) (p : Handler α)
    (h : Inside t ctx.operationID w) (hm : Mine q ctx.operationID w) :
    (under ctx p).Safe (exclusion B Ok registry) t q (fun _ w => Inside t ctx.operationID w ∧ Mine q ctx.operationID w) w := by
  induction p generalizing w with
  | ret a => exact fun w' hr _ => ⟨h.later hr, hm.later hr⟩
  | call c k ih =>
    intro w' hr hi
    have hp : CallPre t q w' (.handler ctx c) := ⟨h.later hr, hm.later hr⟩
    refine ⟨hp, fun r w'' he => ih r ?_ (hp.2.exec law hi hp he)⟩
    cases he with
    | handler _ => exact ⟨hp.1.holder, hp.1.inside⟩

theorem finishOperation_safe (law : B.Lawful Ok)
    (h : Settling t id w) (hm : Mine q id w) :
    (finishOperation id result err).Safe (exclusion B Ok registry) t q (fun _ _ => True) w := by
  intro w₁ hr hi
  have hp : CallPre t q w₁ (.store (.finish id result err)) := ⟨h.later hr, hm.later hr⟩
  refine ⟨hp, fun r w₂ he => ?_⟩
  have hm₂ := hp.2.exec law hi hp he
  obtain e | _ | _ := r
  · exact fun _ _ _ => trivial
  · exact fun _ _ _ => trivial
  · exact fun w₃ hr₃ _ => ⟨.inl (hm₂.later hr₃), fun _ _ _ _ _ _ => trivial⟩

variable {record e : OperationRecord}

theorem executeOperation_safe (law : B.Lawful Ok)
    (h : Owns t record.id w) (hm : Mine q record.id w) :
    (executeOperation provider record operation requestJSON).Safe (exclusion B Ok registry) t q (fun _ _ => True) w := by
  intro w₁ hr₁ hi₁
  have hown := h.later hr₁
  have hm₁ := hm.later hr₁
  refine ⟨⟨hown.settling, hm₁⟩, fun r w₂ he₂ => ?_⟩
  have hm₂ := hm₁.exec law hi₁ (c := .wrapInput _ _ _) ⟨hown.settling, hm₁⟩ he₂
  have hown₂ : Owns t record.id w₂ := by
    cases he₂ with
    | wrapInput r =>
      refine ⟨⟨fun i hb => ?_, hown.outside⟩, hown.holder,
        hown.source.imp (List.mem_append_left _) (List.mem_append_left _)⟩
      rw [quiet_mem (taint_quiet _ _ _) rfl] at hb
      exact hown.unused i hb
  obtain e | wrapped := r
  · exact finishOperation_safe law hown₂.settling hm₂
  · intro w₃ hr₃ hi₃
    have hown₃ := hown₂.later hr₃
    have hm₃ := hm₂.later hr₃
    refine ⟨⟨hown₃, hm₃⟩, fun r w₄ he₄ => ?_⟩
    have hm₄ := hm₃.exec law hi₃ (c := .enter _) ⟨hown₃, hm₃⟩ he₄
    have hin₄ : Inside t record.id w₄ := by
      cases he₄ with
      | enter => exact ⟨hown₃.holder, by simp⟩
    -- the handler, then its end
    refine .bind (p := under record.context (provider record.context wrapped)) ExclRely.refl
      (under_safe law _ hin₄ hm₄) ?_
    rintro out w₅ hi₅ ⟨hin₅, hm₅⟩
    intro w₆ hr₆ hi₆
    have hin₆ : Inside t record.id w₆ := .later hr₆ hin₅
    have hm₆ := hm₅.later hr₆
    refine ⟨⟨hin₆, hm₆⟩, fun r w₇ he₇ => ?_⟩
    have hm₇ := hm₆.exec law hi₆ (c := .leave _) ⟨hin₆, hm₆⟩ he₇
    have hset : Settling t record.id w₇ := by
      cases he₇ with
      | leave =>
        refine ⟨hin₆.holder, ?_⟩
        obtain hnil | ⟨v, hv, _⟩ := hi₆.held.active record.id
        · exact absurd hin₆.inside (by simp [hnil])
        · have : t = v := by simpa [hv] using hin₆.inside
          simp [hv, this]
    obtain e | result := out
    · dsimp only
      split
      · exact fun _ hr _ => ⟨⟨hset.later hr, hm₇.later hr⟩, fun _ _ _ _ _ _ => trivial⟩
      · exact finishOperation_safe law hset hm₇
    · exact finishOperation_safe law hset hm₇

theorem start_mine (law : B.Lawful Ok) (hi : Excl B Ok w)
    (h : Exec B t (.store (.start req.record)) w (.ok e) w') : Mine (.start req) req.operationID w' := by
  cases h with
  | @store _ _ _ st h =>
    obtain ⟨_, _, hspec⟩ := law.call hi.ok h
    have hstore : (w.afterStore t st (.start req.record) (.ok e)).store = st := by
      simp only [afterStore]
      split <;> rfl
    refine ⟨req, rfl, rfl, ?_⟩
    rw [hstore]
    obtain ⟨_, _, _, hv⟩ | ⟨_, hv, o, ho, hk, _⟩ := hspec
    · exact ⟨_, by rw [hv]; exact Function.update_self .., rfl⟩
    · exact ⟨o, by rw [hv]; exact ho, hk⟩

theorem start_owns (law : B.Lawful Ok) (hi : Excl B Ok w) (hidle : Idle t w)
    (hc : e.created = true) (h : Exec B t (.store (.start record)) w (.ok e) w') : Owns t e.id w' := by
  cases h with
  | store h =>
    obtain ⟨_, hid, _⟩ := law.call hi.ok h
    rw [hid]
    simp only [afterStore, if_pos hc]
    exact ⟨⟨by simpa using hidle.unused, hidle.outside⟩, by simp, by simp⟩

/-- The other answers leave the thread idle. -/
theorem start_idle (hidle : Idle t w) (hc : e.created = false)
    (h : Exec B t (.store (.start record)) w (.ok e) w') : Idle t w' := by
  cases h with
  | store h =>
    rw [afterStore, if_neg (by simp [hc])]
    exact ⟨hidle.unused, hidle.outside⟩

theorem claimReplay_owns (hidle : Idle t w) (h : Exec B t (.store (.claimReplay id)) w (.ok true) w') :
    Owns t id w' := by
  cases h with
  | store h => exact ⟨⟨by simpa [afterStore] using hidle.unused, hidle.outside⟩, by simp [afterStore],
      by simp [afterStore]⟩

theorem startOperation_safe (law : B.Lawful Ok) (hidle : Idle t w) :
    (startOperation registry req).Safe (exclusion B Ok registry) t (.start req) (fun _ _ => True) w := by
  unfold startOperation
  split
  · exact fun _ _ _ => trivial
  rename_i provider _
  intro w₁ hr₁ hi₁
  have hidle₁ := hidle.later hr₁
  refine ⟨⟨req, rfl, rfl⟩, fun r w₂ he₂ => ?_⟩
  obtain e | existing := r
  · exact fun _ _ _ => trivial
  have hid : existing.id = req.operationID := by
    cases he₂ with
    | store h => exact (law.call hi₁.ok h).2.1
  have hm₂ : Mine (.start req) existing.id w₂ := by
    rw [hid]
    exact start_mine law hi₁ he₂
  show Prog.Safe _ _ _ _ (if !existing.created then _ else _) _
  rcases hc : existing.created with _ | _
  · -- the row was there: only an uncertain prepared operation is claimed and executed again
    simp only [Bool.not_false, if_true]
    refine .ite (fun _ => ?_) fun _ => ?_
    · intro w₃ hr₃ hi₃
      have hm₃ := hm₂.later hr₃
      refine ⟨hm₃, fun r w₄ he₄ => ?_⟩
      obtain e | _ | _ := r
      · exact fun _ _ _ => trivial
      · exact fun _ _ _ => trivial
      · exact executeOperation_safe law (claimReplay_owns ((start_idle hidle₁ hc he₂).later hr₃) he₄)
          (hm₃.exec law hi₃ (c := .store (.claimReplay _)) hm₃ he₄)
    · exact fun _ _ _ => trivial
  · simp only [Bool.not_true, Bool.false_eq_true, if_false]
    split
    · exact fun _ _ _ => trivial
    · exact executeOperation_safe law (start_owns law hi₁ hidle₁ hc he₂) hm₂

theorem cancelOperation_safe :
    (cancelOperation id).Safe (exclusion B Ok registry) t (.cancel id) (fun _ _ => True) w := by
  refine fun _ _ _ => ⟨rfl, fun r _ _ => ?_⟩
  obtain e | _ := r
  · exact fun _ _ _ => trivial
  · exact fun _ _ _ => ⟨.inr rfl, fun _ _ _ _ _ _ => trivial⟩

theorem exclusion_valid (law : B.Lawful Ok) (registry : Registry) : (exclusion B Ok registry).Valid where
  refl := .refl
  trans _ _ _ _ := .trans
  exec_inv hi hp he := by
    obtain ⟨hok, hc⟩ := Exec.change law hi hp he
    exact hc.excl hi hok
  exec_rely hne hi hp he := (Exec.change law hi hp he).2.rely hi hne
  crash_inv hi hc := hc.excl law hi
  fresh_rely hf hr := .later hr hf
  fresh_crash := by
    rintro t w w' hf ⟨st, _, rfl⟩
    exact ⟨hf.unused, by simp⟩
  entry {t q w} hi hf := by
    cases q with
    | start req => exact startOperation_safe law hf
    | cancel id => exact cancelOperation_safe

theorem exclusion_start (law : B.Lawful Ok) (registry : Registry) :
    (exclusion B Ok registry).Holds (Pool.start (init B)) := by
  refine Outline.Valid.start _ ⟨law.init.1, ⟨fun _ _ h => (nomatch h), fun _ => .inl rfl⟩, ?_⟩ fun t =>
    ⟨by simp [init], by simp [init]⟩
  exact ⟨fun id => by simp [init, law.init.2], by simp [init], by simp [init], by simp [init]⟩

end Programs

/-! ## Exclusive execution -/

structure Exclusive (B : Backend) (registry : Registry) (s : Server B) : Prop where
  no_overlap : ∀ id, (s.world.active id).length ≤ 1
  one_creator : ∀ id, s.world.history.countP (Act.isCreated id) ≤ 1
  /-- Some call did observe `Created`, unless the acknowledgement of the creating commit was lost. -/
  creator : ∀ id, (B.view s.world.store id).isSome = true → .unacknowledged id ∉ s.world.history →
    s.world.history.countP (Act.isCreated id) = 1
  one_execution : ∀ t, s.world.history.countP (Act.isBegan t) ≤ 1
  /-- The row gets the key of the call that observes `Created`, and keeps it. -/
  creates : ∀ e s' t id, Pool.Step (server B registry) s e s' → .created t id ∈ s'.world.history →
    .created t id ∈ s.world.history ∨ ∃ req prog o, s.thread t = some ⟨.start req, prog⟩ ∧ req.operationID = id ∧
      B.view s'.world.store id = some o ∧ o.key = req.record.key
  keys : ∀ e s' id o, Pool.Step (server B registry) s e s' → B.view s.world.store id = some o →
    ∃ o', B.view s'.world.store id = some o' ∧ o'.key = o.key
  /-- An execution starts in a call with the key of the row that created the row or claimed it before. -/
  starts : ∀ e s' t id, Pool.Step (server B registry) s e s' → .began t id ∈ s'.world.history →
    .began t id ∈ s.world.history ∨ (.created t id ∈ s.world.history ∨ .claimed t id ∈ s.world.history) ∧
      ∃ req prog o, s.thread t = some ⟨.start req, prog⟩ ∧ req.operationID = id ∧
        B.view s.world.store id = some o ∧ o.key = req.record.key
  /-- To claim a row is to commit its transition from uncertain to running. -/
  claims : ∀ e s' t id, Pool.Step (server B registry) s e s' → .claimed t id ∈ s'.world.history →
    .claimed t id ∈ s.world.history ∨ ∃ o, B.view s.world.store id = some o ∧ o.state = .uncertain ∧
      B.view s'.world.store id = some (o.move .running)
  /-- A call with another key changes nothing, the history of executions included. -/
  mismatch : ∀ t c r req prog o s', s.thread t = some ⟨.start req, prog⟩ →
    B.view s.world.store req.operationID = some o → o.key ≠ req.record.key →
    Pool.Step (server B registry) s (.answer t c r) s' → s'.world = s.world

/-- What a change says of an act that is new with it. -/
def Brings (B : Backend) (t : Nat) (c : SysCall) (w w' : World B) : Act → Prop
  | .created u id => u = t ∧ ∃ record, c = .store (.start record) ∧ record.id = id ∧
      B.view w'.store id = some ⟨record.key, .pending, 1⟩
  | .began u id => u = t ∧ c = .enter id ∧ Owns t id w
  | .claimed _ id => ∃ o, B.view w.store id = some o ∧ o.state = .uncertain ∧ B.view w'.store id = some (o.move .running)
  | _ => True

theorem Change.brings (h : Change B t c w w') (hin : a ∈ w'.history) : a ∈ w.history ∨ Brings B t c w w' a := by
  have hlast {b : Act} (hhist : w'.history = w.history ++ [b]) (hb : Brings B t c w w' b) :
      a ∈ w.history ∨ Brings B t c w w' a := by
    rw [hhist, List.mem_append, List.mem_singleton] at hin
    obtain hin | rfl := hin
    · exact .inl hin
    · exact .inr hb
  cases h with
  | quiet _ _ acts hq hhist _ =>
    rw [hhist, List.mem_append] at hin
    refine hin.imp_right fun ha => ?_
    have hquiet := hq a ha
    cases a <;> trivial
  | moved _ _ _ _ _ _ _ _ hhist | settled _ _ _ _ _ hhist => exact .inl (by rwa [hhist] at hin)
  | created record hc _ hv _ _ hhist => exact hlast hhist ⟨rfl, record, hc, rfl, by rw [hv]; exact Function.update_self ..⟩
  | claimed i o ho hstate hv _ _ hhist => exact hlast hhist ⟨o, ho, hstate, by rw [hv]; exact Function.update_self ..⟩
  | entered i hc hs _ _ _ hhist => exact hlast hhist ⟨rfl, hc, hs⟩
  | lost _ _ _ _ _ _ hhist | left _ _ _ _ _ hhist => exact hlast hhist trivial

/-- A call for a row with another key can only be the `start` that is refused. -/
theorem World.Exec.mismatch (law : B.Lawful Ok)
    (hp : CallPre t (.start req) w c) (ho : B.view w.store req.operationID = some o) (hk : o.key ≠ req.record.key)
    (h : Exec B t c w r w') : w' = w := by
  have hmine : ∀ {i}, ¬ Mine (.start req) i w := by
    rintro i ⟨req', hq, rfl, o', ho', hk'⟩
    cases hq
    rw [ho] at ho'
    cases ho'
    exact hk hk'
  cases h with
  | wrapInput _ | enter | leave | handler _ => exact absurd hp.2 hmine
  | @store _ c r st h =>
    cases c with
    | start record =>
      obtain ⟨req', hq, rfl⟩ := hp
      cases hq
      obtain ⟨rfl, e, rfl⟩ := law.conflict h ho hk
      simp [afterStore]
    | claimReplay i => exact absurd hp hmine
    | finish | markUncertain => exact absurd hp.2 hmine
    | cancel i => cases hp
    | deletePrepared i => exact absurd (hp.resolve_right fun hq => by cases hq) hmine

section States

variable {registry : Registry} {s s' : Server B} {e : Pool.Ev SysSig Request}

section

variable (law : B.Lawful Ok) (h : (exclusion B Ok registry).Holds s)
include law h

theorem step_brings (hs : Pool.Step (server B registry) s e s') (hin : a ∈ s'.world.history) :
    a ∈ s.world.history ∨
      ∃ t q prog c, s.thread t = some ⟨q, prog⟩ ∧ CallPre t q s.world c ∧ Brings B t c s.world s'.world a := by
  cases hs with
  | arrive q => exact .inl hin
  | @answer t q c k r w hthread hexec =>
    have hp := (h.threads _ _ hthread _ (.refl _ _) h.inv).1
    exact ((Exec.change law h.inv hp hexec).2.brings hin).imp_right fun hb => ⟨t, q, _, c, hthread, hp, hb⟩
  | crash hcrash =>
    obtain ⟨st, _, rfl⟩ := hcrash
    exact .inl hin

theorem step_keys
    (hs : Pool.Step (server B registry) s e s') (ho : B.view s.world.store id = some o) :
    ∃ o', B.view s'.world.store id = some o' ∧ o'.key = o.key := by
  have hi := h.inv
  cases hs with
  | arrive q => exact ⟨o, ho, rfl⟩
  | answer hthread hexec =>
    have hp := (h.threads _ _ hthread _ (.refl _ _) hi).1
    exact (Exec.change law hi hp hexec).2.rows ho
  | crash hcrash =>
    obtain ⟨st, hst, rfl⟩ := hcrash
    obtain hv | ⟨p, hp, _, hv⟩ := (law.restart hi.ok hst).2 id
    · exact ⟨o, hv.trans ho, rfl⟩
    · rw [ho] at hp
      cases hp
      exact ⟨_, hv, rfl⟩

theorem exclusive_of_holds : Exclusive B registry s := by
  have hi := h.inv
  refine ⟨fun id => ?_, hi.recorded.creations, fun id hsome hack => ?_, hi.recorded.executions, ?_,
    fun e s' id o hs ho => step_keys law h hs ho, ?_, ?_, ?_⟩
  · obtain hnil | ⟨t, ht, _⟩ := hi.held.active id
    · simp [hnil]
    · simp [ht]
  · have hpos : s.world.history.countP (Act.isCreated id) ≠ 0 := fun hzero =>
      ((hi.recorded.rows id).mp hsome).elim (fun ⟨t, ht⟩ => countP_isCreated.mp hzero t ht) hack
    have := hi.recorded.creations id
    omega
  · intro e s' t id hs hin
    refine (step_brings law h hs hin).imp_right ?_
    rintro ⟨_, q, prog, _, hthread, hp, rfl, record, rfl, hid, hv⟩
    obtain ⟨req, rfl, rfl⟩ := hp
    exact ⟨req, prog, _, hthread, hid, hv, rfl⟩
  · intro e s' t id hs hin
    refine (step_brings law h hs hin).imp_right ?_
    rintro ⟨_, q, prog, _, hthread, hp, rfl, rfl, hown⟩
    obtain ⟨_, req, rfl, hid, o, ho, hk⟩ := hp
    exact ⟨hown.source, req, prog, o, hthread, hid, ho, hk⟩
  · intro e s' t id hs hin
    exact (step_brings law h hs hin).imp_right fun ⟨_, _, _, _, _, _, hb⟩ => hb
  · intro t c r req prog o s' hthread ho hk hs
    cases hs with
    | answer hthread' hexec =>
      rw [hthread] at hthread'
      cases hthread'
      exact Exec.mismatch law (h.threads _ _ hthread _ (ExclRely.refl _ _) hi).1 ho hk hexec

end

end States

inductive Mode where
  | database (pg : Platform)
  | memory (preparedStore : Bool)

abbrev Mode.backend : Mode → Backend
  | .database pg => postgres pg
  | .memory preparedStore => Memory.backend preparedStore

theorem Mode.lawful (mode : Mode) : ∃ Ok, mode.backend.Lawful Ok := by
  cases mode with
  | database pg => exact ⟨_, postgres_lawful pg⟩
  | memory preparedStore => exact ⟨_, Memory.lawful preparedStore⟩

/-- Over either ledger and in every interleaving of its calls, a server has at most one execution of an operation. -/
theorem execution_exclusive (mode : Mode) (registry : Registry) {es : List (Pool.Ev SysSig Request)}
    {s : Server mode.backend} (h : ServerRun mode.backend registry es s) : Exclusive mode.backend registry s := by
  obtain ⟨Ok, law⟩ := mode.lawful
  exact exclusive_of_holds law ((exclusion_valid law registry).run (exclusion_start law registry) h)

def sampleStart : StartRequest where
  operationID := "op-1"
  capabilityID := "product.messages.v1"
  operation := "send"
  ownerID := "@owner:example.com"
  generation := 1
  rootDigest := List.replicate 32 0
  digest := List.replicate 32 1
  requestJSON := "hello"
  id_valid := by decide
  digest_valid := by decide

def sampleRegistry : Registry := fun _ _ => some fun _ _ => .ret (.ok "done")

/-- Two calls start the same operation: one creates it and executes it, the other finds it. -/
theorem execution_exclusive_running : ∃ es s, ServerRun (Mode.database samplePlatform).backend sampleRegistry es s ∧
      s.world.active "op-1" = [0] ∧ s.world.history = [.created 0 "op-1", .began 0 "op-1"] ∧
      Exclusive (Mode.database samplePlatform).backend sampleRegistry s := by
  have hrun := (ServerRun.start (Mode.database samplePlatform).backend sampleRegistry).arrive (.start sampleStart)
  have hrun := (hrun.arrive (.start sampleStart)).answer 0 rfl (.store ⟨false, .done rfl⟩)
  have hrun := hrun.answer 1 rfl (.store ⟨false, .done rfl⟩)
  have hrun := (hrun.answer 0 rfl (.wrapInput (.ok "hello"))).answer 0 rfl .enter
  exact ⟨_, _, hrun, rfl, rfl, execution_exclusive (.database samplePlatform) _ hrun⟩

end Dirextalk.Capability

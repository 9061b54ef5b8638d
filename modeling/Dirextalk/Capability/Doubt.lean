/-
  Dirextalk.Capability.Doubt — operations whose Matrix event may have been accepted, over
  PostgreSQL and the product handlers.

  `InvokeProductCapability` reports every failure as a new error that wraps nothing, so
  that the executor never sees `ErrMatrixEventUnknown`: an execution that fails after its
  event was handed to the port makes the operation failed and deletes the staged row
  (`timeout_fails_operation`).
-/
import Dirextalk.Capability.OneEvent

namespace Dirextalk.Capability

open Lib Lib.Go List Function

variable {pg : Platform} {id : String}

/-! ## An event that may have been accepted -/

/-- The answers an operation gets from the moment its event may have been accepted let its execution go on. -/
def CleanStep (id : String) (s : Server (postgres pg)) (e : Pool.Ev SysSig Request) (_ : Server (postgres pg)) : Prop :=
  match e with
  | .answer _ (.handler ctx c) r =>
    ctx.operationID = id → mayBeAccepted (s.world.history ++ c.acts id r) id = true → c.clean r = true
  | .answer _ (.wrapInput i _ _) r =>
    i = id → mayBeAccepted s.world.history id = true → isOk (r : Except Error String) = true
  | _ => True

section Runs

variable {ports : Ports} {es : List (Pool.Ev SysSig Request)} {s s' : Server (postgres pg)}

theorem taint_other (hin : .tainted id ∈ taint history i clean) :
    i = id ∧ mayBeAccepted history id = true ∧ clean = false := by
  unfold taint at hin
  split at hin
  · rename_i hm
    obtain rfl : id = i := by simpa using hin
    simpa using hm
  · cases hin

variable {e : Pool.Ev SysSig Request}

section

variable (hs : Pool.Step (server (postgres pg) (productRegistry ports)) s e s')
include hs

/-- The steps that meet the condition are those that add no taint. -/
theorem clean_step
    (hold : .tainted id ∉ s.world.history) : .tainted id ∉ s'.world.history ↔ CleanStep id s e s' := by
  cases hs with
  | arrive q => exact ⟨fun _ => trivial, fun _ => hold⟩
  | crash hcrash =>
    obtain ⟨st, _, rfl⟩ := hcrash
    exact ⟨fun _ => trivial, fun _ => hold⟩
  | @answer t q c k r w hthread hexec =>
    cases hexec with
    | enter | leave => simpa [CleanStep] using hold
    | @store _ c r st _ =>
      refine ⟨fun _ => trivial, fun _ => ?_⟩
      unfold World.afterStore
      repeat' split
      all_goals simpa using hold
    | wrapInput r =>
      rename_i i _ _
      simp only [mem_append, hold, false_or]
      refine ⟨fun hno hi hm => ?_, fun hc hin => ?_⟩
      · subst hi
        by_contra hbad
        exact hno (by simp [taint, hm, hbad])
      · obtain ⟨hi, hm, hbad⟩ := taint_other hin
        rw [hc hi hm] at hbad
        cases hbad
    | @handler _ ctx c r st _ =>
      have hacts : .tainted id ∉ c.acts ctx.operationID r := by
        unfold HandlerCall.acts
        split <;> simp
      simp only [World.afterHandler, mem_append, hold, hacts, false_or]
      refine ⟨fun hno hi hm => ?_, fun hc hin => ?_⟩
      · subst hi
        by_contra hbad
        exact hno (by simp [taint, hm, hbad])
      · obtain ⟨hi, hm, hbad⟩ := taint_other hin
        subst hi
        rw [hc rfl hm] at hbad
        cases hbad

theorem step_grows : s.world.history ⊆ s'.world.history := by
  cases hs with
  | arrive q => exact .refl _
  | answer _ hexec => exact World.Exec.grows hexec
  | crash hcrash =>
    obtain ⟨st, _, rfl⟩ := hcrash
    exact .refl _

end

theorem clean_run : Run (Under (Pool.Step (server (postgres pg) (productRegistry ports))) (CleanStep id))
      (Pool.start (World.init (postgres pg))) es s ↔
    ServerRun (postgres pg) (productRegistry ports) es s ∧ .tainted id ∉ s.world.history := by
  constructor
  · intro h
    induction h with
    | nil => exact ⟨.nil _, by simp [Pool.start, World.init]⟩
    | snoc _ hs ih => exact ⟨ih.1.snoc hs.1, (clean_step hs.1 ih.2).mpr hs.2⟩
  · rintro ⟨h, hno⟩
    induction h with
    | nil => exact .nil _
    | snoc _ hs ih =>
      have hold := fun hin => hno (step_grows hs hin)
      exact (ih hold).snoc ⟨hs, (clean_step hs hold).mp hno⟩

end Runs

/-- In every run that meets the condition, an operation whose event may have been accepted never fails and keeps its
staged row until it is completed. -/
theorem accepted_never_failed (pg : Platform) (ports : Ports) (id : String) {es : List (Pool.Ev SysSig Request)}
    {s : Server (postgres pg)}
    (h : Run (Under (Pool.Step (server (postgres pg) (productRegistry ports))) (CleanStep id))
      (Pool.start (World.init (postgres pg))) es s)
    (hm : mayBeAccepted s.world.history id = true) :
    ∃ row, s.world.store.row id = some row ∧ row.state ≠ .failed ∧
      (row.state ≠ .completed → (s.world.store.staged id).isSome = true) := by
  obtain ⟨hrun, hclean⟩ := clean_run.mp h
  obtain ⟨htables, htold, hexcused⟩ := (staging_of_run hrun).inv
  obtain ⟨m, hsent⟩ : ∃ m, s.world.store.Inserted id m := by
    obtain ⟨a, ha, hopen⟩ := any_eq_true.mp hm
    cases a <;> simp [Act.opensDoubt] at hopen
    obtain ⟨rfl, _⟩ := hopen
    exact ⟨_, htold _ ha⟩
  obtain ⟨row, hrow, hlive⟩ := htables.live id m hsent
  have hcancelled := htables.uncancelled id m row hsent hrow
  have hfailed : row.state ≠ .failed := fun hf =>
    (hexcused id row hrow hf).elim (fun hno => by rw [hm] at hno; cases hno) hclean
  refine ⟨row, hrow, hfailed, fun hcompleted => hlive ?_⟩
  revert hcancelled hfailed hcompleted
  cases row.state <;> decide

/-- The port of `messages.send` times out: the error that says so is flattened to its text on the way out, so that the
operation fails and its staged row is deleted. -/
theorem timeout_fails_operation : ∃ es s, ServerRun (postgres samplePlatform) (productRegistry samplePorts) es s ∧
      .sent "op-1" sampleMessage (.error (Err.new "timeout")) ∈ s.world.history ∧
      mayBeAccepted s.world.history "op-1" = true ∧
      (∃ row, s.world.store.row "op-1" = some row ∧ row.state = .failed) ∧
      s.world.store.staged "op-1" = none := by
  have hrun := stagedRun.2.handled 0 sampleContext (.sendPrepared sampleMessage) (.error (.new "timeout")) rfl rfl
  have hrun := hrun.handled 0 sampleContext (.mutated (.error (unknownError
    "send prepared Matrix event $prepared: timeout"))) () rfl rfl
  have hrun := hrun.answer 0 rfl .leave
  have hrun := hrun.answer 0 rfl (.store (.done rfl))
  have hrun := hrun.answer 0 rfl (.store (.done rfl))
  refine ⟨_, _, hrun, ?_, rfl, ⟨_, rfl, rfl⟩, rfl⟩
  show _ ∈ ([.created 0 "op-1", .began 0 "op-1", .sent "op-1" sampleMessage (.error (Err.new "timeout")),
    .tainted "op-1", .ended 0 "op-1"] : List Act)
  simp

/-- The condition at a run whose port takes the event. -/
theorem accepted_sent :
    ∃ es s, Run (Under (Pool.Step (server (postgres samplePlatform) (productRegistry samplePorts))) (CleanStep "op-1"))
        (Pool.start (World.init (postgres samplePlatform))) es s ∧
      mayBeAccepted s.world.history "op-1" = true ∧
      ∃ row, s.world.store.row "op-1" = some row ∧ row.state ≠ .failed ∧
        (row.state ≠ .completed → (s.world.store.staged "op-1").isSome = true) := by
  have hrun := stagedRun.2.handled 0 sampleContext (.sendPrepared sampleMessage) (.ok ⟨"$prepared", 1⟩) rfl rfl
  have hclean := clean_run.mpr ⟨hrun, show .tainted "op-1" ∉ ([.created 0 "op-1", .began 0 "op-1",
    .sent "op-1" sampleMessage (.ok ⟨"$prepared", 1⟩)] : List Act) by simp⟩
  exact ⟨_, _, hclean, rfl, accepted_never_failed samplePlatform samplePorts "op-1" hclean rfl⟩

end Dirextalk.Capability

/-
  Dirextalk.Operations.Dispatch — when `handleRecoverableOperation` calls the handler.

  The answers of all calls are arbitrary: each may depend on everything that was called and
  answered before, so other requests and other processes may do anything in between.
-/
import Dirextalk.Lib.Monitor
import Dirextalk.Operations.Recovery

namespace Dirextalk.Operations

open Lib Lib.Go Lib.Prog Dirextalk.Action Members List Only

/-! ## Kinds of calls -/

abbrev History := Prog.Trace RecoverySig

/-- Not the handler. -/
def Quiet : RecoveryCall → Prop
  | .handler _ _ => False
  | _ => True

/-- A leading underscore is outside the grammar of operation ids: the id of a workflow. -/
def Internal (operationID : String) : Prop := operationID.toList.head? = some '_'

/-- A call that leaves operations alone: it is not the handler, and writes records of workflows only. -/
def Aside : RecoveryCall → Prop
  | .handler _ _ => False
  | .claimOperation record _ _ | .compareAndSwapOperation record _ _ _ => Internal record.operationID
  | _ => True

/-- A swap or a release under the name of an owner. -/
def SwapBy (owner : String) : RecoveryCall → Prop
  | .compareAndSwapOperation _ _ owner' _ => owner' = owner
  | _ => False

/-- A call that leaves the lock and the claim of an owner as they are. -/
structure Keeps (owner : String) (c : RecoveryCall) : Prop where
  aside : Aside c
  not_swap : ¬ SwapBy owner c
  not_unlock : ∀ operationID, c ≠ .unlock operationID

def WritesTo (operationID : String) : RecoveryCall → Prop
  | .claimOperation record _ _ | .compareAndSwapOperation record _ _ _ => record.operationID = operationID
  | _ => False

variable {c : RecoveryCall}

theorem Aside.quiet (h : Aside c) : Quiet c := by
  cases c <;> first | exact h | trivial

theorem Aside.not_writesTo (h : Aside c) (hid : ¬ Internal operationID) : ¬ WritesTo operationID c := by
  intro hw
  cases c with
  | claimOperation | compareAndSwapOperation => exact hid (hw ▸ h)
  | _ => exact hw

/-! ## Queries -/

variable {α : Type} {post : α → Prop}

theorem query_only (hP : ∀ c, P (.query c))
    (h : p.Only (fun _ => True) post) : (query p).Only P post :=
  .via (σ := RecoverySig) (τ := QuerySig) .query (fun _ r => r) (fun c _ => hP c) h

theorem query_bind (p : Query α) (f : α → Query β) : query (p >>= f) = query p >>= fun a => query (f a) :=
  Prog.via_bind (σ := RecoverySig) (τ := QuerySig) RecoveryCall.query (fun _ r => r) p f

theorem query_any (hP : ∀ c, P (.query c)) (p : Query α) : (query p).Only P (fun _ => True) :=
  query_only hP (.any p)

/-! ## Operation ids -/

theorem operationIDPattern_not_internal {id : String} (h : operationIDPattern id = true) : ¬ Internal id := by
  intro hi
  unfold operationIDPattern at h
  unfold Internal at hi
  cases hl : id.toList with
  | nil => simp [hl] at h
  | cons c rest =>
    rw [hl] at h hi
    simp only [head?_cons, Option.some.injEq] at hi
    subst hi
    simp [isAlnum] at h

theorem providedOperationID_not_internal {params : Params} {id : String} (h : providedOperationID params = .ok (some id)) :
    ¬ Internal id := by
  unfold providedOperationID at h
  split at h
  · cases h
  · split at h
    · cases h
      exact operationIDPattern_not_internal ‹_›
    · cases h
  · cases h

theorem derivedOperationID_not_internal (action : String) (i : Identity) (requestID : String) :
    ¬ Internal (derivedOperationID action i requestID) := by
  simp [Internal, derivedOperationID]

variable {action : String} {record : Record}

theorem recordOf_not_internal {params : Params} {provided : Option String} {now : Int} {i : Identity}
    (h : ∀ id, provided = some id → ¬ Internal id) : ¬ Internal (recordOf action params provided now i).operationID := by
  simp only [recordOf]
  split
  · exact derivedOperationID_not_internal _ _ _
  cases provided with
  | none => exact derivedOperationID_not_internal _ _ _
  | some id => exact h id rfl

theorem operationRecordFor_not_internal (ownerMXID action : String) (params : Params) :
    (operationRecordFor ownerMXID action params).run.Only (fun _ => True) (OkPost fun r => ¬ Internal r.operationID) := by
  have hprovided : (.mk (pure (providedOperationID params)) : Reads _).run.Only (fun _ => True)
      (OkPost fun provided => ∀ id, provided = some id → ¬ Internal id) :=
    .pure fun provided hok id hid => providedOperationID_not_internal (hid ▸ hok)
  apply bindExcept (.anyOk _)
  intro now _
  apply bindExcept hprovided
  intro provided hprovided
  apply bindExcept (.anyOk _)
  intro target _
  apply bindExcept (.anyOk _)
  intro i _
  apply bindExcept (.anyOk _)
  intro member _
  exact .pure fun r hr => Except.ok.inj hr ▸ recordOf_not_internal hprovided

theorem readsVia_only (h : p.run.Only (fun _ => True) (OkPost post)) :
    (readsVia p).run.Only (fun _ => True) (OkPost post) :=
  .via (σ := QuerySig) (τ := ReadSig) .read (fun _ r => r) (fun _ _ => trivial) h

theorem requestRecord_not_internal (svc : Service) (action : String) (params : Params) (failed : Record) :
    (requestRecord svc action params failed).run.Only (fun _ => True) (OkPost fun r => ¬ Internal r.operationID) := by
  apply bindExcept ((readsVia_only (operationRecordFor_not_internal _ _ _)).adapt _)
  intro record hrecord
  apply bindExcept (.anyOk _)
  intro _ _
  exact .pure fun r hr => Except.ok.inj hr ▸ hrecord

theorem refresh_not_internal (svc : Service) (action : String) (params : Params)
    (h : ¬ Internal record.operationID) :
    (refresh svc action params record).run.Only (fun _ => True) (OkPost fun r => ¬ Internal r.operationID) := by
  unfold refresh
  split
  · exact requestRecord_not_internal _ _ _ _
  · exact .pure fun r hr => Except.ok.inj hr ▸ h

theorem throw_only (e : ε) : (throw e : ExceptT ε (Prog σ) α).run.Only (fun _ => True) (OkPost post) :=
  .pure fun _ => nofun

theorem exitWith_only (record : Record) (p : Guarded Result) :
    (exitWith record p : Early α).run.Only (fun _ => True) (OkPost post) := by
  exact .bindExcept (.anyOk _) fun _ _ => throw_only _

theorem admitStored_record (svc : Service) (action : String) (record : Record) :
    (admitStored svc action record).run.Only (fun _ => True) (OkPost fun r => r.1 = record) := by
  apply bindExcept (.anyOk _)
  intro superseded _
  split
  · exact exitWith_only _ _
  split
  · unfold admitCompleted
    apply bindExcept (.anyOk _)
    intro cached _
    apply bindExcept (.anyOk _)
    intro current _
    split
    · exact throw_only _
    apply bindExcept (.anyOk _)
    intro reset _
    exact .pure fun r hr => Except.ok.inj hr ▸ rfl
  · exact .pure fun r hr => Except.ok.inj hr ▸ rfl

/-- What is claimed is the operation that was looked up. -/
theorem admit_operationID (svc : Service) (action : String) (record : Record) :
    (admission svc action record).run.Only (fun _ => True) (OkPost fun r => r.1.operationID = record.operationID) := by
  apply bindExcept (.anyOk _)
  intro stored _
  cases stored with
  | none => exact .pure fun r hr => Except.ok.inj hr ▸ rfl
  | some stored =>
    dsimp only
    split
    · exact throw_only _
    · refine (admitStored_record _ _ _).mono fun r hr a ha => ?_
      exact (congrArg Record.operationID (hr a ha)).trans stored.2

/-! ## Trackers and workflows -/

/-- A query, or a swap of the tracker's own record. -/
def Tracker.Own (t : Tracker) : RecoveryCall → Prop
  | .query _ => True
  | .compareAndSwapOperation record _ owner _ => owner = t.owner ∧ record.operationID = t.record.operationID
  | _ => False

/-- The tracker of a workflow: no operation has its id, and no claim of an operation its owner. -/
structure Tracker.IsWorkflow (t : Tracker) : Prop where
  internal : Internal t.record.operationID
  owner : t.owner.toList.head? = some 'w'

namespace Tracker

variable {t t' : Tracker} {c : RecoveryCall}

theorem Own.quiet (h : t.Own c) : Quiet c := by
  cases c <;> trivial

theorem Own.not_swapBy {owner : String} (h : t.Own c) (hne : t.owner ≠ owner) : ¬ SwapBy owner c := by
  intro hs
  cases c with
  | compareAndSwapOperation record revision owner' d => exact hne (h.1 ▸ hs)
  | _ => exact hs

theorem Own.aside (h : t.Own c) (hi : Internal t.record.operationID) : Aside c := by
  cases c with
  | compareAndSwapOperation record revision owner d => exact (congrArg Internal h.2).mpr hi
  | query c => trivial
  | _ => exact h.elim

theorem Own.keeps {owner : String} (h : t.Own c) (hi : Internal t.record.operationID) (hne : t.owner ≠ owner) : Keeps owner c :=
  ⟨h.aside hi, h.not_swapBy hne, fun _ heq => by subst heq; exact h⟩

theorem update_only (t : Tracker) (p : Progress) :
    (t.update p).Only t.Own (OkPost fun t' => t'.owner = t.owner ∧ t'.record.operationID = t.record.operationID) := by
  apply Only.ask trivial
  intro now
  apply ask ⟨rfl, rfl⟩
  intro r
  match r with
  | .error e => exact .pure fun _ => nofun
  | .ok none => exact .pure fun _ => nofun
  | .ok (some updated) => exact .pure fun t' h => Except.ok.inj h ▸ ⟨rfl, updated.2⟩

theorem release_only (t : Tracker) : t.release.Only t.Own (fun _ => True) := by
  unfold release
  split
  · exact .pure trivial
  apply Only.ask trivial
  intro now
  apply ask ⟨rfl, rfl⟩
  intro r
  match r with
  | .error e => exact .pure trivial
  | .ok none => exact .pure trivial
  | .ok (some updated) => exact .pure trivial

end Tracker

theorem releaseAfter_only (named : Record) (t : Tracker) (answer : Except ApiError Result) :
    (releaseAfter named t answer).Only t.Own (fun _ => True) := by
  apply bind t.release_only
  intro r _
  cases r <;> exact .pure trivial

theorem settle_only (svc : Service) (t : Tracker) (outcome : Except ApiError Result) :
    (settle svc t outcome).Only t.Own (fun r => r.1.owner = t.owner ∧ r.1.record.operationID = t.record.operationID) := by
  cases outcome with
  | error e =>
    apply bind (t.update_only _)
    intro r hr
    cases r with
    | error err => exact .pure ⟨rfl, rfl⟩
    | ok t' => exact .pure (hr t' rfl)
  | ok result =>
    unfold settle
    dsimp only
    split
    · exact .pure ⟨rfl, rfl⟩
    apply bind (t.update_only _)
    intro r hr
    cases r with
    | error err => exact .pure ⟨rfl, rfl⟩
    | ok t' => exact .pure (hr t' rfl)

theorem renew_only (h : ∀ w ∈ workflow, w.IsWorkflow)
    (howner : owner.toList.head? ≠ some 'w') :
    (renew workflow).Only (Keeps owner) (OkPost fun w' => ∀ w ∈ w', w.IsWorkflow) := by
  cases workflow with
  | none => exact .pure fun w' hw => Except.ok.inj hw ▸ h
  | some w =>
    have hw := h w rfl
    have hne : w.owner ≠ owner := fun heq => howner (heq ▸ hw.owner)
    apply bind ((w.update_only _).weaken fun c hc => hc.keeps hw.internal hne)
    intro r hr
    cases r with
    | error e => exact .pure fun _ => nofun
    | ok w' =>
      obtain ⟨howner', hid⟩ := hr w' rfl
      refine .pure fun r hok w'' hw'' => ?_
      cases hok
      cases hw''
      exact ⟨hid ▸ hw.internal, howner' ▸ hw.owner⟩

theorem claimWorkflow_only (hid : Internal workflow.operationID)
    (howner : owner.toList.head? = some 'w') (rounds : Nat) :
    (claimWorkflow record workflow owner rounds).Only Aside
      (OkPost fun a => ∀ w, a = .acquired w → ∀ t ∈ w, t.IsWorkflow) := by
  induction rounds with
  | zero => exact .pure fun a h w hw => by cases h; cases hw
  | succ rounds ih =>
    apply Only.ask hid
    intro r
    match r with
    | .error e =>
      apply Only.ask trivial
      intro expired
      cases expired
      · exact .pure fun _ => nofun
      · exact .pure fun a h w hw => by cases h; cases hw
    | .ok (claimed, true) =>
      refine .pure fun a h w hw t ht => ?_
      cases h
      cases hw
      cases ht
      exact ⟨(congrArg Internal claimed.2).mpr hid, howner⟩
    | .ok (_, false) =>
      apply Only.ask trivial
      intro expired
      cases expired
      · exact ih
      · exact .pure fun a h w hw => by cases h; cases hw

theorem durableBusinessWorkflowRecord_internal
    (h : durableBusinessWorkflowRecord record = some workflow) : Internal workflow.operationID := by
  simp only [durableBusinessWorkflowRecord, Option.ite_none_left_eq_some, Option.some.injEq] at h
  simp [← h.2, Internal]

theorem workflow_owner (token : String) : ("workflow_" ++ token).toList.head? = some 'w' := by simp

theorem acquireDurableBusinessWorkflow_only (rounds : Nat) (record : Record) :
    (acquireDurableBusinessWorkflow rounds record).Only Aside
      (OkPost fun a => ∀ w, a = .acquired w → ∀ t ∈ w, t.IsWorkflow) := by
  have hnone : (pure (.ok (.acquired none)) : Calls (Except ApiError Acquired)).Only Aside
      (OkPost fun a => ∀ w, a = .acquired w → ∀ t ∈ w, t.IsWorkflow) :=
    .pure fun a h w hw t ht => by cases h; cases hw; cases ht
  apply Only.bind (query_any (fun _ => trivial) _)
  intro r _
  match r with
  | .error e => exact .pure fun _ => nofun
  | .ok true => exact hnone
  | .ok false =>
    cases hw : durableBusinessWorkflowRecord record with
    | none => exact hnone
    | some workflow =>
      apply Only.ask trivial
      intro now
      apply Only.ask trivial
      intro token
      have hid := durableBusinessWorkflowRecord_internal hw
      exact claimWorkflow_only (by exact hid) (workflow_owner token) rounds

theorem acquire_only (svc : Service) (rounds : Nat) (action : String) (params : Params) :
    (acquire svc rounds action params).Only Aside
      (OkPost fun r => ¬ Internal r.1.operationID ∧ ∀ t ∈ r.2, t.IsWorkflow) := by
  apply Only.bind (query_only (fun _ => trivial) (requestRecord_not_internal _ _ _ _))
  intro r hr
  cases r with
  | error exit => exact .pure fun _ => nofun
  | ok record =>
    apply bind (acquireDurableBusinessWorkflow_only rounds record)
    intro r hworkflow
    match r with
    | .error e => exact .pure fun _ => nofun
    | .ok .busy => exact query_only (fun _ => trivial) (exitWith_only _ _)
    | .ok (.acquired workflow) =>
      refine .pure fun a h => ?_
      cases h
      exact ⟨hr record rfl, hworkflow _ rfl workflow rfl⟩

/-! ## The handler runs under the claim -/

/-- What the request has called so far grants it the operation of the tracker: under its lock it was granted the
record, of its own action and identity, and has neither swapped nor released it since. -/
def Holds (action : String) (tracker : Tracker) (earlier : History) : Prop :=
  ∃ (record : Record) (current : RecordOf record.operationID) (since before : History),
    earlier = since ++ ⟨.claimOperation record tracker.owner operationLeaseDurationMillis, .ok (current, true)⟩ :: before ∧
    record.operationID = tracker.record.operationID ∧
    ¬ (current.1.action ≠ action ∨ operationIdentityConflict current.1 record = true) ∧
    (⟨.lock record.operationID, ()⟩ ∈ before) ∧ ∀ x ∈ since, Keeps tracker.owner x.1

theorem Holds.append (h : Holds action tracker earlier)
    (hnew : ∀ x ∈ new, Keeps tracker.owner x.1) : Holds action tracker (new ++ earlier) := by
  obtain ⟨record, current, since, before, rfl, hid, hsame, hlock, hsince⟩ := h
  refine ⟨record, current, new ++ since, before, by rw [append_assoc], hid, hsame, hlock, ?_⟩
  intro x hx
  obtain hx | hx := mem_append.mp hx
  · exact hnew x hx
  · exact hsince x hx

/-- The handler is called for the first time, under the claim of its operation. -/
def Allowed (action : String) (earlier : History) : RecoveryCall → Prop
  | .handler _ tracker => (∀ x ∈ earlier, Quiet x.1) ∧ Holds action tracker earlier
  | _ => True

theorem allowed_of_quiet (h : Quiet c) : Allowed action earlier c := by
  cases c <;> trivial

section Handler

variable {svc : Service} {action : String} {params : Params} {record : Record} {tracker : Tracker}
  {workflow : Option Tracker} {tr : History}

/-- A part without the handler. -/
theorem quiet_obeys {α : Type} {P : RecoveryCall → Prop} {post : α → Prop} {p : Calls α} (h : p.Only P post)
    (hP : ∀ c, P c → Quiet c) (tr : History) :
    p.Obeys (Monitor.history (Allowed action)) (fun a tr' => post a ∧ ∃ new, tr' = new ++ tr ∧ ∀ x ∈ new, P x.1) tr :=
  h.history (fun _ c hc => allowed_of_quiet (hP c hc)) tr

theorem quiet_append (hnew : ∀ x ∈ new, Quiet x.1) (h : ∀ x ∈ tr, Quiet x.1) : ∀ x ∈ new ++ tr, Quiet x.1 := by
  intro x hx
  obtain hx | hx := mem_append.mp hx
  · exact hnew x hx
  · exact h x hx

theorem execute_obeys (hworkflow : ∀ w ∈ workflow, w.IsWorkflow) (hquiet : ∀ x ∈ tr, Quiet x.1)
    (howner : tracker.owner.toList.head? ≠ some 'w') (hholds : Holds action tracker tr) :
    (execute svc action params record tracker workflow).Obeys (Monitor.history (Allowed action)) (fun _ _ => True) tr := by
  apply Prog.Obeys.bind (quiet_obeys (renew_only hworkflow howner) (fun c hc => hc.aside.quiet) tr)
  rintro r tr' ⟨-, new, rfl, hnew⟩
  cases r with
  | error err =>
    apply Prog.Obeys.bind (quiet_obeys (releaseAfter_only _ _ _) (fun c hc => hc.quiet) _)
    exact fun _ _ _ => .pure trivial
  | ok workflow =>
    refine .ask ⟨quiet_append (fun x hx => (hnew x hx).aside.quiet) hquiet, hholds.append hnew⟩ ?_
    intro r _
    apply Prog.Obeys.bind (quiet_obeys (settle_only _ _ _) (fun c hc => hc.quiet) _)
    intro r _ _
    apply Prog.Obeys.bind (quiet_obeys (releaseAfter_only _ _ _) (fun c hc => hc.quiet) _)
    exact fun _ _ _ => .pure trivial

theorem claim_owner (token : String) : ("claim_" ++ token).toList.head? ≠ some 'w' := by simp

theorem claimedRecord_only (owner : String) (reset : Bool) (current : Record) :
    (claimedRecord reset current).Only (Keeps owner) (fun r => r.operationID = current.operationID) := by
  unfold claimedRecord
  split
  · apply ask ⟨trivial, id, fun _ => nofun⟩
    exact fun now => .pure rfl
  · exact .pure rfl

theorem claim_obeys {reset : Bool} (hworkflow : ∀ w ∈ workflow, w.IsWorkflow) (hquiet : ∀ x ∈ tr, Quiet x.1)
    (hlock : ⟨.lock record.operationID, ()⟩ ∈ tr) :
    (claim svc action params record reset workflow).Obeys (Monitor.history (Allowed action)) (fun _ _ => True) tr := by
  apply Prog.Obeys.ask trivial
  intro (token : String) _
  apply Prog.Obeys.ask trivial
  intro r _
  match r with
  | .error err => exact .pure trivial
  | .ok (current, claimed) =>
    dsimp only
    split
    · exact .pure trivial
    rename_i hsame
    split
    · rename_i hclaimed
      subst hclaimed
      apply Prog.Obeys.bind (quiet_obeys (claimedRecord_only ("claim_" ++ token) _ _) (fun c hc => hc.aside.quiet) _)
      rintro record' tr' ⟨hid, new, rfl, hnew⟩
      refine execute_obeys hworkflow ?_ (claim_owner token) ?_
      · refine quiet_append (fun x hx => (hnew x hx).aside.quiet) ?_
        intro x hx
        obtain rfl | hx := mem_cons.mp hx
        · trivial
        obtain rfl | hx := mem_cons.mp hx
        · trivial
        · exact hquiet x hx
      · exact ⟨record, current, new, _, rfl, (hid.trans current.2).symm, hsame, mem_cons_of_mem _ hlock, hnew⟩
    · apply Prog.Obeys.bind (quiet_obeys (query_any (fun _ => trivial) _) (fun _ h => h) _)
      exact fun _ _ _ => .pure trivial

theorem underWorkflow_obeys (hworkflow : ∀ w ∈ workflow, w.IsWorkflow) (hquiet : ∀ x ∈ tr, Quiet x.1) :
    (underWorkflow svc action params record workflow).Obeys (Monitor.history (Allowed action)) (fun _ _ => True) tr := by
  apply Prog.Obeys.bind (quiet_obeys (query_any (fun _ => trivial) _) (fun _ h => h) _)
  rintro r tr' ⟨-, new, rfl, hnew⟩
  cases r with
  | error exit => exact .pure trivial
  | ok record =>
    have hquiet' := quiet_append hnew hquiet
    apply Prog.Obeys.ask trivial
    intro _ _
    have hdispatch : (dispatch svc action params record workflow).Obeys (.history (Allowed action)) (fun _ _ => True)
        (⟨.lock record.operationID, ()⟩ :: (new ++ tr)) := by
      apply Prog.Obeys.bind (quiet_obeys (query_only (fun _ => trivial) (admit_operationID svc action record)) (fun _ h => h) _)
      rintro r tr' ⟨hid, new', rfl, hnew'⟩
      cases r with
      | error exit => exact .pure trivial
      | ok r =>
        refine claim_obeys hworkflow (quiet_append hnew' ?_) ?_
        · intro x hx
          obtain rfl | hx := mem_cons.mp hx
          · trivial
          · exact hquiet' x hx
        · rw [hid r rfl]
          exact mem_append_right _ mem_cons_self
    apply Prog.Obeys.bind hdispatch
    intro out tr' _
    apply Prog.Obeys.ask trivial
    exact fun _ _ => .pure trivial

end Handler

theorem handleRecoverableOperation_obeys (svc : Service) (rounds : Nat) (action : String) (params : Params) :
    (handleRecoverableOperation svc rounds action params).Obeys (Monitor.history (Allowed action)) (fun _ _ => True) [] := by
  apply Prog.Obeys.bind (quiet_obeys (acquire_only svc rounds action params) (fun c hc => hc.quiet) [])
  rintro r tr ⟨hpost, new, rfl, hnew⟩
  cases r with
  | error exit => exact .pure trivial
  | ok r =>
    have hquiet := quiet_append (fun x hx => (hnew x hx).quiet) (fun x hx => absurd hx not_mem_nil)
    apply Prog.Obeys.bind (underWorkflow_obeys (hpost r rfl).2 hquiet)
    intro out tr' _
    dsimp only
    split
    · exact .pure trivial
    · exact (quiet_obeys (releaseAfter_only _ _ _) (fun c hc => hc.quiet) _).mono fun _ _ _ => trivial

/-! ## What is stored can decide the request -/

abbrev Oracle := History → (c : RecoveryCall) → c.Ans

abbrev runQuery {ε α : Type} (oracle : Oracle) (tr : History) (p : ExceptT ε Query α) : Except ε α × History :=
  (query p.run).eval oracle tr

def Exits {ε α : Type} (oracle : Oracle) (tr : History) (p : ExceptT ε Query α) : Prop :=
  ∃ e, (runQuery oracle tr p).1 = .error e

section Exits

variable {ε ε' α β : Type} {oracle : Oracle} {tr : History}

/-- A query exits if its rest does, whatever its first step answers. -/
theorem exits_bind
    (h : ∀ a, (runQuery oracle tr p).1 = .ok a → Exits oracle (runQuery oracle tr p).2 (f a)) : Exits oracle tr (p >>= f) := by
  show ∃ e, ((query (p.run >>= ExceptT.bindCont f)).eval oracle tr).1 = .error e
  rw [query_bind, Prog.eval_bind]
  cases hr : (runQuery oracle tr p).1 with
  | error e => exact ⟨e, rfl⟩
  | ok a => exact h a hr

theorem exits_throw (e : ε) : Exits oracle tr (throw e : ExceptT ε Query α) := ⟨e, rfl⟩

/-- Another error in its place changes neither the calls nor the result. -/
theorem runQuery_adapt (f : ε → ε') (p : ExceptT ε Query α) :
    runQuery oracle tr (p.adapt f) = ((runQuery oracle tr p).1.mapError f, (runQuery oracle tr p).2) := by
  show (query (p.run >>= fun r => pure (r.mapError f))).eval oracle tr = _
  rw [query_bind, Prog.eval_bind]
  rfl

theorem runQuery_orExit {record : Record} {p : Fallible α} {a : α} :
    (runQuery oracle tr (orExit record (orPersistence record p))).1 = .ok a ↔ (runQuery oracle tr p).1 = .ok a := by
  simp only [orExit, orPersistence, runQuery_adapt, mapError_eq_ok]

theorem runQuery_orExit_history :
    (runQuery oracle tr (orExit record (orPersistence record p))).2 = (runQuery oracle tr p).2 := by
  simp only [orExit, orPersistence, runQuery_adapt]

end Exits

/-- The request id of a row is of another generation than the record, and not the one on which a record that is not completed
starts the row anew. -/
def Supersedes (stored : Record) (restarts : Prop) (requestID : String) : Prop :=
  requestID ≠ "" ∧ requestID ≠ stored.requestID ∧ ¬ (restarts ∧ stored.status ≠ "completed" ∧ requestID = stored.baseRequestID)

/-- The row of the record's contact or member, as it is found after `tr`, supersedes the record. -/
def Superseded (svc : Service) (oracle : Oracle) (stored : Record) (tr : History) : Prop :=
  stored.requestID ≠ "" ∧
    if hasPrefix stored.action "contacts." ∧ svc.contactsModule then
      trimSpace stored.peerMXID ≠ "" ∧
        ∃ contact, oracle tr (.query (.read (.contactByPeer (trimSpace stored.peerMXID)))) = .ok (some contact) ∧
          Supersedes stored (stored.action = "contacts.request" ∧ contactDeleted contact.status) contact.requestID
    else
      ¬ (stored.roomID = "" ∨ stored.userID = "") ∧
        ∃ member, oracle tr (.query (.read (.lookupMember stored.roomID stored.userID))) = .ok (some member) ∧
          Supersedes stored (stored.action = "channels.public.join_request" ∧ channelJoinGenerationMayRestart member.membership)
            member.requestID

/-- What is stored decides the request: the record is another's, superseded, or completed with a result that still
stands. `tr` are the calls up to and with the lookup. -/
def Refused (svc : Service) (oracle : Oracle) (action : String) (record stored : Record) (tr : History) : Prop :=
  (stored.action ≠ action ∨ operationIdentityConflict stored record = true) ∨
    Superseded svc oracle stored tr ∨
    (stored.status = "completed" ∧ stored.resultJSON ≠ "" ∧
      ∃ cached, decodeRecoverableOperationResult svc action stored.resultJSON = .ok cached ∧
        (runQuery oracle (runQuery oracle tr (operationGenerationSuperseded svc stored)).2
          (completedOperationStillCurrent svc stored cached)).1 = .ok true)

section Refused

variable {svc : Service} {oracle : Oracle} {action : String} {record stored : Record} {tr : History}

theorem runQuery_bind {p : Fallible α} {f : α → Fallible β} (h : runQuery oracle tr p = (.ok a, tr')) :
    runQuery oracle tr (p >>= f) = runQuery oracle tr' (f a) := by
  change (query p.run).eval oracle tr = _ at h
  show (query (p.run >>= ExceptT.bindCont f)).eval oracle tr = _
  rw [query_bind, Prog.eval_bind, h]
  rfl

theorem Superseded.read (h : Superseded svc oracle stored tr) :
    (runQuery oracle tr (operationGenerationSuperseded svc stored)).1 = .ok true := by
  obtain ⟨hid, hrow⟩ := h
  unfold operationGenerationSuperseded
  rw [if_neg hid]
  split at hrow
  · rename_i hcontacts
    obtain ⟨hpeer, contact, hread, hempty, hother, hrestarts⟩ := hrow
    have hfound : runQuery oracle tr (lookupByPeer stored.peerMXID) =
        (.ok (some contact), ⟨.query (.read (.contactByPeer (trimSpace stored.peerMXID))), .ok (some contact)⟩ :: tr) := by
      rw [lookupByPeer, if_neg hpeer, ← hread]
      rfl
    rw [if_pos hcontacts, runQuery_bind hfound]
    dsimp only
    rw [if_neg (and_assoc.not.mp hrestarts), decide_eq_true ⟨hempty, hother⟩]
    rfl
  · rename_i hmembers
    obtain ⟨hkey, member, hread, hempty, hother, hrestarts⟩ := hrow
    have hfound : runQuery oracle tr (lookupMember stored.roomID stored.userID) =
        (.ok (some member), ⟨.query (.read (.lookupMember stored.roomID stored.userID)), .ok (some member)⟩ :: tr) := by
      rw [lookupMember, if_neg hkey, ← hread]
      rfl
    rw [if_neg hmembers, runQuery_bind hfound]
    dsimp only
    rw [if_neg (and_assoc.not.mp hrestarts), decide_eq_true ⟨hempty, hother⟩]
    rfl

theorem admitCompleted_exits (hdecode : decodeRecoverableOperationResult svc action stored.resultJSON = .ok cached)
    (hcurrent : (runQuery oracle tr (completedOperationStillCurrent svc stored cached)).1 = .ok true) :
    Exits oracle tr (admitCompleted svc action stored) := by
  apply exits_bind
  intro cached' hcached
  rw [runQuery_orExit] at hcached
  obtain rfl : cached' = cached := Except.ok.inj (hcached.symm.trans hdecode)
  rw [runQuery_orExit_history]
  apply exits_bind
  intro current hcurrent'
  rw [runQuery_orExit] at hcurrent'
  obtain rfl : current = true := Except.ok.inj (hcurrent'.symm.trans hcurrent)
  exact exits_throw _

theorem admitStored_exits (h : Refused svc oracle action record stored tr)
    (hsame : ¬ (stored.action ≠ action ∨ operationIdentityConflict stored record = true)) :
    Exits oracle tr (admitStored svc action stored) := by
  apply exits_bind
  intro superseded hsuperseded
  rw [runQuery_orExit] at hsuperseded
  rw [runQuery_orExit_history]
  cases superseded with
  | true => exact exits_bind fun _ _ => exits_throw _
  | false =>
    obtain h | h | ⟨hstatus, hresult, cached, hdecode, hcurrent⟩ := h
    · exact absurd h hsame
    · cases hsuperseded.symm.trans h.read
    · simp only [hstatus, hresult, ne_eq, not_false_eq_true, and_self, if_true, Bool.false_eq_true, if_false]
      exact admitCompleted_exits hdecode hcurrent

/-- A refused request does not get to its claim. -/
theorem admit_exits {stored : RecordOf record.operationID}
    (hlookup : oracle tr (.query (.lookupOperation record.operationID)) = .ok (some stored))
    (h : Refused svc oracle action record stored.1 (⟨.query (.lookupOperation record.operationID), .ok (some stored)⟩ :: tr)) :
    Exits oracle tr (admission svc action record) := by
  have hquery : runQuery oracle tr (lookupOperation record.operationID) =
      (.ok (some stored), ⟨.query (.lookupOperation record.operationID), .ok (some stored)⟩ :: tr) := by
    rw [← hlookup]
    rfl
  apply exits_bind
  intro found hfound
  rw [runQuery_orExit, hquery] at hfound
  rw [runQuery_orExit_history, hquery]
  cases hfound
  dsimp only
  split
  · exact exits_throw _
  · exact admitStored_exits h ‹_›

end Refused

/-! ## Main theorem -/

/-- All calls of a request with their answers, newest first. -/
def calls (svc : Service) (rounds : Nat) (action : String) (params : Params) (oracle : Oracle) : History :=
  ((handleRecoverableOperation svc rounds action params).eval oracle []).2

/-- The request is led to `record`, takes the lock of its operation and finds `stored`. `tr` are its calls
up to and with the lookup. -/
def Found (svc : Service) (rounds : Nat) (action : String) (params : Params) (oracle : Oracle) (record : Record)
    (stored : RecordOf record.operationID) (tr : History) : Prop :=
  ∃ (first : Record) (workflow : Option Tracker) (h h' : History),
    (acquire svc rounds action params).eval oracle [] = (.ok (first, workflow), h) ∧
    runQuery oracle h (refresh svc action params first) = (.ok record, h') ∧
    oracle (⟨.lock record.operationID, ()⟩ :: h') (.query (.lookupOperation record.operationID)) = .ok (some stored) ∧
    tr = ⟨.query (.lookupOperation record.operationID), .ok (some stored)⟩ :: ⟨.lock record.operationID, ()⟩ :: h'

section Main

variable {svc : Service} {rounds : Nat} {action : String} {params : Params} {oracle : Oracle} {record : Record}
  {stored : RecordOf record.operationID} {tr : History}

/-- The calls of a part that leaves operations alone. -/
theorem aside_eval {α : Type} {post : α → Prop} {p : Calls α} (oracle : Oracle) (h : p.Only Aside post)
    (htr : ∀ x ∈ tr, Aside x.1) : ∀ x ∈ (p.eval oracle tr).2, Aside x.1 := by
  obtain ⟨-, new, hnew, haside⟩ := h.eval oracle tr
  intro x hx
  rw [hnew] at hx
  obtain hx | hx := mem_append.mp hx
  · exact haside x hx
  · exact htr x hx

theorem eval_lock (id : String) : (lock id).eval oracle tr = ((), ⟨.lock id, ()⟩ :: tr) := rfl

theorem refused_aside (hfound : Found svc rounds action params oracle record stored tr)
    (hrefused : Refused svc oracle action record stored.1 tr) :
    ¬ Internal record.operationID ∧ ∀ x ∈ calls svc rounds action params oracle, Aside x.1 := by
  obtain ⟨first, workflow, h, h', hacquire, hrefresh, hlookup, rfl⟩ := hfound
  obtain ⟨hpost, -⟩ := (acquire_only svc rounds action params).eval oracle []
  have hnil : ∀ x ∈ ([] : History), Aside x.1 := fun x hx => absurd hx not_mem_nil
  have haside : ∀ x ∈ h, Aside x.1 := by
    have := aside_eval oracle (acquire_only svc rounds action params) hnil
    rwa [hacquire] at this
  rw [hacquire] at hpost
  obtain ⟨hid, hworkflow⟩ := hpost _ rfl
  have hrefresh_only := query_only (P := Aside) (fun _ => trivial)
    (refresh_not_internal svc action params hid)
  have hid' : ¬ Internal record.operationID := by
    obtain ⟨hpost', -⟩ := hrefresh_only.eval oracle h
    exact hpost' record (congrArg Prod.fst hrefresh)
  have haside' : ∀ x ∈ h', Aside x.1 := by
    have := aside_eval oracle hrefresh_only haside
    rwa [show ((query (refresh svc action params first).run).eval oracle h) = _ from hrefresh] at this
  refine ⟨hid', ?_⟩
  obtain ⟨exit, hexit⟩ := admit_exits hlookup hrefused
  have hlocked : ∀ x ∈ (⟨.lock record.operationID, ()⟩ :: h' : History), Aside x.1 :=
    forall_mem_cons.mpr ⟨trivial, haside'⟩
  have hadmitted := aside_eval oracle (query_any (P := Aside) (fun _ => trivial) (admission svc action record).run) hlocked
  unfold calls handleRecoverableOperation
  rw [Prog.eval_bind, hacquire]
  -- what is stored decides the request under its lock
  simp only [underWorkflow, dispatch, Prog.eval_bind, hrefresh, eval_lock, hexit]
  have hdone :
      ∀ x ∈ (⟨.unlock record.operationID, ()⟩ :: (runQuery oracle _ (admission svc action record)).2 : History), Aside x.1 :=
    forall_mem_cons.mpr ⟨trivial, hadmitted⟩
  cases workflow with
  | none => exact hdone
  | some w => exact aside_eval oracle ((releaseAfter_only _ w _).weaken fun c hc => hc.aside (hworkflow w rfl).internal) hdone

end Main

/-- Whatever is answered, the handler is called at most once, and under the claim of its operation. When what is
stored decides the request, there is no handler call, no claim and no swap. -/
theorem recoverable_dispatch (svc : Service) (rounds : Nat) (action : String) (params : Params) (oracle : Oracle) :
    (∀ (later earlier : History) (given : Params) (tracker : Tracker) (outcome),
      calls svc rounds action params oracle = later ++ ⟨.handler given tracker, outcome⟩ :: earlier →
        (∀ x ∈ later ++ earlier, Quiet x.1) ∧ Holds action tracker earlier) ∧
    ∀ (record : Record) (stored : RecordOf record.operationID) (tr : History),
      Found svc rounds action params oracle record stored tr → Refused svc oracle action record stored.1 tr →
        ∀ x ∈ calls svc rounds action params oracle, Quiet x.1 ∧ ¬ WritesTo record.operationID x.1 := by
  have hobeys := handleRecoverableOperation_obeys svc rounds action params
  refine ⟨?_, ?_⟩
  · intro later earlier given tracker outcome hsplit
    obtain ⟨hquiet, hholds⟩ : Allowed action earlier (.handler given tracker) :=
      hobeys.eval_history oracle hsplit (Nat.zero_le _)
    refine ⟨?_, hholds⟩
    intro x hx
    obtain hx | hx := mem_append.mp hx
    · -- a later handler call would have this one before it
      obtain ⟨l₁, l₂, rfl⟩ := append_of_mem hx
      rw [append_assoc] at hsplit
      obtain ⟨c, r⟩ := x
      have hallowed := hobeys.eval_history oracle hsplit (Nat.zero_le _)
      cases c with
      | handler given' tracker' =>
        exact (hallowed.1 ⟨.handler given tracker, outcome⟩ (mem_append_right _ mem_cons_self)).elim
      | _ => trivial
    · exact hquiet x hx
  · intro record stored tr hfound hrefused x hx
    obtain ⟨hid, haside⟩ := refused_aside hfound hrefused
    exact ⟨(haside x hx).quiet, (haside x hx).not_writesTo hid⟩

/-! A request `groups.join` with nothing stored, and with an operation of another action under its id. -/

def sampleService : Service where
  ownerMXID := "@o:local"
  transport := false
  contactsModule := false
  conversationModule := false
  membersModule := true
  unmarshalView _ := .error "unused"
  unmarshalFields _ := .error "unused"
  marshal _ := .ok "null"

def sampleRequest : Params
  | "operation_id" => some (.string "op1")
  | "room_id" => some (.string "!r:local")
  | "request_id" => some (.string "g1")
  | _ => none

def sampleOracle (stored : (operationID : String) → Option (RecordOf operationID)) : Oracle := fun _ c =>
  match c with
  | .query (.read .now) => (0 : Int)
  | .query (.read (.channelByIDOrRoom _ _)) => .ok none
  | .query (.read (.lookupMember _ _)) => .ok none
  | .query (.read (.contactByRoom _)) => .ok none
  | .query (.read (.contactByPeer _)) => .ok none
  | .query (.lookupOperation operationID) => .ok (stored operationID)
  | .query (.matrixMemberJoined _ _) => .ok false
  | .query (.conversationRecord _) => .ok false
  | .query (.conversationOperation _ _ _) => .ok ⟨"", none⟩
  | .query (.channelSnapshot _) => ⟨"", "", "", ""⟩
  | .claimOperation record _ _ => .ok (⟨record, rfl⟩, true)
  | .compareAndSwapOperation record _ _ _ => .ok (some ⟨record, rfl⟩)
  | .randomToken _ => "token"
  | .waitOver => false
  | .pause => false
  | .lock _ => ()
  | .unlock _ => ()
  | .handler _ tracker => (.ok (.other "joined"), ⟨tracker.record, rfl⟩)

def isHandler : RecoveryCall → Bool
  | .handler _ _ => true
  | _ => false

def sampleCalls (stored : (operationID : String) → Option (RecordOf operationID)) : History :=
  calls sampleService 1 "groups.join" sampleRequest (sampleOracle stored)

def otherAction (operationID : String) : Option (RecordOf operationID) :=
  some ⟨{ noRecord with operationID := operationID, action := "groups.invite.reject" }, rfl⟩

/-- A fresh request calls the handler under its claim; with another action stored under its id it does
not. -/
theorem recoverable_dispatch_groups_join : (∃ later earlier given tracker outcome,
      sampleCalls (fun _ => none) = later ++ ⟨.handler given tracker, outcome⟩ :: earlier ∧ Holds "groups.join" tracker earlier) ∧
    ∃ record stored tr, Found sampleService 1 "groups.join" sampleRequest (sampleOracle otherAction) record stored tr ∧
      ∀ x ∈ sampleCalls otherAction, Quiet x.1 ∧ ¬ WritesTo record.operationID x.1 := by
  constructor
  · have hany : (sampleCalls fun _ => none).any (fun x => isHandler x.1) = true := by decide
    obtain ⟨⟨c, r⟩, hmem, hc⟩ := any_eq_true.mp hany
    obtain ⟨later, earlier, hsplit⟩ := append_of_mem hmem
    cases c with
    | handler given tracker =>
      exact ⟨later, earlier, given, tracker, r, hsplit, ((recoverable_dispatch _ _ _ _ _).1 _ _ _ _ _ hsplit).2⟩
    | _ => cases hc
  · have hok : ((acquire sampleService 1 "groups.join" sampleRequest).eval (sampleOracle otherAction) []).1.toOption.isSome =
        true := by
      decide
    obtain ⟨⟨first, workflow⟩, hacquire⟩ := Option.isSome_iff_exists.mp hok
    cases hr : (acquire sampleService 1 "groups.join" sampleRequest).eval (sampleOracle otherAction) [] with
    | mk r h =>
      rw [hr] at hacquire
      cases r with
      | error e => cases hacquire
      | ok r =>
        have hfound : Found sampleService 1 "groups.join" sampleRequest (sampleOracle otherAction) r.1
            ⟨{ noRecord with operationID := r.1.operationID, action := "groups.invite.reject" }, rfl⟩ _ :=
          ⟨r.1, r.2, h, h, hr, rfl, rfl, rfl⟩
        have hother : "groups.invite.reject" ≠ "groups.join" := by decide
        exact ⟨r.1, _, _, hfound, (recoverable_dispatch _ _ _ _ _).2 _ _ _ hfound (.inl (.inl hother))⟩

end Dirextalk.Operations

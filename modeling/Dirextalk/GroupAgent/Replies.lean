/-
  Dirextalk.GroupAgent.Replies — what goes out to a room for a request of the group agent.

  The calls interleave in any order, and any of them may crash.
-/
import Dirextalk.GroupAgent.Threads

namespace Dirextalk.GroupAgent

open Lib Lib.Go

open Capability (Error OperationContext PreparedMessage HandlerCall StoreCall)

/-- The system, every call made as it comes. -/
abbrev system (svc : Service) : Machine CallSig Task World := machine svc fun _ _ _ _ => True

def Sends (es : List Event) (pub : Publication) (m : PreparedMessage) : Prop :=
  ∃ t answer, (Pool.Ev.answer t (Call.transport pub (.sendPrepared m)) answer : Event) ∈ es

section Runs

variable {S : Setting} {svc : Service} {cond : Nat → (c : Call) → c.Ans → World → Prop} {s s' : Sys} {es es' : List Event}

def plain (svc : Service) (cond : Nat → (c : Call) → c.Ans → World → Prop) : Setting := ⟨svc, cond, fun _ _ => False⟩

theorem holds_run (hr : Run (Pool.Step (machine svc cond)) (Pool.start .init) es s) : (outline (plain svc cond)).Holds s :=
  (valid (plain svc cond)).run (Outline.Valid.start _ (Consistent.init fun _ _ h => h) fun _ => trivial) hr

/-- What a reply that is handed over was, at that moment. -/
theorem send_meets (h : (outline S).Holds s) (hr : Run (Pool.Step (machine S.svc S.cond)) s es s') (hsends : Sends es pub m) :
    ∃ (t : Nat) (mid : Sys), Later s.world mid.world ∧ Later mid.world s'.world ∧
      pub.op.operationID = S.svc.operationID pub.requestID pub.reply ∧ mid.world.store.Inserted pub.op.operationID m ∧
      (S.Keeps t mid.world → ∃ r, mid.world.tables.requests.find pub.requestID = some r ∧ r.status = .pending) := by
  obtain ⟨t, answer, hmem⟩ := hsends
  obtain ⟨before, mid, mid', after, hbefore, hstep, hafter⟩ := hr.split_at hmem
  have hmid := (valid S).run h hbefore
  obtain ⟨q, k, -, ⟨hop, hinserted, hpending⟩, -⟩ := allowed_of_step hmid hstep
  have hlater := (later_step hmid hstep).trans (later_run ((valid S).step hmid hstep) hafter)
  exact ⟨t, mid, later_run h hbefore, hlater, hop, hinserted, hpending⟩

/-! ## Nothing after a revocation -/

/-- A step that leaves a request with a binding that is disabled or has another revision, or cancelled. -/
def Revokes (requestID : String) (w w' : World) : Prop :=
  ∃ r, w.tables.requests.find requestID = some r ∧
    ((∃ b, w'.tables.bindings r.roomID = some b ∧ (b.enabled = false ∨ b.revision ≠ (w.tables.binding r.roomID).revision)) ∨
      ∃ r', w'.tables.requests.find requestID = some r' ∧ r'.status = .cancelled)

/-- The request is no longer pending then: a pending one has its binding, before and after. -/
theorem Revokes.settled (h : Revokes requestID w w') (hi : Consistent S w) (hi' : Consistent S w')
    (hlater : Later w w') : ∃ r, w'.tables.requests.find requestID = some r ∧ r.status ≠ .pending := by
  obtain ⟨r, hr, hrevoked⟩ := h
  obtain ⟨r', hr', hid, hstill⟩ := hlater.rows _ r hr
  obtain ⟨b, hb, hdisabled⟩ | ⟨r'', hr'', hcancelled⟩ := hrevoked
  · refine ⟨r', hr', fun hpending => ?_⟩
    have hwas : r.status = .pending := by
      by_contra hne
      rw [hstill hne] at hpending
      exact hne hpending
    obtain ⟨old, hold, hmatches⟩ := hi.sound.covered r (w.tables.requests.find_eq_some.mp hr).1 hwas
    obtain ⟨b', hb', hmatches'⟩ := hi'.sound.covered r' (w'.tables.requests.find_eq_some.mp hr').1 hpending
    rw [Request.roomID_of_identity hid, hb, Option.some.injEq] at hb'
    subst hb'
    simp only [groupAgentRequestMatches, Bool.and_eq_true, decide_eq_true_eq] at hmatches hmatches'
    obtain hdisabled | hrevision := hdisabled
    · rw [hmatches'.1.1.1.1] at hdisabled
      cases hdisabled
    · have hsame : r'.bindingRevision = r.bindingRevision := by
        simpa [Request.identity] using congrArg Request.bindingRevision hid
      apply hrevision
      rw [hmatches'.1.1.1.2, hsame, ← hmatches.1.1.1.2, Tables.binding, hold]
      rfl
  · exact ⟨r'', hr'', by rw [hcancelled]; decide⟩

/-- Once a commit has disabled the room's binding, given it another revision or cancelled the request, nothing is
handed to the Matrix port for that request, if no call's context ends in its callback. -/
theorem no_send_after_revocation {s₁ : Sys} {e : Event} {requestID : String}
    (hr : Run (Pool.Step (machine svc Lasting)) (Pool.start .init) es s) (hstep : Pool.Step (machine svc Lasting) s e s₁)
    (hrevokes : Revokes requestID s.world s₁.world) (hr' : Run (Pool.Step (machine svc Lasting)) s₁ es' s') :
    ∀ pub m, Sends es' pub m → pub.requestID ≠ requestID := by
  rintro pub m hsends rfl
  have hs := holds_run hr
  have hs₁ := (valid (plain svc Lasting)).step hs hstep
  obtain ⟨r, hfind, hsettled⟩ := hrevokes.settled hs.inv hs₁.inv (later_step hs hstep)
  obtain ⟨t, mid, hlater, -, -, -, hpending⟩ := send_meets hs₁ hr' hsends
  obtain ⟨r', hfind', hpending⟩ := hpending (.inl fun _ _ _ _ h => h)
  obtain ⟨r'', hfind'', -, hstill⟩ := hlater.rows _ r hfind
  rw [hfind'', Option.some.injEq] at hfind'
  rw [← hfind', hstill hsettled] at hpending
  exact hsettled hpending

section

variable {α : Type} [∀ t c r w, Decidable (cond t c r w)]

variable (cond) in
def sampleSeen (script : List (Task ⊕ Nat)) (t : Nat) (f : List Event → Sys → Sys → α) (s : Sys) : Option α :=
  Pool.observe (machine sampleService cond) (clear cond) (sampleMoves script) t
    (fun c w => c.reply sampleService sampleRoom sampleMessage t w) f s

theorem sample_run {a : α} (h : sampleSeen cond script t f s = some a) :
    ∃ es mid c r s₁, Run (Pool.Step (machine sampleService cond)) s es mid ∧
      Pool.Step (machine sampleService cond) mid (.answer t c r) s₁ ∧ f es mid s₁ = a := by
  have hfair :
      ∀ move ∈ sampleMoves script ++ sampleMoves [.inr t], Pool.FairWhere (machine sampleService cond) (clear cond) move := by
    rw [sampleMoves, sampleMoves, moves, moves, ← List.map_append]
    exact moves_fair cond _ _ _ _
  obtain ⟨es, mid, c, r, s₁, hr, hstep, hf⟩ := Pool.observe_run hfair h
  exact ⟨es, mid, c, r, s₁, hr.of_under, hstep.1, hf⟩

end

theorem revokes_of (hrow : w.tables.requests.find "q" = some sampleRequest)
    (hbinding : (w'.tables.bindings "!r:a").map Binding.enabled = some false) : Revokes "q" w w' := by
  obtain ⟨b, hb, hdisabled⟩ := Option.map_eq_some_iff.mp hbinding
  exact ⟨_, hrow, .inl ⟨b, hb, .inl hdisabled⟩⟩

/-- A publication has begun when the owner turns the group agent off. -/
theorem revoked_unsent : ∃ es s e s₁, Run (Pool.Step (machine sampleService Lasting)) (Pool.start .init) es s ∧
    Pool.Step (machine sampleService Lasting) s e s₁ ∧ Revokes "q" s.world s₁.world ∧ (s₁.thread 2).isSome = true ∧
    ∀ es' s', Run (Pool.Step (machine sampleService Lasting)) s₁ es' s' → ∀ pub m, Sends es' pub m → pub.requestID ≠ "q" := by
  have hseen : sampleSeen Lasting (sampleScript ++ [.inl samplePublish, .inr 2, .inl (switched false), .inr 3]) 3
      (fun _ s s₁ =>
        (s.world.tables.requests.find "q", (s₁.world.tables.bindings "!r:a").map Binding.enabled, (s₁.thread 2).isSome))
      (.start .init) = some (some sampleRequest, some false, true) := by
    decide
  obtain ⟨es, s, c, r, s₁, hr, hstep, hf⟩ := sample_run hseen
  obtain ⟨hrow, hbinding, hbegun⟩ : _ ∧ _ ∧ _ := by simpa only [Prod.mk.injEq] using hf
  have hrevokes := revokes_of hrow hbinding
  exact ⟨es, s, _, s₁, hr, hstep, hrevokes, hbegun, fun _ _ hr' => no_send_after_revocation hr hstep hrevokes hr'⟩

/-- The reply to the request goes out. -/
def Call.answersSample : Call → Bool
  | .transport pub (.sendPrepared _) => pub.reply.kind = .final && pub.requestID = "q"
  | _ => false

theorem answersSample_cases {c : Call} (h : c.answersSample = true) :
    ∃ pub m, c = .transport pub (.sendPrepared m) ∧ pub.reply.kind = .final ∧ pub.requestID = "q" := by
  unfold Call.answersSample at h
  split at h
  · simp only [Bool.and_eq_true, decide_eq_true_eq] at h
    exact ⟨_, _, rfl, h⟩
  · cases h

def sending (s : Sys) : Bool :=
  match s.thread 2 with
  | some ⟨_, .call c _⟩ => c.answersSample
  | _ => false

/-- The context of a publication ends when its reply is staged. The owner turns the group agent off, and the reply
is handed over. -/
theorem sent_after_revocation : ∃ es s e s₁ es' s' pub m, Run (Pool.Step (system sampleService)) (Pool.start .init) es s ∧
    Pool.Step (system sampleService) s e s₁ ∧ Revokes "q" s.world s₁.world ∧ Run (Pool.Step (system sampleService)) s₁ es' s' ∧
    Sends es' pub m ∧ pub.requestID = "q" := by
  have hseen : sampleSeen (fun _ _ _ _ => True) (sampleScript ++ .inl samplePublish :: List.replicate 11 (.inr 2) ++
        [.inl (.contextDone 2), .inr 3, .inl (switched false), .inr 4]) 4
      (fun _ s s₁ => (s.world.tables.requests.find "q", (s₁.world.tables.bindings "!r:a").map Binding.enabled, sending s₁))
      (.start .init) = some (some sampleRequest, some false, true) := by
    decide +kernel
  obtain ⟨es, s, c, r, s₁, hr, hstep, hf⟩ := sample_run hseen
  obtain ⟨hrow, hbinding, hsending⟩ : _ ∧ _ ∧ _ := by simpa only [Prod.mk.injEq] using hf
  unfold sending at hsending
  split at hsending
  · rename_i q c k hthread
    obtain ⟨pub, m, rfl, -, hrequest⟩ := answersSample_cases hsending
    have hexec :
        exec sampleService 2 (.transport pub (.sendPrepared m)) s₁.world (.ok ⟨m.eventID, m.originServerTS⟩) s₁.world := by
      rw [exec, if_neg fun h => h.2 rfl]
      exact ⟨_, handled_exec _ _ _, rfl⟩
    exact ⟨es, s, _, s₁, _, _, pub, m, hr, hstep, revokes_of hrow hbinding, .single (.answer hthread ⟨hexec, trivial⟩),
      ⟨2, _, List.mem_singleton.mpr rfl⟩, hrequest⟩
  · cases hsending

/-! ## At most one final reply -/

theorem send_inserted (hr : Run (Pool.Step (system svc)) (Pool.start .init) es s) (hsends : Sends es pub m) :
    pub.op.operationID = svc.operationID pub.requestID pub.reply ∧ s.world.store.Inserted pub.op.operationID m := by
  have hstart : (outline (plain svc fun _ _ _ _ => True)).Holds (.start .init) := holds_run (.nil _)
  obtain ⟨t, mid, -, hlater, hop, hinserted, -⟩ := send_meets hstart hr hsends
  exact ⟨hop, hlater.inserted _ m hinserted⟩

theorem replyDigest_inj : replyDigest body = replyDigest body' ↔ sum256 (bytesOf body) = sum256 (bytesOf body') :=
  hexEncode_injective.eq_iff

/-- A statement of call `t` has failed. -/
def Erred (es : List Event) (t : Nat) : Prop := ∃ c r, (Pool.Ev.answer t c r : Event) ∈ es ∧ Call.failed c r = some true

/-- The setting in which a request is published before the calls from number `n` on begin, and a statement of call `t`
fails only if `erred`. -/
def afterwards (svc : Service) (n : Nat) (r : Request) (t : Nat) (erred : Prop) : Setting :=
  ⟨svc, fun u c answer _ => u = t → c.failed answer = some true → erred, fun t r' => n ≤ t ∧ r' = r⟩

theorem afterwards_run {erred : Prop} (hr : Run (Pool.Step (system svc)) s es s') (herred : Erred es t → erred) :
    Run (Pool.Step (machine svc (afterwards svc n r t erred).cond)) s es s' := by
  induction hr with
  | nil => exact .nil _
  | snoc hr hs ih =>
    refine .snoc (ih fun ⟨c, answer, hmem, hfailed⟩ => herred ⟨c, answer, List.mem_append_left _ hmem, hfailed⟩) ?_
    cases hs with
    | arrive q => exact .arrive _ q
    | answer hthread hx =>
      refine .answer hthread ⟨hx.1, ?_⟩
      rintro rfl hfailed
      exact herred ⟨_, _, List.mem_append_right _ List.mem_cons_self, hfailed⟩
    | crash hcrash => exact .crash hcrash

theorem holds_afterwards {erred : Prop} (h : (outline (plain svc fun _ _ _ _ => True)).Holds s)
    (hr : r ∈ s.world.tables.requests.rows)
    (hstatus : r.status = .published) : (outline (afterwards svc s.next r t erred)).Holds s := by
  refine ⟨⟨h.inv.sound, h.inv.bound, h.inv.single, h.inv.replied, ?_⟩, fun u th hth => ?_,
    fun u hu => ⟨(h.fresh u hu).1, trivial⟩⟩
  · rintro u _ ⟨-, rfl⟩
    exact ⟨s.world.tables.requests.find_eq_some.mpr ⟨hr, rfl⟩, hstatus⟩
  · -- the calls that have begun are not asked for more
    have hbegun : ¬s.next ≤ u := by
      intro hu
      rw [(h.fresh u hu).1] at hth
      cases hth
    have hlasts : (∀ v c a w, (afterwards svc s.next r t erred).cond v c a w → Lasting v c a w) →
        ∀ v c a w, True → Lasting v c a w := by
      intro h v c a w _
      cases c with
      | contextDone done => exact h v (.contextDone done) () w nofun
      | _ => trivial
    have hsteady : (∀ v c a w, (afterwards svc s.next r t erred).cond v c a w → Steady v c a w) →
        ∀ v c a w, True → Steady v c a w := by
      intro h v c a w _
      cases c with
      | lockBindingFor request => exact h v (.lockBindingFor request) (.ok none) w nofun
      | selectExists request => exact h v (.selectExists request) (.ok true) w nofun
      | insertRequest request => exact h v (.insertRequest request) (.ok true) w nofun
      | _ => trivial
    refine (h.threads u th hth).transfer (outline (afterwards svc s.next r t erred)) (fun _ _ _ _ hx => ⟨hx.1, trivial⟩)
      (fun _ _ hr => ?_) (fun w hi => ?_) (fun c w hi hallowed => ?_)
    · exact ⟨hr.toLater, hr.gone, hr.binding, fun hkeeps => hr.request (hkeeps.imp_left fun h v c a w _ => h v c a w trivial)⟩
    · exact ⟨hi.sound, hi.bound, hi.single, hi.replied, fun _ _ h => h.elim⟩
    · cases c with
      | respond answer =>
        cases horigin : th.origin with
        | enqueue a now p =>
          rw [horigin] at hallowed
          exact fun h => hallowed (hsteady h)
        | invoke a operation p =>
          cases operation with
          | publish => exact fun r' hsince => absurd hsince.1 hbegun
          | complete | other => trivial
        | _ => trivial
      | transport pub c =>
        cases c with
        | sendPrepared m => exact ⟨hallowed.1, hallowed.2.1, fun hkeeps => hallowed.2.2 (hkeeps.imp_left hlasts)⟩
        | _ => trivial
      | _ => exact hallowed

end Runs

def sentSample : Event → Bool
  | .answer _ c _ => c.answersSample
  | _ => false

theorem sends_of_sentSample (h : es.any sentSample = true) :
    ∃ pub m, Sends es pub m ∧ pub.reply.kind = .final ∧ pub.requestID = "q" := by
  obtain ⟨e, he, hsent⟩ := List.any_eq_true.mp h
  cases e with
  | answer t c answer =>
    obtain ⟨pub, m, rfl, hsample⟩ := answersSample_cases hsent
    exact ⟨pub, m, ⟨t, answer, he⟩, hsample⟩
  | _ => cases hsent

def sampleReplied : Request := published sampleRequest ⟨.final, "completed"⟩ "yes" "$prepared"

/-- Call 3, the same publication, is about to be answered. -/
def replaying (s : Sys) : Bool :=
  match s.thread 3 with
  | some ⟨.invoke a .publish p, .call (.respond (.published _ true)) _⟩ => a = sampleAccount && p = sampleReply
  | _ => false

/-- The due schedule `p` is answered `enqueued` now. -/
def Acknowledges (s : Sys) (p : Params) : Prop :=
  ∃ t a now replayed k, s.thread t = some ⟨.enqueue a now p, .call (.respond (.enqueued replayed)) k⟩

/-- Where the queueing of a due schedule is steady, the answer `enqueued` finds the request in the table. -/
theorem acknowledged_exists (svc : Service) {es : List Event} {s : Sys}
    (hr : Run (Pool.Step (machine svc Steady)) (Pool.start .init) es s)
    {p : Params} (hanswer : Acknowledges s p) : ∃ r, s.world.tables.requests.find p.requestID = some r ∧ r.roomID = p.roomID := by
  obtain ⟨t, a, now, replayed, k, hthread⟩ := hanswer
  have htruthful : Truthful (plain svc Steady) t s.world (.enqueued replayed) (.enqueue a now p) :=
    allowed_of_thread (holds_run hr) hthread
  exact htruthful (fun _ _ _ _ h => h) replayed rfl

def sampleSchedule (body : String) : Params where
  requestID := "d"
  roomID := "!r:a"
  body := body
  actorMXID := "@m:a"

def dueScript (body : String) (calls : Nat) : List (Task ⊕ Nat) :=
  [.inl (switched true), .inr 0, .inr 0, .inl (.enqueue sampleAccount 0 (sampleSchedule body))] ++ List.replicate calls (.inr 1)

def acknowledged (s : Sys) : Option Params :=
  match s.thread 1 with
  | some ⟨.enqueue _ _ p, .call (.respond (.enqueued _)) _⟩ => some p
  | _ => none

theorem acknowledges_of_acknowledged (h : acknowledged s = some p) : Acknowledges s p := by
  unfold acknowledged at h
  split at h
  · rename_i hthread
    cases h
    exact ⟨_, _, _, _, _, hthread⟩
  · cases h

/-- A schedule with a body is answered when its request is there. -/
theorem schedule_enqueued :
    ∃ es s, Run (Pool.Step (machine sampleService Steady)) (Pool.start .init) es s ∧ Acknowledges s (sampleSchedule "hi") ∧
    ∃ r, s.world.tables.requests.find "d" = some r ∧ r.roomID = "!r:a" := by
  have hseen : sampleSeen Steady (dueScript "hi" 7) 1 (fun _ s _ => acknowledged s) (.start .init) =
      some (some (sampleSchedule "hi")) := by
    decide
  obtain ⟨es, s, c, r, s₁, hr, -, hanswer⟩ := sample_run hseen
  have hanswer := acknowledges_of_acknowledged hanswer
  exact ⟨es, s, hr, hanswer, acknowledged_exists sampleService hr hanswer⟩

/-- A schedule whose body is a space is answered `enqueued`, and nothing is in the table. -/
theorem blank_schedule_lost :
    ∃ es s, Run (Pool.Step (system sampleService)) (Pool.start .init) es s ∧ Acknowledges s (sampleSchedule " ") ∧
    s.world.tables.requests.find "d" = none := by
  have hseen : sampleSeen (fun _ _ _ _ => True) (dueScript " " 6) 1
      (fun _ s _ => (acknowledged s, s.world.tables.requests.find "d")) (.start .init) =
        some (some (sampleSchedule " "), none) := by
    decide
  obtain ⟨es, s, c, r, s₁, hr, -, hf⟩ := sample_run hseen
  obtain ⟨hanswer, hnone⟩ := Prod.mk.inj hf
  exact ⟨es, s, hr, acknowledges_of_acknowledged hanswer, hnone⟩

end Dirextalk.GroupAgent

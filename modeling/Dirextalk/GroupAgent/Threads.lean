/-
  Dirextalk.GroupAgent.Threads — every call of the group agent meets the preconditions of its
  statements, whatever the others do in between (`valid`), so that the invariant holds in
  every state a run reaches and nothing that is settled changes (`later_run`).
-/
import Dirextalk.GroupAgent.Callback

namespace Dirextalk.GroupAgent

open Lib Lib.Go

open Capability (Error OperationContext Known)

/-! ## The outline -/

def outline (S : Setting) : Outline (machine S.svc S.cond) where
  Inv := Consistent S
  Rely := Rely S
  Pre := Allowed S
  Fresh _ _ := True

section Safety

variable {S : Setting} {t : Nat} {q : Task} {w : World} {α β : Type}

def Stable (post : α → World → Prop) : Prop := ∀ x w w', post x w → Later w w' → post x w'

theorem returns (hstable : Stable post) (h : post x w) : (pure x : Prog CallSig α).Safe (outline S) t q post w :=
  fun w' hr _ => hstable x w w' h hr.toLater

variable {p : Prog CallSig (Except Error α)}

/-- A statement, and then the rest from what it answered. -/
theorem query {f : α → Work β} {post : Except Fault β → World → Prop}
    (h : p.Safe (outline S) t q (fun out w' =>
      match out with
      | .ok x => (f x).run.Safe (outline S) t q post w'
      | .error e => (pure (.error (.failed e)) : Prog CallSig _).Safe (outline S) t q post w') w) :
    (checked p >>= f).run.Safe (outline S) t q post w := by
  refine Prog.Safe.bind (Rely.refl S) ?_ fun out w' _ hout => hout
  refine Prog.Safe.bind (Rely.refl S) h fun out w' _ hout => ?_
  cases out with
  | error | ok => exact fun w'' hr _ => .later (fun _ _ _ _ => .trans) hout hr

variable {post : Except Fault α → World → Prop}

/-- A statement that is the last of a function. -/
theorem query_last (hstable : Stable post)
    (h : p.Safe (outline S) t q (fun out w' =>
      match out with
      | .ok x => post (.ok x) w'
      | .error e => post (.error (.failed e)) w') w) : (checked p).run.Safe (outline S) t q post w := by
  refine Prog.Safe.bind (Rely.refl S) h fun out w' _ hout => ?_
  cases out with
  | error | ok => exact returns hstable hout

theorem transaction_safe (hstable : Stable post)
    (h : body.run.Safe (outline S) t q post w) : (transaction body).run.Safe (outline S) t q post w := by
  refine Prog.Safe.bind (Rely.refl S) h fun out w' hi hout => ?_
  intro w₁ hr₁ hi₁
  refine ⟨trivial, fun _ w₂ hx w₃ hr₃ _ => ?_⟩
  obtain ⟨-, hothers⟩ := exec_effects (q := q) (c := .rollback) hi₁ trivial hx
  have hlater := (hothers (t + 1) (by omega)).toLater
  exact hstable _ _ _ hout ((hr₁.toLater.trans hlater).trans hr₃.toLater)

theorem change_safe {roomID : String} {change : Change} :
    (mutateGroupAgentBinding roomID change).run.Safe (outline S) t q (fun _ _ => True) w := by
  have hstable : Stable fun (_ : Except Fault Unit) _ => True := fun _ _ _ _ _ => trivial
  refine transaction_safe hstable (query fun w₁ hr₁ hi₁ => ⟨trivial, fun out w₂ hx w₃ hr₃ hi₃ => ?_⟩)
  obtain e | b := out
  · exact returns hstable trivial
  obtain ⟨-, hb, rfl⟩ | ⟨⟨e, he⟩, -⟩ := hx.1.performed nofun
  swap
  · cases he
  cases hb
  dsimp only
  split
  · exact returns hstable trivial
  rename_i b' hmutate
  refine query_last hstable fun w₄ hr₄ hi₄ => ⟨fun hgone => ?_, fun out _ _ _ _ _ => by cases out <;> trivial⟩
  -- the lock has kept the binding as it was read
  have hheld : (w₁.lockBinding t roomID).holder roomID = some t := Function.update_self ..
  obtain ⟨hheld₄, hbinding, -⟩ := (hr₃.trans hr₄).binding hgone roomID hheld
  have hsame : w₄.tables.binding roomID = w₁.tables.binding roomID := congrArg (fun row => row.getD {}) hbinding
  refine ⟨hheld₄, fun h0 => ?_⟩
  rw [hsame]
  refine mutate_advances hmutate ?_ h0
  cases hrow : w₁.tables.bindings roomID with
  | none =>
    rw [Tables.binding, hrow]
    exact ⟨Int.le_refl _, by decide⟩
  | some old =>
    rw [Tables.binding, hrow]
    exact hi₁.sound.ranged roomID old hrow

def Queued (w : World) (r : Request) : Prop := ∃ row, w.tables.requests.find r.requestID = some row ∧ row.roomID = r.roomID

variable {r : Request}

theorem Queued.later (h : Queued w r) (hlater : Later w w') : Queued w' r := by
  obtain ⟨row, hrow, hroom⟩ := h
  obtain ⟨row', hrow', hid, -⟩ := hlater.rows _ row hrow
  exact ⟨row', hrow', (Request.roomID_of_identity hid).trans hroom⟩

theorem Queued.of_known (hknown : w.tables.known r = true) (howns : w.tables.owns r) : Queued w r := by
  simp only [Tables.known, List.any_eq_true, decide_eq_true_eq] at hknown
  obtain ⟨row, hrow, hsame⟩ := hknown
  obtain ⟨hid, hroom⟩ := howns row hrow hsame
  exact ⟨row, w.tables.requests.find_eq_some.mpr ⟨hrow, hid⟩, hroom⟩

/-- What the queueing of a request has come to: where the calls are steady, a scheduled one is there. -/
def Enqueues (S : Setting) (r : Request) (out : Except Fault Bool) (w : World) : Prop :=
  (∀ t c r w, S.cond t c r w → Steady t c r w) → r.scheduledBy ≠ "" → ∀ inserted, out = .ok inserted → Queued w r

theorem enqueues_stable : Stable (Enqueues S r) :=
  fun _ _ _ h hlater hsteady hscheduled inserted hout => (h hsteady hscheduled inserted hout).later hlater

/-- A failure says nothing. -/
theorem enqueues_error : Enqueues S r (.error f) w := nofun

theorem Request.queued_cases {queued : Request} (h : r.queued = some queued) :
    queued.requestID = r.requestID ∧ queued.roomID = r.roomID ∧ queued.eventID = r.eventID ∧ queued.scheduledBy = r.scheduledBy ∧
      queued.status = .pending := by
  unfold Request.queued at h
  split at h
  · cases h
    exact ⟨rfl, rfl, rfl, rfl, rfl⟩
  split at h
  · cases h
  · cases h
    exact ⟨rfl, rfl, rfl, rfl, rfl⟩

/-- The last statement of the queueing. -/
theorem insert_safe {queued : Request} (hqueued : r.queued = some queued)
    (hready : w.gone t = false → w.holder r.roomID = some t ∧
      (Txn.enqueue .locked r).Valid w.tables ∧ w.tables.pending r.roomID < groupAgentRequestQueueMax) :
    (checked (ask (.insertRequest queued))).run.Safe (outline S) t q (Enqueues S r) w := by
  obtain ⟨hid, hroom, hevent, hby, hstatus⟩ := Request.queued_cases hqueued
  refine query_last enqueues_stable fun w₁ hr₁ hi₁ => ⟨fun hgone => ?_, fun out w₂ hx w₃ hr₃ _ => ?_⟩
  · obtain ⟨hheld, hvalid, hcount⟩ := hready (hr₁.gone hgone)
    obtain ⟨hheld₁, hbinding, hpending⟩ := hr₁.binding hgone r.roomID hheld
    have hvalid₁ := hvalid.frame hbinding hpending (by rintro r' row ⟨⟩)
    refine ⟨hroom ▸ hheld₁, ?_, hstatus⟩
    exact (Inv.queued hvalid₁ hqueued (Nat.lt_of_le_of_lt hpending hcount)).2
  · obtain e | inserted := out
    · exact enqueues_error
    intro hsteady hscheduled _ _
    have howns := hsteady _ _ _ _ hx.2 (hby ▸ hscheduled)
    cases hx.1.performed nofun with
    | done hdone =>
      obtain ⟨T, hT, heq⟩ := Option.map_eq_some_iff.mp hdone
      obtain ⟨-, rfl⟩ := Prod.mk.inj heq
      rw [Txn.commit, Option.ite_none_right_eq_some, Option.some.injEq] at hT
      obtain ⟨-, rfl⟩ := hT
      refine .later ?_ hr₃.toLater
      have hin : Queued { w₁ with tables := w₁.tables.insertRequest queued } queued := by
        cases hknown : w₁.tables.known queued with
        | true =>
          rw [Tables.insertRequest_of_known hknown]
          exact .of_known hknown howns
        | false =>
          refine ⟨queued, ?_, rfl⟩
          rw [Rows.find_eq_some, (Tables.insertRequest_of_new hknown).2]
          exact ⟨List.mem_append_right _ List.mem_cons_self, rfl⟩
      obtain ⟨row, hrow, hrowRoom⟩ := hin
      exact ⟨row, hid ▸ hrow, hrowRoom.trans hroom⟩

theorem enqueue_safe : (enqueueGroupAgentRequest r).run.Safe (outline S) t q (Enqueues S r) w := by
  refine transaction_safe enqueues_stable (query fun w₁ hr₁ hi₁ => ⟨trivial, fun out w₂ hx w₃ hr₃ hi₃ => ?_⟩)
  obtain e | row := out
  · exact returns enqueues_stable enqueues_error
  cases row with
  | none =>
    refine returns enqueues_stable fun hsteady hscheduled => ?_
    obtain ⟨⟨b, hb, -⟩, -⟩ := hsteady _ _ _ _ hx.2 hscheduled
    obtain ⟨_, _, _, h, _⟩ | ⟨hnone, _, _⟩ | ⟨⟨e, he⟩, _⟩ := hx.1.performed nofun
    · cases h
    · rw [hb] at hnone
      cases hnone
    · cases he
  | some b =>
    obtain ⟨hb, rfl⟩ : w₁.tables.bindings r.roomID = some b ∧ w₂ = w₁.lockBinding t r.roomID := by
      obtain ⟨b', hb, _, h, hw⟩ | ⟨_, h, _⟩ | ⟨⟨e, he⟩, _⟩ := hx.1.performed nofun
      · cases h
        exact ⟨hb, hw⟩
      · cases h
      · cases he
    have hheld : (w₁.lockBinding t r.roomID).holder r.roomID = some t := Function.update_self ..
    dsimp only
    split
    · rename_i hmatches
      refine returns enqueues_stable fun hsteady hscheduled => ?_
      obtain ⟨⟨b', hb', hmatches'⟩, -⟩ := hsteady _ _ _ _ hx.2 hscheduled
      rw [hb, Option.mem_some_iff] at hb'
      rw [hb', hmatches'] at hmatches
      cases hmatches
    · rename_i hmatches
      rw [Bool.not_eq_true', Bool.not_eq_false] at hmatches
      have hvalid : (Txn.enqueue .locked r).Valid (w₁.lockBinding t r.roomID).tables := ⟨⟨b, hb, hmatches⟩, nofun⟩
      refine query fun w₄ hr₄ hi₄ => ⟨trivial, fun out w₅ hx₅ w₆ hr₆ hi₆ => ?_⟩
      obtain e | known := out
      · exact returns enqueues_stable enqueues_error
      obtain ⟨rfl, hknown | ⟨e, he⟩⟩ := hx₅.1.performed nofun
      swap
      · cases he
      cases hknown
      dsimp only
      split
      · rename_i hknown
        refine returns enqueues_stable fun hsteady hscheduled _ _ => ?_
        exact (Queued.of_known hknown (hsteady _ _ _ _ hx₅.2 hscheduled)).later hr₆.toLater
      refine query fun w₇ hr₇ hi₇ => ⟨trivial, fun out w₈ hx₈ w₉ hr₉ hi₉ => ?_⟩
      obtain e | count := out
      · exact returns enqueues_stable enqueues_error
      obtain ⟨rfl, hcount | ⟨e, he⟩⟩ := hx₈.1.performed nofun
      swap
      · cases he
      cases hcount
      dsimp only
      split
      · exact returns enqueues_stable enqueues_error
      rename_i hfull
      cases hqueued : r.queued with
      | none =>
        -- only a scheduled request with a blank body is dropped here
        refine returns enqueues_stable fun hsteady hscheduled => ?_
        obtain ⟨-, hblank⟩ := hsteady _ _ _ _ hx.2 hscheduled
        simp [Request.queued, hscheduled, hblank] at hqueued
      | some queued =>
        refine insert_safe hqueued fun hgone => ?_
        have hrely := ((hr₃.trans hr₄).trans hr₆).trans hr₇
        obtain ⟨hheld₈, hbinding₈, hpending₈⟩ := hrely.binding (hr₉.gone hgone) r.roomID hheld
        obtain ⟨hheld₉, hbinding₉, hpending₉⟩ := hr₉.binding hgone r.roomID hheld₈
        have hvalid₈ := hvalid.frame hbinding₈ hpending₈ (by rintro r' row ⟨⟩)
        have hvalid₉ := hvalid₈.frame hbinding₉ hpending₉ (by rintro r' row ⟨⟩)
        exact ⟨hheld₉, hvalid₉, Nat.lt_of_le_of_lt hpending₉ (Nat.lt_of_not_le hfull)⟩

/-! ## The calls of the service -/

def Has (t : Nat) (r : Request) (w : World) : Prop := w.keeper r.requestID = some t ∧ w.tables.requests.find r.requestID = some r

structure Follows (S : Setting) (t : Nat) (r : Request) (pub : Publication) (κ : Known) (w : World) : Prop where
  has : S.Keeps t w → Has t r w
  known : ∀ m, κ m → w.store.Inserted pub.op.operationID m

structure Publication.Of (svc : Service) (r : Request) (pub : Publication) : Prop where
  requestID : pub.requestID = r.requestID
  operationID : pub.op.operationID = svc.operationID pub.requestID pub.reply

theorem publicationOf_of (svc : Service) (p : Params) (r : Request) : (svc.publicationOf p r).Of svc r := by
  unfold Service.publicationOf
  split
  · exact ⟨rfl, rfl⟩
  · exact ⟨rfl, rfl⟩

namespace Follows

variable {r : Request} {pub : Publication} {κ : Known} {w' : World}

section

variable (h : Follows S t r pub κ w)
include h

theorem later (hr : Rely S t w w') : Follows S t r pub κ w' where
  has hkeeps := by
    obtain ⟨hkeeper, hrow⟩ := h.has (hkeeps.imp_right hr.gone)
    exact hr.request hkeeps _ r hkeeper hrow
  known m hm := hr.inserted _ m (h.known m hm)

theorem allowed (hpub : pub.Of S.svc r) (hc : (delivering r pub).allows κ c) : Allowed S t q c w := by
  cases c with
  | transport pub' c =>
    obtain ⟨hpending, rfl, hc⟩ := hc
    cases c with
    | sendPrepared m =>
      refine ⟨hpub.operationID, h.known m hc, fun hkeeps => ⟨r, ?_, hpending⟩⟩
      rw [hpub.requestID]
      exact (h.has hkeeps).2
    | _ => trivial
  | _ => trivial

theorem insertsOperation (hi : Consistent S w)
    (hdone : done = (admitted w.store op).map fun T => ((), { w with store := T })) (hx : Writes done w answer w') :
    Follows S t r pub κ w' := by
  have hgrown : ∀ u w₁, done = some (u, w₁) → Follows S t r pub κ w₁ := by
    intro u w₁ hw₁
    obtain ⟨T, hT, heq⟩ := Option.map_eq_some_iff.mp (hdone.symm.trans hw₁)
    obtain ⟨-, rfl⟩ := Prod.mk.inj heq
    exact ⟨h.has, fun m hm => (admitted_grows hi.single hT).inserted _ m (h.known m hm)⟩
  cases hx with
  | done hw₁ | unacknowledged hw₁ => exact hgrown _ _ hw₁
  | failed => exact h

theorem step (hi : Consistent S w) (hc : (delivering r pub).allows κ c)
    (hx : exec S.svc t c w answer w') : Follows S t r pub ((delivering r pub).next κ c answer) w' := by
  cases c with
  | transport pub' c =>
    obtain ⟨hpending, rfl, hc⟩ := hc
    obtain ⟨T, hT, rfl⟩ := hx.performed nofun
    exact ⟨h.has, Capability.Known.learn_inserted hi.single.staged (hi.single.handle hT).inserted h.known hc hT⟩
  | readRoom | readMessage =>
    cases hx.performed nofun
    exact h
  | insertOperation op => exact h.insertsOperation hi rfl (hx.performed nofun)
  | selectOperation operationID =>
    obtain ⟨rfl, -⟩ := hx.performed nofun
    exact h
  | _ => exact hc.elim

end

end Follows

variable {p : Params} {a : Account} {operation : Operation}

/-- The callback inside its transaction. -/
theorem callback_safe (h : Has t r w) :
    (S.svc.invoke a operation p b r).run.Safe (outline S) t q (fun out w' => ∃ κ, Outcome S.svc a operation p b r out κ ∧
      Follows S t r (S.svc.publicationOf p r) κ w') w := by
  have hpub := publicationOf_of S.svc p r
  have hobeys :
      (S.svc.invoke a operation p b r).run.Obeys (delivering r (S.svc.publicationOf p r)) (Outcome S.svc a operation p b r)
      (fun _ => False) := invoke_obeys
  have hsafe := hobeys.safe (o := outline S) (t := t) (q := q) (σ := CallSig) id (fun _ answer => answer)
    (fun κ w => Follows S t r (S.svc.publicationOf p r) κ w) (fun hf hr => hf.later hr) (fun _ hf hc => hf.allowed hpub hc)
    (fun hi hf hc hx => ⟨trivial, hf.step hi hc hx.1⟩) (w := w) ⟨fun _ => h, fun _ hm => hm.elim⟩
  rw [Prog.via_self] at hsafe
  exact hsafe

def Answers (S : Setting) (t : Nat) (a : Account) (operation : Operation) (p : Params) (out : Except Fault Answer) : Prop :=
  operation = .publish → ∀ r, S.since t r → S.svc.Names a p r → p.kind ≠ "progress" →
    answerOf out = replay r p.body ∨ (answerOf out).broken ∧ S.Fails t

theorem answers_broken {c : Call} {answer : c.Ans} (hx : exec S.svc t c w answer w' ∧ S.cond t c answer w)
    (hfailed : c.failed answer = some true) : Answers S t a operation p (.error (.failed e)) :=
  fun _ _ _ _ _ => .inr ⟨⟨e, rfl⟩, c, answer, w, hx.2, hfailed⟩

/-- The transaction from where it has the request: the callback and the commit. -/
theorem settle_safe {b : Binding} (hhas : Has t r w)
    (hlocked : ∀ r₀, S.since t r₀ → p.requestID = r₀.requestID → r₀ = r ∧ r.status = .published) : (do
      let (r', answer) ← S.svc.invoke a operation p b r
      checked (ask (.commitRequest r'))
      return answer : Work Answer).run.Safe (outline S) t q (fun out _ => Answers S t a operation p out) w := by
  have hstable : Stable fun (out : Except Fault Answer) (_ : World) => Answers S t a operation p out := fun _ _ _ h _ => h
  refine Prog.Safe.bind (Rely.refl S) (callback_safe hhas) fun out w₁ hi₁ hout => ?_
  obtain ⟨κ, hout, hfollows⟩ := hout
  -- a request that was published when the call began is the one that is locked
  have hanswers : Answers S t a operation p (out.map Prod.snd) := by
    intro hpublish r₀ hsince hnames hkind
    obtain ⟨rfl, hpublished⟩ := hlocked r₀ hsince hnames.requestID
    refine .inl (hout.replays hpublish hpublished ?_ hkind)
    simp [Params.identifies, hnames.bindingRevision, hnames.accountGeneration, hnames.ownerMXID]
  cases out with
  | error f => exact returns hstable hanswers
  | ok x =>
    obtain ⟨r', answer⟩ := x
    have hreturns : Returns S.svc a operation p b r r' κ := hout.returns _ rfl
    obtain ⟨⟨room, message, receipt, hinvoke⟩, hreplied⟩ := hreturns
    have hsettles := invoke_settles hinvoke
    have hid' : r'.requestID = r.requestID := by rw [hsettles.row, Request.settled_requestID]
    refine query fun w₂ hr₂ hi₂ => ⟨fun hgone => ?_, fun out w₃ hx w₄ _ _ => ?_⟩
    · have hfollows₂ := hfollows.later hr₂
      obtain ⟨hkeeper, hrow⟩ := hfollows₂.has (.inr hgone)
      refine ⟨by rw [hid']; exact hkeeper, r, by rw [hid']; exact hrow, hsettles, invoke_still hinvoke, fun hpublished => ?_⟩
      refine (hreplied hpublished).imp_right ?_
      rintro ⟨hdigest, hop, m, hm, hevent⟩
      exact ⟨p.body, m, hdigest, by rw [hid', ← hop]; exact hfollows₂.known m hm, hevent⟩
    · obtain e | _ := out
      · exact returns hstable (answers_broken hx rfl)
      · exact returns hstable hanswers

theorem mutate_safe :
    (mutateGroupAgentRequest p.requestID (S.svc.invoke a operation p)).run.Safe (outline S) t q
      (fun out _ => Answers S t a operation p out) w := by
  have hstable : Stable fun (out : Except Fault Answer) (_ : World) => Answers S t a operation p out := fun _ _ _ h _ => h
  refine transaction_safe hstable (query fun w₁ hr₁ hi₁ => ⟨trivial, fun out w₂ hx w₃ hr₃ hi₃ => ?_⟩)
  obtain e | room := out
  · exact returns hstable (answers_broken hx rfl)
  obtain ⟨rfl, hroom | ⟨e, he⟩⟩ := hx.1.performed nofun
  swap
  · cases he
  -- a request that is published is there, and so is its binding
  have hthere : ∀ r, S.since t r → p.requestID = r.requestID → room = some r.roomID := by
    intro r hsince hid
    rw [Except.ok.injEq, hid, (hi₁.since t r hsince).1] at hroom
    exact hroom
  cases room with
  | none => exact returns hstable fun _ r hsince hnames => nomatch hthere r hsince hnames.requestID
  | some roomID =>
    refine query fun w₄ hr₄ hi₄ => ⟨trivial, fun out w₅ hx w₆ hr₆ hi₆ => ?_⟩
    obtain e | b := out
    · exact returns hstable (answers_broken hx rfl)
    cases b with
    | none =>
      refine returns hstable fun _ r hsince hnames => ?_
      have hbound := hi₄.bound r (w₄.tables.requests.find_eq_some.mp (hi₄.since t r hsince).1).1
      obtain ⟨_, _, _, h, _⟩ | ⟨hnone, _, _⟩ | ⟨⟨e, he⟩, _⟩ := hx.1.performed nofun
      · cases h
      · rw [Option.some.inj (hthere r hsince hnames.requestID)] at hnone
        rw [hnone] at hbound
        cases hbound
      · cases he
    | some b =>
      refine query fun w₇ hr₇ hi₇ => ⟨trivial, fun out w₈ hx w₉ hr₉ hi₉ => ?_⟩
      obtain e | row := out
      · exact returns hstable (answers_broken hx rfl)
      obtain ⟨r, hr, _, h, rfl⟩ | ⟨hnone, h, _⟩ | ⟨⟨e, he⟩, _⟩ := hx.1.performed nofun
      · cases h
        have hid := Rows.key_of_find hr
        have hhas : Has t r (w₇.lockRequest t p.requestID) := ⟨by rw [hid]; exact Function.update_self .., by rw [hid]; exact hr⟩
        refine .later (fun _ _ _ _ => .trans) (settle_safe hhas fun r₀ hsince hsame => ?_) hr₉
        obtain ⟨hfind, hpublished⟩ := hi₇.since t r₀ hsince
        rw [← hsame, hr, Option.some.injEq] at hfind
        subst hfind
        exact ⟨rfl, hpublished⟩
      · cases h
        refine returns hstable fun _ r hsince hnames => ?_
        rw [hnames.requestID, (hi₇.since t r hsince).1] at hnone
        cases hnone
      · cases he

theorem invocation_safe :
    (S.svc.invokeGroupAgentCapability a operation p).run.Safe (outline S) t q (fun out _ => Answers S t a operation p out) w := by
  have hstable : Stable fun (out : Except Fault Answer) (_ : World) => Answers S t a operation p out := fun _ _ _ h _ => h
  unfold Service.invokeGroupAgentCapability
  split
  · rename_i hdead
    refine returns hstable fun _ r _ hnames => ?_
    rw [hnames.live] at hdead
    cases hdead
  split
  · rename_i hmalformed
    refine returns hstable fun _ r _ hnames => ?_
    have := hnames.revision
    simp [hnames.canonical, hnames.after] at hmalformed
    omega
  · exact mutate_safe

/-- What the operation `enqueue` comes to. -/
theorem scheduled_safe {now : Int} :
    (S.svc.enqueue a now p).run.Safe (outline S) t q (fun out w' => Truthful S t w' (answerOf out) (.enqueue a now p)) w := by
  have hstable : Stable fun (out : Except Fault Answer) (w' : World) => Truthful S t w' (answerOf out) (.enqueue a now p) := by
    intro out w₁ w₂ h hlater hsteady replayed hout
    obtain ⟨r, hr, hroom⟩ := h hsteady replayed hout
    obtain ⟨r', hr', hid, -⟩ := hlater.rows _ r hr
    exact ⟨r', hr', (Request.roomID_of_identity hid).trans hroom⟩
  have herror : ∀ f w', Truthful S t w' (answerOf (.error f)) (.enqueue a now p) := nofun
  unfold Service.enqueue
  split
  · exact returns hstable (herror _ _)
  split
  · exact returns hstable (herror _ _)
  rename_i hparams
  split
  · exact returns hstable (herror _ _)
  refine query fun w₁ hr₁ hi₁ => ⟨trivial, fun out w₂ hx w₃ hr₃ hi₃ => ?_⟩
  obtain e | b := out
  · exact returns hstable (herror _ _)
  cases b with
  | none => exact returns hstable (herror _ _)
  | some b =>
    dsimp only
    split
    · exact returns hstable (herror _ _)
    refine query fun w₄ hr₄ hi₄ => ⟨trivial, fun out w₅ hx₅ w₆ hr₆ hi₆ => ?_⟩
    obtain e | room := out
    · exact returns hstable (herror _ _)
    dsimp only
    split
    · exact returns hstable (herror _ _)
    refine Prog.Safe.bind (Rely.refl S) enqueue_safe fun out w₇ _ hout => ?_
    cases out with
    | error f => exact returns hstable (herror _ _)
    | ok inserted =>
      refine returns hstable fun hsteady replayed _ => ?_
      refine hout hsteady ?_ inserted rfl
      simp only [not_or] at hparams
      exact hparams.2.2.2.1

theorem respond_safe (h : work.run.Safe (outline S) t q (fun out w' => Truthful S t w' (answerOf out) q) w)
    (hstable : Stable fun (out : Except Fault Answer) w' => Truthful S t w' (answerOf out) q) :
    (respond work).Safe (outline S) t q (fun _ _ => True) w := by
  refine Prog.Safe.bind (Rely.refl S) h fun out w₁ hi₁ hout => ?_
  cases out with
  | error | ok => exact fun w₂ hr₂ _ => ⟨hstable _ _ _ hout hr₂.toLater, fun _ _ _ _ _ _ => trivial⟩

theorem entry_safe : (S.svc.entry q).Safe (outline S) t q (fun _ _ => True) w := by
  cases q with
  | change roomID change =>
    refine respond_safe ?_ fun _ _ _ _ _ => trivial
    refine Prog.Safe.bind (Rely.refl S) change_safe fun out w₁ _ _ => ?_
    cases out <;> exact returns (fun _ _ _ _ _ => trivial) trivial
  | queue r =>
    refine respond_safe ?_ fun _ _ _ _ _ => trivial
    refine Prog.Safe.bind (Rely.refl S) enqueue_safe fun out w₁ _ _ => ?_
    cases out <;> exact returns (fun _ _ _ _ _ => trivial) trivial
  | enqueue a now p =>
    refine respond_safe scheduled_safe fun out w₁ w₂ h hlater hsteady replayed hout => ?_
    obtain ⟨r, hr, hroom⟩ := h hsteady replayed hout
    obtain ⟨r', hr', hid, -⟩ := hlater.rows _ r hr
    exact ⟨r', hr', (Request.roomID_of_identity hid).trans hroom⟩
  | invoke a operation p =>
    refine respond_safe (invocation_safe.mono fun out w₁ _ hout => ?_) ?_
    · cases operation with
      | publish => exact hout rfl
      | complete | other => trivial
    · cases operation <;> exact fun _ _ _ h _ => h
  | cancel roomID sender eventID =>
    refine respond_safe ?_ fun _ _ _ _ _ => trivial
    refine query fun w₁ _ _ => ⟨trivial, fun out _ _ _ _ _ => ?_⟩
    cases out <;> exact returns (fun _ _ _ _ _ => trivial) trivial
  | store | foreign | contextDone => exact fun w₁ _ _ => ⟨trivial, fun _ _ _ _ _ _ => trivial⟩

end Safety

variable {S : Setting}

theorem crash_later (hi : Consistent S w) (hcrash : (machine S.svc S.cond).crash w w') : Consistent S w' ∧ Later w w' := by
  obtain ⟨T, hT, rfl⟩ := hcrash
  have hgrows := hi.single.effect (Capability.pgRestart_ledger hT)
  exact ⟨⟨hi.sound, hi.bound, hgrows.single, fun r hr hstatus => (hi.replied r hr hstatus).later hgrows.inserted, hi.since⟩,
    ⟨(Later.refl w).rows, hgrows.inserted⟩⟩

theorem valid (S : Setting) : (outline S).Valid where
  refl := .refl S
  trans _ _ _ _ := .trans
  exec_inv hi hallowed hx := (exec_effects hi hallowed hx).1
  exec_rely hne hi hallowed hx := (exec_effects hi hallowed hx).2 _ hne.symm
  crash_inv hi hcrash := (crash_later hi hcrash).1
  fresh_rely _ _ := trivial
  fresh_crash _ _ := trivial
  entry _ _ := entry_safe

/-! ## Runs -/

abbrev Sys := Pool CallSig Task World

abbrev Event := Pool.Ev CallSig Task

theorem Consistent.init (h : ∀ t r, ¬S.since t r) : Consistent S .init where
  sound := .empty
  bound _ hr := absurd hr List.not_mem_nil
  single := .empty
  replied _ hr := absurd hr List.not_mem_nil
  since t r hsince := absurd hsince (h t r)

variable {s : Sys}

section

variable (h : (outline S).Holds s)
include h

theorem allowed_of_thread (hthread : s.thread t = some ⟨q, .call c k⟩) : Allowed S t q c s.world :=
  (h.threads _ _ hthread _ (.refl S _ _) h.inv).1

theorem allowed_of_step (hstep : Pool.Step (machine S.svc S.cond) s (.answer t c r) s') :
    ∃ q k, s.thread t = some ⟨q, .call c k⟩ ∧ Allowed S t q c s.world ∧
      (machine S.svc S.cond).exec t q c s.world r s'.world := by
  cases hstep with
  | answer hthread hx => exact ⟨_, _, hthread, allowed_of_thread h hthread, hx⟩

theorem later_step (hstep : Pool.Step (machine S.svc S.cond) s e s') : Later s.world s'.world := by
  cases e with
  | arrive q =>
    cases hstep
    exact .refl _
  | answer t c r =>
    obtain ⟨q, k, -, hallowed, hx⟩ := allowed_of_step h hstep
    exact ((exec_effects h.inv hallowed hx).2 (t + 1) (by omega)).toLater
  | crash =>
    cases hstep with
    | crash hcrash => exact (crash_later h.inv hcrash).2

theorem later_run (hr : Run (Pool.Step (machine S.svc S.cond)) s es s') : Later s.world s'.world :=
  hr.rel (I := (outline S).Holds) (R := fun s s' => Later s.world s'.world) (fun s => .refl s.world) (fun _ _ _ => .trans)
    (fun _ _ _ hi hs => (valid S).step hi hs) (fun _ _ _ hi hs => later_step hi hs) h

end

end Dirextalk.GroupAgent

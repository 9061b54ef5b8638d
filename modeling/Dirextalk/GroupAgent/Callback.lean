/-
  Dirextalk.GroupAgent.Callback — the callback of a transaction on a request, as a program
  alone.

  The monitor `delivering` knows which events were staged for the operation of the reply.
  Proved (`invoke_obeys`): whatever its calls answer, the callback makes no statement of its
  own transaction, delivers only for a pending request and sends only what it has seen staged;
  and what it returns is what `invoke` of the queue's model returns for some answers of the
  room, the message and the Matrix port.
-/
import Dirextalk.GroupAgent.Delivery

namespace Dirextalk.GroupAgent

open Lib Lib.Go GroupAgent

open Capability (Error OperationContext PreparedMessage HandlerCall Known)

def answerOf : Except Fault Answer → Answer
  | .ok answer => answer
  | .error f => .failed f

/-- The pair the hidden operations are staged under. -/
abbrev hidden : String × String := (groupAgentCapability, "publish")

/-- What a callback may do while its transaction has the request `r`: look, admit, and deliver one publication
if the request is pending. -/
def delivering (r : Request) (pub : Publication) : Monitor CallSig Known where
  allows κ
    | .readRoom _ | .readMessage _ _ | .insertOperation _ | .selectOperation _ => True
    | .transport pub' c => r.status = .pending ∧ pub' = pub ∧ κ.allows pub.op hidden c
    | _ => False
  expects _ _ _ := True
  next κ
    | .transport _ c, answer => κ.learn c answer
    | _, _ => κ

/-- The call of `invoke` that a call with these parameters comes to, for what it is answered. -/
def Params.invocation (p : Params) (a : Account) (operation : Operation) (room message : Option Bool) (receipt : Option String) :
    Invocation where
  operation := operation
  bindingRevision := p.bindingRevision
  status := p.status
  kind := p.kind
  body := p.body
  limit := p.limit
  owner := a.ownerMXID
  accountGeneration := a.accountGeneration
  digest := replyDigest p.body
  room := room
  message := message
  receipt := receipt

/-- The calls that teach a callback nothing about the staged event. -/
def Call.looks : Call → Bool
  | .readRoom _ | .readMessage _ _ | .insertOperation _ | .selectOperation _ => true
  | _ => false

section Callback

variable {α β : Type} {r : Request} {pub : Publication} {κ : Known} {a : Account} {operation : Operation} {p : Params}
  {b : Binding} {svc : Service} {splitID : Go.SplitID}

theorem ask_looks (hc : c.looks = true) : (ask c).Obeys (delivering r pub) (fun _ κ' => κ' = κ) κ := by
  cases c <;> first | exact .call trivial fun _ _ => .ret rfl | cases hc

/-- Such a call in front of a callback. -/
theorem looks_then {q : Prog CallSig (Except Error α)} {f : α → Work β} {post : Except Fault β → Known → Prop}
    (hq : q.Obeys (delivering r pub) (fun _ κ' => κ' = κ) κ) (herror : ∀ f, post (.error f) κ)
    (hok : ∀ x, (f x).run.Obeys (delivering r pub) post κ) : (checked q >>= f).run.Obeys (delivering r pub) post κ := by
  have hchecked : (checked q).run.Obeys (delivering r pub) (fun _ κ' => κ' = κ) κ := by
    apply Prog.Obeys.bind hq
    rintro (e | x) κ' rfl <;> exact .pure rfl
  refine .bindExcept hchecked ?_ ?_
  · rintro f κ' rfl
    exact herror f
  · rintro x κ' rfl
    exact hok x

theorem validate_obeys (operation : Operation) :
    (a.validateGroupAgentRequest splitID p.bindingRevision b r).run.Obeys (delivering r pub)
      (fun out κ' => κ' = κ ∧ ∀ valid, out = .ok valid → ∃ room message, ∀ receipt,
        validateGroupAgentRequest (p.invocation a operation room message receipt) b r = some valid) κ := by
  unfold Account.validateGroupAgentRequest
  split
  · rename_i hrevoked
    refine .pure ⟨rfl, fun valid hvalid => ?_⟩
    cases hvalid
    exact ⟨none, none, fun receipt => if_pos hrevoked⟩
  · rename_i hcurrent
    refine looks_then (ask_looks (c := .readRoom _) rfl) (fun _ => ⟨rfl, nofun⟩) fun room => ?_
    split
    · refine .pure ⟨rfl, fun valid hvalid => ?_⟩
      cases hvalid
      exact ⟨some false, none, fun receipt => if_neg hcurrent⟩
    split
    · rename_i hscheduled
      refine .pure ⟨rfl, fun valid hvalid => ?_⟩
      cases hvalid
      refine ⟨some true, none, fun receipt => (if_neg hcurrent).trans ?_⟩
      exact if_pos hscheduled
    · rename_i hmessage
      refine looks_then (ask_looks (c := .readMessage _ _) rfl) (fun _ => ⟨rfl, nofun⟩) fun message => ?_
      refine .pure ⟨rfl, fun valid hvalid => ?_⟩
      cases hvalid
      refine ⟨some true, some (message.isSourceOf r), fun receipt => (if_neg hcurrent).trans ?_⟩
      exact if_neg hmessage

theorem complete_refines (h : p.complete r = .ok (r', answer)) (room message : Option Bool)
    (receipt : Option String) : complete (p.invocation a .complete room message receipt) r = some r' := by
  unfold Params.complete at h
  split at h
  · cases h
  split at h
  · cases h
  · rename_i hstatus hrest
    cases h
    exact (if_neg hstatus).trans (if_neg hrest)

/-- What a publication that passed its checks makes of its request. -/
def published (r : Request) (reply : Reply) (body eventID : String) : Request :=
  match reply.kind with
  | .final => { r with status := .published, replyEventID := eventID, replyDigest := replyDigest body }
  | .progress => r

theorem publish_refines (h : p.reply = .ok reply) (room message : Option Bool) (eventID : String) :
    publish (p.invocation a .publish room message (some eventID)) r = some (published r reply p.body eventID) := by
  unfold Params.reply at h
  split at h
  · cases h
  rename_i hbody
  rw [ite_eq_iff] at h
  obtain ⟨-, h⟩ | ⟨hkind, h⟩ := h
  · cases h
  rw [ite_eq_iff] at h
  obtain ⟨-, h⟩ | ⟨hprogress, h⟩ := h
  · cases h
  rw [ite_eq_iff] at h
  obtain ⟨-, h⟩ | ⟨hfinal, h⟩ := h
  · cases h
  refine (if_neg hbody).trans ((if_neg hkind).trans ((if_neg hprogress).trans ((if_neg hfinal).trans ?_)))
  cases h
  by_cases hk : (if p.kind = "" then "final" else p.kind) = "final"
  · refine congrArg some ((if_pos hk).trans ?_)
    simp only [published, hk, if_true]
    rfl
  · refine congrArg some ((if_neg hk).trans ?_)
    simp only [published, hk, if_false]

theorem admit_obeys {op : OperationContext} :
    (admitGroupAgentPublication op).run.Obeys (delivering r pub) (fun _ κ' => κ' = κ) κ := by
  unfold admitGroupAgentPublication
  split
  · exact .pure rfl
  refine looks_then (ask_looks (c := .insertOperation _) rfl) (fun _ => rfl) fun _ => ?_
  refine looks_then (ask_looks (c := .selectOperation _) rfl) (fun _ => rfl) fun row => ?_
  cases row with
  | none => exact .pure rfl
  | some row =>
    dsimp only
    split
    · exact .pure rfl
    · exact .pure rfl

theorem execute_delivers (hpending : r.status = .pending) :
    ((Capability.executePreparedMatrixMutation svc.ports pub.op groupAgentCapability "publish" request).via (σ := CallSig)
      (.transport pub) fun _ answer => answer).Obeys (delivering r pub)
        (Prog.OkAt fun receipt κ => ∃ m, κ m ∧ receipt.eventID = m.eventID) κ := by
  have hexecute : (Capability.executePreparedMatrixMutation svc.ports pub.op groupAgentCapability "publish" request).Obeys
      (Capability.product pub.op hidden) Capability.Announces (κ, _) := Capability.execute_obeys
  refine hexecute.via (σ := CallSig) Prod.fst (.transport pub) (fun _ answer => answer) ?_ ?_ ?_ ?_
  · exact fun κ c hc => ⟨hpending, rfl, hc.1⟩
  · exact fun _ _ _ _ => trivial
  · exact fun _ _ _ => rfl
  · rintro out κ hout receipt rfl
    exact hout

theorem deliver_obeys (hpending : r.status = .pending) :
    (svc.deliver r reply body).run.Obeys (delivering r (svc.publication r reply body))
      (Prog.OkAt fun x κ' => ∃ m, κ' m ∧ x.1 = published r reply body m.eventID) κ := by
  refine .bindExcept admit_obeys (fun f κ' _ x h => nomatch h) ?_
  rintro - κ' rfl
  have hlook : (ask (.transport (svc.publication r reply body) (.getPrepared (svc.publication r reply body).op))).Obeys
      (delivering r (svc.publication r reply body)) (fun _ _ => True) κ' :=
    .call ⟨hpending, rfl, rfl⟩ fun _ _ => .ret trivial
  refine .seqOk (.liftOk hlook) fun before κ'' _ => ?_
  refine .seqOk (.liftOk (execute_delivers hpending)) fun out κ₁ hout => ?_
  cases out with
  | error e => exact .throwOk _
  | ok receipt =>
    obtain ⟨m, hm, hid⟩ := hout receipt rfl
    dsimp only
    split
    · rename_i hkind
      refine .pureOk ⟨m, hm, ?_⟩
      simp only [published, hkind, hid]
    · rename_i hkind
      refine .pureOk ⟨m, hm, ?_⟩
      simp only [published, hkind]

def Service.publicationOf (svc : Service) (p : Params) (r : Request) : Publication :=
  match p.reply with
  | .ok reply => svc.publication r reply p.body
  | .error _ => svc.publication r ⟨.final, ""⟩ p.body

/-- What a callback returns is what `invoke` returns, and a request that it publishes has the event that was
seen staged under its own id. -/
structure Returns (svc : Service) (a : Account) (operation : Operation) (p : Params) (b : Binding) (r r' : Request) (κ : Known) :
    Prop where
  refines : ∃ room message receipt, invoke (p.invocation a operation room message receipt) b r = some r'
  replied : r'.status = .published → r' = r ∨ r'.replyDigest = replyDigest p.body ∧
    (svc.publicationOf p r).op.operationID = r.requestID ∧ ∃ m, κ m ∧ r'.replyEventID = m.eventID

def Params.identifies (p : Params) (a : Account) (r : Request) : Prop :=
  ¬(p.bindingRevision ≠ r.bindingRevision ∨ r.accountGeneration ≠ a.accountGeneration ∨ r.ownerMXID ≠ a.ownerMXID)

structure Outcome (svc : Service) (a : Account) (operation : Operation) (p : Params) (b : Binding) (r : Request)
    (out : Except Fault (Request × Answer)) (κ : Known) : Prop where
  returns : ∀ x, out = .ok x → Returns svc a operation p b r x.1 κ
  replays : operation = .publish → r.status = .published → p.identifies a r → p.kind ≠ "progress" →
    answerOf (out.map Prod.snd) = replay r p.body

theorem failure_returns :
    ∀ x, (Except.error f : Except Fault (Request × Answer)) = .ok x → Returns svc a operation p b r x.1 κ := by
  intro x h
  cases h

theorem Outcome.of_pending (hpending : r.status ≠ .published)
    (h : ∀ x, out = .ok x → Returns svc a operation p b r x.1 κ) : Outcome svc a operation p b r out κ :=
  ⟨h, fun _ hpublished => absurd hpublished hpending⟩

theorem publish_obeys (hpending : r.status = .pending)
    (hinvoke : ∀ receipt, invoke (p.invocation a .publish room message receipt) b r =
      publish (p.invocation a .publish room message receipt) r) :
    (svc.publish p r).run.Obeys (delivering r (svc.publicationOf p r))
      (Prog.OkAt fun x => Returns svc a .publish p b r x.1) κ := by
  unfold Service.publish Service.publicationOf
  cases hreply : p.reply with
  | error f => exact .throwOk _
  | ok reply =>
    dsimp only
    split
    · refine (deliver_obeys hpending).mono fun out κ' hout x hx => ?_
      obtain ⟨m, hm, hrow⟩ := hout x hx
      refine ⟨⟨room, message, some m.eventID, by rw [hinvoke, publish_refines hreply, hrow]⟩, fun hpublished => ?_⟩
      cases hkind : reply.kind with
      | progress =>
        left
        rw [hrow, published, hkind]
      | final =>
        right
        simp only [published, hkind] at hrow
        refine ⟨by rw [hrow], ?_, m, hm, by rw [hrow]⟩
        simp only [Service.publicationOf, hreply, Service.publication, Service.operationID, hkind]
    · exact .throwOk _

section

variable {p : Invocation}
  (hidentifies : ¬(p.bindingRevision ≠ r.bindingRevision ∨ r.accountGeneration ≠ p.accountGeneration ∨ r.ownerMXID ≠ p.owner))
include hidentifies

theorem invoke_of_valid (hreplay : ¬(p.operation = .publish ∧ r.status = .published))
    (hvalid : validateGroupAgentRequest p b r = some true) : invoke p b r = match p.operation with
      | .complete => complete p r
      | .publish => publish p r
      | .other => none := by
  cases hoperation : p.operation <;>
    (unfold invoke
     rw [if_neg hidentifies, if_neg hreplay, hvalid, hoperation])

theorem invoke_of_replay (hreplay : p.operation = .publish ∧ r.status = .published)
    (hreturns : ¬(p.kind ≠ "progress" ∧ r.replyDigest ≠ p.digest)) : invoke p b r = some r := by
  unfold invoke
  rw [if_neg hidentifies, if_pos hreplay, if_neg hreturns]

end

theorem replay_obeys (hidentifies : p.identifies a r) (hpublished : r.status = .published) :
    (if p.kind = "progress" then pure (r, .cancelled true)
      else if r.replyDigest ≠ replyDigest p.body then throw .conflict
      else pure (r, .published r.replyEventID true) :
        Work (Request × Answer)).run.Obeys (delivering r pub) (Outcome svc a .publish p b r) κ := by
  have hsame : ¬(p.kind ≠ "progress" ∧ r.replyDigest ≠ replyDigest p.body) → Returns svc a .publish p b r r κ := fun hreturns =>
    ⟨⟨none, none, none, invoke_of_replay hidentifies ⟨rfl, hpublished⟩ hreturns⟩, fun _ => .inl rfl⟩
  split
  · rename_i hprogress
    refine .pure ⟨?_, fun _ _ _ hkind => absurd hprogress hkind⟩
    rintro _ ⟨⟩
    exact hsame fun h => h.1 hprogress
  split
  · rename_i hdigest
    exact .pure ⟨failure_returns, fun _ _ _ _ => (if_neg hdigest).symm⟩
  · rename_i hdigest
    refine .pure ⟨?_, fun _ _ _ _ => (if_pos (not_not.mp hdigest)).symm⟩
    rintro _ ⟨⟩
    exact hsame fun h => hdigest h.2

theorem operate_obeys (hidentifies : p.identifies a r) (hpending : r.status = .pending)
    (hvalid : ∀ receipt, validateGroupAgentRequest (p.invocation a operation room message receipt) b r = some true) :
    (svc.operate operation p r).run.Obeys (delivering r (svc.publicationOf p r)) (Outcome svc a operation p b r) κ := by
  have hnot : r.status ≠ .published := by rw [hpending]; nofun
  have hinvoke :=
    fun receipt => invoke_of_valid (p := p.invocation a operation room message receipt) hidentifies (fun h => hnot h.2)
    (hvalid receipt)
  cases operation with
  | complete =>
    refine .pure (.of_pending hnot fun x hx => ?_)
    refine ⟨⟨room, message, none, (hinvoke none).trans (complete_refines hx room message none)⟩, fun hpublished => ?_⟩
    unfold Params.complete at hx
    split at hx
    · cases hx
    split at hx
    · cases hx
    · cases hx
      split at hpublished <;> cases hpublished
  | publish => exact (publish_obeys hpending hinvoke).mono fun out κ' hout => .of_pending hnot hout
  | other => exact .pure (.of_pending hnot failure_returns)

theorem invoke_obeys :
    (svc.invoke a operation p b r).run.Obeys (delivering r (svc.publicationOf p r)) (Outcome svc a operation p b r) κ := by
  unfold Service.invoke
  split
  · rename_i hother
    exact .pure ⟨failure_returns, fun _ _ hidentifies => absurd hother hidentifies⟩
  rename_i hidentifies
  split
  · rename_i hreplay
    obtain ⟨rfl, hpublished⟩ := hreplay
    exact replay_obeys hidentifies hpublished
  rename_i hreplay
  have hnot : operation = .publish → r.status = .published → ∀ answer, answer = replay r p.body :=
    fun hpublish hpublished => absurd ⟨hpublish, hpublished⟩ hreplay
  refine .bindExcept (validate_obeys operation) ?_ ?_
  · rintro f κ' ⟨rfl, -⟩
    exact ⟨failure_returns, fun hpublish hpublished _ _ => hnot hpublish hpublished _⟩
  · rintro valid κ' ⟨rfl, hvalid⟩
    obtain ⟨room, message, hvalidate⟩ := hvalid valid rfl
    cases valid with
    | false =>
      refine .pure ⟨?_, fun hpublish hpublished _ _ => hnot hpublish hpublished _⟩
      rintro _ ⟨⟩
      refine ⟨⟨room, message, none, (if_neg hidentifies).trans ((if_neg hreplay).trans ?_)⟩, fun hpublished => ?_⟩
      · rw [hvalidate none]
      · left
        split at hpublished
        · cases hpublished
        · rename_i hpending
          rw [if_neg hpending]
    | true => exact operate_obeys hidentifies (validateGroupAgentRequest_pending (hvalidate none)) hvalidate

end Callback

/-- A request that is not pending stays as it is. -/
theorem invoke_still (h : invoke p b r = some r') (hsettled : r.status ≠ .pending) : r' = r := by
  unfold invoke at h
  split at h
  · cases h
  split at h
  · split at h
    · cases h
    · cases h
      rfl
  cases hvalid : validateGroupAgentRequest p b r with
  | none => simp [hvalid] at h
  | some valid =>
    cases valid with
    | false =>
      simp only [hvalid, Option.some.injEq] at h
      exact h.symm
    | true => exact absurd (validateGroupAgentRequest_pending hvalid) hsettled

end Dirextalk.GroupAgent

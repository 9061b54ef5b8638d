/-
  Dirextalk.Members.ProjectionOrder — join-request events against the workflow they
  belong to.

  A request goes pending, approved or invited, joining or failed to join, joined. The
  events of the request are delivered again and out of order, and the projector writes
  what an event says: it keeps a row from an event of another generation, and a row that is
  approved or further from an approval. From a pending or a rejected event of its own
  generation it keeps no row.
-/
import Dirextalk.Lib.Monitor
import Dirextalk.Members.System

namespace Dirextalk.Members

open Lib Lib.Go Dirextalk.Action Pool

/-! ## The order -/

/-- How far a request with this membership has come. -/
def workflowRank (membership : String) : Option Nat :=
  if membership = "pending" then some 0
  else if membership ∈ ["approved", "invite"] then some 1
  else if membership ∈ ["joining", "join_failed"] then some 2
  else if membership = "join" then some 3
  else none

/-- Backwards in the order, or from joined to pending or rejected. -/
def Regresses (before after : String) : Prop :=
  (∃ r ∈ workflowRank before, ∃ r' ∈ workflowRank after, r' < r) ∨ before = "join" ∧ after ∈ ["pending", "reject"]

/-- An event of a status the row has left behind. -/
def Behind (status membership : String) : Prop :=
  status = "pending" ∧ membership ∈ ["approved", "invite", "joining", "join_failed", "join"] ∨
    status = "approved" ∧ membership ∈ ["joining", "join_failed", "join"] ∨
    status = "rejected" ∧ membership = "join"

instance (before after : String) : Decidable (Regresses before after) :=
  inferInstanceAs (Decidable (_ ∨ _))

instance (status membership : String) : Decidable (Behind status membership) :=
  inferInstanceAs (Decidable (_ ∨ _))

variable {status : String}

theorem joinRequestMembership_cases (h : joinRequestMembership status = some membership) :
    status = "pending" ∧ membership = "pending" ∨ status = "approved" ∧ membership = "invite" ∨
      status = "rejected" ∧ membership = "reject" := by
  unfold joinRequestMembership at h
  split_ifs at h <;> simp_all

/-- What an event says is behind the row exactly if the event is. -/
theorem regresses_iff_behind (h : joinRequestMembership status = some after) :
    Regresses before after ↔ Behind status before := by
  by_cases hknown : before ∈ ["pending", "approved", "invite", "joining", "join_failed", "join"]
  · simp only [List.mem_cons, List.not_mem_nil, or_false] at hknown
    rcases joinRequestMembership_cases h with ⟨rfl, rfl⟩ | ⟨rfl, rfl⟩ | ⟨rfl, rfl⟩ <;>
      rcases hknown with rfl | rfl | rfl | rfl | rfl | rfl <;> decide
  · have hrank : workflowRank before = none := by
      unfold workflowRank
      simp_all
    have hbehind : ¬ Behind status before := by
      unfold Behind
      simp_all
    have hjoin : before ≠ "join" := by simp_all
    simp [Regresses, hrank, hbehind, hjoin]

/-! ## What a projection saves -/

variable {m : MemberRecord} {existing : Option MemberRecord}

/-- The record of an event is the row as it is, or has the membership the event stands for. -/
theorem joinRequestMember_cases
    (h : joinRequestMember roomID channelID userID existing status requestID now = some m) :
    existing = some m ∨ joinRequestMembership (lowerTrim status) = some m.membership := by
  obtain ⟨membership, hmembership, hm⟩ := Option.map_eq_some_iff.mp h
  cases existing with
  | none =>
    right
    rw [hmembership, ← hm]
    rfl
  | some old =>
    dsimp only at hm
    split_ifs at hm
    · exact .inl (congrArg some hm)
    · exact .inl (congrArg some hm)
    · right
      rw [hmembership, ← hm]
      rfl

/-- A call that saves no membership but the one the event stands for. -/
def SavesStatus (event : JoinRequestEvent) (c : MemberCall) : Prop :=
  ∀ sc, c = .save sc → joinRequestMembership event.request.status = some sc.member.membership

variable {event : JoinRequestEvent}

theorem asking_only (p : AskWork α) :
    (liftM p : Work α).run.Only (SavesStatus event) (Prog.OkPost fun _ => True) := by
  have hask : (asking p.run).Only (SavesStatus event) fun _ => True :=
    .via (σ := MemberSig) (τ := AskSig) .ask (fun _ r => r) (fun _ _ _ h => nomatch h) (.any p.run)
  exact hask.mono fun _ _ _ _ => trivial

theorem saveJoinRequest_only
    (h : existing = some m ∨ joinRequestMembership event.request.status = some m.membership) :
    (saveJoinRequest m existing).run.Only (SavesStatus event) (Prog.OkPost fun _ => True) := by
  cases existing with
  | none =>
    have hstatus := h.resolve_left (by simp)
    apply Prog.Only.ask
    · rintro sc ⟨⟩
      exact hstatus
    · exact fun r => .pure fun _ _ => trivial
  | some old =>
    unfold saveJoinRequest
    dsimp only
    by_cases heq : m = old
    · rw [if_pos heq]
      exact .pure fun _ _ => trivial
    · have hstatus := h.resolve_left fun hold => heq (Option.some.inj hold).symm
      rw [if_neg heq]
      apply Prog.Only.ask
      · rintro sc ⟨⟩
        exact hstatus
      · exact fun r => .pure fun _ _ => trivial

theorem projectJoinRequestState_only (event : JoinRequestEvent) :
    (projectJoinRequestState event).run.Only (SavesStatus event) (Prog.OkPost fun _ => True) := by
  unfold projectJoinRequestState
  dsimp only
  split_ifs
  · exact .pure fun _ _ => trivial
  · apply Prog.Only.bindExcept (asking_only _)
    intro existing _
    cases hm : joinRequestMember event.roomID event.request.channelID event.request.userID existing event.request.status
        event.request.requestID event.time with
    | none => exact .pure fun _ _ => trivial
    | some m =>
      have hcases := joinRequestMember_cases hm
      have hstatus : lowerTrim event.request.status = event.request.status := lowerTrim_lowerTrim _
      rw [hstatus] at hcases
      apply Prog.Only.bindExcept (saveJoinRequest_only hcases)
      intro saved _
      split_ifs
      · exact .ask (fun _ h => nomatch h) fun r => .pure fun _ _ => trivial
      · exact .pure fun _ _ => trivial

/-- What stands in the row after such a save. -/
theorem wrote_status
    (h : joinRequestMembership status = some m.membership) (hw : Wrote m old stored) : stored.membership = m.membership := by
  have hnormal : normalizeMemberMembership m.membership = m.membership ∧ memberLeft m.membership = false := by
    rcases joinRequestMembership_cases h with ⟨-, hm⟩ | ⟨-, hm⟩ | ⟨-, hm⟩ <;> rw [hm] <;> decide +kernel
  obtain hsame | ⟨_, _, _, hleft, _⟩ := hw.membership
  · rw [hsame, hnormal.1]
  · rw [hnormal.1, hnormal.2] at hleft
    cases hleft

/-! ## Projections next to other writers -/

inductive RowTask where
  | project (event : JoinRequestEvent)
  | write (c : SaveCall)

def RowTask.program : RowTask → Prog MemberSig Unit
  | .project event => (projectJoinRequestState event).run >>= fun _ => pure ()
  | .write c => Prog.ask (σ := MemberSig) (.save c) >>= fun _ => pure ()

abbrev rowSystem : Machine MemberSig RowTask (World Unit) := system RowTask.program fun _ _ _ g => g

def RowTask.Makes : RowTask → MemberCall → Prop
  | .project event, c => SavesStatus event c
  | .write _, _ => True

theorem RowTask.program_only (q : RowTask) : (rowSystem.entry q).Only q.Makes fun _ => True := by
  cases q with
  | project event => exact .bind (projectJoinRequestState_only event) fun _ _ => .pure trivial
  | write c => exact (Prog.Only.any _).weaken fun _ _ => trivial

variable {w : World Unit} {s s' : Pool MemberSig RowTask (World Unit)} {es : List (Ev MemberSig RowTask)} {t : Nat}
  {c : MemberCall} {r : c.Ans} {event : JoinRequestEvent} {p : Prog MemberSig Unit} {roomID userID : String}
  {before after : MemberRecord}

/-- Whoever writes the rows: a step of the projection of an event that changes a row moves it backwards exactly if the
event is behind it. -/
theorem projection_regresses_iff (hr : Run (Step rowSystem) (start w) es s)
    (hthread : s.thread t = some ⟨.project event, p⟩) (hs : Step rowSystem s (.answer t c r) s')
    (hbefore : s.world.table.row roomID userID = some before) (hafter : s'.world.table.row roomID userID = some after)
    (hchanged : before ≠ after) :
    Regresses before.membership after.membership ↔ Behind event.request.status before.membership := by
  cases hs with
  | @answer _ q _ k _ w' hcall hexec =>
    rw [hthread] at hcall
    injection hcall with hcall
    injection hcall with horigin hprog
    subst horigin hprog
    have honly := only_run RowTask.program_only hr t _ hthread
    cases honly with
    | call hmakes _ =>
      obtain hsame | ⟨sc, rfl, -, stored, hwrote, hrow, hothers⟩ := MemberCall.exec_cases hexec.1
      · rw [hsame, hbefore] at hafter
        exact absurd (Option.some.inj hafter) hchanged
      · have hstatus := hmakes sc rfl
        by_cases hkey : roomID = sc.member.roomID ∧ userID = sc.member.userID
        · obtain ⟨rfl, rfl⟩ := hkey
          rw [hrow] at hafter
          cases hafter
          rw [wrote_status hstatus hwrote]
          exact regresses_iff_behind hstatus
        · rw [hothers _ _ hkey, hbefore] at hafter
          exact absurd (Option.some.inj hafter) hchanged

/-! ## A delivery -/

def deliveredEvent (status : String) : JoinRequestEvent where
  roomID := "!r:s"
  stateKey := "user:@u:s"
  content
    | "status" => some (.string status)
    | "request_id" => some (.string "g")
    | _ => none
  time := 5

def deliveredTo (membership : String) : MemberRecord :=
  ⟨"!r:s", "ch", "@u:s", "u", "", "s", membership, "member", false, 3, "", "g"⟩

def deliveryMoves (membership status : String) : List (Move MemberSig RowTask (World Unit)) :=
  [.arrive (.write (.saveMember (deliveredTo membership))), answeredBy (fun _ _ _ g => g) 0 AskCall.unavailable,
    .arrive (.project (deliveredEvent status)), answeredBy (fun _ _ _ g => g) 1 AskCall.unavailable]

def deliveredRows (membership status : String) : Option (Option MemberRecord × Option MemberRecord) :=
  (play rowSystem (deliveryMoves membership status) (start ⟨Table.empty, ()⟩)).bind fun s =>
    (s.answered 1 (replies (fun _ _ _ g => g) 1 AskCall.unavailable)).map fun s' =>
      (s.world.table.row "!r:s" "@u:s", s'.world.table.row "!r:s" "@u:s")

theorem delivery_step (h : deliveredRows membership status = some rows) : ∃ (es : List (Ev MemberSig RowTask))
      (s s' : Pool MemberSig RowTask (World Unit)) (c : MemberCall) (r : c.Ans) (p : Prog MemberSig Unit),
      Run (Step rowSystem) (start ⟨Table.empty, ()⟩) es s ∧ s.thread 1 = some ⟨.project (deliveredEvent status), p⟩ ∧
        Step rowSystem s (.answer 1 c r) s' ∧ s.world.table.row "!r:s" "@u:s" = rows.1 ∧
        s'.world.table.row "!r:s" "@u:s" = rows.2 := by
  unfold deliveredRows at h
  rw [Option.bind_eq_some_iff] at h
  obtain ⟨s, hs, h⟩ := h
  rw [Option.map_eq_some_iff] at h
  obtain ⟨s', hs', rfl⟩ := h
  have hfair : ∀ move ∈ deliveryMoves membership status, Fair rowSystem move := by
    intro move hmove
    simp only [deliveryMoves, List.mem_cons, List.not_mem_nil, or_false] at hmove
    obtain rfl | rfl | rfl | rfl := hmove
    · trivial
    · exact answeredBy_fair _ _ _ _
    · trivial
    · exact answeredBy_fair _ _ _ _
  have hr := play_run hfair hs
  have hsecond : (arrivals (deliveryMoves membership status))[1]? = some (.project (deliveredEvent status)) := by
    simp only [deliveryMoves, answeredBy, arrivals, List.getElem?_cons_succ, List.getElem?_cons_zero]
  obtain ⟨p, hthread⟩ := play_origin hs hsecond
  obtain ⟨c, r, hstep⟩ := answered_step (answeredBy_fair RowTask.program (fun _ _ _ g => g) 1 AskCall.unavailable) hs'
  exact ⟨_, s, s', c, r, p, hr, hthread, hstep, rfl, rfl⟩

/-- The pending event of a request, delivered again after its approval. -/
theorem approved_row_projected_pending : ∃ (es : List (Ev MemberSig RowTask)) (s s' : Pool MemberSig RowTask (World Unit))
    (c : MemberCall) (r : c.Ans) (p : Prog MemberSig Unit) (before after : MemberRecord),
    Run (Step rowSystem) (start ⟨Table.empty, ()⟩) es s ∧ s.thread 1 = some ⟨.project (deliveredEvent "pending"), p⟩ ∧
      Step rowSystem s (.answer 1 c r) s' ∧ s.world.table.row "!r:s" "@u:s" = some before ∧
      s'.world.table.row "!r:s" "@u:s" = some after ∧ before.requestID = (deliveredEvent "pending").request.requestID ∧
      before.membership = "approved" ∧ after.membership = "pending" ∧ Regresses before.membership after.membership := by
  have hrows : deliveredRows "approved" "pending" = some (some (deliveredTo "approved"), some (deliveredTo "pending")) := by
    decide +kernel
  obtain ⟨es, s, s', c, r, p, hr, hthread, hstep, hbefore, hafter⟩ := delivery_step hrows
  exact ⟨es, s, s', c, r, p, _, _, hr, hthread, hstep, hbefore, hafter, by decide, rfl, rfl, by decide⟩

/-- The approval of a pending request is projected, and is not behind. -/
theorem pending_row_projected_invite : ∃ (s s' : Pool MemberSig RowTask (World Unit)),
    s.world.table.row "!r:s" "@u:s" = some (deliveredTo "pending") ∧
      s'.world.table.row "!r:s" "@u:s" = some (deliveredTo "invite") ∧
      (Regresses "pending" "invite" ↔ Behind (deliveredEvent "approved").request.status "pending") := by
  have hrows : deliveredRows "pending" "approved" = some (some (deliveredTo "pending"), some (deliveredTo "invite")) := by
    decide +kernel
  obtain ⟨es, s, s', c, r, p, hr, hthread, hstep, hbefore, hafter⟩ := delivery_step hrows
  exact ⟨s, s', hbefore, hafter, projection_regresses_iff hr hthread hstep hbefore hafter (by decide)⟩

end Dirextalk.Members

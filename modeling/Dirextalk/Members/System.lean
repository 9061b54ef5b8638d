/-
  Dirextalk.Members.System — writers of a node run next to each other over the table of
  member rows.

  A lookup answers the row as it is, a save is one step on the table (`Members.Store`); a
  save that fails may still have written, since the member count of the channel is refreshed
  after the row. The rest of the service answers anything and leaves the rows alone. A crash
  loses the writers, not the rows.
-/
import Dirextalk.Members.Projection
import Dirextalk.Lib.Script

namespace Dirextalk.Members

open Lib

/-! ## Saves -/

def SaveCall.member : SaveCall → MemberRecord
  | .saveMember m | .saveMemberIfState m _ _ | .saveMemberIfAbsent m => m

/-- What a save that goes through answers and leaves. -/
def SaveCall.run (now : Int) (t : Table) : (c : SaveCall) → c.Ans × Table
  | .saveMember m => (.ok (), t.saveMember now m)
  | .saveMemberIfState m expectedRequestID expectedMembership =>
    (.ok (t.saveMemberIfState now m expectedRequestID expectedMembership).1,
      (t.saveMemberIfState now m expectedRequestID expectedMembership).2)
  | .saveMemberIfAbsent m => (.ok (t.saveMemberIfAbsent now m).1, (t.saveMemberIfAbsent now m).2)

def SaveCall.failed (err : String) : (c : SaveCall) → c.Ans
  | .saveMember _ | .saveMemberIfState _ _ _ | .saveMemberIfAbsent _ => .error err

def SaveCall.Exec (c : SaveCall) (t : Table) (r : c.Ans) (t' : Table) : Prop :=
  ∃ now, c.run now t = (r, t') ∨ ∃ err, r = c.failed err ∧ (t' = t ∨ t' = (c.run now t).2)

def SaveCall.Meets (t : Table) : SaveCall → Prop
  | .saveMember _ => True
  | .saveMemberIfState m expectedRequestID expectedMembership => ∃ current, t.row m.roomID m.userID = some current ∧
      current.requestID = expectedRequestID ∧
      (normalizeMemberMembership expectedMembership = "" ∨ current.membership = normalizeMemberMembership expectedMembership)
  | .saveMemberIfAbsent m => t.row m.roomID m.userID = none

variable {t t' : Table}

theorem SaveCall.run_cases (c : SaveCall) (now : Int) (t : Table) :
    (c.run now t).2 = t ∨ c.Meets t ∧ t.Writes c.member (c.run now t).2 := by
  cases c with
  | saveMember m => exact .inr ⟨trivial, t.saveMember_writes now m⟩
  | saveMemberIfState m expectedRequestID expectedMembership =>
    rcases t.saveMemberIfState_cases now m expectedRequestID expectedMembership with
      h | ⟨current, t', h, hrow, hrequest, hmembership, hwrites⟩
    · exact .inl (congrArg Prod.snd h)
    · refine .inr ⟨⟨current, hrow, hrequest, hmembership⟩, ?_⟩
      show t.Writes m (t.saveMemberIfState now m expectedRequestID expectedMembership).2
      rw [h]
      exact hwrites
  | saveMemberIfAbsent m =>
    obtain h | ⟨t', h, hrow, hwrites⟩ := t.saveMemberIfAbsent_cases now m
    · exact .inl (congrArg Prod.snd h)
    · refine .inr ⟨hrow, ?_⟩
      show t.Writes m (t.saveMemberIfAbsent now m).2
      rw [h]
      exact hwrites

theorem SaveCall.exec_cases {c : SaveCall} {r : c.Ans} (h : c.Exec t r t') : t' = t ∨ c.Meets t ∧ t.Writes c.member t' := by
  obtain ⟨now, hrun | ⟨err, -, heq | heq⟩⟩ := h
  · have hsecond : t' = (c.run now t).2 := by rw [hrun]
    rw [hsecond]
    exact c.run_cases now t
  · exact .inl heq
  · rw [heq]
    exact c.run_cases now t

/-! ## Calls -/

def AskCall.Reads (t : Table) : (c : AskCall) → c.Ans → Prop
  | .read (.lookupMember roomID userID), r => (∃ err, r = .error err) ∨ r = .ok (t.row roomID userID)
  | _, _ => True

def MemberCall.Exec : (c : MemberCall) → Table → c.Ans → Table → Prop
  | .ask c, t, r, t' => t' = t ∧ c.Reads t r
  | .save c, t, r, t' => c.Exec t r t'

theorem MemberCall.exec_cases {c : MemberCall} {r : c.Ans} (h : c.Exec t r t') :
    t' = t ∨ ∃ sc : SaveCall, c = .save sc ∧ sc.Meets t ∧ t.Writes sc.member t' := by
  cases c with
  | ask c => exact .inl h.1
  | save c => exact (SaveCall.exec_cases h).imp_right fun hw => ⟨c, rfl, hw⟩

/-! ## Systems of workflows -/

variable {Q G : Type}

structure World (G : Type) where
  table : Table
  ghost : G

/-- Workflows started by requests; `note` writes down an answered call of a thread. -/
def system (entry : Q → Prog MemberSig Unit) (note : Nat → (c : MemberCall) → c.Ans → G → G) : Machine MemberSig Q (World G) where
  entry := entry
  exec t _ c w r w' := c.Exec w.table r w'.table ∧ w'.ghost = note t c r w.ghost
  crash w w' := w' = w

/-! ## Answers for scripts -/

def AskCall.unavailable : (c : AskCall) → c.Ans
  | .read .now => (0 : Int)
  | .read (.channelByIDOrRoom _ _) | .read (.lookupMember _ _) | .read (.contactByRoom _) | .read (.contactByPeer _) => .error ""
  | .side _ => .error ""

theorem AskCall.unavailable_reads (t : Table) (c : AskCall) : c.Reads t c.unavailable := by
  cases c with
  | read c =>
    cases c with
    | lookupMember roomID userID => exact .inl ⟨_, rfl⟩
    | _ => trivial
  | side c => trivial

section

variable (outside : (c : AskCall) → c.Ans)

/-- The store answers from the table; `outside` answers for everything else. -/
def AskCall.reply (t : Table) : (c : AskCall) → c.Ans
  | .read (.lookupMember roomID userID) => .ok (t.row roomID userID)
  | c => outside c

theorem AskCall.reply_reads (t : Table) (c : AskCall) : c.Reads t (c.reply outside t) := by
  cases c with
  | read c =>
    cases c with
    | lookupMember roomID userID => exact .inr rfl
    | _ => trivial
  | side c => trivial

def MemberCall.reply : (c : MemberCall) → Table → c.Ans × Table
  | .ask c, t => (c.reply outside t, t)
  | .save c, t => c.run 1 t

theorem MemberCall.reply_exec (c : MemberCall) (t : Table) :
    c.Exec t (c.reply outside t).1 (c.reply outside t).2 := by
  cases c with
  | ask c => exact ⟨rfl, c.reply_reads outside t⟩
  | save c => exact ⟨1, .inl rfl⟩

end

def replies (note : Nat → (c : MemberCall) → c.Ans → G → G) (t : Nat) (outside : (c : AskCall) → c.Ans) :
    Reply MemberSig (World G) :=
  fun c w => ((c.reply outside w.table).1, ⟨(c.reply outside w.table).2, note t c (c.reply outside w.table).1 w.ghost⟩)

/-- A move of thread `t` with these answers. -/
def answeredBy (note : Nat → (c : MemberCall) → c.Ans → G → G) (t : Nat) (outside : (c : AskCall) → c.Ans) :
    Move MemberSig Q (World G) :=
  .call t (replies note t outside)

theorem answeredBy_fair (entry : Q → Prog MemberSig Unit) (note : Nat → (c : MemberCall) → c.Ans → G → G) (t : Nat)
    (outside : (c : AskCall) → c.Ans) : Pool.Fair (system entry note) (answeredBy note t outside) :=
  fun _ c w => ⟨c.reply_exec outside w.table, rfl⟩

end Dirextalk.Members

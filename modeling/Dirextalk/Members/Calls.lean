/-
  Dirextalk.Members.Calls — what the projections of member rows call: the rows of members
  (`Members.Store`) and the rest of the service.

  A projection is a program of these calls. The rest of the service is channels, groups,
  contacts and the event log; it is called for its answers and its errors.
-/
import Dirextalk.Lib.Prog
import Dirextalk.Action.Params
import Dirextalk.Members.Store

namespace Dirextalk.Members

open Lib Lib.Go Dirextalk.Action

/-! ## Calls -/

inductive SaveCall where
  | saveMember (member : MemberRecord)
  | saveMemberIfState (member : MemberRecord) (expectedRequestID expectedMembership : String)
  | saveMemberIfAbsent (member : MemberRecord)

def SaveCall.Ans : SaveCall → Type
  | .saveMember _ => Except String Unit
  | .saveMemberIfState _ _ _ | .saveMemberIfAbsent _ => Except String Bool

inductive SideCall where
  | saveChannel (channel : Channel)
  | saveGroup (roomID : String)
  | appendEvent (type roomID : String)
  /-- what a member event does to the contact of a direct room -/
  | projectContact (roomID userID : String)

inductive AskCall where
  | read (c : ReadCall)
  | side (c : SideCall)

def AskCall.Ans : AskCall → Type
  | .read c => c.Ans
  | .side _ => Except String Unit

inductive MemberCall where
  | ask (c : AskCall)
  | save (c : SaveCall)

def MemberCall.Ans : MemberCall → Type
  | .ask c => c.Ans
  | .save c => c.Ans

abbrev AskSig : Sig := ⟨AskCall, AskCall.Ans⟩

abbrev MemberSig : Sig := ⟨MemberCall, MemberCall.Ans⟩

abbrev AskWork := ExceptT String (Prog AskSig)

abbrev Work := ExceptT String (Prog MemberSig)

/-- What is asked is part of a projection. -/
def asking {α : Type} (p : Prog AskSig α) : Prog MemberSig α := p.via (σ := MemberSig) MemberCall.ask fun _ r => r

instance : MonadLift (Prog AskSig) (Prog MemberSig) := ⟨asking⟩

instance {ε : Type} : MonadLift (ExceptT ε (Prog AskSig)) (ExceptT ε (Prog MemberSig)) := ⟨fun p => ExceptT.mk (asking p.run)⟩

structure Node where
  ownerMXID : String

/-! ## Calls as steps of a projection -/

def side (c : SideCall) : Prog AskSig (Except String Unit) := Prog.ask (σ := AskSig) (.side c)

def lookupMember (roomID userID : String) : AskWork (Option MemberRecord) :=
  if roomID = "" ∨ userID = "" then pure none
  else ExceptT.mk (Prog.ask (σ := AskSig) (.read (.lookupMember roomID userID)))

def channelByIDOrRoom (channelID roomID : String) : AskWork (Option Channel) :=
  ExceptT.mk (Prog.ask (σ := AskSig) (.read (.channelByIDOrRoom (trimSpace channelID) (trimSpace roomID))))

def saveMember (member : MemberRecord) : Work Unit := ExceptT.mk (Prog.ask (σ := MemberSig) (.save (.saveMember member)))

def saveMemberIfState (member : MemberRecord) (expectedRequestID expectedMembership : String) : Work Bool :=
  ExceptT.mk (Prog.ask (σ := MemberSig) (.save (.saveMemberIfState member expectedRequestID expectedMembership)))

def saveMemberIfAbsent (member : MemberRecord) : Work Bool :=
  ExceptT.mk (Prog.ask (σ := MemberSig) (.save (.saveMemberIfAbsent member)))

end Dirextalk.Members

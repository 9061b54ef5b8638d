/-
  Dirextalk.Members.Subjects — whose row an event changes (`rows_follow_state_key_iff`).

  A member policy is read off its state key alone. Member events and join requests let
  the content name another user (`user_id`), and a member event also names the role: so
  anyone who may send such an event writes the row of whomever they like and makes
  themselves owner (`member_event_forged`). The condition of the theorem says which events
  do neither, whatever the rows are.
-/
import Dirextalk.Members.System
import Dirextalk.Lib.Trace

namespace Dirextalk.Members

open Lib Lib.Go Dirextalk.Action Table

inductive RowEvent where
  | member (event : MemberEvent)
  | policy (event : MemberPolicyEvent)
  | joinRequest (event : JoinRequestEvent)

namespace RowEvent

def roomID : RowEvent → String
  | .member event => event.roomID
  | .policy event => event.roomID
  | .joinRequest event => event.roomID

/-- The user the state key denotes, as the projection of the event reads it. -/
def subject : RowEvent → String
  | .member event => userIDFromStateKey event.stateKey
  | .policy event => trimSpace (userIDFromStateKey event.stateKey)
  | .joinRequest event => trimSpace (userIDFromStateKey event.stateKey)

def project (node : Node) : RowEvent → Work Unit
  | .member event => projectMember node event
  | .policy event => projectMemberPolicyState event
  | .joinRequest event => projectJoinRequestState event

end RowEvent

/-- The projection of an event takes the rows from `t` to `t'`; its calls may fail. -/
def Projects (node : Node) (t : Table) (e : RowEvent) (t' : Table) : Prop :=
  ∃ tr r, (e.project node).run.Exec MemberCall.Exec t tr r t'

def Table.Owns (t : Table) (roomID userID : String) : Prop := ∃ row, t.row roomID userID = some row ∧ productOwnerRole row.role

/-- Only rows of the subject change, and the sender of a member event is not made owner by it. -/
structure Respects (e : RowEvent) (t t' : Table) : Prop where
  subject : ∀ roomID userID, t'.row roomID userID ≠ t.row roomID userID → userID = e.subject
  owner : ∀ event, e = .member event → ∀ roomID, t'.Owns roomID event.senderID → t.Owns roomID event.senderID

/-! ## The condition -/

def ProductInvite.roomID : ProductInvite → String
  | .group roomID => roomID
  | .channel c => c.roomID

/-- The event may take its subject, an owner of the room, into another room as they are. -/
def MemberEvent.CarriesRole (node : Node) (event : MemberEvent) : Prop :=
  event.role = "" ∧ equalFold (normalizeMemberMembership (fallbackString event.membership "invite")) "invite" = true ∧
    event.isDirect = false ∧ event.user ≠ "" ∧ event.user = node.ownerMXID ∧
    ∃ invite, event.productInvite = some invite ∧ invite.roomID ≠ event.roomID

/-- The event is about its subject, and one that its subject has sent names no owner. -/
def RowEvent.Sound (node : Node) : RowEvent → Prop
  | .member event => event.user = userIDFromStateKey event.stateKey ∧
      (event.senderID = event.user → productOwnerRole event.role = false ∧ ¬ event.CarriesRole node)
  | .policy _ => True
  | .joinRequest event => event.request.userID = "" ∨ joinRequestMembership event.request.status = none ∨
      event.request.userID = trimSpace (userIDFromStateKey event.stateKey)

/-! ## Roles -/

variable {t t' : Table} {roomID userID : String}

variable {m : MemberRecord}

theorem mergeMemberPersistence_owner (h : productOwnerRole (mergeMemberPersistence m old).role = true) :
    productOwnerRole m.role = true ∨ productOwnerRole old.role = true := by
  have hrole : (mergeMemberPersistence m old).role = old.role ∨ (mergeMemberPersistence m old).role = m.role := ite_eq_or_eq _ _ _
  obtain hrole | hrole := hrole
  · exact .inr (hrole ▸ h)
  · exact .inl (hrole ▸ h)

theorem normalizeProductMemberRole_owner (role : String) :
    productOwnerRole (normalizeProductMemberRole role) = productOwnerRole role := by
  unfold normalizeProductMemberRole
  split
  · rename_i howner
    rw [howner]
    decide +kernel
  · rename_i hother
    rw [Bool.eq_false_iff.mpr hother]
    decide +kernel

/-- Who is owner after a put was so before, or has just been put as such. -/
theorem Table.put_owns (h : (t.put m).Owns roomID userID) :
    t.Owns roomID userID ∨ productOwnerRole m.role = true ∧ roomID = m.roomID ∧ userID = m.userID := by
  obtain ⟨row, hrow, howner⟩ := h
  by_cases hkey : roomID = m.roomID ∧ userID = m.userID
  · obtain ⟨rfl, rfl⟩ := hkey
    rw [t.put_row, Option.some.injEq] at hrow
    subst hrow
    exact .inr ⟨howner, rfl, rfl⟩
  · rw [t.put_other m hkey] at hrow
    exact .inl ⟨row, hrow, howner⟩

theorem Table.upsertMember_put (t : Table) (m : MemberRecord) :
    ∃ p, t.upsertMember m = t.put p ∧ p.roomID = m.roomID ∧ p.userID = m.userID ∧ p.channelID = m.channelID ∧
      p.role = m.role := by
  unfold upsertMember
  split <;> exact ⟨_, rfl, rfl, rfl, rfl, rfl⟩

/-- A save leaves the table as it is, or puts a record with its key and its channel whose role is its own or merged
with the row's. -/
theorem SaveCall.run_put (c : SaveCall) (now : Int) (t : Table) : (c.run now t).2 = t ∨
    ∃ p, (c.run now t).2 = t.put p ∧ p.roomID = c.member.roomID ∧ p.userID = c.member.userID ∧ p.channelID = c.member.channelID ∧
      (p.role = normalizeProductMemberRole c.member.role ∨
        ∃ old, t.row c.member.roomID c.member.userID = some old ∧
          p.role = (mergeMemberPersistence (prepared now c.member) old).role) := by
  cases c with
  | saveMember m =>
    right
    show ∃ p, t.saveMember now m = t.put p ∧ _
    unfold Table.saveMember
    dsimp only
    split
    · cases hrow : t.row (prepared now m).roomID (prepared now m).userID with
      | none =>
        obtain ⟨p, hp, hroom, huser, hchannel, hrole⟩ := t.upsertMember_put (prepared now m)
        exact ⟨p, hp, hroom, huser, hchannel, .inl hrole⟩
      | some old =>
        obtain ⟨p, hp, hroom, huser, hchannel, hrole⟩ := t.upsertMember_put (mergeMemberPersistence (prepared now m) old)
        exact ⟨p, hp, hroom, huser, hchannel, .inr ⟨old, hrow, hrole⟩⟩
    · obtain ⟨p, hp, hroom, huser, hchannel, hrole⟩ := t.upsertMember_put (prepared now m)
      exact ⟨p, hp, hroom, huser, hchannel, .inl hrole⟩
  | saveMemberIfState m expectedRequestID expectedMembership =>
    show (t.saveMemberIfState now m expectedRequestID expectedMembership).2 = t ∨
      ∃ p, (t.saveMemberIfState now m expectedRequestID expectedMembership).2 = t.put p ∧ _
    unfold Table.saveMemberIfState
    dsimp only
    cases hrow : t.row (prepared now m).roomID (prepared now m).userID with
    | none => exact .inl rfl
    | some old =>
      dsimp only
      split
      · exact .inl rfl
      unfold compareAndSwapMemberGeneration
      split
      · exact .inl rfl
      dsimp only
      split
      · exact .inr ⟨_, rfl, rfl, rfl, rfl, .inr ⟨old, hrow, rfl⟩⟩
      · exact .inl rfl
  | saveMemberIfAbsent m =>
    show (t.saveMemberIfAbsent now m).2 = t ∨ ∃ p, (t.saveMemberIfAbsent now m).2 = t.put p ∧ _
    unfold Table.saveMemberIfAbsent Table.insertMemberIfAbsent
    split
    · exact .inr ⟨_, rfl, rfl, rfl, rfl, .inl rfl⟩
    · exact .inl rfl

/-- Who is owner after a save was so before, or has just been saved as such. -/
theorem SaveCall.run_owns {c : SaveCall} {now : Int} (h : (c.run now t).2.Owns roomID userID) :
    t.Owns roomID userID ∨ productOwnerRole c.member.role = true ∧ roomID = c.member.roomID ∧ userID = c.member.userID := by
  obtain hsame | ⟨p, hput, hroom, huser, -, hrole⟩ := c.run_put now t
  · exact .inl (hsame ▸ h)
  · rw [hput] at h
    obtain h | ⟨howner, rfl, rfl⟩ := t.put_owns h
    · exact .inl h
    · obtain hrole | ⟨old, hold, hrole⟩ := hrole
      · rw [← normalizeProductMemberRole_owner, ← hrole]
        exact .inr ⟨howner, hroom, huser⟩
      · obtain hnew | hkept := mergeMemberPersistence_owner (hrole ▸ howner)
        · exact .inr ⟨(normalizeProductMemberRole_owner _).symm.trans hnew, hroom, huser⟩
        · rw [hroom, huser]
          exact .inl ⟨old, hold, hkept⟩

theorem SaveCall.exec_owns {c : SaveCall} {r : c.Ans} (h : c.Exec t r t') (howns : t'.Owns roomID userID) :
    t.Owns roomID userID ∨ productOwnerRole c.member.role = true ∧ roomID = c.member.roomID ∧ userID = c.member.userID := by
  obtain ⟨now, hrun | ⟨err, -, rfl | rfl⟩⟩ := h
  · have hsecond : t' = (c.run now t).2 := by rw [hrun]
    rw [hsecond] at howns
    exact c.run_owns howns
  · exact .inl howns
  · exact c.run_owns howns

/-! ## What the projections save -/

/-- The saves of an event: rows of the user, and if `self`, an owner only where the row was read as such. -/
def guard (self : Bool) (roomID userID : String) : Monitor MemberSig Bool where
  allows known c := ∀ sc, c = .save sc → sc.member.userID = userID ∧
    (self = true → productOwnerRole sc.member.role = true → known = true ∧ sc.member.roomID = roomID)
  expects _
    | .ask (.read (.lookupMember r u)), .ok (some row) => row.roomID = r ∧ row.userID = u
    | _, _ => True
  next known
    | .ask (.read (.lookupMember r u)), .ok (some row) => known || (r = roomID ∧ u = userID ∧ productOwnerRole row.role)
    | _, _ => known

variable {self known : Bool} {α : Type}

/-- What only asks may always be done. -/
theorem asking_guarded (p : Prog AskSig α) (known : Bool) :
    (asking p).Obeys (guard self roomID userID) (fun _ known' => known = true → known' = true) known := by
  induction p generalizing known with
  | ret a => exact .ret fun h => h
  | call c k ih =>
    refine .call (fun _ => nofun) fun r _ => (ih r _).mono ?_
    intro a known' h hknown
    refine h ?_
    simp only [guard]
    split
    · simp [hknown]
    · exact hknown

theorem asking_guardedOk (p : AskWork α) (known : Bool) :
    (liftM p : Work α).run.Obeys (guard self roomID userID) (Prog.OkAt fun _ known' => known = true → known' = true) known :=
  (asking_guarded p.run known).mono fun _ _ h _ _ => h

theorem lookupMember_guarded (known : Bool) : (liftM (lookupMember roomID userID) : Work _).run.Obeys (guard self roomID userID)
    (Prog.OkAt fun existing known' => ∀ row, existing = some row →
      (roomID ≠ "" ∧ userID ≠ "") ∧ row.userID = userID ∧ (productOwnerRole row.role = true → known' = true)) known := by
  unfold lookupMember
  split
  · refine .ret fun existing h => ?_
    cases h
    exact fun row h => nomatch h
  · rename_i hkey
    refine .call (fun _ => nofun) fun r hkeyed => .ret ?_
    rintro existing rfl row rfl
    refine ⟨not_or.mp hkey, hkeyed.2, fun howner => ?_⟩
    simp [guard, howner]

/-- A function of the projector keeps to the guard. -/
abbrev Guarded (self : Bool) (roomID userID : String) (known : Bool) (p : Work α) : Prop :=
  p.run.Obeys (guard self roomID userID) (Prog.OkAt fun _ _ => True) known

theorem pure_guarded (a : α) : Guarded self roomID userID known (pure a) := .pureOk trivial

theorem asks_guarded (p : AskWork α) : Guarded self roomID userID known (liftM p) :=
  (asking_guardedOk p known).mono fun _ _ _ _ _ => trivial

theorem saveMember_guarded (huser : m.userID = userID)
    (howner : self = true → productOwnerRole m.role = true → known = true ∧ m.roomID = roomID) :
    (saveMember m).run.Obeys (guard self roomID userID) (Prog.OkAt fun _ known' => known' = known) known := by
  refine .call ?_ fun r _ => .ret fun _ _ => rfl
  rintro sc ⟨⟩
  exact ⟨huser, howner⟩

variable {existing : Option MemberRecord} {event : MemberEvent}

theorem memberPolicy_userID (roomID role : String) (muted : Option Bool) (now : Int)
    (hrow : ∀ row, existing = some row → row.userID = userID) :
    (memberPolicy roomID userID existing role muted now).userID = userID := by
  unfold memberPolicy
  cases existing with
  | none => rfl
  | some row => simpa only [Option.getD_some] using hrow row rfl

theorem projectMemberPolicyState_guarded (event : MemberPolicyEvent) :
    Guarded false event.roomID (trimSpace (userIDFromStateKey event.stateKey)) known (projectMemberPolicyState event) := by
  unfold projectMemberPolicyState
  dsimp only
  split
  · exact pure_guarded ()
  refine .seqOk (lookupMember_guarded known) fun existing known' hrow => ?_
  have huser := memberPolicy_userID event.roomID event.role event.muted event.time fun row h => (hrow row h).2.1
  exact .seqOk (saveMember_guarded huser nofun) fun _ _ _ => asks_guarded _

theorem saveJoinRequest_guarded (existing : Option MemberRecord) (huser : m.userID = userID) :
    Guarded false roomID userID known (saveJoinRequest m existing) := by
  have hallows : ∀ {c : SaveCall}, c.member = m → (guard false roomID userID).allows known (.save c) := by
    rintro c rfl sc ⟨⟩
    exact ⟨huser, nofun⟩
  unfold saveJoinRequest
  split
  · split
    · exact pure_guarded false
    · exact .call (hallows rfl) fun r _ => .ret fun _ _ => trivial
  · exact .call (hallows rfl) fun r _ => .ret fun _ _ => trivial

theorem JoinRequestEvent.status_lowerTrim (event : JoinRequestEvent) : lowerTrim event.request.status = event.request.status :=
  lowerTrim_lowerTrim _

theorem joinRequestMember_userID (hrow : ∀ row, existing = some row → row.userID = userID)
    (h : joinRequestMember roomID channelID userID existing status requestID now = some m) : m.userID = userID := by
  obtain ⟨membership, -, rfl⟩ := Option.map_eq_some_iff.mp h
  cases existing with
  | none => rfl
  | some old =>
    dsimp only
    split_ifs
    · exact hrow old rfl
    · exact hrow old rfl
    · rfl

/-- A request that names nobody, or has a status that is not known, saves nothing. -/
theorem projectJoinRequestState_guarded {event : JoinRequestEvent} (h : event.request.userID = "" ∨
    joinRequestMembership event.request.status = none ∨ event.request.userID = userID) :
    Guarded false event.roomID userID known (projectJoinRequestState event) := by
  unfold projectJoinRequestState
  dsimp only
  split
  · exact pure_guarded ()
  rename_i hnamed
  obtain hempty | hstatus | rfl := h
  · exact absurd hempty hnamed
  · refine .seqOk (asking_guardedOk _ known) fun existing _ _ => ?_
    rw [joinRequestMember, event.status_lowerTrim, hstatus]
    exact pure_guarded ()
  · refine .seqOk (lookupMember_guarded known) fun existing known' hrow => ?_
    cases hm : joinRequestMember event.roomID event.request.channelID event.request.userID existing event.request.status
        event.request.requestID event.time with
    | none => exact pure_guarded ()
    | some m =>
      have huser := joinRequestMember_userID (fun row h => (hrow row h).2.1) hm
      refine .seqOk (saveJoinRequest_guarded existing huser) fun saved _ _ => ?_
      split
      · exact asks_guarded _
      · exact pure_guarded ()

theorem fallbackString_owner (role : String) : productOwnerRole (fallbackString role "member") = productOwnerRole role := by
  unfold fallbackString
  split
  · rw [productOwnerRole, trimSpace_trimSpace]
    rfl
  · rename_i hblank
    rw [productOwnerRole, productOwnerRole, not_not.mp hblank]
    decide +kernel

theorem MemberEvent.record_owner (event : MemberEvent) (channelID : String) (existing : MemberRecord) :
    productOwnerRole (event.record channelID existing).role = if event.role ≠ "" then productOwnerRole event.role
      else productOwnerRole existing.role := by
  unfold MemberEvent.record
  rw [fallbackString_owner, apply_ite productOwnerRole]

theorem MemberEvent.record_invite {channelID : String} {existing : MemberRecord}
    (h : equalFold (event.record channelID existing).membership "invite" = true) :
    equalFold (normalizeMemberMembership (fallbackString event.membership "invite")) "invite" = true := by
  have hnamed : equalFold (event.named existing) "invite" = true := by
    by_cases hkeeps : event.keepsWorkflow existing = true
    · exact (Bool.and_eq_true_iff.mp hkeeps).1
    · simpa only [MemberEvent.record, if_neg hkeeps] using h
  by_cases hblank : trimSpace event.membership = ""
  · rw [fallbackString, if_neg (not_not.mpr hblank)]
    decide +kernel
  · rw [MemberEvent.named, fallbackString, if_pos hblank] at hnamed
    rw [fallbackString, if_pos hblank]
    exact hnamed

theorem projectProductInvite_guarded (invite : Option ProductInvite) (huser : m.userID = userID)
    (howner : ∀ i, invite = some i → self = true → productOwnerRole m.role = true → known = true ∧ i.roomID = roomID) :
    Guarded self roomID userID known (projectProductInvite m invite) := by
  cases invite with
  | none => exact pure_guarded ()
  | some invite =>
    cases invite
    all_goals
      refine .seqOk (asking_guardedOk _ known) fun _ known' hknown => ?_
      refine .mono (saveMember_guarded huser fun hself hrole => ?_) fun _ _ _ _ _ => trivial
      obtain ⟨hk, hroom⟩ := howner _ rfl hself hrole
      exact ⟨hknown hk, hroom⟩

variable {node : Node}

theorem projectMemberRecord_guarded (hkey : m.roomID = event.roomID ∧ m.userID = event.user)
    (hrow : self = true → productOwnerRole m.role = true → known = true)
    (hinvite : ∀ i, event.productInvite = some i → equalFold m.membership "invite" = true → event.isDirect = false →
      event.user = node.ownerMXID → self = true → productOwnerRole m.role = true → i.roomID = event.roomID) :
    Guarded self event.roomID event.user known (projectMemberRecord node event m) := by
  refine .seqOk (saveMember_guarded hkey.2 fun hself hrole => ⟨hrow hself hrole, hkey.1⟩) fun _ κ hκ => ?_
  rw [hκ]
  refine .seqOk (.liftOk (asking_guarded _ known)) fun _ κ hκ => ?_
  split
  · rename_i h
    refine projectProductInvite_guarded event.productInvite hkey.2 fun i hi hself hrole => ?_
    exact ⟨hκ (hrow hself hrole), hinvite i hi h.1 (by simpa using h.2.1) h.2.2.1 hself hrole⟩
  · split
    · exact asks_guarded _
    · exact pure_guarded ()

theorem projectMember_guarded
    (h : self = true → productOwnerRole event.role = false ∧ ¬ event.CarriesRole node) :
    Guarded self event.roomID event.user known (projectMember node event) := by
  refine .seqOk (asking_guardedOk _ known) fun channelID _ _ => ?_
  refine .seqOk (lookupMember_guarded _) fun existing κ hrow => ?_
  split
  · exact pure_guarded ()
  dsimp only
  generalize (if channelID = "" then _ else channelID) = c
  split
  · exact asks_guarded _
  -- an owner's record of an event that its subject has sent is that of an owner's row
  have hold : self = true → productOwnerRole (event.record c (existing.getD .zero)).role = true →
      event.role = "" ∧ ∃ row, existing = some row ∧ productOwnerRole row.role = true := by
    intro hself hrole
    rw [event.record_owner] at hrole
    split at hrole
    · rw [(h hself).1] at hrole
      cases hrole
    · rename_i hempty
      cases existing with
      | none => exact absurd hrole (by decide +kernel)
      | some row => exact ⟨not_not.mp hempty, row, rfl, hrole⟩
  refine projectMemberRecord_guarded ⟨rfl, rfl⟩ ?_ ?_
  · intro hself hrole
    obtain ⟨-, row, hexisting, howner⟩ := hold hself hrole
    exact (hrow row hexisting).2.2 howner
  · intro i hi hmembership hdirect huser hself hrole
    obtain ⟨hempty, row, hexisting, -⟩ := hold hself hrole
    by_contra hroom
    exact (h hself).2 ⟨hempty, event.record_invite hmembership, hdirect, (hrow row hexisting).1.2, huser, i, hi, hroom⟩

/-! ## Events that are about their subject -/

def Tells (self : Bool) (roomID userID : String) (t : Table) (known : Bool) (w : Table) : Prop :=
  (∀ room user, user ≠ userID → w.row room user = t.row room user) ∧
    (self = true → (∀ room, w.Owns room userID → t.Owns room userID) ∧ (known = true → t.Owns roomID userID))

/-- A row that is read has its key, and what it is read as was so before. -/
theorem ask_tells (hreads : c.Reads w r) (h : Tells self roomID userID t known w) :
    (guard self roomID userID).expects known (.ask c) r ∧
      Tells self roomID userID t ((guard self roomID userID).next known (.ask c) r) w := by
  by_cases hlookup : ∃ room user, c = .read (.lookupMember room user)
  · obtain ⟨room, user, rfl⟩ := hlookup
    obtain ⟨err, rfl⟩ | rfl := hreads
    · exact ⟨trivial, h⟩
    · cases hrow : w.row room user with
      | none => exact ⟨trivial, h⟩
      | some row =>
        refine ⟨w.keyed hrow, h.1, fun hself => ⟨(h.2 hself).1, fun hknown => ?_⟩⟩
        have hread : known = true ∨ room = roomID ∧ user = userID ∧ productOwnerRole row.role = true := by
          simpa [guard] using hknown
        obtain hbefore | ⟨rfl, rfl, howner⟩ := hread
        · exact (h.2 hself).2 hbefore
        · exact (h.2 hself).1 _ ⟨row, hrow, howner⟩
  · have hsilent :
        (guard self roomID userID).expects known (.ask c) r ∧ (guard self roomID userID).next known (.ask c) r = known := by
      cases c with
      | read c =>
        cases c with
        | lookupMember room user => exact absurd ⟨room, user, rfl⟩ hlookup
        | _ => exact ⟨trivial, rfl⟩
      | _ => exact ⟨trivial, rfl⟩
    rw [hsilent.2]
    exact ⟨hsilent.1, h⟩

theorem Guarded.exec (hp : Guarded self roomID userID false p)
    (h : p.run.Exec MemberCall.Exec t tr r t') : (∀ room user, user ≠ userID → t'.row room user = t.row room user) ∧
      (self = true → ∀ room, t'.Owns room userID → t.Owns room userID) := by
  have step : ∀ {known c w r w'}, Tells self roomID userID t known w → (guard self roomID userID).allows known c →
      MemberCall.Exec c w r w' → True → (guard self roomID userID).expects known c r ∧
        Tells self roomID userID t ((guard self roomID userID).next known c r) w' := by
    intro known c w r w' hR hallows hexec _
    cases c with
    | ask c =>
      obtain ⟨rfl, hreads⟩ := hexec
      exact ask_tells hreads hR
    | save c =>
      obtain ⟨huser, howner⟩ := hallows c rfl
      refine ⟨trivial, ?_, fun hself => ⟨?_, (hR.2 hself).2⟩⟩
      · intro room user hne
        obtain rfl | ⟨-, stored, -, -, hother⟩ := SaveCall.exec_cases hexec
        · exact hR.1 room user hne
        · rw [hother room user fun hkey => hne (hkey.2.trans huser)]
          exact hR.1 room user hne
      · intro room howns
        obtain hbefore | ⟨hrole, rfl, -⟩ := SaveCall.exec_owns hexec howns
        · exact (hR.2 hself).1 room hbefore
        · obtain ⟨hknown, hroom⟩ := howner hself hrole
          rw [hroom]
          exact (hR.2 hself).2 hknown
  have hstart : Tells self roomID userID t false t := ⟨fun _ _ _ => rfl, fun _ => ⟨fun _ h => h, nofun⟩⟩
  obtain ⟨κ, -, hrows, howns⟩ := Prog.Obeys.exec @step hp hstart h fun _ _ => trivial
  exact ⟨hrows, fun hself => (howns hself).1⟩

theorem respects_of_sound (he : e.Sound node) (h : Projects node t e t') : Respects e t t' := by
  obtain ⟨tr, r, hexec⟩ := h
  cases e with
  | member event =>
    obtain ⟨huser, hself⟩ := he
    have hguarded : Guarded (decide (event.senderID = event.user)) event.roomID event.user false (projectMember node event) :=
      projectMember_guarded fun h => hself (of_decide_eq_true h)
    obtain ⟨hrows, howner⟩ := hguarded.exec hexec
    refine ⟨fun room user hne => ?_, ?_⟩
    · by_contra hother
      exact hne (hrows room user fun h => hother (h.trans huser))
    · rintro _ ⟨⟩ room howns
      by_cases hsender : event.senderID = event.user
      · rw [hsender] at howns ⊢
        exact howner (decide_eq_true hsender) room howns
      · obtain ⟨row, hrow, hrole⟩ := howns
        exact ⟨row, (hrows room _ hsender).symm.trans hrow, hrole⟩
  | policy event =>
    obtain ⟨hrows, -⟩ := (projectMemberPolicyState_guarded event).exec hexec
    exact ⟨fun room user => not_imp_comm.mp (hrows room user), fun _ => nofun⟩
  | joinRequest event =>
    obtain ⟨hrows, -⟩ := (projectJoinRequestState_guarded he).exec hexec
    exact ⟨fun room user => not_imp_comm.mp (hrows room user), fun _ => nofun⟩

/-! ## Events that are not -/

section

variable (saved : Except String Unit)

def AskCall.inChannel : (c : AskCall) → c.Ans
  | .read (.channelByIDOrRoom _ _) => .ok (some ⟨"c", "", "", ""⟩)
  | .side (.saveGroup _) | .side (.saveChannel _) => saved
  | c => c.unavailable

abbrev replied : (c : MemberCall) → Table → c.Ans × Table := MemberCall.reply (AskCall.inChannel saved)

theorem Projects.perform (e : RowEvent) (t : Table) :
    Projects node t e ((e.project node).run.perform (replied saved) t).2 := by
  obtain ⟨tr, h⟩ := Prog.perform_exec (MemberCall.reply_exec (AskCall.inChannel saved)) (e.project node).run t
  exact ⟨tr, _, h⟩

theorem channel_perform (hroom : trimSpace event.roomID ≠ "") (t : Table) :
    ∃ channelID, channelID ≠ "" ∧ (liftM event.channel : Work String).run.perform (replied saved) t = (.ok channelID, t) := by
  unfold MemberEvent.channel
  split
  · refine ⟨"c", by decide, ?_⟩
    simp only [channelIDForRoom, if_neg hroom]
    rfl
  · exact ⟨event.channelID, ‹_›, rfl⟩

theorem lookupMember_perform (roomID userID : String) (t : Table) :
    (liftM (lookupMember roomID userID) : Work _).run.perform (replied saved) t =
      (.ok (if roomID = "" ∨ userID = "" then none else t.row roomID userID), t) := by
  unfold lookupMember
  split <;> rfl

theorem lookupMember_empty (roomID userID : String) :
    (liftM (lookupMember roomID userID) : Work _).run.perform (replied saved) .empty = (.ok none, .empty) := by
  rw [lookupMember_perform]
  split <;> rfl

end

theorem projectMember_perform (node : Node)
    (hroom : trimSpace event.roomID ≠ "") (hstale : event.stale existing = false)
    (hlookup : (liftM (lookupMember event.roomID event.user) : Work _).run.perform (replied saved) t = (.ok existing, t)) :
    ∃ channelID, (projectMember node event).run.perform (replied saved) t =
      (projectMemberRecord node event (event.record channelID (existing.getD .zero))).run.perform (replied saved) t := by
  obtain ⟨channelID, hchannel, hperform⟩ := channel_perform saved hroom t
  refine ⟨channelID, ?_⟩
  unfold projectMember
  rw [Prog.perform_bindOk hperform, Prog.perform_bindOk hlookup]
  rw [hstale, if_neg Bool.false_ne_true, if_neg hchannel, if_neg fun h => hchannel h.1]

/-- The first save of an event, where nothing else goes through. -/
theorem projectMemberRecord_perform (event : MemberEvent) (m : MemberRecord) (t : Table) :
    ((projectMemberRecord node event m).run.perform (replied (.error "")) t).2 = t.saveMember 1 m := by
  have hsave : (saveMember m).run.perform (replied (.error "")) t = (.ok (), t.saveMember 1 m) := rfl
  unfold projectMemberRecord
  rw [Prog.perform_bindOk hsave, Prog.perform_bindOk rfl]
  split
  · cases event.productInvite with
    | none => rfl
    | some invite => cases invite <;> rfl
  · split <;> rfl

theorem projectMember_inserts (node : Node) (event : MemberEvent) (hroom : trimSpace event.roomID ≠ "") :
    ∃ t', Projects node .empty (.member event) t' ∧
    ∃ row, t'.row event.roomID event.user = some row ∧
      (productOwnerRole event.role = true → productOwnerRole row.role = true) := by
  obtain ⟨channelID, hperform⟩ := projectMember_perform node hroom rfl (lookupMember_empty (.error "") event.roomID event.user)
  refine ⟨_, .perform (.error "") (.member event) .empty, ?_⟩
  rw [RowEvent.project, hperform, projectMemberRecord_perform, saveMember_new 1 rfl]
  refine ⟨_, put_row _ (prepared 1 (event.record channelID .zero)), fun howner => ?_⟩
  have hnamed : event.role ≠ "" := by
    intro hempty
    rw [hempty] at howner
    exact absurd howner (by decide +kernel)
  show productOwnerRole (normalizeProductMemberRole (event.record channelID .zero).role) = true
  rw [normalizeProductMemberRole_owner, event.record_owner, if_pos hnamed]
  exact howner

theorem projectJoinRequestState_inserts (node : Node) {event : JoinRequestEvent} (hnamed : event.request.userID ≠ "")
    {membership : String} (hstatus : joinRequestMembership event.request.status = some membership) :
    ∃ t', Projects node .empty (.joinRequest event) t' ∧ ∃ row, t'.row event.roomID event.request.userID = some row := by
  refine ⟨_, .perform (.error "") (.joinRequest event) .empty, ?_⟩
  have hlookup := lookupMember_empty (.error "") event.roomID event.request.userID
  rw [RowEvent.project, projectJoinRequestState, if_neg hnamed, Prog.perform_bindOk hlookup, joinRequestMember,
    event.status_lowerTrim, hstatus]
  exact ⟨_, put_row .empty (prepared 1 (joinRequested event.roomID event.request.userID membership _ event.time _))⟩

/-- The row of an owner who is invited. -/
def invitedOwner (roomID userID : String) : MemberRecord :=
  { MemberRecord.zero with roomID := roomID, userID := userID, role := "owner", membership := "invite" }

theorem invitedOwner_normal (roomID userID : String) :
    normalizeMemberRecord (invitedOwner roomID userID) = invitedOwner roomID userID := by
  have hinvite : normalizeMemberMembership "invite" = "invite" := by decide +kernel
  rw [normalizeMemberRecord]
  show { invitedOwner roomID userID with membership := normalizeMemberMembership "invite" } = _
  rw [hinvite]
  rfl

abbrev MemberEvent.invited (event : MemberEvent) : MemberRecord := invitedOwner event.roomID event.user

theorem MemberEvent.CarriesRole.record (h : event.CarriesRole node) (channelID : String) :
    productOwnerRole (event.record channelID event.invited).role = true ∧
      equalFold (event.record channelID event.invited).membership "invite" = true := by
  obtain ⟨hrole, hinvite, -⟩ := h
  constructor
  · rw [event.record_owner, if_neg (not_not.mpr hrole)]
    show productOwnerRole "owner" = true
    decide +kernel
  · have hkeeps : event.keepsWorkflow event.invited = false := by
      have hnone : trimSpace event.invited.requestID = "" := by
        show trimSpace "" = ""
        decide
      simp [MemberEvent.keepsWorkflow, preservePublicJoinWorkflowOnInvite, hnone]
    have hnamed : event.named event.invited = normalizeMemberMembership (fallbackString event.membership "invite") := by
      have hrow : fallbackString event.invited.membership "join" = "invite" := by
        show fallbackString "invite" "join" = "invite"
        decide
      rw [MemberEvent.named, hrow]
    simp only [MemberEvent.record, hkeeps, Bool.false_eq_true, if_false]
    rw [hnamed]
    exact hinvite

theorem projectMemberRecord_invites (t : Table)
    (hmembership : equalFold m.membership "invite" = true) (hdirect : event.isDirect = false)
    (hnode : event.user = node.ownerMXID)
    (hinvite : event.productInvite = some invite) :
      ∃ p : MemberRecord, (p.roomID = invite.roomID ∧ p.userID = m.userID ∧ p.role = m.role) ∧
      ((projectMemberRecord node event m).run.perform (replied (.ok ())) t).2 = (t.saveMember 1 m).saveMember 1 p := by
  have hsave : (saveMember m).run.perform (replied (.ok ())) t = (.ok (), t.saveMember 1 m) := rfl
  have htaken : equalFold m.membership "invite" ∧ !event.isDirect ∧ event.user = node.ownerMXID ∧ event.productInvite.isSome := by
    simp [hmembership, hdirect, hnode, hinvite]
  unfold projectMemberRecord
  rw [Prog.perform_bindOk hsave, Prog.perform_bindOk rfl, if_pos htaken, hinvite]
  cases invite with
  | group groupID => exact ⟨{ m with roomID := groupID, channelID := "" }, ⟨rfl, rfl, rfl⟩, rfl⟩
  | channel c => exact ⟨{ m with roomID := c.roomID, channelID := c.channelID }, ⟨rfl, rfl, rfl⟩, rfl⟩

theorem projectMember_carries (hroom : trimSpace event.roomID ≠ "") (h : event.CarriesRole node) :
    ∃ t t' room, Projects node t (.member event) t' ∧ t'.Owns room event.user ∧ ¬ t.Owns room event.user := by
  obtain ⟨-, -, hdirect, huser, hnode, invite, hinvite, hother⟩ := id h
  let t := empty.put event.invited
  have hrow : t.row event.roomID event.user = some event.invited :=
    (put_row _ event.invited).trans (congrArg some (invitedOwner_normal _ _))
  have hlookup : (liftM (lookupMember event.roomID event.user) : Work _).run.perform (replied (.ok ())) t =
      (.ok (some event.invited), t) := by
    have hroom' : event.roomID ≠ "" := fun hempty => hroom (by rw [hempty]; decide)
    rw [lookupMember_perform, if_neg (not_or.mpr ⟨hroom', huser⟩), hrow]
  have hstale : event.stale (some event.invited) = false := by
    simp [MemberEvent.stale, invitedOwner, MemberRecord.zero]
  obtain ⟨channelID, hperform⟩ := projectMember_perform node hroom hstale hlookup
  obtain ⟨howner, hmembership⟩ := h.record channelID
  obtain ⟨p, ⟨hproom, hpuser, hprole⟩, hsaves⟩ := projectMemberRecord_invites t hmembership hdirect hnode hinvite
  have hnone : t.row invite.roomID event.user = none := put_other _ _ fun hkey => hother hkey.1
  refine ⟨t, _, invite.roomID, .perform (.ok ()) (.member event) t, ?_, ?_⟩
  · obtain ⟨-, -, -, hrest⟩ := t.saveMember_writes 1 (event.record channelID event.invited)
    have hnew : (t.saveMember 1 (event.record channelID event.invited)).row p.roomID p.userID = none := by
      rw [hproom, hpuser]
      exact (hrest _ _ fun hkey => hother hkey.1).trans hnone
    rw [RowEvent.project, hperform, Option.getD_some, hsaves, saveMember_new 1 hnew, ← hproom]
    refine ⟨_, hpuser ▸ put_row _ (prepared 1 p), ?_⟩
    show productOwnerRole (normalizeProductMemberRole p.role) = true
    rw [normalizeProductMemberRole_owner, hprole]
    exact howner
  · rintro ⟨row, hfound, -⟩
    rw [hnone] at hfound
    cases hfound

/-! ## Sequences of events -/

/-- An event of a room; the id of a room is not blank. -/
structure RoomEvent where
  event : RowEvent
  room : trimSpace event.roomID ≠ ""

def MemberCall.fails : (c : MemberCall) → Table → c.Ans × Table
  | .ask c, t => (c.unavailable, t)
  | .save c, t => (c.failed "", t)

theorem Projects.failed (node : Node) (e : RowEvent) (t : Table) : Projects node t e t := by
  have hkeep : ∀ (c : MemberCall) w, (c.fails w).2 = w := by
    intro c w
    cases c <;> rfl
  have hfair : ∀ (c : MemberCall) w, c.Exec w (c.fails w).1 (c.fails w).2 := by
    intro c w
    cases c with
    | ask c => exact ⟨rfl, c.unavailable_reads w⟩
    | save c => exact ⟨0, .inr ⟨"", rfl, .inl rfl⟩⟩
  obtain ⟨tr, h⟩ := Prog.perform_exec hfair (e.project node).run t
  rw [Prog.perform_unchanged hkeep] at h
  exact ⟨tr, _, h⟩

/-- An event that respects its subject and its sender from any rows is one of the condition. -/
theorem RoomEvent.sound {e : RoomEvent} (h : ∀ t t', Projects node t e.event t' → Respects e.event t t') :
    e.event.Sound node := by
  obtain ⟨event, hroom⟩ := e
  cases event with
  | member event =>
    obtain ⟨t', hprojects, row, hrow, howner⟩ := projectMember_inserts node event hroom
    have hnew : t'.row event.roomID event.user ≠ empty.row event.roomID event.user := by
      rw [hrow]
      exact nofun
    refine ⟨(h _ _ hprojects).subject _ _ hnew, fun hsender => ⟨?_, fun hcarries => ?_⟩⟩
    · rw [← Bool.not_eq_true]
      intro hrole
      rw [← hsender] at hrow
      obtain ⟨row, hbefore, -⟩ := (h _ _ hprojects).owner event rfl event.roomID ⟨row, hrow, howner hrole⟩
      cases hbefore
    · obtain ⟨t, t', room, hprojects, hafter, hbefore⟩ := projectMember_carries hroom hcarries
      rw [← hsender] at hafter hbefore
      exact hbefore ((h _ _ hprojects).owner event rfl room hafter)
  | policy event => trivial
  | joinRequest event =>
    by_contra hunsound
    obtain ⟨hnamed, hrest⟩ := not_or.mp hunsound
    obtain ⟨hstatus, hsubject⟩ := not_or.mp hrest
    obtain ⟨membership, hmembership⟩ := Option.ne_none_iff_exists'.mp hstatus
    obtain ⟨t', hprojects, row, hrow⟩ := projectJoinRequestState_inserts node hnamed hmembership
    have hnew : t'.row event.roomID event.request.userID ≠ empty.row event.roomID event.request.userID := by
      rw [hrow]
      exact nofun
    exact hsubject ((h _ _ hprojects).subject _ _ hnew)

/-- In a run of member events, policies and join requests, every event changes rows of its subject only and makes no
sender owner, exactly if each is about its subject and none that its subject sent names or carries the owner. -/
theorem rows_follow_state_key_iff (node : Node) (es : List RoomEvent) :
    (∀ before e after, es = before ++ e :: after →
      ∀ t₀ t t', Run (fun t (e : RoomEvent) t' => Projects node t e.event t') t₀ before t →
        Projects node t e.event t' → Respects e.event t t') ↔
      ∀ e ∈ es, e.event.Sound node := by
  constructor
  · intro h e he
    obtain ⟨before, after, rfl⟩ := List.append_of_mem he
    refine RoomEvent.sound fun t t' hprojects => ?_
    -- the events before it may all have failed
    have hidle : Run (fun t (e : RoomEvent) t' => Projects node t e.event t') t before t := by
      clear h he
      induction before with
      | nil => exact .nil t
      | cons e es ih => exact .cons (.failed node e.event t) ih
    exact h before e after rfl t t t' hidle hprojects
  · intro h before e after hes t₀ t t' _ hprojects
    exact respects_of_sound (h e (hes ▸ List.mem_append_right _ List.mem_cons_self)) hprojects

/-- What a guest says about a user in their own member event. -/
def guestEvent (userID role : String) : MemberEvent where
  roomID := "!room:a"
  eventID := "$event"
  senderID := "@mallory:b"
  stateKey := "@mallory:b"
  userID := userID
  channelID := ""
  membership := "join"
  displayName := none
  avatarURL := none
  role := role
  muted := none
  publicJoinRequestID := ""
  isDirect := false
  contactRequest := false
  productInvite := none
  time := 1

def aliceNode : Node := ⟨"@alice:a"⟩

/-- Mallory writes the row of Alice, and makes themselves owner. -/
theorem member_event_forged : (∃ t t', Projects aliceNode t (.member (guestEvent "@alice:a" "")) t' ∧
      t.row "!room:a" "@alice:a" = none ∧ t'.row "!room:a" "@alice:a" ≠ none) ∧
    ∃ t t', Projects aliceNode t (.member (guestEvent "" "owner")) t' ∧
      t.row "!room:a" "@mallory:b" = none ∧ t'.Owns "!room:a" "@mallory:b" := by
  have hroom : trimSpace "!room:a" ≠ "" := by decide
  constructor
  · obtain ⟨t', hprojects, row, hrow, -⟩ := projectMember_inserts aliceNode (guestEvent "@alice:a" "") hroom
    exact ⟨_, t', hprojects, rfl, Option.ne_none_iff_exists'.mpr ⟨row, hrow⟩⟩
  · obtain ⟨t', hprojects, row, hrow, howner⟩ := projectMember_inserts aliceNode (guestEvent "" "owner") hroom
    have huser : (guestEvent "" "owner").user = "@mallory:b" := by decide
    rw [huser] at hrow
    exact ⟨_, t', hprojects, rfl, row, hrow, howner (by decide +kernel)⟩

end Dirextalk.Members

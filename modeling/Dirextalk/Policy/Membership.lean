/-
  Dirextalk.Policy.Membership — `ValidateClientMembership`
  (`internal/productpolicy/productpolicy.go`): who may invite, join, leave, kick and ban.

  `Sound` is what a room owes to what it was created as: only its creator removes others,
  invites and joins follow the rules of its kind, and a dissolved room lets people leave
  and nothing else. The code judges by the kind the profile names. Every accepted request
  is sound exactly if the profile does not change the kind, or changes it in a way that
  opens nothing (`membership_sound_iff`): a profile that calls a group a channel lets in
  whoever has an approved join request (`retyped_group_joined`).
-/
import Dirextalk.Policy.Room

namespace Dirextalk.Policy

open Lib Lib.Go

structure ClientMembershipRequest where
  groupAgentControl : Bool
  senderMXID : String
  targetMXID : String
  membership : String

/-- `strings.ToLower(strings.TrimSpace(req.Membership))`. -/
def ClientMembershipRequest.kind (req : ClientMembershipRequest) : String := toLower (trimSpace req.membership)

def ClientMembershipRequest.own (req : ClientMembershipRequest) : Bool := trimSpace req.senderMXID = trimSpace req.targetMXID

def isNativeYingMXID (splitID : SplitID) (mxid : String) : Bool := (splitID mxid).any (·.1 = "ying")

/-- The two users of a direct room, either way round. -/
def peers (requester target senderMXID targetMXID : String) : Bool :=
  trimSpace requester ≠ "" ∧ trimSpace target ≠ "" ∧
    (trimSpace senderMXID = trimSpace requester ∧ trimSpace targetMXID = trimSpace target ∨
      trimSpace senderMXID = trimSpace target ∧ trimSpace targetMXID = trimSpace requester)

def RoomPolicy.directPeerInvite (p : RoomPolicy) (senderMXID targetMXID : String) : Bool :=
  p.roomType = some .direct && peers p.directRequester p.directTarget senderMXID targetMXID

section

variable (q : Querier)

def priorRoomMember (userMXID : String) : Except Refusal Bool :=
  if !q.validUserID userMXID ∨ !q.answers .membership then .error .failed
  else .ok ((q.membership userMXID).roomExists && (q.membership userMXID).hasBeenInRoom)

def validateJoin (p : RoomPolicy) : Except Refusal Unit :=
  if p.senderJoined then .ok ()
  else if equalFold p.senderMembership "invite" then .ok ()
  else
    match p.roomType with
    | some .channel =>
      if equalFold p.joinPolicy "open" then .ok ()
      else if equalFold p.joinRequestStatus "approved" then .ok ()
      else .error (.forbidden "channel join requires approved join request")
    | some .group => .error (.forbidden "group join requires invite")
    | some .direct => .error (.forbidden "direct room join requires invite")
    | none => .error (.forbidden "sender is not joined to the dirextalk room")

/-- The second look of an invite, in a direct room: whether the target was there before. -/
def formerPeer (p : RoomPolicy) (targetMXID : String) : Except Refusal Bool :=
  if p.roomType = some .direct then priorRoomMember q targetMXID else .ok false

def validateInvite (p : RoomPolicy) (req : ClientMembershipRequest) : Except Refusal Unit :=
  if p.directPeerInvite req.senderMXID req.targetMXID then .ok ()
  else do
    let wasMember ← formerPeer q p req.targetMXID
    if wasMember then .ok ()
    else if p.roomType = some .group ∧ equalFold p.invitePolicy "member" then .ok ()
    else if p.senderPrivileged then .ok ()
    else .error (.forbidden "sender cannot invite members to this dirextalk room")

/-- `ValidateClientMembership` in a product room. -/
def judgeMembership (p : RoomPolicy) (req : ClientMembershipRequest) : Except Refusal Unit :=
  if p.roomType = some .group ∧ req.kind = "invite" ∧ isNativeYingMXID q.splitID req.targetMXID ∧ !req.groupAgentControl then
    .error (.forbidden "Native Ying can only be enabled by the group owner")
  else if req.kind = "join" ∧ req.own then
    if p.dissolved then .error (.forbidden "dirextalk room is dissolved") else validateJoin p
  else if req.kind = "leave" ∧ req.own then .ok ()
  else if p.dissolved then .error (.forbidden "dirextalk room is dissolved")
  else if !p.senderJoined then .error (.forbidden "sender is not joined to the dirextalk room")
  else if req.kind = "invite" then validateInvite q p req
  else if req.kind = "ban" then
    if p.senderPrivileged then .ok () else .error (.forbidden "sender cannot ban members in this dirextalk room")
  else if req.kind = "leave" then
    if p.senderPrivileged then .ok ()
    else .error (.forbidden "sender cannot remove another member from this dirextalk room")
  else .ok ()

def validateClientMembership (req : ClientMembershipRequest) : Except Refusal Unit := do
  let p ← resolveRoom q req.senderMXID
  if p.roomType.isSome then judgeMembership q p req else return ()

/-! ## What a room owes to its creation -/

/-- The content of an event, empty where there is none. -/
def contentOf (event : Option StateEvent) : Object := (event.bind (·.content)).getD fun _ => none

def profileContent (state : RoomState) : Object := contentOf (state.find profileKey)

def invitePolicy (profile : Object) : String := fallbackValue (stringValue (profile "invite_policy")) "member"

def joinPolicy (profile : Object) : String := fallbackValue (stringValue (profile "join_policy")) "invite"

section

variable (state : RoomState) (user : String)

def stateMembership : String :=
  stringValue (contentOf (state.find (memberType, user)) "membership")

def Joined : Prop :=
  stateMembership state user = "join" ∨ (q.membership user).membership = "join" ∨ (q.membership user).isInRoom = true

/-- The roomserver holds an invite for the user, or the last it knows of them is one. -/
def Invited : Prop :=
  (∃ pending, q.invitePending = some pending ∧ pending user = true) ∨
    equalFold (membershipValue (q.membership user).membership (stateMembership state user)) "invite" = true

def Creator : Prop :=
  authoritativeCreateSenderMXID q (state.find createKey) = .ok user

def Approved : Prop :=
  equalFold (toLower (stringValue (contentOf (userEvent state joinRequestType user) "status"))) "approved" = true

end

/-- Somebody the roomserver knows from before. -/
def Former (user : String) : Prop :=
  (q.membership user).roomExists = true ∧ (q.membership user).hasBeenInRoom = true

end

structure Sound (created : RoomType) (q : Querier) (state : RoomState) (req : ClientMembershipRequest) : Prop where
  removal : req.kind = "ban" ∨ req.kind = "leave" → req.own = false →
    Joined q state req.senderMXID ∧ Creator q state req.senderMXID
  invite : req.kind = "invite" → Joined q state req.senderMXID ∧ (Creator q state req.senderMXID ∨
      created = .group ∧ equalFold (invitePolicy (profileContent state)) "member" = true ∨
      created = .direct ∧
        (peers (stringValue (profileContent state "requester_mxid")) (stringValue (profileContent state "target_mxid"))
            req.senderMXID req.targetMXID = true ∨ Former q req.targetMXID))
  join : req.kind = "join" → req.own = true → ¬Joined q state req.senderMXID → Invited q state req.senderMXID ∨
      created = .channel ∧ (equalFold (joinPolicy (profileContent state)) "open" = true ∨ Approved state req.senderMXID)
  dissolved : boolValue (profileContent state "dissolved") = true → req.kind = "leave" ∧ req.own = true

/-! ## What the resolved policy says of the room -/

variable {q : Querier} {state : RoomState} {p p' : RoomPolicy} {user : String} {req : ClientMembershipRequest}

theorem contentOf_ok (h : eventContent event = .ok content) : contentOf event = content := by
  obtain ⟨rfl, rfl⟩ | ⟨e, rfl, hc⟩ := eventContent_ok h
  · rfl
  · simp [contentOf, hc]

structure Opened (state : RoomState) (p : RoomPolicy) : Prop where
  dissolved : p.dissolved = boolValue (profileContent state "dissolved")
  invitePolicy : p.invitePolicy = invitePolicy (profileContent state)
  joinPolicy : p.joinPolicy = joinPolicy (profileContent state)
  direct : p.roomType = some .direct → p.directRequester = stringValue (profileContent state "requester_mxid") ∧
      p.directTarget = stringValue (profileContent state "target_mxid")
  senderRole : p.senderRole = .member

theorem fallbackValue_empty (value : String) : fallbackValue value "" = value := by
  unfold fallbackValue
  split
  · rfl
  · rename_i h
    simpa using (Eq.symm (by simpa using h))

theorem opened (h : openingPolicy state = .ok p) (htype : p.roomType ≠ none) : Opened state p := by
  obtain ⟨createContent, -, h⟩ := bind_eq_ok.mp h
  cases hprofile : state.find profileKey with
  | none =>
    rw [hprofile] at h
    cases h
    have hcontent : profileContent state = fun _ => none := by simp [profileContent, contentOf, hprofile]
    constructor <;> simp [hcontent, Policy.invitePolicy, Policy.joinPolicy, fallbackValue]
  | some event =>
    rw [hprofile] at h
    obtain ⟨content, hcontent, h⟩ := bind_eq_ok.mp h
    cases h
    have hc : profileContent state = content := contentOf_ok (hprofile ▸ hcontent)
    rw [applyProfile_roomType] at htype
    have hsome :
        ((roomTypeOf (stringValue (content "room_type"))).or (roomTypeOf (stringValue (createContent "type")))).isSome = true :=
      Option.isSome_iff_ne_none.mpr htype
    unfold applyProfile
    rw [if_pos hsome]
    constructor
    · rw [hc]
      cases hd : content "dissolved" <;> simp [applyRoomPolicyContent, hd]
    · rw [hc]
      rfl
    · rw [hc]
      rfl
    · intro hdirect
      rw [hc]
      have ht : (roomTypeOf (stringValue (content "room_type"))).or (roomTypeOf (stringValue (createContent "type"))) =
          some .direct :=
        hdirect
      simp [applyRoomPolicyContent, ht, fallbackValue_empty]
    · rfl

/-- What a sender is for the policy, they are for the roomserver. -/
theorem senderMembership_ok (h : senderMembership q user (state.find (memberType, user)) = .ok (m, joined)) :
    (joined = true → Joined q state user) ∧ (joined = false → equalFold m "invite" = true → Invited q state user) := by
  obtain ⟨content, hcontent, h⟩ := bind_eq_ok.mp h
  have hstate : stateMembership state user = stringValue (content "membership") := by rw [stateMembership, contentOf_ok hcontent]
  dsimp only at h
  rw [← hstate] at h
  -- what the last lines of the function answer
  have hknown :
      (m, joined) = (membershipValue (q.membership user).membership (stateMembership state user), (q.membership user).isInRoom) →
      (joined = true → Joined q state user) ∧ (joined = false → equalFold m "invite" = true → Invited q state user) := by
    intro heq
    cases heq
    exact ⟨fun hin => .inr (.inr hin), fun _ hinvite => .inr hinvite⟩
  split at h
  · rename_i hjoin
    cases h
    exact ⟨fun _ => .inl hjoin, fun hfalse => by cases hfalse⟩
  split at h
  · cases h
  split at h
  · rename_i hjoin
    cases h
    exact ⟨fun _ => .inr (.inl hjoin), fun hfalse => by cases hfalse⟩
  split at h
  · cases hpending : q.invitePending with
    | none =>
      rw [hpending] at h
      cases h
      exact hknown rfl
    | some pending =>
      rw [hpending] at h
      dsimp only at h
      split at h
      · cases h
      split at h
      · rename_i hinvited
        cases h
        exact ⟨fun htrue => absurd htrue (by decide), fun _ _ => .inl ⟨pending, hpending, hinvited⟩⟩
      · cases h
        exact hknown rfl
  · cases h
    exact hknown rfl

structure Accepted (q : Querier) (p : RoomPolicy) (req : ClientMembershipRequest) : Prop where
  removal : req.kind = "ban" ∨ req.kind = "leave" → req.own = false → p.senderJoined = true ∧ p.senderRole = .owner
  invite : req.kind = "invite" → p.senderJoined = true ∧
    (p.roomType = some .direct ∧
      (peers p.directRequester p.directTarget req.senderMXID req.targetMXID = true ∨ Former q req.targetMXID) ∨
      p.roomType = some .group ∧ equalFold p.invitePolicy "member" = true ∨ p.senderRole = .owner)
  join : req.kind = "join" → req.own = true → p.senderJoined = true ∨ equalFold p.senderMembership "invite" = true ∨
    p.roomType = some .channel ∧ (equalFold p.joinPolicy "open" = true ∨ equalFold p.joinRequestStatus "approved" = true)
  dissolved : p.dissolved = true → req.kind = "leave" ∧ req.own = true

theorem validateJoin_ok (h : validateJoin p = .ok ()) : p.senderJoined = true ∨ equalFold p.senderMembership "invite" = true ∨
    p.roomType = some .channel ∧ (equalFold p.joinPolicy "open" = true ∨ equalFold p.joinRequestStatus "approved" = true) := by
  unfold validateJoin at h
  split at h
  · exact .inl ‹_›
  split at h
  · exact .inr (.inl ‹_›)
  split at h
  · rename_i htype
    split at h
    · exact .inr (.inr ⟨htype, .inl ‹_›⟩)
    split at h
    · exact .inr (.inr ⟨htype, .inr ‹_›⟩)
    · cases h
  all_goals cases h

theorem validateInvite_ok (h : validateInvite q p req = .ok ()) :
    p.roomType = some .direct ∧
      (peers p.directRequester p.directTarget req.senderMXID req.targetMXID = true ∨ Former q req.targetMXID) ∨
      p.roomType = some .group ∧ equalFold p.invitePolicy "member" = true ∨ p.senderRole = .owner := by
  unfold validateInvite at h
  split at h
  · rename_i hpeers
    simp only [RoomPolicy.directPeerInvite, Bool.and_eq_true, decide_eq_true_eq] at hpeers
    exact .inl ⟨hpeers.1, .inl hpeers.2⟩
  obtain ⟨wasMember, hwas, h⟩ := bind_eq_ok.mp h
  split at h
  · rename_i htrue
    subst htrue
    unfold formerPeer at hwas
    split at hwas
    · rename_i hdirect
      unfold priorRoomMember at hwas
      split at hwas
      · cases hwas
      · simp only [Except.ok.injEq, Bool.and_eq_true] at hwas
        exact .inl ⟨hdirect, .inr hwas⟩
    · cases hwas
  split at h
  · exact .inr (.inl ‹_›)
  split at h
  · rename_i howner
    exact .inr (.inr (by simpa [RoomPolicy.senderPrivileged] using howner))
  · cases h

theorem judgeMembership_ok (h : judgeMembership q p req = .ok ()) : Accepted q p req := by
  unfold judgeMembership at h
  split at h
  · cases h
  split at h
  · rename_i hjoin
    split at h
    · cases h
    rename_i hopen
    refine ⟨?_, ?_, fun _ _ => validateJoin_ok h, fun hd => absurd hd hopen⟩
    · intro _ hown
      rw [hown] at hjoin
      exact absurd hjoin.2 (by decide)
    · intro hinvite
      exact absurd (hjoin.1.symm.trans hinvite) (by decide)
  rename_i hnojoin
  split at h
  · rename_i hleave
    refine ⟨?_, ?_, fun hkind hown => absurd ⟨hkind, hown⟩ hnojoin, fun _ => hleave⟩
    · intro _ hown
      rw [hown] at hleave
      exact absurd hleave.2 (by decide)
    · intro hinvite
      exact absurd (hleave.1.symm.trans hinvite) (by decide)
  split at h
  · cases h
  rename_i hopen
  split at h
  · cases h
  rename_i hjoined
  have hjoined : p.senderJoined = true := by simpa using hjoined
  refine ⟨fun hkind _ => ⟨hjoined, ?_⟩, fun hkind => ⟨hjoined, ?_⟩, fun hkind hown => absurd ⟨hkind, hown⟩ hnojoin,
    fun hd => absurd hd hopen⟩
  · have hinvite : req.kind ≠ "invite" := by rcases hkind with hkind | hkind <;> rw [hkind] <;> decide
    rw [if_neg hinvite] at h
    by_contra hmember
    have hprivileged : ¬p.senderPrivileged = true := by simpa [RoomPolicy.senderPrivileged] using hmember
    obtain hkind | hkind := hkind
    · rw [if_pos hkind, if_neg hprivileged] at h
      cases h
    · rw [if_neg (by rw [hkind]; decide), if_pos hkind, if_neg hprivileged] at h
      cases h
  · rw [if_pos hkind] at h
    exact validateInvite_ok h

/-! ## When every accepted request is sound -/

def Opening.content (o : Opening) : Object := (o.profile.bind (·.2)).getD fun _ => none

theorem content_opening (state : RoomState) : (opening state).content = profileContent state := by
  simp only [Opening.content, opening, profileContent, contentOf]
  cases state.find profileKey <;> rfl

/-- The profile names no other kind than the create event, or opens nothing that way: the room is dissolved, or run as
a group that only its creator invites to, or as a direct room while everybody may invite. -/
def Opening.Consistent (o : Opening) (created : RoomType) : Prop :=
  ∀ kind, o.profiled = some kind → kind = created ∨ boolValue (o.content "dissolved") = true ∨
    kind = .group ∧ equalFold (invitePolicy o.content) "member" = false ∨
    kind = .direct ∧ created = .group ∧ equalFold (invitePolicy o.content) "member" = true

theorem Resolved.creator_of_owner (h : Resolved q state p user p') (hopened : Opened state p) (howner : p'.senderRole = .owner) :
    Creator q state user := by
  obtain ⟨creatorMXID, hcreator, hrole⟩ := h.creator
  rw [howner, hopened.senderRole] at hrole
  by_cases hsame : creatorMXID = user
  · exact hsame ▸ hcreator
  · rw [if_neg hsame] at hrole
    cases hrole

variable {created : RoomType}

section

variable (hq : q.current = .ok (some state)) (hcreated : (opening state).created = some created)
include hq hcreated

theorem accepted_room
    (h : validateClientMembership q req = .ok ()) :
    ∃ p p', Opened state p ∧ Resolved q state p req.senderMXID p' ∧ Accepted q p' req ∧
      (p'.roomType = some created ∨ p'.roomType = (opening state).profiled ∧ p'.roomType ≠ none) := by
  obtain ⟨p', hresolve, h⟩ := bind_eq_ok.mp h
  obtain ⟨htype, -⟩ := resolveRoom_roomType hq hresolve
  rw [hcreated] at htype
  have hkind : p'.roomType = some created ∨ p'.roomType = (opening state).profiled ∧ p'.roomType ≠ none := by
    cases hprofiled : (opening state).profiled with
    | none => exact .inl (by simpa [hprofiled] using htype)
    | some kind =>
      rw [hprofiled] at htype
      exact .inr ⟨htype, by simp [htype]⟩
  have hne : p'.roomType ≠ none := by
    obtain hkind | ⟨-, hne⟩ := hkind
    · simp [hkind]
    · exact hne
  rw [if_pos (Option.isSome_iff_ne_none.mpr hne)] at h
  obtain ⟨p, hp, hcase⟩ := resolveRoom_ok hq hresolve
  obtain ⟨hnone, rfl⟩ | hres := hcase
  · exact absurd hnone hne
  · exact ⟨p, p', opened hp (hres.roomType ▸ hne), hres, judgeMembership_ok h, hkind⟩

theorem sound_of_consistent
    (hconsistent : (opening state).Consistent created) (h : validateClientMembership q req = .ok ()) :
      Sound created q state req := by
  obtain ⟨p, p', hopened, hres, hacc, hkind⟩ := accepted_room hq hcreated h
  have hmembership := senderMembership_ok hres.membership
  have hdissolved : boolValue (profileContent state "dissolved") = true → req.kind = "leave" ∧ req.own = true := by
    rw [← hopened.dissolved, ← hres.dissolved]
    exact hacc.dissolved
  -- a kind that is not that of the creation opens nothing
  have hother : ∀ kind, p'.roomType = some kind → req.kind ≠ "leave" → kind = created ∨
      kind = .group ∧ equalFold p'.invitePolicy "member" = false ∨
      kind = .direct ∧ created = .group ∧ equalFold p'.invitePolicy "member" = true := by
    intro kind htype hleave
    obtain hkind | ⟨hkind, -⟩ := hkind
    · rw [htype, Option.some.injEq] at hkind
      exact .inl hkind
    · rw [hres.invitePolicy, hopened.invitePolicy, ← content_opening]
      obtain hsame | hd | hcase := hconsistent kind (hkind ▸ htype)
      · exact .inl hsame
      · rw [content_opening] at hd
        exact absurd (hdissolved hd).1 hleave
      · exact .inr hcase
  refine ⟨?_, ?_, ?_, hdissolved⟩
  · intro hremoval hown
    obtain ⟨hjoined, howner⟩ := hacc.removal hremoval hown
    exact ⟨hmembership.1 hjoined, hres.creator_of_owner hopened howner⟩
  · intro hinvite
    have hleave : req.kind ≠ "leave" := by rw [hinvite]; decide
    obtain ⟨hjoined, hcase⟩ := hacc.invite hinvite
    refine ⟨hmembership.1 hjoined, ?_⟩
    obtain ⟨hdirect, hcase⟩ | ⟨hgroup, hmember⟩ | howner := hcase
    · obtain hsame | ⟨hno, -⟩ | ⟨-, hgroup, hmember⟩ := hother _ hdirect hleave
      · right; right
        refine ⟨hsame.symm, ?_⟩
        obtain ⟨hrequester, htarget⟩ := hopened.direct (hres.roomType ▸ hdirect)
        rwa [hres.direct.1, hres.direct.2, hrequester, htarget] at hcase
      · cases hno
      · exact .inr (.inl ⟨hgroup, by rwa [hres.invitePolicy, hopened.invitePolicy] at hmember⟩)
    · obtain hsame | ⟨-, hno⟩ | ⟨hno, -⟩ := hother _ hgroup hleave
      · exact .inr (.inl ⟨hsame.symm, by rwa [hres.invitePolicy, hopened.invitePolicy] at hmember⟩)
      · rw [hmember] at hno
        cases hno
      · cases hno
    · exact .inl (hres.creator_of_owner hopened howner)
  · intro hjoin hown hnot
    have hleave : req.kind ≠ "leave" := by rw [hjoin]; decide
    have hout : p'.senderJoined = false := by
      by_contra hin
      exact hnot (hmembership.1 (by simpa using hin))
    obtain hin | hinvited | ⟨hchannel, hcase⟩ := hacc.join hjoin hown
    · rw [hout] at hin
      cases hin
    · exact .inl (hmembership.2 hout hinvited)
    · obtain hsame | ⟨hno, -⟩ | ⟨hno, -⟩ := hother _ hchannel hleave
      · refine .inr ⟨hsame.symm, ?_⟩
        obtain ⟨content, hcontent, hstatus⟩ := hres.joinRequest
        rw [hres.joinPolicy, hopened.joinPolicy, hstatus] at hcase
        rwa [Approved, contentOf_ok hcontent]
      · cases hno
      · cases hno

end

/-! ### A profile that opens the room -/

variable {former : Bool} {o : Opening}

def approvalEvent (user : String) : StateEvent :=
  ⟨joinRequestType, userStateKey user, user, some fun key => if key = "status" then some (.string "approved") else none⟩

def Opening.approving (o : Opening) (user : String) : RoomState := o.room (approvalEvent user) (.inr rfl)

abbrev RoomPolicy.approvedFor (p : RoomPolicy) (creator user : String) : RoomPolicy := p.seenBy creator user "approved" "" false

theorem approving_member : (o.approving user).find (memberType, user) = none := by
  rw [Opening.approving, room_find (by decide) (by decide), if_neg]
  intro h
  exact absurd (congrArg Prod.fst h) (by simp [approvalEvent, StateEvent.tuple, memberType, joinRequestType])

theorem resolveRoom_approving
    (ho : o = ⟨some (creator, some create), some (sender, some profile)⟩)
    (htype : (decodedPolicy create profile).roomType ≠ none) :
    resolveRoom (.answering (o.approving user) former) user = .ok ((decodedPolicy create profile).approvedFor creator user) := by
  have hmember : senderMembership (.answering (o.approving user) former) user ((o.approving user).find (memberType, user)) =
      .ok ("", false) := by
    simp [approving_member, senderMembership, eventContent, Querier.answering, membershipValue, bind, Except.bind]
    rfl
  have hrequest : eventContent (userEvent (o.approving user) joinRequestType user) =
      .ok fun key => if key = "status" then some (.string "approved") else none := by
    have happroval : userEvent (o.approving user) joinRequestType user = some (approvalEvent user) := by
      rw [userEvent, Opening.approving, room_find (by decide) (by decide)]
      exact congrArg (Option.or · _) (if_pos rfl)
    rw [happroval]
    rfl
  refine (resolveRoom_room ho htype (by simp [approvalEvent, joinRequestType, memberPolicyType]) hmember hrequest ?_).trans ?_
  · intro htype
    exact absurd htype (by simp [approvalEvent, joinRequestType, memberType])
  · have happroved : toLower (stringValue (some (.string "approved"))) = "approved" := by decide +kernel
    rw [if_pos rfl, happroved]

/-- A room whose opening events decode, run as a kind of its profile. -/
structure RunAs (o : Opening) (creator : String) (p : RoomPolicy) (kind : RoomType) : Prop where
  decodes : ∃ create sender profile, o = ⟨some (creator, some create), some (sender, some profile)⟩ ∧
    p = decodedPolicy create profile
  roomType : p.roomType = some kind
  dissolved : p.dissolved = boolValue (o.content "dissolved")
  invitePolicy : p.invitePolicy = invitePolicy o.content

variable {kind : RoomType}

theorem runAs_of_kinds (hcreated : o.created = some created) (hprofiled : o.profiled = some kind) :
    ∃ creator p, RunAs o creator p kind := by
  obtain ⟨creator, create, sender, profile, ho⟩ := opening_of_kinds hcreated hprofiled
  have htype : (decodedPolicy create profile).roomType = some kind := by
    simp only [ho, Opening.profiled, Option.bind_some] at hprofiled
    rw [decodedPolicy, applyProfile_roomType, hprofiled, Option.some_or]
  have hdecodes : Decodes (o.joined "") creator create profile := decodes_of_opening (opening_joined.trans ho)
  have hopened := opened hdecodes.openingPolicy (by rw [← decodedPolicy, htype]; simp)
  refine ⟨creator, decodedPolicy create profile, ⟨create, sender, profile, ho, rfl⟩, htype, ?_, ?_⟩
  · rw [decodedPolicy, hopened.dissolved, ← content_opening, opening_joined]
  · rw [decodedPolicy, hopened.invitePolicy, ← content_opening, opening_joined]

theorem RunAs.validate_joined (h : RunAs o creator p kind) :
    validateClientMembership (.answering (o.joined user) former) ⟨false, user, target, membership⟩ =
      judgeMembership (.answering (o.joined user) former) (p.joinedBy creator user) ⟨false, user, target, membership⟩ := by
  obtain ⟨create, sender, profile, ho, rfl⟩ := h.decodes
  rw [validateClientMembership, resolveRoom_joined ho (by simp [h.roomType])]
  simp [bind, Except.bind, RoomPolicy.seenBy, h.roomType]

theorem RunAs.validate_approving (h : RunAs o creator p kind) :
    validateClientMembership (.answering (o.approving user) former) ⟨false, user, target, membership⟩ =
      judgeMembership (.answering (o.approving user) former) (p.approvedFor creator user) ⟨false, user, target, membership⟩ := by
  obtain ⟨create, sender, profile, ho, rfl⟩ := h.decodes
  rw [validateClientMembership, resolveRoom_approving ho (by simp [h.roomType])]
  simp [bind, Except.bind, RoomPolicy.seenBy, h.roomType]

/-- Somebody who is not the creator. -/
theorem exists_stranger (creator : String) : ∃ user ∈ ["@a:home", "@b:home"], creator ≠ user := by
  by_cases h : creator = "@a:home"
  · exact ⟨"@b:home", by simp, by rw [h]; decide⟩
  · exact ⟨"@a:home", by simp, h⟩

/-- Somebody who is neither of two. -/
theorem exists_third (a b : String) : ∃ user ∈ ["@c:home", "@d:home", "@e:home"], a ≠ user ∧ b ≠ user := by
  by_contra h
  simp only [List.mem_cons, List.not_mem_nil, or_false, exists_eq_or_imp, exists_eq_left, not_or, not_and, not_not] at h
  obtain ⟨hc, hd, he⟩ := h
  by_cases ha : a = "@c:home"
  · subst ha
    have hb := hd (by decide)
    subst hb
    exact absurd (he (by decide)) (by decide)
  · have hb := hc ha
    subst hb
    by_cases ha : a = "@d:home"
    · subst ha
      exact absurd (he (by decide)) (by decide)
    · exact absurd (hd ha) (by decide)

theorem kind_join : toLower (trimSpace "join") = "join" := by decide

theorem kind_invite : toLower (trimSpace "invite") = "invite" := by decide

/-- Run as a channel, the room lets in whoever has an approved join request. -/
theorem RunAs.joins (h : RunAs o creator p .channel) (hopen : boolValue (o.content "dissolved") = false)
    (user : String) (former : Bool) :
    validateClientMembership (.answering (o.approving user) former) ⟨false, user, user, "join"⟩ = .ok () := by
  rw [h.validate_approving]
  have hdissolved := h.dissolved.trans hopen
  have happroved : equalFold "approved" "approved" = true := by decide +kernel
  have hinvite : equalFold "" "invite" = false := by decide +kernel
  simp [judgeMembership, ClientMembershipRequest.kind, ClientMembershipRequest.own, kind_join, RoomPolicy.seenBy, hdissolved,
    validateJoin, h.roomType, happroved, hinvite]

/-- Run as a group that everybody invites to, or as a direct room that people were in before, it lets a member
invite. -/
theorem RunAs.invites (h : RunAs o creator p kind) (user : String) (former : Bool)
    (hopen : boolValue (o.content "dissolved") = false)
    (hying : isNativeYingMXID (Querier.answering (o.joined user) former).splitID target = false)
    (hkind : kind = .group ∧ equalFold (Policy.invitePolicy o.content) "member" = true ∨ kind = .direct ∧ former = true) :
    validateClientMembership (.answering (o.joined user) former) ⟨false, user, target, "invite"⟩ = .ok () := by
  rw [h.validate_joined]
  have hdissolved := h.dissolved.trans hopen
  have hjudge : judgeMembership (.answering (o.joined user) former) (p.joinedBy creator user) ⟨false, user, target, "invite"⟩ =
      validateInvite (.answering (o.joined user) former) (p.joinedBy creator user) ⟨false, user, target, "invite"⟩ := by
    simp [judgeMembership, ClientMembershipRequest.kind, kind_invite, hying, RoomPolicy.seenBy, hdissolved]
  rw [hjudge, validateInvite]
  split
  · rfl
  obtain ⟨rfl, hmember⟩ | ⟨rfl, rfl⟩ := hkind
  · have hformer : formerPeer (.answering (o.joined user) former) (p.joinedBy creator user) target = .ok false := by
      simp [formerPeer, h.roomType]
    have hpolicy : equalFold (p.joinedBy creator user).invitePolicy "member" = true := by
      simpa [RoomPolicy.seenBy, h.invitePolicy] using hmember
    simp [hformer, bind, Except.bind, h.roomType, hpolicy]
  · have hformer : formerPeer (.answering (o.joined user) true) (p.joinedBy creator user) target = .ok true := by
      simp [formerPeer, h.roomType, priorRoomMember, Querier.answering]
    simp [hformer, bind, Except.bind]

/-- The create event of a room with given opening events. -/
theorem creator_room
    (h : ∃ create sender profile, o = ⟨some (creator, some create), some (sender, some profile)⟩)
    (hne : trimSpace creator ≠ user) : ¬Creator (.answering (o.room e he) former) (o.room e he) user := by
  obtain ⟨create, sender, profile, ho⟩ := h
  obtain ⟨⟨c, hc, rfl, -⟩, -⟩ := decodes_of_opening ((opening_room (o := o) (e := e)).trans ho)
  intro hcreator
  rw [Creator, hc] at hcreator
  exact hne (Except.ok.inj hcreator)

theorem stateMembership_approving : stateMembership (o.approving user) user = "" := by
  rw [stateMembership, approving_member]
  exact stringValue_none

theorem not_joined_approving : ¬Joined (.answering (o.approving user) former) (o.approving user) user := by
  simp [Joined, stateMembership_approving, Querier.answering]

theorem not_invited_approving : ¬Invited (.answering (o.approving user) former) (o.approving user) user := by
  have hinvite : equalFold "" "invite" = false := by decide +kernel
  simp [Invited, stateMembership_approving, Querier.answering, membershipValue, hinvite]

/-- The membership changes that are accepted are those of a room of the created kind, exactly if the profile names no
other kind or opens nothing by it. -/
theorem membership_sound_iff (o : Opening) (created : RoomType) (hcreated : o.created = some created) :
    (∀ q state req, q.current = .ok (some state) → opening state = o → validateClientMembership q req = .ok () →
      Sound created q state req) ↔ o.Consistent created := by
  constructor
  · intro h kind hprofiled
    obtain ⟨creator, p, hrun⟩ := runAs_of_kinds hcreated hprofiled
    obtain ⟨user, -, hstranger⟩ := exists_stranger (trimSpace creator)
    have hdecodes := hrun.decodes.imp fun create h => h.imp fun sender h => h.imp fun profile h => h.1
    by_contra hnot
    simp only [not_or, not_and, Bool.not_eq_true, Bool.not_eq_false] at hnot
    obtain ⟨hother, hopen, hgroup, hdirect⟩ := hnot
    cases kind with
    | channel =>
      -- somebody with an approved join request joins
      have hsound := h _ _ _ rfl opening_room (hrun.joins hopen user false)
      obtain hinvited | ⟨hchannel, -⟩ := hsound.join kind_join (by simp [ClientMembershipRequest.own]) not_joined_approving
      · exact not_invited_approving hinvited
      · exact hother hchannel.symm
    | group =>
      -- a member invites somebody who is not known to the room
      have hmember := hgroup rfl
      obtain ⟨target, htarget, hr, ht⟩ := exists_third (trimSpace (stringValue (o.content "requester_mxid")))
        (trimSpace (stringValue (o.content "target_mxid")))
      have hplain : isNativeYingMXID .plain target = false ∧ trimSpace target = target :=
        (by decide : ∀ t ∈ ["@c:home", "@d:home", "@e:home"], isNativeYingMXID .plain t = false ∧ trimSpace t = t) target htarget
      have hsound := h _ _ _ rfl opening_joined (hrun.invites user false hopen hplain.1 (.inl ⟨rfl, hmember⟩))
      obtain ⟨-, hcreator | ⟨hcreated, -⟩ | ⟨-, hpeers | hformer⟩⟩ := hsound.invite kind_invite
      · exact creator_room hdecodes hstranger hcreator
      · exact hother hcreated.symm
      · rw [← content_opening, opening_joined] at hpeers
        simp only [peers, hplain.2, decide_eq_true_eq] at hpeers
        obtain hcase | hcase := hpeers.2.2
        · exact ht hcase.2.symm
        · exact hr hcase.2.symm
      · exact absurd hformer.2 (by simp [Querier.answering])
    | direct =>
      -- a member invites somebody who was in the room before
      have hplain : isNativeYingMXID .plain "@c:home" = false := by decide
      have hsound := h _ _ _ rfl opening_joined (hrun.invites user true hopen hplain (.inr ⟨rfl, rfl⟩))
      obtain ⟨-, hcreator | ⟨hcreated, hmember⟩ | ⟨hcreated, -⟩⟩ := hsound.invite kind_invite
      · exact creator_room hdecodes hstranger hcreator
      · rw [← content_opening, opening_joined] at hmember
        have hno := hdirect rfl hcreated
        rw [hmember] at hno
        cases hno
      · exact hother hcreated.symm
  · intro hconsistent q state req hq ho h
    exact sound_of_consistent hq (ho ▸ hcreated) (ho ▸ hconsistent) h

def plainGroup : Opening where
  create := retypedGroup.create
  profile := some ("@owner:home", some fun key => if key = "room_type" then some (.string RoomType.group.text) else none)

theorem plain_group_sound : plainGroup.Consistent .group ∧
    ∀ q state req, q.current = .ok (some state) → opening state = plainGroup → validateClientMembership q req = .ok () →
      Sound .group q state req := by
  have hconsistent : plainGroup.Consistent .group := by
    intro kind hprofiled
    have hgroup : plainGroup.profiled = some .group := by decide +kernel
    rw [hgroup, Option.some.injEq] at hprofiled
    exact .inl hprofiled.symm
  exact ⟨hconsistent, (membership_sound_iff plainGroup .group (by decide +kernel)).mpr hconsistent⟩

theorem retyped_group_joined :
    let q := .answering (retypedGroup.approving "@a:home") false
    retypedGroup.created = some .group ∧ validateClientMembership q ⟨false, "@a:home", "@a:home", "join"⟩ = .ok () ∧
      ¬Sound .group q (retypedGroup.approving "@a:home") ⟨false, "@a:home", "@a:home", "join"⟩ := by
  have hgroup : retypedGroup.created = some .group := by decide +kernel
  obtain ⟨creator, p, hrun⟩ := runAs_of_kinds hgroup (by decide +kernel : retypedGroup.profiled = some .channel)
  have hopen : boolValue (retypedGroup.content "dissolved") = false := by decide +kernel
  refine ⟨hgroup, hrun.joins hopen _ _, fun hsound => ?_⟩
  obtain hinvited | ⟨hchannel, -⟩ := hsound.join kind_join rfl not_joined_approving
  · exact not_invited_approving hinvited
  · cases hchannel

end Dirextalk.Policy

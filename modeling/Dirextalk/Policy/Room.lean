/-
  Dirextalk.Policy.Room — what the product policy takes a room for
  (`internal/productpolicy/productpolicy.go`): `ProductRoomType`, `resolveRoom` and what
  they read from the current state.

  A room is asked through its querier. Its state is one snapshot; the roomserver's answers
  about a user (membership, pending invite, the user behind a sender) and the parsing of
  Matrix ids are fields of the querier, and any query may fail.

  `ProductRoomType` looks at the create event first, `resolveRoom` lets the profile have
  the last word. The two agree, and enforce what the room was created as, exactly if the
  profile does not name another kind (`enforced_kind_iff`); one profile event turns a group
  into a channel for the checks (`profile_changes_enforced_kind`).
-/
import Dirextalk.Lib.Json
import Dirextalk.Lib.Rows

namespace Dirextalk.Policy

open Lib Lib.Go

/-! ## Values -/

def stringValue : Option Json → String
  | none | some .null => ""
  | some (.string s) => trimSpace s
  | some v => trimSpace (String.ofList v.chars)

def boolValue : Option Json → Bool
  | some (.bool b) => b
  | some (.string s) => toLower (trimSpace s) ∈ ["true", "1", "yes"]
  | some (.number x) => !x.isZero
  | _ => false

inductive RoomType where
  | direct
  | group
  | channel
  deriving DecidableEq, Repr

def RoomType.text : RoomType → String
  | .direct => "io.dirextalk.room.direct"
  | .group => "io.dirextalk.room.group"
  | .channel => "io.dirextalk.room.channel"

/-- The type a text names, after `isDirextalkRoomType`. -/
def roomTypeOf (value : String) : Option RoomType :=
  [RoomType.direct, .group, .channel].find? (·.text = trimSpace value)

/-! ## Rooms -/

/-- A state event; its content is `none` if it does not decode into an object. -/
structure StateEvent where
  type : String
  stateKey : String
  sender : String
  content : Option Object

def StateEvent.tuple (e : StateEvent) : String × String := (e.type, e.stateKey)

abbrev RoomState := Rows StateEvent.tuple

def createKey : String × String := ("m.room.create", "")

def profileKey : String × String := ("io.dirextalk.room.profile", "")

def memberPolicyType : String := "io.dirextalk.member.policy"

def joinRequestType : String := "io.dirextalk.join_request"

def memberType : String := "m.room.member"

/-- `UserStateKey`. -/
def userStateKey (mxid : String) : String := "user:" ++ trimSpace mxid

structure Membership where
  roomExists : Bool
  isInRoom : Bool
  hasBeenInRoom : Bool
  membership : String

/-- The queries after the snapshot; one that is not answered is an error. -/
inductive Query where
  | members
  | userID
  | membership
  | invite
  | postSettings

structure Querier where
  roomID : String
  /-- the snapshot: an error, no such room, or its state -/
  current : Except Unit (Option RoomState)
  answers : Query → Bool
  membership : String → Membership
  /-- `InvitePending`, if the querier has it -/
  invitePending : Option (String → Bool)
  /-- `QueryUserIDForSender`, if the querier has it -/
  userIDForSender : Option (String → Option String)
  splitID : SplitID
  validUserID : String → Bool
  validRoomID : String → Bool

/-- Why a request is not accepted: a policy error with its text (403), or any other error. -/
inductive Refusal where
  | forbidden (message : String)
  | failed
  deriving DecidableEq, Repr

/-- `eventContent`. -/
def eventContent : Option StateEvent → Except Refusal Object
  | none => .ok fun _ => none
  | some e =>
    match e.content with
    | some content => .ok content
    | none => .error .failed

inductive SenderRole where
  | owner
  | member
  deriving DecidableEq, Repr

/-- `roomPolicy`; a room without a type is no product room. -/
structure RoomPolicy where
  roomType : Option RoomType := none
  dissolved : Bool := false
  commentsEnabled : Bool := true
  invitePolicy : String := "member"
  joinPolicy : String := "invite"
  directRequester : String := ""
  directTarget : String := ""
  senderRole : SenderRole := .member
  senderMuted : Bool := false
  senderMembership : String := ""
  senderJoined : Bool := false
  directPeerJoined : Bool := false
  joinRequestStatus : String := ""

def RoomPolicy.senderPrivileged (p : RoomPolicy) : Bool := p.senderRole = .owner

def fallbackValue (value fallback : String) : String := if value ≠ "" then value else fallback

def applyRoomPolicyContent (p : RoomPolicy) (content : Object) (requireChannelComments : Bool) : RoomPolicy :=
  { p with
    dissolved := if (content "dissolved").isSome then boolValue (content "dissolved") else p.dissolved
    commentsEnabled :=
      if p.roomType = some .channel ∧ ((content "comments_enabled").isSome ∨ requireChannelComments) then
        boolValue (content "comments_enabled")
      else p.commentsEnabled
    invitePolicy := fallbackValue (stringValue (content "invite_policy")) p.invitePolicy
    joinPolicy := fallbackValue (stringValue (content "join_policy")) p.joinPolicy
    directRequester :=
      if p.roomType = some .direct then fallbackValue (stringValue (content "requester_mxid")) p.directRequester
      else p.directRequester
    directTarget :=
      if p.roomType = some .direct then fallbackValue (stringValue (content "target_mxid")) p.directTarget
      else p.directTarget }

/-- The policy of the profile over that of the create event. -/
def applyProfile (p : RoomPolicy) (content : Object) : RoomPolicy :=
  let typed := { p with roomType := (roomTypeOf (stringValue (content "room_type"))).or p.roomType }
  if typed.roomType.isSome then applyRoomPolicyContent typed content true else typed

/-- What `resolveRoom` reads of the create event and the profile. -/
def openingPolicy (state : RoomState) : Except Refusal RoomPolicy := do
  let createContent ← eventContent (state.find createKey)
  let p : RoomPolicy := { roomType := roomTypeOf (stringValue (createContent "type")) }
  match state.find profileKey with
  | none => return p
  | some event => return applyProfile p (← eventContent (some event))

section

variable (q : Querier)

def authoritativeCreateSenderMXID (event : Option StateEvent) : Except Refusal String :=
  match event with
  | none => .ok ""
  | some e =>
    if q.validUserID (trimSpace e.sender) then .ok (trimSpace e.sender)
    else
      match q.userIDForSender with
      | none => .ok ""
      | some resolve =>
        if trimSpace e.sender = "" then .ok ""
        else if !q.validRoomID (trimSpace q.roomID) ∨ !q.answers .userID then .error .failed
        else .ok ((resolve e.sender).getD "")

/-- A user's state under the prefixed key, or under the plain one. -/
def userEvent (state : RoomState) (type mxid : String) : Option StateEvent :=
  (state.find (type, userStateKey mxid)).or (state.find (type, mxid))

def membershipValue (queryMembership stateMembership : String) : String :=
  if queryMembership ≠ "" then queryMembership else stateMembership

/-- The membership of the sender, and whether they are joined. -/
def senderMembership (senderMXID : String) (event : Option StateEvent) : Except Refusal (String × Bool) := do
  let content ← eventContent event
  let stateMembership := stringValue (content "membership")
  if stateMembership = "join" then return (stateMembership, true)
  else if !q.validUserID senderMXID ∨ !q.answers .membership then throw .failed
  else
    let res := q.membership senderMXID
    if res.membership = "join" then return (res.membership, true)
    else
      let known := (membershipValue res.membership stateMembership, res.isInRoom)
      if res.membership = "" ∨ stateMembership ≠ "" then
        match q.invitePending with
        | none => return known
        | some pending =>
          if !q.validRoomID q.roomID ∨ !q.answers .invite then throw .failed
          else if pending senderMXID then return ("invite", false)
          else return known
      else return known

/-- Whether one of the member events is of somebody else who is joined; the first that does not decode ends
the search. -/
def someoneElseJoined (senderMXID : String) : List StateEvent → Except Refusal Bool
  | [] => .ok false
  | e :: rest =>
    if e.stateKey = "" ∨ e.stateKey = senderMXID then someoneElseJoined senderMXID rest
    else
      match eventContent (some e) with
      | .error err => .error err
      | .ok content => if stringValue (content "membership") = "join" then .ok true else someoneElseJoined senderMXID rest

def directPeerJoined (state : RoomState) (senderMXID : String) : Except Refusal Bool :=
  if q.answers .members then someoneElseJoined senderMXID (state.rows.filter (·.type = memberType)) else .error .failed

def peerJoined (state : RoomState) (p : RoomPolicy) (senderMXID : String) : Except Refusal Bool :=
  if p.roomType = some .direct then directPeerJoined q state senderMXID else .ok p.directPeerJoined

/-- What `resolveRoom` adds for the sender. -/
def resolveSender (state : RoomState) (p : RoomPolicy) (senderMXID : String) : Except Refusal RoomPolicy := do
  let creatorMXID ← authoritativeCreateSenderMXID q (state.find createKey)
  let memberPolicy ← eventContent (userEvent state memberPolicyType senderMXID)
  let joinRequest ← eventContent (userEvent state joinRequestType senderMXID)
  let membership ← senderMembership q senderMXID (state.find (memberType, senderMXID))
  let directPeerJoined ← peerJoined q state p senderMXID
  return { p with
    senderRole := if creatorMXID = senderMXID then .owner else p.senderRole
    senderMuted := boolValue (memberPolicy "muted")
    joinRequestStatus := toLower (stringValue (joinRequest "status"))
    senderMembership := membership.1
    senderJoined := membership.2
    directPeerJoined }

def resolveRoom (senderMXID : String) : Except Refusal RoomPolicy :=
  match q.current with
  | .error () => .error .failed
  | .ok none => .ok {}
  | .ok (some state) => do
    let p ← openingPolicy state
    if p.roomType.isSome then resolveSender q state p senderMXID else return p

/-- `ProductRoomType`; `none` is the empty type. -/
def productRoomType : Except Refusal (Option RoomType) :=
  match q.current with
  | .error () => .error .failed
  | .ok none => .ok none
  | .ok (some state) => do
    let createContent ← eventContent (state.find createKey)
    match roomTypeOf (stringValue (createContent "type")) with
    | some t => return some t
    | none =>
      let profileContent ← eventContent (state.find profileKey)
      return roomTypeOf (stringValue (profileContent "room_type"))

end

/-! ## What is enforced -/

structure Opening where
  create : Option (String × Option Object)
  profile : Option (String × Option Object)

def opening (state : RoomState) : Opening where
  create := (state.find createKey).map fun e => (e.sender, e.content)
  profile := (state.find profileKey).map fun e => (e.sender, e.content)

def Opening.created (o : Opening) : Option RoomType :=
  (o.create.bind (·.2)).bind fun content => roomTypeOf (stringValue (content "type"))

def Opening.profiled (o : Opening) : Option RoomType :=
  (o.profile.bind (·.2)).bind fun content => roomTypeOf (stringValue (content "room_type"))

variable {q : Querier} {state : RoomState} {senderMXID : String} {p p' : RoomPolicy}

variable {content : Object}

theorem eventContent_ok (h : eventContent event = .ok content) :
    event = none ∧ content = (fun _ => none) ∨ ∃ e, event = some e ∧ e.content = some content := by
  cases event with
  | none =>
    cases h
    exact .inl ⟨rfl, rfl⟩
  | some e =>
    cases hc : e.content with
    | none => simp [eventContent, hc] at h
    | some c =>
      simp only [eventContent, hc] at h
      cases h
      exact .inr ⟨e, rfl, hc⟩

@[simp] theorem stringValue_none : stringValue none = "" := rfl

@[simp] theorem boolValue_none : boolValue none = false := rfl

@[simp] theorem stringValue_string (s : String) : stringValue (some (.string s)) = trimSpace s := rfl

theorem roomTypeOf_absent : roomTypeOf "" = none := by decide

attribute [irreducible] stringValue boolValue roomTypeOf

theorem created_of_content (h : eventContent (state.find createKey) = .ok content) :
    roomTypeOf (stringValue (content "type")) = (opening state).created := by
  obtain ⟨hnone, rfl⟩ | ⟨e, he, hc⟩ := eventContent_ok h
  · simp [Opening.created, opening, hnone, roomTypeOf_absent]
  · simp [Opening.created, opening, he, hc]

theorem profiled_of_content (h : eventContent (state.find profileKey) = .ok content) :
    roomTypeOf (stringValue (content "room_type")) = (opening state).profiled := by
  obtain ⟨hnone, rfl⟩ | ⟨e, he, hc⟩ := eventContent_ok h
  · simp [Opening.profiled, opening, hnone, roomTypeOf_absent]
  · simp [Opening.profiled, opening, he, hc]

@[simp] theorem applyProfile_roomType (p : RoomPolicy) (content : Object) :
    (applyProfile p content).roomType = (roomTypeOf (stringValue (content "room_type"))).or p.roomType := by
  unfold applyProfile
  dsimp only
  split <;> rfl

/-- Where the state decodes, the profile has the last word for `resolveRoom`. -/
theorem openingPolicy_roomType (h : openingPolicy state = .ok p) :
    p.roomType = (opening state).profiled.or (opening state).created := by
  obtain ⟨content, hcreate, h⟩ := bind_eq_ok.mp h
  rw [created_of_content hcreate] at h
  cases hprofile : state.find profileKey with
  | none =>
    rw [hprofile] at h
    cases h
    simp [Opening.profiled, opening, hprofile]
  | some event =>
    rw [hprofile] at h
    obtain ⟨content', hcontent, h⟩ := bind_eq_ok.mp h
    cases h
    rw [applyProfile_roomType, profiled_of_content (hprofile ▸ hcontent)]

/-- And the create event has it for `ProductRoomType`. -/
theorem productRoomType_of_openingPolicy (hq : q.current = .ok (some state)) (h : openingPolicy state = .ok p) :
    productRoomType q = .ok ((opening state).created.or (opening state).profiled) := by
  obtain ⟨content, hcreate, h⟩ := bind_eq_ok.mp h
  rw [productRoomType, hq]
  refine bind_eq_ok.mpr ⟨content, hcreate, ?_⟩
  rw [created_of_content hcreate]
  cases hcreated : (opening state).created with
  | some t => rfl
  | none =>
    have hprofile : ∃ content', eventContent (state.find profileKey) = .ok content' := by
      cases hfind : state.find profileKey with
      | none => exact ⟨_, rfl⟩
      | some event =>
        rw [hfind] at h
        obtain ⟨content', hcontent, -⟩ := bind_eq_ok.mp h
        exact ⟨content', hcontent⟩
    obtain ⟨content', hprofile⟩ := hprofile
    refine bind_eq_ok.mpr ⟨content', hprofile, ?_⟩
    rw [profiled_of_content hprofile]
    rfl

structure Resolved (q : Querier) (state : RoomState) (p : RoomPolicy) (senderMXID : String) (p' : RoomPolicy) : Prop where
  creator : ∃ creatorMXID, authoritativeCreateSenderMXID q (state.find createKey) = .ok creatorMXID ∧
    p'.senderRole = if creatorMXID = senderMXID then .owner else p.senderRole
  muted : ∃ content, eventContent (userEvent state memberPolicyType senderMXID) = .ok content ∧
    p'.senderMuted = boolValue (content "muted")
  joinRequest : ∃ content, eventContent (userEvent state joinRequestType senderMXID) = .ok content ∧
    p'.joinRequestStatus = toLower (stringValue (content "status"))
  membership : senderMembership q senderMXID (state.find (memberType, senderMXID)) = .ok (p'.senderMembership, p'.senderJoined)
  roomType : p'.roomType = p.roomType
  dissolved : p'.dissolved = p.dissolved
  commentsEnabled : p'.commentsEnabled = p.commentsEnabled
  invitePolicy : p'.invitePolicy = p.invitePolicy
  joinPolicy : p'.joinPolicy = p.joinPolicy
  direct : p'.directRequester = p.directRequester ∧ p'.directTarget = p.directTarget

theorem resolveSender_ok (h : resolveSender q state p senderMXID = .ok p') : Resolved q state p senderMXID p' := by
  obtain ⟨creatorMXID, hcreator, h⟩ := bind_eq_ok.mp h
  obtain ⟨memberPolicy, hmuted, h⟩ := bind_eq_ok.mp h
  obtain ⟨joinRequest, hjoin, h⟩ := bind_eq_ok.mp h
  obtain ⟨membership, hmembership, h⟩ := bind_eq_ok.mp h
  obtain ⟨peerJoined, -, h⟩ := bind_eq_ok.mp h
  cases h
  exact ⟨⟨creatorMXID, hcreator, rfl⟩, ⟨memberPolicy, hmuted, rfl⟩, ⟨joinRequest, hjoin, rfl⟩, hmembership,
    rfl, rfl, rfl, rfl, rfl, rfl, rfl⟩

section

variable (hq : q.current = .ok (some state)) (h : resolveRoom q senderMXID = .ok p')
include hq h

theorem resolveRoom_ok :
    ∃ p, openingPolicy state = .ok p ∧ (p.roomType = none ∧ p' = p ∨ Resolved q state p senderMXID p') := by
  rw [resolveRoom, hq] at h
  obtain ⟨p, hp, h⟩ := bind_eq_ok.mp h
  refine ⟨p, hp, ?_⟩
  split at h
  · exact .inr (resolveSender_ok h)
  · rename_i hnone
    cases h
    exact .inl ⟨by simpa using hnone, rfl⟩

theorem resolveRoom_roomType : p'.roomType = (opening state).profiled.or (opening state).created ∧
      productRoomType q = .ok ((opening state).created.or (opening state).profiled) := by
  obtain ⟨p, hp, hcase⟩ := resolveRoom_ok hq h
  have htype : p'.roomType = p.roomType := by
    obtain ⟨-, rfl⟩ | hres := hcase
    · rfl
    · exact hres.roomType
  exact ⟨htype.trans (openingPolicy_roomType hp), productRoomType_of_openingPolicy hq hp⟩

end

/-! ## Rooms with given opening events -/

def Opening.events (o : Opening) : List StateEvent :=
  (o.create.map fun e => ⟨"m.room.create", "", e.1, e.2⟩).toList ++
    (o.profile.map fun e => ⟨"io.dirextalk.room.profile", "", e.1, e.2⟩).toList

/-- The room with its opening events and one more, which is about a user. -/
def Opening.room (o : Opening) (e : StateEvent) (he : e.type = memberType ∨ e.type = joinRequestType) : RoomState where
  rows := o.events ++ [e]
  unique := by
    cases hc : o.create <;> cases hp : o.profile <;> rcases he with he | he <;>
      simp [Opening.events, hc, hp, StateEvent.tuple, he, memberType, joinRequestType]

variable {former : Bool} {o : Opening} {e : StateEvent} {he : e.type = memberType ∨ e.type = joinRequestType}

@[simp] theorem opening_room : opening (o.room e he) = o := by
  obtain ⟨create, profile⟩ := o
  cases create <;> cases profile <;> rcases he with he | he <;>
    simp [opening, Opening.room, Opening.events, Rows.find, StateEvent.tuple, createKey, profileKey, he, memberType,
      joinRequestType]

theorem room_find (hcreate : type ≠ "m.room.create") (hprofile : type ≠ "io.dirextalk.room.profile") :
    (o.room e he).find (type, key) = if e.tuple = (type, key) then some e else none := by
  obtain ⟨create, profile⟩ := o
  cases create <;> cases profile <;>
    simp [Opening.room, Opening.events, Rows.find, StateEvent.tuple, Ne.symm hcreate, Ne.symm hprofile, List.find?_cons]
  all_goals split <;> simp_all

variable {user creator : String} {create profile : Object}

theorem userEvent_other (htype : e.type ≠ type)
    (hopening : type ≠ "m.room.create" ∧ type ≠ "io.dirextalk.room.profile") : userEvent (o.room e he) type user = none := by
  have hne : ∀ key, e.tuple ≠ (type, key) := fun key h => htype (congrArg Prod.fst h)
  rw [userEvent, room_find hopening.1 hopening.2, room_find hopening.1 hopening.2, if_neg (hne _), if_neg (hne _)]
  rfl

/-- A querier that answers everything about the state, and knows of nobody who is in the room now; `former` is
whether everybody was once. -/
def Querier.answering (state : RoomState) (former : Bool) : Querier where
  roomID := "!room:home"
  current := .ok (some state)
  answers _ := true
  membership _ := ⟨true, false, former, ""⟩
  invitePending := none
  userIDForSender := none
  splitID := .plain
  validUserID _ := true
  validRoomID _ := true

structure Decodes (state : RoomState) (creator : String) (create profile : Object) : Prop where
  create : ∃ e, state.find createKey = some e ∧ e.sender = creator ∧ e.content = some create
  profile : ∃ e, state.find profileKey = some e ∧ e.content = some profile

theorem decodes_of_opening
    (h : opening state = ⟨some (creator, some create), some (sender, some profile)⟩) : Decodes state creator create profile := by
  simp only [opening, Opening.mk.injEq, Option.map_eq_some_iff, Prod.mk.injEq] at h
  obtain ⟨⟨c, hc, hsender, hcontent⟩, e, he, -, hprofile⟩ := h
  exact ⟨⟨c, hc, hsender, hcontent⟩, e, he, hprofile⟩

theorem Decodes.openingPolicy (h : Decodes state creator create profile) :
    openingPolicy state = .ok (applyProfile { roomType := roomTypeOf (stringValue (create "type")) } profile) := by
  obtain ⟨⟨c, hc, -, hcreate⟩, e, he, hprofile⟩ := h
  simp [Policy.openingPolicy, hc, he, eventContent, hcreate, hprofile]
  rfl

def joinEvent (user : String) : StateEvent :=
  ⟨memberType, user, user, some fun key => if key = "membership" then some (.string "join") else none⟩

def Opening.joined (o : Opening) (user : String) : RoomState := o.room (joinEvent user) (.inl rfl)

@[simp] theorem opening_joined : opening (o.joined user) = o := opening_room

theorem resolveRoom_eq (hq : q.current = .ok (some state)) (h : openingPolicy state = .ok p) (htype : p.roomType ≠ none) :
    resolveRoom q senderMXID = resolveSender q state p senderMXID := by
  have hsome := Option.isSome_iff_ne_none.mpr htype
  simp [resolveRoom, hq, h, hsome, bind, Except.bind]

theorem resolveRoom_none (hq : q.current = .ok (some state)) (h : openingPolicy state = .ok p) (htype : p.roomType = none) :
    resolveRoom q senderMXID = .ok p := by
  have hnone : ¬p.roomType.isSome = true := by simp [htype]
  rw [resolveRoom, hq]
  exact bind_eq_ok.mpr ⟨p, h, if_neg hnone⟩

def RoomPolicy.seenBy (p : RoomPolicy) (creator user status membership : String) (joined : Bool) : RoomPolicy :=
  { p with
    senderRole := if trimSpace creator = user then .owner else p.senderRole
    senderMuted := false
    joinRequestStatus := status
    senderMembership := membership
    senderJoined := joined
    directPeerJoined := if p.roomType = some .direct then false else p.directPeerJoined }

abbrev RoomPolicy.joinedBy (p : RoomPolicy) (creator user : String) : RoomPolicy := p.seenBy creator user "" "join" true

@[simp] theorem RoomPolicy.seenBy_roomType (p : RoomPolicy) (creator user status membership : String) (joined : Bool) :
    (p.seenBy creator user status membership joined).roomType = p.roomType := rfl

def decodedPolicy (create profile : Object) : RoomPolicy :=
  applyProfile { roomType := roomTypeOf (stringValue (create "type")) } profile

/-- The room as somebody sees it whom one event is about. -/
theorem resolveRoom_room (ho : o = ⟨some (creator, some create), some (sender, some profile)⟩)
    (htype : (decodedPolicy create profile).roomType ≠ none) (hpolicy : e.type ≠ memberPolicyType)
    (hmember : senderMembership (.answering (o.room e he) former) user ((o.room e he).find (memberType, user)) =
      .ok (membership, joined))
    (hrequest : eventContent (userEvent (o.room e he) joinRequestType user) = .ok request)
    (hown : e.type = memberType → e.stateKey = user) : resolveRoom (.answering (o.room e he) former) user =
      .ok ((decodedPolicy create profile).seenBy creator user (toLower (stringValue (request "status"))) membership joined) := by
  have hdecodes : Decodes (o.room e he) creator create profile := decodes_of_opening (opening_room.trans ho)
  obtain ⟨c, hc, rfl, -⟩ := hdecodes.create
  have hmembers : (o.room e he).rows.filter (·.type = memberType) = [e].filter (·.type = memberType) := by
    obtain ⟨create, profile⟩ := o
    cases create <;> cases profile <;> simp [Opening.room, Opening.events, memberType]
  have hpeer : peerJoined (.answering (o.room e he) former) (o.room e he) (decodedPolicy create profile) user =
      .ok (if (decodedPolicy create profile).roomType = some .direct then false
        else (decodedPolicy create profile).directPeerJoined) := by
    have hnobody : directPeerJoined (.answering (o.room e he) former) (o.room e he) user = .ok false := by
      rw [directPeerJoined, hmembers]
      by_cases hmember : e.type = memberType
      · simp [hmember, Querier.answering, someoneElseJoined, hown hmember]
      · simp [hmember, Querier.answering, someoneElseJoined]
    rw [peerJoined, hnobody]
    split <;> rfl
  rw [resolveRoom_eq rfl hdecodes.openingPolicy htype, ← decodedPolicy, resolveSender, hc, userEvent_other hpolicy (by decide),
    hrequest, hmember]
  refine bind_eq_ok.mpr
    ⟨_, rfl, bind_eq_ok.mpr ⟨_, rfl, bind_eq_ok.mpr ⟨_, rfl, bind_eq_ok.mpr ⟨_, rfl, bind_eq_ok.mpr ⟨_, hpeer, ?_⟩⟩⟩⟩⟩
  rw [boolValue_none]
  rfl

theorem resolveRoom_joined
    (ho : o = ⟨some (creator, some create), some (sender, some profile)⟩)
    (htype : (decodedPolicy create profile).roomType ≠ none) :
    resolveRoom (.answering (o.joined user) former) user = .ok ((decodedPolicy create profile).joinedBy creator user) := by
  have hmember : senderMembership (.answering (o.joined user) former) user ((o.joined user).find (memberType, user)) =
      .ok ("join", true) := by
    have hblank : trimSpace "join" = "join" := by decide
    have hfind : (o.joined user).find (memberType, user) = some (joinEvent user) :=
      (room_find (by decide) (by decide)).trans (if_pos rfl)
    simp [hfind, senderMembership, eventContent, joinEvent, bind, Except.bind, hblank]
    rfl
  have hrequest : eventContent (userEvent (o.joined user) joinRequestType user) = .ok fun _ => none := by
    rw [Opening.joined, userEvent_other (by simp [joinEvent, memberType, joinRequestType]) (by decide)]
    rfl
  refine (resolveRoom_room ho htype (by simp [joinEvent, memberType, memberPolicyType]) hmember hrequest fun _ => rfl).trans ?_
  rw [stringValue_none]
  rfl

theorem opening_of_kinds (hcreated : o.created = some kind) (hprofiled : o.profiled = some kind') :
    ∃ creator create sender profile, o = ⟨some (creator, some create), some (sender, some profile)⟩ := by
  obtain ⟨_ | ⟨creator, _ | create⟩, _ | ⟨sender, _ | profile⟩⟩ := o
  all_goals first | exact ⟨creator, create, sender, profile, rfl⟩ | cases hcreated | cases hprofiled

/-- The kind that is enforced is the one the room was created with, exactly if no profile names another. -/
theorem enforced_kind_iff (o : Opening) :
    (∀ q state senderMXID p, q.current = .ok (some state) → opening state = o → resolveRoom q senderMXID = .ok p →
      productRoomType q = .ok p.roomType ∧ ∀ kind, o.created = some kind → p.roomType = some kind) ↔
    ∀ kind kind', o.created = some kind → o.profiled = some kind' → kind' = kind := by
  constructor
  · intro h kind kind' hcreated hprofiled
    obtain ⟨creator, create, sender, profile, ho⟩ := opening_of_kinds hcreated hprofiled
    have htype : (decodedPolicy create profile).roomType = some kind' := by
      simp only [ho, Opening.profiled, Option.bind_some] at hprofiled
      rw [decodedPolicy, applyProfile_roomType, hprofiled, Option.some_or]
    -- the room as somebody joined sees it
    have hresolve : resolveRoom (.answering (o.joined "@a:home") false) "@a:home" = _ := resolveRoom_joined ho (by simp [htype])
    have henforced := (h _ _ _ _ rfl opening_joined hresolve).2 kind hcreated
    rw [RoomPolicy.seenBy_roomType, htype] at henforced
    exact Option.some.inj henforced
  · intro h q state senderMXID p hq ho hresolve
    obtain ⟨htype, hproduct⟩ := resolveRoom_roomType hq hresolve
    rw [ho] at htype hproduct
    rw [hproduct, htype]
    cases hprofiled : o.profiled with
    | none => simp
    | some kind' =>
      cases hcreated : o.created with
      | none => simp
      | some kind => simp [h kind kind' hcreated hprofiled]

def retypedGroup : Opening where
  create := some ("@owner:home", some fun key => if key = "type" then some (.string RoomType.group.text) else none)
  profile := some ("@owner:home", some fun key => if key = "room_type" then some (.string RoomType.channel.text) else none)

theorem profile_changes_enforced_kind :
    let q := .answering (retypedGroup.joined "@a:home") false
    productRoomType q = .ok (some .group) ∧ ∃ p, resolveRoom q "@a:home" = .ok p ∧ p.roomType = some .channel := by
  have hgroup : retypedGroup.created = some .group := by decide +kernel
  have hchannel : retypedGroup.profiled = some .channel := by decide +kernel
  have htype : ∃ p, resolveRoom (.answering (retypedGroup.joined "@a:home") false) "@a:home" = .ok p := by
    refine ⟨_, resolveRoom_joined rfl ?_⟩
    rw [decodedPolicy, applyProfile_roomType]
    decide +kernel
  obtain ⟨p, hresolve⟩ := htype
  obtain ⟨htype, hproduct⟩ := resolveRoom_roomType rfl hresolve
  rw [opening_joined, hgroup, hchannel] at htype hproduct
  exact ⟨hproduct, p, hresolve, htype⟩

end Dirextalk.Policy

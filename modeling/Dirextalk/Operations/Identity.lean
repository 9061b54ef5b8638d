/-
  Dirextalk.Operations.Identity — the durable identity of a recoverable action:
  `operationRecordFor` of `p2p/service_operation_recovery.go` with what it reads.

  The operation id and the request id of a request are derived from its parameters, the
  channel, contact and member rows they lead to, and digests of these. For the two public
  actions the generation of the member row takes the place of every id the caller sends.
-/
import Dirextalk.Lib.Prog
import Dirextalk.Lib.Encoding
import Dirextalk.Lib.Clock
import Dirextalk.Action.Params
import Dirextalk.Members.Record
import Dirextalk.Operations.Store

namespace Dirextalk.Operations

open Lib Lib.Go Dirextalk.Action Members

/-! ## What is read -/

abbrev ReadSig : Sig := ⟨ReadCall, ReadCall.Ans⟩

abbrev Reads := ExceptT ApiError (Prog ReadSig)

/-- An error of the store is an internal error of the action. -/
def orInternal {α : Type} : Except String α → Except ApiError α
  | .ok a => .ok a
  | .error e => .error (internalError e)

namespace Reads

def now : Reads Int := ExceptT.lift (Prog.ask (σ := ReadSig) .now)

def channelByIDOrRoom (channelID roomID : String) : Reads (Option Channel) :=
  ExceptT.mk (orInternal <$> Prog.ask (σ := ReadSig) (.channelByIDOrRoom (trimSpace channelID) (trimSpace roomID)))

def lookupMember (roomID userID : String) : Reads (Option MemberRecord) :=
  if roomID = "" ∨ userID = "" then pure none
  else ExceptT.mk (orInternal <$> Prog.ask (σ := ReadSig) (.lookupMember roomID userID))

def contactByRoom (roomID : String) : Reads (Option Contact) :=
  ExceptT.mk (orInternal <$> Prog.ask (σ := ReadSig) (.contactByRoom roomID))

def contactByPeer (peerMXID : String) : Reads (Option Contact) :=
  ExceptT.mk (orInternal <$> Prog.ask (σ := ReadSig) (.contactByPeer peerMXID))

end Reads

/-! ## Actions and ids -/

section

variable (action : String)

def retainedRoomInviteAction : Bool := action ∈ ["groups.invite", "channels.invite"]

section

variable (params : Params)

def explicitRetainedRoomRebuildAction : Bool :=
  retainedRoomInviteAction action && params.string "rebuild_generation" != ""

def contactDeleted (status : String) : Bool := equalFold (trimSpace status) "deleted"

def isAlnum (c : Char) : Bool := ('A' ≤ c && c ≤ 'Z') || ('a' ≤ c && c ≤ 'z') || ('0' ≤ c && c ≤ '9')

/-- `^[A-Za-z0-9][A-Za-z0-9._:-]{0,127}$`. -/
def operationIDPattern (id : String) : Bool :=
  match id.toList with
  | c :: rest => isAlnum c && rest.all (fun d => isAlnum d || d ∈ ['.', '_', ':', '-']) && decide (rest.length ≤ 127)
  | [] => false

/-- `hex.EncodeToString(digest[:16])` of the parts, joined by NUL. -/
def shortDigest (parts : List String) : String :=
  hexEncode ((sum256 (bytesOf (join "\x00" parts))).take 16)

def publicJoinRequestGeneration (roomID channelID userID currentRequestID : String) : String :=
  "request_" ++ shortDigest ["channels.public.join_request", roomID, channelID, userID, currentRequestID, "next"]

def firstNonEmptyOperationPart (keys : List String) : String := params.firstString keys

/-- `time.UnixMilli(value).UTC().Format(time.RFC3339Nano)`. -/
def formatOperationGeneration (value : Int) : String :=
  formatRFC3339Nano ⟨value / 1000, (value % 1000).toNat * 1000000⟩

def roomOfChannel (channelID : String) : Reads String := do
  let channel ← Reads.channelByIDOrRoom channelID ""
  return (channel.map (·.roomID)).getD ""

def channelOfRoom (roomID : String) : Reads String := do
  let channel ← Reads.channelByIDOrRoom "" roomID
  return (channel.map (·.channelID)).getD ""

def memberTarget : Reads (String × String) := do
  let roomID := params.string "room_id"
  let channelID := params.string "channel_id"
  let roomID ← if roomID = "" ∧ channelID ≠ "" then roomOfChannel channelID else pure roomID
  let channelID ← if channelID = "" ∧ roomID ≠ "" then channelOfRoom roomID else pure channelID
  return (roomID, channelID)

/-! ## The record of a request -/

structure Identity where
  roomID : String
  /-- the channel, when no room is known -/
  operationChannelID : String
  userID : String
  peerMXID : String
  requestID : String
  baseRequestID : String
  memberGeneration : Int

def providedOperationID : Except ApiError (Option String) :=
  let invalid : ApiError := codedError 400 "operation_id_invalid" "operation_id is invalid"
  match params "operation_id" with
  | none => .ok none
  | some (.string s) => if operationIDPattern (trimSpace s) then .ok (some (trimSpace s)) else .error invalid
  | some _ => .error invalid

def peerOf : String := fallbackString (params.string "peer_mxid") (params.string "mxid")

/-- The request id as far as the parameters give one. -/
def callerRequestID (provided : Option String) : String :=
  match provided with
  | some operationID =>
    if action = "contacts.request" ∧ params.string "request_id" = "" then "request_" ++ shortDigest [action, operationID]
    else callerPart
  | none => callerPart
where
  callerPart : String :=
    if explicitRetainedRoomRebuildAction action params then params.string "rebuild_generation"
    else firstNonEmptyOperationPart params ["request_id", "invite_event_id", "grant_id", "direct_room_id"]

variable (i : Identity)

def contactOf : Reads (Option Contact) := do
  let byRoom ← if i.roomID ≠ "" then Reads.contactByRoom i.roomID else pure none
  if byRoom.isNone ∧ i.peerMXID ≠ "" then Reads.contactByPeer i.peerMXID else pure byRoom

/-- The part of a contact action: its contact fills in what the caller left out. -/
def contactIdentity (provided : Option String) (i : Identity) : Reads Identity := do
  if hasPrefix action "contacts." then
    match ← contactOf i with
    | none => return i
    | some contact =>
      let requestID :=
        if action = "contacts.request" ∧ params.string "request_id" = "" ∧ provided = none ∧ contactDeleted contact.status then
          "request_" ++ shortDigest [action, contact.peerMXID, contact.requestID, "deleted-next"]
        else fallbackString i.requestID contact.requestID
      return { i with
        requestID := requestID
        baseRequestID := contact.requestID
        peerMXID := fallbackString i.peerMXID contact.peerMXID
        roomID := fallbackString i.roomID contact.roomID }
  else return i

/-- The request id of an operation on an existing member row. -/
def memberRequestID (member : MemberRecord) : String :=
  if action = "channels.public.join_request" then
    -- an active generation is canonical; the ids of the caller select nothing
    if member.requestID ≠ "" ∧ !channelJoinGenerationMayRestart member.membership then member.requestID
    else publicJoinRequestGeneration i.roomID i.operationChannelID i.userID member.requestID
  else if action = "channels.public.join_result" then
    fallbackString member.requestID (publicJoinRequestGeneration i.roomID i.operationChannelID i.userID "")
  else if action ∈ ["groups.join", "groups.invite.reject"] ∧ member.requestID ≠ "" then member.requestID
  else if i.requestID = "" then member.requestID
  else i.requestID

def Identity.withMember : Option MemberRecord → Identity
  | none => i
  | some member =>
    { i with requestID := memberRequestID action i member
             baseRequestID := member.requestID
             memberGeneration := member.joinedAt }

def publicAction : Bool := action ∈ ["channels.public.join_request", "channels.public.join_result"]

/-- The request id when everything is known that can be. -/
def finalRequestID : String :=
  let requestID :=
    if action = "channels.public.join_request" ∧ i.baseRequestID = "" then
      publicJoinRequestGeneration i.roomID i.operationChannelID i.userID ""
    else i.requestID
  let requestID := if requestID = "" ∧ 0 < i.memberGeneration then formatOperationGeneration i.memberGeneration else requestID
  if requestID = "" then "req_" ++ shortDigest [i.roomID, i.operationChannelID, i.userID, i.peerMXID] else requestID

def derivedOperationID (requestID : String) : String :=
  "op_" ++ shortDigest [action, i.roomID, i.operationChannelID, i.userID, i.peerMXID, requestID]

def recordOf (provided : Option String) (now : Int) (i : Identity) : Record :=
  let requestID := finalRequestID action i
  let provided := if publicAction action || explicitRetainedRoomRebuildAction action params then none else provided
  { operationID := provided.getD (derivedOperationID action i requestID)
    action := action
    status := "running"
    phase := "prepared"
    roomID := i.roomID
    currentRoomID := ""
    userID := i.userID
    peerMXID := i.peerMXID
    requestID := requestID
    baseRequestID := i.baseRequestID
    resultJSON := ""
    errorCode := ""
    revision := 0
    leaseOwner := ""
    leaseUntil := 0
    createdAt := now
    updatedAt := now }

end

end

def userOf (ownerMXID action : String) (params : Params) : String :=
  let userID := firstMemberID params
  if userID = "" ∧ (hasPrefix action "channels." ∨ action ∈ ["groups.join", "groups.invite.reject"]) then ownerMXID else userID

def paramsIdentity (ownerMXID action : String) (params : Params) (provided : Option String) (target : String × String) :
    Identity :=
  let roomID := if target.1 = "" then params.string "room_id" else target.1
  let channelID := if target.2 = "" then params.string "channel_id" else target.2
  { roomID := roomID
    -- a room identifies the workflow; its channel may become known only later
    operationChannelID := if roomID ≠ "" then "" else channelID
    userID := userOf ownerMXID action params
    peerMXID := peerOf params
    requestID := callerRequestID action params provided
    baseRequestID := ""
    memberGeneration := 0 }

def operationRecordFor (ownerMXID action : String) (params : Params) : Reads Record := do
  let now ← Reads.now
  let provided ← ExceptT.mk (pure (providedOperationID params))
  let target ← memberTarget params
  let i ← contactIdentity action params provided (paramsIdentity ownerMXID action params provided target)
  -- the room of a fresh contact request is its result, not its identity
  let i := if action = "contacts.request" then { i with roomID := "" } else i
  let member ← Reads.lookupMember i.roomID i.userID
  return recordOf action params provided now (i.withMember action member)

/-! ## Public actions -/

structure ReadState where
  channelByIDOrRoom : String → String → Except String (Option Channel)
  lookupMember : String → String → Except String (Option MemberRecord)
  contactByRoom : String → Except String (Option Contact)
  contactByPeer : String → Except String (Option Contact)

def ReadState.answer (s : ReadState) (now : Int) : (c : ReadCall) → c.Ans
  | .now => now
  | .channelByIDOrRoom channelID roomID => s.channelByIDOrRoom channelID roomID
  | .lookupMember roomID userID => s.lookupMember roomID userID
  | .contactByRoom roomID => s.contactByRoom roomID
  | .contactByPeer peerMXID => s.contactByPeer peerMXID

def operationRecordAt (s : ReadState) (now : Int) (ownerMXID action : String) (params : Params) : Except ApiError Record :=
  (operationRecordFor ownerMXID action params).run.value (s.answer now)

section Public

variable {s : ReadState} {now : Int} {ownerMXID action : String} {params : Params} {r : Record}

theorem value_lookupMember (roomID userID : String) : (Reads.lookupMember roomID userID).run.value (s.answer now) =
      if roomID = "" ∨ userID = "" then .ok none else orInternal (s.lookupMember roomID userID) := by
  unfold Reads.lookupMember
  split <;> rfl

section

variable (h : publicAction action = true)
include h

/-- A public action has nothing to do with contacts, and takes over no operation id. -/
theorem publicAction_cases : action = "channels.public.join_request" ∨ action = "channels.public.join_result" := by
  simpa [publicAction] using h

theorem contactIdentity_public (provided : Option String) (i : Identity) :
    contactIdentity action params provided i = pure i := by
  rcases publicAction_cases h with rfl | rfl <;> rfl

theorem operationRecordAt_public : operationRecordAt s now ownerMXID action params = .ok r ↔
      ∃ provided target member, providedOperationID params = .ok provided ∧
        (memberTarget params).run.value (s.answer now) = .ok target ∧
        (Reads.lookupMember (paramsIdentity ownerMXID action params provided target).roomID
          (userOf ownerMXID action params)).run.value (s.answer now) = .ok member ∧
        r = recordOf action params provided now
          ((paramsIdentity ownerMXID action params provided target).withMember action member) := by
  have hrequest : action ≠ "contacts.request" := by
    rcases publicAction_cases h with rfl | rfl <;> decide
  simp only [operationRecordAt, operationRecordFor, Prog.value_bind_eq_ok, contactIdentity_public h, if_neg hrequest]
  constructor
  · rintro ⟨now', hnow, provided, hprovided, target, htarget, i, hi, member, hmember, hr⟩
    cases hnow
    cases hi
    cases hr
    exact ⟨provided, target, member, hprovided, htarget, hmember, rfl⟩
  · rintro ⟨provided, target, member, hprovided, htarget, hmember, rfl⟩
    exact ⟨now, rfl, provided, hprovided, target, htarget, _, rfl, member, hmember, rfl⟩

end

theorem publicJoinRequestGeneration_ne_empty (roomID channelID userID current : String) :
    publicJoinRequestGeneration roomID channelID userID current ≠ "" := by
  simp [publicJoinRequestGeneration]

theorem fallbackString_ne_empty {value fallback : String} (h : fallback ≠ "") : fallbackString value fallback ≠ "" := by
  unfold fallbackString
  split <;> assumption

theorem finalRequestID_first (h : i.baseRequestID = "") : finalRequestID "channels.public.join_request" i =
      publicJoinRequestGeneration i.roomID i.operationChannelID i.userID "" := by
  have hgen := publicJoinRequestGeneration_ne_empty i.roomID i.operationChannelID i.userID ""
  simp only [finalRequestID, h, and_self, if_true, hgen, false_and, if_false]

theorem finalRequestID_public (h : publicAction action = true) {i j : Identity} {member : Option MemberRecord}
    (hrow : action = "channels.public.join_result" → member.isSome) (hroom : i.roomID = j.roomID)
    (hchannel : i.operationChannelID = j.operationChannelID) (huser : i.userID = j.userID)
    (hi : i.baseRequestID = "") (hj : j.baseRequestID = "") :
    finalRequestID action (i.withMember action member) = finalRequestID action (j.withMember action member) := by
  have hgen := publicJoinRequestGeneration_ne_empty j.roomID j.operationChannelID j.userID
  obtain rfl | rfl := publicAction_cases h
  · cases member with
    | none =>
      simp only [Identity.withMember]
      rw [finalRequestID_first hi, finalRequestID_first hj, hroom, hchannel, huser]
    | some m =>
      by_cases hid : m.requestID = ""
      · simp only [Identity.withMember]
        rw [finalRequestID_first hid, finalRequestID_first hid, hroom, hchannel, huser]
      · by_cases hrestart : channelJoinGenerationMayRestart m.membership = true
        · simp [finalRequestID, Identity.withMember, memberRequestID, hid, hrestart, hroom, hchannel, huser, hgen]
        · simp [finalRequestID, Identity.withMember, memberRequestID, hid, hrestart]
  · obtain ⟨m, rfl⟩ := Option.isSome_iff_exists.mp (hrow rfl)
    have hne := @fallbackString_ne_empty m.requestID _ (hgen "")
    simp [finalRequestID, Identity.withMember, memberRequestID, hroom, hchannel, huser, hne]

section

variable (i : Identity) (member : Option MemberRecord)

@[simp] theorem withMember_roomID : (i.withMember action member).roomID = i.roomID := by cases member <;> rfl

@[simp] theorem withMember_operationChannelID :
    (i.withMember action member).operationChannelID = i.operationChannelID := by cases member <;> rfl

@[simp] theorem withMember_userID : (i.withMember action member).userID = i.userID := by cases member <;> rfl

@[simp] theorem withMember_peerMXID : (i.withMember action member).peerMXID = i.peerMXID := by cases member <;> rfl

end

/-- The parts of the operation id of a public action with a resolved room. -/
def operationParts (r : Record) (peer : String) : List String := [r.action, r.roomID, "", r.userID, peer, r.requestID]

theorem public_record (h : publicAction action = true) (hr : operationRecordAt s now ownerMXID action params = .ok r)
    (hroom : r.roomID ≠ "") :
      ∃ (i : Identity) (member : Option MemberRecord), i.roomID = r.roomID ∧ i.operationChannelID = "" ∧ i.userID = r.userID ∧
      i.baseRequestID = "" ∧ r.action = action ∧
      (if r.userID = "" then .ok none else orInternal (s.lookupMember r.roomID r.userID)) = .ok member ∧
      r.requestID = finalRequestID action (i.withMember action member) ∧
      r.operationID = "op_" ++ shortDigest (operationParts r (peerOf params)) := by
  obtain ⟨provided, target, member, _, _, hmember, rfl⟩ := (operationRecordAt_public h).mp hr
  have hroom' : (paramsIdentity ownerMXID action params provided target).roomID ≠ "" := by simpa [recordOf] using hroom
  have hchannel : (paramsIdentity ownerMXID action params provided target).operationChannelID = "" := by
    simp only [paramsIdentity] at hroom' ⊢
    rw [if_pos hroom']
  have hpeer : (paramsIdentity ownerMXID action params provided target).peerMXID = peerOf params := by
    simp only [paramsIdentity]
  rw [value_lookupMember] at hmember
  simp only [hroom', false_or] at hmember
  refine ⟨paramsIdentity ownerMXID action params provided target, member, ?_, hchannel, ?_, rfl, rfl, ?_, rfl, ?_⟩
  · simp [recordOf]
  · simp [recordOf]
  · simpa [recordOf, paramsIdentity] using hmember
  · simp only [operationParts, recordOf, h, Bool.true_or, if_true, Option.getD_none, derivedOperationID, withMember_roomID,
      withMember_operationChannelID, withMember_userID, withMember_peerMXID, hchannel, hpeer]

/-- Two texts with one short digest. -/
def Collides (a b : List String) : Prop := join "\x00" a ≠ join "\x00" b ∧ shortDigest a = shortDigest b

theorem operationParts_injective (r : Record)
    (h : join "\x00" (operationParts r peer) = join "\x00" (operationParts r peer')) : peer = peer' := by
  have hlist := congrArg String.toList h
  simp only [join, operationParts, List.intercalate, List.map_cons, List.map_nil, List.intersperse, List.flatten_cons,
    String.toList_ofList, List.append_cancel_left_eq, List.append_cancel_right_eq] at hlist
  exact String.toList_inj.mp hlist

/-- For a public action in a room, with its user and member row given, the request id does not depend on the
parameters; the operation id is the same exactly if the peers are, or the digests of the identities coincide. -/
theorem public_identity_iff (s : ReadState) (ownerMXID : String) {action : String} (h : publicAction action = true)
    {params₁ params₂ : Params} {now₁ now₂ : Int} {r₁ r₂ : Record}
    (h₁ : operationRecordAt s now₁ ownerMXID action params₁ = .ok r₁)
    (h₂ : operationRecordAt s now₂ ownerMXID action params₂ = .ok r₂) (hresolved : r₁.roomID ≠ "")
    (hroom : r₁.roomID = r₂.roomID) (huser : r₁.userID = r₂.userID)
    (hrow : action = "channels.public.join_result" →
      r₁.userID ≠ "" ∧ ∃ m, s.lookupMember r₁.roomID r₁.userID = .ok (some m)) :
    (r₁.operationID = r₂.operationID ∧ r₁.requestID = r₂.requestID ↔ peerOf params₁ = peerOf params₂ ∨
        Collides (operationParts r₁ (peerOf params₁)) (operationParts r₁ (peerOf params₂))) ∧
    r₁.requestID = r₂.requestID := by
  obtain ⟨i, member, hi, hic, hiu, hib, ha, hm, hq, ho⟩ := public_record h h₁ hresolved
  obtain ⟨j, member', hj, hjc, hju, hjb, ha', hm', hq', ho'⟩ := public_record h h₂ (hroom ▸ hresolved)
  -- both read the same member row
  have hsame : member = member' := by
    rw [hroom, huser, hm'] at hm
    exact (Except.ok.inj hm).symm
  subst hsame
  have hrequest : r₁.requestID = r₂.requestID := by
    rw [hq, hq']
    refine finalRequestID_public h ?_ (by rw [hi, hj, hroom]) (by rw [hic, hjc]) (by rw [hiu, hju, huser]) hib hjb
    intro hresult
    obtain ⟨huser', m, hlookup⟩ := hrow hresult
    rw [if_neg huser', hlookup] at hm
    rw [← Except.ok.inj hm]
    rfl
  have hparts : operationParts r₂ (peerOf params₂) = operationParts r₁ (peerOf params₂) := by
    simp [operationParts, ha, ha', hroom, huser, hrequest]
  refine ⟨?_, hrequest⟩
  rw [ho, ho', hparts]
  constructor
  · rintro ⟨hop, _⟩
    by_cases hpeer : peerOf params₁ = peerOf params₂
    · exact .inl hpeer
    · exact .inr ⟨fun heq => hpeer (operationParts_injective r₁ heq), by simpa using hop⟩
  · rintro (hpeer | hcollides)
    · exact ⟨by rw [hpeer], hrequest⟩
    · exact ⟨by rw [hcollides.2], hrequest⟩

end Public

def emptyState : ReadState := ⟨fun _ _ => .ok none, fun _ _ => .ok none, fun _ => .ok none, fun _ => .ok none⟩

def joinRequest (peer requestID : String) : Params
  | "room_id" => some (.string "!r:local")
  | "user_id" => some (.string "@u:remote")
  | "peer_mxid" => some (.string peer)
  | "request_id" => some (.string requestID)
  | _ => none

def sampleJoinRequest (peer requestID : String) : Except ApiError Record :=
  operationRecordAt emptyState 0 "@owner:local" "channels.public.join_request" (joinRequest peer requestID)

/-- A result that is found by evaluation. -/
theorem exists_of_toOption {ε α : Type} {x : Except ε α} {P : α → Prop} [DecidablePred P]
    (h : x.toOption.any (fun a => decide (P a)) = true) : ∃ a, x = .ok a ∧ P a := by
  cases x with
  | error e => cases h
  | ok a => exact ⟨a, rfl, of_decide_eq_true h⟩

/-- One user and one room, but another operation for each `peer_mxid` the caller sends. -/
theorem peer_selects_operation :
    ∃ r₁ r₂, sampleJoinRequest "@a:remote" "" = .ok r₁ ∧ sampleJoinRequest "@b:remote" "" = .ok r₂ ∧
      (r₁.roomID = "!r:local" ∧ r₁.userID = "@u:remote" ∧ r₁.operationID = "op_b62707767a730c119b7335c1c65bed45") ∧
      (r₂.roomID = "!r:local" ∧ r₂.userID = "@u:remote" ∧ r₂.operationID = "op_77b50ceabb2703f4d8dd7e3b0c930b94") := by
  obtain ⟨r₁, h₁, hr₁⟩ : ∃ r, sampleJoinRequest "@a:remote" "" = .ok r ∧ r.roomID = "!r:local" ∧ r.userID = "@u:remote" ∧
      r.operationID = "op_b62707767a730c119b7335c1c65bed45" := exists_of_toOption (by decide +kernel)
  obtain ⟨r₂, h₂, hr₂⟩ : ∃ r, sampleJoinRequest "@b:remote" "" = .ok r ∧ r.roomID = "!r:local" ∧ r.userID = "@u:remote" ∧
      r.operationID = "op_77b50ceabb2703f4d8dd7e3b0c930b94" := exists_of_toOption (by decide +kernel)
  exact ⟨r₁, r₂, h₁, h₂, hr₁, hr₂⟩

/-- With one peer, two requests with different request ids are one operation. -/
theorem public_identity_same_peer :
    ∃ r₁ r₂, sampleJoinRequest "@a:remote" "mine" = .ok r₁ ∧ sampleJoinRequest "@a:remote" "other" = .ok r₂ ∧
      r₁.roomID = "!r:local" ∧ r₁.operationID = r₂.operationID ∧ r₁.requestID = r₂.requestID := by
  obtain ⟨r₁, h₁, hroom₁, huser₁⟩ : ∃ r, sampleJoinRequest "@a:remote" "mine" = .ok r ∧ r.roomID = "!r:local" ∧
      r.userID = "@u:remote" := exists_of_toOption (by decide +kernel)
  obtain ⟨r₂, h₂, hroom₂, huser₂⟩ : ∃ r, sampleJoinRequest "@a:remote" "other" = .ok r ∧ r.roomID = "!r:local" ∧
      r.userID = "@u:remote" := exists_of_toOption (by decide +kernel)
  have hsame := (public_identity_iff emptyState "@owner:local" rfl h₁ h₂ (by rw [hroom₁]; decide) (hroom₁.trans hroom₂.symm)
    (huser₁.trans huser₂.symm) (fun hresult => absurd hresult (by decide))).1.mpr (.inl (by decide +kernel))
  exact ⟨r₁, r₂, h₁, h₂, hroom₁, hsame.1, hsame.2⟩

end Dirextalk.Operations

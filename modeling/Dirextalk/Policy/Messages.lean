/-
  Dirextalk.Policy.Messages — `ValidateClientEvent` (`internal/productpolicy/productpolicy.go`)
  against what the projector stores for the same event (`Content.projectRoomEvent`).

  In a channel only its creator posts, and a comment needs the channel and the settings of
  its post to allow it. The policy prints an id that is no text, the projector reads it as
  none: a comment on the post `5` passes the check for the post `"5"` and is stored without
  a post (`unchecked_comment`). The two agree on every content whose post id is a text
  (`accepted_allowed_iff`).
-/
import Dirextalk.Content.Effects
import Dirextalk.Policy.Membership

namespace Dirextalk.Policy

open Lib Lib.Go Dirextalk.Content
open Dirextalk.Action (Value Params)

/-! ## The check -/

structure ClientEventRequest where
  senderMXID : String
  eventType : String
  content : Object
  /-- the contact's block of the sender in this room, where there is a checker -/
  blockChecker : Option (Except Refusal Bool)
  /-- `validateGroupAgentMessage` -/
  groupAgentMessage : Except Refusal Unit

def isProductPolicyEvent (eventType : String) : Bool := eventType ∈ ["m.room.message", "m.reaction"]

def channelEventKind (content : Object) : String := stringValue (content "p2p_kind")

def isChannelPostEvent (content : Object) : Bool := equalFold (channelEventKind content) "channel_post"

def isChannelCommentEvent (eventType : String) (content : Object) : Bool :=
  eventType = "m.reaction" || equalFold (channelEventKind content) "channel_comment"

def postSettingsType : String := "io.dirextalk.channel.post.settings"

/-- What the settings event of a post says about comments. -/
def settingsAllow (postID : String) (event : Option StateEvent) : Except Refusal Bool :=
  match event with
  | none => .ok true
  | some e => do
    let content ← eventContent (some e)
    let statePostID := trimSpace (stringValue (content "post_id"))
    if statePostID ≠ "" ∧ statePostID ≠ postID then return false
    else
      match content "comments_enabled" with
      | some (.bool enabled) => return enabled
      | _ => return false

def channelPostCommentsEnabled (q : Querier) (postID : String) : Except Refusal Bool :=
  let postID := trimSpace postID
  if postID = "" then .ok false
  else
    match q.current with
    | .ok (some state) =>
      if q.answers .postSettings then settingsAllow postID (state.find (postSettingsType, postID)) else .error .failed
    | _ => .error .failed

def validateBlockedDirectMessage (q : Querier) (req : ClientEventRequest) : Except Refusal Bool :=
  match req.blockChecker with
  | none => .ok false
  | some answer => do
    let p ← resolveRoom q req.senderMXID
    if p.roomType = some .direct then answer else .ok false

def validateGroupEvent (p : RoomPolicy) (eventType : String) (req : ClientEventRequest) : Except Refusal Unit :=
  if p.roomType = some .group ∧ eventType = "m.room.message" then req.groupAgentMessage else .ok ()

section

variable (q : Querier) (p : RoomPolicy) (eventType : String) (req : ClientEventRequest)

def validateDirectEvent : Except Refusal Unit :=
  if p.roomType ≠ some .direct then .ok ()
  else if !p.directPeerJoined then .error (.forbidden "direct room peer is not joined to the dirextalk room")
  else if eventType = "m.room.message" ∧ req.blockChecker.isSome then do
    let blocked ← validateBlockedDirectMessage q req
    if blocked then .error (.forbidden "sender is blocked in this dirextalk direct room") else .ok ()
  else .ok ()

def validateChannelEvent : Except Refusal Unit :=
  if p.roomType ≠ some .channel ∨ p.senderPrivileged then .ok ()
  else if isChannelPostEvent req.content then .error (.forbidden "sender cannot create channel posts in this dirextalk room")
  else if isChannelCommentEvent eventType req.content then
    if !p.commentsEnabled then .error (.forbidden "channel comments are disabled")
    else if !equalFold (channelEventKind req.content) "channel_comment" then .ok ()
    else do
      let enabled ← channelPostCommentsEnabled q (stringValue (req.content "post_id"))
      if enabled then .ok () else .error (.forbidden "comments are disabled for this channel post")
  else .ok ()

/-- `ValidateClientEvent` in a product room. -/
def judgeEvent : Except Refusal Unit :=
  if p.dissolved then .error (.forbidden "dirextalk room is dissolved")
  else if !p.senderJoined then .error (.forbidden "sender is not joined to the dirextalk room")
  else if p.senderMuted then .error (.forbidden "sender is muted in the dirextalk room")
  else do
    validateGroupEvent p eventType req
    validateDirectEvent q p eventType req
    validateChannelEvent q p eventType req

end

def validateClientEvent (q : Querier) (req : ClientEventRequest) : Except Refusal Unit :=
  let eventType := trimSpace req.eventType
  if isProductPolicyEvent eventType then do
    let p ← resolveRoom q req.senderMXID
    if p.roomType.isSome then judgeEvent q p eventType req else return ()
  else .ok ()

/-! ## The same content for the projector -/

mutual

/-- A decoded value as the readers of `p2p/internal/action` tell values apart. -/
def valueOf : Json → Value
  | .null => .other
  | .bool b => .bool b
  | .number x => .number (if x.isZero then 0 else 1)
  | .string s => .string s
  | .array items => .list (valuesOf items)
  | .object fields => .object (fieldsOf fields)

def valuesOf : List Json → List Value
  | [] => []
  | v :: rest => valueOf v :: valuesOf rest

def fieldsOf : List (String × Json) → List (String × Value)
  | [] => []
  | (key, v) :: rest => (key, valueOf v) :: fieldsOf rest

end

def paramsOf (content : Object) : Params := fun key => (content key).map valueOf

inductive MessageType where
  | message
  | reaction

def MessageType.text : MessageType → String
  | .message => "m.room.message"
  | .reaction => "m.reaction"

def MessageType.projected : MessageType → EventType
  | .message => .roomMessage
  | .reaction => .reaction

def eventOf (type : MessageType) (content : Object) (roomID sender eventID : String) (originServerTS : Int) : Event where
  type := type.projected
  roomID
  eventID
  stateKey := none
  sender
  originServerTS
  content := paramsOf content

/-! ## What may be stored -/

section

variable (state : RoomState)

def enforcedKind : Option RoomType := (opening state).profiled.or (opening state).created

def Dissolved : Prop := boolValue (profileContent state "dissolved") = true

def Muted (user : String) : Prop :=
  boolValue (contentOf (userEvent state memberPolicyType user) "muted") = true

/-- The profile of the channel, if it has one, allows comments. -/
def CommentsOpen : Prop :=
  (state.find profileKey).isSome = true → boolValue (profileContent state "comments_enabled") = true

/-- The settings of the post, if it has any, are its own and allow comments. -/
def PostOpen (postID : String) : Prop :=
  postID ≠ "" ∧ ∀ e, state.find (postSettingsType, postID) = some e → ∃ content, e.content = some content ∧
    content "comments_enabled" = some (.bool true) ∧ trimSpace (stringValue (content "post_id")) ∈ ["", postID]

end

structure Allowed {b : Backend} (state : RoomState) (t t' : Tables b) : Prop where
  posts : t'.posts = t.posts
  comments : ∀ cm ∈ t'.comments.rows, cm ∉ t.comments.rows → CommentsOpen state ∧ PostOpen state cm.postID

structure Agrees (q : Querier) (state : RoomState) (req : ClientEventRequest) (type : MessageType) : Prop where
  /-- in a channel, for everybody but its creator; who is accepted is joined and not muted -/
  allowed : enforcedKind state = some .channel → ¬Creator q state req.senderMXID → validateClientEvent q req = .ok () →
    ∀ (b : Backend) (t : Tables b) (agentRoomID eventID : String) (now originServerTS : Int),
      Allowed state t
        (projectRoomEvent agentRoomID now (eventOf type req.content q.roomID req.senderMXID eventID originServerTS) t)
  refused : enforcedKind state ≠ none → Dissolved state ∨ ¬Joined q state req.senderMXID ∨ Muted state req.senderMXID →
    validateClientEvent q req ≠ .ok ()

/-- A comment names its post by a text, if at all. -/
def TextPostID (type : MessageType) (content : Object) : Prop :=
  type = .message → (paramsOf content).string "p2p_kind" = "channel_comment" →
    ∀ v, content "post_id" = some v → v = .null ∨ ∃ s, v = .string s

/-! ## Two readers of one value -/

section Readers

variable {content : Object} {key s : String}

theorem string_eq_of_text (h : ∀ v, content key = some v → v = .null ∨ ∃ s, v = .string s) :
    (paramsOf content).string key = stringValue (content key) := by
  cases hv : content key with
  | none => simp [paramsOf, Params.string, hv]
  | some v =>
    obtain rfl | ⟨s, rfl⟩ := h v hv
    · simp [paramsOf, Params.string, hv, valueOf, Value.text, stringValue]
    · simp [paramsOf, Params.string, hv, valueOf, Value.text]

/-- What the projector reads as a word, the policy reads as that word. -/
theorem stringValue_of_string (h : (paramsOf content).string key = s) (hs : s ≠ "") : stringValue (content key) = s := by
  rw [← h]
  refine (string_eq_of_text fun v hv => ?_).symm
  cases v with
  | null => exact .inl rfl
  | string t => exact .inr ⟨t, rfl⟩
  | bool _ | number _ | array _ | object _ =>
    simp [paramsOf, Params.string, hv, valueOf, Value.text] at h
    exact absurd h hs

theorem Json.heads_plain (hc : c ∈ Json.heads) : isSpace c = false ∧ c ≠ 'i' := by
  have hall : Json.heads.all (fun c => !isSpace c && c != 'i') := by decide
  simpa using List.all_eq_true.mp hall c hc

/-- What is no text is nothing to the projector, and something to the policy. -/
theorem readers_differ (hv : content key = some v) (htext : ∀ s, v ≠ .string s) (hnull : v ≠ .null) :
    (paramsOf content).string key = "" ∧ trimSpace (stringValue (content key)) ≠ "" := by
  obtain ⟨c, rest, hchars, hc⟩ := Json.chars_head htext hnull
  have hprint : stringValue (some v) = trimSpace (String.ofList v.chars) := by
    cases v <;> simp_all [stringValue]
  refine ⟨?_, ?_⟩
  · cases v <;> simp_all [paramsOf, Params.string, valueOf, Value.text]
  · rw [hv, hprint, trimSpace_trimSpace, hchars]
    exact trimSpace_ne_empty (Json.heads_plain hc).1

end Readers

/-! ## What an accepted request has passed -/

section Accepted

variable {q : Querier} {state : RoomState} {p p' : RoomPolicy} {req : ClientEventRequest} {eventType postID : String}

theorem commentsOpen_of_enabled (h : openingPolicy state = .ok p) (htype : p.roomType = some .channel)
    (henabled : p.commentsEnabled = true) : CommentsOpen state := by
  intro hsome
  obtain ⟨createContent, -, h⟩ := bind_eq_ok.mp h
  obtain ⟨event, hprofile⟩ := Option.isSome_iff_exists.mp hsome
  rw [hprofile] at h
  obtain ⟨content, hcontent, h⟩ := bind_eq_ok.mp h
  cases h
  have hc : profileContent state = content := contentOf_ok (hprofile ▸ hcontent)
  rw [applyProfile_roomType] at htype
  simp only [applyProfile, htype, Option.isSome_some, if_true, applyRoomPolicyContent, or_true, and_self] at henabled
  rw [hc, henabled]

theorem settingsAllow_ok (h : settingsAllow postID event = .ok true) (he : event = some e) :
    ∃ content, e.content = some content ∧ content "comments_enabled" = some (.bool true) ∧
      trimSpace (stringValue (content "post_id")) ∈ ["", postID] := by
  subst he
  obtain ⟨content, hcontent, h⟩ := bind_eq_ok.mp h
  have hc : e.content = some content := by
    obtain ⟨hnone, -⟩ | ⟨e', he, hc⟩ := eventContent_ok hcontent
    · cases hnone
    · cases he
      exact hc
  refine ⟨content, hc, ?_⟩
  dsimp only at h
  split at h
  · cases h
  rename_i hid
  split at h
  · rename_i enabled henabled
    cases h
    refine ⟨henabled, ?_⟩
    by_cases hempty : trimSpace (stringValue (content "post_id")) = ""
    · simp [hempty]
    · simpa [hempty] using hid
  · cases h

theorem postOpen_of_enabled (hq : q.current = .ok (some state)) (h : channelPostCommentsEnabled q postID = .ok true) :
    PostOpen state (trimSpace postID) := by
  unfold channelPostCommentsEnabled at h
  dsimp only at h
  split at h
  · cases h
  rename_i hid
  rw [hq] at h
  dsimp only at h
  split at h
  · exact ⟨hid, fun e he => settingsAllow_ok h he⟩
  · cases h

/-- In a channel, for a sender who does not own it. -/
theorem validateChannelEvent_ok (htype : p.roomType = some .channel) (hmember : p.senderPrivileged = false)
    (h : validateChannelEvent q p eventType req = .ok ()) :
    isChannelPostEvent req.content = false ∧ (equalFold (channelEventKind req.content) "channel_comment" = true →
        p.commentsEnabled = true ∧ channelPostCommentsEnabled q (stringValue (req.content "post_id")) = .ok true) := by
  unfold validateChannelEvent at h
  rw [if_neg (by simp [htype, hmember])] at h
  split at h
  · cases h
  rename_i hpost
  refine ⟨by simpa using hpost, fun hkind => ?_⟩
  rw [if_pos (by simp [isChannelCommentEvent, hkind])] at h
  split at h
  · cases h
  rename_i henabled
  rw [if_neg (by simp [hkind])] at h
  obtain ⟨enabled, hpostEnabled, h⟩ := bind_eq_ok.mp h
  cases enabled with
  | true => exact ⟨by simpa using henabled, hpostEnabled⟩
  | false => cases h

theorem judgeEvent_ok (h : judgeEvent q p eventType req = .ok ()) :
    p.dissolved = false ∧ p.senderJoined = true ∧ p.senderMuted = false ∧ validateChannelEvent q p eventType req = .ok () := by
  unfold judgeEvent at h
  split at h
  · cases h
  split at h
  · cases h
  split at h
  · cases h
  rename_i hdissolved hjoined hmuted
  obtain ⟨_, -, h⟩ := bind_eq_ok.mp h
  obtain ⟨_, -, h⟩ := bind_eq_ok.mp h
  exact ⟨by simpa using hdissolved, by simpa using hjoined, by simpa using hmuted, h⟩

theorem accepted_message (hq : q.current = .ok (some state)) (hkind : enforcedKind state ≠ none)
    (htype : isProductPolicyEvent (trimSpace req.eventType) = true) (h : validateClientEvent q req = .ok ()) :
    ∃ p p', openingPolicy state = .ok p ∧ Opened state p ∧ Resolved q state p req.senderMXID p' ∧
      p'.roomType = enforcedKind state ∧ judgeEvent q p' (trimSpace req.eventType) req = .ok () := by
  unfold validateClientEvent at h
  rw [if_pos htype] at h
  obtain ⟨p', hresolve, h⟩ := bind_eq_ok.mp h
  have hroom := (resolveRoom_roomType hq hresolve).1
  rw [if_pos (Option.isSome_iff_ne_none.mpr (hroom ▸ hkind))] at h
  obtain ⟨p, hp, hcase⟩ := resolveRoom_ok hq hresolve
  obtain ⟨hnone, rfl⟩ | hres := hcase
  · exact absurd (hroom.symm.trans hnone) hkind
  · exact ⟨p, p', hp, opened hp (hres.roomType ▸ hroom ▸ hkind), hres, hroom, h⟩

end Accepted

theorem isProductPolicyEvent_text (type : MessageType) : isProductPolicyEvent (trimSpace type.text) = true := by
  cases type <;> decide

theorem refused_of_state {q : Querier} {state : RoomState} {req : ClientEventRequest} {type : MessageType}
    (hq : q.current = .ok (some state)) (htype : req.eventType = type.text) (hkind : enforcedKind state ≠ none)
    (h : Dissolved state ∨ ¬Joined q state req.senderMXID ∨ Muted state req.senderMXID) : validateClientEvent q req ≠ .ok () := by
  intro haccepted
  obtain ⟨p, p', -, hopened, hres, -, hjudge⟩ := accepted_message hq hkind (htype ▸ isProductPolicyEvent_text type) haccepted
  obtain ⟨hdissolved, hjoined, hmuted, -⟩ := judgeEvent_ok hjudge
  obtain h | h | h := h
  · rw [hres.dissolved, hopened.dissolved, h] at hdissolved
    cases hdissolved
  · exact h ((senderMembership_ok hres.membership).1 hjoined)
  · obtain ⟨content, hcontent, hvalue⟩ := hres.muted
    rw [Muted, contentOf_ok hcontent, ← hvalue, hmuted] at h
    cases h

/-! ## What is stored for it -/

section Projected

variable {b : Backend} {state : RoomState} {t t' : Tables b} {e : Event}

theorem allowed_of_same (hposts : t'.posts = t.posts) (hcomments : t'.comments = t.comments) : Allowed state t t' :=
  ⟨hposts, fun _ hcm hnew => absurd (hcomments ▸ hcm) hnew⟩

theorem message_allowed (hpost : e.content.string "p2p_kind" ≠ "channel_post")
    (hcomment : e.content.string "p2p_kind" = "channel_comment" →
      CommentsOpen state ∧ PostOpen state (e.content.string "post_id")) :
    Allowed state t (projectChannelMessage e t) := by
  rw [projectChannelMessage, if_neg hpost]
  split
  · rename_i hkind
    rw [projectComment]
    split
    · exact allowed_of_same rfl rfl
    refine ⟨rfl, fun cm hcm hnew => ?_⟩
    obtain rfl | ⟨hold, -⟩ := Rows.mem_put.mp hcm
    · exact hcomment hkind
    · exact absurd hold hnew
  · exact allowed_of_same rfl rfl

theorem projected_allowed {type : MessageType} (htype : e.type = type.projected)
    (hpost : e.content.string "p2p_kind" ≠ "channel_post")
    (hcomment : type = .message → e.content.string "p2p_kind" = "channel_comment" →
      CommentsOpen state ∧ PostOpen state (e.content.string "post_id")) (agentRoomID : String) (now : Int) :
    Allowed state t (projectRoomEvent agentRoomID now e t) := by
  rw [projectRoomEvent, htype]
  cases type with
  | reaction => exact allowed_of_same (projectReaction_content ..).1 (projectReaction_content ..).2
  | message =>
    dsimp only [MessageType.projected]
    split
    · exact allowed_of_same rfl rfl
    · exact message_allowed hpost (hcomment rfl)

end Projected

theorem accepted_allowed
    (hq : q.current = .ok (some state)) (htype : req.eventType = type.text) (htext : TextPostID type req.content)
    (hchannel : enforcedKind state = some .channel) (hcreator : ¬Creator q state req.senderMXID)
    (h : validateClientEvent q req = .ok ()) (t : Tables b) (agentRoomID eventID : String) (now originServerTS : Int) :
    Allowed state t
      (projectRoomEvent agentRoomID now (eventOf type req.content q.roomID req.senderMXID eventID originServerTS) t) := by
  obtain ⟨p, p', hp, hopened, hres, hroom, hjudge⟩ :=
    accepted_message hq (by simp [hchannel]) (htype ▸ isProductPolicyEvent_text type) h
  have hkind := hroom.trans hchannel
  have hmember : p'.senderPrivileged = false := by
    by_contra howner
    refine hcreator (hres.creator_of_owner hopened ?_)
    simpa [RoomPolicy.senderPrivileged] using howner
  obtain ⟨hpost, hcomment⟩ := validateChannelEvent_ok hkind hmember (judgeEvent_ok hjudge).2.2.2
  refine projected_allowed rfl ?_ ?_ ..
  · intro hstored
    rw [isChannelPostEvent, channelEventKind, stringValue_of_string hstored (by decide)] at hpost
    exact absurd hpost (by decide +kernel)
  · intro hmessage hstored
    have hfold : equalFold (channelEventKind req.content) "channel_comment" = true := by
      rw [channelEventKind, stringValue_of_string hstored (by decide)]
      decide +kernel
    obtain ⟨henabled, hsettings⟩ := hcomment hfold
    have hopen := postOpen_of_enabled hq hsettings
    rw [← string_eq_of_text (htext hmessage hstored), Params.trimSpace_string] at hopen
    exact ⟨commentsOpen_of_enabled hp (hres.roomType ▸ hkind) (hres.commentsEnabled ▸ henabled), hopen⟩

/-! ## A comment that is not checked -/

def openChannel : Opening where
  create := some ("@owner:home", some fun key => if key = "type" then some (.string RoomType.channel.text) else none)
  profile := some ("@owner:home", some fun key => if key = "comments_enabled" then some (.bool true) else none)

def commentRequest (content : Object) : ClientEventRequest := ⟨"@a:home", "m.room.message", content, none, .ok ()⟩

section Unchecked

variable {content : Object} {v : Json}

theorem openChannel_accepts (hkind : (paramsOf content).string "p2p_kind" = "channel_comment")
    (hpost : trimSpace (stringValue (content "post_id")) ≠ "") :
    validateClientEvent (.answering (openChannel.joined "@a:home") false) (commentRequest content) = .ok () := by
  have hresolve : resolveRoom (.answering (openChannel.joined "@a:home") false) "@a:home" = _ := resolveRoom_joined rfl (by
    rw [decodedPolicy, applyProfile_roomType]
    decide +kernel)
  have hsettings : channelPostCommentsEnabled (.answering (openChannel.joined "@a:home") false)
      (stringValue (content "post_id")) = .ok true := by
    unfold channelPostCommentsEnabled
    rw [if_neg hpost]
    simp only [Querier.answering, if_true]
    rw [Opening.joined, room_find (by decide) (by decide),
      if_neg (by simp [joinEvent, StateEvent.tuple, memberType, postSettingsType])]
    rfl
  have hword : channelEventKind content = "channel_comment" := stringValue_of_string hkind (by decide)
  have hfold : equalFold "channel_comment" "channel_post" = false := by decide +kernel
  have hcomment : equalFold "channel_comment" "channel_comment" = true := by decide +kernel
  unfold validateClientEvent
  dsimp only [commentRequest]
  rw [if_pos (by decide)]
  refine bind_eq_ok.mpr ⟨_, hresolve, ?_⟩
  generalize hp : RoomPolicy.joinedBy _ _ _ = p
  have hpolicy : p.roomType = some .channel ∧ p.dissolved = false ∧ p.senderJoined = true ∧ p.senderMuted = false ∧
      p.commentsEnabled = true := by
    rw [← hp]
    decide +kernel
  simp [hpolicy, judgeEvent, validateGroupEvent, validateDirectEvent, validateChannelEvent, isChannelPostEvent,
    isChannelCommentEvent, hword, hfold, hcomment, hsettings, bind, Except.bind]

theorem comment_stored (hkind : (paramsOf content).string "p2p_kind" = "channel_comment") :
    ∃ cm, cm.postID = (paramsOf content).string "post_id" ∧
      cm ∈ (projectRoomEvent "" 0 (eventOf .message content "!room:home" "@a:home" "$event" 0)
        (Tables.empty .postgres)).comments.rows := by
  refine ⟨(eventOf .message content "!room:home" "@a:home" "$event" 0).projection.comment, rfl, ?_⟩
  have hagent : isAgentRoom "" "!room:home" = false := by decide
  have hclosed : ∀ cm, (Tables.empty .postgres).commentsClosed cm = false := by
    intro cm
    simp [Tables.commentsClosed, Tables.getChannelPostByID, Tables.empty, Rows.find, Rows.empty]
  simp only [projectRoomEvent, eventOf, MessageType.projected, hagent, projectChannelMessage, hkind, projectComment, hclosed]
  exact Rows.mem_put.mpr (.inl rfl)

end Unchecked

/-- What is accepted into a channel changes only what its state allows, and in a dissolved room, or from who is not
joined or is muted, nothing is accepted, exactly if a comment names its post by a text. -/
theorem accepted_allowed_iff (type : MessageType) (content : Object) :
    (∀ q state req, q.current = .ok (some state) → req.eventType = type.text → req.content = content → Agrees q state req type) ↔
      TextPostID type content := by
  constructor
  · intro h hmessage hkind v hv
    subst hmessage
    by_contra hnot
    simp only [not_or, not_exists] at hnot
    obtain ⟨hempty, hprinted⟩ := readers_differ hv hnot.2 hnot.1
    have hagrees := h (.answering (openChannel.joined "@a:home") false) _ (commentRequest content) rfl rfl rfl
    have hcreator : ¬Creator (.answering (openChannel.joined "@a:home") false) (openChannel.joined "@a:home") "@a:home" :=
      creator_room ⟨_, _, _, rfl⟩ (by decide)
    have hallowed := hagrees.allowed (by rw [enforcedKind, opening_joined]; decide +kernel) hcreator
        (openChannel_accepts hkind hprinted) .postgres (.empty _) "" "$event" 0 0
    obtain ⟨cm, hpost, hstored⟩ := comment_stored hkind
    exact (hallowed.comments cm hstored (by simp [Tables.empty, Rows.empty])).2.1 (hpost.trans hempty)
  · rintro htext q state req hq htype rfl
    exact ⟨fun hchannel hcreator h b t _ _ _ _ => accepted_allowed hq htype htext hchannel hcreator h t ..,
      refused_of_state hq htype⟩

def numberedComment : Object := fun key =>
  if key = "p2p_kind" then some (.string "channel_comment")
    else if key = "post_id" then some (.number (Decimal.ofDigit ⟨5, by decide⟩)) else none

theorem unchecked_comment :
    let q := .answering (openChannel.joined "@a:home") false
    let t' := projectRoomEvent "" 0 (eventOf .message numberedComment "!room:home" "@a:home" "$event" 0) (.empty .postgres)
    validateClientEvent q (commentRequest numberedComment) = .ok () ∧ ∃ cm ∈ t'.comments.rows, cm.postID = "" ∧
      ¬PostOpen (openChannel.joined "@a:home") cm.postID := by
  have hkind : (paramsOf numberedComment).string "p2p_kind" = "channel_comment" := by decide
  obtain ⟨hempty, hprinted⟩ :=
    readers_differ (show numberedComment "post_id" = some (.number (.ofDigit ⟨5, by decide⟩)) from rfl) (by simp) (by simp)
  obtain ⟨cm, hpost, hstored⟩ := comment_stored hkind
  exact ⟨openChannel_accepts hkind hprinted, cm, hstored, hpost.trans hempty, fun hopen => hopen.1 (hpost.trans hempty)⟩

end Dirextalk.Policy

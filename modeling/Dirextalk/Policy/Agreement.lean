/-
  Dirextalk.Policy.Agreement — what a room is for the product policy (`resolveRoom`) and
  what the projector records it as (`Projector.projectRoomEvent`), over the create event
  and any sequence of profiles.

  The two read the same state with different eyes: the policy takes the last profile with
  an empty state key and spells room types exactly, the projector takes profiles of any key
  in any case, keeps the first kind it records and forgets a group that is dissolved. They
  agree on histories that name one kind throughout, exactly spelled (`classified_alike`).
  A profile that spells its type in capitals is recorded and not policed
  (`shouted_channel`).
-/
import Dirextalk.Policy.Messages
import Dirextalk.Projector.Handlers

namespace Dirextalk.Policy

open Lib Lib.Go Projector
open Contacts (ConversationKind ConversationRecord)
open Projector (Node State RoomEvent Project ValidRoomID kindFromRoomType)
open Dirextalk.Action (Value Params)

/-! ## Histories -/

/-- A state event of the room; the content is `none` if it does not decode into an object. -/
structure HistoryEvent where
  stateKey : String
  sender : String
  eventID : String
  originServerTS : Int
  content : Option Object

def HistoryEvent.event (e : HistoryEvent) (type roomID : String) : RoomEvent where
  type
  roomID
  eventID := e.eventID
  sender := e.sender
  stateKey := some e.stateKey
  originServerTS := e.originServerTS
  content := e.content.map paramsOf
  inviteRoomState := []

structure History where
  create : HistoryEvent
  created : create.stateKey = ""
  profiles : List HistoryEvent

/-- What the current state keeps of it for the policy. -/
def History.opening (h : History) : Opening where
  create := some (h.create.sender, h.create.content)
  profile := ((h.profiles.filter (·.stateKey = "")).getLast?).map fun e => (e.sender, e.content)

def projectProfile (nd : Node) (roomID : String) (e : HistoryEvent) : Project Unit :=
  projectRoomEvent nd (e.event "io.dirextalk.room.profile" roomID)

def History.project (nd : Node) (roomID : String) (h : History) : Project Unit := do
  projectRoomEvent nd (h.create.event "m.room.create" roomID)
  h.profiles.forM (projectProfile nd roomID)

/-! ## The two classifications -/

def RoomType.kind : RoomType → ConversationKind
  | .direct => .direct
  | .group => .group
  | .channel => .channel

/-- The room is of the same kind for both, and dissolved for one if it is for the other. -/
structure Alike (p : RoomPolicy) (record : Option ConversationRecord) : Prop where
  kind : record.map (·.kind) = p.roomType.map RoomType.kind
  dissolved : p.roomType ≠ none → (p.dissolved = true ↔ record.any (·.lifecycle = .dissolved) = true)

/-- A text that is the room type, with blanks around it. -/
def Names (type : RoomType) (v : Option Json) : Prop := ∃ s, v = some (.string s) ∧ trimSpace s = type.text

/-- Nothing that spells a room type, in whatever case. -/
def NamesNone (v : Option Json) : Prop := ∀ s type, v = some (.string s) → toLower (trimSpace s) ≠ RoomType.text type

/-- A flag that is not the text `yes`. -/
def PlainFlag (v : Option Json) : Prop := ∀ s, v = some (.string s) → toLower (trimSpace s) ≠ "yes"

/-- A profile of the room type that both take for what it says: under the empty state key, not of a dissolved
group, and not of a direct room that is dissolved with an account. -/
structure PlainProfile (type : RoomType) (e : HistoryEvent) (content : Object) : Prop where
  stateKey : e.stateKey = ""
  decodes : e.content = some content
  names : Names type (content "room_type")
  flag : PlainFlag (content "dissolved")
  group : type = .group → (paramsOf content).boolOr "dissolved" false = false
  direct : type = .direct → (paramsOf content).boolOr "dissolved" false = true →
    (paramsOf content).boolOr "account_deleted" false = false

/-- A history that names one room type, or none. -/
def History.Uniform (h : History) (create : Object) : Option RoomType → Prop
  | none => NamesNone (create "type") ∧ ∀ e ∈ h.profiles, ∃ content, e.content = some content ∧ NamesNone (content "room_type")
  | some type =>
    (Names type (create "type") ∨ NamesNone (create "type")) ∧ (∀ e ∈ h.profiles, ∃ content, PlainProfile type e content) ∧
      (h.profiles = [] → type ≠ .direct ∧ Names type (create "type"))

/-! ## Two readers of a room type and of a flag -/

section Readers

variable {content : Object} {key : String} {type : RoomType} {v : Option Json}

theorem roomTypeOf_text (type : RoomType) (h : trimSpace s = type.text) : roomTypeOf s = some type := by
  have hself : ∀ t : RoomType, [RoomType.direct, .group, .channel].find? (·.text = t.text) = some t := by
    intro t
    cases t <;> decide
  rw [roomTypeOf, h, hself]

theorem roomTypeOf_none (h : ∀ type : RoomType, trimSpace s ≠ type.text) : roomTypeOf s = none := by
  rw [roomTypeOf, List.find?_eq_none]
  intro type _
  simpa using (h type).symm

theorem Names.policy (h : Names type v) : roomTypeOf (stringValue v) = some type := by
  obtain ⟨s, rfl, hs⟩ := h
  rw [stringValue_string]
  exact roomTypeOf_text type (by rw [trimSpace_trimSpace, hs])

theorem Names.projected (h : Names type (content key)) : kindFromRoomType ((paramsOf content).string key) = some type.kind := by
  obtain ⟨s, hv, hs⟩ := h
  have htext : (paramsOf content).string key = type.text := by simp [paramsOf, Params.string, hv, valueOf, Value.text, hs]
  rw [htext]
  cases type <;> decide

/-- What is printed of something that is no text is no room type. -/
theorem NamesNone.policy (h : NamesNone v) : roomTypeOf (stringValue v) = none := by
  have hempty := roomTypeOf_absent
  cases v with
  | none => rw [stringValue_none, hempty]
  | some j =>
    by_cases htext : ∃ s, j = .string s
    · obtain ⟨s, rfl⟩ := htext
      refine roomTypeOf_none fun type heq => h s type rfl ?_
      rw [stringValue_string, trimSpace_trimSpace] at heq
      rw [heq]
      cases type <;> decide
    · simp only [not_exists] at htext
      by_cases hnull : j = .null
      · have : stringValue (some j) = "" := by rw [hnull]; simp [stringValue]
        rw [this, hempty]
      · obtain ⟨c, rest, hchars, hc⟩ := Json.chars_head htext hnull
        have hprint : stringValue (some j) = trimSpace (.ofList j.chars) := by cases j <;> simp_all [stringValue]
        obtain ⟨rest', htrim⟩ : ∃ rest', trimSpace (String.ofList (c :: rest)) = String.ofList (c :: rest') :=
          trimSpace_head (Json.heads_plain hc).1
        refine roomTypeOf_none fun type heq => (Json.heads_plain hc).2 ?_
        rw [hprint, trimSpace_trimSpace, hchars, htrim] at heq
        have hhead := congrArg (fun s => s.toList.head?) heq
        cases type <;> simpa [RoomType.text] using hhead

theorem NamesNone.projected (h : NamesNone (content key)) : kindFromRoomType ((paramsOf content).string key) = none := by
  have hnone : kindFromRoomType "" = none := by decide
  cases hv : content key with
  | none => rw [show (paramsOf content).string key = "" by simp [paramsOf, Params.string, hv], hnone]
  | some j =>
    cases j with
    | string s =>
      rw [show (paramsOf content).string key = trimSpace s by simp [paramsOf, Params.string, hv, valueOf, Value.text]]
      have hlower : ∀ type : RoomType, toLower (trimSpace (trimSpace s)) ≠ type.text := fun type => by
        rw [trimSpace_trimSpace]
        exact h s type hv
      have hd := hlower .direct
      have hg := hlower .group
      have hc := hlower .channel
      simp only [RoomType.text] at hd hg hc
      simp [kindFromRoomType, hd, hg, hc]
    | null | bool _ | number _ | array _ | object _ =>
      rw [show (paramsOf content).string key = "" by simp [paramsOf, Params.string, hv, valueOf, Value.text], hnone]

theorem PlainFlag.absent : PlainFlag none := by
  intro s hs
  cases hs

/-- The two readings of a flag are the same unless it is the text `yes`. -/
theorem flag_alike_iff : boolValue (content key) = (paramsOf content).boolOr key false ↔ PlainFlag (content key) := by
  cases hv : content key with
  | none => simp [paramsOf, Params.boolOr, hv, PlainFlag]
  | some j =>
    cases j with
    | string s =>
      have hbool : (paramsOf content).boolOr key false = (equalFold (trimSpace s) "true" || trimSpace s == "1") := by
        simp [paramsOf, Params.boolOr, hv, valueOf, Value.truth]
      have htrue : equalFold (trimSpace s) "true" = true ↔ toLower (trimSpace s) = "true" :=
        ⟨fun h => toLower_of_equalFold h (by decide), fun h => equalFold_of_toLower h (by decide)⟩
      have hone : trimSpace s = "1" ↔ toLower (trimSpace s) = "1" :=
        ⟨fun h => by rw [h]; decide, fun h => eq_of_toLower h (by decide)⟩
      have hflag : boolValue (some (.string s)) = true ↔
          toLower (trimSpace s) = "true" ∨ toLower (trimSpace s) = "1" ∨ toLower (trimSpace s) = "yes" := by
        simp [boolValue]
      have hprojected : (equalFold (trimSpace s) "true" || trimSpace s == "1") = true ↔
          toLower (trimSpace s) = "true" ∨ toLower (trimSpace s) = "1" := by
        rw [Bool.or_eq_true, htrue, beq_iff_eq, hone]
      have hplain : PlainFlag (some (.string s)) ↔ toLower (trimSpace s) ≠ "yes" :=
        ⟨fun h => h s rfl, fun h s' hs' => by cases hs'; exact h⟩
      rw [hbool, hplain, Bool.eq_iff_iff, hflag, hprojected]
      constructor
      · intro h hyes
        obtain htrue | hone := h.mp (.inr (.inr hyes))
        · exact absurd (hyes.symm.trans htrue) (by decide)
        · exact absurd (hyes.symm.trans hone) (by decide)
      · intro h
        simp [h]
    | null | bool _ | array _ | object _ => simp [paramsOf, Params.boolOr, hv, PlainFlag, boolValue, valueOf, Value.truth]
    | number x => cases hx : x.isZero <;> simp [paramsOf, Params.boolOr, hv, PlainFlag, boolValue, valueOf, Value.truth, hx]

end Readers

/-! ## What the projector records -/

section Recorded

variable {nd : Node} {roomID : String} {type : RoomType} {e : HistoryEvent} {content : Object}

def OfKind (roomID : String) (kind : ConversationKind) (s : State) : Prop :=
  ∀ r, s.tables.conversations.find roomID = some r → r.kind = kind

structure Recorded (roomID : String) (kind : ConversationKind) (lifecycle : Contacts.Lifecycle) (s : State) : Prop where
  row : ∃ r, s.tables.conversations.find roomID = some r ∧ r.kind = kind ∧ r.lifecycle = lifecycle

variable {lifecycle : Contacts.Lifecycle} {create : Object} {kind : ConversationKind}

theorem Recorded.ofKind (h : Recorded roomID kind lifecycle s) : OfKind roomID kind s := by
  intro r hr
  obtain ⟨r', hr', hkind, -⟩ := h.row
  cases hr'.symm.trans hr
  exact hkind

theorem saveConversation_recorded (record : ConversationRecord) (hroom : ValidRoomID roomID)
    (hrecord : record.matrixRoomID = roomID) :
    Handler.Runs (OfKind roomID record.kind) (saveConversation record) fun _ => Recorded roomID record.kind record.lifecycle := by
  refine .statement fun s hs => ?_
  obtain ⟨r, hupsert, hkey, hkind, hlifecycle⟩ := Contacts.Conversations.upsert_spec (t := s.tables.conversations)
    (show trimSpace record.matrixRoomID ≠ "" by rw [hrecord, hroom.1]; exact hroom.2) (by rw [hrecord, hroom.1]; exact hs)
  refine ⟨_, by rw [hupsert]; rfl, ⟨r, ?_, hkind, hlifecycle⟩⟩
  rw [hrecord, hroom.1] at hkey
  rw [← hkey]
  exact Rows.find_put_self ..

/-- What concerns the conversations alone. -/
theorem projectChannelProfileContent_keeps {C : Contacts.Conversations → Prop} (e : RoomEvent) (content : Params) :
    Handler.Runs (fun s => C s.tables.conversations)
      (projectChannelProfileContent e content) fun _ s => C s.tables.conversations := by
  refine .bind (Q := fun _ s => C s.tables.conversations) (.reads fun s hs => hs) fun inRoom => ?_
  refine .bind (Q := fun _ s => C s.tables.conversations) (.reads fun s hs => hs) fun existing => ?_
  split
  · exact .modifies fun s hs => hs
  · exact .modifies fun s hs => hs

theorem deleteGroup_keeps (hgroups : ∀ s groups, P s → P { s with tables := { s.tables with groups } })
    (hkind : ∀ s, P s → OfKind roomID .direct s) : Handler.Runs P (deleteGroup roomID) fun _ => P := by
  refine .bind (Q := fun _ => P) (.modifies fun s hs => hgroups s _ hs) fun _ => ?_
  unfold deleteKindByRoom
  split
  · exact .pure fun s hs => hs
  refine .bind (Q := fun record s => P s ∧ record = s.tables.conversations.find roomID)
    (.reads fun s hs => ⟨hs, rfl⟩) fun record => ?_
  split
  · rename_i hgroup
    rintro s ⟨hs, rfl⟩
    obtain ⟨r, hr, hk⟩ := (Option.any_eq_true ..).mp hgroup
    rw [hkind s hs r hr] at hk
    exact absurd hk (by decide)
  · exact .pure fun s hs => hs.1

def lifecycleOf (content : Object) : Contacts.Lifecycle :=
  if (paramsOf content).boolOr "dissolved" false then .dissolved else .active

theorem projectProfile_decoded (hdecodes : e.content = some content) : projectProfile nd roomID e =
      match kindFromRoomType ((paramsOf content).string "room_type") with
      | none => pure ()
      | some .direct => do
        deleteGroup roomID
        Projector.projectProfile nd (e.event "io.dirextalk.room.profile" roomID) .direct (paramsOf content)
      | some kind => Projector.projectProfile nd (e.event "io.dirextalk.room.profile" roomID) kind (paramsOf content) := by
  have hdispatch : projectProfile nd roomID e = projectRoomProfileState nd (e.event "io.dirextalk.room.profile" roomID) := by
    simp [projectProfile, projectRoomEvent, HistoryEvent.event]
  have hdecoded : (e.event "io.dirextalk.room.profile" roomID).decoded = pure (paramsOf content) := by
    simp [RoomEvent.decoded, HistoryEvent.event, hdecodes]
  rw [hdispatch, projectRoomProfileState, hdecoded, pure_bind]
  cases kindFromRoomType ((paramsOf content).string "room_type") with
  | none => rfl
  | some kind => cases kind <;> rfl

/-- A plain profile of the kind of the room goes through and is what the conversation says. -/
theorem projectProfile_recorded (hroom : ValidRoomID roomID) (h : PlainProfile type e content) :
    Handler.Runs (OfKind roomID type.kind)
      (projectProfile nd roomID e) fun _ => Recorded roomID type.kind (lifecycleOf content) := by
  rw [projectProfile_decoded h.decodes, h.names.projected]
  have hsave : ∀ kind, Handler.Runs (OfKind roomID kind)
      (saveConversation (profileConversation (e.event "io.dirextalk.room.profile" roomID) kind (paramsOf content)))
      fun _ => Recorded roomID kind (lifecycleOf content) := fun kind =>
    saveConversation_recorded (profileConversation (e.event _ roomID) kind (paramsOf content)) hroom rfl
  cases type with
  | direct =>
    refine .bind (deleteGroup_keeps (fun _ _ hs => hs) fun _ hs => hs) fun _ => ?_
    refine .bind (hsave .direct) fun _ => ?_
    refine .bind (deleteGroup_keeps (fun _ _ hs => ⟨hs.row⟩) fun _ hs => hs.ofKind) fun _ => ?_
    split
    · rename_i hboth
      obtain ⟨hdissolved, hdeleted⟩ := Bool.and_eq_true_iff.mp hboth
      exact absurd hdeleted (by rw [h.direct rfl hdissolved]; decide)
    · exact .pure fun s hs => hs
  | group =>
    refine .bind (hsave .group) fun _ => ?_
    have hactive := h.group rfl
    have hlifecycle : lifecycleOf content = .active := by simp [lifecycleOf, hactive]
    unfold projectGroupProfileContent
    rw [if_neg (by simp [hactive]), hlifecycle]
    refine .bind (Q := fun _ => OfKind roomID .group) (.reads fun s hs => hs.ofKind) fun existing => ?_
    refine .bind (Q := fun _ => OfKind roomID .group) (.modifies fun s hs => hs) fun _ => ?_
    exact saveConversation_recorded (conversationFromGroup (groupProfile roomID existing (paramsOf content))) hroom rfl
  | channel =>
    refine .bind (hsave .channel) fun _ => ?_
    have hkeep := projectChannelProfileContent_keeps
      (C := fun t => ∃ r, t.find roomID = some r ∧ r.kind = .channel ∧ r.lifecycle = lifecycleOf content)
      (e.event "io.dirextalk.room.profile" roomID) (paramsOf content)
    exact (hkeep.strengthen fun s hs => hs.row).mono fun _ s hs => ⟨hs⟩

/-- So do all of them. -/
theorem profiles_ofKind (hroom : ValidRoomID roomID) {profiles : List HistoryEvent}
    (h : ∀ e ∈ profiles, ∃ content, PlainProfile type e content) :
    Handler.Runs (OfKind roomID type.kind) (profiles.forM (projectProfile nd roomID)) fun _ => OfKind roomID type.kind := by
  induction profiles with
  | nil => exact .pure fun s hs => hs
  | cons e rest ih =>
    obtain ⟨content, hplain⟩ := h e (by simp)
    refine .bind (projectProfile_recorded hroom hplain) fun _ => ?_
    exact (ih fun e he => h e (by simp [he])).strengthen fun s hs => hs.ofKind

/-- The conversation of a room that only its create event is known of. -/
def Begun (roomID : String) : Option ConversationKind → State → Prop
  | none, s => s.tables.conversations.find roomID = none
  | some kind, s => Recorded roomID kind .active s

theorem Begun.ofKind (h : Begun roomID begun s)
    (hkind : begun = none ∨ begun = some kind) : OfKind roomID kind s := by
  obtain rfl | rfl := hkind
  · intro r hr
    cases h.symm.trans hr
  · exact Recorded.ofKind h

theorem setCreator_keeps (hroom : ValidRoomID roomID) :
    Handler.Runs (Recorded roomID kind lifecycle) (setCreator roomID creatorMXID) fun _ => Recorded roomID kind lifecycle := by
  unfold setCreator
  rw [hroom.1, if_neg hroom.2]
  refine .statement fun s hs => ?_
  obtain ⟨r, hfind, hkind, hlifecycle⟩ := hs.row
  rw [hfind]
  refine ⟨_, rfl, ⟨{ r with createdByMXID := trimSpace creatorMXID }, ?_, hkind, hlifecycle⟩⟩
  rw [Rows.find_put]
  exact if_pos (Rows.key_of_find hfind)

theorem projectCreator_keeps (e : RoomEvent) (hroom : ValidRoomID e.roomID) :
    Handler.Runs (Recorded e.roomID kind lifecycle) (projectCreator nd e) fun _ => Recorded e.roomID kind lifecycle := by
  unfold projectCreator
  split
  · exact .pure fun s hs => hs
  · exact setCreator_keeps hroom

/-- The kind that a create event begins a conversation with. -/
def begunKind (create : Object) : Option ConversationKind :=
  (kindFromRoomType ((paramsOf create).string "type")).filter groupOrChannel

theorem projectRoomCreate_begun {h : History} (hroom : ValidRoomID roomID) (hcreate : h.create.content = some create) :
    Handler.Runs (fun s => s.tables.conversations.find roomID = none)
      (projectRoomEvent nd (h.create.event "m.room.create" roomID)) fun _ => Begun roomID (begunKind create) := by
  have hdispatch : projectRoomEvent nd (h.create.event "m.room.create" roomID) =
      projectRoomCreate nd (h.create.event "m.room.create" roomID) := by
    simp [projectRoomEvent, HistoryEvent.event]
  have hdecoded : (h.create.event "m.room.create" roomID).decoded = pure (paramsOf create) := by
    simp [RoomEvent.decoded, HistoryEvent.event, hcreate]
  rw [hdispatch, projectRoomCreate, if_neg (by simp [HistoryEvent.event, h.created]), hdecoded, pure_bind]
  refine .bind (Q := fun record s => record = none ∧ s.tables.conversations.find roomID = none)
    (.reads fun s hs => ⟨hs, hs⟩) fun record => ?_
  rintro s ⟨rfl, hnone⟩
  unfold begunKind
  cases (kindFromRoomType ((paramsOf create).string "type")).filter groupOrChannel with
  | none => exact ⟨(), s, rfl, hnone⟩
  | some kind =>
    have hsave := saveConversation_recorded (createdConversation (h.create.event "m.room.create" roomID) kind) hroom rfl
    have hbegun : Begun roomID none s := hnone
    exact (hsave.bind fun _ => projectCreator_keeps (h.create.event "m.room.create" roomID) hroom) s (hbegun.ofKind (.inl rfl))

theorem Names.begun (h : Names type (create "type")) : begunKind create = none ∨ begunKind create = some type.kind := by
  rw [begunKind, h.projected]
  cases type <;> decide

theorem Names.begun_of_ne_direct (h : Names type (create "type")) (htype : type ≠ .direct) :
    begunKind create = some type.kind := by
  rw [begunKind, h.projected]
  cases type with
  | direct => exact absurd rfl htype
  | group | channel => decide

theorem NamesNone.begun (h : NamesNone (create "type")) : begunKind create = none := by
  rw [begunKind, h.projected]
  rfl

attribute [irreducible] begunKind

end Recorded

/-! ## Whole histories -/

section Histories

variable {nd : Node} {roomID : String} {type : RoomType} {h : History} {create : Object}

theorem profiles_empty_or_last (h : History) : h.profiles = [] ∨ ∃ init last, h.profiles = init ++ [last] :=
  List.eq_nil_or_concat h.profiles |>.imp_right fun ⟨init, last, heq⟩ => ⟨init, last, by simpa using heq⟩

theorem opening_content_empty (hempty : h.profiles = []) : h.opening.content = fun _ => none := by
  simp [Opening.content, History.opening, hempty]

theorem project_recorded (hroom : ValidRoomID roomID) (hcreate : h.create.content = some create)
    (huniform : h.Uniform create (some type)) :
    Handler.Runs (fun s => s.tables.conversations.find roomID = none) (h.project nd roomID) fun _ =>
      Recorded roomID type.kind (lifecycleOf h.opening.content) := by
  obtain ⟨hnames, hplain, hempty⟩ := huniform
  refine .bind (projectRoomCreate_begun hroom hcreate) fun _ => ?_
  have hbegun : begunKind create = none ∨ begunKind create = some type.kind := by
    obtain hnames | hnames := hnames
    · exact hnames.begun
    · exact .inl hnames.begun
  obtain hnil | ⟨init, last, hprofiles⟩ := profiles_empty_or_last h
  · obtain ⟨htype, hnames⟩ := hempty hnil
    rw [hnil, opening_content_empty hnil, hnames.begun_of_ne_direct htype]
    exact .pure fun s hs => hs
  · obtain ⟨content, hlast⟩ := hplain last (by simp [hprofiles])
    have hcontent : h.opening.content = content := by
      simp [Opening.content, History.opening, hprofiles, hlast.stateKey, hlast.decodes]
    rw [hcontent, hprofiles]
    show Handler.Runs _ (forM (init ++ [last]) (projectProfile nd roomID)) _
    rw [List.forM_append, List.forM_cons]
    have hinit : ∀ e ∈ init, ∃ content, PlainProfile type e content := fun e he => hplain e (by simp [hprofiles, he])
    refine .bind ((profiles_ofKind hroom hinit).strengthen fun s hs => hs.ofKind hbegun) fun _ => ?_
    refine .bind (projectProfile_recorded hroom hlast) fun _ => ?_
    exact .pure fun s hs => hs

theorem project_none (hroom : ValidRoomID roomID) (hcreate : h.create.content = some create) (huniform : h.Uniform create none) :
    Handler.Runs (fun s => s.tables.conversations.find roomID = none) (h.project nd roomID) fun _ s =>
      s.tables.conversations.find roomID = none := by
  obtain ⟨hnames, hprofiles⟩ := huniform
  refine .bind (projectRoomCreate_begun hroom hcreate) fun _ => ?_
  rw [hnames.begun]
  generalize h.profiles = profiles at hprofiles ⊢
  induction profiles with
  | nil => exact .pure fun s hs => hs
  | cons e rest ih =>
    obtain ⟨content, hdecodes, hnone⟩ := hprofiles e (by simp)
    show Handler.Runs _ (projectProfile nd roomID e >>= fun _ => rest.forM (projectProfile nd roomID)) _
    rw [projectProfile_decoded hdecodes, hnone.projected]
    rw [pure_bind]
    exact ih fun e he => hprofiles e (by simp [he])

end Histories

/-! ## What the policy resolves -/

section Resolves

variable {q : Querier} {state : RoomState} {sender : String} {p : RoomPolicy} {type : RoomType} {h : History} {create : Object}

theorem created_eq (hcreate : h.create.content = some create) : h.opening.created = roomTypeOf (stringValue (create "type")) := by
  simp [Opening.created, History.opening, hcreate]

section

variable (hq : q.current = .ok (some state)) (hopening : opening state = h.opening) (hresolve : resolveRoom q sender = .ok p)
include hq hopening hresolve

theorem resolved_type : p.roomType = h.opening.profiled.or h.opening.created := by
  rw [← hopening]
  exact (resolveRoom_roomType hq hresolve).1

theorem resolved_dissolved
    (htype : p.roomType ≠ none) : p.dissolved = boolValue (h.opening.content "dissolved") := by
  obtain ⟨p₀, hp₀, hcase⟩ := resolveRoom_ok hq hresolve
  rw [← hopening, content_opening]
  obtain ⟨hnone, rfl⟩ | hres := hcase
  · exact absurd hnone htype
  · rw [hres.dissolved]
    exact (opened hp₀ (hres.roomType ▸ htype)).dissolved

end

theorem counted_profile (h : History) : h.opening.profile = none ∨
    ∃ e ∈ h.profiles, h.opening.profile = some (e.sender, e.content) := by
  cases hlast : (h.profiles.filter (·.stateKey = "")).getLast? with
  | none => exact .inl (by simp [History.opening, hlast])
  | some e =>
    have hmem := List.mem_of_getLast? hlast
    exact .inr ⟨e, (List.mem_filter.mp hmem).1, by simp [History.opening, hlast]⟩

theorem uniform_none_type (hcreate : h.create.content = some create) (huniform : h.Uniform create none) :
    h.opening.profiled.or h.opening.created = none := by
  obtain ⟨hnames, hprofiles⟩ := huniform
  rw [created_eq hcreate, hnames.policy, Option.or_none]
  obtain hnone | ⟨e, he, hprofile⟩ := counted_profile h
  · simp [Opening.profiled, hnone]
  · obtain ⟨content, hdecodes, hnone⟩ := hprofiles e he
    simp [Opening.profiled, hprofile, hdecodes, hnone.policy]

/-- The room type of the history, and a flag that both read alike. -/
theorem uniform_type (hcreate : h.create.content = some create) (huniform : h.Uniform create (some type)) :
    h.opening.profiled.or h.opening.created = some type ∧ PlainFlag (h.opening.content "dissolved") := by
  obtain ⟨-, hplain, hempty⟩ := huniform
  obtain hnil | ⟨init, last, hprofiles⟩ := profiles_empty_or_last h
  · have hprofile : h.opening.profile = none := by simp [History.opening, hnil]
    refine ⟨?_, ?_⟩
    · rw [created_eq hcreate, (hempty hnil).2.policy]
      simp [Opening.profiled, hprofile]
    · rw [opening_content_empty hnil]
      exact .absent
  · obtain ⟨content, hlast⟩ := hplain last (by simp [hprofiles])
    have hprofile : h.opening.profile = some (last.sender, some content) := by
      simp [History.opening, hprofiles, hlast.stateKey, hlast.decodes]
    refine ⟨?_, ?_⟩
    · simp [Opening.profiled, hprofile, hlast.names.policy]
    · simpa [Opening.content, hprofile] using hlast.flag

end Resolves

/-! ## Muted members -/

section Muted

variable {nd : Node} {roomID : String} {e : HistoryEvent} {content : Object}

theorem refreshCounts_members (member : Members.MemberRecord) : Handler.Leaves (·.members) (refreshCounts nd member) := by
  have hsave : ∀ record, Handler.Leaves (·.members) (saveConversation record) := by
    intro record
    refine .statement fun s s' hs => ?_
    obtain ⟨_, -, rfl⟩ := Option.map_eq_some_iff.mp hs
    rfl
  unfold refreshCounts
  split
  · refine .bind (.reads _) fun group => ?_
    cases group with
    | none => exact .pure _
    | some group => exact .bind (.reads _) fun counts => .modifies fun s => rfl
  · unfold refreshStoredChannelCounts
    split
    · exact .pure _
    refine .bind (.reads _) fun channel => ?_
    cases channel with
    | none => exact .pure _
    | some channel =>
      refine .bind (.reads _) fun counts => ?_
      exact .bind (.modifies fun s => rfl) fun _ => hsave _

/-- The member policy that both take for the same: not the text `yes`, and not left out where the row is muted. -/
structure PlainMute (content : Object) (stored : Option Members.MemberRecord) : Prop where
  flag : PlainFlag (content "muted")
  absent : content "muted" = none → stored.any (·.muted) = false

def HistoryEvent.user (e : HistoryEvent) : String := trimSpace (Members.userIDFromStateKey e.stateKey)

theorem saveMember_row (nd : Node) (member : Members.MemberRecord) (s : State) :
    ∃ row, ((saveMember nd member).outcome s).2.members.row member.roomID member.userID = some row ∧
      row.muted = member.muted := by
  have hsave : (saveMember nd member).outcome s =
      (refreshCounts nd member).outcome { s with members := s.members.saveMember nd.now member } := Handler.outcome_bind_ok rfl
  have hmembers : ((saveMember nd member).outcome s).2.members = s.members.saveMember nd.now member := by
    rw [hsave]
    exact refreshCounts_members member _
  rw [hmembers]
  exact s.members.saveMember_muted nd.now member

theorem memberPolicy_key {t : Members.Table} {user role : String} {muted : Option Bool} {now : Int} :
    (Members.memberPolicy roomID user (t.row roomID user) role muted now).roomID = roomID ∧
      (Members.memberPolicy roomID user (t.row roomID user) role muted now).userID = user := by
  cases hrow : t.row roomID user with
  | none => exact ⟨rfl, rfl⟩
  | some row =>
    simp only [Members.memberPolicy, Option.getD_some]
    exact t.keyed hrow

variable (nd : Node) (s : State) (hroom : roomID ≠ "") (huser : e.user ≠ "") (hdecodes : e.content = some content)
include hroom huser hdecodes

theorem projectMemberPolicyState_muted :
    ∃ row, ((projectRoomEvent nd (e.event memberPolicyType roomID)).outcome s).2.members.row roomID e.user = some row ∧
      row.muted = ((paramsOf content "muted").map Value.truth).getD ((s.members.row roomID e.user).any (·.muted)) := by
  have hdispatch : projectRoomEvent nd (e.event memberPolicyType roomID) =
      projectMemberPolicyState nd (e.event memberPolicyType roomID) := by
    simp [projectRoomEvent, HistoryEvent.event, memberPolicyType]
  have hdecoded : (e.event memberPolicyType roomID).decoded = pure (paramsOf content) := by
    simp [RoomEvent.decoded, HistoryEvent.event, hdecodes]
  have hlookup : (lookupMember (e.event memberPolicyType roomID).roomID e.user).outcome s =
      (.ok (s.members.row roomID e.user), s) := by
    show (Except.ok (if roomID = "" ∨ e.user = "" then none else s.members.row roomID e.user), s) = _
    rw [if_neg (by simp [hroom, huser])]
  have hnamed : ¬trimSpace (Members.userIDFromStateKey ((e.event memberPolicyType roomID).stateKey.getD "")) = "" := huser
  rw [hdispatch, projectMemberPolicyState, hdecoded, pure_bind]
  rw [if_neg hnamed]
  erw [Handler.outcome_bind_ok hlookup]
  obtain ⟨row, hrow, hmuted⟩ := saveMember_row nd (Members.memberPolicy roomID e.user (s.members.row roomID e.user)
    ((paramsOf content).string "role") ((paramsOf content "muted").map Value.truth) ((e.event memberPolicyType roomID).time nd)) s
  rw [memberPolicy_key.1, memberPolicy_key.2] at hrow
  refine ⟨row, hrow, hmuted.trans ?_⟩
  cases s.members.row roomID e.user <;> rfl

/-- What is stored of a member is what the policy reads of the event, if the event says it plainly. -/
theorem muted_alike_iff :
    ∃ row, ((projectRoomEvent nd (e.event memberPolicyType roomID)).outcome s).2.members.row roomID e.user = some row ∧
      (boolValue (content "muted") = row.muted ↔ PlainMute content (s.members.row roomID e.user)) := by
  obtain ⟨row, hrow, hmuted⟩ := projectMemberPolicyState_muted nd s hroom huser hdecodes
  refine ⟨row, hrow, ?_⟩
  rw [hmuted]
  cases hv : content "muted" with
  | none =>
    have hparam : paramsOf content "muted" = none := by simp [paramsOf, hv]
    rw [hparam, boolValue_none]
    constructor
    · intro h
      refine ⟨?_, fun _ => h.symm⟩
      rw [hv]
      exact .absent
    · intro h
      exact (h.absent hv).symm
  | some j =>
    have hread : ((paramsOf content "muted").map Value.truth).getD ((s.members.row roomID e.user).any (·.muted)) =
        (paramsOf content).boolOr "muted" false := by
      simp [paramsOf, Params.boolOr, hv]
    rw [hread, ← hv, flag_alike_iff]
    constructor
    · intro h
      exact ⟨h, fun habsent => by rw [hv] at habsent; cases habsent⟩
    · intro h
      exact h.flag

end Muted

/-! ## Where the two agree -/

/-- Of a room whose events agree on its kind, policy and projector keep the same kind and lifecycle. They agree on
whether a member is muted just when the member policy says it plainly. -/
theorem classified_alike (nd : Node) (roomID : String) :
    (∀ (h : History) (create : Object) (type : Option RoomType) (s₀ : State),
      ValidRoomID roomID → h.create.content = some create → h.Uniform create type → s₀.tables.conversations.find roomID = none →
      ∃ s, (h.project nd roomID).outcome s₀ = (.ok (), s) ∧
        ∀ q state sender p, q.current = .ok (some state) → opening state = h.opening → resolveRoom q sender = .ok p →
          Alike p (s.tables.conversations.find roomID)) ∧
    (∀ (e : HistoryEvent) (content : Object) (s : State), roomID ≠ "" → e.user ≠ "" → e.content = some content →
      ∃ row, ((projectRoomEvent nd (e.event memberPolicyType roomID)).outcome s).2.members.row roomID e.user = some row ∧
        ∀ q state sender p, q.current = .ok (some state) → eventContent (userEvent state memberPolicyType sender) = .ok content →
          resolveRoom q sender = .ok p → p.roomType ≠ none →
            (p.senderMuted = row.muted ↔ PlainMute content (s.members.row roomID e.user))) := by
  refine ⟨?_, ?_⟩
  · intro h create type s₀ hroom hcreate huniform hnew
    cases type with
    | none =>
      obtain ⟨_, s, hrun, hnone⟩ := project_none hroom hcreate huniform s₀ hnew
      refine ⟨s, hrun, fun q state sender p hq hopening hresolve => ?_⟩
      have htype := (resolved_type hq hopening hresolve).trans (uniform_none_type hcreate huniform)
      exact ⟨by rw [hnone, htype]; rfl, fun hsome => absurd htype hsome⟩
    | some type =>
      obtain ⟨_, s, hrun, hrecorded⟩ := project_recorded hroom hcreate huniform s₀ hnew
      refine ⟨s, hrun, fun q state sender p hq hopening hresolve => ?_⟩
      obtain ⟨hkind, hflag⟩ := uniform_type hcreate huniform
      have htype := (resolved_type hq hopening hresolve).trans hkind
      obtain ⟨r, hfind, hr, hlifecycle⟩ := hrecorded.row
      refine ⟨by rw [hfind, htype, Option.map_some, Option.map_some, hr], fun hsome => ?_⟩
      rw [resolved_dissolved hq hopening hresolve hsome, flag_alike_iff.mpr hflag, hfind, Option.any_some, hlifecycle]
      cases hdissolved : (paramsOf h.opening.content).boolOr "dissolved" false <;> simp [lifecycleOf, hdissolved]
  · intro e content s hroom huser hdecodes
    obtain ⟨row, hrow, halike⟩ := muted_alike_iff nd s hroom huser hdecodes
    refine ⟨row, hrow, fun q state sender p hq hpolicy hresolve htype => ?_⟩
    obtain ⟨p₀, -, hcase⟩ := resolveRoom_ok hq hresolve
    obtain ⟨hnone, rfl⟩ | hres := hcase
    · exact absurd hnone htype
    · obtain ⟨content', hcontent, hmuted⟩ := hres.muted
      cases hpolicy.symm.trans hcontent
      rw [hmuted, halike]

def groupContent (key : String) : Object := fun k => if k = key then some (.string RoomType.group.text) else none

def groupHistory : History where
  create := ⟨"", "@owner:home", "$create", 1, some (groupContent "type")⟩
  created := rfl
  profiles := [⟨"", "@owner:home", "$profile", 2, some (groupContent "room_type")⟩]

def openMember : HistoryEvent := ⟨"user:@a:home", "@owner:home", "$policy", 3, some fun _ => none⟩

theorem plain_group_alike :
    let q := .answering (groupHistory.opening.joined "@a:home") false
    (∃ s p, (groupHistory.project (.calm "@owner:home") "!r:home").outcome .empty = (.ok (), s) ∧
      resolveRoom q "@a:home" = .ok p ∧ Alike p (s.tables.conversations.find "!r:home")) ∧
    ∃ row p, ((projectRoomEvent (.calm "@owner:home") (openMember.event memberPolicyType "!r:home")).outcome .empty).2.members.row
        "!r:home" "@a:home" = some row ∧ resolveRoom q "@a:home" = .ok p ∧ p.senderMuted = row.muted := by
  have hgroup : Names .group (some (.string RoomType.group.text)) := ⟨_, rfl, by decide⟩
  have hresolve :
      ∃ p, resolveRoom (.answering (groupHistory.opening.joined "@a:home") false) "@a:home" = .ok p ∧ p.roomType ≠ none := by
    have htype : (decodedPolicy (groupContent "type") (groupContent "room_type")).roomType ≠ none := by
      have hprofiled : roomTypeOf (stringValue (groupContent "room_type" "room_type")) = some .group := hgroup.policy
      rw [decodedPolicy, applyProfile_roomType, hprofiled]
      decide
    exact ⟨_, resolveRoom_joined rfl htype, by rwa [RoomPolicy.seenBy_roomType]⟩
  obtain ⟨p, hresolve, htype⟩ := hresolve
  refine ⟨?_, ?_⟩
  · have huniform : groupHistory.Uniform (groupContent "type") (some .group) := by
      refine ⟨.inl hgroup, fun e he => ⟨groupContent "room_type", ?_⟩, fun h => by cases h⟩
      rw [List.mem_singleton.mp he]
      exact ⟨rfl, rfl, hgroup, .absent, fun _ => by decide, fun h => by cases h⟩
    obtain ⟨s, hrun, halike⟩ := (classified_alike (.calm "@owner:home") "!r:home").1 groupHistory _ (some .group) .empty
      ⟨by decide, by decide⟩ rfl huniform rfl
    exact ⟨s, p, hrun, hresolve, halike _ _ _ p rfl opening_joined hresolve⟩
  · obtain ⟨row, hrow, halike⟩ :=
      (classified_alike (.calm "@owner:home") "!r:home").2 openMember (fun _ => none) .empty (by decide) (by decide) rfl
    refine ⟨row, p, hrow, hresolve, (halike _ _ _ p rfl ?_ hresolve htype).mpr ⟨.absent, fun _ => rfl⟩⟩
    have hnone : userEvent (groupHistory.opening.joined "@a:home") memberPolicyType "@a:home" = none :=
      userEvent_other (by decide) (by decide)
    rw [hnone]
    rfl

def shouted : History where
  create := ⟨"", "@owner:home", "$create", 1, some fun _ => none⟩
  created := rfl
  profiles := [⟨"", "@owner:home", "$profile", 2, some fun key =>
    if key = "room_type" then some (.string "IO.DIREXTALK.ROOM.CHANNEL") else none⟩]

theorem shouted_channel :
    let after := (shouted.project (.calm "@owner:home") "!r:home").outcome .empty
    after.1 = .ok () ∧ (after.2.tables.conversations.find "!r:home").map (·.kind) = some .channel ∧
      ∃ q state p, q.current = .ok (some state) ∧ opening state = shouted.opening ∧ resolveRoom q "@a:home" = .ok p ∧
        p.roomType = none := by
  refine ⟨by decide +kernel, by decide +kernel, .answering (shouted.opening.joined "@a:home") false,
    shouted.opening.joined "@a:home", ?_⟩
  have htype : (decodedPolicy (fun _ => none) fun key =>
      if key = "room_type" then some (.string "IO.DIREXTALK.ROOM.CHANNEL") else none).roomType = none := by
    rw [decodedPolicy, applyProfile_roomType]
    decide +kernel
  have hdecodes : Decodes (shouted.opening.joined "@a:home") "@owner:home" _ _ := decodes_of_opening opening_joined
  exact ⟨_, rfl, opening_joined, resolveRoom_none rfl hdecodes.openingPolicy htype, htype⟩

end Dirextalk.Policy

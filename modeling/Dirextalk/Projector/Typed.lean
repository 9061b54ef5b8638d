/-
  Dirextalk.Projector.Typed — which events the projector can refuse.

  A room has one kind for the stores: its conversation, its channel and its contact are all
  of that kind, and the contact is with one peer. Tables that keep to such a typing of the
  rooms refuse no event that does (`deliveries_go_through`). An event that says otherwise is
  refused for good, after some of its rows are written: the invite of a contact to a room
  whose create event named a channel (`invite_poisons`).
-/
import Dirextalk.Projector.Handlers
import Dirextalk.Lib.Run

namespace Dirextalk.Projector

open Lib Lib.Go Dirextalk.Action Contacts
open Channels (ChannelRecord ChannelTable)
open Contacts (ContactRecord ContactCall ContactTable ConversationKind ConversationRecord GroupRecord)
open Members (MemberRecord)

/-! ## Typings -/

structure Typing where
  kind : String → ConversationKind
  peer : String → String

namespace Typing

variable (Γ : Typing)

structure Conversation (r : ConversationRecord) : Prop where
  room : ValidRoomID r.matrixRoomID
  kind : r.kind = Γ.kind r.matrixRoomID

structure Channel (c : ChannelRecord) : Prop where
  room : ValidRoomID c.roomID
  kind : Γ.kind c.roomID = .channel

structure Contact (c : ContactRecord) : Prop where
  room : ValidRoomID c.roomID
  kind : Γ.kind c.roomID = .direct
  peer : Γ.peer c.roomID = c.peerMXID
  named : c.peerMXID ≠ ""

end Typing

structure Typed (Γ : Typing) (s : State) : Prop where
  conversations : ∀ r ∈ s.tables.conversations.rows, Γ.Conversation r
  channels : ∀ c ∈ s.channels.rows, Γ.Channel c
  contacts : ∀ c ∈ s.tables.contacts.rows.rows, Γ.Contact c

theorem Typed.empty (Γ : Typing) : Typed Γ .empty := ⟨by simp [State.empty, Tables.empty, Rows.empty],
  by simp [State.empty, Rows.empty], by simp [State.empty, Tables.empty, ContactTable.empty, Rows.empty]⟩

def Safe (Γ : Typing) {α : Type} (p : Project α) : Prop := Handler.Runs (Typed Γ) p fun _ => Typed Γ

section Rules

variable {Γ : Typing} {α β : Type} {s : State}

theorem Safe.pure (a : α) : Safe Γ (Pure.pure a : Project α) := Handler.Runs.pure fun _ hs => hs

theorem Safe.bind (h : Safe Γ p) (hf : ∀ a, Safe Γ (f a)) : Safe Γ (p >>= f) :=
  Handler.Runs.bind h hf

theorem Safe.reads (f : State → α) : Safe Γ (Handler.reads f) := Handler.Runs.reads fun _ hs => hs

/-- What is read has a property that typed tables give it. -/
theorem Safe.bindReads {f : State → α} {φ : α → Prop} {g : α → Project β} (hf : ∀ s, Typed Γ s → φ (f s))
    (hg : ∀ a, φ a → Safe Γ (g a)) : Safe Γ (Handler.reads f >>= g) :=
  Handler.Runs.bind (Q := fun a s => Typed Γ s ∧ φ a) (.reads fun s hs => ⟨hs, hf s hs⟩) fun a => .assuming (hg a)

end Rules

/-! ## Conversations, groups and channels -/

section Stores

variable {Γ : Typing} {nd : Node} {s : State} {roomID : String} {record : ConversationRecord} {channel : ChannelRecord}

theorem upsert_typed {t : Conversations} (hrows : ∀ r ∈ t.rows, Γ.Conversation r) (hrecord : Γ.Conversation record) :
    ∃ t', t.upsert record = some t' ∧ (∀ r ∈ t'.rows, Γ.Conversation r) ∧ (t'.find record.matrixRoomID).isSome = true := by
  have htrim := hrecord.room.1
  obtain ⟨r, hupsert, hkey, hkind, -⟩ := Conversations.upsert_spec (t := t)
    (show trimSpace record.matrixRoomID ≠ "" by rw [htrim]; exact hrecord.room.2) (by
      intro old hold
      rw [htrim] at hold
      have hrow := hrows old (t.find_eq_some.mp hold).1
      rw [hrow.kind, hrecord.kind, Rows.key_of_find hold])
  rw [htrim] at hkey
  refine ⟨t.put r, hupsert, fun r' hr' => ?_, ?_⟩
  · obtain rfl | ⟨hr', -⟩ := Rows.mem_put.mp hr'
    · exact ⟨hkey ▸ hrecord.room, by rw [hkind, hkey, hrecord.kind]⟩
    · exact hrows r' hr'
  · rw [← hkey, Rows.find_put_self]
    rfl

theorem saveConversation_found (hrecord : Γ.Conversation record) :
    Handler.Runs (Typed Γ)
      (saveConversation record) fun _ s => Typed Γ s ∧ (s.tables.conversations.find record.matrixRoomID).isSome = true := by
  refine .statement fun s hs => ?_
  obtain ⟨t', hupsert, hrows, hfound⟩ := upsert_typed hs.conversations hrecord
  refine ⟨{ s with tables := { s.tables with conversations := t' } }, ?_, ⟨hrows, hs.channels, hs.contacts⟩, hfound⟩
  rw [hupsert]
  rfl

theorem saveConversation_safe (hrecord : Γ.Conversation record) : Safe Γ (saveConversation record) :=
  (saveConversation_found hrecord).mono fun _ _ hs => hs.1

theorem projectCreator_safe (hroom : ValidRoomID e.roomID) :
    Handler.Runs (fun s => Typed Γ s ∧ (s.tables.conversations.find e.roomID).isSome = true)
      (projectCreator nd e) fun _ => Typed Γ := by
  unfold projectCreator setCreator
  split
  · exact .pure fun _ hs => hs.1
  rw [hroom.1, if_neg hroom.2]
  refine .statement fun s hs => ?_
  obtain ⟨r, hfind⟩ := Option.isSome_iff_exists.mp hs.2
  rw [hfind]
  have hr := hs.1.conversations r ((Rows.find_eq_some _).mp hfind).1
  refine ⟨_, rfl, fun r' hr' => ?_, hs.1.channels, hs.1.contacts⟩
  obtain rfl | ⟨hr', -⟩ := Rows.mem_put.mp hr'
  · exact ⟨hr.room, hr.kind⟩
  · exact hs.1.conversations r' hr'

theorem Typed.delete (hs : Typed Γ s) (p : ConversationRecord → Bool) :
    Typed Γ { s with tables := { s.tables with conversations := s.tables.conversations.delete p } } :=
  ⟨fun r hr => hs.conversations r (List.mem_filter.mp hr).1, hs.channels, hs.contacts⟩

theorem deleteKindByRoom_safe (roomID : String) (kind : ConversationKind) : Safe Γ (deleteKindByRoom roomID kind) := by
  unfold deleteKindByRoom
  split
  · exact .pure _
  refine .bind (.reads _) fun record => ?_
  split
  · exact .modifies fun s hs => hs.delete _
  · exact .pure _

theorem upsertGroup_safe (group : GroupRecord) : Safe Γ (upsertGroup group) :=
  .modifies fun _ hs => { hs with }

theorem saveGroup_safe (hroom : ValidRoomID group.roomID) (hkind : Γ.kind group.roomID = .group) :
    Safe Γ (saveGroup group) :=
  .bind (upsertGroup_safe group) fun _ => saveConversation_safe ⟨hroom, hkind.symm⟩

theorem deleteGroup_safe (roomID : String) : Safe Γ (deleteGroup roomID) :=
  .bind (.modifies fun _ hs => { hs with }) fun _ => deleteKindByRoom_safe roomID .group

theorem upsertChannel_safe (hchannel : Γ.Channel channel) : Safe Γ (upsertChannel channel) := by
  refine .modifies fun s hs => ⟨hs.conversations, fun c hc => ?_, hs.contacts⟩
  obtain rfl | ⟨hc, -⟩ := Rows.mem_put.mp hc
  · exact hchannel
  · exact hs.channels c hc

theorem deleteChannel_safe (channelID : String) : Safe Γ (deleteChannel channelID) :=
  .modifies fun _ hs => ⟨hs.conversations, fun c hc => hs.channels c (List.mem_filter.mp hc).1, hs.contacts⟩

theorem saveChannel_safe (hchannel : Γ.Channel channel) : Safe Γ (saveChannel channel) :=
  .bind (upsertChannel_safe hchannel) fun _ => saveConversation_safe ⟨hchannel.room, hchannel.kind.symm⟩

/-! ## Members -/

variable (member : MemberRecord)

theorem refreshCounts_safe : Safe Γ (refreshCounts nd member) := by
  unfold refreshCounts
  split
  · refine .bind (.reads _) fun group => ?_
    cases group with
    | none => exact .pure _
    | some group => exact .bind (.reads _) fun counts => upsertGroup_safe _
  · unfold refreshStoredChannelCounts
    split
    · exact .pure _
    have hfound : ∀ s c, Typed Γ s → s.channels.byIDOrRoom (trimSpace member.channelID) (trimSpace "") = some c → Γ.Channel c :=
      fun s c hs hc => hs.channels c (Channels.ChannelTable.mem_of_byIDOrRoom hc)
    refine .bindReads (φ := fun channel => ∀ c, channel = some c → Γ.Channel c)
      (fun s hs c hc => hfound s c hs hc) fun channel hchannel => ?_
    cases channel with
    | none => exact .pure _
    | some channel =>
      refine .bind (.reads _) fun counts => saveChannel_safe ?_
      exact ⟨(hchannel channel rfl).room, (hchannel channel rfl).kind⟩

theorem Typed.members (hs : Typed Γ s) (members : Members.Table) : Typed Γ { s with members } :=
  { hs with }

theorem saveMember_safe : Safe Γ (saveMember nd member) :=
  .bind (.modifies fun _ hs => hs.members _) fun _ => refreshCounts_safe member

/-- A save that says whether it wrote the row. -/
theorem savedMember_safe {f : State → Bool × State} (hf : ∀ s, Typed Γ s → Typed Γ (f s).2) :
    Safe Γ (do
      let saved ← Handler.answers f
      if saved then refreshCounts nd member
      return saved) := by
  refine .bind (.answers fun s hs => hf s hs) fun saved => ?_
  cases saved
  · exact .pure _
  · exact .bind (refreshCounts_safe member) fun _ => .pure _

theorem saveJoinRequest_safe (expected : Option MemberRecord) : Safe Γ (saveJoinRequest nd member expected) := by
  cases expected with
  | none => exact .bind (savedMember_safe member fun s hs => hs.members _) fun _ => .pure _
  | some expected =>
    show Safe Γ (if member = expected then _ else _)
    split
    · exact .pure _
    · exact .bind (savedMember_safe member fun s hs => hs.members _) fun _ => .pure _

end Stores

/-! ## Contacts -/

section ContactPrograms

variable {Γ : Typing} {nd : Node} {s : State} {α β : Type} {roomID peerMXID : String} {contact expected : ContactRecord}

/-- The locks are free for a projector that is alone. -/
theorem contacts_serializePeer (peerMXID : String) (p : Work α) (s : State) :
    (contacts nd (serializePeer peerMXID p)).outcome s = (contacts nd p).outcome s := by
  show (p.run >>= fun r => .ask (σ := ContactSig) (.unlock (trimSpace peerMXID)) >>= fun _ => pure r).perform
      (contactReply nd) s = _
  rw [Prog.perform_bind]
  rfl

theorem contacts_save (contact : ContactRecord) (s : State) :
    (contacts nd (save contact)).outcome s = (contacts nd (saveLocked contact)).outcome s := by
  show ((saveLocked contact).run >>= fun r => .ask (σ := ContactSig) .unlockSave >>= fun _ => pure r).perform
    (contactReply nd) s = _
  rw [Prog.perform_bind]
  rfl

theorem perform_ask (nd : Node) (c : ContactCall) (s : State) :
    (Prog.ask (σ := ContactSig) c).perform (contactReply nd) s = contactReply nd c s := rfl

variable {p : Work α}

theorem serializePeer_safe (h : Safe Γ (contacts nd p)) : Safe Γ (contacts nd (serializePeer peerMXID p)) := by
  intro s hs
  rw [contacts_serializePeer]
  exact h s hs

theorem work_pure (a : α) : Safe Γ (contacts nd (pure a : Work α)) := .progPure fun _ hs => hs

theorem work_bind (h : Safe Γ (contacts nd p)) (hf : ∀ a, Safe Γ (contacts nd (f a))) :
    Safe Γ (contacts nd (p >>= f)) :=
  .progBind h hf

/-- What a program answers has a property that typed tables give it. -/
theorem work_bindWith {f : α → Work β} {φ : α → Prop}
    (h : Handler.Runs (Typed Γ) (contacts nd p) fun a s => Typed Γ s ∧ φ a) (hf : ∀ a, φ a → Safe Γ (contacts nd (f a))) :
    Safe Γ (contacts nd (p >>= f)) :=
  .progBind h fun a => .assuming (hf a)

theorem lookupByRoom_typed (roomID : String) :
    Handler.Runs (Typed Γ) (contacts nd (lookupByRoom roomID)) fun found s => Typed Γ s ∧ ∀ c, found = some c → Γ.Contact c := by
  unfold lookupByRoom
  split
  · exact .progPure fun s hs => ⟨hs, by simp⟩
  · refine .prog fun s hs => ⟨_, s, rfl, hs, fun c hc => ?_⟩
    exact hs.contacts c (List.mem_of_find?_eq_some hc)

theorem contactByPeer_typed (peerMXID : String) :
    Handler.Runs (Typed Γ) (contacts nd (ExceptT.mk (Prog.ask (σ := ContactSig) (.contactByPeer peerMXID))))
      fun found s => Typed Γ s ∧ ∀ c, found = some c → Γ.Contact c ∧ c.peerMXID = peerMXID := by
  refine .prog fun s hs => ⟨_, s, rfl, hs, fun c hc => ?_⟩
  obtain ⟨hmem, hpeer⟩ := (Rows.find_eq_some _).mp hc
  exact ⟨hs.contacts c hmem, hpeer⟩

/-- In typed tables a contact can take the place of another with its peer. -/
theorem replace_typed {t : ContactTable} (hrows : ∀ c ∈ t.rows.rows, Γ.Contact c) (hcontact : Γ.Contact contact)
    (hpeer : contact.peerMXID = peerMXID) : ∃ t', t.replace peerMXID contact = some t' ∧ ∀ c ∈ t'.rows.rows, Γ.Contact c := by
  subst hpeer
  have hother : ∀ row ∈ (t.rows.delete (·.peerMXID = contact.peerMXID)).rows,
      row.peerMXID ≠ contact.peerMXID ∧ row.roomID ≠ contact.roomID := by
    intro row hrow
    obtain ⟨hmem, hne⟩ := List.mem_filter.mp hrow
    have hpeer : row.peerMXID ≠ contact.peerMXID := by simpa using hne
    refine ⟨hpeer, fun hroom => hpeer ?_⟩
    rw [← (hrows row hmem).peer, ← hcontact.peer, hroom]
  unfold ContactTable.replace
  rw [dif_pos hother]
  refine ⟨_, rfl, fun c hc => ?_⟩
  obtain rfl | ⟨hc, -⟩ := Rows.mem_put.mp hc
  · exact hcontact
  · exact hrows c (List.mem_filter.mp hc).1

theorem upsertContact_safe (hcontact : Γ.Contact contact) :
    Safe Γ (contacts nd (ExceptT.mk (Prog.ask (σ := ContactSig) (.upsertContact contact)) : Work Unit)) := by
  refine .prog fun s hs => ?_
  -- the request id may be the one of the row
  have hstored : ∀ requestID, Γ.Contact { contact with requestID } := fun _ => { hcontact with }
  obtain ⟨t', hupsert, hrows⟩ : ∃ t', s.tables.contacts.upsert contact = some t' ∧ ∀ c ∈ t'.rows.rows, Γ.Contact c :=
    replace_typed hs.contacts (hstored _) rfl
  refine ⟨(), { s with tables := { s.tables with contacts := t' } }, (perform_ask nd _ s).trans ?_, hs.conversations,
    hs.channels, hrows⟩
  simp only [contactReply, hupsert]
  rfl

theorem askSaveConversation_safe (hrecord : Γ.Conversation record) :
    Safe Γ (contacts nd (ExceptT.mk (Prog.ask (σ := ContactSig) (.saveConversation record)) : Work Unit)) := by
  refine .prog fun s hs => ?_
  obtain ⟨t', hupsert, hrows, -⟩ := upsert_typed hs.conversations hrecord
  refine ⟨(), { s with tables := { s.tables with conversations := t' } }, (perform_ask nd _ s).trans ?_, hrows, hs.channels,
    hs.contacts⟩
  simp only [contactReply, hupsert]
  rfl

theorem askDeleteKindByRoom_safe (kind : ConversationKind) (roomID : String) :
    Safe Γ (contacts nd (Contacts.deleteKindByRoom kind roomID)) := by
  unfold Contacts.deleteKindByRoom
  split
  · exact work_pure ()
  refine work_bind (.prog fun s hs => ⟨_, s, rfl, hs⟩) fun record => ?_
  split
  · exact .prog fun s hs => ⟨(), _, rfl, hs.delete _⟩
  · exact work_pure ()

theorem conversationFromContact_typed (hcontact : Γ.Contact contact) : Γ.Conversation (conversationFromContact contact) :=
  ⟨hcontact.room, hcontact.kind.symm⟩

theorem projectSaved_safe (hcontact : Γ.Contact contact) (replaced : List String) :
    Safe Γ (contacts nd (projectSaved contact replaced)) := by
  have hreplaced : Safe Γ (contacts nd (replaced.forM (Contacts.deleteKindByRoom .direct))) := by
    induction replaced with
    | nil => exact work_pure ()
    | cons roomID rest ih => exact work_bind (askDeleteKindByRoom_safe .direct roomID) fun _ => ih
  refine work_bind hreplaced fun _ => ?_
  have hsave :
      Safe Γ (contacts nd (.mk (.ask (σ := ContactSig) (.saveConversation (conversationFromContact contact))) : Work Unit)) :=
    askSaveConversation_safe (conversationFromContact_typed hcontact)
  rw [if_pos hcontact.room.2]
  refine work_bind (.prog fun s hs => ⟨(), _, rfl, hs.conversations, hs.channels, hs.contacts⟩) fun _ => ?_
  exact work_bind (askDeleteKindByRoom_safe .group _) fun _ => hsave

theorem save_safe (hcontact : Γ.Contact contact) : Safe Γ (contacts nd (save contact)) := by
  intro s hs
  rw [contacts_save]
  refine (?_ : Safe Γ (contacts nd (saveLocked contact))) s hs
  refine work_bind (.prog fun s hs => ⟨_, s, rfl, hs⟩) fun rows => ?_
  refine work_bind (.prog fun s hs => ⟨_, s, rfl, hs⟩) fun conversations => ?_
  exact work_bind (upsertContact_safe hcontact) fun _ => projectSaved_safe hcontact _

theorem projectContact_typed {t : Conversations} (hrows : ∀ r ∈ t.rows, Γ.Conversation r) (hcontact : Γ.Contact contact) :
    ∃ t', t.projectContact contact = some t' ∧ ∀ r ∈ t'.rows, Γ.Conversation r := by
  have hdelete : ∀ (t : Conversations) (p : ConversationRecord → Bool), (∀ r ∈ t.rows, Γ.Conversation r) →
      ∀ r ∈ (t.delete p).rows, Γ.Conversation r := fun t p h r hr => h r (List.mem_filter.mp hr).1
  unfold Conversations.projectContact
  dsimp only
  rw [if_pos hcontact.named]
  obtain ⟨t', hupsert, hrows', -⟩ := upsert_typed (hdelete _ _ (hdelete _ _ hrows)) (conversationFromContact_typed hcontact)
  exact ⟨t', hupsert, hrows'⟩

/-- A compare-and-swap that keeps the peer. -/
theorem saveProjectionIfCurrent_safe (hcontact : Γ.Contact contact) (hpeer : contact.peerMXID = expected.peerMXID) :
    Safe Γ (contacts nd (saveProjectionIfCurrent contact expected)) := by
  refine .prog fun s hs => ?_
  obtain ⟨contacts', hreplace, hcontacts⟩ := replace_typed hs.contacts hcontact hpeer
  obtain ⟨conversations', hproject, hconversations⟩ := projectContact_typed hs.conversations hcontact
  have hswap : s.tables.compareAndSwap contact expected = some (false, s.tables) ∨
      s.tables.compareAndSwap contact expected =
        some (true, ⟨contacts', conversations', s.tables.groups.delete (·.roomID = contact.roomID)⟩) := by
    unfold Tables.compareAndSwap
    rw [if_neg (by rw [hcontact.room.1]; exact hcontact.room.2)]
    split
    · exact .inl rfl
    split
    · exact .inl rfl
    right
    rw [hreplace, hproject]
    rfl
  have hanswer := perform_ask nd (.compareAndSwap contact expected) s
  obtain hswap | hswap := hswap
  · refine ⟨false, s, hanswer.trans ?_, hs⟩
    simp only [contactReply, hswap]
    rfl
  · refine ⟨true, { s with tables := ⟨contacts', conversations', s.tables.groups.delete (·.roomID = contact.roomID)⟩ },
      hanswer.trans ?_, hconversations, hs.channels, hcontacts⟩
    simp only [contactReply, hswap]
    rfl

structure Node.Answers (nd : Node) : Prop where
  blocked : ∀ peerMXID, ∃ b, nd.outside (.peerBlocked peerMXID) = .ok b
  reinvited : ∀ contact, ∃ b, nd.outside (.reinviteAcceptedContact contact) = .ok b
  joined : ∀ roomID, ∃ joined, nd.outside (.joinReplacementRoom roomID) = .ok joined ∧ (trimSpace joined = "" ∨ joined = roomID)
  appended : ∀ type roomID, nd.outside (.appendEvent type roomID) = .ok ()

section

variable (hnode : nd.Answers)
include hnode

theorem saveRequested_safe (hcontact : Γ.Contact contact) : Safe Γ (contacts nd (saveRequested contact)) := by
  refine work_bind (save_safe hcontact) fun _ => .prog fun s hs => ⟨(), s, ?_, hs⟩
  show (nd.outside (.appendEvent "contact.requested" contact.roomID), s) = _
  rw [hnode.appended]
  rfl

theorem acceptReplacementDirectInvite_safe (hinvite : Γ.Contact invite)
    (hpeer : existing.peerMXID = invite.peerMXID) : Safe Γ (contacts nd (acceptReplacementDirectInvite existing invite)) := by
  unfold acceptReplacementDirectInvite
  rw [hinvite.room.1, if_neg hinvite.room.2]
  obtain ⟨joined, hjoined, hroom⟩ := hnode.joined invite.roomID
  refine work_bindWith (φ := fun room => room = joined)
    (.prog fun s hs => ⟨joined, s, ?_, hs, rfl⟩) fun room hjoin => save_safe ?_
  · show (nd.outside (.joinReplacementRoom invite.roomID), s) = _
    rw [hjoined]
    rfl
  · have hnew : (if trimSpace room ≠ "" then room else invite.roomID) = invite.roomID := by
      rw [hjoin]
      obtain hblank | rfl := hroom
      · rw [if_neg (not_not.mpr hblank)]
      · split <;> rfl
    rw [hnew]
    exact ⟨hinvite.room, hinvite.kind, hinvite.peer.trans hpeer.symm, by rw [replacement]; rw [hpeer]; exact hinvite.named⟩

theorem reinvite_safe (contact : ContactRecord) :
    Safe Γ (contacts nd (reinviteAcceptedContactToRetainedRoom contact)) := by
  unfold reinviteAcceptedContactToRetainedRoom
  split
  · exact work_pure true
  obtain ⟨b, hb⟩ := hnode.reinvited contact
  refine work_bind (.prog fun s hs => ⟨b, s, ?_, hs⟩) fun b => work_pure _
  show (nd.outside (.reinviteAcceptedContact contact), s) = _
  rw [hb]
  rfl

theorem savePendingInboundContact_safe (hcontact : Γ.Contact contact) :
    Safe Γ (contacts nd (savePendingInboundContact contact)) := by
  refine serializePeer_safe ?_
  obtain ⟨b, hb⟩ := hnode.blocked contact.peerMXID
  refine work_bind (.prog fun s hs => ⟨b, s, ?_, hs⟩) fun blocked => ?_
  · show (nd.outside (.peerBlocked contact.peerMXID), s) = _
    rw [hb]
    rfl
  split
  · exact work_pure ()
  refine work_bindWith (contactByPeer_typed contact.peerMXID) fun found hfound => ?_
  cases found with
  | none => exact saveRequested_safe hnode hcontact
  | some existing =>
    have hreplace := acceptReplacementDirectInvite_safe hnode hcontact (hfound existing rfl).2
    dsimp only
    split
    · refine work_bind (reinvite_safe hnode existing) fun retained => ?_
      split
      · exact work_pure ()
      · exact hreplace
    · split
      · exact hreplace
      split
      · exact work_pure ()
      · exact saveRequested_safe hnode hcontact

end

theorem projectOwnerDirectContactJoin_safe (roomID : String) : Safe Γ (contacts nd (projectOwnerDirectContactJoin roomID)) := by
  refine work_bindWith (lookupByRoom_typed roomID) fun found _ => ?_
  cases found with
  | none => exact work_pure ()
  | some contact =>
    dsimp only
    split
    · exact work_pure ()
    refine serializePeer_safe (work_bindWith (lookupByRoom_typed roomID) fun found hfound => ?_)
    cases found with
    | none => exact work_pure ()
    | some current =>
      have hcurrent := hfound current rfl
      dsimp only
      split
      · exact work_pure ()
      · refine work_bind (saveProjectionIfCurrent_safe ?_ rfl) fun _ => work_pure ()
        exact { hcurrent with }

theorem projectDirectContactMember_safe (member : JoinedMember) :
    Safe Γ (contacts nd (projectDirectContactMember member)) := by
  refine serializePeer_safe (work_bindWith (lookupByRoom_typed member.roomID) fun found hfound => ?_)
  cases found with
  | none => exact work_pure ()
  | some contact =>
    have hcontact := hfound contact rfl
    have hpeer : (member.update contact).peerMXID = contact.peerMXID := if_neg hcontact.named
    dsimp only
    split
    · exact work_pure ()
    split
    · exact work_pure ()
    · refine work_bind (saveProjectionIfCurrent_safe ?_ hpeer) fun _ => work_pure ()
      exact ⟨hcontact.room, hcontact.kind, hcontact.peer.trans hpeer.symm, hpeer ▸ hcontact.named⟩

theorem markDeletedForPeer_safe (roomID peerMXID : String) : Safe Γ (contacts nd (markDeletedForPeer roomID peerMXID)) := by
  refine work_bindWith (lookupByRoom_typed roomID) fun found hfound => ?_
  cases found with
  | none => exact work_pure ()
  | some contact =>
    have hcontact := hfound contact rfl
    dsimp only
    split
    · exact work_pure ()
    rename_i hsame
    have hpeer : (if peerMXID ≠ "" then peerMXID else contact.peerMXID) = contact.peerMXID := by
      split
      · rename_i hnamed
        by_contra hne
        exact hsame ⟨hnamed, hcontact.named, fun h => hne h.symm⟩
      · rfl
    rw [hpeer]
    exact save_safe { hcontact with }

theorem markDirectContactDeleted_safe (roomID peerMXID : String) :
    Safe Γ (contacts nd (markDirectContactDeleted roomID peerMXID)) := by
  unfold markDirectContactDeleted
  split
  · exact serializePeer_safe (markDeletedForPeer_safe roomID peerMXID)
  refine work_bindWith (lookupByRoom_typed roomID) fun found _ => ?_
  cases found with
  | none => exact work_pure ()
  | some contact => exact serializePeer_safe (markDeletedForPeer_safe roomID peerMXID)

end ContactPrograms

/-! ## Events -/

/-- The member event may leave the owner invited. -/
def RoomEvent.InvitesOwner (nd : Node) (e : RoomEvent) (content : Params) : Prop :=
  (e.member nd content).user = nd.ownerMXID ∧
    ∃ channelID existing, equalFold ((e.member nd content).record channelID existing).membership "invite" = true

structure Fits (Γ : Typing) (nd : Node) (e : RoomEvent) : Prop where
  room : ValidRoomID e.roomID
  decodes : e.content ≠ none
  create : e.type = "m.room.create" → ∀ content kind, e.content = some content →
    (kindFromRoomType (content.string "type")).filter groupOrChannel = some kind → kind = Γ.kind e.roomID
  profile : e.type = "io.dirextalk.room.profile" → ∀ content kind, e.content = some content →
    kindFromRoomType (content.string "room_type") = some kind → kind = Γ.kind e.roomID
  contact : e.type = "m.room.member" → ∀ content contact, e.content = some content → e.InvitesOwner nd content →
    (e.invite content).contact nd.ownerMXID = some contact → Γ.Contact contact
  product : e.type = "m.room.member" →
    ∀ content profile, e.content = some content → e.InvitesOwner nd content → productInvite e = some profile →
    if profile.string "room_type" = "io.dirextalk.room.group" then
      ValidRoomID (invitedGroup e profile).roomID ∧ Γ.kind (invitedGroup e profile).roomID = .group
    else Γ.Channel (invitedChannel e profile)

section Events

variable {Γ : Typing} {nd : Node} {e : RoomEvent} {content : Params}

theorem decoded_safe (hdecodes : e.content ≠ none) (h : ∀ content, e.content = some content → Safe Γ (f content)) :
    Safe Γ (e.decoded >>= f) := by
  obtain ⟨content, hcontent⟩ := Option.ne_none_iff_exists'.mp hdecodes
  have hdecoded : e.decoded = pure content := by simp [RoomEvent.decoded, hcontent]
  rw [hdecoded, pure_bind]
  exact h content hcontent

theorem projectRoomCreate_safe (h : Fits Γ nd e) (htype : e.type = "m.room.create") : Safe Γ (projectRoomCreate nd e) := by
  unfold projectRoomCreate
  split
  · exact .pure ()
  refine decoded_safe h.decodes fun content hcontent => ?_
  have hkind := h.create htype content
  refine Handler.Runs.bind (Q := fun record s => Typed Γ s ∧ record = s.tables.conversations.find e.roomID)
    (.reads fun s hs => ⟨hs, rfl⟩) fun record => ?_
  intro s hs
  cases record with
  | some record =>
    dsimp only
    have hfind := hs.2.symm
    have hrow := hs.1.conversations record ((Rows.find_eq_some _).mp hfind).1
    have hsame : ∀ kind, (kindFromRoomType (content.string "type")).filter groupOrChannel = some kind → kind = record.kind := by
      intro kind hk
      rw [hkind kind hcontent hk, hrow.kind, Rows.key_of_find hfind]
    split
    · exact ⟨(), s, rfl, hs.1⟩
    split
    · rename_i hconflict
      obtain ⟨kind, hk, hne⟩ := (Option.any_eq_true ..).mp hconflict
      simp [hsame kind hk] at hne
    · exact projectCreator_safe h.room s ⟨hs.1, by rw [hfind]; rfl⟩
  | none =>
    cases hk : (kindFromRoomType (content.string "type")).filter groupOrChannel with
    | none => exact ⟨(), s, rfl, hs.1⟩
    | some kind =>
      have hrecord : Γ.Conversation (createdConversation e kind) := ⟨h.room, hkind kind hcontent hk⟩
      have hsave := saveConversation_found hrecord
      exact (hsave.bind fun _ => projectCreator_safe h.room) s hs.1

theorem projectChannelProfileContent_safe (hroom : ValidRoomID e.roomID) (hkind : Γ.kind e.roomID = .channel) :
    Safe Γ (projectChannelProfileContent e content) := by
  refine .bind (.reads _) fun inRoom => ?_
  refine .bind (.reads _) fun existing => ?_
  split
  · exact deleteChannel_safe _
  · exact upsertChannel_safe ⟨hroom, hkind⟩

theorem projectGroupProfileContent_safe (hroom : ValidRoomID e.roomID) (hkind : Γ.kind e.roomID = .group) :
    Safe Γ (projectGroupProfileContent e content) := by
  unfold projectGroupProfileContent
  split
  · exact deleteGroup_safe _
  · exact .bind (.reads _) fun existing => saveGroup_safe hroom hkind

theorem projectDirectProfileContent_safe : Safe Γ (projectDirectProfileContent nd e content) := by
  refine .bind (deleteGroup_safe _) fun _ => ?_
  split
  · exact markDirectContactDeleted_safe _ _
  · exact .pure ()

theorem projectProfile_safe (hroom : ValidRoomID e.roomID) (hkind : kind = Γ.kind e.roomID) :
    Safe Γ (projectProfile nd e kind content) := by
  refine .bind (saveConversation_safe ⟨hroom, hkind⟩) fun _ => ?_
  cases kind with
  | channel => exact projectChannelProfileContent_safe hroom hkind.symm
  | group => exact projectGroupProfileContent_safe hroom hkind.symm
  | direct => exact projectDirectProfileContent_safe
  | agent | system => exact .pure ()

theorem projectRoomProfileState_safe (h : Fits Γ nd e) (htype : e.type = "io.dirextalk.room.profile") :
    Safe Γ (projectRoomProfileState nd e) := by
  refine decoded_safe h.decodes fun content hcontent => ?_
  cases hkind : kindFromRoomType (content.string "room_type") with
  | none => exact .pure ()
  | some kind =>
    have hprofile : Safe Γ (projectProfile nd e kind content) :=
      projectProfile_safe h.room (h.profile htype content kind hcontent hkind)
    cases kind with
    | direct => exact .bind (deleteGroup_safe _) fun _ => hprofile
    | group | channel | agent | system => exact hprofile

theorem projectMemberPolicyState_safe (h : Fits Γ nd e) : Safe Γ (projectMemberPolicyState nd e) := by
  refine decoded_safe h.decodes fun content _ => ?_
  dsimp only
  split
  · exact .pure ()
  · exact .bind (.reads _) fun existing => saveMember_safe _

theorem projectJoinRequestState_safe (h : Fits Γ nd e) : Safe Γ (projectJoinRequestState nd e) := by
  refine decoded_safe h.decodes fun content _ => ?_
  dsimp only
  split
  · exact .pure ()
  refine .bind (.reads _) fun existing => ?_
  split
  · exact .pure ()
  · exact saveJoinRequest_safe _ existing

theorem channelIDForRoom_safe (roomID : String) : Safe Γ (channelIDForRoom roomID) := by
  unfold channelIDForRoom
  split
  · exact .pure ""
  · exact .bind (.reads _) fun _ => .pure _

theorem projectProductInvite_safe (member : MemberRecord)
    (h : if profile.string "room_type" = "io.dirextalk.room.group" then
        ValidRoomID (invitedGroup e profile).roomID ∧ Γ.kind (invitedGroup e profile).roomID = .group
      else Γ.Channel (invitedChannel e profile)) : Safe Γ (projectProductInvite nd e member profile) := by
  unfold projectProductInvite
  split
  · rename_i hgroup
    rw [if_pos hgroup] at h
    exact .bind (saveGroup_safe h.1 h.2) fun _ => saveMember_safe _
  · rename_i hchannel
    rw [if_neg hchannel] at h
    exact .bind (saveChannel_safe h) fun _ => saveMember_safe _

theorem projectContactJoin_safe (member : MemberRecord) : Safe Γ (projectContactJoin nd member content) := by
  unfold projectContactJoin
  split
  · exact projectOwnerDirectContactJoin_safe _
  · exact projectDirectContactMember_safe _

theorem projectMember_safe (hnode : nd.Answers) (h : Fits Γ nd e) (htype : e.type = "m.room.member") :
    Safe Γ (projectMember nd e) := by
  refine decoded_safe h.decodes fun content hcontent => ?_
  refine .bind (channelIDForRoom_safe _) fun ofRoom => .bind (.reads _) fun existing => ?_
  split
  · exact .pure ()
  dsimp only
  generalize (if (if (e.member nd content).channelID = "" then ofRoom else (e.member nd content).channelID) = "" then
    (existing.map (·.channelID)).getD "" else _) = channelID
  have hinvites : equalFold ((e.member nd content).record channelID (existing.getD .zero)).membership "invite" = true →
      (e.member nd content).user = nd.ownerMXID → e.InvitesOwner nd content :=
        fun hinvite howner => ⟨howner, channelID, _, hinvite⟩
  cases hcontact : invitedContact nd e content ((e.member nd content).record channelID (existing.getD .zero)) with
  | some contact =>
    unfold invitedContact at hcontact
    split at hcontact
    · rename_i hinvite
      exact savePendingInboundContact_safe hnode
        (h.contact htype content contact hcontent (hinvites hinvite.2.1 hinvite.2.2) hcontact)
    · cases hcontact
  | none =>
    refine .bind (saveMember_safe _) fun _ => ?_
    dsimp only
    cases hproduct : (productInvite e).filter _ with
    | some profile =>
      obtain ⟨hprofile, hinvited⟩ := Option.filter_eq_some_iff.mp hproduct
      simp only [Bool.and_eq_true, decide_eq_true_eq] at hinvited
      exact projectProductInvite_safe _ (h.product htype content profile hcontent (hinvites hinvited.1.1 hinvited.2) hprofile)
    | none =>
      dsimp only
      split
      · exact projectContactJoin_safe _
      · exact .pure ()

theorem projectContent_safe (type : Content.EventType) : Safe Γ (projectContent nd e type content) :=
  .modifies fun _ hs => { hs with }

theorem projectConversationActivity_safe : Safe Γ (projectConversationActivity e content) := by
  refine .bindReads (φ := fun record => ∀ r, record = some r → Γ.Conversation r)
    (fun s hs r hr => hs.conversations r ((Rows.find_eq_some _).mp hr).1) fun record hrecord => ?_
  cases record with
  | none => exact .pure ()
  | some record =>
    have hrow := hrecord record rfl
    exact saveConversation_safe ⟨hrow.room, hrow.kind⟩

theorem shouldProjectRoomMessage_safe : Safe Γ (shouldProjectRoomMessage nd e content) := by
  refine .bind (channelIDForRoom_safe _) fun channelID => .bind (.reads _) fun group => ?_
  exact .bind ((lookupByRoom_typed _).mono fun _ _ hs => hs.1) fun contact => .pure _

theorem projectMessage_safe (h : Fits Γ nd e) : Safe Γ (projectMessage nd e) := by
  refine decoded_safe h.decodes fun content _ => ?_
  split
  · exact .pure ()
  refine .bind shouldProjectRoomMessage_safe fun should => ?_
  split
  · split
    · exact projectConversationActivity_safe
    · exact projectContent_safe _
  · exact .pure ()

/-- The output keeps to the typing; a redaction always does. -/
def OutputEvent.Fits (Γ : Typing) (nd : Node) : OutputEvent → Prop
  | .room event => Projector.Fits Γ nd event
  | .redacted _ => True

theorem projectOutputEvent_safe (hnode : nd.Answers) (h : output.Fits Γ nd) : Safe Γ (projectOutputEvent nd output) := by
  cases output with
  | redacted eventID => exact .modifies fun _ hs => { hs with }
  | room e =>
    show Safe Γ (projectRoomEvent nd e)
    unfold projectRoomEvent
    split
    · rename_i htype
      exact projectRoomCreate_safe h htype
    split
    · exact projectMessage_safe h
    split
    · exact decoded_safe h.decodes fun content _ => projectContent_safe _
    split
    · exact .pure ()
    split
    · rename_i htype
      exact projectMember_safe hnode h htype
    split
    · rename_i htype
      exact projectRoomProfileState_safe h htype
    split
    · exact decoded_safe h.decodes fun content _ => projectContent_safe _
    split
    · exact projectMemberPolicyState_safe h
    split
    · exact projectJoinRequestState_safe h
    · exact .pure ()

end Events

/-! ## Runs -/

inductive Change where
  | deliver (nd : Node) (output : OutputEvent)
  | write

/-- A delivery of an event that keeps to the typing, on a node that is answered, or a write of somebody else
that leaves the tables typed. -/
inductive Step (Γ : Typing) : State → Change → State → Prop
  | deliver {s : State} {nd : Node} {output : OutputEvent} : nd.Answers → output.Fits Γ nd →
      Step Γ s (.deliver nd output) ((projectOutputEvent nd output).outcome s).2
  | write {s s' : State} : Typed Γ s' → Step Γ s .write s'

theorem Step.typed (h : Step Γ s change s') (hs : Typed Γ s) : Typed Γ s' := by
  cases h with
  | deliver hnode hfits =>
    obtain ⟨_, s', hrun, hs'⟩ := projectOutputEvent_safe hnode hfits s hs
    rwa [hrun]
  | write hs' => exact hs'

/-- A node that joins the rooms it is told to. -/
def Node.joining (ownerMXID : String) : Node :=
  { Node.calm ownerMXID with
    outside := fun c =>
      match c with
      | .joinReplacementRoom roomID => .ok roomID
      | c => c.calm }

def channelCreated : RoomEvent where
  type := "m.room.create"
  roomID := "!r:home"
  eventID := "$create"
  sender := "@peer:home"
  stateKey := some ""
  originServerTS := 1
  content := some fun key => if key = "type" then some (.string "io.dirextalk.room.channel") else none
  inviteRoomState := []

theorem channelCreated_fits : Fits ⟨fun _ => .channel, fun _ => ""⟩ nd channelCreated where
  room := ⟨by decide, by decide⟩
  decodes := by simp [channelCreated]
  create := by
    intro _ content kind hcontent hkind
    cases hcontent
    exact Option.some.inj (hkind.symm.trans (by decide))
  profile := fun h => absurd h (by decide)
  contact := fun h => absurd h (by decide)
  product := fun h => absurd h (by decide)

def groupProfiled : RoomEvent :=
  { channelCreated with
    type := "io.dirextalk.room.profile"
    eventID := "$profile"
    content := some fun key => if key = "room_type" then some (.string "io.dirextalk.room.group") else none }

def directInvite : RoomEvent :=
  { channelCreated with
    type := "m.room.member"
    eventID := "$invite"
    stateKey := some "@owner:home"
    content := some fun key =>
      if key = "membership" then some (.string "invite")
      else if key = "is_direct" then some (.bool true)
      else none }

end Dirextalk.Projector

/-
  Dirextalk.Contacts.Store — contacts and conversations: their records
  (`internal/dirextalkdomain`) and the statements on their tables
  (`p2p/storage/storage_contacts_groups_calls.go`, `conversation_store.go`), with the group
  rows that a contact takes the room from.

  A contact has the primary key of its room and a unique index on its peer; a statement
  that would break one of them fails. A conversation is identified by its room, of which its
  id is a digest. A compare-and-swap writes the contact and its conversation in one
  transaction, an upsert writes the contact alone.
-/
import Dirextalk.Members.Store
import Dirextalk.Lib.Rows

namespace Dirextalk.Contacts

open Lib Lib.Go
open Members (lowerBtrim)

/-! ## Records -/

structure ContactRecord where
  roomID : String
  peerMXID : String
  displayName : String
  displayNameOverride : Bool
  avatarURL : String
  remark : String
  domain : String
  status : String
  requestID : String
  deriving DecidableEq, Repr

def ContactRecord.zero : ContactRecord := ⟨"", "", "", false, "", "", "", "", ""⟩

def acceptedStatus (status : String) : Bool := equalFold (trimSpace status) "accepted"

def contactDeleted (status : String) : Bool := equalFold (trimSpace status) "deleted"

inductive ConversationKind where
  | direct
  | group
  | channel
  | agent
  | system
  deriving DecidableEq, Repr

inductive Lifecycle where
  | active
  | pending
  | left
  | dissolved
  | deleted
  | blocked
  deriving DecidableEq, Repr

inductive ProjectionState where
  | ready
  | pending
  | conflict
  | failed

structure ConversationRecord where
  matrixRoomID : String
  kind : ConversationKind
  lifecycle : Lifecycle
  createdByMXID : String
  peerMXID : String
  title : String
  avatarURL : String
  lastEventID : String
  lastMessage : String
  lastActivityAt : Int
  projectionState : ProjectionState
  projectionReason : String

/-- A record with nothing but its room and kind. -/
def ConversationRecord.of (matrixRoomID : String) (kind : ConversationKind) : ConversationRecord :=
  ⟨matrixRoomID, kind, .active, "", "", "", "", "", "", 0, .ready, ""⟩

/-- `NormalizeConversationRecord`. -/
def normalizeConversationRecord (r : ConversationRecord) : ConversationRecord :=
  { r with
    matrixRoomID := trimSpace r.matrixRoomID
    createdByMXID := trimSpace r.createdByMXID
    peerMXID := trimSpace r.peerMXID
    title := trimSpace r.title
    avatarURL := trimSpace r.avatarURL
    lastEventID := trimSpace r.lastEventID
    lastMessage := trimSpace r.lastMessage
    projectionReason := trimSpace r.projectionReason }

def contactLifecycle (status : String) : Lifecycle :=
  if contactDeleted status then .deleted
  else if !equalFold status "accepted" then .pending
  else .active

/-- `FallbackString`, which does not trim. -/
def fallbackRaw (value fallback : String) : String := if trimSpace value ≠ "" then value else fallback

def conversationFromContact (contact : ContactRecord) : ConversationRecord :=
  { ConversationRecord.of contact.roomID .direct with
    lifecycle := contactLifecycle contact.status
    peerMXID := contact.peerMXID
    title := fallbackRaw contact.displayName contact.peerMXID
    avatarURL := contact.avatarURL }

structure GroupRecord where
  roomID : String
  name : String
  topic : String
  avatarURL : String
  memberCount : Int
  invitePolicy : String
  muted : Bool

/-! ## Contacts -/

structure ContactTable where
  rows : Rows ContactRecord.peerMXID
  /-- the primary key -/
  rooms : (rows.rows.map (·.roomID)).Nodup

namespace ContactTable

def empty : ContactTable := ⟨.empty, List.nodup_nil⟩

def byPeer (t : ContactTable) (peerMXID : String) : Option ContactRecord := t.rows.find peerMXID

def byRoom (t : ContactTable) (roomID : String) : Option ContactRecord := t.rows.rows.find? (·.roomID = roomID)

/-- The rows with `contact` in place of the row of a peer, if no other row has its peer or its room. -/
def replace (t : ContactTable) (peerMXID : String) (contact : ContactRecord) : Option ContactTable :=
  let others := t.rows.delete (·.peerMXID = peerMXID)
  if h : ∀ row ∈ others.rows, row.peerMXID ≠ contact.peerMXID ∧ row.roomID ≠ contact.roomID then
    some {
      rows := others.put contact
      rooms := by
        rw [Rows.rows_put_of_new fun row hrow => (h row hrow).1, List.map_append, List.nodup_append']
        refine ⟨t.rooms.sublist (List.filter_sublist.map _), by simp, ?_⟩
        intro room hroom hnew
        obtain ⟨row, hrow, rfl⟩ := List.mem_map.mp hroom
        exact (h row hrow).2 (by simpa using hnew) }
  else none

/-- `UpsertContact`; an empty request id keeps the one of the row. -/
def upsert (t : ContactTable) (contact : ContactRecord) : Option ContactTable :=
  t.replace contact.peerMXID { contact with
    requestID := if contact.requestID ≠ "" then contact.requestID else ((t.byPeer contact.peerMXID).map (·.requestID)).getD "" }

/-- The row is of the generation a compare-and-swap expects. -/
def current (row expected : ContactRecord) : Bool :=
  row.roomID = expected.roomID && row.requestID = expected.requestID && lowerBtrim row.status = lowerBtrim expected.status

variable {t t' : ContactTable} {peerMXID : String} {contact row : ContactRecord}

theorem byPeer_peer (h : t.byPeer peerMXID = some row) : row.peerMXID = peerMXID := Rows.key_of_find h

theorem replace_spec (h : t.replace peerMXID contact = some t') :
    (∀ peer, t'.byPeer peer = if peer = contact.peerMXID then some contact else if peer = peerMXID then none else t.byPeer peer) ∧
      ∀ row, t.byPeer row.peerMXID = some row → row.peerMXID ≠ peerMXID → row.roomID ≠ contact.roomID := by
  unfold replace at h
  dsimp only at h
  split at h
  · rename_i hother
    cases h
    refine ⟨fun peer => ?_, fun row hrow hne => ?_⟩
    · rw [byPeer, Rows.find_put, Rows.find_delete]
      by_cases hpeer : contact.peerMXID = peer
      · rw [if_pos hpeer, if_pos hpeer.symm]
      · rw [if_neg hpeer, if_neg (Ne.symm hpeer)]
        by_cases hold : peer = peerMXID
        · rw [if_pos hold]
          cases hfind : t.rows.find peer with
          | none => rfl
          | some row =>
            have hkey := Rows.key_of_find hfind
            simp [Option.filter, hkey, hold]
        · rw [if_neg hold]
          show (t.rows.find peer).filter _ = t.rows.find peer
          cases hfind : t.rows.find peer with
          | none => rfl
          | some row =>
            have hkey := Rows.key_of_find hfind
            simp [Option.filter, hkey, hold]
    · refine (hother row (List.mem_filter.mpr ⟨(t.rows.find_eq_some.mp hrow).1, by simpa using hne⟩)).2
  · cases h

end ContactTable

/-! ## Conversations -/

abbrev Conversations := Rows ConversationRecord.matrixRoomID

namespace Conversations

/-- `upsertConversation`; it fails without a room, or where the room has a conversation of another kind. -/
def upsert (t : Conversations) (record : ConversationRecord) : Option Conversations :=
  let r := normalizeConversationRecord record
  if r.matrixRoomID = "" then none
  else
    match t.find r.matrixRoomID with
    | none => some (t.put r)
    | some old =>
      if old.kind ≠ r.kind then none
      else some (t.put { r with
        createdByMXID := if old.createdByMXID ≠ "" then old.createdByMXID else r.createdByMXID
        peerMXID := if r.peerMXID ≠ "" then r.peerMXID else old.peerMXID
        title := if r.title ≠ "" then r.title else old.title
        avatarURL := if r.avatarURL ≠ "" then r.avatarURL else old.avatarURL
        lastEventID := if r.lastEventID ≠ "" then r.lastEventID else old.lastEventID
        lastMessage := if r.lastMessage ≠ "" then r.lastMessage else old.lastMessage
        lastActivityAt := if 0 < r.lastActivityAt then r.lastActivityAt else old.lastActivityAt })

theorem upsert_spec {t : Conversations} {record : ConversationRecord} (hroom : trimSpace record.matrixRoomID ≠ "")
    (hkind : ∀ old, t.find (trimSpace record.matrixRoomID) = some old → old.kind = record.kind) :
    ∃ r, t.upsert record = some (t.put r) ∧ r.matrixRoomID = trimSpace record.matrixRoomID ∧ r.kind = record.kind ∧
      r.lifecycle = record.lifecycle := by
  unfold upsert
  rw [if_neg (show (normalizeConversationRecord record).matrixRoomID ≠ "" from hroom)]
  cases hfind : t.find (normalizeConversationRecord record).matrixRoomID with
  | none => exact ⟨_, rfl, rfl, rfl, rfl⟩
  | some old =>
    dsimp only
    rw [if_neg (show ¬old.kind ≠ (normalizeConversationRecord record).kind from not_not.mpr (hkind old hfind))]
    exact ⟨_, rfl, rfl, rfl, rfl⟩

/-- What `ListConversations` returns. -/
def visible (t : Conversations) : List ConversationRecord := t.rows.filter (·.lifecycle ≠ .deleted)

/-- The conversation of a contact takes its room and is the only one with its peer. -/
def projectContact (t : Conversations) (contact : ContactRecord) : Option Conversations :=
  let inRoom := t.delete fun r => r.matrixRoomID = contact.roomID ∧ r.kind ≠ .direct
  let ofPeer :=
    if contact.peerMXID ≠ "" then
      inRoom.delete fun r => r.kind = .direct ∧ r.peerMXID = contact.peerMXID ∧ r.matrixRoomID ≠ contact.roomID
    else inRoom
  upsert ofPeer (conversationFromContact contact)

end Conversations

/-! ## The tables together -/

structure Tables where
  contacts : ContactTable
  conversations : Conversations
  groups : Rows GroupRecord.roomID

def Tables.empty : Tables := ⟨.empty, .empty, .empty⟩

/-- `CompareAndSwapContactProjection`: whether the row was as expected, and the tables then; `none` is an error. -/
def Tables.compareAndSwap (t : Tables) (contact expected : ContactRecord) : Option (Bool × Tables) :=
  if trimSpace contact.roomID = "" then none
  else
    match t.contacts.byPeer expected.peerMXID with
    | none => some (false, t)
    | some row =>
      if !ContactTable.current row expected then some (false, t)
      else do
        let contacts ← t.contacts.replace expected.peerMXID contact
        let conversations ← t.conversations.projectContact contact
        some (true, ⟨contacts, conversations, t.groups.delete (·.roomID = contact.roomID)⟩)

end Dirextalk.Contacts

/-
  Dirextalk.Contacts.System — the contact workflows of a node run next to each other over
  the tables, one call at a time.

  The lock of a peer and the save lock are held by threads of the process; a call that
  wants one that is held waits. A lookup answers the row as it is. A statement that fails
  leaves the tables as they are; one that breaks a key or the kind of a conversation fails.
  Matrix, the other nodes and the rest of the service answer anything and leave the tables
  alone, but the rooms that Matrix answers are ids without blanks around them. A crash loses
  the workflows and the locks.
-/
import Dirextalk.Contacts.Projection
import Dirextalk.Lib.Script

namespace Dirextalk.Contacts

open Lib Lib.Go Dirextalk.Action

/-! ## Requests -/

inductive Request where
  | request (params : Params)
  | accept (params : Params)
  | reject (params : Params)
  | requestDelete (params : Params)
  | delete (params : Params)
  | update (params : Params)
  | reactivate (params : Params)
  /-- an invite of the owner -/
  | invite (event : InviteEvent)
  | ownerJoin (roomID : String)
  | peerJoin (member : JoinedMember)
  /-- a direct room that is dissolved with the account of a peer -/
  | accountDeleted (roomID peerMXID : String)

/-- A workflow without its response. -/
def Request.prog (home : Home) : Request → Prog ContactSig Unit
  | .request params => do let _ ← (Contacts.request home params).run
  | .accept params => do let _ ← (Contacts.requestAccept home params).run
  | .reject params => do let _ ← (Contacts.requestReject home params).run
  | .requestDelete params => do let _ ← (Contacts.requestDelete params).run
  | .delete params => do let _ ← (Contacts.delete params).run
  | .update params => do let _ ← (Contacts.update params).run
  | .reactivate params => do let _ ← (Contacts.reactivate home params).run
  | .invite event =>
    match event.contact home.ownerMXID with
    | some contact => do let _ ← (savePendingInboundContact contact).run
    | none => return ()
  | .ownerJoin roomID => do let _ ← (projectOwnerDirectContactJoin roomID).run
  | .peerJoin member => do let _ ← (projectDirectContactMember member).run
  | .accountDeleted roomID peerMXID => do let _ ← (markDirectContactDeleted roomID peerMXID).run

/-! ## The world -/

structure Saving where
  thread : Nat
  contact : ContactRecord
  /-- its contact is written -/
  wrote : Bool

structure World where
  tables : Tables
  locks : String → Option Nat
  saving : Option Saving

def World.start (tables : Tables) : World := ⟨tables, fun _ => none, none⟩

/-- The rooms that Matrix answers have no blanks around them. -/
def OutsideCall.Proper : (c : OutsideCall) → c.Ans → Prop
  | .createRoom _ _ _ _, r => ∀ roomID, r = .ok roomID → trimSpace roomID = roomID
  | .joinReplacementRoom _, r => ∀ roomID, r = .ok roomID → trimSpace roomID = roomID
  | .joinRoom _ _ _ _, r => trimSpace r.roomID = r.roomID
  | _, _ => True

def Looks {α : Type} (found : α) (r : Except String α) : Prop := (∃ err, r = .error err) ∨ r = .ok found

/-- A statement that goes through, or fails and leaves everything as it is; `none` always fails. -/
def Writes {α β : Type} (result : Option (α × β)) (before : β) (r : Except String α) (after : β) : Prop :=
  (∃ err, r = .error err) ∧ after = before ∨ ∃ a, r = .ok a ∧ result = some (a, after)

def ContactCall.Exec (t : Nat) : (c : ContactCall) → World → c.Ans → World → Prop
  | .lock key, w, _, w' => w.locks key = none ∧ w' = { w with locks := Function.update w.locks key (some t) }
  | .unlock key, w, _, w' => w' = { w with locks := Function.update w.locks key none }
  | .lockSave contact, w, _, w' => w.saving = none ∧ w' = { w with saving := some ⟨t, contact, false⟩ }
  | .unlockSave, w, _, w' => w' = { w with saving := none }
  | .contactByRoom roomID, w, r, w' => w' = w ∧ Looks (w.tables.contacts.byRoom roomID) r
  | .contactByPeer peerMXID, w, r, w' => w' = w ∧ Looks (w.tables.contacts.byPeer peerMXID) r
  | .listContacts, w, r, w' => w' = w ∧ ∀ l, r = .ok l → ∀ contact, contact ∈ l ↔ contact ∈ w.tables.contacts.rows.rows
  | .listConversations, w, r, w' => w' = w ∧ ∀ l, r = .ok l → ∀ record, record ∈ l ↔ record ∈ w.tables.conversations.visible
  | .conversationByRoom roomID, w, r, w' => w' = w ∧ Looks (w.tables.conversations.find roomID) r
  | .upsertContact contact, w, r, w' =>
    Writes ((w.tables.contacts.upsert contact).map fun contacts =>
      ((), { w with tables := { w.tables with contacts := contacts }, saving := w.saving.map ({ · with wrote := true }) })) w r w'
  | .compareAndSwap contact expected, w, r, w' =>
    Writes ((w.tables.compareAndSwap contact expected).map fun p => (p.1, { w with tables := p.2 })) w r w'
  | .saveConversation record, w, r, w' =>
    Writes ((w.tables.conversations.upsert record).map fun conversations =>
      ((), { w with tables := { w.tables with conversations := conversations } })) w r w'
  | .deleteConversation roomID, w, r, w' =>
    Writes (some ((),
      { w with tables := { w.tables with conversations := w.tables.conversations.delete (·.matrixRoomID = roomID) } })) w r w'
  | .deleteGroup roomID, w, r, w' =>
    Writes (some ((), { w with tables := { w.tables with groups := w.tables.groups.delete (·.roomID = roomID) } })) w r w'
  | .outside c, w, r, w' => w' = w ∧ c.Proper r

def system (home : Home) : Machine ContactSig Request World where
  entry := Request.prog home
  exec t _ c w r w' := c.Exec t w r w'
  crash w w' := w' = World.start w.tables

/-! ## What a call does -/

variable {t : Nat} {w w' : World} {c : ContactCall} {r : c.Ans}

section

variable (h : c.Exec t w r w')
include h

theorem ContactCall.exec_contacts : w'.tables.contacts = w.tables.contacts ∨
    (∃ contact, c = .upsertContact contact ∧ w.tables.contacts.upsert contact = some w'.tables.contacts) ∨
    ∃ contact expected row, c = .compareAndSwap contact expected ∧ w.tables.contacts.byPeer expected.peerMXID = some row ∧
      w.tables.contacts.replace expected.peerMXID contact = some w'.tables.contacts := by
  cases c with
  | upsertContact contact =>
    obtain ⟨-, rfl⟩ | ⟨a, -, h⟩ := h
    · exact .inl rfl
    · obtain ⟨contacts, hupsert, heq⟩ := Option.map_eq_some_iff.mp h
      cases heq
      exact .inr (.inl ⟨contact, rfl, hupsert⟩)
  | compareAndSwap contact expected =>
    obtain ⟨-, rfl⟩ | ⟨saved, -, h⟩ := h
    · exact .inl rfl
    · obtain ⟨⟨saved', tables⟩, hswap, heq⟩ := Option.map_eq_some_iff.mp h
      cases heq
      unfold Tables.compareAndSwap at hswap
      split at hswap
      · cases hswap
      split at hswap
      · cases hswap
        exact .inl rfl
      · rename_i row hrow
        split at hswap
        · cases hswap
          exact .inl rfl
        · obtain ⟨contacts, hreplace, hswap⟩ := Option.bind_eq_some_iff.mp hswap
          obtain ⟨conversations, -, hswap⟩ := Option.bind_eq_some_iff.mp hswap
          cases hswap
          exact .inr (.inr ⟨contact, expected, row, rfl, hrow, hreplace⟩)
  | saveConversation record =>
    obtain ⟨-, rfl⟩ | ⟨a, -, h⟩ := h
    · exact .inl rfl
    · obtain ⟨conversations, -, heq⟩ := Option.map_eq_some_iff.mp h
      cases heq
      exact .inl rfl
  | deleteConversation | deleteGroup =>
    obtain ⟨-, rfl⟩ | ⟨a, -, h⟩ := h
    · exact .inl rfl
    · cases h
      exact .inl rfl
  | lock key => exact .inl (by rw [h.2])
  | unlock key => exact .inl (by rw [h])
  | lockSave contact => exact .inl (by rw [h.2])
  | unlockSave => exact .inl (by rw [h])
  | contactByRoom | contactByPeer | listContacts | listConversations | conversationByRoom | outside => exact .inl (by rw [h.1])

theorem ContactCall.exec_row (hne : w'.tables.contacts.byPeer peer ≠ w.tables.contacts.byPeer peer) :
    (∃ contact, c = .upsertContact contact ∧ contact.peerMXID = peer) ∨
      ∃ contact expected, c = .compareAndSwap contact expected ∧ (contact.peerMXID = peer ∨ expected.peerMXID = peer) := by
  obtain hsame | ⟨contact, rfl, hupsert⟩ | ⟨contact, expected, row, rfl, -, hreplace⟩ := ContactCall.exec_contacts h
  · exact absurd (by rw [hsame]) hne
  · refine .inl ⟨contact, rfl, ?_⟩
    by_contra hpeer
    refine hne ?_
    rw [(ContactTable.replace_spec hupsert).1 peer, if_neg (Ne.symm hpeer), if_neg (Ne.symm hpeer)]
  · refine .inr ⟨contact, expected, rfl, ?_⟩
    by_contra hpeer
    push Not at hpeer
    refine hne ?_
    rw [(ContactTable.replace_spec hreplace).1 peer, if_neg hpeer.1.symm, if_neg hpeer.2.symm]

/-- Locks of peers are taken where they are free, and given back. -/
theorem ContactCall.exec_locks : w'.locks = w.locks ∨
    (∃ key, c = .lock key ∧ w.locks key = none ∧ w'.locks = Function.update w.locks key (some t)) ∨
    ∃ key, c = .unlock key ∧ w'.locks = Function.update w.locks key none := by
  have hwrites : ∀ {α : Type} {result : Option (α × World)} {r : Except String α}, Writes result w r w' →
      (∀ p, result = some p → p.2.locks = w.locks) → w'.locks = w.locks := by
    rintro α result r (⟨-, rfl⟩ | ⟨a, -, hresult⟩) hlocks
    · rfl
    · exact hlocks _ hresult
  have hmap : ∀ {α β : Type} {o : Option α} {f : α → β × World}, (∀ a, (f a).2.locks = w.locks) →
      ∀ p, o.map f = some p → p.2.locks = w.locks := by
    intro α β o f hf p hp
    obtain ⟨a, -, rfl⟩ := Option.map_eq_some_iff.mp hp
    exact hf a
  cases c with
  | lock key => exact .inr (.inl ⟨key, rfl, h.1, by rw [h.2]⟩)
  | unlock key => exact .inr (.inr ⟨key, rfl, by rw [h]⟩)
  | upsertContact | compareAndSwap | saveConversation => exact .inl (hwrites h (hmap fun _ => rfl))
  | deleteConversation | deleteGroup => exact .inl (hwrites h fun _ hp => by cases hp; rfl)
  | lockSave contact => exact .inl (by rw [h.2])
  | unlockSave => exact .inl (by rw [h])
  | contactByRoom | contactByPeer | listContacts | listConversations | conversationByRoom | outside => exact .inl (by rw [h.1])

/-- Where a lock that is held comes from. -/
theorem ContactCall.exec_locked (hlock : w'.locks key = some u) : w.locks key = some u ∨ c = .lock key := by
  obtain hsame | ⟨k, rfl, -, hlocks⟩ | ⟨k, rfl, hlocks⟩ := ContactCall.exec_locks h
  · exact .inl (by rw [← hsame, hlock])
  · rw [hlocks, Function.update_apply] at hlock
    split at hlock
    · rename_i hk
      exact .inr (by rw [hk])
    · exact .inl hlock
  · rw [hlocks, Function.update_apply] at hlock
    split at hlock
    · cases hlock
    · exact .inl hlock

end

/-! ## Computed answers -/

def ContactCall.free : ContactCall → World → Bool
  | .lock key, w => (w.locks key).isNone
  | .lockSave _, w => w.saving.isNone
  | _, _ => true

def written {α : Type} (w : World) : Option (α × World) → Except String α × World
  | none => (.error "", w)
  | some (a, w') => (.ok a, w')

/-- The tables answer, and `answer` for everything else. -/
def ContactCall.reply (answer : (c : OutsideCall) → c.Ans) (t : Nat) : (c : ContactCall) → World → c.Ans × World
  | .lock key, w => ((), { w with locks := Function.update w.locks key (some t) })
  | .unlock key, w => ((), { w with locks := Function.update w.locks key none })
  | .lockSave contact, w => ((), { w with saving := some ⟨t, contact, false⟩ })
  | .unlockSave, w => ((), { w with saving := none })
  | .contactByRoom roomID, w => (.ok (w.tables.contacts.byRoom roomID), w)
  | .contactByPeer peerMXID, w => (.ok (w.tables.contacts.byPeer peerMXID), w)
  | .listContacts, w => (.ok w.tables.contacts.rows.rows, w)
  | .listConversations, w => (.ok w.tables.conversations.visible, w)
  | .conversationByRoom roomID, w => (.ok (w.tables.conversations.find roomID), w)
  | .upsertContact contact, w => written w ((w.tables.contacts.upsert contact).map fun contacts =>
      ((), { w with tables := { w.tables with contacts := contacts }, saving := w.saving.map ({ · with wrote := true }) }))
  | .compareAndSwap contact expected, w =>
    written w ((w.tables.compareAndSwap contact expected).map fun p => (p.1, { w with tables := p.2 }))
  | .saveConversation record, w => written w ((w.tables.conversations.upsert record).map fun conversations =>
      ((), { w with tables := { w.tables with conversations := conversations } }))
  | .deleteConversation roomID, w =>
    (.ok (), { w with tables := { w.tables with conversations := w.tables.conversations.delete (·.matrixRoomID = roomID) } })
  | .deleteGroup roomID, w =>
    (.ok (), { w with tables := { w.tables with groups := w.tables.groups.delete (·.roomID = roomID) } })
  | .outside c, w => (answer c, w)

theorem written_writes (w : World) (result : Option (α × World)) : Writes result w (written w result).1 (written w result).2 := by
  cases result with
  | none => exact .inl ⟨⟨"", rfl⟩, rfl⟩
  | some p => exact .inr ⟨p.1, rfl, rfl⟩

theorem ContactCall.reply_exec (hproper : ∀ c : OutsideCall, c.Proper (answer c)) (hfree : c.free w = true) :
    c.Exec t w (c.reply answer t w).1 (c.reply answer t w).2 := by
  cases c with
  | unlock key => rfl
  | lock | lockSave => exact ⟨Option.isNone_iff_eq_none.mp hfree, rfl⟩
  | unlockSave => rfl
  | contactByRoom | contactByPeer => exact ⟨rfl, .inr rfl⟩
  | listContacts =>
    refine ⟨rfl, ?_⟩
    rintro _ ⟨⟩ contact
    exact Iff.rfl
  | listConversations =>
    refine ⟨rfl, ?_⟩
    rintro _ ⟨⟩ record
    exact Iff.rfl
  | conversationByRoom roomID => exact ⟨rfl, .inr rfl⟩
  | upsertContact | compareAndSwap | saveConversation => exact written_writes _ _
  | deleteConversation | deleteGroup => exact .inr ⟨(), rfl, rfl⟩
  | outside c => exact ⟨rfl, hproper c⟩

/-- Nobody is blocked or joined, rooms are accepted as they are, and nothing else comes back. -/
def OutsideCall.calm : (c : OutsideCall) → c.Ans
  | .peerBlocked _ | .matrixJoined _ _ | .reinviteAcceptedContact _ => .ok false
  | .newDirectRoomID => ""
  | .createRoom _ _ _ _ => .error (internalError "")
  | .acceptRoom contact _ => .ok contact.roomID
  | .inviteRoom _ | .reactivateRoom _ _ | .leaveRoom _ => .ok ()
  | .joinRoom _ _ _ _ => ⟨.failed, "", none⟩
  | .reactivatePeer _ => .error (internalError "")
  | .operation _ _ _ | .appendEvent _ _ => .ok ()
  | .joinReplacementRoom _ => .error ""

theorem OutsideCall.calm_proper (c : OutsideCall) : c.Proper c.calm := by
  cases c with
  | createRoom | joinReplacementRoom => exact nofun
  | joinRoom => exact (by decide : trimSpace "" = "")
  | _ => trivial

/-- What happens next: a request arrives, or a thread makes its next call. -/
def moves (script : List (Request ⊕ Nat)) : List (Move ContactSig Request World) :=
  script.map (Sum.elim .arrive fun t => .call t fun c w => c.reply OutsideCall.calm t w)

/-- A check that only lets calls through that need not wait. -/
def Waits (check : Pool ContactSig Request World → Pool.Ev ContactSig Request → Bool) : Prop :=
  ∀ s t c r, check s (.answer t c r) = true → c.free s.world = true

def ready (s : Pool ContactSig Request World) : Pool.Ev ContactSig Request → Bool
  | .answer _ c _ => c.free s.world
  | _ => true

theorem ready_waits : Waits ready := fun _ _ _ _ h => h

theorem moves_fair (h : Waits check)
    (script : List (Request ⊕ Nat)) : ∀ move ∈ moves script, Pool.FairWhere (system home) check move := by
  intro move hmove
  obtain ⟨next, -, rfl⟩ := List.mem_map.mp hmove
  cases next with
  | inl q => trivial
  | inr t => exact fun s _ c hcheck => ContactCall.reply_exec OutsideCall.calm_proper (h s t c _ hcheck)

end Dirextalk.Contacts

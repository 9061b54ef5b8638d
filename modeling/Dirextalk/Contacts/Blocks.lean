/-
  Dirextalk.Contacts.Blocks — blocked contacts (`p2p/internal/blocks/module.go`,
  `p2p/storage/storage_blocks.go`, `p2p/service_blocks.go`) and the check of the messages in
  direct rooms (`Policy.validateBlockedDirectMessage`).

  Actors. The owner blocks and unblocks peers; the contact workflows of the node run next to
  one another (`Contacts.System`); Matrix makes and changes rooms. `last` is ghost state: the
  last action on each peer that went through.

  A block is on record with one room: the one the request names or else the contact's at
  that moment. Messages of the peer are refused in that room and in no other, so that the
  room which replaces it is open to them (`block_left_behind`).
-/
import Dirextalk.Contacts.System
import Dirextalk.Policy.Messages

namespace Dirextalk.Contacts.Blocks

open Lib Lib.Go Dirextalk.Action Dirextalk.Policy

/-! ## The module -/

structure BlockRecord where
  targetType : String
  targetID : String
  roomID : String
  peerMXID : String

def BlockRecord.key (block : BlockRecord) : String × String := (block.targetType, block.targetID)

abbrev BlockTable := Rows BlockRecord.key

def normalizeBlockTargetType (value : String) : String :=
  if toLower (trimSpace value) ∈ ["friend", "user", "member", "contact"] then "contact" else ""

/-- The peer a request names, under one of many keys. -/
def peerOf (params : Params) : String :=
  fallbackRaw (fallbackRaw (params.string "peer_mxid") (params.string "mxid"))
    (fallbackRaw (firstMemberID params) (params.string "target_id"))

def roomOf (contacts : ContactTable) (params : Params) : String :=
  fallbackRaw (params.string "room_id") (((contacts.byPeer (trimSpace (peerOf params))).map (·.roomID)).getD "")

def recordFromParams (contacts : ContactTable) (params : Params) : Except ApiError BlockRecord :=
  let rawTargetType := fallbackRaw (params.string "target_type") (params.string "type")
  if rawTargetType = "" then .error (badRequest "target_type is required")
  else if normalizeBlockTargetType rawTargetType = "" then .error (badRequest "target_type must be contact")
  else if peerOf params = "" then .error (badRequest "peer_mxid is required")
  else .ok ⟨normalizeBlockTargetType rawTargetType, peerOf params, roomOf contacts params, peerOf params⟩

def existsInRoom (blocks : BlockTable) (targetType peerMXID roomID : String) : Bool :=
  let targetType := normalizeBlockTargetType targetType
  if targetType = "" || trimSpace peerMXID = "" || trimSpace roomID = "" then false
  else
    blocks.rows.any fun block => block.targetType = targetType && trimSpace block.roomID = trimSpace roomID &&
      (targetType ≠ "contact" || trimSpace block.peerMXID = trimSpace peerMXID)

/-! ## Runs -/

inductive Last where
  /-- with the room that the request names or else the contact's then -/
  | added (roomID : String)
  | removed
  deriving DecidableEq, Repr

structure State where
  contacts : Pool ContactSig Request World
  blocks : BlockTable
  rooms : String → Querier
  /-- Ghost: the last action on each peer. -/
  last : String → Option Last

def State.table (s : State) : ContactTable := s.contacts.world.tables.contacts

def State.start (contacts : Pool ContactSig Request World) (rooms : String → Querier) : State :=
  ⟨contacts, .empty, rooms, fun _ => none⟩

/-- `handleAdd`. -/
def State.add (s : State) (params : Params) : State :=
  match recordFromParams s.table params with
  | .error _ => s
  | .ok block =>
    { s with
      blocks := s.blocks.put block
      last := Function.update s.last (peerOf params) (some (.added (roomOf s.table params))) }

/-- `handleRemove`. -/
def State.remove (s : State) (params : Params) : State :=
  match recordFromParams s.table params with
  | .error _ => s
  | .ok block =>
    { s with blocks := s.blocks.delete (·.key = block.key), last := Function.update s.last (peerOf params) (some .removed) }

inductive Ev where
  | add (params : Params)
  | remove (params : Params)
  /-- a contact workflow begins, makes a call, or is lost in a crash -/
  | contact (e : Pool.Ev ContactSig Request)
  /-- the room is another one for those who ask -/
  | matrix (roomID : String) (room : Querier)

inductive Step (home : Home) : State → Ev → State → Prop
  | add (s : State) (params : Params) : Step home s (.add params) (s.add params)
  | remove (s : State) (params : Params) : Step home s (.remove params) (s.remove params)
  | contact {s : State} {e : Pool.Ev ContactSig Request} {contacts : Pool ContactSig Request World} :
      Pool.Step (system home) s.contacts e contacts → Step home s (.contact e) { s with contacts := contacts }
  | matrix (s : State) (roomID : String) (room : Querier) :
      Step home s (.matrix roomID room) { s with rooms := Function.update s.rooms roomID room }

/-- The check of a message of `senderMXID` in `roomID`. -/
def State.blocked (s : State) (roomID senderMXID : String) : Except Refusal Bool :=
  validateBlockedDirectMessage (s.rooms roomID) {
    senderMXID
    eventType := "m.room.message"
    content := fun _ => none
    blockChecker := some (.ok (existsInRoom s.blocks "contact" (trimSpace senderMXID) (trimSpace roomID)))
    groupAgentMessage := .ok () }

def joined (state : RoomState) (mxid : String) : Bool :=
  ((state.find (memberType, mxid)).bind (·.content)).any fun content => stringValue (content "membership") = "join"

/-- A direct room in which the owner and the sender are. -/
def DirectWith (ownerMXID senderMXID : String) (q : Querier) : Prop :=
  ∃ state p, q.current = .ok (some state) ∧ joined state ownerMXID = true ∧
    resolveRoom q senderMXID = .ok p ∧ p.roomType = some .direct ∧ p.senderJoined = true

/-- The room is the one of the block. -/
def Covers (room roomID : String) : Prop := trimSpace roomID ≠ "" ∧ trimSpace roomID = trimSpace room

instance (room roomID : String) : Decidable (Covers room roomID) := inferInstanceAs (Decidable (_ ∧ _))

structure Enforced (ownerMXID : String) (s : State) : Prop where
  added : ∀ roomID senderMXID room, s.last (trimSpace senderMXID) = some (.added room) →
    DirectWith ownerMXID senderMXID (s.rooms roomID) → s.blocked roomID senderMXID = .ok (decide (Covers room roomID))
  removed : ∀ roomID senderMXID, s.last (trimSpace senderMXID) = some .removed → s.blocked roomID senderMXID ≠ .ok true

/-! ## Records -/

theorem normalizeBlockTargetType_cases (value : String) :
    normalizeBlockTargetType value = "contact" ∨ normalizeBlockTargetType value = "" := by
  unfold normalizeBlockTargetType
  split
  · exact .inl rfl
  · exact .inr rfl

theorem trimSpace_fallbackRaw (hvalue : trimSpace value = value) (hfallback : trimSpace fallback = fallback) :
    trimSpace (fallbackRaw value fallback) = fallbackRaw value fallback := by
  unfold fallbackRaw
  split
  · exact hvalue
  · exact hfallback

theorem trimSpace_peerOf (params : Params) : trimSpace (peerOf params) = peerOf params :=
  trimSpace_fallbackRaw (trimSpace_fallbackRaw (params.trimSpace_string _) (params.trimSpace_string _))
    (trimSpace_fallbackRaw (trimSpace_firstMemberID params) (params.trimSpace_string _))

theorem recordFromParams_ok (h : recordFromParams contacts params = .ok block) :
    block.key = ("contact", peerOf params) ∧ block.peerMXID = peerOf params ∧ block.roomID = roomOf contacts params ∧
      peerOf params ≠ "" := by
  unfold recordFromParams at h
  dsimp only at h
  split at h
  · cases h
  split at h
  · cases h
  rename_i htype
  split at h
  · cases h
  rename_i hpeer
  rw [(normalizeBlockTargetType_cases _).resolve_right htype, Except.ok.injEq] at h
  subst h
  simpa [BlockRecord.key] using hpeer

/-! ## What holds in every state -/

/-- The room a peer is blocked in. -/
def Last.room : Last → Option String
  | .added roomID => some roomID
  | .removed => none

structure Inv (s : State) : Prop where
  rows : ∀ block ∈ s.blocks.rows, block.key = ("contact", block.peerMXID) ∧ trimSpace block.peerMXID = block.peerMXID ∧
    block.peerMXID ≠ ""
  last : ∀ peer, (s.blocks.find ("contact", peer)).map (·.roomID) = (s.last peer).bind Last.room

section Invariant

variable {ownerMXID : String} {home : Home} {s s' : State}

theorem Inv.existsInRoom (h : Inv s) (peer roomID : String) :
    existsInRoom s.blocks "contact" peer roomID = true ↔
      ∃ room, (s.last (trimSpace peer)).bind Last.room = some room ∧ Covers room roomID := by
  have hcontact : normalizeBlockTargetType "contact" = "contact" := by decide
  simp only [Blocks.existsInRoom, hcontact, Covers, ← h.last, Option.map_eq_some_iff, Rows.find_eq_some, exists_exists_and_eq_and]
  constructor
  · intro hexists
    split at hexists
    · cases hexists
    rename_i hnot
    obtain ⟨block, hblock, hmatch⟩ := List.any_eq_true.mp hexists
    obtain ⟨hkey, htrim, -⟩ := h.rows block hblock
    simp only [(Prod.mk.inj hkey).1, ne_eq, not_true_eq_false, decide_false, Bool.false_or, Bool.and_eq_true, decide_eq_true_eq,
      true_and] at hmatch
    simp only [Bool.or_eq_true, decide_eq_true_eq, not_or] at hnot
    refine ⟨block, ⟨hblock, ?_⟩, hnot.2, hmatch.1.symm⟩
    rw [hkey, ← htrim, hmatch.2]
  · rintro ⟨block, ⟨hblock, hkey⟩, hroom, heq⟩
    obtain ⟨hown, -, hne⟩ := h.rows block hblock
    have hpeer := (Prod.mk.inj (hown.symm.trans hkey)).2
    rw [if_neg (by simp [hroom, ← hpeer, hne])]
    exact List.any_eq_true.mpr ⟨block, hblock, by simp [(Prod.mk.inj hkey).1, heq, hpeer, trimSpace_trimSpace]⟩

theorem Inv.enforced (h : Inv s) : Enforced ownerMXID s where
  added := by
    rintro roomID senderMXID room hlast ⟨state, p, -, -, hresolve, htype, -⟩
    refine bind_eq_ok.mpr ⟨p, hresolve, ?_⟩
    have hexists := h.existsInRoom (trimSpace senderMXID) (trimSpace roomID)
    rw [trimSpace_trimSpace, hlast] at hexists
    rw [if_pos htype, Except.ok.injEq, Bool.eq_iff_iff, hexists, decide_eq_true_iff]
    simp [Last.room, Covers, trimSpace_trimSpace]
  removed := by
    intro roomID senderMXID hlast hblocked
    obtain ⟨p, -, hanswer⟩ := bind_eq_ok.mp hblocked
    split at hanswer
    · obtain ⟨room, hroom, -⟩ := (h.existsInRoom _ _).mp (Except.ok.inj hanswer)
      rw [trimSpace_trimSpace, hlast] at hroom
      cases hroom
    · cases hanswer

theorem Inv.start (contacts : Pool ContactSig Request World) (rooms : String → Querier) : Inv (.start contacts rooms) where
  rows := by intro block hblock; cases hblock
  last := by intro peer; simp [State.start]

theorem Inv.add (h : Inv s) (params : Params) : Inv (s.add params) := by
  unfold State.add
  cases hrecord : recordFromParams s.table params with
  | error err => exact h
  | ok block =>
    obtain ⟨hkey, hpeer, hroom, hne⟩ := recordFromParams_ok hrecord
    refine ⟨fun row hrow => ?_, fun peer => ?_⟩
    · obtain rfl | ⟨hold, -⟩ := Rows.mem_put.mp hrow
      · exact ⟨by rw [hkey, hpeer], by rw [hpeer, trimSpace_peerOf], by rw [hpeer]; exact hne⟩
      · exact h.rows row hold
    · dsimp only
      rw [Rows.find_put, hkey, Function.update_apply]
      by_cases heq : peer = peerOf params
      · simp [heq, hroom, Last.room]
      · simp [heq, Ne.symm heq, h.last]

theorem Inv.remove (h : Inv s) (params : Params) : Inv (s.remove params) := by
  unfold State.remove
  cases hrecord : recordFromParams s.table params with
  | error err => exact h
  | ok block =>
    refine ⟨fun row hrow => h.rows row (List.mem_of_mem_filter hrow), fun peer => ?_⟩
    dsimp only
    rw [Rows.find_delete, Function.update_apply, (recordFromParams_ok hrecord).1]
    have hlast := h.last peer
    cases hrow : s.blocks.find ("contact", peer) with
    | none =>
      rw [hrow] at hlast
      by_cases heq : peer = peerOf params <;> simp [heq, Last.room, ← hlast]
    | some row =>
      rw [hrow] at hlast
      by_cases heq : peer = peerOf params <;> simp [heq, Last.room, ← hlast, Option.filter, Rows.key_of_find hrow]

theorem Inv.step (h : Inv s) (hstep : Step home s e s') : Inv s' := by
  cases hstep with
  | add params => exact h.add params
  | remove params => exact h.remove params
  | contact | matrix => exact ⟨h.rows, h.last⟩

end Invariant

/-- In every state of every run a blocked peer is refused in the direct room on record with the block, and in no other;
after the block is removed they are refused nowhere. -/
theorem blocks_enforced (home : Home) (ownerMXID : String) (contacts : Pool ContactSig Request World) (rooms : String → Querier)
    (es : List Ev) (s : State) (hrun : Run (Step home) (.start contacts rooms) es s) : Enforced ownerMXID s :=
  (hrun.inv (fun _ _ _ hi hstep => hi.step hstep) (Inv.start contacts rooms)).enforced

namespace Sample

def home : Home := ⟨"home", "@owner:home", false⟩

def bob : ContactRecord := { ContactRecord.zero with roomID := "!old:home", peerMXID := "@bob:far", status := "accepted" }

def contacts : Pool ContactSig Request World := .start (.start { Tables.empty with contacts := ⟨⟨[bob], by simp⟩, by simp⟩ })

def direct : Querier := .answering
    ⟨[⟨"m.room.create", "", "@owner:home", some fun key => if key = "type" then some (.string RoomType.direct.text) else none⟩,
  joinEvent "@owner:home", joinEvent "@bob:far"], by decide⟩ false

def absent : Querier := { direct with current := .ok none }

def rooms (roomID : String) : Querier := if roomID = "!old:home" then direct else absent

def params : Params := fun key => [("target_type", Value.string "contact"), ("peer_mxid", .string "@bob:far")].lookup key

def before : State := .start contacts rooms

theorem direct_with : DirectWith "@owner:home" "@bob:far" direct := by
  have hresolved :
      (resolveRoom direct "@bob:far").toOption.map (fun p => (p.roomType, p.senderJoined)) = some (some .direct, true) := by
    decide +kernel
  obtain ⟨p, hp, heq⟩ := Option.map_eq_some_iff.mp hresolved
  cases hresolve : resolveRoom direct "@bob:far" with
  | error err =>
    rw [hresolve] at hp
    cases hp
  | ok p' =>
    rw [hresolve] at hp
    cases hp
    exact ⟨_, p, rfl, by decide +kernel, hresolve, (Prod.mk.inj heq).1, (Prod.mk.inj heq).2⟩

end Sample

theorem left_behind : Run (Step Sample.home) Sample.before [.add Sample.params, .matrix "!new:home" Sample.direct]
    { Sample.before.add Sample.params with rooms := Function.update Sample.rooms "!new:home" Sample.direct } :=
  .cons (.add _ _) (.single (.matrix _ "!new:home" Sample.direct))

open Sample in
/-- A contact is blocked in the room that was theirs also once there is another. -/
theorem sample_blocked : ∃ s, Run (Step home) before [.add params, .matrix "!new:home" direct] s ∧
    s.blocked "!old:home" "@bob:far" = .ok true :=
  ⟨_, left_behind,
    (blocks_enforced home "@owner:home" contacts rooms _ _ left_behind).added "!old:home" "@bob:far" "!old:home" (by decide)
    direct_with⟩

open Sample in
/-- A contact is blocked in the room that was theirs, and writes in the one that replaces it. -/
theorem block_left_behind : ∃ s room, Run (Step home) before [.add params, .matrix "!new:home" direct] s ∧
    s.last "@bob:far" = some (.added room) ∧ DirectWith "@owner:home" "@bob:far" (s.rooms "!new:home") ∧
    s.blocked "!new:home" "@bob:far" = .ok false :=
  ⟨_, "!old:home", left_behind, by decide, direct_with, by decide +kernel⟩

end Dirextalk.Contacts.Blocks

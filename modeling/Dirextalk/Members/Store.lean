/-
  Dirextalk.Members.Store — the table of member rows: its statements
  (`p2p/storage/storage_members_events.go`) and the three saves of the service
  (`p2p/service_member_persistence.go`).

  A save holds the lock of its row from its lookup to its statement, and every writer of
  the process goes through the saves, so each is one step on the table. What is written
  keeps parts of the row before it (`mergeMemberPersistence`, and the `CASE`s of the
  upsert). `Writes` says as much of it as the rest of the development needs: which
  membership and which request id a row has afterwards, and that other rows are left alone.
-/
import Dirextalk.Members.Record

namespace Dirextalk.Members

open Lib.Go

/-! ## The table -/

/-- `LOWER(BTRIM(s))`; `BTRIM` takes off blanks only. -/
def lowerBtrim (s : String) : String :=
  toLower (String.ofList ((s.toList.dropWhile (· == ' ')).reverse.dropWhile (· == ' ')).reverse)

/-- The rows, by room and user. A row has the key it is stored under and, since every statement
normalizes what it writes, a membership in normal form. -/
structure Table where
  row : String → String → Option MemberRecord
  keyed : ∀ {roomID userID m}, row roomID userID = some m → m.roomID = roomID ∧ m.userID = userID
  normal : ∀ {roomID userID m}, row roomID userID = some m → normalizeMemberMembership m.membership = m.membership

def Table.empty : Table := ⟨fun _ _ => none, by simp, by simp⟩

def normalizeMemberRecord (m : MemberRecord) : MemberRecord :=
  { m with membership := normalizeMemberMembership m.membership }

section

variable (t : Table) (m : MemberRecord)

def Table.put : Table where
  row roomID userID := if roomID = m.roomID ∧ userID = m.userID then some (normalizeMemberRecord m) else t.row roomID userID
  keyed := by
    intro roomID userID r h
    split at h
    · rename_i hkey
      cases h
      exact ⟨hkey.1.symm, hkey.2.symm⟩
    · exact t.keyed h
  normal := by
    intro roomID userID r h
    split at h
    · cases h
      exact normalizeMemberMembership_idem m.membership
    · exact t.normal h

/-- `joined_at` of a row that an upsert finds. -/
def upsertedJoinedAt (m old : MemberRecord) : Int :=
  if lowerBtrim (normalizeMemberMembership m.membership) = "join" ∧ lowerBtrim old.membership ≠ "join" ∧ 0 < m.joinedAt then
    m.joinedAt
  else if 0 < old.joinedAt then old.joinedAt
  else if 0 < m.joinedAt then m.joinedAt
  else old.joinedAt

def Table.upsertMember : Table :=
  match t.row m.roomID m.userID with
  | none => t.put m
  | some old => t.put { m with
      requesterNodeBaseURL := if m.requesterNodeBaseURL ≠ "" then m.requesterNodeBaseURL else old.requesterNodeBaseURL
      requestID := if m.requestID ≠ "" then m.requestID else old.requestID
      joinedAt := upsertedJoinedAt m old }

def Table.insertMemberIfAbsent : Bool × Table :=
  match t.row m.roomID m.userID with
  | none => (true, t.put m)
  | some _ => (false, t)

def Table.compareAndSwapMemberGeneration (expectedRequestID expectedMembership : String) : Bool × Table :=
  match t.row m.roomID m.userID with
  | none => (false, t)
  | some current =>
    let expected := normalizeMemberMembership expectedMembership
    if current.requestID = expectedRequestID ∧ (expected = "" ∨ lowerBtrim current.membership = lowerBtrim expected) then
      (true, t.put m)
    else (false, t)

/-! ## The saves -/

def memberStartsNewRequestGeneration (previous next : String) : Bool :=
  decide (lowerTrim next ∈ ["invite", "pending"]) &&
    decide (lowerTrim previous ∉ ["invite", "pending", "approved", "joining", "join_failed"])

/-- What a save takes over from the stored row. -/
def mergeMemberPersistence (m existing : MemberRecord) : MemberRecord :=
  let joinedNow := memberMembershipJoined m.membership
  let wasJoined := memberMembershipJoined existing.membership
  let merged := { m with
    joinedAt :=
      if 0 < existing.joinedAt ∧ !memberStartsNewRequestGeneration existing.membership m.membership ∧
        !(joinedNow && !wasJoined) then existing.joinedAt
      else m.joinedAt
    requesterNodeBaseURL := if m.requesterNodeBaseURL = "" then existing.requesterNodeBaseURL else m.requesterNodeBaseURL
    requestID := if m.requestID = "" then existing.requestID else m.requestID
    membership := if memberRemoved existing.membership && memberLeft m.membership then existing.membership else m.membership }
  { merged with
    role :=
      if productOwnerRole existing.role ∧ !productOwnerRole merged.role ∧ !memberHidden existing.membership ∧
          !memberHidden merged.membership then existing.role
      else merged.role }

def prepared (now : Int) (m : MemberRecord) : MemberRecord :=
  { m with
    membership := normalizeMemberMembership m.membership
    role := normalizeProductMemberRole m.role
    joinedAt := if m.joinedAt = 0 then now else m.joinedAt }

def Table.saveMember (t : Table) (now : Int) (m : MemberRecord) : Table :=
  let m := prepared now m
  if m.roomID ≠ "" ∧ m.userID ≠ "" then
    match t.row m.roomID m.userID with
    | some stored => t.upsertMember (mergeMemberPersistence m stored)
    | none => t.upsertMember m
  else t.upsertMember m

def Table.saveMemberIfState (t : Table) (now : Int) (m : MemberRecord) (expectedRequestID expectedMembership : String) :
    Bool × Table :=
  let m := prepared now m
  match t.row m.roomID m.userID with
  | none => (false, t)
  | some stored =>
    if stored.requestID ≠ expectedRequestID ∨
        (expectedMembership ≠ "" ∧ !equalFold (trimSpace stored.membership) (trimSpace expectedMembership)) then (false, t)
    else t.compareAndSwapMemberGeneration (mergeMemberPersistence m stored) expectedRequestID expectedMembership

def Table.saveMemberIfAbsent (t : Table) (now : Int) (m : MemberRecord) : Bool × Table :=
  t.insertMemberIfAbsent (prepared now m)

/-! ## What is written -/

structure Wrote (m : MemberRecord) (old : Option MemberRecord) (stored : MemberRecord) : Prop where
  key : stored.roomID = m.roomID ∧ stored.userID = m.userID
  /-- A removed member stays removed when they leave. -/
  membership : stored.membership = normalizeMemberMembership m.membership ∨
    ∃ o, old = some o ∧ memberRemoved o.membership = true ∧ memberLeft (normalizeMemberMembership m.membership) = true ∧
      stored.membership = o.membership
  requestID : stored.requestID = if m.requestID = "" then (old.map (·.requestID)).getD "" else m.requestID

def Table.Writes (t' : Table) : Prop :=
  ∃ stored, Wrote m (t.row m.roomID m.userID) stored ∧ t'.row m.roomID m.userID = some stored ∧
    ∀ roomID userID, ¬ (roomID = m.roomID ∧ userID = m.userID) → t'.row roomID userID = t.row roomID userID

end

variable {t t' : Table} {m old : MemberRecord} {now : Int} {expectedRequestID expectedMembership : String}

theorem Table.put_row (t : Table) (m : MemberRecord) : (t.put m).row m.roomID m.userID = some (normalizeMemberRecord m) := by
  simp [Table.put]

theorem Table.put_other (t : Table) (m : MemberRecord)
    (h : ¬ (roomID = m.roomID ∧ userID = m.userID)) : (t.put m).row roomID userID = t.row roomID userID := by
  simp [Table.put, h]

theorem Table.writes_put (h : Wrote m (t.row m.roomID m.userID) (normalizeMemberRecord p)) :
    t.Writes m (t.put p) := by
  obtain ⟨hroom, huser⟩ := h.key
  refine ⟨_, h, ?_, ?_⟩
  · rw [← hroom, ← huser]
    exact t.put_row p
  · intro roomID userID hne
    apply t.put_other p
    rw [← hroom, ← huser] at hne
    exact hne

theorem merged_membership (m old : MemberRecord) (hold : normalizeMemberMembership old.membership = old.membership) :
    normalizeMemberMembership (mergeMemberPersistence m old).membership = normalizeMemberMembership m.membership ∨
      memberRemoved old.membership = true ∧ memberLeft m.membership = true ∧
        normalizeMemberMembership (mergeMemberPersistence m old).membership = old.membership := by
  by_cases h : (memberRemoved old.membership && memberLeft m.membership) = true
  · right
    have hboth := Bool.and_eq_true_iff.mp h
    refine ⟨hboth.1, hboth.2, ?_⟩
    simp only [mergeMemberPersistence, h, if_true]
    exact hold
  · left
    simp only [mergeMemberPersistence, h]
    rfl

/-- What a save puts over a stored row is what a write leaves there. -/
theorem wrote_merged (now : Int) (hold : t.row m.roomID m.userID = some old)
    (hkey : p.roomID = m.roomID ∧ p.userID = m.userID)
    (hmembership : p.membership = (mergeMemberPersistence (prepared now m) old).membership)
    (hrequest : p.requestID = (mergeMemberPersistence (prepared now m) old).requestID) :
    Wrote m (t.row m.roomID m.userID) (normalizeMemberRecord p) := by
  refine ⟨hkey, ?_, ?_⟩
  · have hmerged := merged_membership (prepared now m) old (t.normal hold)
    rw [← hmembership] at hmerged
    obtain h | ⟨hremoved, hleft, h⟩ := hmerged
    · left
      rw [show (normalizeMemberRecord p).membership = normalizeMemberMembership p.membership from rfl, h]
      exact normalizeMemberMembership_idem m.membership
    · exact .inr ⟨old, hold, hremoved, hleft, h⟩
  · show p.requestID = _
    rw [hrequest, hold]
    rfl

theorem wrote_prepared (hold : t.row m.roomID m.userID = none) :
    Wrote m (t.row m.roomID m.userID) (normalizeMemberRecord (prepared now m)) := by
  refine ⟨⟨rfl, rfl⟩, .inl (normalizeMemberMembership_idem m.membership), ?_⟩
  rw [hold]
  split
  · rename_i h
    exact h
  · rfl

theorem prepared_key (now : Int) (m : MemberRecord) : (prepared now m).roomID = m.roomID ∧ (prepared now m).userID = m.userID :=
  ⟨rfl, rfl⟩

theorem merged_key (now : Int) (m old : MemberRecord) : (mergeMemberPersistence (prepared now m) old).roomID = m.roomID ∧
    (mergeMemberPersistence (prepared now m) old).userID = m.userID := ⟨rfl, rfl⟩

theorem Table.saveMember_new (now : Int) (hrow : t.row m.roomID m.userID = none) :
    t.saveMember now m = t.put (prepared now m) := by
  have hkey := prepared_key now m
  simp [Table.saveMember, Table.upsertMember, hkey.1, hkey.2, hrow]

/-- A save writes the mute it is given. -/
theorem Table.saveMember_muted (t : Table) (now : Int) (m : MemberRecord) :
    ∃ stored, (t.saveMember now m).row m.roomID m.userID = some stored ∧ stored.muted = m.muted := by
  have hupsert : ∀ p : MemberRecord, p.roomID = m.roomID → p.userID = m.userID → p.muted = m.muted →
      ∃ stored, (t.upsertMember p).row m.roomID m.userID = some stored ∧ stored.muted = m.muted := by
    intro p hroom huser hmuted
    rw [← hroom, ← huser]
    unfold Table.upsertMember
    split
    · exact ⟨_, t.put_row p, hmuted⟩
    · exact ⟨_, t.put_row _, hmuted⟩
  unfold Table.saveMember
  dsimp only
  split
  · split
    · exact hupsert _ rfl rfl rfl
    · exact hupsert _ rfl rfl rfl
  · exact hupsert _ rfl rfl rfl

theorem Table.saveMember_writes (t : Table) (now : Int) (m : MemberRecord) : t.Writes m (t.saveMember now m) := by
  have hkey := prepared_key now m
  cases hrow : t.row m.roomID m.userID with
  | none =>
    rw [Table.saveMember_new now hrow]
    exact t.writes_put (wrote_prepared hrow)
  | some old =>
    by_cases hnamed : m.roomID ≠ "" ∧ m.userID ≠ ""
    · have hsave : t.saveMember now m = t.upsertMember (mergeMemberPersistence (prepared now m) old) := by
        simp [Table.saveMember, hkey.1, hkey.2, hrow, hnamed]
      have hmergedKey := merged_key now m old
      rw [hsave]
      unfold Table.upsertMember
      rw [hmergedKey.1, hmergedKey.2, hrow]
      apply t.writes_put
      refine wrote_merged now hrow (by dsimp only; exact hmergedKey) (by dsimp only) ?_
      -- the merge has already filled in the request id
      dsimp only [mergeMemberPersistence]
      by_cases hrequest : (prepared now m).requestID = ""
      · simp [hrequest]
      · simp [hrequest]
    · have hsave : t.saveMember now m = t.upsertMember (prepared now m) := by
        simp only [Table.saveMember, hkey.1, hkey.2, hnamed, if_false]
      rw [hsave]
      unfold Table.upsertMember
      rw [hkey.1, hkey.2, hrow]
      apply t.writes_put
      refine ⟨hkey, .inl (normalizeMemberMembership_idem m.membership), ?_⟩
      show (if m.requestID ≠ "" then m.requestID else old.requestID) = _
      rw [hrow]
      split <;> simp_all

/-- What is trimmed for one kind of characters is trimmed for fewer of them. -/
theorem dropWhile_fewer {p q : Char → Bool} (hpq : ∀ c, q c = true → p c = true) {l : List Char} (h : l.dropWhile p = l) :
    l.dropWhile q = l := by
  rw [List.dropWhile_eq_self_iff] at h ⊢
  intro hlen hq
  exact h hlen (hpq _ hq)

theorem trimmed_ends (h : trimSpace s = s) :
    s.toList.dropWhile isSpace = s.toList ∧ s.toList.reverse.dropWhile isSpace = s.toList.reverse := by
  have hlists : ((s.toList.dropWhile isSpace).reverse.dropWhile isSpace).reverse = s.toList := by
    rw [← String.toList_ofList (l := ((s.toList.dropWhile isSpace).reverse.dropWhile isSpace).reverse)]
    exact congrArg String.toList h
  have hlength := congrArg List.length hlists
  have houter := (List.dropWhile_suffix isSpace (l := (s.toList.dropWhile isSpace).reverse)).length_le
  have hinner := (List.dropWhile_suffix isSpace (l := s.toList)).length_le
  simp only [List.length_reverse] at hlength houter
  have hfirst : s.toList.dropWhile isSpace = s.toList :=
    (List.dropWhile_suffix isSpace).eq_of_length (by omega)
  refine ⟨hfirst, ?_⟩
  rw [hfirst] at hlists
  rw [← List.reverse_reverse (s.toList.reverse.dropWhile isSpace), hlists]

/-- A membership in normal form is what `LOWER(BTRIM(...))` makes of it. -/
theorem lowerBtrim_normal {s : String} (h : normalizeMemberMembership s = s) : lowerBtrim s = s := by
  have hlower : lowerTrim s = s := by
    rw [← h]
    exact lowerTrim_normalizeMemberMembership s
  have htrim : trimSpace s = s := by
    rw [← hlower]
    unfold lowerTrim
    rw [trimSpace_toLower, trimSpace_trimSpace]
  have hlow : toLower s = s := by
    rw [← hlower]
    unfold lowerTrim
    exact toLower_toLower _
  have hblank : ∀ c : Char, (c == ' ') = true → isSpace c = true := by
    intro c hc
    rw [eq_of_beq hc]
    decide
  obtain ⟨hfirst, hlast⟩ := trimmed_ends htrim
  unfold lowerBtrim
  rw [dropWhile_fewer hblank hfirst, dropWhile_fewer hblank hlast, List.reverse_reverse, String.ofList_toList, hlow]

theorem Table.saveMemberIfState_cases (t : Table) (now : Int) (m : MemberRecord) (expectedRequestID expectedMembership : String) :
    t.saveMemberIfState now m expectedRequestID expectedMembership = (false, t) ∨
      ∃ current t', t.saveMemberIfState now m expectedRequestID expectedMembership = (true, t') ∧
        t.row m.roomID m.userID = some current ∧ current.requestID = expectedRequestID ∧
        (normalizeMemberMembership expectedMembership = "" ∨ current.membership = normalizeMemberMembership expectedMembership) ∧
        t.Writes m t' := by
  have hkey := prepared_key now m
  unfold Table.saveMemberIfState
  simp only [hkey.1, hkey.2]
  cases hrow : t.row m.roomID m.userID with
  | none => exact .inl rfl
  | some current =>
    have hmergedKey := merged_key now m current
    dsimp only
    split
    · exact .inl rfl
    unfold Table.compareAndSwapMemberGeneration
    rw [hmergedKey.1, hmergedKey.2, hrow]
    dsimp only
    split
    · rename_i hfound
      refine .inr ⟨current, _, rfl, rfl, hfound.1, ?_, ?_⟩
      · refine hfound.2.imp_right fun heq => ?_
        rwa [lowerBtrim_normal (t.normal hrow), lowerBtrim_normal (normalizeMemberMembership_idem _)] at heq
      · exact t.writes_put (wrote_merged now hrow hmergedKey rfl rfl)
    · exact .inl rfl

theorem Table.saveMemberIfAbsent_cases (t : Table) (now : Int) (m : MemberRecord) :
    t.saveMemberIfAbsent now m = (false, t) ∨
      ∃ t', t.saveMemberIfAbsent now m = (true, t') ∧ t.row m.roomID m.userID = none ∧ t.Writes m t' := by
  have hkey := prepared_key now m
  unfold Table.saveMemberIfAbsent Table.insertMemberIfAbsent
  rw [hkey.1, hkey.2]
  cases hrow : t.row m.roomID m.userID with
  | none => exact .inr ⟨_, rfl, rfl, t.writes_put (wrote_prepared hrow)⟩
  | some old => exact .inl rfl

end Dirextalk.Members

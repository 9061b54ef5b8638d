/-
  Dirextalk.GroupAgent.Queue — the queue of requests under its bindings, over every
  interleaving of the transactions (`queue_invariant`).

  The lock on the binding is what carries the argument: while a transaction has it, nobody
  else changes the binding of the room or adds to its queue, so what the transaction read
  still holds when it commits (`Txn.Valid`). Only `cancelGroupAgentRequests` comes in
  between, and it takes requests out of the queue.
-/
import Dirextalk.GroupAgent.Store

namespace Dirextalk.GroupAgent

open Lib Lib.Go List Tables Request

/-! ## What the callbacks do -/

/-- A binding stays, or takes a new revision, or is one that covers nothing. -/
def Advances (b b' : Binding) : Prop := b' = b ∨ b.revision < b'.revision ∨ b'.enabled = false ∧ b'.revision = b.revision

def InRange (b : Binding) : Prop := 0 ≤ b.revision ∧ b.revision < 2 ^ 63

variable {b b' : Binding} {r r' : Request} {p : Invocation}

theorem int64_lt (n : Int) : int64 n < 2 ^ 63 := by
  have := Int.bmod_lt (x := n) (m := 2 ^ 64) (by decide)
  simpa [int64] using this

theorem advances_of_next (hb : InRange b) (hnext : b'.revision = int64 (b.revision + 1)) (h0 : 0 ≤ b'.revision) :
    Advances b b' ∧ b'.revision < 2 ^ 63 := by
  have hsucc := int64_succ hb.1 hb.2 (hnext ▸ h0)
  refine ⟨.inr (.inl ?_), hnext ▸ int64_lt _⟩
  rw [hnext, hsucc]
  omega

theorem mutate_advances {change : Change} (h : change.mutate b = some b') (hb : InRange b) (h0 : 0 ≤ b'.revision) :
    Advances b b' ∧ b'.revision < 2 ^ 63 := by
  cases change with
  | invalidate =>
    simp only [Change.mutate, invalidateGroupAgent, Option.some.injEq] at h
    split at h
    · exact advances_of_next hb (by rw [← h]) h0
    · exact ⟨.inl h.symm, h ▸ hb.2⟩
  | update u =>
    simp only [Change.mutate, groupAgentUpdate] at h
    split at h
    · cases h
    split at h
    · cases h
    by_cases hrev : b.revision = 0
    · -- the defaults are disabled and of revision 0, as the row was
      rw [if_pos hrev] at h
      split at h
      · split at h
        · cases h
        · cases h
          exact advances_of_next hb (by rw [hrev]; rfl) h0
      · cases h
        exact ⟨.inr (.inr ⟨rfl, hrev.symm⟩), by simp [defaultGroupAgentBinding]⟩
    · rw [if_neg hrev] at h
      split at h
      · split at h
        · cases h
        · cases h
          exact advances_of_next hb rfl h0
      · cases h
        exact ⟨.inl rfl, hb.2⟩

structure Settles (r r' : Request) : Prop where
  row : r' = r.settled r'.status (some (r'.replyEventID, r'.replyDigest))
  status : r'.status = r.status ∨ r.status = .pending

theorem Settles.roomID (h : Settles r r') : r'.roomID = r.roomID := by
  rw [h.row, settled_roomID]

theorem validateGroupAgentRequest_pending (h : validateGroupAgentRequest p b r = some true) :
    r.status = .pending := by
  unfold validateGroupAgentRequest at h
  split at h
  · cases h
  · rename_i hok
    by_contra hne
    exact hok (by simp [hne])

theorem complete_row (h : complete p r = some r') :
    r' = r.settled r'.status (some (r'.replyEventID, r'.replyDigest)) := by
  unfold complete at h
  split at h
  · cases h
  split at h
  · cases h
  · cases h
    rfl

theorem publish_row (h : publish p r = some r') :
    r' = r.settled r'.status (some (r'.replyEventID, r'.replyDigest)) := by
  unfold publish at h
  split at h
  · cases h
  simp only at h
  generalize (if p.kind = "" then "final" else p.kind) = kind at h
  generalize (if kind = "final" ∧ p.status = "" then "completed" else p.status) = status at h
  split at h
  · cases h
  split at h
  · cases h
  split at h
  · cases h
  obtain ⟨eventID, -, rfl⟩ := Option.map_eq_some_iff.mp h
  split <;> rfl

theorem invoke_settles (h : invoke p b r = some r') : Settles r r' := by
  unfold invoke at h
  split at h
  · cases h
  split at h
  · split at h
    · cases h
    · cases h
      exact ⟨rfl, .inl rfl⟩
  cases hvalid : validateGroupAgentRequest p b r with
  | none => simp [hvalid] at h
  | some valid =>
    cases valid with
    | false =>
      simp only [hvalid, Option.some.injEq] at h
      subst h
      refine ⟨rfl, ?_⟩
      by_cases hpending : r.status = .pending <;> simp [hpending]
    | true =>
      have hpending := validateGroupAgentRequest_pending hvalid
      simp only [hvalid] at h
      cases hop : p.operation with
      | complete => exact ⟨complete_row (by simpa [hop] using h), .inr hpending⟩
      | publish => exact ⟨publish_row (by simpa [hop] using h), .inr hpending⟩
      | other => simp [hop] at h

/-! ## What the statements do -/

namespace Tables

variable {t : Tables}

theorem find_update (p : Request → Bool) (status : Status) (reply : Option (String × String)) (id : String) :
    (t.update p status reply).requests.find id = (t.requests.find id).map fun r => if p r then r.settled status reply else r :=
  t.requests.find_modify p (settled status reply) (settled_requestID status reply) id

variable {r : Request} {reply : Option (String × String)}

theorem mem_update {p : Request → Bool} {status : Status} :
    r ∈ (t.update p status reply).requests.rows ↔ ∃ a ∈ t.requests.rows, (if p a then a.settled status reply else a) = r :=
  mem_map

@[simp] theorem bindings_update (p : Request → Bool) (status : Status) (reply : Option (String × String)) :
    (t.update p status reply).bindings = t.bindings := rfl

theorem pending_update_le {p : Request → Bool} {status : Status}
    (h : ∀ r ∈ t.requests.rows, p r → status = .pending → r.status = .pending) (roomID : String) :
    (t.update p status reply).pending roomID ≤ t.pending roomID := by
  apply t.requests.count_modify_le p _ (settled_requestID status reply)
  intro r hr hp hq
  simp only [settled_roomID, settled_status, decide_eq_true_eq] at hq ⊢
  exact ⟨hq.1, h r hr hp hq.2⟩

theorem insertRequest_of_known (h : t.known r = true) : t.insertRequest r = t := by simp [insertRequest, h]

theorem insertRequest_of_new (h : t.known r = false) :
    (t.insertRequest r).requests = t.requests.put r ∧ (t.insertRequest r).requests.rows = t.requests.rows ++ [r] := by
  have hrequests : (t.insertRequest r).requests = t.requests.put r := by simp [insertRequest, h]
  refine ⟨hrequests, ?_⟩
  rw [hrequests]
  apply Rows.rows_put_of_new
  intro a ha
  simp only [known, any_eq_false, decide_eq_true_eq, not_or] at h
  exact (h a ha).1

@[simp] theorem bindings_insertRequest (r : Request) : (t.insertRequest r).bindings = t.bindings := by
  unfold insertRequest
  split <;> rfl

theorem pending_insertRequest_le (r : Request) (roomID : String) :
    (t.insertRequest r).pending roomID ≤ t.pending roomID + if r.roomID = roomID then 1 else 0 := by
  cases hknown : t.known r with
  | true =>
    rw [insertRequest_of_known hknown]
    exact Nat.le_add_right _ _
  | false =>
    rw [pending, pending, Rows.count, Rows.count, (insertRequest_of_new hknown).2, countP_append, countP_singleton]
    by_cases hroom : r.roomID = roomID <;> by_cases hstatus : r.status = .pending <;> simp [hroom, hstatus]

/-- What is there stays as it is. -/
theorem find_insertRequest {row : Request} {id : String} (h : t.requests.find id = some row) :
    (t.insertRequest r).requests.find id = some row := by
  cases hknown : t.known r with
  | true => rw [insertRequest_of_known hknown, h]
  | false =>
    obtain ⟨hmem, hid⟩ := t.requests.find_eq_some.mp h
    rw [Rows.find_eq_some, (insertRequest_of_new hknown).2]
    exact ⟨mem_append_left _ hmem, hid⟩

end Tables

/-! ## The invariant -/

/-- Every pending request has its binding, no queue is too long, and the revisions are those of a `BIGINT`. -/
structure Sound (t : Tables) : Prop where
  covered : ∀ r ∈ t.requests.rows, r.status = .pending → ∃ b, t.bindings r.roomID = some b ∧ groupAgentRequestMatches b r
  bounded : ∀ roomID, t.pending roomID ≤ groupAgentRequestQueueMax
  ranged : ∀ roomID b, t.bindings roomID = some b → InRange b

structure Kept (t t' : Tables) : Prop where
  revision : ∀ roomID b, t.bindings roomID = some b → ∃ b', t'.bindings roomID = some b' ∧ b.revision ≤ b'.revision
  settled : ∀ id r, t.requests.find id = some r →
    ∃ r', t'.requests.find id = some r' ∧ (r.status ≠ .pending → r'.status = r.status)

theorem Kept.refl (t : Tables) : Kept t t := ⟨fun _ b h => ⟨b, h, Int.le_refl _⟩, fun _ r h => ⟨r, h, fun _ => rfl⟩⟩

variable {t : Tables}

theorem Kept.trans (h₁ : Kept t u) (h₂ : Kept u v) : Kept t v where
  revision := by
    intro roomID b h
    obtain ⟨b', hb', hle⟩ := h₁.revision roomID b h
    obtain ⟨b'', hb'', hle'⟩ := h₂.revision roomID b' hb'
    exact ⟨b'', hb'', Int.le_trans hle hle'⟩
  settled := by
    intro id r h
    obtain ⟨r', hr', hstatus⟩ := h₁.settled id r h
    obtain ⟨r'', hr'', hstatus'⟩ := h₂.settled id r' hr'
    refine ⟨r'', hr'', fun hne => ?_⟩
    rw [hstatus' (hstatus hne ▸ hne), hstatus hne]

/-- What a transaction has read, and what its lock keeps so. -/
def Txn.Valid (t : Tables) : Txn → Prop
  | .binding roomID b => 0 ≤ b.revision → Advances (t.binding roomID) b ∧ b.revision < 2 ^ 63
  | .enqueue stage r =>
    (∃ b, t.bindings r.roomID = some b ∧ groupAgentRequestMatches b r) ∧
      (stage = .counted → t.pending r.roomID < groupAgentRequestQueueMax)
  | .request r => ∃ row, t.requests.find r.requestID = some row ∧ Settles row r

theorem Txn.Valid.frame {t' : Tables} {txn : Txn} (h : txn.Valid t) (hbinding : t'.bindings txn.roomID = t.bindings txn.roomID)
    (hpending : t'.pending txn.roomID ≤ t.pending txn.roomID)
    (hrow : ∀ r row, txn = .request r → t.requests.find r.requestID = some row → Settles row r →
      t'.requests.find r.requestID = some row) :
    txn.Valid t' := by
  cases txn with
  | binding roomID b =>
    have hsame : t'.binding roomID = t.binding roomID := congrArg (fun row => row.getD {}) hbinding
    intro h0
    rw [hsame]
    exact h h0
  | enqueue stage r =>
    obtain ⟨⟨b, hb, hmatches⟩, hcount⟩ := h
    exact ⟨⟨b, hbinding.trans hb, hmatches⟩, fun hstage => Nat.lt_of_le_of_lt hpending (hcount hstage)⟩
  | request r =>
    obtain ⟨row, hfind, hsettles⟩ := h
    exact ⟨row, hrow r row rfl hfind hsettles, hsettles⟩

/-- What a write of the tables must do: keep them sound and what was settled, and leave alone what
the other transactions have read. -/
structure Write (others : Txn → Prop) (t t' : Tables) : Prop where
  sound : Sound t'
  kept : Kept t t'
  others : ∀ txn, others txn → txn.Valid t → txn.Valid t'

/-- An `UPDATE` of requests that makes none pending. -/
theorem Write.update {others : Txn → Prop} {p : Request → Bool} {status : Status} {reply : Option (String × String)}
    (hsound : Sound t) (hstatus : ∀ r ∈ t.requests.rows, p r → status = r.status ∨ r.status = .pending)
    (hothers : ∀ r, others (.request r) → ∀ row ∈ t.requests.rows, row.requestID = r.requestID → p row = false) :
    Write others t (t.update p status reply) := by
  have hpending : ∀ r ∈ t.requests.rows, p r → status = .pending → r.status = .pending := by
    intro r hr hp heq
    obtain h | h := hstatus r hr hp
    · rw [← h, heq]
    · exact h
  constructor
  · constructor
    · intro r hr hrstatus
      obtain ⟨a, ha, rfl⟩ := mem_update.mp hr
      by_cases hp : p a
      · rw [if_pos hp] at hrstatus ⊢
        rw [settled_status] at hrstatus
        simpa using hsound.covered a ha (hpending a ha hp hrstatus)
      · rw [if_neg hp] at hrstatus ⊢
        exact hsound.covered a ha hrstatus
    · exact fun roomID => Nat.le_trans (pending_update_le hpending roomID) (hsound.bounded roomID)
    · exact hsound.ranged
  · constructor
    · exact fun roomID b h => ⟨b, h, Int.le_refl _⟩
    · intro id r hfind
      refine ⟨if p r then r.settled status reply else r, by rw [find_update, hfind]; rfl, fun hne => ?_⟩
      by_cases hp : p r
      · rw [if_pos hp, settled_status]
        exact (hstatus r (t.requests.find_eq_some.mp hfind).1 hp).resolve_right hne
      · rw [if_neg hp]
  · intro txn hother hvalid
    refine hvalid.frame rfl (pending_update_le hpending _) ?_
    rintro r row rfl hfind -
    obtain ⟨hmem, hid⟩ := t.requests.find_eq_some.mp hfind
    rw [find_update, hfind, Option.map_some, hothers r hother row hmem hid]
    rfl

/-- A new binding and the cancellation of what it revokes. -/
theorem Write.binding {roomID : String} (hsound : Sound t) (h0 : 0 ≤ b.revision)
    (hvalid : (Txn.binding roomID b).Valid t) :
    Write (fun txn => txn.roomID ≠ roomID) t ((t.putBinding roomID b).update (revoked roomID b) .cancelled none) := by
  obtain ⟨hadvances, hlt⟩ := hvalid h0
  have hcancelled :
      ∀ r ∈ (t.putBinding roomID b).requests.rows, revoked roomID b r → Status.cancelled = .pending → r.status = .pending :=
    nofun
  constructor
  · constructor
    · intro r hr hstatus
      obtain ⟨a, ha, rfl⟩ := mem_update.mp hr
      by_cases hrevoked : revoked roomID b a
      · rw [if_pos hrevoked, settled_status] at hstatus
        cases hstatus
      rw [if_neg hrevoked] at hstatus ⊢
      obtain ⟨old, hold, hmatches⟩ := hsound.covered a ha hstatus
      by_cases hroom : a.roomID = roomID
      · -- what is not revoked has the new revision, so the binding is the old one
        subst hroom
        have hbinding : t.binding a.roomID = old := by simp [Tables.binding, hold]
        have hsame : b = old := by
          rw [hbinding] at hadvances
          simp only [groupAgentRequestMatches, Bool.and_eq_true, decide_eq_true_eq] at hmatches
          simp only [revoked, hstatus, true_and, decide_eq_true_eq, not_or, ne_eq, not_not] at hrevoked
          obtain h | h | h := hadvances
          · exact h
          · omega
          · exact absurd h.1 hrevoked.1
        exact ⟨b, by simp [putBinding], hsame ▸ hmatches⟩
      · exact ⟨old, by simpa [putBinding, hroom] using hold, hmatches⟩
    · exact fun room => Nat.le_trans (pending_update_le hcancelled room) (hsound.bounded room)
    · intro room b' hb'
      by_cases hroom : room = roomID
      · simp only [bindings_update, putBinding, hroom, Function.update_self, Option.some.injEq] at hb'
        exact hb' ▸ ⟨h0, hlt⟩
      · exact hsound.ranged room b' (by simpa [putBinding, hroom] using hb')
  · constructor
    · intro room old hold
      by_cases hroom : room = roomID
      · subst hroom
        have hbinding : t.binding room = old := by simp [Tables.binding, hold]
        refine ⟨b, by simp [putBinding], hbinding ▸ ?_⟩
        rcases hadvances with rfl | hlt | ⟨-, heq⟩ <;> omega
      · exact ⟨old, by simpa [putBinding, hroom] using hold, Int.le_refl _⟩
    · intro id r hfind
      refine ⟨_, (find_update _ _ _ _).trans (congrArg (Option.map _) hfind), fun hne => ?_⟩
      simp [revoked, hne]
  · intro txn hroom hvalid
    refine hvalid.frame (by simp [putBinding, hroom]) (pending_update_le hcancelled _) ?_
    rintro r row rfl hfind hsettles
    have hother : revoked roomID b row = false := by simp [revoked, ← hsettles.roomID, show r.roomID ≠ roomID from hroom]
    exact (find_update _ _ _ _).trans
      (by rw [show (t.putBinding roomID b).requests = t.requests from rfl, hfind, Option.map_some, hother]; rfl)

theorem Write.insert {t : Tables} {r : Request} (hsound : Sound t) (hvalid : (Txn.enqueue .counted r).Valid t) :
    Write (fun txn => txn.roomID ≠ r.roomID) t (t.insertRequest r) := by
  obtain ⟨hcovered, hcount⟩ := hvalid
  have hpending := pending_insertRequest_le (t := t) r
  constructor
  · constructor
    · intro a ha hstatus
      rw [bindings_insertRequest]
      cases hknown : t.known r with
      | true =>
        rw [insertRequest_of_known hknown] at ha
        exact hsound.covered a ha hstatus
      | false =>
        rw [(insertRequest_of_new hknown).2] at ha
        obtain ha | ha := mem_append.mp ha
        · exact hsound.covered a ha hstatus
        · rw [mem_singleton.mp ha]
          exact hcovered
    · intro roomID
      have hle := hpending roomID
      have hbounded := hsound.bounded roomID
      by_cases hroom : r.roomID = roomID
      · have := hcount rfl
        rw [if_pos hroom] at hle
        rw [hroom] at this
        omega
      · rw [if_neg hroom] at hle
        omega
    · rw [bindings_insertRequest]
      exact hsound.ranged
  · constructor
    · intro roomID b h
      exact ⟨b, by rw [bindings_insertRequest]; exact h, Int.le_refl _⟩
    · exact fun id row hfind => ⟨row, find_insertRequest hfind, fun _ => rfl⟩
  · intro txn hroom hvalid
    have hle := hpending txn.roomID
    rw [if_neg (Ne.symm hroom)] at hle
    exact hvalid.frame (by rw [bindings_insertRequest]) hle fun _ _ _ hfind _ => find_insertRequest hfind

theorem Write.request (hsound : Sound t) (hvalid : (Txn.request r).Valid t) :
    Write (fun txn => txn.roomID ≠ r.roomID) t
      (t.update (·.requestID = r.requestID) r.status (some (r.replyEventID, r.replyDigest))) := by
  obtain ⟨row, hfind, hsettles⟩ := hvalid
  have hrow : ∀ a ∈ t.requests.rows, a.requestID = r.requestID → a = row := by
    intro a ha hid
    have := t.requests.find_eq_some.mpr ⟨ha, hid⟩
    rw [hfind, Option.some.injEq] at this
    exact this.symm
  have hwrite : Write (fun txn => ∀ r', txn = .request r' → r'.requestID ≠ r.requestID) t
      (t.update (·.requestID = r.requestID) r.status (some (r.replyEventID, r.replyDigest))) := by
    apply Write.update hsound
    · intro a ha hid
      rw [hrow a ha (of_decide_eq_true hid)]
      exact hsettles.status
    · intro r' hne a _ hid
      rw [hid]
      exact decide_eq_false (hne r' rfl)
  refine ⟨hwrite.sound, hwrite.kept, fun txn hroom hvalid' => hwrite.others txn ?_ hvalid'⟩
  -- another transaction on the request would have the lock of the same room
  rintro r' rfl hid
  obtain ⟨row', hfind', hsettles'⟩ := hvalid'
  rw [hid, hfind, Option.some.injEq] at hfind'
  subst hfind'
  exact hroom (hsettles'.roomID.trans hsettles.roomID.symm)

theorem Write.commit {t t' : Tables} {txn : Txn} (hsound : Sound t) (hvalid : txn.Valid t) (h : txn.commit t = some t') :
    Write (fun other => other.roomID ≠ txn.roomID) t t' := by
  cases txn with
  | binding roomID b =>
    rw [Txn.commit, Option.ite_none_right_eq_some, Option.some.injEq] at h
    obtain ⟨h0, rfl⟩ := h
    exact .binding hsound h0 hvalid
  | enqueue stage r =>
    cases stage with
    | counted =>
      rw [Txn.commit, Option.ite_none_right_eq_some, Option.some.injEq] at h
      obtain ⟨-, rfl⟩ := h
      exact .insert hsound hvalid
    | locked => cases h
    | fresh => cases h
  | request r =>
    cases h
    exact .request hsound hvalid

/-! ## Runs -/

structure Inv (s : State) : Prop where
  sound : Sound s.tables
  locks : (s.active.map Txn.roomID).Nodup
  valid : ∀ txn ∈ s.active, txn.Valid s.tables

theorem Sound.empty : Sound .empty where
  covered := fun _ hr => absurd hr not_mem_nil
  bounded := fun _ => Nat.zero_le _
  ranged := nofun

theorem Inv.init : Inv .init where
  sound := .empty
  locks := nodup_nil
  valid := fun _ h => absurd h not_mem_nil

namespace Inv

variable {s : State} {txn txn' : Txn}

theorem begin (h : Inv s) (hfree : s.free txn.roomID) (hvalid : txn.Valid s.tables) :
    Inv { s with active := txn :: s.active } where
  sound := h.sound
  locks := by
    rw [map_cons, nodup_cons]
    refine ⟨fun hmem => ?_, h.locks⟩
    obtain ⟨other, hother, hroom⟩ := mem_map.mp hmem
    exact hfree other hother hroom
  valid := forall_mem_cons.mpr ⟨hvalid, h.valid⟩

/-- Once a transaction is over, nobody has its room. -/
theorem free_erase (h : Inv s) (hmem : txn ∈ s.active) : ∀ other ∈ s.active.erase txn, other.roomID ≠ txn.roomID := by
  intro other hother heq
  have hperm := (perm_cons_erase hmem).map Txn.roomID
  have hnodup := hperm.nodup_iff.mp h.locks
  rw [map_cons, nodup_cons] at hnodup
  exact hnodup.1 (mem_map.mpr ⟨other, hother, heq⟩)

theorem erase (h : Inv s) (txn : Txn) : Inv { s with active := s.active.erase txn } where
  sound := h.sound
  locks := h.locks.sublist (erase_sublist.map Txn.roomID)
  valid := fun other hother => h.valid other (mem_of_mem_erase hother)

/-- A transaction goes on under its lock. -/
theorem resume (h : Inv s) (hmem : txn ∈ s.active) (hroom : txn'.roomID = txn.roomID) (hvalid : txn'.Valid s.tables) :
    Inv { s with active := txn' :: s.active.erase txn } :=
  (h.erase txn).begin (fun other hother => by rw [hroom]; exact h.free_erase hmem other hother) hvalid

theorem queued {t : Tables} {stage : Stage} {r queued : Request} (hvalid : (Txn.enqueue stage r).Valid t)
    (hqueued : r.queued = some queued) (hcount : t.pending r.roomID < groupAgentRequestQueueMax) :
    (Txn.enqueue .counted queued).roomID = r.roomID ∧ (Txn.enqueue .counted queued).Valid t := by
  unfold Request.queued at hqueued
  split at hqueued
  · cases hqueued
    exact ⟨rfl, hvalid.1, fun _ => hcount⟩
  split at hqueued
  · cases hqueued
  · cases hqueued
    exact ⟨rfl, hvalid.1, fun _ => hcount⟩

theorem step {m : Move} {t : State} (h : Inv s) (hstep : Step s m t) : Inv t ∧ Kept s.tables t.tables := by
  cases hstep with
  | @mutateGroupAgentBinding roomID change b hfree hmutate =>
    refine ⟨h.begin hfree fun h0 => mutate_advances hmutate ?_ h0, .refl _⟩
    cases hbinding : s.tables.bindings roomID with
    | none =>
      rw [binding, hbinding]
      exact ⟨Int.le_refl _, by decide⟩
    | some old =>
      rw [binding, hbinding]
      exact h.sound.ranged roomID old hbinding
  | @enqueueGroupAgentRequest r b hfree hbinding hmatches =>
    exact ⟨h.begin hfree ⟨⟨b, hbinding, hmatches⟩, nofun⟩, .refl _⟩
  | @selectExists r hmem hnew =>
    exact ⟨h.resume hmem rfl ⟨(h.valid _ hmem).1, nofun⟩, .refl _⟩
  | @selectCount r queued hmem hcount hqueued =>
    obtain ⟨hroom, hvalid⟩ := Inv.queued (h.valid _ hmem) hqueued hcount
    exact ⟨h.resume hmem hroom hvalid, .refl _⟩
  | @mutateGroupAgentRequest id p b r r' hfind hfree hbinding hinvoke =>
    have hsettles := invoke_settles hinvoke
    have hid : r'.requestID = id := by rw [hsettles.row, settled_requestID, Rows.key_of_find hfind]
    refine ⟨h.begin (fun other hother => ?_) ⟨r, by rw [hid]; exact hfind, hsettles⟩, .refl _⟩
    rw [show (Txn.request r').roomID = r.roomID from hsettles.roomID]
    exact hfree other hother
  | @cancelGroupAgentRequests roomID sender eventID hwaits =>
    have hwrite : Write (· ∈ s.active) s.tables (s.tables.update (cancels roomID sender eventID) .cancelled none) := by
      apply Write.update h.sound
      · intro r _ hcancels
        exact .inr (of_decide_eq_true hcancels).1
      · exact hwaits
    exact ⟨⟨hwrite.sound, h.locks, fun txn hmem => hwrite.others txn hmem (h.valid txn hmem)⟩, hwrite.kept⟩
  | @commit txn t' hmem hcommit =>
    have hwrite := Write.commit h.sound (h.valid txn hmem) hcommit
    refine ⟨⟨hwrite.sound, (h.erase txn).locks, fun other hother => ?_⟩, hwrite.kept⟩
    exact hwrite.others other (h.free_erase hmem other hother) ((h.erase txn).valid other hother)
  | @rollback txn hmem => exact ⟨h.erase txn, .refl _⟩

end Inv

/-- In every state the transactions commit: a pending request has an enabled binding of its room with its revision,
owner, agent and account generation; no room has more than 256 of them; a request is determined by its id and by its
room and event; and from there on revisions never decrease and a settled request keeps its status. -/
theorem queue_invariant {moves : List Move} {s : State} (h : Run Step .init moves s) :
    (∀ r ∈ s.tables.requests.rows, r.status = .pending → ∃ b, s.tables.bindings r.roomID = some b ∧ b.enabled = true ∧
      b.revision = r.bindingRevision ∧ b.ownerMXID = r.ownerMXID ∧ b.agentMXID = r.agentMXID ∧
        b.accountGeneration = r.accountGeneration) ∧
    (∀ roomID, s.tables.pending roomID ≤ groupAgentRequestQueueMax) ∧
    (∀ r ∈ s.tables.requests.rows, ∀ r' ∈ s.tables.requests.rows,
      r.requestID = r'.requestID ∨ r.roomID = r'.roomID ∧ r.eventID = r'.eventID → r = r') ∧
    (∀ more t, Run Step s more t →
      (∀ roomID b, s.tables.bindings roomID = some b → ∃ b', t.tables.bindings roomID = some b' ∧ b.revision ≤ b'.revision) ∧
      ∀ r ∈ s.tables.requests.rows, r.status ≠ .pending →
        ∃ r', t.tables.requests.find r.requestID = some r' ∧ r'.status = r.status) := by
  have hstep : ∀ (a : State) (m : Move) (b : State), Inv a → Step a m b → Inv b ∧ Kept a.tables b.tables :=
    fun _ _ _ hi hs => hi.step hs
  have hinv : Inv s := h.inv (fun a m b hi hs => (hstep a m b hi hs).1) .init
  refine ⟨?_, hinv.sound.bounded, ?_, ?_⟩
  · intro r hr hpending
    obtain ⟨b, hb, hmatches⟩ := hinv.sound.covered r hr hpending
    simp only [groupAgentRequestMatches, Bool.and_eq_true, decide_eq_true_eq] at hmatches
    obtain ⟨⟨⟨⟨henabled, hrevision⟩, howner⟩, hagent⟩, hgeneration⟩ := hmatches
    exact ⟨b, hb, henabled, hrevision, howner, hagent, hgeneration⟩
  · rintro r hr r' hr' (hid | ⟨hroom, hevent⟩)
    · exact inj_on_of_nodup_map s.tables.requests.unique hr hr' hid
    · exact inj_on_of_nodup_map s.tables.sources hr hr' (Prod.ext hroom hevent)
  · intro more t hmore
    have hkept : Kept s.tables t.tables :=
      hmore.rel (R := fun a b : State => Kept a.tables b.tables) (fun a => .refl _) (fun _ _ _ => .trans)
        (fun a m b hi hs => (hstep a m b hi hs).1) (fun a m b hi hs => (hstep a m b hi hs).2) hinv
    refine ⟨hkept.revision, fun r hr hne => ?_⟩
    obtain ⟨r', hfind, hstatus⟩ := hkept.settled r.requestID r (s.tables.requests.find_eq_some.mpr ⟨hr, rfl⟩)
    exact ⟨r', hfind, hstatus hne⟩

/-! An owner enables the agent, two requests come in, the event of one is redacted, and the owner disables the agent. -/

namespace Sample

def enable : Update :=
  { expected := -1, enabled := true, owner := "@owner:home", accountGeneration := 1, joins := true, now := 5, splitID := .plain }

def disable : Update := { enable with expected := 1, enabled := false, now := 9 }

def binding : Binding :=
  { enabled := true, ownerMXID := "@owner:home", agentMXID := "@ying:home", revision := 1, accountGeneration := 1,
    enabledAt := 5 }

def request (requestID eventID : String) : Request :=
  { requestID := requestID, roomID := "!room", eventID := eventID, senderMXID := "@guest:away", ownerMXID := "@owner:home",
    agentMXID := "@ying:home", bindingRevision := 1, accountGeneration := 1, originServerTS := 7 }

def enabled : Tables := (empty.putBinding "!room" binding).update (revoked "!room" binding) .cancelled none

def queued : Tables := (enabled.insertRequest (request "1" "$a")).insertRequest (request "2" "$b")

def redacted : Tables := queued.update (cancels "!room" "" "$a") .cancelled none

theorem free_nil (t : Tables) (roomID : String) : State.free ⟨t, []⟩ roomID := fun _ h => absurd h not_mem_nil

theorem commit_only (h : txn.commit t = some t') : Step ⟨t, [txn]⟩ (.commit txn) ⟨t', []⟩ := by
  have hstep : Step ⟨t, [txn]⟩ (.commit txn) ⟨t', [txn].erase txn⟩ := .commit mem_cons_self h
  rwa [erase_cons_head] at hstep

theorem run_enqueue {r : Request} (hbinding : t.bindings r.roomID = some binding) (hmatches : groupAgentRequestMatches binding r)
    (hknown : t.known r = false) (hcount : t.pending r.roomID < groupAgentRequestQueueMax) (hqueued : r.queued = some r)
    (hcommit : Txn.commit t (.enqueue .counted r) = some t') : ∃ moves, Run Step ⟨t, []⟩ moves ⟨t', []⟩ := by
  have hexists : Step ⟨t, [.enqueue .locked r]⟩ (.selectExists r)
      ⟨t, .enqueue .fresh r :: [.enqueue .locked r].erase (.enqueue .locked r)⟩ := .selectExists mem_cons_self hknown
  have hcount : Step ⟨t, [.enqueue .fresh r]⟩ (.selectCount r)
      ⟨t, .enqueue .counted r :: [.enqueue .fresh r].erase (.enqueue .fresh r)⟩ := .selectCount mem_cons_self hcount hqueued
  rw [erase_cons_head] at hexists hcount
  have henqueue : Step ⟨t, []⟩ (.enqueueGroupAgentRequest r) ⟨t, [.enqueue .locked r]⟩ :=
    .enqueueGroupAgentRequest (free_nil _ _) hbinding hmatches
  exact ⟨_, .cons henqueue (.cons hexists (.cons hcount (.single (commit_only hcommit))))⟩

theorem run_redacted : ∃ moves, Run Step .init moves ⟨redacted, []⟩ := by
  have henable : Step .init (.mutateGroupAgentBinding "!room" (.update enable)) ⟨.empty, [.binding "!room" binding]⟩ :=
    .mutateGroupAgentBinding (free_nil _ _) (by decide)
  have hcancel : Step ⟨queued, []⟩ (.cancelGroupAgentRequests "!room" "" "$a") ⟨redacted, []⟩ :=
    .cancelGroupAgentRequests fun _ h => absurd h not_mem_nil
  obtain ⟨first, hfirst⟩ := run_enqueue (t := enabled) (r := request "1" "$a") rfl (by decide) rfl (by decide) rfl rfl
  obtain ⟨second, hsecond⟩ := run_enqueue (t := enabled.insertRequest (request "1" "$a")) (r := request "2" "$b") rfl (by decide)
    (by decide) (by decide) rfl rfl
  exact ⟨_, .cons henable (.cons (commit_only rfl) (hfirst.trans (hsecond.trans (.single hcancel))))⟩

theorem run_disabled : ∃ moves t, Run Step ⟨redacted, []⟩ moves ⟨t, []⟩ ∧ t.pending "!room" = 0 := by
  have hdisable : Step ⟨redacted, []⟩ (.mutateGroupAgentBinding "!room" (.update disable)) _ :=
    .mutateGroupAgentBinding (free_nil _ _) rfl
  exact ⟨_, _, .cons hdisable (.single (commit_only rfl)), by decide⟩

end Sample

theorem queue_invariant_redacted : Sample.redacted.requests.rows.length = 2 ∧ Sample.redacted.pending "!room" = 1 ∧
    (∀ roomID, Sample.redacted.pending roomID ≤ groupAgentRequestQueueMax) ∧
    ∃ more t, Run Step ⟨Sample.redacted, []⟩ more t ∧ t.tables.pending "!room" = 0 ∧
      ∃ r', t.tables.requests.find "1" = some r' ∧ r'.status = .cancelled := by
  obtain ⟨moves, hrun⟩ := Sample.run_redacted
  obtain ⟨more, t, hmore, hpending⟩ := Sample.run_disabled
  obtain ⟨-, hbounded, -, hlater⟩ := queue_invariant hrun
  exact ⟨by decide, by decide, hbounded, more, _, hmore, hpending,
    (hlater more _ hmore).2 (Sample.request "1" "$a" |>.settled .cancelled none) (by decide) (by decide)⟩

end Dirextalk.GroupAgent

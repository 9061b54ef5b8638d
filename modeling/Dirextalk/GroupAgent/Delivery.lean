/-
  Dirextalk.GroupAgent.Delivery — what holds of the group agent's calls over every
  interleaving, crashes included.

  Three facts carry everything. A call that has a request locked finds it as it was when it
  was locked, as long as its transaction is not gone (`Rely.request`), so it sends only for
  a pending one. For each operation of the capability tables at most one event was ever
  staged (`Single`), whoever uses them. And a request that is no longer pending stays exactly
  as it is (`Later.rows`).
-/
import Dirextalk.GroupAgent.Publisher
import Dirextalk.GroupAgent.Queue

namespace Dirextalk.GroupAgent

open Lib Lib.Go Option Tables

open Capability (Error OperationContext OperationRow PreparedMessage HandlerCall StoreCall HandlerSig Platform Single Grows)
open Function (update_of_ne update_self)

/-! ## The staged events -/

section

variable {T T' : Capability.Tables} (h : Single T)
include h

theorem completed_grows (requestID : String) : Grows T (completed T requestID) := by
  refine h.ledger rfl rfl fun id row hrow => ?_
  have hslot : (T.ledger id).row = some row := hrow
  cases hstaged : T.staged id with
  | none =>
    refine ⟨row, ?_, fun ht => ht⟩
    simp only [completed, Capability.Tables.row, hslot, hstaged]
  | some st =>
    simp only [completed, Capability.Tables.row, hslot, hstaged]
    split
    · exact ⟨_, rfl, fun _ => rfl⟩
    · exact ⟨row, hslot, fun ht => ht⟩

theorem admitted_grows (hadmitted : admitted T op = some T') : Grows T T' := by
  unfold admitted at hadmitted
  split at hadmitted
  · rw [some.injEq] at hadmitted
    split at hadmitted
    · exact hadmitted ▸ h.grows
    rename_i hnone
    subst hadmitted
    refine h.ledger rfl rfl fun id row hrow => ?_
    have hne : id ≠ op.operationID := by
      rintro rfl
      rw [hrow] at hnone
      exact hnone rfl
    rw [Capability.Tables.row_setSlot, update_of_ne hne]
    exact ⟨row, hrow, fun ht => ht⟩
  · cases hadmitted

end

/-! ## What a call leaves to the others -/

def Request.identity (r : Request) : Request := { r with status := .pending, replyEventID := "", replyDigest := "" }

@[simp] theorem Request.settled_identity (status : Status) (reply : Option (String × String)) (r : Request) :
    (r.settled status reply).identity = r.identity := by
  cases reply <;> rfl

theorem Request.roomID_of_identity {r r' : Request} (h : r'.identity = r.identity) : r'.roomID = r.roomID := by
  simpa [identity] using congrArg Request.roomID h

structure Later (w w' : World) : Prop where
  rows : ∀ id r, w.tables.requests.find id = some r → ∃ r', w'.tables.requests.find id = some r' ∧ r'.identity = r.identity ∧
    (r.status ≠ .pending → r' = r)
  inserted : ∀ id m, w.store.Inserted id m → w'.store.Inserted id m

theorem Later.refl (w : World) : Later w w := ⟨fun _ r h => ⟨r, h, rfl, fun _ => rfl⟩, fun _ _ h => h⟩

theorem Later.trans (h : Later w₁ w₂) (h' : Later w₂ w₃) : Later w₁ w₃ where
  rows id r hr := by
    obtain ⟨r₂, hr₂, hid₂, hstill₂⟩ := h.rows id r hr
    obtain ⟨r₃, hr₃, hid₃, hstill₃⟩ := h'.rows id r₂ hr₂
    refine ⟨r₃, hr₃, hid₃.trans hid₂, fun hne => ?_⟩
    obtain rfl := hstill₂ hne
    exact hstill₃ hne
  inserted id m hm := h'.inserted id m (h.inserted id m hm)

/-- No context or session of a call ends while the call has a request locked, and so in its callback. -/
def Lasting (_ : Nat) : (c : Call) → c.Ans → World → Prop
  | .contextDone u, _, w => ∀ r ∈ w.tables.requests.rows, w.keeper r.requestID ≠ some u
  | _, _, _ => True

instance (t : Nat) (c : Call) (r : c.Ans) (w : World) : Decidable (Lasting t c r w) := by
  unfold Lasting
  split <;> infer_instance

/-- What the proof is made for: the service, the condition on the calls, and a set of requests that are
published before the calls of some numbers begin. -/
structure Setting where
  svc : Service
  cond : Nat → (c : Call) → c.Ans → World → Prop
  since : Nat → Request → Prop

/-- The call keeps the requests it has locked. -/
def Setting.Keeps (S : Setting) (t : Nat) (w : World) : Prop := (∀ t c r w, S.cond t c r w → Lasting t c r w) ∨ w.gone t = false

structure Rely (S : Setting) (t : Nat) (w w' : World) : Prop extends Later w w' where
  gone : w'.gone t = false → w.gone t = false
  binding : w'.gone t = false → ∀ roomID, w.holder roomID = some t → w'.holder roomID = some t ∧
    w'.tables.bindings roomID = w.tables.bindings roomID ∧ w'.tables.pending roomID ≤ w.tables.pending roomID
  request : S.Keeps t w' → ∀ id r, w.keeper id = some t → w.tables.requests.find id = some r →
    w'.keeper id = some t ∧ w'.tables.requests.find id = some r

theorem Rely.refl (S : Setting) (t : Nat) (w : World) : Rely S t w w where
  toLater := .refl w
  gone h := h
  binding _ _ h := ⟨h, rfl, Nat.le_refl _⟩
  request _ _ _ hk hr := ⟨hk, hr⟩

theorem Rely.trans (h : Rely S t w₁ w₂) (h' : Rely S t w₂ w₃) : Rely S t w₁ w₃ where
  toLater := h.toLater.trans h'.toLater
  gone hgone := h.gone (h'.gone hgone)
  binding hgone roomID hheld := by
    obtain ⟨hheld₂, hbinding₂, hpending₂⟩ := h.binding (h'.gone hgone) roomID hheld
    obtain ⟨hheld₃, hbinding₃, hpending₃⟩ := h'.binding hgone roomID hheld₂
    exact ⟨hheld₃, hbinding₃.trans hbinding₂, Nat.le_trans hpending₃ hpending₂⟩
  request hkeeps id r hkeeper hr := by
    obtain ⟨hkeeper₂, hr₂⟩ := h.request (hkeeps.imp_right h'.gone) id r hkeeper hr
    exact h'.request hkeeps id r hkeeper₂ hr₂

/-- The reply of a request is the event of its own operation, and its digest one of a body. -/
def Replied (T : Capability.Tables) (r : Request) : Prop :=
  ∃ body m, r.replyDigest = replyDigest body ∧ T.Inserted r.requestID m ∧ r.replyEventID = m.eventID

theorem Replied.later (h : Replied T r) (hgrows : ∀ id m, T.Inserted id m → T'.Inserted id m) : Replied T' r := by
  obtain ⟨body, m, hdigest, hm, hevent⟩ := h
  exact ⟨body, m, hdigest, hgrows _ m hm, hevent⟩

/-- The binding of a request is never deleted. -/
def Tables.bound (T : Tables) : Prop := ∀ r ∈ T.requests.rows, (T.bindings r.roomID).isSome = true

structure Changes (t : Nat) (w : World) (T : Tables) : Prop where
  sound : Sound T
  bound : w.tables.bound → T.bound
  rows : ∀ id r, w.tables.requests.find id = some r → ∃ r', T.requests.find id = some r' ∧ r'.identity = r.identity ∧
    (r.status ≠ .pending → r' = r)
  binding : ∀ roomID u, u ≠ t → w.holder roomID = some u → T.bindings roomID = w.tables.bindings roomID ∧
    T.pending roomID ≤ w.tables.pending roomID
  request : ∀ id u r, u ≠ t → w.keeper id = some u → w.tables.requests.find id = some r → T.requests.find id = some r
  replied : ∀ r ∈ T.requests.rows, r.status = .published → r ∈ w.tables.requests.rows ∨ Replied w.store r

namespace Changes

variable {t : Nat} {w : World}

theorem same (h : Sound w.tables) : Changes t w w.tables where
  sound := h
  bound h := h
  rows _ r hr := ⟨r, hr, rfl, fun _ => rfl⟩
  binding _ _ _ _ := ⟨rfl, Nat.le_refl _⟩
  request _ _ _ _ _ hr := hr
  replied _ hr _ := .inl hr

/-- An `UPDATE` of requests, on the tables or on those with a new binding. -/
theorem update {T : Tables} {p : Request → Bool} {status : Status} {reply : Option (String × String)}
    (hrequests : T.requests = w.tables.requests)
    (hbindings : ∀ roomID u, u ≠ t → w.holder roomID = some u → T.bindings roomID = w.tables.bindings roomID)
    (hbound : ∀ roomID, (w.tables.bindings roomID).isSome = true → (T.bindings roomID).isSome = true) (hwaits : w.waits t p)
    (hsound : Sound (T.update p status reply))
    (hp : ∀ r ∈ w.tables.requests.rows, p r → r.settled status reply = r ∨ r.status = .pending)
    (hreplied : ∀ r ∈ w.tables.requests.rows, p r → status = .published → r.settled status reply ∈ w.tables.requests.rows ∨
      Replied w.store (r.settled status reply)) : Changes t w (T.update p status reply) where
  sound := hsound
  bound h r hr := by
    obtain ⟨a, ha, rfl⟩ := mem_update.mp hr
    rw [apply_ite Request.roomID, Request.settled_roomID, ite_self]
    exact hbound _ (h a (hrequests ▸ ha))
  rows id r hr := by
    refine ⟨if p r then r.settled status reply else r, by rw [find_update, hrequests, hr]; rfl, ?_, fun hne => ?_⟩
    · split <;> simp
    · split
      · rename_i hpr
        exact (hp r (w.tables.requests.find_eq_some.mp hr).1 hpr).resolve_right hne
      · rfl
  binding roomID u hu hheld := by
    refine ⟨hbindings roomID u hu hheld, ?_⟩
    have hpending : T.pending roomID = w.tables.pending roomID := by unfold pending; rw [hrequests]
    rw [← hpending]
    refine pending_update_le (fun r hr hpr heq => ?_) roomID
    rw [hrequests] at hr
    obtain hsame | hstatus := hp r hr hpr
    · rw [← hsame, Request.settled_status, heq]
    · exact hstatus
  request id u r hu hkeeper hr := by
    rw [find_update, hrequests, hr, map_some, hwaits id u r hkeeper hu hr]
    rfl
  replied r hr hstatus := by
    obtain ⟨a, ha, rfl⟩ := mem_update.mp hr
    rw [hrequests] at ha
    split at hstatus
    · rename_i hpa
      rw [if_pos hpa]
      rw [Request.settled_status] at hstatus
      exact hreplied a ha hpa hstatus
    · rename_i hpa
      rw [if_neg hpa]
      exact .inl ha

section

variable (hsound : Sound w.tables)
include hsound

theorem cancel {roomID sender eventID : String} (hwaits : w.waits t (cancels roomID sender eventID)) :
    Changes t w (w.tables.update (cancels roomID sender eventID) .cancelled none) := by
  have hpending : ∀ r, cancels roomID sender eventID r → r.status = .pending := fun r hr => (of_decide_eq_true hr).1
  have hwrite : Write (fun _ => False) w.tables (w.tables.update (cancels roomID sender eventID) .cancelled none) :=
    .update hsound (fun r _ hr => .inr (hpending r hr)) (fun _ h => h.elim)
  exact update rfl (fun _ _ _ _ => rfl) (fun _ h => h) hwaits hwrite.sound (fun r _ hr => .inr (hpending r hr)) nofun

theorem insert (hheld : w.holder r.roomID = some t)
    (hvalid : (Txn.enqueue .counted r).Valid w.tables) (hstatus : r.status = .pending)
    (hcommit : (Txn.enqueue .counted r).commit w.tables = some T) : Changes t w T := by
  have hsound' := (Write.commit hsound hvalid hcommit).sound
  rw [Txn.commit, ite_none_right_eq_some, some.injEq] at hcommit
  obtain ⟨-, rfl⟩ := hcommit
  obtain ⟨⟨b, hb, -⟩, -⟩ := hvalid
  have hrows : ∀ row ∈ (w.tables.insertRequest r).requests.rows, row ∈ w.tables.requests.rows ∨ row = r := by
    intro row hrow
    cases hknown : w.tables.known r with
    | true =>
      rw [insertRequest_of_known hknown] at hrow
      exact .inl hrow
    | false =>
      rw [(insertRequest_of_new hknown).2] at hrow
      exact (List.mem_append.mp hrow).imp_right List.mem_singleton.mp
  refine ⟨hsound', fun hbound row hrow => ?_, fun id row hrow => ?_, fun roomID u hu hother => ?_, fun id u row _ _ hrow => ?_,
    fun row hrow hpublished => ?_⟩
  · rw [bindings_insertRequest]
    obtain hrow | rfl := hrows row hrow
    · exact hbound row hrow
    · rw [hb]
      rfl
  · exact ⟨row, find_insertRequest hrow, rfl, fun _ => rfl⟩
  · have hne : r.roomID ≠ roomID := by
      rintro rfl
      rw [hheld, some.injEq] at hother
      exact hu hother.symm
    have hle := pending_insertRequest_le (t := w.tables) r roomID
    rw [if_neg hne] at hle
    exact ⟨by rw [bindings_insertRequest], hle⟩
  · exact find_insertRequest hrow
  · refine .inl ((hrows row hrow).resolve_right ?_)
    rintro rfl
    rw [hstatus] at hpublished
    cases hpublished

theorem bind {roomID : String} {b : Binding} {T : Tables} (hheld : w.holder roomID = some t)
    (hvalid : (Txn.binding roomID b).Valid w.tables) (hwaits : w.waits t (revoked roomID b))
    (hcommit : (Txn.binding roomID b).commit w.tables = some T) : Changes t w T := by
  have hsound' := (Write.commit hsound hvalid hcommit).sound
  rw [Txn.commit, ite_none_right_eq_some, some.injEq] at hcommit
  obtain ⟨-, rfl⟩ := hcommit
  refine update (T := w.tables.putBinding roomID b) rfl (fun room u hu hother => ?_)
    (fun room h => ?_) hwaits hsound' (fun r _ hr => ?_) (fun _ _ _ h => by cases h)
  · have hne : room ≠ roomID := by
      rintro rfl
      rw [hheld, some.injEq] at hother
      exact hu hother.symm
    simp [putBinding, hne]
  · by_cases hne : room = roomID <;> simp [putBinding, hne, h]
  · exact .inr (of_decide_eq_true hr).2.1

/-- A callback changes a pending request only, and publishes it only with the event of its operation. -/
theorem settle (hkeeper : w.keeper r.requestID = some t)
    (hrow : w.tables.requests.find r.requestID = some row) (hsettles : Settles row r) (hstill : row.status ≠ .pending → r = row)
    (hreplied : r.status = .published → r = row ∨ Replied w.store r) (hcommit : (Txn.request r).commit w.tables = some T) :
    Changes t w T := by
  have hvalid : (Txn.request r).Valid w.tables := ⟨row, hrow, hsettles⟩
  have hsound' := (Write.commit hsound hvalid hcommit).sound
  cases hcommit
  -- the only row of that id becomes the one that is written
  have hwritten : ∀ a ∈ w.tables.requests.rows, a.requestID = r.requestID →
      a = row ∧ a.settled r.status (some (r.replyEventID, r.replyDigest)) = r := by
    intro a ha hid
    have hfind := w.tables.requests.find_eq_some.mpr ⟨ha, hid⟩
    rw [hrow, some.injEq] at hfind
    exact ⟨hfind.symm, by rw [← hfind]; exact hsettles.row.symm⟩
  refine update rfl (fun _ _ _ _ => rfl) (fun _ h => h) (fun id u a hother hu ha => ?_) hsound' (fun a ha hid => ?_)
    (fun a ha hid hstatus => ?_)
  · apply decide_eq_false
    intro hid
    have hkey := Rows.key_of_find ha
    rw [← hkey, hid, hkeeper, some.injEq] at hother
    exact hu hother.symm
  · obtain ⟨hsame, hafter⟩ := hwritten a ha (of_decide_eq_true hid)
    rw [hafter]
    subst hsame
    by_cases hpending : a.status = .pending
    · exact .inr hpending
    · exact .inl (hstill hpending)
  · obtain ⟨hsame, hafter⟩ := hwritten a ha (of_decide_eq_true hid)
    rw [hafter]
    subst hsame
    obtain h | h := hreplied hstatus
    · exact .inl (h ▸ ha)
    · exact .inr h

end

end Changes

structure Spares (t : Nat) (w w' : World) : Prop where
  holder : ∀ roomID u, u ≠ t → w.holder roomID = some u → w'.holder roomID = some u
  keeper : ∀ requestID u, u ≠ t → w.keeper requestID = some u → w'.keeper requestID = some u
  gone : ∀ u, u ≠ t → w'.gone u = w.gone u

namespace Spares

variable {t : Nat} {w : World}

theorem release (w : World) (t : Nat) : Spares t w (w.release t) where
  holder roomID u hu hheld := by
    simp [World.release, hheld, hu]
  keeper requestID u hu hkeeper := by
    simp [World.release, hkeeper, hu]
  gone _ _ := rfl

theorem lockBinding (hfree : w.holder roomID = none) : Spares t w (w.lockBinding t roomID) where
  holder room u _ hheld := by
    have hne : room ≠ roomID := by
      rintro rfl
      rw [hfree] at hheld
      cases hheld
    simpa [World.lockBinding, hne] using hheld
  keeper _ _ _ h := h
  gone _ _ := rfl

theorem lockRequest (hfree : w.keeper requestID = none) : Spares t w (w.lockRequest t requestID) where
  holder _ _ _ h := h
  keeper id u _ hkeeper := by
    have hne : id ≠ requestID := by
      rintro rfl
      rw [hfree] at hkeeper
      cases hkeeper
    simpa [World.lockRequest, hne] using hkeeper
  gone _ _ := rfl

end Spares

/-! ## The invariant and the preconditions -/

structure Consistent (S : Setting) (w : World) : Prop where
  sound : Sound w.tables
  bound : w.tables.bound
  single : Single w.store
  replied : ∀ r ∈ w.tables.requests.rows, r.status = .published → Replied w.store r
  since : ∀ t r, S.since t r → w.tables.requests.find r.requestID = some r ∧ r.status = .published

/-- A request that its id and its event lead to, if to any, is of the same room under the same id. -/
def Tables.owns (T : Tables) (r : Request) : Prop :=
  ∀ a ∈ T.requests.rows, a.requestID = r.requestID ∨ a.roomID = r.roomID ∧ a.eventID = r.eventID →
    a.requestID = r.requestID ∧ a.roomID = r.roomID

/-- What the queueing of a scheduled request has to meet: its binding is still the room's when it is locked, the body
is not blank, and the id and the event are not another request's. -/
def Steady (_ : Nat) : (c : Call) → c.Ans → World → Prop
  | .lockBindingFor r, _, w =>
    r.scheduledBy ≠ "" → (∃ b ∈ w.tables.bindings r.roomID, groupAgentRequestMatches b r = true) ∧ blank r.body = false
  | .selectExists r, _, w | .insertRequest r, _, w => r.scheduledBy ≠ "" → w.tables.owns r
  | _, _, _ => True

instance (T : Tables) (r : Request) : Decidable (T.owns r) :=
  inferInstanceAs (Decidable (∀ a ∈ T.requests.rows, a.requestID = r.requestID ∨ a.roomID = r.roomID ∧ a.eventID = r.eventID →
    a.requestID = r.requestID ∧ a.roomID = r.roomID))

instance (t : Nat) (c : Call) (r : c.Ans) (w : World) : Decidable (Steady t c r w) := by
  unfold Steady
  split <;> infer_instance

structure Service.Names (svc : Service) (a : Account) (p : Params) (r : Request) : Prop where
  live : a.deprovisioned = false
  canonical : svc.canonical p.requestID = true
  revision : 0 < p.bindingRevision
  after : p.afterRequestID = ""
  requestID : p.requestID = r.requestID
  bindingRevision : p.bindingRevision = r.bindingRevision
  accountGeneration : a.accountGeneration = r.accountGeneration
  ownerMXID : a.ownerMXID = r.ownerMXID

def Answer.broken (answer : Answer) : Prop := ∃ e, answer = .failed (.failed e)

/-- How a publication of a request that is published is answered. -/
def replay (r : Request) (body : String) : Answer :=
  if r.replyDigest = replyDigest body then .published r.replyEventID true else .failed .conflict

/-- A statement of the call may fail. -/
def Setting.Fails (S : Setting) (t : Nat) : Prop := ∃ c r w, S.cond t c r w ∧ c.failed r = some true

def Truthful (S : Setting) (t : Nat) (w : World) (answer : Answer) : Task → Prop
  | .enqueue _ _ p => (∀ t c r w, S.cond t c r w → Steady t c r w) → ∀ replayed, answer = .enqueued replayed →
    ∃ r, w.tables.requests.find p.requestID = some r ∧ r.roomID = p.roomID
  | .invoke a .publish p => ∀ r, S.since t r → S.svc.Names a p r → p.kind ≠ "progress" →
    answer = replay r p.body ∨ answer.broken ∧ S.Fails t
  | _ => True

/-- What a commit needs is asked of a transaction that is not gone; one that is gone commits nothing. -/
def Allowed (S : Setting) (t : Nat) (q : Task) : Call → World → Prop
  | .insertRequest r, w => w.gone t = false →
    w.holder r.roomID = some t ∧ (Txn.enqueue .counted r).Valid w.tables ∧ r.status = .pending
  | .commitBinding roomID b, w => w.gone t = false → w.holder roomID = some t ∧ (Txn.binding roomID b).Valid w.tables
  | .commitRequest r, w => w.gone t = false →
    w.keeper r.requestID = some t ∧ ∃ row, w.tables.requests.find r.requestID = some row ∧ Settles row r ∧
      (row.status ≠ .pending → r = row) ∧ (r.status = .published → r = row ∨ Replied w.store r)
  | .transport pub (.sendPrepared m), w =>
    pub.op.operationID = S.svc.operationID pub.requestID pub.reply ∧ w.store.Inserted pub.op.operationID m ∧
      (S.Keeps t w → ∃ r, w.tables.requests.find pub.requestID = some r ∧ r.status = .pending)
  | .respond answer, w => Truthful S t w answer q
  | _, _ => True

variable {S : Setting} {t : Nat} {w w' : World}

/-- What a call does to the others, and to the tables. -/
def Effects (S : Setting) (t : Nat) (w w' : World) : Prop := Consistent S w' ∧ ∀ u, u ≠ t → Rely S u w w'

section

variable (hi : Consistent S w)
include hi

theorem Effects.of_changes (hspares : Spares t w w') (hchanges : Changes t w w'.tables) (hgrows : Grows w.store w'.store) :
    Effects S t w w' := by
  refine ⟨⟨hchanges.sound, hchanges.bound hi.bound, hgrows.single, fun r hr hstatus => ?_, fun u r hsince => ?_⟩, fun u hu => ?_⟩
  · obtain hold | hreplied := hchanges.replied r hr hstatus
    · exact (hi.replied r hold hstatus).later hgrows.inserted
    · exact hreplied.later hgrows.inserted
  · obtain ⟨hfind, hstatus⟩ := hi.since u r hsince
    obtain ⟨r', hfind', -, hstill⟩ := hchanges.rows _ r hfind
    rw [hfind', hstill (by rw [hstatus]; nofun)]
    exact ⟨rfl, hstatus⟩
  · refine ⟨⟨hchanges.rows, hgrows.inserted⟩, (hspares.gone u hu).symm.trans, fun _ roomID hheld => ?_,
      fun _ id r hkeeper hr => ?_⟩
    · exact ⟨hspares.holder roomID u hu hheld, hchanges.binding roomID u hu hheld⟩
    · exact ⟨hspares.keeper id u hu hkeeper, hchanges.request id u r hu hkeeper hr⟩

theorem Effects.refl : Effects S t w w := ⟨hi, fun _ _ => .refl S _ w⟩

theorem Effects.release : Effects S t w (w.release t) :=
  .of_changes hi (.release w t) (.same hi.sound) hi.single.grows

variable {α : Type} {r : Except Error α}

theorem Effects.reads (h : Reads w a r w') : Effects S t w w' := by
  obtain ⟨rfl, -⟩ := h
  exact .refl hi

theorem Effects.locks {row : Option α} {holder : Option Nat} {locked : World} {r : Except Error (Option α)}
    (hlocked : holder = none → Effects S t w locked) (h : Locks w row holder locked r w') : Effects S t w w' := by
  obtain ⟨_, _, hfree, _, rfl⟩ | ⟨_, _, rfl⟩ | ⟨_, rfl⟩ := h
  · exact hlocked hfree
  · exact .refl hi
  · exact .refl hi

omit hi in
theorem Effects.writes (hdone : ∀ a w₁, done = some (a, w₁) → Effects S t w w₁)
    (hback : Effects S t w back) (h : Writes done back r w') : Effects S t w w' := by
  cases h with
  | done h | unacknowledged h => exact hdone _ _ h
  | failed => exact hback

theorem Effects.commits (hchanges : ∀ T, tables = some T → Changes t w T) (hgrows : Grows w.store store)
    (h : Writes (w.commits t a tables store) (w.release t) r w') : Effects S t w w' := by
  refine .writes (fun b w₁ hdone => ?_) (.release hi) h
  obtain ⟨T, hT, heq⟩ := map_eq_some_iff.mp hdone
  obtain ⟨rfl, rfl⟩ := Prod.mk.inj heq
  have hspares : Spares t w ({ w with tables := T, store := store }.release t) :=
    ⟨(Spares.release w t).holder, (Spares.release w t).keeper, fun _ _ => rfl⟩
  exact .of_changes hi hspares (hchanges T hT) hgrows

theorem Effects.stored (hgrows : Grows w.store T) : Effects S t w { w with store := T } :=
  .of_changes hi ⟨fun _ _ _ h => h, fun _ _ _ h => h, fun _ _ => rfl⟩ (.same hi.sound) hgrows

/-- The end of a context leaves its own call without locks and the others as they were. -/
theorem Effects.contextDone {u : Nat} (hcond : S.cond t (.contextDone u) () w) :
    Effects S t w { w.release u with gone := Function.update w.gone u true } := by
  have hspares := Spares.release w u
  have heffects : Effects S u w { w.release u with gone := Function.update w.gone u true } :=
    .of_changes hi ⟨hspares.holder, hspares.keeper, fun v hv => update_of_ne hv ..⟩ (.same hi.sound) hi.single.grows
  refine ⟨heffects.1, fun v _ => ?_⟩
  by_cases hv : v = u
  · subst hv
    have hgone : Function.update w.gone v true v ≠ false := by simp
    refine ⟨⟨(Later.refl w).rows, (Later.refl w).inserted⟩, fun h => absurd h hgone, fun h => absurd h hgone,
      fun hkeeps id r hkeeper hr => ?_⟩
    obtain ⟨hmem, rfl⟩ := w.tables.requests.find_eq_some.mp hr
    exact absurd hkeeper (hkeeps.resolve_right hgone _ _ _ _ hcond r hmem)
  · exact heffects.2 v hv

theorem perform_effects {q : Task} {c : Call} {r : c.Ans} (hallowed : Allowed S t q c w) (hcond : S.cond t c r w)
    (hgone : c.failed r ≠ none → w.gone t = false) (hx : perform S.svc t c w r w') : Effects S t w w' := by
  have hlock : ∀ roomID, w.holder roomID = none → Effects S t w (w.lockBinding t roomID) := fun roomID hfree =>
    .of_changes hi (.lockBinding hfree) (.same hi.sound) hi.single.grows
  cases c with
  | selectBinding | selectRoom => exact .reads hi hx
  | insertBinding roomID =>
    obtain ⟨hfree, -, rfl⟩ | ⟨-, rfl⟩ := hx
    · exact hlock roomID hfree
    · exact .refl hi
  | lockBinding roomID => exact .locks hi (hlock roomID) hx
  | lockBindingFor request => exact .locks hi (hlock request.roomID) hx
  | lockRequest requestID =>
    exact .locks hi (fun hfree => .of_changes hi (.lockRequest hfree) (.same hi.sound) hi.single.grows) hx
  | selectExists | selectCount => exact .reads hi hx
  | insertRequest request =>
    obtain ⟨hheld, hvalid, hstatus⟩ := hallowed (hgone nofun)
    exact .commits hi (fun T hT => .insert hi.sound hheld hvalid hstatus hT) hi.single.grows hx
  | commitBinding roomID b =>
    obtain ⟨hheld, hvalid⟩ := hallowed (hgone nofun)
    exact .commits hi (fun T hT => .bind hi.sound hheld hvalid hx.1 hT) hi.single.grows hx.2
  | commitRequest request =>
    obtain ⟨hkeeper, row, hrow, hsettles, hstill, hreplied⟩ := hallowed (hgone nofun)
    exact .commits hi (fun T hT => .settle hi.sound hkeeper hrow hsettles hstill hreplied hT) (completed_grows hi.single _) hx
  | rollback =>
    cases hx
    exact .release hi
  | cancelRequests roomID sender eventID =>
    refine .writes (fun _ w₁ hdone => ?_) (.refl hi) hx.2
    cases hdone
    exact .of_changes hi ⟨fun _ _ _ h => h, fun _ _ _ h => h, fun _ _ => rfl⟩ (.cancel hi.sound hx.1) hi.single.grows
  | contextDone u =>
    cases hx
    exact .contextDone hi hcond
  | insertOperation op =>
    refine .writes (fun _ w₁ hdone => ?_) (.refl hi) hx
    obtain ⟨T, hT, heq⟩ := map_eq_some_iff.mp hdone
    obtain ⟨-, rfl⟩ := Prod.mk.inj heq
    exact .stored hi (admitted_grows hi.single hT)
  | selectOperation operationID => exact .reads hi hx
  | store c =>
    obtain ⟨hdelete, T, hT, rfl⟩ := hx
    exact .stored hi (hi.single.call hT hdelete)
  | transport | foreign =>
    obtain ⟨T, hT, rfl⟩ := hx
    exact .stored hi (hi.single.handle hT)
  | readRoom | readMessage | respond =>
    cases hx
    exact .refl hi

theorem exec_effects {q : Task} {c : Call} {r : c.Ans} (hallowed : Allowed S t q c w)
    (hx : (machine S.svc S.cond).exec t q c w r w') : Effects S t w w' := by
  obtain ⟨hx, hcond⟩ := hx
  unfold exec at hx
  split at hx
  · obtain ⟨-, rfl⟩ := hx
    exact .refl hi
  · rename_i hperform
    refine perform_effects hi hallowed hcond (fun hfailed => ?_) hx
    rw [← Bool.not_eq_true]
    exact fun hgone => hperform ⟨hgone, hfailed⟩

end

end Dirextalk.GroupAgent

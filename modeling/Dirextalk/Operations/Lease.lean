/-
  Dirextalk.Operations.Lease — leases on operation records, under any number of claimants.

  A record has one lease owner, a time until which the lease holds, and a revision that
  every successful claim or swap raises. A claimant keeps a tracker with the record it last
  got back from the store, and writes with its owner name and that revision. Leases end at
  any time and are taken over; claimants go on with stale trackers.

  Beside the table stand the revision that each operation's last successful claim or swap
  has written, and for each tracker the record the store returned last.
-/
import Dirextalk.Lib.Run
import Dirextalk.Operations.Store

namespace Dirextalk.Operations

open Lib Function
open Function (update_eq_self update_of_ne update_self)

/-! ## Claimants at one store -/

inductive Kind where
  | database
  | memory

/-- A call of `ClaimOperation`, with the readings of the store clock. -/
structure Claim where
  record : Record
  owner : String
  leaseDurationMillis : Int
  leaseNow : Int
  now : Int

structure Swap where
  record : Record
  expectedRevision : Int
  owner : String
  leaseDurationMillis : Int
  now : Int
  leaseNow : Int

structure World where
  clock : Int
  table : String → Row
  /-- The revision the last successful claim or swap has written. -/
  written : String → Option Int
  /-- The trackers, and the record each got back last. -/
  trackers : List (Tracker × Record)

def Claim.run (k : Kind) (c : Claim) : Row → (Record × Bool) × Row :=
  match k with
  | .database => claimOperation c.record c.owner c.leaseDurationMillis c.leaseNow c.now
  | .memory => Memory.claimOperation c.record c.owner c.leaseDurationMillis c.now

def Swap.run (c : Swap) : Row → Option Record × Row :=
  compareAndSwapOperation c.record c.expectedRevision c.owner c.leaseDurationMillis c.now c.leaseNow

namespace World

def claim (k : Kind) (c : Claim) (w : World) : (Record × Bool) × World :=
  let id := c.record.operationID
  let (answer, row) := c.run k (w.table id)
  (answer, { w with
    clock := max w.clock c.now
    table := update w.table id row
    written := if answer.2 then update w.written id (some answer.1.revision) else w.written })

def swap (c : Swap) (w : World) : Option Record × World :=
  let id := c.record.operationID
  let (answer, row) := c.run (w.table id)
  (answer, { w with
    clock := max w.clock c.leaseNow
    table := update w.table id row
    written := match answer with
      | some updated => update w.written id (some updated.revision)
      | none => w.written })

/-- The swap of the `i`-th tracker, which keeps the record it gets back. -/
def trackerSwap (i : Nat) (t : Tracker) (c : Swap) (w : World) : World :=
  match w.swap c with
  | (some updated, w') => { w' with trackers := w'.trackers.set i ({ t with record := updated }, updated) }
  | (none, w') => w'

end World

def Tracker.swap (t : Tracker) (record : Record) (leaseDurationMillis now leaseNow : Int) : Swap :=
  ⟨record, t.record.revision, t.owner, leaseDurationMillis, now, leaseNow⟩

inductive LeaseEv where
  | claim (c : Claim)
  /-- A claimant that claims and makes a tracker, which may hold a changed record. -/
  | track (c : Claim) (start : Record)
  | swap (c : Swap)
  | update (i : Nat) (p : Progress) (time now leaseNow : Int)
  | release (i : Nat) (time now leaseNow : Int)

/-- The clock reads of a call come after those of the calls before it, but for the lease of a claim,
which is computed before the call gets to the row. -/
inductive LeaseStep (k : Kind) : World → LeaseEv → World → Prop where
  | claim {w : World} (c : Claim) (hclock : w.clock ≤ c.now) (hlease : c.leaseNow ≤ c.now) :
      LeaseStep k w (.claim c) (w.claim k c).2
  | track {w : World} {c : Claim} {claimed start : Record} (hclock : w.clock ≤ c.now) (hlease : c.leaseNow ≤ c.now)
      (hclaimed : (w.claim k c).1 = (claimed, true)) (hid : start.operationID = claimed.operationID)
      (hrevision : start.revision = claimed.revision) :
      LeaseStep k w (.track c start)
        { (w.claim k c).2 with trackers := w.trackers ++ [(⟨c.owner, start, c.leaseDurationMillis⟩, claimed)] }
  | swap {w : World} (c : Swap) (hclock : w.clock ≤ c.now) (hlease : c.now ≤ c.leaseNow) :
      LeaseStep k w (.swap c) (w.swap c).2
  | update {w : World} {i : Nat} {t : Tracker} {got : Record} (p : Progress) (time : Int) {now leaseNow : Int}
      (hi : w.trackers[i]? = some (t, got)) (hclock : w.clock ≤ now) (hlease : now ≤ leaseNow) :
      LeaseStep k w (.update i p time now leaseNow)
        (w.trackerSwap i t (t.swap (t.updated p time) t.leaseDurationMillis now leaseNow))
  | release {w : World} {i : Nat} {t : Tracker} {got : Record} (time : Int) {now leaseNow : Int}
      (hi : w.trackers[i]? = some (t, got)) (howner : t.record.leaseOwner ≠ "") (hclock : w.clock ≤ now)
      (hlease : now ≤ leaseNow) :
      LeaseStep k w (.release i time now leaseNow) (w.trackerSwap i t (t.swap (t.released time) 0 now leaseNow))
  /-- Nothing to release. -/
  | released {w : World} {i : Nat} {t : Tracker} {got : Record} (time now leaseNow : Int)
      (hi : w.trackers[i]? = some (t, got)) (howner : t.record.leaseOwner = "") :
      LeaseStep k w (.release i time now leaseNow) w

structure World.Start (w : World) : Prop where
  keyed : ∀ id r, w.table id = some r → r.operationID = id
  written : ∀ id, w.written id = (w.table id).map (·.revision)
  trackers : w.trackers = []

structure Fenced (k : Kind) (w : World) : Prop where
  /-- At most one owner can swap, and with one revision. -/
  one : ∀ a b : Swap, a.record.operationID = b.record.operationID → (w.swap a).1.isSome → (w.swap b).1.isSome →
    a.owner = b.owner ∧ a.expectedRevision = b.expectedRevision
  /-- A swap that succeeds has come from the owner of the unexpired lease, with the revision that was
  written last. -/
  fenced : ∀ (a : Swap) (updated : Record), (w.swap a).1 = some updated →
    ∃ current, w.table a.record.operationID = some current ∧ current.leaseOwner = a.owner ∧ a.now < current.leaseUntil ∧
      w.written a.record.operationID = some a.expectedRevision ∧ updated.revision = a.expectedRevision + 1 ∧
      (w.swap a).2.table a.record.operationID = some updated
  /-- A tracker that swaps writes over the record it got. -/
  tracked : ∀ t got, (t, got) ∈ w.trackers → ∀ (record : Record) (duration now leaseNow : Int),
    record.operationID = t.record.operationID → (w.swap (t.swap record duration now leaseNow)).1.isSome →
    w.table record.operationID = some got
  /-- A claim of an existing record leaves it, or raises its revision and gives it a lease. -/
  claimed : ∀ (c : Claim) (current : Record), w.table c.record.operationID = some current →
    ((w.claim k c).1 = (current, false) ∧ (w.claim k c).2.table = w.table) ∨
    ∃ owner until_, (w.claim k c).1 = (current.leased (owner, until_), true) ∧
      (w.claim k c).2.table c.record.operationID = some (current.leased (owner, until_))
  /-- Nobody else can claim before the lease ends. -/
  excluded : ∀ (c : Claim) (current : Record), w.table c.record.operationID = some current → current.leaseOwner ≠ "" →
    c.owner ≠ current.leaseOwner → c.now < current.leaseUntil → (w.claim k c).1 = (current, false)

/-- Rows stay, and a row that changes has a higher revision. -/
def Grows (w w' : World) : Prop :=
  ∀ id r, w.table id = some r → ∃ r', w'.table id = some r' ∧ (r' = r ∨ r.revision < r'.revision)

/-! ## One call -/

variable {k : Kind} {w w' w₀ : World} {ev : LeaseEv}

theorem Claim.run_eq (k : Kind) (c : Claim) : ∃ free l, c.run k = claimRow free c.record l := by
  cases k with
  | database | memory => exact ⟨_, _, rfl⟩

theorem Claim.run_none (k : Kind) (c : Claim) :
    ∃ r, c.run k none = ((r, true), some r) ∧ r.operationID = c.record.operationID := by
  obtain ⟨free, l, heq⟩ := c.run_eq k
  rw [heq]
  exact ⟨_, rfl, rfl⟩

theorem Claim.run_some (k : Kind) (c : Claim) (current : Record) :
    c.run k (some current) = ((current, false), some current) ∨
      ∃ l, c.run k (some current) = ((current.leased l, true), some (current.leased l)) := by
  obtain ⟨free, l, heq⟩ := c.run_eq k
  rw [heq]
  exact claimRow_some.imp_right fun ⟨_, _, h⟩ => ⟨l, h⟩

/-- An unexpired lease of somebody else is not free, in either store. -/
theorem Claim.run_excluded (k : Kind) (c : Claim) (hholder : current.leaseOwner ≠ "")
    (hother : c.owner ≠ current.leaseOwner) (huntil : c.now < current.leaseUntil) :
    c.run k (some current) = ((current, false), some current) := by
  have hleft : ¬ current.leaseUntil ≤ c.now := by omega
  cases k with
  | database =>
    have hlease : current.leaseOwner ≠ (lease c.owner c.leaseDurationMillis c.leaseNow).1 := by
      unfold lease
      split
      · exact hother.symm
      · exact hholder
    simp [run, claimOperation, claimRow, hholder, hleft, hlease]
  | memory => simp [run, Memory.claimOperation, claimRow, hholder, hother.symm, huntil]

/-- What a step does to the row of an operation: nothing, or it writes a row with a revision of which
`written` is told. -/
def Writes (w w' : World) : Prop :=
  (w'.table = w.table ∧ w'.written = w.written) ∨
    ∃ r : Record, w'.table = update w.table r.operationID (some r) ∧
      w'.written = update w.written r.operationID (some r.revision) ∧
      ∀ old, w.table r.operationID = some old → r.revision = old.revision + 1

theorem World.claim_writes (hkeyed : ∀ id r, w.table id = some r → r.operationID = id) (k : Kind) (c : Claim) :
    Writes w (w.claim k c).2 := by
  cases hrow : w.table c.record.operationID with
  | none =>
    obtain ⟨r, hrun, hid⟩ := c.run_none k
    refine .inr ⟨r, ?_, ?_, ?_⟩
    · simp [claim, hrow, hrun, hid]
    · simp [claim, hrow, hrun, hid]
    · intro old hold
      rw [hid, hrow] at hold
      cases hold
  | some current =>
    obtain hrun | ⟨l, hrun⟩ := c.run_some k current
    · refine .inl ⟨?_, ?_⟩
      · simp only [claim, hrow, hrun]
        rw [← hrow, update_eq_self]
      · simp [claim, hrow, hrun]
    · have hid : (current.leased l).operationID = c.record.operationID := hkeyed _ current hrow
      refine .inr ⟨current.leased l, ?_, ?_, ?_⟩
      · simp [claim, hrow, hrun, hid]
      · simp [claim, hrow, hrun, hid]
      · intro old hold
        rw [hid, hrow] at hold
        cases hold
        rfl

/-- A claim that succeeds returns the row it leaves. -/
theorem World.claim_stored (hkeyed : ∀ id r, w.table id = some r → r.operationID = id)
    (h : (w.claim k c).1 = (claimed, true)) : (w.claim k c).2.table claimed.operationID = some claimed := by
  cases hrow : w.table c.record.operationID with
  | none =>
    obtain ⟨r, hrun, hid⟩ := c.run_none k
    obtain rfl : r = claimed := by simpa [claim, hrow, hrun] using h
    simp [claim, hrow, hrun, hid]
  | some current =>
    obtain hrun | ⟨l, hrun⟩ := c.run_some k current
    · simp [claim, hrow, hrun] at h
    · obtain rfl : current.leased l = claimed := by simpa [claim, hrow, hrun] using h
      have hid : (current.leased l).operationID = c.record.operationID := hkeyed _ current hrow
      simp [claim, hrow, hrun, hid]

theorem World.swap_cases (c : Swap) (w : World) :
    ((w.swap c).1 = none ∧ (w.swap c).2.table = w.table ∧ (w.swap c).2.written = w.written) ∨
    ∃ updated current, (w.swap c).1 = some updated ∧ w.table c.record.operationID = some current ∧
      current.revision = c.expectedRevision ∧ current.leaseOwner = c.owner ∧ c.now < current.leaseUntil ∧
      updated.operationID = c.record.operationID ∧ updated.revision = current.revision + 1 ∧
      (w.swap c).2.table = update w.table c.record.operationID (some updated) ∧
      (w.swap c).2.written = update w.written c.record.operationID (some updated.revision) := by
  have hrow :
      (c.run (w.table c.record.operationID)).2 = (c.run (w.table c.record.operationID)).1.or (w.table c.record.operationID) :=
    compareAndSwap_row
  cases hrun : (c.run (w.table c.record.operationID)).1 with
  | none =>
    rw [hrun] at hrow
    refine .inl ⟨hrun, ?_, ?_⟩
    · simp [swap, hrow]
    · simp [swap, hrun]
  | some updated =>
    rw [hrun] at hrow
    obtain ⟨current, hcurrent, hrevision, howner, huntil, rfl⟩ := compareAndSwap_some_iff.mp hrun
    refine .inr ⟨_, current, hrun, hcurrent, hrevision, howner, huntil, rfl, rfl, ?_, ?_⟩
    · simp [swap, hrow]
    · simp [swap, hrun]

theorem World.swap_writes (c : Swap) (w : World) : Writes w (w.swap c).2 := by
  obtain ⟨_, htable, hwritten⟩ | ⟨updated, current, _, hrow, _, _, _, hid, hrevision, htable, hwritten⟩ := w.swap_cases c
  · exact .inl ⟨htable, hwritten⟩
  · refine .inr ⟨updated, ?_, ?_, ?_⟩
    · rw [htable, hid]
    · rw [hwritten, hid]
    · intro old hold
      rw [hid, hrow] at hold
      cases hold
      exact hrevision

/-! ## Over a run -/

/-- Rows stand under their ids, `written` knows their revisions, and every tracker has an id and a revision it got
from the store, for a row that is still there or has moved on. -/
structure World.Sound (w : World) : Prop where
  keyed : ∀ id r, w.table id = some r → r.operationID = id
  written : ∀ id, w.written id = (w.table id).map (·.revision)
  trackers : ∀ t got, (t, got) ∈ w.trackers → t.record.operationID = got.operationID ∧ t.record.revision = got.revision ∧
    ∃ current, w.table got.operationID = some current ∧ (current = got ∨ got.revision < current.revision)

theorem Writes.grows (h : Writes w w') : Grows w w' := by
  intro id r hr
  obtain ⟨htable, _⟩ | ⟨new, htable, _, hnext⟩ := h
  · exact ⟨r, htable ▸ hr, .inl rfl⟩
  · rw [htable]
    by_cases hid : id = new.operationID
    · subst hid
      have hrevision := hnext r hr
      exact ⟨new, update_self .., .inr (by omega)⟩
    · exact ⟨r, by rwa [update_of_ne hid], .inl rfl⟩

theorem Grows.refl (w : World) : Grows w w := fun _ r hr => ⟨r, hr, .inl rfl⟩

theorem Grows.trans (h : Grows w w') (h' : Grows w' w'') : Grows w w'' := by
  intro id r hr
  obtain ⟨r', hr', hle⟩ := h id r hr
  obtain ⟨r'', hr'', hle'⟩ := h' id r' hr'
  refine ⟨r'', hr'', ?_⟩
  obtain rfl | hlt := hle
  · exact hle'
  · obtain rfl | hlt' := hle'
    · exact .inr hlt
    · exact .inr (by omega)

namespace World.Sound

theorem of_start (h : w.Start) : w.Sound where
  keyed := h.keyed
  written := h.written
  trackers t got hmem := by simp [h.trackers] at hmem

/-- A write keeps the table in order; the trackers are given. -/
theorem writes (h : w.Sound) (hw : Writes w w')
    (htrackers : ∀ t got, (t, got) ∈ w'.trackers → (t, got) ∈ w.trackers ∨
      (t.record.operationID = got.operationID ∧ t.record.revision = got.revision ∧ w'.table got.operationID = some got)) :
    w'.Sound := by
  refine ⟨?_, ?_, ?_⟩
  · intro id r hr
    obtain ⟨htable, _⟩ | ⟨new, htable, _, _⟩ := hw
    · exact h.keyed id r (htable ▸ hr)
    · rw [htable] at hr
      by_cases hid : id = new.operationID
      · subst hid
        rw [update_self] at hr
        cases hr
        rfl
      · rw [update_of_ne hid] at hr
        exact h.keyed id r hr
  · intro id
    obtain ⟨htable, hwritten⟩ | ⟨new, htable, hwritten, _⟩ := hw
    · rw [htable, hwritten, h.written id]
    · rw [htable, hwritten]
      by_cases hid : id = new.operationID
      · subst hid
        rw [update_self, update_self]
        rfl
      · rw [update_of_ne hid, update_of_ne hid, h.written id]
  · intro t got hmem
    obtain hold | ⟨hid, hrevision, hrow⟩ := htrackers t got hmem
    · obtain ⟨hid, hrevision, current, hrow, hle⟩ := h.trackers t got hold
      refine ⟨hid, hrevision, ?_⟩
      obtain ⟨current', hrow', hle'⟩ := hw.grows _ current hrow
      refine ⟨current', hrow', ?_⟩
      obtain rfl | hlt := hle
      · exact hle'
      · obtain rfl | hlt' := hle'
        · exact .inr hlt
        · exact .inr (by omega)
    · exact ⟨hid, hrevision, got, hrow, .inl rfl⟩

end World.Sound

theorem World.trackerSwap_writes (i : Nat) (t : Tracker) (c : Swap) (w : World) : Writes w (w.trackerSwap i t c) := by
  have hw := w.swap_writes c
  unfold trackerSwap
  split
  · rename_i heq
    rw [heq] at hw
    exact hw
  · rename_i heq
    rw [heq] at hw
    exact hw

theorem World.trackerSwap_trackers (i : Nat) (t : Tracker) (c : Swap) (w : World) :
    ∀ t' got, (t', got) ∈ (w.trackerSwap i t c).trackers → (t', got) ∈ w.trackers ∨
      (t'.record.operationID = got.operationID ∧ t'.record.revision = got.revision ∧
        (w.trackerSwap i t c).table got.operationID = some got) := by
  intro t' got hmem
  unfold trackerSwap at hmem ⊢
  obtain ⟨hnone, _, _⟩ | ⟨updated, current, hsome, _, _, _, _, hid, _, htable, _⟩ := w.swap_cases c
  · split at hmem
    · rename_i heq
      rw [heq] at hnone
      cases hnone
    · rename_i heq
      have htrackers : (w.swap c).2.trackers = w.trackers := rfl
      rw [heq] at htrackers
      exact .inl (htrackers ▸ hmem)
  · have htrackers : (w.swap c).2.trackers = w.trackers := rfl
    split at hmem
    · rename_i got' w' heq
      rw [heq] at hsome htable htrackers
      cases hsome
      obtain hold | heq' := List.mem_or_eq_of_mem_set hmem
      · exact .inl (htrackers ▸ hold)
      · cases heq'
        refine .inr ⟨rfl, rfl, ?_⟩
        simp only
        rw [htable, hid, update_self]
    · rename_i heq
      rw [heq] at hsome
      cases hsome

theorem LeaseStep.writes (hs : LeaseStep k w ev w') (h : w.Sound) : Writes w w' := by
  cases hs with
  | claim c _ _ => exact World.claim_writes h.keyed k c
  | track _ _ _ _ _ => exact World.claim_writes h.keyed k _
  | swap c _ _ => exact w.swap_writes c
  | update | release => exact w.trackerSwap_writes ..
  | released time now leaseNow hi _ => exact .inl ⟨rfl, rfl⟩

theorem LeaseStep.sound (hs : LeaseStep k w ev w') (h : w.Sound) : w'.Sound := by
  refine h.writes (hs.writes h) ?_
  cases hs with
  | claim c _ _ => exact fun _ _ hmem => .inl hmem
  | @track c claimed start _ _ hclaimed hid hrevision =>
    intro t got hmem
    obtain hold | hnew := List.mem_append.mp hmem
    · exact .inl hold
    · cases List.mem_singleton.mp hnew
      exact .inr ⟨hid, hrevision, World.claim_stored h.keyed hclaimed⟩
  | swap c _ _ => exact fun _ _ hmem => .inl hmem
  | update _ _ _ _ _ | release _ _ _ _ _ => exact World.trackerSwap_trackers _ _ _ w
  | released time now leaseNow hi _ => exact fun _ _ hmem => .inl hmem

theorem World.Sound.fenced (h : w.Sound) (k : Kind) : Fenced k w := by
  -- a swap that answers has found its row
  have hfound : ∀ (a : Swap) (updated : Record), (w.swap a).1 = some updated → ∃ current,
      w.table a.record.operationID = some current ∧ current.revision = a.expectedRevision ∧ current.leaseOwner = a.owner ∧
      a.now < current.leaseUntil ∧ updated.revision = current.revision + 1 ∧
      (w.swap a).2.table a.record.operationID = some updated := by
    intro a updated hsome
    obtain ⟨hnone, _, _⟩ | ⟨updated', current, hsome', hrow, hrevision, howner, huntil, _, hnext, htable, _⟩ := w.swap_cases a
    · rw [hnone] at hsome
      cases hsome
    · cases hsome'.symm.trans hsome
      exact ⟨current, hrow, hrevision, howner, huntil, hnext, by rw [htable, update_self]⟩
  refine ⟨?_, ?_, ?_, ?_, ?_⟩
  · intro a b hid ha hb
    obtain ⟨_, ha⟩ := Option.isSome_iff_exists.mp ha
    obtain ⟨_, hb⟩ := Option.isSome_iff_exists.mp hb
    obtain ⟨current, hrow, hrevision, howner, _⟩ := hfound a _ ha
    obtain ⟨current', hrow', hrevision', howner', _⟩ := hfound b _ hb
    rw [← hid, hrow] at hrow'
    cases hrow'
    exact ⟨howner.symm.trans howner', hrevision.symm.trans hrevision'⟩
  · intro a updated hsome
    obtain ⟨current, hrow, hrevision, howner, huntil, hnext, htable⟩ := hfound a updated hsome
    refine ⟨current, hrow, howner, huntil, ?_, by omega, htable⟩
    rw [h.written, hrow, ← hrevision]
    rfl
  · intro t got hmem record duration now leaseNow hid hsome
    obtain ⟨_, hsome⟩ := Option.isSome_iff_exists.mp hsome
    obtain ⟨current, hrow, hrevision, _⟩ := hfound _ _ hsome
    obtain ⟨hid', hrevision', current', hrow', hle⟩ := h.trackers t got hmem
    have hrow : w.table record.operationID = some current := hrow
    have hrevision : current.revision = t.record.revision := hrevision
    rw [← hid', ← hid, hrow] at hrow'
    cases hrow'
    obtain rfl | hlt := hle
    · exact hrow
    · omega
  · intro c current hrow
    obtain hrun | ⟨l, hrun⟩ := c.run_some k current
    · refine .inl ⟨?_, ?_⟩
      · simp [claim, hrow, hrun]
      · simp only [claim, hrow, hrun]
        rw [← hrow, update_eq_self]
    · refine .inr ⟨l.1, l.2, ?_, ?_⟩
      · simp [claim, hrow, hrun]
      · simp [claim, hrow, hrun]
  · intro c current hrow hholder hother huntil
    simp [claim, hrow, c.run_excluded k hholder hother huntil]

theorem Grows.of_run (hr : Run (LeaseStep k) w evs w') (h : w.Sound) : Grows w w' :=
  hr.rel (I := World.Sound) .refl (fun _ _ _ => .trans) (fun _ _ _ h hs => hs.sound h)
    (fun _ _ _ h hs => (hs.writes h).grows) h

/-- In every state of every run, on both stores, the lease fences: only its owner swaps, with the revision
written last; and from there on no record is lost and every write raises its revision. -/
theorem lease_exclusion (k : Kind) {w₀ w : World} {evs : List LeaseEv} (h0 : w₀.Start) (hr : Run (LeaseStep k) w₀ evs w) :
    Fenced k w ∧ ∀ evs' w', Run (LeaseStep k) w evs' w' → Grows w w' := by
  have hsound : w.Sound := hr.inv (fun _ _ _ h hs => hs.sound h) (.of_start h0)
  exact ⟨hsound.fenced k, fun evs' w' hr' => .of_run hr' hsound⟩

def sampleRecord : Record :=
  ⟨"op_1", "groups.join", "running", "prepared", "!r:example.com", "", "@u:example.com", "", "request", "", "", "", 0,
    "", 0, 0, 0⟩

def World.empty : World := ⟨0, fun _ => none, fun _ => none, []⟩

/-- A claim at time 10 for 90 milliseconds, an update of its tracker at 20, and a takeover at 120: the first tracker
can no longer swap. -/
theorem lease_exclusion_taken_over : ∃ w t got, World.empty.Start ∧ Run (LeaseStep .database) World.empty
        [.track ⟨sampleRecord, "claim_a", 90, 10, 10⟩
          { sampleRecord with revision := 1, leaseOwner := "claim_a", leaseUntil := 100 },
          .update 0 ⟨"running", "matrix_committed", "", "", ""⟩ 20 20 20,
          .claim ⟨sampleRecord, "claim_b", 90, 120, 120⟩] w ∧
      (t, got) ∈ w.trackers ∧ t.record.revision = 2 ∧ w.written "op_1" = some 3 ∧
      (w.swap (t.swap t.record 90 130 130)).1 = none ∧ Fenced .database w := by
  have hstart : World.empty.Start := by
    refine ⟨?_, ?_, rfl⟩ <;> simp [World.empty]
  refine' ⟨_, _, _, hstart, ?run, List.mem_of_getElem? (i := 0) ?tracker, ?_, ?_, ?_, (lease_exclusion .database hstart ?run).1⟩
  case run =>
    exact .cons (.track (by decide) (by decide) rfl rfl rfl) (.cons (.update _ _ rfl (by decide) (by decide))
      (.single (.claim _ (by decide) (by decide))))
  case tracker => rfl
  all_goals decide

end Dirextalk.Operations

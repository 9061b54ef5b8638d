/-
  Dirextalk.Federation.Transactions — the ids of the transactions to a destination
  (`federationapi/queue/destinationqueue.go`, `federationapi/statistics/statistics.go`).

  A transaction takes the head of the pending lists. Its id is made of the clock and the
  number of direct successes, and is kept until a send succeeds. The lists may grow while it
  is under way; after a success they lose as many entries as were noted before.

  An id should name one content. It does not (`retry_sends_more`): the lists grow before the
  retry. Also, a relay success leaves the number as it is. `id_names_content`: runs that
  meet `Fits` have neither.
-/
import Dirextalk.Lib.Run
import Mathlib.Data.List.Induction

namespace Dirextalk.Federation

open Lib

structure Transaction (α : Type) where
  id : Nat × Nat
  pdus : List α
  edus : List α
  success : Bool

inductive Outcome where
  | direct
  | relay
  | failed
  deriving DecidableEq

structure Queue (α : Type) where
  transactionID : Option (Nat × Nat) := none
  successCount : Nat := 0
  pendingPDUs : List α := []
  pendingEDUs : List α := []
  clock : Nat := 0
  /-- `pduCount` and `eduCount` of the transaction under way. -/
  noted : Option (Nat × Nat) := none
  /-- Newest first. -/
  sent : List (Transaction α) := []

inductive Ev (α : Type) where
  /-- `sendEvent`, `sendEDU` and `getPendingFromDatabase`. -/
  | pend (pdus edus : List α)
  | send (now : Nat)
  | finish (outcome : Outcome)
  /-- The queue is deleted; the next one shares its statistics. -/
  | blacklist

namespace Queue

variable {α : Type} (q : Queue α)

@[simp] def pduCount : Nat := min q.pendingPDUs.length 50

@[simp] def eduCount : Nat := min q.pendingEDUs.length 100

@[simp] def createTransaction (now : Nat) : Transaction α where
  id := q.transactionID.getD (now, q.successCount)
  pdus := q.pendingPDUs.take q.pduCount
  edus := q.pendingEDUs.take q.eduCount
  success := false

@[simp] def handleTransactionSuccess (pduCount eduCount : Nat) (outcome : Outcome) : Queue α :=
  { q with
    transactionID := none
    successCount := if outcome = .direct then q.successCount + 1 else q.successCount
    pendingPDUs := q.pendingPDUs.drop pduCount
    pendingEDUs := q.pendingEDUs.drop eduCount
    noted := none
    sent := q.sent.modifyHead fun t => { t with success := true } }

@[simp] def after : Ev α → Queue α
  | .pend pdus edus => { q with pendingPDUs := q.pendingPDUs ++ pdus, pendingEDUs := q.pendingEDUs ++ edus }
  | .blacklist => { q with transactionID := none, pendingPDUs := [], pendingEDUs := [], noted := none }
  | .send now =>
    let t := q.createTransaction now
    { q with clock := now, transactionID := some t.id, noted := some (q.pduCount, q.eduCount), sent := t :: q.sent }
  | .finish outcome =>
    match q.noted with
    | none => q
    | some (pduCount, eduCount) =>
      if outcome = .failed then { q with noted := none } else q.handleTransactionSuccess pduCount eduCount outcome

@[simp] def Step (q : Queue α) (e : Ev α) (q' : Queue α) : Prop :=
  (∀ now, e = .send now → q.noted = none ∧ q.clock ≤ now) ∧ q' = q.after e

/-- A retry has the content of the transaction before it; otherwise the clock or the number has moved on since that. -/
@[simp] def Fits (q : Queue α) (e : Ev α) (_ : Queue α) : Prop :=
  ∀ now, e = .send now → ∀ last ∈ q.sent.head?,
    if q.transactionID.isSome then last.pdus = q.pendingPDUs.take q.pduCount ∧ last.edus = q.pendingEDUs.take q.eduCount
    else last.id.1 < now ∨ last.id.2 < q.successCount

/-- Of two transactions with one id the content is the same, and the earlier one failed. -/
def Agree (later earlier : Transaction α) : Prop :=
  later.id = earlier.id → (later.pdus = earlier.pdus ∧ later.edus = earlier.edus) ∧ earlier.success = false

structure Inv : Prop where
  agree : q.sent.Pairwise Agree
  bounded : ∀ last ∈ q.sent.head?, last.id.1 ≤ q.clock ∧ last.id.2 ≤ q.successCount ∧
    ∀ t ∈ q.sent, t.id.1 ≤ last.id.1 ∧ t.id.2 ≤ last.id.2
  kept : ∀ id, q.transactionID = some id → ∃ last rest, q.sent = last :: rest ∧ last.id = id ∧ last.success = false

variable {q}

/-- The transaction that is sent next agrees with those before it, and its id is not below theirs. -/
theorem Inv.next {now : Nat} (h : q.Inv) (hclock : q.clock ≤ now) (hfits : q.Fits (.send now) q) :
    let next := q.createTransaction now
    (next.id.1 ≤ now ∧ next.id.2 ≤ q.successCount) ∧ ∀ t ∈ q.sent, Agree next t ∧ t.id.1 ≤ next.id.1 ∧ t.id.2 ≤ next.id.2 := by
  have hfit := hfits now rfl
  simp only [createTransaction]
  cases hid : q.transactionID with
  | none =>
    refine ⟨⟨Nat.le_refl _, Nat.le_refl _⟩, fun t ht => ?_⟩
    -- a new id is above the last one, and so above all
    obtain ⟨last, rest, hsent⟩ := List.exists_cons_of_ne_nil (List.ne_nil_of_mem ht)
    have hlast : last ∈ q.sent.head? := by simp [hsent]
    have hbounded := h.bounded last hlast
    have hmax := hbounded.2.2 t ht
    have hnew : last.id.1 < now ∨ last.id.2 < q.successCount := by simpa [hid] using hfit last hlast
    refine ⟨fun heq => ?_, ?_⟩
    · simp only [Option.getD_none, Prod.ext_iff] at heq
      omega
    · simp only [Option.getD_none]
      omega
  | some id =>
    -- a kept id is that of the last one, which failed and has the same content
    obtain ⟨last, rest, hsent, rfl, hfailed⟩ := h.kept id hid
    have hlast : last ∈ q.sent.head? := by simp [hsent]
    have hbounded := h.bounded last hlast
    obtain ⟨hpdus, hedus⟩ : last.pdus = q.pendingPDUs.take q.pduCount ∧ last.edus = q.pendingEDUs.take q.eduCount := by
      simpa [hid] using hfit last hlast
    refine ⟨⟨Nat.le_trans hbounded.1 hclock, hbounded.2.1⟩, fun t ht => ⟨fun heq => ?_, hbounded.2.2 t ht⟩⟩
    have hagree := h.agree
    rw [hsent] at ht hagree
    obtain rfl | hrest := List.mem_cons.mp ht
    · exact ⟨⟨hpdus.symm, hedus.symm⟩, hfailed⟩
    · simpa [hpdus, hedus] using (List.pairwise_cons.mp hagree).1 t hrest heq

theorem Inv.step {e : Ev α} (h : q.Inv) (hclock : ∀ now, e = .send now → q.clock ≤ now) (hfits : q.Fits e q) :
    (q.after e).Inv := by
  cases e with
  | pend pdus edus => exact { h with }
  | blacklist => exact ⟨h.agree, h.bounded, nofun⟩
  | send now =>
    obtain ⟨hbounded, hnext⟩ := h.next (hclock now rfl) hfits
    have hagree := List.pairwise_cons.mpr ⟨fun t ht => (hnext t ht).1, h.agree⟩
    refine ⟨hagree, ?_, ?_⟩
    all_goals grind [after, createTransaction]
  | finish outcome =>
    rw [after]
    split
    · exact h
    split
    · exact { h with }
    obtain ⟨hagree, hbounded, -⟩ := h
    refine ⟨?_, ?_, nofun⟩
    all_goals
      cases hsent : q.sent
      all_goals grind [handleTransactionSuccess, Agree, List.modifyHead, List.pairwise_cons]

end Queue

open Queue

/-- Transactions with one id have one content, and none is sent again once it succeeded. -/
theorem id_names_content {α : Type} {es : List (Ev α)} {q : Queue α} (hrun : Run (Under Step Fits) {} es q) :
    q.sent.Pairwise Agree := by
  have hinv : q.Inv := by
    refine hrun.inv_under (I := Queue.Inv) ?_ ⟨.nil, nofun, nofun⟩
    rintro q e _ h ⟨hclock, rfl⟩ hfits
    exact h.step (fun now he => (hclock now he).2) hfits
  exact hinv.agree

/-- A transaction fails, is sent again by a relay and followed by another, during which a PDU is queued. -/
theorem retried_and_relayed :
    ∃ es q, Run (Under Step Fits) ({} : Queue Nat) es q ∧ q.sent.length = 3 ∧ q.sent.Pairwise Agree := by
  have hrun : Run (Under Step Fits) ({} : Queue Nat) _ _ :=
    .cons (l := .pend [1] []) ⟨⟨by simp, rfl⟩, by simp⟩ <|
    .cons (l := .send 1) ⟨⟨by simp, rfl⟩, by simp⟩ <|
    .cons (l := .finish .failed) ⟨⟨by simp, rfl⟩, by simp⟩ <|
    .cons (l := .send 2) ⟨⟨by simp, rfl⟩, by simp⟩ <|
    .cons (l := .finish .relay) ⟨⟨by simp, rfl⟩, by simp⟩ <|
    .cons (l := .pend [2] []) ⟨⟨by simp, rfl⟩, by simp⟩ <|
    .cons (l := .send 3) ⟨⟨by simp, rfl⟩, by simp⟩ <|
    .cons (l := .pend [3] []) ⟨⟨by simp, rfl⟩, by simp⟩ <|
    .single (l := .finish .direct) ⟨⟨by simp, rfl⟩, by simp⟩
  exact ⟨_, _, hrun, rfl, id_names_content hrun⟩

/-- The first send fails; a PDU is queued before the retry. -/
theorem retry_sends_more : ∃ es q, Run Step ({} : Queue Nat) es q ∧
    q.sent = [⟨(1, 0), [1, 2], [], false⟩, ⟨(1, 0), [1], [], false⟩] := by
  have hrun : Run Step ({} : Queue Nat) _ _ :=
    .cons (l := .pend [1] []) ⟨by simp, rfl⟩ <|
    .cons (l := .send 1) ⟨by simp, rfl⟩ <|
    .cons (l := .finish .failed) ⟨by simp, rfl⟩ <|
    .cons (l := .pend [2] []) ⟨by simp, rfl⟩ <|
    .single (l := .send 2) ⟨by simp, rfl⟩
  exact ⟨_, _, hrun, rfl⟩

/-! ## What goes out -/

/-- The PDUs and EDUs that an event hands to the queue. -/
def Ev.pended : Ev α → List α × List α
  | .pend pdus edus => (pdus, edus)
  | _ => ([], [])

/-- The contents of the transactions that went through, oldest first, and then what is pending. -/
def Queue.taken (q : Queue α) : List α × List α :=
  let done := (q.sent.filter (·.success)).reverse
  (done.flatMap (·.pdus) ++ q.pendingPDUs, done.flatMap (·.edus) ++ q.pendingEDUs)

/-- What the transaction under way has is at the head of the pending lists. -/
def Queue.Underway (q : Queue α) : Prop :=
  ∀ counts, q.noted = some counts → ∃ t rest pdus edus, q.sent = t :: rest ∧ t.success = false ∧
    q.pendingPDUs = t.pdus ++ pdus ∧ q.pendingEDUs = t.edus ++ edus ∧ counts = (t.pdus.length, t.edus.length)

theorem taken_after {q : Queue α} (h : q.Underway) (e : Ev α) : let all := (q.taken.1 ++ e.pended.1, q.taken.2 ++ e.pended.2)
    (q.after e).Underway ∧ (q.after e).taken.1.Sublist all.1 ∧ (q.after e).taken.2.Sublist all.2 ∧
      (e ≠ .blacklist → (q.after e).taken = all) := by
  cases e with
  | pend pdus edus =>
    refine ⟨fun counts hcounts => ?_, by simp [taken, Ev.pended]⟩
    obtain ⟨t, rest, pdus', edus', hsent, hsuccess, hpdus, hedus, rfl⟩ := h counts hcounts
    exact ⟨t, rest, pdus' ++ pdus, edus' ++ edus, hsent, hsuccess, by simp [hpdus], by simp [hedus], rfl⟩
  | blacklist => exact ⟨nofun, by simp [taken, Ev.pended]⟩
  | send now =>
    refine ⟨?_, by simp [taken, Ev.pended]⟩
    rintro _ ⟨⟩
    exact ⟨_, _, _, _, rfl, rfl, (List.take_append_drop _ _).symm, (List.take_append_drop _ _).symm,
      by simp⟩
  | finish outcome =>
    rw [after]
    split
    · exact ⟨h, by simp [Ev.pended]⟩
    rename_i pduCount eduCount hnoted
    obtain ⟨t, rest, pdus, edus, hsent, hsuccess, hpdus, hedus, hcounts⟩ := h _ hnoted
    split
    · exact ⟨nofun, by simp [taken, Ev.pended]⟩
    · refine ⟨nofun, ?_⟩
      cases hcounts
      simp [taken, Ev.pended, hsent, hsuccess, hpdus, hedus]

/-- What was put on the pending lists goes out in that order and once. None of it is lost unless the destination is
blacklisted. -/
theorem sent_in_order (es : List (Ev α)) : let q := es.foldl Queue.after {}
    let all := (es.flatMap (·.pended.1), es.flatMap (·.pended.2))
    q.taken.1.Sublist all.1 ∧ q.taken.2.Sublist all.2 ∧ (.blacklist ∉ es → q.taken = all) := by
  suffices h : (es.foldl Queue.after {}).Underway ∧ _ from h.2
  induction es using List.reverseRecOn with
  | nil => exact ⟨nofun, by simp [taken]⟩
  | append_singleton es e ih =>
    obtain ⟨hunderway, hpdus, hedus, hall⟩ := taken_after ih.1 e
    simp only [List.foldl_append, List.foldl_cons, List.foldl_nil, List.flatMap_append, List.flatMap_singleton, List.mem_append,
      List.mem_singleton, not_or]
    refine ⟨hunderway, hpdus.trans (ih.2.1.append_right _), hedus.trans (ih.2.2.1.append_right _), ?_⟩
    intro h
    rw [hall (Ne.symm h.2), ih.2.2.2 h.1]

end Dirextalk.Federation

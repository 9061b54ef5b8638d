/-
  Dirextalk.Roomserver.Input — the workers that process the input of the rooms
  (`roomserver/internal/input/input.go`: `startWorkerForRoom`, `_next`).

  Actors. Messages are published to the stream under rising numbers. A consumer of the whole
  stream announces them in order; if the room has no subscription it starts the worker, and
  otherwise it only notes the number. The worker is a chain of calls of `_next`: each fetches
  a message, and queues the next call unless it ends the subscription. `publish`, `announce`,
  `fetch` and `finish` (what `_next` does with its answer, under the lock) interleave freely.

  A worker that times out looks for announcements that it has missed before it stops. One
  whose consumer is gone or whose fetch fails does not, so that a message announced in the
  meantime waits for the next announcement (`announced_stranded`).
-/
import Dirextalk.Lib.Run

namespace Dirextalk.Roomserver.Input

open Lib

inductive Answer where
  | message (seq : Nat)
  | noMessage
  | timeout
  | consumerGone
  | otherError

structure Worker where
  ephemeralSeq : Nat := 0
  durableSeq : Nat := 0
  subscribed : Bool := false
  /-- Calls of `_next` in the inbox. -/
  queued : Nat := 0
  /-- What the call that is running has fetched. -/
  running : Option Answer := none
  published : List Nat := []
  announced : List Nat := []
  fetched : List Nat := []
  /-- The consumer could not be started after the last announcement. -/
  startFailed : Bool := false

inductive Ev where
  | publish (seq : Nat)
  | announce (seq : Nat) (starts : Bool)
  | fetch (answer : Answer)
  | finish

namespace Worker

variable (w : Worker)

@[simp] def startWorkerForRoom (seq : Nat) (starts : Bool) : Worker :=
  let w := { w with ephemeralSeq := seq, announced := seq :: w.announced, startFailed := false }
  if w.subscribed then w
  else if starts then { w with subscribed := true, queued := w.queued + 1 }
  else { w with startFailed := true }

/-- `_next`, from the answer on. -/
@[simp] def next : Answer → Worker
  | .message seq => { w with durableSeq := seq, queued := w.queued + 1 }
  | .noMessage => { w with queued := w.queued + 1 }
  | .timeout => if w.ephemeralSeq > w.durableSeq then { w with queued := w.queued + 1 } else { w with subscribed := false }
  | .consumerGone => { w with subscribed := false }
  | .otherError => { w with subscribed := false }

/-- The stream numbers and announces in order, and delivers a message after those before it. -/
@[simp] def May : Ev → Prop
  | .publish seq => 0 < seq ∧ ∀ p ∈ w.published, p < seq
  | .announce seq _ => seq ∈ w.published ∧ w.ephemeralSeq < seq
  | .fetch answer => 0 < w.queued ∧ w.running = none ∧
    ∀ seq, answer = .message seq → seq ∈ w.published ∧ ∀ p ∈ w.published, p < seq → p ∈ w.fetched
  | .finish => w.running ≠ none

@[simp] def after : Ev → Worker
  | .publish seq => { w with published := seq :: w.published }
  | .announce seq starts => w.startWorkerForRoom seq starts
  | .fetch (.message seq) => { w with queued := w.queued - 1, running := some (.message seq), fetched := seq :: w.fetched }
  | .fetch answer => { w with queued := w.queued - 1, running := some answer }
  | .finish => w.running.elim w { w with running := none }.next

def CaughtUp : Prop := ∀ seq ∈ w.announced, seq ∈ w.fetched

/-- A fetch fails only once everything announced was fetched. -/
@[simp] def Fits (e : Ev) : Prop :=
  e = .finish → w.running = some .consumerGone ∨ w.running = some .otherError → w.CaughtUp

structure Inv : Prop where
  loops : w.queued + w.running.isSome.toNat = w.subscribed.toNat
  announced : ∀ seq ∈ w.announced, seq ∈ w.published ∧ seq ≤ w.ephemeralSeq
  numbered : ∀ seq ∈ w.published, 0 < seq
  fetched : ∀ seq ∈ w.fetched, seq ∈ w.published ∧ ∀ p ∈ w.published, p ≤ seq → p ∈ w.fetched
  running : ∀ seq, w.running = some (.message seq) → seq ∈ w.fetched
  durable : w.durableSeq = 0 ∨ w.durableSeq ∈ w.fetched
  stopped : w.subscribed = false → w.startFailed = true ∨ w.CaughtUp

variable {w}

theorem Inv.announce (h : w.Inv) (hmay : w.May (.announce seq starts)) : (w.startWorkerForRoom seq starts).Inv := by
  obtain ⟨hloops, hannounced, hnumbered, hfetched, hrunning, hdurable, hstopped⟩ := h
  constructor
  all_goals grind [May, startWorkerForRoom, CaughtUp]

theorem Inv.fetch (h : w.Inv) (hmay : w.May (.fetch answer)) : (w.after (.fetch answer)).Inv := by
  obtain ⟨hloops, hannounced, hnumbered, hfetched, hrunning, hdurable, hstopped⟩ := h
  cases answer
  all_goals
    constructor
    all_goals grind [after, May, CaughtUp]

theorem Inv.finish (h : w.Inv) (hanswer : w.running = some answer) (hfits : w.Fits .finish) :
    ({ w with running := none }.next answer).Inv := by
  obtain ⟨hloops, hannounced, hnumbered, hfetched, hrunning, hdurable, hstopped⟩ := h
  have hidle : w.queued = 0 ∧ w.subscribed = true := by
    rw [hanswer] at hloops
    cases hsubscribed : w.subscribed <;> simp_all
  -- a worker that stops at a timeout has fetched the last message announced, and so all
  cases answer
  all_goals
    constructor
    all_goals grind [next, CaughtUp, Fits]

theorem Inv.step (h : w.Inv) (hmay : w.May e) (hfits : w.Fits e) : (w.after e).Inv := by
  cases e with
  | publish seq =>
    obtain ⟨hloops, hannounced, hnumbered, hfetched, hrunning, hdurable, hstopped⟩ := h
    constructor
    all_goals grind [after, May, CaughtUp]
  | announce seq starts => exact h.announce hmay
  | fetch answer => exact h.fetch hmay
  | finish =>
    cases hanswer : w.running with
    | none => exact absurd hanswer hmay
    | some answer =>
      rw [after, hanswer]
      exact h.finish hanswer hfits

end Worker

/-- Every room has a worker; one that was never started is idle. -/
abbrev Workers := String → Worker

def Step (s : Workers) (l : String × Ev) (s' : Workers) : Prop :=
  (s l.1).May l.2 ∧ s' = Function.update s l.1 ((s l.1).after l.2)

/-- In every run in which no fetch fails before everything announced was fetched: a room has
one call of `_next` at most; if it has none it has no subscription either, and every announced message has been
fetched or starting the consumer failed after the last announcement. -/
theorem no_input_stranded {ls : List (String × Ev)} {s : Workers}
    (hrun : Run (Under Step fun s l _ => (s l.1).Fits l.2) (fun _ => {}) ls s) (roomID : String) :
    let w := s roomID
    w.queued + w.running.isSome.toNat ≤ 1 ∧
      (w.queued = 0 → w.running = none → w.subscribed = false ∧ (w.startFailed = true ∨ w.CaughtUp)) := by
  have hinv : ∀ roomID, (s roomID).Inv := by
    refine Run.inv_under (I := fun s => ∀ roomID, (s roomID).Inv) ?_ hrun fun _ => ?_
    · intro s l s' h hstep hfits roomID
      obtain ⟨hmay, rfl⟩ := hstep
      by_cases heq : roomID = l.1
      · rw [heq, Function.update_self]
        exact (h l.1).step hmay hfits
      · rw [Function.update_of_ne heq]
        exact h roomID
    · constructor <;> simp [Worker.CaughtUp]
  have hloops := (hinv roomID).loops
  intro w
  refine ⟨hloops ▸ Bool.toNat_le _, fun hqueued hrunning => ?_⟩
  have hstopped : w.subscribed = false := by simpa [w, hqueued, hrunning] using hloops.symm
  exact ⟨hstopped, (hinv roomID).stopped hstopped⟩

/-- A worker is started, fetches the message and stops when there is no other. -/
theorem message_fetched :
    ∃ ls s, Run (Under Step fun s l _ => (s l.1).Fits l.2) (fun _ => {}) ls s ∧ (s "!room").queued = 0 ∧
      (s "!room").running = none ∧ (s "!room").announced = [1] ∧ (s "!room").CaughtUp := by
  have hrun : Run (Under Step fun s l _ => (s l.1).Fits l.2) (fun _ => {}) _ _ :=
    .cons (l := ("!room", .publish 1)) ⟨⟨by simp, rfl⟩, by simp⟩ <|
    .cons (l := ("!room", .announce 1 true)) ⟨⟨by simp, rfl⟩, by simp⟩ <|
    .cons (l := ("!room", .fetch (.message 1))) ⟨⟨by simp, rfl⟩, by simp⟩ <|
    .cons (l := ("!room", .finish)) ⟨⟨by simp, rfl⟩, by simp⟩ <|
    .cons (l := ("!room", .fetch .timeout)) ⟨⟨by simp, rfl⟩, by simp⟩ <|
    .single (l := ("!room", .finish)) ⟨⟨by simp, rfl⟩, by simp⟩
  exact ⟨_, _, hrun, rfl, rfl, rfl, ((no_input_stranded hrun "!room").2 rfl rfl).2.resolve_left nofun⟩

/-- The consumer is gone, and before the worker has stopped a message is announced, which stays in the stream. -/
theorem announced_stranded :
    ∃ ls s, Run Step (fun _ => {}) ls s ∧ (s "!room").queued = 0 ∧ (s "!room").running = none ∧
      (s "!room").startFailed = false ∧ ¬ (s "!room").CaughtUp := by
  have hrun : Run Step (fun _ => {}) _ _ :=
    .cons (l := ("!room", .publish 1)) ⟨by simp, rfl⟩ <|
    .cons (l := ("!room", .announce 1 true)) ⟨by simp, rfl⟩ <|
    .cons (l := ("!room", .fetch (.message 1))) ⟨by simp, rfl⟩ <|
    .cons (l := ("!room", .finish)) ⟨by simp, rfl⟩ <|
    .cons (l := ("!room", .fetch .consumerGone)) ⟨by simp, rfl⟩ <|
    .cons (l := ("!room", .publish 2)) ⟨by simp, rfl⟩ <|
    .cons (l := ("!room", .announce 2 true)) ⟨by simp, rfl⟩ <|
    .single (l := ("!room", .finish)) ⟨by simp, rfl⟩
  exact ⟨_, _, hrun, rfl, rfl, rfl, fun h => absurd (h 2 (by decide)) (by decide)⟩

end Dirextalk.Roomserver.Input

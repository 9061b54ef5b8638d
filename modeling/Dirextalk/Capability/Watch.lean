/-
  Dirextalk.Capability.Watch — watch streams over the PostgreSQL ledger
  (`watch`, `cacheEvent` and `loadEvents` of `internal/productcapability/operations.go`).

  A transition commits its event first and tells the process about it later, when its own
  goroutine gets to `cacheEvent`. A watch call loads the durable events first and registers
  its channel later, under the mutex. Commits, notifications, loads, registrations, reads,
  cancelled watches and restarts interleave freely here, one step each.
-/
import Dirextalk.Capability.Ledger

namespace Dirextalk.Capability

open Lib
open List (drop_append_of_le_length drop_of_length_le length_append length_singleton length_take nil_append)

/-! ## The store -/

/-- The channel of a watch: `put` is everything ever put on it, of which the reader has the first `received`; it is
registered until its stream is done. -/
structure Watcher where
  operationID : String
  after : Int
  capacity : Nat
  put : List OperationEvent
  received : Nat
  registered : Bool

structure WatchCall where
  operationID : String
  after : Int
  durable : List OperationEvent

/-- The tables, and the memory of the serving process. `pending` are the committed events whose
`cacheEvent` has not run yet, oldest commit first. -/
structure OperationStore where
  ledger : Ledger
  pending : List (String × OperationEvent)
  events : String → List OperationEvent
  calls : List WatchCall
  watchers : List Watcher

def OperationStore.empty : OperationStore := ⟨Ledger.empty, [], fun _ => [], [], []⟩

/-- `select { case watcher <- entry: default: }`. -/
def Watcher.send (w : Watcher) (entry : OperationEvent) : Watcher :=
  if w.put.length - w.received < w.capacity then { w with put := w.put ++ [entry] } else w

/-- `cacheEvent`; the event has the sequence number its transaction allocated, never 0. -/
def cacheEvent (id : String) (entry : OperationEvent) (s : OperationStore) : OperationStore :=
  { s with
    events := Function.update s.events id (s.events id ++ [entry])
    watchers := s.watchers.map fun w => if w.registered && w.operationID == id then w.send entry else w }

/-- `SELECT … WHERE operation_id=$1 AND sequence>$2 ORDER BY sequence`; the log of an operation stands
in the order of its numbers. -/
def loadEvents (l : Ledger) (id : String) (after : Int) : List OperationEvent :=
  (l id).log.filter fun e => decide (after < e.sequence)

/-- The loop of `watch` over the cached events; what is seen is what `initial` holds already. -/
def addUnseen (after : Int) : List OperationEvent → List OperationEvent → List OperationEvent
  | initial, [] => initial
  | initial, e :: cached =>
    if after < e.sequence ∧ e.sequence ∉ initial.map (·.sequence) then addUnseen after (initial ++ [e]) cached
    else addUnseen after initial cached

def WatchCall.watcher (call : WatchCall) (events : String → List OperationEvent) : Watcher :=
  let initial := addUnseen call.after call.durable (events call.operationID)
  ⟨call.operationID, call.after, initial.length + 16, initial, 0, true⟩

/-! ## Steps -/

def Call.target : Call → Option String
  | .start record _ => some record.id
  | .claimReplay id | .finish id _ _ | .markUncertain id _ | .cancel id _ => some id
  | .ensureSchema _ => none

def added (l l' : Ledger) (id : String) : List OperationEvent := (l' id).log.drop (l id).log.length

inductive WatchEv where
  | commit (c : Call) (acked : Bool)
  | notify (i : Nat)
  | load (id : String) (after : Int)
  | register (i : Nat)
  | receive (i : Nat)
  | cancelled (i : Nat)
  | restart (operationIDs : List String)

inductive WatchStep (pg : Platform) : OperationStore → WatchEv → OperationStore → Prop where
  /-- A transaction of the serving process. When its COMMIT is not acknowledged the method returns
  the error and never gets to `cacheEvent`. -/
  | commit {s : OperationStore} {c : Call} {l : Ledger} {id : String} (acked : Bool)
      (htarget : c.target = some id) (h : Step pg s.ledger c l) :
      WatchStep pg s (.commit c acked)
        { s with ledger := l
                 pending := s.pending ++ if acked then (added s.ledger l id).map (Prod.mk id) else [] }
  | notify {s : OperationStore} {i : Nat} {id : String} {e : OperationEvent}
      (h : s.pending[i]? = some (id, e)) :
      WatchStep pg s (.notify i) (cacheEvent id e { s with pending := s.pending.eraseIdx i })
  | load {s : OperationStore} {id : String} {row : OperationRow} (after : Int)
      (hrow : (s.ledger id).row = some row) :
      WatchStep pg s (.load id after)
        { s with calls := s.calls ++ [⟨id, after, loadEvents s.ledger id after⟩] }
  | register {s : OperationStore} {i : Nat} {call : WatchCall} (h : s.calls[i]? = some call) :
      WatchStep pg s (.register i)
        { s with calls := s.calls.eraseIdx i, watchers := s.watchers ++ [call.watcher s.events] }
  | receive {s : OperationStore} {i : Nat} {w : Watcher} (h : s.watchers[i]? = some w)
      (hnext : w.received < w.put.length) :
      WatchStep pg s (.receive i)
        { s with watchers := s.watchers.set i { w with received := w.received + 1 } }
  | cancelled {s : OperationStore} {i : Nat} {w : Watcher} (h : s.watchers[i]? = some w) :
      WatchStep pg s (.cancelled i) { s with watchers := s.watchers.set i { w with registered := false } }
  /-- A new process: `ensureSchema` fences what is in flight and caches the events of the fence. -/
  | restart {s : OperationStore} {ids : List String} {l : Ledger} (hsel : InFlight s.ledger ids)
      (h : ensureSchema ids s.ledger = .ok l) :
      WatchStep pg s (.restart ids) ⟨l, [], fun id => added s.ledger l id, [], []⟩

/-! ## What a stream owes its reader -/

/-- The numbers on a channel increase, and none above the requested one is left out. -/
structure Watcher.Ordered (w : Watcher) : Prop where
  increasing : w.put.Pairwise (·.sequence < ·.sequence)
  complete : ∀ e ∈ w.put, ∀ n : Nat, 0 < n → w.after < n → n ≤ e.sequence → n ∈ w.put.map (·.sequence)

structure Watcher.Delivered (s : OperationStore) (w : Watcher) : Prop where
  ordered : w.Ordered
  terminal : ∀ e ∈ (s.ledger w.operationID).log, e.event.terminal = true →
    (w.operationID, e) ∉ s.pending → w.registered = true → e ∈ w.put

/-- A watch reads the accepted event from the table and registers before the event's own notification
runs: the event is put on the channel twice. -/
theorem watch_redelivers : ∃ s w e, Run (WatchStep samplePlatform) OperationStore.empty
        [.commit (.start sampleRecord false) true, .load "op-1" 0, .register 0, .notify 0] s ∧
      w ∈ s.watchers ∧ w.after = 0 ∧ w.put = [e, e] ∧ ¬ w.Ordered := by
  obtain ⟨s, w, e, hr, hw, hafter, hput⟩ : ∃ s w e, Run (WatchStep samplePlatform) .empty
      [.commit (.start sampleRecord false) true, .load "op-1" 0, .register 0, .notify 0] s ∧
      w ∈ s.watchers ∧ w.after = 0 ∧ w.put = [e, e] :=
    ⟨_, _, ⟨1, acceptedEvent⟩, .cons (.commit true rfl (.committed trivial rfl)) (.cons (.load 0 rfl)
      (.cons (.register rfl) (.single (.notify rfl)))), List.mem_singleton_self _, rfl, rfl⟩
  refine ⟨s, w, e, hr, hw, hafter, hput, fun h => ?_⟩
  have hlt := h.increasing
  simp [hput] at hlt

/-! ## Orderly runs -/

/-- The steps of a run that is orderly for the operation `id`: commits are acknowledged; notifications run in commit
order and find room on every registered channel; a watch registers when nothing it loaded is still to be notified,
with a sequence below that of a notified terminal event. -/
def Orderly (id : String) (s : OperationStore) (ev : WatchEv) (s' : OperationStore) : Prop :=
  match ev with
  | .commit _ acked => (s'.ledger id).log ≠ (s.ledger id).log → acked = true
  | .notify i => ∀ e, s.pending[i]? = some (id, e) → (∀ p ∈ s.pending.take i, p.1 ≠ id) ∧
      ∀ w ∈ s.watchers, w.operationID = id → w.registered = true → w.put.length - w.received < w.capacity
  | .register i => ∀ call, s.calls[i]? = some call → call.operationID = id →
      (∀ e ∈ call.durable, (id, e) ∉ s.pending) ∧
      ∀ e ∈ (s.ledger id).log, e.event.terminal = true → (id, e) ∉ s.pending → call.after < e.sequence
  | _ => True

variable {pg : Platform} {id : String} {s s' : OperationStore}

/-! ### What a commit adds -/

variable {a : Slot} {l' : Ledger} {key : String}

theorem Effect.log_append (h : Effect again a b) : b.log = a.log ++ b.log.drop a.log.length := by
  cases h <;> simp [Slot.append]

variable {l : Ledger}

theorem Step.log_added (h : Step pg l c l') (id : String) : (l' id).log = (l id).log ++ added l l' id :=
  (h.effect id).log_append

theorem added_eq_nil (h : (l' id).log = (l id).log) : added l l' id = [] := by
  rw [added, h, List.drop_length]

/-- A transaction of the serving process touches one operation. -/
theorem Step.other (h : Step pg l c l')
    (htarget : c.target = some key) (hne : id ≠ key) : l' id = l id := by
  cases h with
  | rolledBack => rfl
  | committed _ h =>
    cases c with
    | ensureSchema => cases htarget
    | _ =>
      cases htarget
      obtain ⟨_, ho⟩ := map_snd_ok h
      obtain ⟨_, _, rfl⟩ := onSlot_ok ho
      exact Function.update_of_ne hne _ _

theorem Slot.WF.numbered (h : a.WF) : Numbered OperationEvent.sequence 0 a.log := by
  rcases hrow : a.row with _ | row
  · rw [h.absent hrow]
    exact .nil
  · exact (h.log row hrow).numbered

theorem Slot.WF.terminal_last (h : a.WF) (he : e ∈ a.log)
    (ht : e.event.terminal = true) : ∃ front, a.log = front ++ [e] := by
  rcases hrow : a.row with _ | row
  · rw [h.absent hrow] at he
    cases he
  · obtain ⟨front, back, hsplit⟩ := List.append_of_mem he
    obtain rfl := (h.log row hrow).terminal_last _ _ _ hsplit ht
    exact ⟨front, hsplit⟩

/-! ### The invariant -/

def eventsOf (id : String) (l : List (String × OperationEvent)) : List OperationEvent :=
  l.filterMap fun p => if p.1 = id then some p.2 else none

/-- A registered channel carries the notified part of the log from some point on: at most the number
requested, and before the terminal event. -/
def Watcher.Feeds (w : Watcher) (log : List OperationEvent) (told : Nat) : Prop :=
  ∃ base : Nat, base ≤ told ∧ (base : Int) ≤ max w.after 0 ∧ w.put = (log.take told).drop base ∧
    ((∃ e ∈ log, e.event.terminal = true) → base < log.length)

/-- The process has cached the entries `base + 1 … told` of the operation's log, the rest is to be
notified in order, and every load saw at least the first `base` entries. -/
structure InOrder (id : String) (base told : Nat) (s : OperationStore) : Prop where
  wf : (s.ledger id).WF
  base_le : base ≤ told
  told_le : told ≤ (s.ledger id).log.length
  cached : s.events id = ((s.ledger id).log.take told).drop base
  pending : eventsOf id s.pending = (s.ledger id).log.drop told
  calls : ∀ call ∈ s.calls, call.operationID = id → ∃ seen, base ≤ seen ∧ seen ≤ (s.ledger id).log.length ∧
    call.durable = ((s.ledger id).log.take seen).drop call.after.toNat
  ordered : ∀ w ∈ s.watchers, w.operationID = id → w.Ordered
  feeds : ∀ w ∈ s.watchers, w.operationID = id → w.registered = true → w.Feeds (s.ledger id).log told

variable {base told : Nat} {log : List OperationEvent} {w : Watcher} {e : OperationEvent}

@[simp] theorem eventsOf_append (l m : List (String × OperationEvent)) :
    eventsOf id (l ++ m) = eventsOf id l ++ eventsOf id m :=
  List.filterMap_append

theorem eventsOf_none {l : List (String × OperationEvent)} (h : ∀ p ∈ l, p.1 ≠ id) : eventsOf id l = [] :=
  List.filterMap_eq_nil_iff.mpr fun p hp => if_neg (h p hp)

theorem mem_eventsOf {l : List (String × OperationEvent)} : e ∈ eventsOf id l ↔ (id, e) ∈ l := by
  simp [eventsOf]

theorem Watcher.Feeds.ordered (h : w.Feeds log told) (hnum : Numbered OperationEvent.sequence 0 log)
    (htold : told ≤ log.length) : w.Ordered := by
  obtain ⟨base, hle, hafter, hput, _⟩ := h
  have hpart : Numbered OperationEvent.sequence base w.put := by
    rw [hput]
    exact hnum.window hle htold
  refine ⟨hpart.pairwise, fun e he n hpos hn hle => ?_⟩
  have hlast := (hpart.mem_map_iff.mp (List.mem_map_of_mem he)).2
  exact hpart.mem_map_iff.mpr ⟨by omega, by omega⟩

theorem InOrder.start (id : String) : InOrder id 0 0 OperationStore.empty where
  wf := empty_wf id
  base_le := Nat.le_refl _
  told_le := Nat.zero_le _
  cached := rfl
  pending := rfl
  calls := by simp [OperationStore.empty]
  ordered := by simp [OperationStore.empty]
  feeds := by simp [OperationStore.empty]

/-- A channel stays fed when the log grows behind what has been notified. -/
theorem Watcher.Feeds.grow (h : w.Feeds log told) (htold : told ≤ log.length) (more : List OperationEvent) :
    w.Feeds (log ++ more) told := by
  obtain ⟨base, hle, hafter, hput, hterm⟩ := h
  refine ⟨base, hle, hafter, by rw [hput, List.take_append_of_le_length htold], fun hex => ?_⟩
  obtain _ | ⟨e, more⟩ := more
  · simpa using hterm (by simpa using hex)
  · simp only [length_append, List.length_cons]
    omega

theorem InOrder.commit (h : InOrder id base told s) (more : List OperationEvent)
    {pending : List (String × OperationEvent)} (hwf : (l id).WF) (hlog : (l id).log = (s.ledger id).log ++ more)
    (hpending : eventsOf id pending = eventsOf id s.pending ++ more) :
    InOrder id base told { s with ledger := l, pending := pending } := by
  have htake : ∀ k, k ≤ (s.ledger id).log.length → (l id).log.take k = (s.ledger id).log.take k := by
    intro k hk
    rw [hlog, List.take_append_of_le_length hk]
  have hlen : (s.ledger id).log.length ≤ (l id).log.length := by
    rw [hlog, length_append]
    omega
  refine ⟨hwf, h.base_le, h.told_le.trans hlen, ?_, ?_, ?_, h.ordered, ?_⟩
  · exact h.cached.trans (by rw [htake told h.told_le])
  · rw [hlog, drop_append_of_le_length h.told_le, ← h.pending]
    exact hpending
  · intro call hcall hid
    obtain ⟨seen, hbase, hseen, hdurable⟩ := h.calls call hcall hid
    exact ⟨seen, hbase, hseen.trans hlen, by rw [htake seen hseen]; exact hdurable⟩
  · intro w hw hid hreg
    have hgrown := (h.feeds w hw hid hreg).grow h.told_le more
    rwa [← hlog] at hgrown

variable {i : Nat}

/-- A list around one of its places, as `eraseIdx` cuts it. -/
theorem split_at {α : Type} {l : List α} {a : α} (h : l[i]? = some a) : l = l.take i ++ a :: l.drop (i + 1) := by
  obtain ⟨hi, rfl⟩ := List.getElem?_eq_some_iff.mp h
  rw [← List.drop_eq_getElem_cons hi, List.take_append_drop]

@[simp] theorem Watcher.send_operationID : (w.send e).operationID = w.operationID := by
  unfold send; split <;> rfl

@[simp] theorem Watcher.send_registered : (w.send e).registered = w.registered := by
  unfold send; split <;> rfl

/-- The next entry of the log goes behind what has been notified. -/
theorem take_next (hdrop : log.drop told = e :: rest) :
    log.take (told + 1) = log.take told ++ [e] ∧ log.drop (told + 1) = rest ∧ told < log.length := by
  have hlt : told < log.length := by
    by_contra hge
    rw [drop_of_length_le (by omega)] at hdrop
    cases hdrop
  have hcons := List.drop_eq_getElem_cons hlt
  rw [hdrop, List.cons.injEq] at hcons
  exact ⟨by rw [List.take_succ_eq_append_getElem hlt, hcons.1], hcons.2.symm, hlt⟩

theorem Watcher.Feeds.send (h : w.Feeds log told) (hdrop : log.drop told = e :: rest)
    (hroom : w.put.length - w.received < w.capacity) : (w.send e).Feeds log (told + 1) := by
  obtain ⟨base, hle, hafter, hput, hterm⟩ := h
  obtain ⟨htake, _, hlt⟩ := take_next hdrop
  rw [Watcher.send, if_pos hroom]
  refine ⟨base, by omega, hafter, ?_, hterm⟩
  rw [htake, drop_append_of_le_length (by rw [length_take]; omega)]
  simp [hput]

theorem InOrder.notify (h : InOrder id base told s) (hi : s.pending[i]? = some (id, e))
    (hfirst : ∀ p ∈ s.pending.take i, p.1 ≠ id)
    (hroom : ∀ w ∈ s.watchers, w.operationID = id → w.registered = true → w.put.length - w.received < w.capacity) :
    InOrder id base (told + 1) (cacheEvent id e { s with pending := s.pending.eraseIdx i }) := by
  have hdrop : (s.ledger id).log.drop told = e :: eventsOf id (s.pending.drop (i + 1)) := by
    rw [← h.pending]
    conv_lhs => rw [split_at hi]
    rw [eventsOf_append, eventsOf_none hfirst]
    simp [eventsOf]
  obtain ⟨htake, hrest, hlt⟩ := take_next hdrop
  have hfeeds : ∀ w ∈ (cacheEvent id e { s with pending := s.pending.eraseIdx i }).watchers,
      w.operationID = id → w.registered = true → w.Feeds (s.ledger id).log (told + 1) := by
    intro w hw hid hreg
    obtain ⟨w₀, hw₀, rfl⟩ := List.mem_map.mp hw
    by_cases hc : (w₀.registered && w₀.operationID == id) = true
    · have hc' : w₀.registered = true ∧ w₀.operationID = id := by simpa using hc
      rw [if_pos hc]
      exact (h.feeds w₀ hw₀ hc'.2 hc'.1).send hdrop (hroom w₀ hw₀ hc'.2 hc'.1)
    · rw [if_neg hc] at hid hreg
      simp [hid, hreg] at hc
  refine ⟨h.wf, h.base_le.trans (Nat.le_succ _), hlt, ?_, ?_, h.calls, ?_, hfeeds⟩
  · change Function.update s.events id (s.events id ++ [e]) id = _
    rw [Function.update_self, h.cached]
    change _ = ((s.ledger id).log.take (told + 1)).drop base
    rw [htake, drop_append_of_le_length (by rw [length_take]; have := h.base_le; omega)]
  · change eventsOf id (s.pending.eraseIdx i) = (s.ledger id).log.drop (told + 1)
    rw [hrest, List.eraseIdx_eq_take_drop_succ, eventsOf_append, eventsOf_none hfirst, nil_append]
  · intro w hw hid
    by_cases hreg : w.registered = true
    · exact (hfeeds w hw hid hreg).ordered h.wf.numbered hlt
    · obtain ⟨w₀, hw₀, rfl⟩ := List.mem_map.mp hw
      by_cases hc : (w₀.registered && w₀.operationID == id) = true
      · rw [if_pos hc] at hreg
        simp at hreg hc
        simp [hreg] at hc
      · rw [if_neg hc] at hid ⊢
        exact h.ordered w₀ hw₀ hid

theorem InOrder.notify_other (h : InOrder id base told s) (hne : key ≠ id)
    (hi : s.pending[i]? = some (key, e)) :
    InOrder id base told (cacheEvent key e { s with pending := s.pending.eraseIdx i }) := by
  have hkeep : ∀ w ∈ (cacheEvent key e { s with pending := s.pending.eraseIdx i }).watchers,
      w.operationID = id → w ∈ s.watchers := by
    intro w hw hid
    obtain ⟨w₀, hw₀, rfl⟩ := List.mem_map.mp hw
    by_cases hc : (w₀.registered && w₀.operationID == key) = true
    · have hkey : w₀.operationID = key := by simpa using (Bool.and_eq_true_iff.mp hc).2
      rw [if_pos hc, Watcher.send_operationID] at hid
      exact absurd (hkey.symm.trans hid) hne
    · rw [if_neg hc]
      exact hw₀
  refine ⟨h.wf, h.base_le, h.told_le, ?_, ?_, h.calls, fun w hw hid => h.ordered w (hkeep w hw hid) hid,
    fun w hw hid => h.feeds w (hkeep w hw hid) hid⟩
  · exact (Function.update_of_ne hne.symm _ _).trans h.cached
  · change eventsOf id (s.pending.eraseIdx i) = (s.ledger id).log.drop told
    rw [List.eraseIdx_eq_take_drop_succ, ← h.pending]
    conv_rhs => rw [split_at hi]
    simp [eventsOf, hne]

/-- The loop of `watch` over a cache that begins no later than the loaded events end: what it adds is
the part of the cache behind them. -/
theorem addUnseen_numbered
    (hi : Numbered OperationEvent.sequence after.toNat initial)
    (hc : Numbered OperationEvent.sequence base cached) (hle : base ≤ after.toNat + initial.length) :
    addUnseen after initial cached = initial ++ cached.drop (after.toNat + initial.length - base) := by
  induction cached generalizing base initial with
  | nil => simp [addUnseen]
  | cons e cached ih =>
    obtain ⟨he, hrest⟩ := Numbered.cons_iff.mp hc
    have hseen : e.sequence ∈ initial.map (·.sequence) ↔ _ := hi.mem_map_iff
    unfold addUnseen
    by_cases hend : base = after.toNat + initial.length
    · have hnew : after < e.sequence ∧ e.sequence ∉ initial.map (·.sequence) :=
        ⟨by omega, fun hmem => by have := hseen.mp hmem; omega⟩
      have hstop : after.toNat + (initial ++ [e]).length - (base + 1) = 0 := by
        rw [length_append, length_singleton]
        omega
      rw [if_pos hnew, ih (hi.snoc (by omega)) hrest (by rw [length_append, length_singleton]; omega),
        hstop, hend, Nat.sub_self, List.drop_zero, List.drop_zero, List.append_assoc, List.singleton_append]
    · have hold : ¬ (after < e.sequence ∧ e.sequence ∉ initial.map (·.sequence)) := by
        rintro ⟨hgt, hmem⟩
        exact hmem (hseen.mpr ⟨by omega, by omega⟩)
      have hstep : after.toNat + initial.length - base = (after.toNat + initial.length - (base + 1)) + 1 := by
        omega
      rw [if_neg hold, ih hi hrest (by omega), hstep, List.drop_succ_cons]

section

variable (h : InOrder id base told s)
include h

/-- With nothing of what it loaded still to be notified, a watch starts with the notified part of the
log above the requested number. -/
theorem InOrder.initial (hcall : call ∈ s.calls)
    (hid : call.operationID = id) (hknown : ∀ e ∈ call.durable, (id, e) ∉ s.pending) :
    addUnseen call.after call.durable (s.events id) = ((s.ledger id).log.take told).drop call.after.toNat := by
  obtain ⟨seen, hbase, hseen, hdurable⟩ := h.calls call hcall hid
  have hnum := h.wf.numbered
  have hlen : call.durable.length = seen - call.after.toNat := by
    rw [hdurable, List.length_drop, length_take]
    omega
  have hcached : Numbered OperationEvent.sequence base (s.events id) := by
    rw [h.cached]
    exact hnum.window h.base_le h.told_le
  by_cases hempty : seen ≤ call.after.toNat
  · have hnil : call.durable = [] := List.length_eq_zero_iff.mp (by omega)
    rw [hnil, addUnseen_numbered Numbered.nil hcached (by simp; omega), h.cached, List.drop_drop, nil_append]
    congr 1
    simp only [List.length_nil]
    omega
  · -- the last loaded entry has been notified, so all of them have
    have htold : seen ≤ told := by
      by_contra hlt
      have hlast : seen - 1 < (s.ledger id).log.length := by omega
      refine hknown ((s.ledger id).log.get ⟨seen - 1, hlast⟩) ?_ (mem_eventsOf.mp ?_)
      · rw [hdurable]
        refine List.mem_drop_iff_getElem.mpr ⟨seen - 1 - call.after.toNat, ?_, ?_⟩
        · rw [length_take]
          omega
        · simp only [List.getElem_take, List.get_eq_getElem]
          congr 1
          omega
      · rw [h.pending]
        refine List.mem_drop_iff_getElem.mpr ⟨seen - 1 - told, by omega, ?_⟩
        congr 1
        omega
    have hpre : (s.ledger id).log.take seen = ((s.ledger id).log.take told).take seen := by
      rw [List.take_take, Nat.min_eq_left htold]
    have hdur : Numbered OperationEvent.sequence call.after.toNat call.durable := by
      rw [hdurable]
      exact hnum.window (by omega) hseen
    have hat : base + (call.after.toNat + (seen - call.after.toNat) - base) = seen := by omega
    rw [addUnseen_numbered hdur hcached (by omega), hlen, h.cached, List.drop_drop, hat, hdurable, hpre]
    conv_rhs => rw [← List.take_append_drop seen ((s.ledger id).log.take told)]
    rw [drop_append_of_le_length (by simp only [length_take]; omega)]

theorem InOrder.register (hi : s.calls[i]? = some call)
    (hok : call.operationID = id → (∀ e ∈ call.durable, (id, e) ∉ s.pending) ∧
      ∀ e ∈ (s.ledger id).log, e.event.terminal = true → (id, e) ∉ s.pending → call.after < e.sequence) :
    InOrder id base told
      { s with calls := s.calls.eraseIdx i, watchers := s.watchers ++ [call.watcher s.events] } := by
  have hnew : call.operationID = id → (call.watcher s.events).Feeds (s.ledger id).log told := by
    intro hid
    have hput : (call.watcher s.events).put = ((s.ledger id).log.take told).drop call.after.toNat := by
      rw [← h.initial (List.mem_of_getElem? hi) hid (hok hid).1, ← hid]
      rfl
    refine ⟨min call.after.toNat told, Nat.min_le_right _ _, ?_, ?_, ?_⟩
    · change ((min call.after.toNat told : Nat) : Int) ≤ max call.after 0
      omega
    · rw [hput]
      obtain hle | hle := Nat.le_total call.after.toNat told
      · rw [Nat.min_eq_left hle]
      · rw [Nat.min_eq_right hle, drop_of_length_le (by rw [length_take]; omega),
          drop_of_length_le (by rw [length_take]; omega)]
    · rintro ⟨e, he, ht⟩
      by_cases hall : told < (s.ledger id).log.length
      · omega
      · have hnone : (id, e) ∉ s.pending := by
          rw [← mem_eventsOf, h.pending, drop_of_length_le (by omega)]
          exact List.not_mem_nil
        have hlt := (hok hid).2 e he ht hnone
        have hseq := h.wf.numbered.mem_map_iff.mp (List.mem_map_of_mem he)
        omega
  refine ⟨h.wf, h.base_le, h.told_le, h.cached, h.pending,
    fun c hc => h.calls c (List.mem_of_mem_eraseIdx hc), ?_, ?_⟩
  · intro w hw hid
    obtain hold | hlast := List.mem_append.mp hw
    · exact h.ordered w hold hid
    · obtain rfl := List.mem_singleton.mp hlast
      exact (hnew hid).ordered h.wf.numbered h.told_le
  · intro w hw hid hreg
    obtain hold | hlast := List.mem_append.mp hw
    · exact h.feeds w hold hid hreg
    · obtain rfl := List.mem_singleton.mp hlast
      exact hnew hid

theorem InOrder.load (key : String) (after : Int) :
    InOrder id base told { s with calls := s.calls ++ [⟨key, after, loadEvents s.ledger key after⟩] } := by
  refine ⟨h.wf, h.base_le, h.told_le, h.cached, h.pending, fun call hcall hid => ?_, h.ordered, h.feeds⟩
  obtain hold | hlast := List.mem_append.mp hcall
  · exact h.calls call hold hid
  · obtain rfl := List.mem_singleton.mp hlast
    obtain rfl : key = id := hid
    refine ⟨(s.ledger key).log.length, h.base_le.trans h.told_le, Nat.le_refl _, ?_⟩
    rw [loadEvents, h.wf.numbered.filter_above, List.take_length, Nat.sub_zero]

/-- Reading from a channel or closing it changes nothing of what is on it. -/
theorem InOrder.set (hi : s.watchers[i]? = some w)
    (hop : w'.operationID = w.operationID) (hafter : w'.after = w.after) (hput : w'.put = w.put)
    (hreg : w'.registered = true → w.registered = true) :
    InOrder id base told { s with watchers := s.watchers.set i w' } := by
  have hmem := List.mem_of_getElem? hi
  refine ⟨h.wf, h.base_le, h.told_le, h.cached, h.pending, h.calls, fun x hx hid => ?_, fun x hx hid hr => ?_⟩
  · obtain hold | rfl := List.mem_or_eq_of_mem_set hx
    · exact h.ordered x hold hid
    · have hold := h.ordered w hmem (hop ▸ hid)
      exact ⟨by rw [hput]; exact hold.increasing, by rw [hput, hafter]; exact hold.complete⟩
  · obtain hold | rfl := List.mem_or_eq_of_mem_set hx
    · exact h.feeds x hold hid hr
    · have hold := h.feeds w hmem (hop ▸ hid) (hreg hr)
      rwa [Watcher.Feeds, ← hput, ← hafter] at hold

theorem InOrder.restart (pg : Platform)
    (hs : Step pg s.ledger (.ensureSchema ids) l) :
    InOrder id (s.ledger id).log.length (l id).log.length ⟨l, [], fun id => added s.ledger l id, [], []⟩ where
  wf := (hs.effect id).wf h.wf
  base_le := by
    rw [hs.log_added id, length_append]
    omega
  told_le := Nat.le_refl _
  cached := by rw [List.take_length]; rfl
  pending := by rw [List.drop_length]; rfl
  calls := by simp
  ordered := by simp
  feeds := by simp

theorem InOrder.step (hs : WatchStep pg s ev s')
    (hok : Orderly id s ev s') : ∃ base told, InOrder id base told s' := by
  cases hs with
  | @commit c l key acked htarget hstep =>
    refine ⟨base, told, h.commit (added s.ledger l id) ((hstep.effect id).wf h.wf) (hstep.log_added id) ?_⟩
    rw [eventsOf_append]
    congr 1
    by_cases he : id = key
    · subst he
      cases acked with
      | true => simp [eventsOf]
      | false =>
        have hsame : (l id).log = (s.ledger id).log := by
          by_contra hne
          cases hok hne
        rw [added_eq_nil hsame]
        rfl
    · rw [added_eq_nil (congrArg Slot.log (hstep.other htarget he))]
      refine eventsOf_none fun p hp => ?_
      split at hp
      · obtain ⟨_, _, rfl⟩ := List.mem_map.mp hp
        exact .symm he
      · cases hp
  | @notify i key e hi =>
    by_cases he : key = id
    · subst he
      obtain ⟨hfirst, hroom⟩ := hok e hi
      exact ⟨_, _, h.notify hi hfirst hroom⟩
    · exact ⟨_, _, h.notify_other he hi⟩
  | load after hrow => exact ⟨_, _, h.load _ after⟩
  | register hi => exact ⟨_, _, h.register hi (hok _ hi)⟩
  | receive hi hnext => exact ⟨_, _, h.set hi rfl rfl rfl fun hr => hr⟩
  | cancelled hi => exact ⟨_, _, h.set hi rfl rfl rfl fun hr => by cases hr⟩
  | restart hsel hschema => exact ⟨_, _, h.restart pg (.committed hsel hschema)⟩

/-! ## Delivery -/

theorem InOrder.delivered (hw : w ∈ s.watchers) (hid : w.operationID = id) : w.Delivered s := by
  subst hid
  refine ⟨h.ordered w hw rfl, fun e he ht hdone hreg => ?_⟩
  obtain ⟨front, hlog⟩ := h.wf.terminal_last he ht
  obtain ⟨start, hle, _, hput, hbefore⟩ := h.feeds w hw rfl hreg
  have hlt := hbefore ⟨e, he, ht⟩
  rw [← mem_eventsOf, h.pending] at hdone
  rw [hlog, length_append, length_singleton] at hlt
  -- the terminal event stands at the end of the log, so all of the log has been notified
  have htold : front.length < told := by
    by_contra hnot
    rw [hlog, drop_append_of_le_length (by omega)] at hdone
    simp at hdone
  rw [hput, hlog, List.take_of_length_le (by rw [length_append, length_singleton]; omega),
    drop_append_of_le_length (by omega)]
  simp

end

/-- In every run whose steps are orderly for the operation, its streams are served in order, without gaps and up to
the terminal event. -/
theorem watch_delivers (pg : Platform) {id : String} {evs : List WatchEv} {s : OperationStore}
    (hr : Run (Under (WatchStep pg) (Orderly id)) OperationStore.empty evs s) :
    ∀ w ∈ s.watchers, w.operationID = id → w.Delivered s := by
  obtain ⟨base, told, h⟩ := hr.inv_under (I := fun s => ∃ base told, InOrder id base told s)
    (fun _ _ _ ⟨_, _, hi⟩ hs hok => hi.step hs hok) ⟨0, 0, .start id⟩
  exact fun w hw hid => h.delivered hw hid

/-- A stream over the whole life of an operation: it ends with the result. -/
theorem watch_delivers_result : ∃ s w, Run (Under (WatchStep samplePlatform) (Orderly "op-1")) OperationStore.empty
        [.commit (.start sampleRecord false) true, .notify 0, .load "op-1" 0, .register 0,
          .commit (.finish "op-1" "done" none) true, .notify 0, .receive 0] s ∧
      w ∈ s.watchers ∧ w.put = [⟨1, acceptedEvent⟩, ⟨2, .result "done"⟩] ∧ w.Delivered s := by
  refine' ⟨_, _, ?run, ?watcher, ?put, watch_delivers samplePlatform ?run _ ?watcher ?id⟩
  case run =>
    exact .cons ⟨.commit true rfl (.committed trivial rfl), fun _ => rfl⟩
      (.cons ⟨.notify rfl, fun _ _ => ⟨by simp, by decide⟩⟩
      (.cons ⟨.load 0 rfl, trivial⟩
      (.cons ⟨.register rfl, fun _ h _ => by cases h; exact ⟨by decide, by decide⟩⟩
      (.cons ⟨.commit true rfl (.committed trivial rfl), fun _ => rfl⟩
      (.cons ⟨.notify rfl, fun _ _ => ⟨by simp, by decide⟩⟩
      (.single ⟨.receive rfl (by decide), trivial⟩))))))
  case watcher => exact List.mem_singleton_self _
  case put => rfl
  case id => rfl

end Dirextalk.Capability

/-
  Dirextalk.Sync.Acknowledged — what has been stored when a message is acknowledged.

  A message should be acknowledged only if it cannot be decoded, or is a redaction that
  another message brings, or all of it is in the tables. It can also be acknowledged when
  nothing was stored: `onNewRoomEvent` takes an error of the write for the end of the
  process by the error alone, and returns as if the event had been written.

  A write that fails because the context has ended does no harm: the acknowledgement needs
  the same context.
-/
import Dirextalk.Sync.Consumer

namespace Dirextalk.Sync

open Lib Lib.Go

open Prog (Triple Ends perform_bind perform_bindOk)

/-! ## The tables after a write -/

namespace Tables

def handleBackwardExtremities (ev : Event) (t : Tables) : Tables :=
  ev.prevEventIDs.foldl (fun t eID => if t.hasEvent eID then t else t.insertsBackwardExtremity ev.roomID ev.eventID eID)
    (t.deleteBackwardExtremity ev.roomID ev.eventID)

def addRoomState (pos topo : Int) (t : Tables) (ev : Event) : Tables :=
  match ev.stateKey with
  | none => t
  | some _ =>
    let stateKey := ev.stateKeyResolved.getD ""
    let t := if ev.type = "m.room.member" then t.upsertMembership ev stateKey ev.membership pos topo else t
    t.upsertRoomState ev stateKey pos

def updateRoomState (removes : List String) (added : List Event) (pos topo : Int) (t : Tables) : Tables :=
  added.foldl (addRoomState pos topo) (removes.foldl (fun t eventID => t.deleteRoomStateByEventID eventID) t)

/-- The event, its topological position, the backward extremities and the change of state. -/
def writeEvent (ev : Event) (added : List Event) (adds removes : List String) (excludeFromSync : Bool) (pos : Int)
    (t : Tables) : Tables :=
  (((t.insertEvent ev adds removes excludeFromSync pos).insertEventInTopology ev pos).handleBackwardExtremities
    ev).updateRoomState removes added pos ev.depth

end Tables

/-- What is around the consumer: the errors with which the parts of the write fail, and the event of each id, which is
what the lookups answer under it. -/
structure Env where
  fails : Error → Prop
  event : String → Event
  named : ∀ id, (event id).eventID = id

/-- The same event, its state key resolved. -/
def Resolves (ev ev' : Event) : Prop :=
  ev' = { ev with stateKeyResolved := ev'.stateKeyResolved } ∧ (ev.stateKey.isSome = ev'.stateKeyResolved.isSome)

/-- The event of an id that the message adds to the state: its own one or the one that is looked up. -/
def OutputNewRoomEvent.adds (msg : OutputNewRoomEvent) (env : Env) (id : String) : Event :=
  if id = msg.event.eventID then msg.event else env.event id

/-- The whole of a new event is in the tables: it was written to tables that were cleared if it rewrites the state, with
the events that it adds to the state. -/
def StoredNew (env : Env) (msg : OutputNewRoomEvent) (t : Tables) : Prop :=
  ∃ (before : Tables) (added : List Event) (pos : Int), (∀ id, id ∈ msg.addsStateEventIDs ↔ ∃ ev ∈ added, ev.eventID = id) ∧
    (∀ ev ∈ added, Resolves (msg.adds env ev.eventID) ev) ∧
    (msg.rewritesState = true → ∀ row ∈ before.currentRoomState, row.roomID ≠ msg.event.roomID) ∧
    t = before.writeEvent msg.event added msg.addsStateEventIDs msg.removesStateEventIDs false pos

def Stored (env : Env) : Message → Tables → Prop
  | .malformed, _ => False
  | .newRoomEvent msg, t => StoredNew env msg t
  | .oldRoomEvent ev, t => ∃ (before : Tables) (pos : Int), t = before.writeEvent ev [] [] [] ev.stateKey.isSome pos
  | .redactedEvent _ redactedBecause, t => StoredNew env ⟨redactedBecause, [], [], false⟩ t

/-- The message is none that is to be stored. -/
def Message.excused : Message → Bool
  | .malformed => true
  | .newRoomEvent msg => msg.event.paired
  | _ => false

/-- The handler gave up on data that does not decode. -/
def Discarded (result : Except Stop Unit) : Prop := ∃ e : Error, result = .error (.error e) ∧ e.is .corruptInput = true

/-! ## The world -/

structure World where
  tables : Tables
  txn : Option Tables
  /-- The consumer's context has ended. -/
  ended : Bool
  acked : Bool

def Statement.Lawful (t : Tables) : (s : Statement) → s.Ans → Prop
  | .insertEvent ev _ _ _, pos => ∀ row ∈ t.outputEvents, row.eventID = ev.eventID → pos = row.id
  | .insertEventInTopology ev _, topo => topo = ev.depth
  | .selectEvents eventIDs, found => ∀ id ∈ eventIDs, id ∈ found ↔ t.hasEvent id = true
  | .membership ev, value => value = ev.membership
  | _, _ => True

def Statement.run (t : Tables) : (s : Statement) → s.Ans → Tables
  | .insertEvent ev adds removes excludeFromSync, pos => t.insertEvent ev adds removes excludeFromSync pos
  | .insertEventInTopology ev pos, _ => t.insertEventInTopology ev pos
  | .deleteBackwardExtremity roomID eventID, _ => t.deleteBackwardExtremity roomID eventID
  | .selectEvents _, _ => t
  | .insertsBackwardExtremity roomID eventID prevEventID, _ => t.insertsBackwardExtremity roomID eventID prevEventID
  | .deleteRoomStateByEventID eventID, _ => t.deleteRoomStateByEventID eventID
  | .membership _, _ => t
  | .upsertMembership ev userID value pos topo, _ => t.upsertMembership ev userID value pos topo
  | .upsertRoomState ev stateKey addedAt, _ => t.upsertRoomState ev stateKey addedAt

/-- Events are found under the ids that were asked for. -/
def Query.Lawful (env : Env) : (q : Query) → q.Ans → Prop
  | .events eventIDs, found | .queryEventsByID _ eventIDs, found =>
    ∀ ev ∈ found, ev.eventID ∈ eventIDs ∧ ev = env.event ev.eventID
  | _, _ => True

/-- What a call does. A commit or a purge that fails may have been carried out, and so may an acknowledgement. -/
def Effect (env : Env) : (c : Call) → World → c.Ans → World → Prop
  | .query q, w, r, w' => w' = w ∧ ∀ a, r = .ok a → q.Lawful env a
  | .purgeRoomState roomID, w, r, w' =>
    w' = { w with tables := w.tables.deleteRoomStateForRoom roomID } ∨ w' = w ∧ ∃ e, r = .error e
  | .begin, w, .ok _, w' => w' = { w with txn := some w.tables }
  | .begin, w, .error e, w' => env.fails e ∧ w' = w
  | .statement s, w, .ok a, w' => ∃ t, w.txn = some t ∧ s.Lawful t a ∧ w' = { w with txn := some (s.run t a) }
  | .statement _, w, .error e, w' => env.fails e ∧ w' = w
  | .commit, w, .ok _, w' => ∃ t, w.txn = some t ∧ w' = { w with tables := t, txn := none }
  | .commit, w, .error e, w' =>
    env.fails e ∧ (w' = { w with txn := none } ∨ ∃ t, w.txn = some t ∧ w' = { w with tables := t, txn := none })
  | .rollback, w, _, w' => w' = { w with txn := none }
  | .ended, w, r, w' => w' = w ∧ r = w.ended
  | .ackSync, w, _, w' => w' = w ∨ w.ended = false ∧ w' = { w with acked := true }

/-- A call, before which the context may have ended. -/
def exec (env : Env) (c : Call) (w : World) (r : c.Ans) (w' : World) : Prop :=
  ∃ ended, (w.ended = true → ended = true) ∧ Effect env c { w with ended := ended } r w'

/-! ## What the parts of the handler leave -/

variable {env : Env} {α : Type} {t u : Tables} {txn : Option Tables}

/-- Nothing is acknowledged yet, and this is in the database. -/
def At (t : Tables) (txn : Option Tables) (w : World) : Prop := w.tables = t ∧ w.txn = txn ∧ w.acked = false

def Unacked (w : World) : Prop := w.acked = false

/-- Nothing is acknowledged in the course of a part, however it ends. -/
abbrev Leads (env : Env) (P : World → Prop) (p : Work α) (Q : α → World → Prop) : Prop :=
  Triple (σ := SyncSig) (exec env) P p.run (Ends (fun _ => Unacked) Q)

/-- What holds in the course of time. -/
def Timely (P : World → Prop) : Prop := ∀ w ended, (w.ended = true → ended = true) → P w → P { w with ended := ended }

theorem at_timely : Timely (At t txn) := fun _ _ _ h => h

/-- A part that only asks: it returns, if it does, a value of `A`, and leaves what holds in the course of time. -/
def Asks (env : Env) (p : Work α) (A : α → Prop) : Prop :=
  ∀ P : World → Prop, Timely P → Triple (σ := SyncSig) (exec env) P p.run (Ends (fun _ => P) fun a w => P w ∧ A a)

namespace Asks

variable {β : Type} {A A' : α → Prop} {B : β → Prop}

theorem query (q : Query) : Asks env (Sync.query q) (q.Lawful env) := by
  intro P hP
  refine .adaptExcept Stop.error (.ask ?_)
  rintro w r w' hw ⟨ended, hended, rfl, hlawful⟩
  have hw' := hP w ended hended hw
  cases r with
  | error e => exact hw'
  | ok a => exact ⟨hw', hlawful a rfl⟩

theorem pure (h : A a) : Asks env (Pure.pure a) A := fun _ _ => .pureExcept fun _ hw => ⟨hw, h⟩

theorem throw (stop : Stop) : Asks env (throw stop) A := fun _ _ => .throwExcept fun _ hw => hw

variable {p : Work α}

theorem bind (h : Asks env p A) (hf : ∀ a, A a → Asks env (f a) B) : Asks env (p >>= f) B :=
  fun P hP => .seqExcept (h P hP) fun a => .assuming fun ha => hf a ha P hP

theorem mono (h : Asks env p A) (hA : ∀ a, A a → A' a) : Asks env p A' :=
  fun P hP => .monoExcept (h P hP) (fun _ _ hw => hw) fun a _ hw => ⟨hw.1, hA a hw.2⟩

theorem wrapping (context : String) (h : Asks env p A) : Asks env (Sync.wrapping context p) A :=
  fun P hP => .adaptExcept _ (h P hP)

/-- A part whose error is looked at. -/
theorem attempt (h : Asks env p A) : Asks env (ExceptT.lift p.run) fun r => ∀ a, r = .ok a → A a := by
  intro P hP
  refine .liftExcept (.mono (h P hP) fun r w hr => ?_)
  cases r with
  | error stop => exact ⟨hr, nofun⟩
  | ok a =>
    refine ⟨hr.1, ?_⟩
    rintro _ ⟨⟩
    exact hr.2

theorem dereference (a : Option α) : Asks env (Sync.dereference a) fun _ => True := by
  cases a with
  | none => exact throw _
  | some a => exact pure trivial

theorem keeps (h : Asks env p A) : Leads env (At t txn) p fun a w => At t txn w ∧ A a :=
  .monoExcept (h _ at_timely) (fun _ _ hw => hw.2.2) fun _ _ hw => hw

theorem next {Q : β → World → Prop} (h : Asks env p A) (hf : ∀ a, A a → Leads env (At t txn) (f a) Q) :
    Leads env (At t txn) (p >>= f) Q :=
  .seqExcept h.keeps fun a => .assuming (hf a)

end Asks

theorem stateKeyUser_asks (roomID stateKey : String) : Asks env (stateKeyUser roomID stateKey) fun _ => True := by
  unfold stateKeyUser
  split
  · exact .pure trivial
  refine .bind (.attempt (.query _)) fun r _ => ?_
  split
  · exact .pure trivial
  · exact .pure trivial

theorem updateStateEvent_asks (ev : Event) : Asks env (updateStateEvent ev) (Resolves ev) := by
  unfold updateStateEvent
  split
  · rename_i hkey
    exact .pure ⟨rfl, by rw [hkey]⟩
  · rename_i stateKey hkey
    have hresolved (resolved : Option String) : Resolves ev { ev with stateKeyResolved := some (resolved.getD stateKey) } :=
      ⟨rfl, by rw [hkey]; rfl⟩
    refine .bind (.query _) fun _ _ => .bind (stateKeyUser_asks _ _) fun resolved _ => ?_
    refine .bind (.query _) fun prevEvent _ => .bind (.query _) fun userID _ => .bind (.dereference userID) fun _ _ => ?_
    split
    · exact .pure (hresolved resolved)
    split
    · exact .pure (hresolved resolved)
    · exact .bind (.query _) fun _ _ => .pure (hresolved resolved)

theorem updateStateEvents_asks (events : List Event) : Asks env (updateStateEvents events) (List.Forall₂ Resolves events) := by
  induction events with
  | nil => exact .pure .nil
  | cons ev rest ih =>
    exact .bind (updateStateEvent_asks ev) fun _ hev => .bind ih fun _ hrest => .pure (.cons hev hrest)

theorem knownEvents_asks (missing : List String) : Asks env (knownEvents missing)
    fun known => ∀ ev ∈ known, ev.eventID ∈ missing ∧ ev = env.event ev.eventID := by
  unfold knownEvents
  split
  · exact .pure nofun
  · exact .wrapping _ (.query _)

theorem mem_adds {msg : OutputNewRoomEvent} {id : String} :
    id ∈ msg.addsStateEventIDs ↔ (∃ ev ∈ msg.neededStateEventIDs.1, ev.eventID = id) ∨ id ∈ msg.neededStateEventIDs.2 := by
  simp only [OutputNewRoomEvent.neededStateEventIDs, List.mem_map, List.mem_filter, decide_eq_true_eq]
  constructor
  · intro h
    by_cases hid : id = msg.event.eventID
    · exact .inl ⟨_, ⟨id, ⟨h, hid⟩, rfl⟩, hid.symm⟩
    · exact .inr ⟨h, hid⟩
  · rintro (⟨_, ⟨own, ⟨hmem, rfl⟩, rfl⟩, rfl⟩ | h)
    · exact hmem
    · exact h.1

theorem addedStateEvents_asks (msg : OutputNewRoomEvent) :
    Asks env (addedStateEvents msg) fun added => (∀ id, id ∈ msg.addsStateEventIDs ↔ ∃ ev ∈ added, ev.eventID = id) ∧
      ∀ ev ∈ added, ev = msg.adds env ev.eventID := by
  have hown : ∀ ev ∈ msg.neededStateEventIDs.1, ev = msg.adds env ev.eventID := by
    intro ev hev
    obtain ⟨_, -, rfl⟩ := List.mem_map.mp hev
    exact (if_pos rfl).symm
  have hfound : ∀ ev : Event, ev.eventID ∈ msg.neededStateEventIDs.2 → ev = env.event ev.eventID → ev = msg.adds env ev.eventID :=
    fun ev hid hev => hev.trans (if_neg (of_decide_eq_true (List.mem_filter.mp hid).2)).symm
  refine .bind (knownEvents_asks _) fun known hknown => ?_
  have hknown' : ∀ ev ∈ known, ev = msg.adds env ev.eventID := fun ev hev => hfound ev (hknown ev hev).1 (hknown ev hev).2
  dsimp only
  split
  · rename_i hnone
    refine .pure ⟨fun id => ?_, List.forall_mem_append.mpr ⟨hown, hknown'⟩⟩
    rw [mem_adds]
    simp only [List.mem_append, or_and_right, exists_or]
    refine or_congr_right ⟨fun hid => ?_, ?_⟩
    · have hfound := List.filter_eq_nil_iff.mp hnone id (List.mem_eraseDups.mpr hid)
      simpa using hfound
    · rintro ⟨ev, hev, rfl⟩
      exact (hknown ev hev).1
  refine .bind (.wrapping _ (.query _)) fun asked hasked => ?_
  split
  · exact .throw _
  rename_i hall
  have hasked' : ∀ ev ∈ asked, ev.eventID ∈ msg.neededStateEventIDs.2 := fun ev hev =>
    List.mem_eraseDups.mp (List.mem_filter.mp (hasked ev hev).1).1
  refine .pure ⟨fun id => ?_, List.forall_mem_append.mpr
    ⟨List.forall_mem_append.mpr ⟨hown, hknown'⟩, fun ev hev => hfound ev (hasked' ev hev) (hasked ev hev).2⟩⟩
  rw [mem_adds]
  simp only [List.mem_append, or_and_right, exists_or, or_assoc]
  refine or_congr_right ⟨fun hid => ?_, ?_⟩
  · by_cases hin : ∃ ev ∈ known, ev.eventID = id
    · exact .inl hin
    · have hmissing := List.find?_eq_none.mp hall id (List.mem_filter.mpr ⟨List.mem_eraseDups.mpr hid, by simpa using hin⟩)
      exact .inr (by simpa using hmissing)
  · rintro (⟨ev, hev, rfl⟩ | ⟨ev, hev, rfl⟩)
    · exact (hknown ev hev).1
    · exact hasked' ev hev

theorem notifyJoinedPeeks_asks (isLocal : String → Bool) (ev : Event) (pos : Int) :
    Asks env (notifyJoinedPeeks isLocal ev pos) fun _ => True := by
  unfold notifyJoinedPeeks
  split
  · exact .pure trivial
  refine .bind (.wrapping _ (.query _)) fun membership _ => ?_
  split
  · exact .pure trivial
  split
  · exact .throw _
  refine .bind (.wrapping _ (.query _)) fun userID _ => ?_
  split
  · exact .throw _
  split
  · exact .pure trivial
  · exact .bind (.wrapping _ (.query _)) fun _ _ => .pure trivial

theorem notify_asks (isLocal : String → Bool) (ev : Event) (pos : Int) : Asks env (notify isLocal ev pos) fun _ => True := by
  refine .bind (.attempt (.query _)) fun _ _ => .bind (notifyJoinedPeeks_asks isLocal ev pos) fun _ _ => ?_
  exact (Asks.query _).mono fun _ _ => trivial

/-! ## The write -/

/-- The write stopped with an error of `G`. -/
def Unwritten (G : Error → Prop) (stop : Stop) (w : World) : Prop := w.acked = false ∧ ∀ e, stop = .error e → G e

/-- Errors that stay what they are when a context is put before them, if this does not say that the database is closed. -/
def Wraps (G : Error → Prop) : Prop :=
  ∀ context e, contains (toLower context) "database is closed" = false → G e → G (e.wrap context)

theorem stopped_wrap (h : contains (toLower context) "database is closed" = false) (e : Error) :
    Stopped (e.wrap context) = Stopped e := by
  have htext :
      contains (toLower (e.wrap context).text) "database is closed" = contains (toLower e.text) "database is closed" := by
    have hlist : (toLower (e.wrap context).text).toList = (toLower context).toList ++ ':' :: ' ' :: (toLower e.text).toList := by
      simp [Err.wrap, toLower, show lowerChar ':' = ':' from rfl, show lowerChar ' ' = ' ' from rfl]
    have hspace : (cutList "database is closed".toList (' ' :: (toLower e.text).toList)).isSome =
        (cutList "database is closed".toList (toLower e.text).toList).isSome := by
      rw [cutList, if_neg (by simp), Option.isSome_map]
    rw [contains] at h
    rw [contains, hlist, cutList_around (by decide) (by decide), h, Bool.false_or, hspace, contains]
  unfold Stopped
  rw [htext]
  rfl

variable {G : Error → Prop}

/-- A part of the transaction, by the tables before and after it. -/
def Changes (env : Env) (G : Error → Prop) (p : Work α) (R : Tables → α → Tables → Prop) : Prop :=
  ∀ t u, Triple (σ := SyncSig) (exec env) (At t (some u)) p.run (Ends (Unwritten G) fun a w => ∃ u', R u a u' ∧ At t (some u') w)

namespace Changes

variable {β : Type} {R R' : Tables → α → Tables → Prop} {S : α → Tables → β → Tables → Prop}

theorem statement (hfails : ∀ e, env.fails e → G e) (s : Statement) :
    Changes env G (Sync.statement s) fun u a u' => s.Lawful u a ∧ u' = s.run u a := by
  intro t u
  refine .adaptExcept Stop.error (.ask ?_)
  rintro w r w' ⟨ht, hu, hacked⟩ ⟨ended, hended, heffect⟩
  cases r with
  | error e =>
    obtain ⟨he, rfl⟩ := heffect
    refine ⟨hacked, ?_⟩
    rintro _ ⟨⟩
    exact hfails e he
  | ok a =>
    obtain ⟨v, hv, hlawful, rfl⟩ := heffect
    cases hu.symm.trans hv
    exact ⟨_, ⟨hlawful, rfl⟩, ht, rfl, hacked⟩

theorem pure (h : ∀ u, R u a u) : Changes env G (Pure.pure a) R :=
  fun _ u => .pureExcept fun _ hw => ⟨u, h u, hw⟩

theorem panic : Changes env G (throw .panicked) R :=
  fun _ _ => .throwExcept fun _ hw => ⟨hw.2.2, nofun⟩

variable {p : Work α}

theorem bind (h : Changes env G p R) (hf : ∀ a, Changes env G (f a) (S a)) :
    Changes env G (p >>= f) fun u b u' => ∃ a v, R u a v ∧ S a v b u' := by
  intro t u
  refine .seqExcept (h t u) fun a w tr r w' hw hx => ?_
  obtain ⟨v, hv, hw⟩ := hw
  have hr := hf a t v w tr r w' hw hx
  cases r with
  | error stop => exact hr
  | ok b =>
    obtain ⟨u', hu', hw'⟩ := hr
    exact ⟨u', ⟨a, v, hv, hu'⟩, hw'⟩

theorem mono (h : Changes env G p R) (hR : ∀ {u a u'}, R u a u' → R' u a u') : Changes env G p R' :=
  fun t u => .monoExcept (h t u) (fun _ _ hw => hw) fun _ _ ⟨u', hu', hw⟩ => ⟨u', hR hu', hw⟩

theorem wrapping (hG : Wraps G) (hcontext : contains (toLower context) "database is closed" = false)
    (h : Changes env G p R) : Changes env G (Sync.wrapping context p) R := by
  intro t u
  refine .adaptExcept _ (.mono (h t u) fun r w hr => ?_)
  cases r with
  | ok a => exact hr
  | error stop =>
    refine ⟨hr.1, fun e he => ?_⟩
    cases stop with
    | panicked => cases he
    | error e' =>
      cases he
      exact hG context e' hcontext (hr.2 e' rfl)

/-- A loop whose rounds each make one change. -/
theorem forM (hf : ∀ b, Changes env G (f b) fun u _ u' => u' = g u b) (bs : List β) :
    Changes env G (bs.forM f) fun u _ u' => u' = bs.foldl g u := by
  induction bs with
  | nil => exact pure fun _ => rfl
  | cons b bs ih =>
    refine (bind (hf b) fun _ => ih).mono ?_
    rintro u _ _ ⟨_, _, rfl, rfl⟩
    rfl

end Changes

/-- An error that is none of the end of the process is let pass only once the context has ended. -/
theorem consumerShutdownError_triple (he : Stopped e = false) :
    Leads env Unacked (consumerShutdownError e) fun stops w => Unacked w ∧ (stops = true → w.ended = true) := by
  simp only [Stopped, Bool.or_eq_false_iff] at he
  unfold consumerShutdownError
  rw [if_neg (by simp [he])]
  refine .seqExcept (Q := fun ended w => Unacked w ∧ w.ended = ended) (.liftExcept (.ask ?_)) fun ended => ?_
  · rintro w r w' hw ⟨ended, -, rfl, rfl⟩
    exact ⟨hw, rfl⟩
  cases ended with
  | true => exact .pureExcept fun w hw => ⟨hw.1, fun _ => hw.2⟩
  | false =>
    refine .pureExcept fun w hw => ⟨hw.1, fun hclosed => ?_⟩
    rw [he.2] at hclosed
    cases hclosed

theorem purgeRewritten_triple (msg : OutputNewRoomEvent) :
    Leads env (At t none) (purgeRewritten msg) fun _ w => ∃ before, At before none w ∧
      (msg.rewritesState = true → ∀ row ∈ before.currentRoomState, row.roomID ≠ msg.event.roomID) := by
  unfold purgeRewritten
  split
  · refine .adaptExcept _ (.adaptExcept Stop.error (.ask ?_))
    rintro w r w' ⟨rfl, htxn, hacked⟩ ⟨ended, -, heffect⟩
    cases r with
    | error e =>
      obtain rfl | ⟨rfl, -⟩ := heffect
      · exact hacked
      · exact hacked
    | ok _ =>
      obtain rfl | ⟨-, _, ⟨⟩⟩ := heffect
      refine ⟨_, ⟨rfl, htxn, hacked⟩, fun _ row hrow => ?_⟩
      simpa using (List.mem_filter.mp hrow).2
  · rename_i hkeeps
    exact .pureExcept fun w hw => ⟨t, hw, fun h => absurd h hkeeps⟩

theorem resolves_adds {f : String → Event} (h : List.Forall₂ Resolves added added') (hadded : ∀ ev ∈ added, ev = f ev.eventID) :
    (∀ id, (∃ ev ∈ added, ev.eventID = id) ↔ ∃ ev ∈ added', ev.eventID = id) ∧ ∀ ev ∈ added', Resolves (f ev.eventID) ev := by
  induction h with
  | nil => simp
  | @cons ev ev' _ _ hev _ ih =>
    obtain ⟨hids, hresolves⟩ := ih fun x hx => hadded x (List.mem_cons_of_mem _ hx)
    have hid : ev'.eventID = ev.eventID := by rw [hev.1]
    refine ⟨fun id => by simp [hid, hids], List.forall_mem_cons.mpr ⟨?_, hresolves⟩⟩
    rw [hid, ← hadded ev List.mem_cons_self]
    exact hev

section Write

variable (hfails : ∀ e, env.fails e → G e)
include hfails

/-- The loop over the previous events; whether there are any more of them does not depend on the extremities. -/
theorem insertExtremities_changes {ev : Event} {found : List String} (prevs : List String) :
    Changes env G
      (prevs.forM fun eID => if eID ∈ found then pure () else statement (.insertsBackwardExtremity ev.roomID ev.eventID eID))
      fun u _ u' => (∀ id ∈ prevs, id ∈ found ↔ u.hasEvent id = true) →
        u' = prevs.foldl (fun t eID => if t.hasEvent eID then t else t.insertsBackwardExtremity ev.roomID ev.eventID eID) u := by
  induction prevs with
  | nil => exact .pure fun _ _ => rfl
  | cons eID prevs ih =>
    have hround : Changes env G (if eID ∈ found then pure () else statement (.insertsBackwardExtremity ev.roomID ev.eventID eID))
        fun u _ u' => u' = if eID ∈ found then u else u.insertsBackwardExtremity ev.roomID ev.eventID eID := by
      split
      · exact .pure fun _ => rfl
      · exact (Changes.statement hfails _).mono fun h => h.2
    refine (Changes.bind hround fun _ => ih).mono ?_
    rintro u _ u' ⟨_, _, rfl, hrest⟩ hfound
    have hhead := hfound eID List.mem_cons_self
    rw [List.foldl_cons]
    by_cases hmem : eID ∈ found
    · rw [if_pos hmem] at hrest
      rw [if_pos (hhead.mp hmem)]
      exact hrest fun id hid => hfound id (List.mem_cons_of_mem _ hid)
    · rw [if_neg hmem] at hrest
      rw [if_neg fun h => hmem (hhead.mpr h)]
      exact hrest fun id hid => hfound id (List.mem_cons_of_mem _ hid)

theorem handleBackwardExtremities_changes (ev : Event) :
    Changes env G (handleBackwardExtremities ev) fun u _ u' => u' = u.handleBackwardExtremities ev := by
  refine (Changes.bind (.statement hfails _) fun _ => Changes.bind (.statement hfails _) fun found =>
    insertExtremities_changes hfails _).mono ?_
  rintro u _ u' ⟨_, _, ⟨-, rfl⟩, found, _, ⟨hfound, rfl⟩, hloop⟩
  exact hloop hfound

variable (hG : Wraps G)
include hG

theorem addMembership_changes (pos topo : Int) (ev : Event) :
    Changes env G (addMembership pos topo ev) fun u _ u' =>
      u' = if ev.type = "m.room.member" then u.upsertMembership ev (ev.stateKeyResolved.getD "") ev.membership pos topo
        else u := by
  unfold addMembership
  by_cases htype : ev.type = "m.room.member"
  · rw [if_neg (not_not.mpr htype)]
    have hvalue :
        Changes env G (wrapping "event.Membership" (statement (.membership ev))) fun u a u' => a = ev.membership ∧ u' = u :=
      .wrapping hG (by decide) (.statement hfails _)
    have hupsert (value : String) : Changes env G (wrapping "d.Memberships.UpsertMembership"
        (statement (.upsertMembership ev (ev.stateKeyResolved.getD "") value pos topo))) fun u _ u' =>
          u' = u.upsertMembership ev (ev.stateKeyResolved.getD "") value pos topo :=
      .wrapping hG (by decide) ((Changes.statement hfails _).mono fun h => h.2)
    refine (Changes.bind hvalue hupsert).mono ?_
    rintro u _ u' ⟨_, _, ⟨rfl, rfl⟩, rfl⟩
    exact (if_pos htype).symm
  · rw [if_pos htype]
    exact .pure fun _ => (if_neg htype).symm

theorem addRoomState_changes (pos topo : Int) (ev : Event) :
    Changes env G (addRoomState pos topo ev) fun u _ u' => u' = u.addRoomState pos topo ev := by
  unfold addRoomState Tables.addRoomState
  cases hkey : ev.stateKey with
  | none => exact .pure fun _ => rfl
  | some stateKey =>
    cases hresolved : ev.stateKeyResolved with
    | none =>
      refine (Changes.bind (addMembership_changes hfails hG pos topo ev) fun _ => .panic (R := fun _ _ _ => False)).mono ?_
      rintro u _ u' ⟨_, _, -, ⟨⟩⟩
    | some resolved =>
      refine (Changes.bind (addMembership_changes hfails hG pos topo ev) fun _ =>
        .wrapping hG (by decide) (.statement hfails _)).mono ?_
      rintro u _ u' ⟨_, _, rfl, -, rfl⟩
      rw [hresolved]
      rfl

theorem updateRoomState_changes (removes : List String) (added : List Event) (pos topo : Int) :
    Changes env G (updateRoomState removes added pos topo) fun u _ u' => u' = u.updateRoomState removes added pos topo := by
  have hremove (eventID : String) : Changes env G
      (wrapping "d.CurrentRoomState.DeleteRoomStateByEventID" (statement (.deleteRoomStateByEventID eventID)))
      fun u _ u' => u' = u.deleteRoomStateByEventID eventID :=
    .wrapping hG (by decide) ((Changes.statement hfails _).mono fun h => h.2)
  refine (Changes.bind (.forM hremove removes) fun _ => .forM (addRoomState_changes hfails hG pos topo) added).mono ?_
  rintro u _ u' ⟨_, _, rfl, rfl⟩
  rfl

section

variable (ev : Event) (added : List Event) (adds removes : List String) (excludeFromSync : Bool)

theorem writeStatements_changes :
    Changes env G (writeStatements ev added adds removes excludeFromSync) fun u pos u' =>
      u' = u.writeEvent ev added adds removes excludeFromSync pos := by
  refine (Changes.bind (.wrapping hG (by decide) (.statement hfails _)) fun pos =>
    .bind (.wrapping hG (by decide) (.statement hfails _)) fun topo =>
    .bind (.wrapping hG (by decide) (handleBackwardExtremities_changes hfails ev)) fun _ =>
    (?_ : Changes env G _ fun u a u' => a = pos ∧ u' = u.updateRoomState removes added pos topo)).mono ?_
  · split
    · rename_i hnone
      obtain ⟨rfl, rfl⟩ := hnone
      exact .pure fun _ => ⟨rfl, rfl⟩
    · refine (Changes.bind (updateRoomState_changes hfails hG removes added pos topo) fun _ =>
        .pure (R := fun u a u' => a = pos ∧ u' = u) fun _ => ⟨rfl, rfl⟩).mono ?_
      rintro u _ u' ⟨_, _, rfl, rfl, rfl⟩
      exact ⟨rfl, rfl⟩
  · rintro u _ u' ⟨pos, _, ⟨-, rfl⟩, topo, _, ⟨rfl, rfl⟩, _, _, rfl, rfl, rfl⟩
    rfl

/-- The write: all of it, or an error that is none of the end of the process. -/
theorem writeEvent_triple :
    Triple (σ := SyncSig) (exec env) (At t none) (writeEvent ev added adds removes excludeFromSync).run
      (Ends (Unwritten G) fun pos w => At (t.writeEvent ev added adds removes excludeFromSync pos) none w) := by
  refine .seqExcept (Q := fun _ => At t (some t)) ?_ fun _ => ?_
  · refine .adaptExcept _ (.adaptExcept Stop.error (.ask ?_))
    rintro w r w' ⟨rfl, -, hacked⟩ ⟨ended, -, heffect⟩
    cases r with
    | error e =>
      obtain ⟨he, rfl⟩ := heffect
      refine ⟨hacked, ?_⟩
      rintro _ ⟨⟩
      exact hG _ e (by decide) (hfails e he)
    | ok _ =>
      cases heffect
      exact ⟨rfl, rfl, hacked⟩
  refine .seqExcept (.liftExcept (writeStatements_changes hfails hG ev added adds removes excludeFromSync t t)) fun r => ?_
  cases r with
  | error stop =>
    refine .seqExcept (Q := fun _ => Unwritten G stop) (.liftExcept (.ask ?_)) fun _ => .throwExcept fun _ hw => hw
    rintro w _ w' ⟨hacked, hstop⟩ ⟨ended, -, rfl⟩
    exact ⟨hacked, hstop⟩
  | ok pos =>
    refine .seqExcept (Q := fun _ => At (t.writeEvent ev added adds removes excludeFromSync pos) none)
      (.adaptExcept Stop.error (.ask ?_)) fun _ => .pureExcept fun _ hw => hw
    rintro w r w' ⟨u', rfl, -, htxn, hacked⟩ ⟨ended, -, heffect⟩
    cases r with
    | error e =>
      obtain ⟨he, rfl | ⟨_, _, rfl⟩⟩ := heffect
      all_goals
        refine ⟨hacked, ?_⟩
        rintro _ ⟨⟩
        exact hfails e he
    | ok _ =>
      obtain ⟨u, hu, rfl⟩ := heffect
      exact ⟨(Option.some.inj (htxn.symm.trans hu)).symm, rfl, hacked⟩

end

end Write

/-! ## The handlers -/

/-- The event has been stored, or the process is ending. -/
theorem onNewRoomEvent_triple (hfails : ∀ e, env.fails e → Stopped e = false) (isLocal : String → Bool)
    (msg : OutputNewRoomEvent) :
    Leads env (At t none) (onNewRoomEvent isLocal msg) fun _ w => Unacked w ∧ (StoredNew env msg w.tables ∨ w.ended = true) := by
  refine Asks.next (addedStateEvents_asks msg) fun added hadded => ?_
  refine Asks.next (updateStateEvent_asks msg.event) fun ev hev => ?_
  refine Asks.next (updateStateEvents_asks added) fun added' hresolved => ?_
  refine .seqExcept (purgeRewritten_triple msg) fun _ => .ofExists fun before => .assuming fun hpurged => ?_
  refine Asks.next (.query _) fun userID _ => ?_
  refine Asks.next (.dereference userID) fun _ _ => ?_
  refine .seqExcept (.liftExcept (writeEvent_triple hfails (fun _ e hcontext => (stopped_wrap hcontext e).trans) ev added'
    msg.addsStateEventIDs msg.removesStateEventIDs false)) fun r => ?_
  cases r with
  | ok pos =>
    have hstored : StoredNew env msg (before.writeEvent ev added' msg.addsStateEventIDs msg.removesStateEventIDs false pos) := by
      obtain ⟨hids, hresolves⟩ := resolves_adds hresolved hadded.2
      refine ⟨before, added', pos, fun id => (hadded.1 id).trans (hids id), hresolves, hpurged, ?_⟩
      rw [hev.1]
      rfl
    exact .monoExcept (notify_asks isLocal ev pos).keeps (fun _ _ hw => hw) fun _ _ hw => ⟨hw.1.2.2, .inl (hw.1.1 ▸ hstored)⟩
  | error stop =>
    cases stop with
    | panicked => exact .throwExcept fun w hw => hw.1
    | error e =>
      have hshutdown : Stopped e = false → Leads env Unacked (do
          if ← consumerShutdownError e then return ()
          throw .panicked : Work Unit) fun _ w => Unacked w ∧ (StoredNew env msg w.tables ∨ w.ended = true) := by
        intro he
        refine .seqExcept (consumerShutdownError_triple he) fun stops => ?_
        cases stops with
        | true => exact .pureExcept fun w hw => ⟨hw.1, .inr (hw.2 rfl)⟩
        | false => exact .throwExcept fun w hw => hw.1
      exact fun w tr r w' hw hx => hshutdown (hw.2 e rfl) w tr r w' hw.1 hx

/-- An old event that is not stored ends in a panic. -/
theorem onOldRoomEvent_triple (isLocal : String → Bool) (ev : Event) :
    Leads env (At t none) (onOldRoomEvent isLocal ev) fun _ w => Unacked w ∧ Stored env (.oldRoomEvent ev) w.tables := by
  refine Asks.next (.query _) fun userID _ => ?_
  refine Asks.next (.dereference userID) fun _ _ => ?_
  refine .seqExcept (.liftExcept (writeEvent_triple (G := fun _ => True) (fun _ _ => trivial) (fun _ _ _ _ => trivial)
    ev [] [] [] ev.stateKey.isSome)) fun r => ?_
  cases r with
  | error stop => exact .throwExcept fun w hw => hw.1
  | ok pos =>
    refine Asks.next (.attempt (.query _)) fun _ _ => ?_
    refine Asks.next (.query _) fun _ _ => ?_
    refine Asks.next (notifyJoinedPeeks_asks isLocal ev pos) fun _ _ => ?_
    exact .pureExcept fun w hw => ⟨hw.2.2, t, pos, hw.1⟩

def Settled (env : Env) (msg : Message) (w : World) : Prop :=
  Unacked w ∧ (msg.excused = true ∨ Stored env msg w.tables ∨ w.ended = true)

theorem settled_timely (msg : Message) : Timely (Settled env msg) := by
  rintro w ended hended ⟨hw, h⟩
  exact ⟨hw, h.imp_right (.imp_right hended)⟩

variable {msg : Message}

section

variable (hfits : (∃ ev, msg = .oldRoomEvent ev) ∨ ∀ e, env.fails e → Stopped e = false) (isLocal : String → Bool)
  (appservices : Bool)
include hfits

theorem handle_triple : Leads env (At t none) (handle isLocal appservices msg) fun _ => Settled env msg := by
  cases msg with
  | malformed => exact .pureExcept fun w hw => ⟨hw.2.2, .inl rfl⟩
  | oldRoomEvent ev =>
    exact .monoExcept (onOldRoomEvent_triple isLocal ev) (fun _ _ hw => hw) fun _ _ hw => ⟨hw.1, .inr (.inl hw.2)⟩
  | redactedEvent redactedEventID redactedBecause =>
    have hfails := hfits.resolve_left nofun
    refine Asks.next (.query _) fun _ _ => ?_
    refine Asks.next (.query _) fun _ _ => ?_
    exact .monoExcept (onNewRoomEvent_triple hfails isLocal _) (fun _ _ hw => hw) fun _ _ hw => ⟨hw.1, .inr hw.2⟩
  | newRoomEvent msg =>
    have hfails := hfits.resolve_left nofun
    simp only [handle]
    split
    · rename_i hpaired
      exact .pureExcept fun w hw => ⟨hw.2.2, .inl hpaired⟩
    refine .seqExcept (Q := fun _ => Settled env (.newRoomEvent msg)) ?_ fun _ => ?_
    · exact .monoExcept (onNewRoomEvent_triple hfails isLocal msg) (fun _ _ hw => hw) fun _ _ hw => ⟨hw.1, .inr hw.2⟩
    split
    · exact .monoExcept (Asks.query _ _ (settled_timely _)) (fun _ _ hw => hw.1) fun _ _ hw => hw.1
    · exact .pureExcept fun w hw => hw

/-- What is acknowledged has been stored, or is not to be. -/
theorem deliver_triple :
    Triple (σ := SyncSig) (exec env) (At t none) (deliver isLocal appservices msg) fun result w =>
      w.acked = true → msg.excused = true ∨ Discarded result ∨ Stored env msg w.tables := by
  refine .bind (handle_triple hfits isLocal appservices) fun result => ?_
  by_cases hsettle : settle result = some true
  · rw [if_pos hsettle]
    refine .bind (Q := fun _ w => w.acked = true → msg.excused = true ∨ Discarded result ∨ Stored env msg w.tables)
      (.ask ?_) fun _ => .ret fun _ hw => hw
    rintro w _ w' hw ⟨ended, hended, heffect⟩ hacked
    cases result with
    | ok _ =>
      obtain ⟨hunacked, h⟩ := settled_timely msg w ended hended hw
      obtain rfl | ⟨halive, rfl⟩ := heffect
      · exact absurd (hunacked.symm.trans hacked) nofun
      · obtain h | h | h := h
        · exact .inl h
        · exact .inr (.inr h)
        · exact absurd (halive.symm.trans h) nofun
    | error stop =>
      cases stop with
      | panicked => cases hsettle
      | error e => exact .inr (.inl ⟨e, rfl, Option.some.inj hsettle⟩)
  · rw [if_neg hsettle]
    refine .ret fun w hw hacked => ?_
    have hunacked : w.acked = false := by
      cases result with
      | ok _ => exact hw.1
      | error stop => exact hw
    exact absurd (hunacked.symm.trans hacked) nofun

end

/-! ## A write that fails

Everything is found and answered, until the transaction cannot be begun. -/

def answer (env : Env) : (q : Query) → q.Ans
  | .events eventIDs | .queryEventsByID _ eventIDs => eventIDs.map env.event
  | .newDatabaseSnapshot => ()
  | .getStateEvent _ _ _ => none
  | .queryUserIDForSender _ senderID => some senderID
  | .setUnsigned _ _ => ()
  | .membership ev => ev.membership
  | .writeFTS _ _ => ()
  | .deletePeeks _ _ => 0
  | .updateRelations _ => ()
  | .redactEvent _ _ => ()
  | .redactRelations _ _ => ()
  | .produceRoomEvents => ()

def reply (env : Env) (e : Error) : (c : Call) → World → c.Ans × World
  | .query q, w => (.ok (answer env q), w)
  | .purgeRoomState roomID, w => (.ok (), { w with tables := w.tables.deleteRoomStateForRoom roomID })
  | .begin, w => (.error e, w)
  | .statement _, w => (.error e, w)
  | .commit, w => (.error e, { w with txn := none })
  | .rollback, w => (.ok (), { w with txn := none })
  | .ended, w => (w.ended, w)
  | .ackSync, w => (.ok (), if w.ended then w else { w with acked := true })

theorem reply_exec (he : env.fails e) (c : Call) (w : World) : exec env c w (reply env e c w).1 (reply env e c w).2 := by
  refine ⟨w.ended, id, ?_⟩
  cases c with
  | query q =>
    refine ⟨rfl, ?_⟩
    rintro _ ⟨⟩
    cases q with
    | events | queryEventsByID => simp [Query.Lawful, answer, env.named]
    | _ => trivial
  | purgeRoomState roomID => exact .inl rfl
  | begin | statement => exact ⟨he, rfl⟩
  | commit => exact ⟨he, .inl rfl⟩
  | rollback => exact rfl
  | ended => exact ⟨rfl, rfl⟩
  | ackSync =>
    by_cases hended : w.ended = true
    · exact .inl (if_pos hended)
    · exact .inr ⟨eq_false_of_ne_true hended, if_neg hended⟩

variable (env) (e : Error)

theorem updateStateEvent_perform (ev : Event) (w : World) :
    ∃ updated, (updateStateEvent ev).run.perform (reply env e) w = (.ok updated, w) := by
  unfold updateStateEvent stateKeyUser
  split
  · exact ⟨_, rfl⟩
  split
  · exact ⟨_, rfl⟩
  · exact ⟨_, rfl⟩

theorem updateStateEvents_perform (events : List Event) (w : World) :
    ∃ updated, (updateStateEvents events).run.perform (reply env e) w = (.ok updated, w) := by
  induction events with
  | nil => exact ⟨[], rfl⟩
  | cons ev rest ih =>
    obtain ⟨ev', hev⟩ := updateStateEvent_perform env e ev w
    obtain ⟨rest', hrest⟩ := ih
    exact ⟨ev' :: rest', (perform_bindOk hev).trans (perform_bindOk hrest)⟩

theorem knownEvents_perform (missing : List String) (w : World) :
    ∃ known, known.map (·.eventID) = missing ∧ (knownEvents missing).run.perform (reply env e) w = (.ok known, w) := by
  unfold knownEvents
  split
  · rename_i hnone
    exact ⟨[], hnone.symm, rfl⟩
  · exact ⟨missing.map env.event, by simp [Function.comp_def, env.named], rfl⟩

theorem addedStateEvents_perform (msg : OutputNewRoomEvent) (w : World) :
    ∃ added, (addedStateEvents msg).run.perform (reply env e) w = (.ok added, w) := by
  obtain ⟨known, hids, hknown⟩ := knownEvents_perform env e msg.neededStateEventIDs.2 w
  have hnone : msg.neededStateEventIDs.2.eraseDups.filter (fun eventID => eventID ∉ known.map (·.eventID)) = [] := by
    rw [hids]
    simp
  refine ⟨msg.neededStateEventIDs.1 ++ known, (perform_bindOk hknown).trans ?_⟩
  rw [if_pos hnone]
  rfl

variable {env e}

theorem consumerShutdownError_perform {failure : Error} (he : Stopped failure = true) {w : World} (hw : w.ended = false) :
    (consumerShutdownError failure).run.perform (reply env e) w = (.ok true, w) := by
  unfold consumerShutdownError
  split
  · rfl
  rename_i hnone
  have hclosed : contains (toLower failure.text) "database is closed" = true := by
    simpa [Stopped, eq_false_of_ne_true hnone] using he
  have hended : (.lift (.ask (σ := SyncSig) .ended) : Work Bool).run.perform (reply env e) w = (.ok false, w) := by
    show (Except.ok w.ended, w) = _
    rw [hw]
  refine (perform_bindOk hended).trans ?_
  show (Except.ok (contains (toLower failure.text) "database is closed"), w) = _
  rw [hclosed]

/-- What is left of the tables when the state is rewritten. -/
def World.purged (w : World) (msg : OutputNewRoomEvent) : World :=
  { w with tables := if msg.rewritesState then w.tables.deleteRoomStateForRoom msg.event.roomID else w.tables }

theorem purgeRewritten_perform (msg : OutputNewRoomEvent) (w : World) :
    (purgeRewritten msg).run.perform (reply env e) w = (.ok (), w.purged msg) := by
  unfold purgeRewritten World.purged
  split
  · rfl
  · rfl

/-- The handler returns as if the event had been written. -/
theorem onNewRoomEvent_swallows (he : Stopped e = true) (isLocal : String → Bool) (msg : OutputNewRoomEvent)
    (hw : w.ended = false) : (onNewRoomEvent isLocal msg).run.perform (reply env e) w = (.ok (), w.purged msg) := by
  obtain ⟨added, hadded⟩ := addedStateEvents_perform env e msg w
  obtain ⟨ev, hev⟩ := updateStateEvent_perform env e msg.event w
  obtain ⟨added', hadded'⟩ := updateStateEvents_perform env e added w
  refine (perform_bindOk hadded).trans ((perform_bindOk hev).trans ((perform_bindOk hadded').trans
    ((perform_bindOk (purgeRewritten_perform msg w)).trans ?_)))
  generalize hu : w.purged msg = u
  have hended : u.ended = false := by
    rw [← hu]
    exact hw
  -- the sender is found, and the transaction is not begun
  have hsender :
      (query (.queryUserIDForSender ev.roomID ev.senderID)).run.perform (reply env e) u = (.ok (some ev.senderID), u) := rfl
  have hfound : (dereference (some ev.senderID)).run.perform (reply env e) u = (.ok ev.senderID, u) := rfl
  have hwrite : (.lift (writeEvent ev added' msg.addsStateEventIDs msg.removesStateEventIDs false).run :
      Work (Except Stop Int)).run.perform (reply env e) u =
        (.ok (.error (.error (e.wrap "sqlutil.WithTransaction.Begin"))), u) := rfl
  refine (perform_bindOk hsender).trans ((perform_bindOk hfound).trans ((perform_bindOk hwrite).trans ?_))
  have hstopped : Stopped (e.wrap "sqlutil.WithTransaction.Begin") = true := (stopped_wrap (by decide) e).trans he
  exact perform_bindOk (consumerShutdownError_perform hstopped hended)

/-- A message whose event is written while errors of the end of the process are let pass. -/
def Message.swallowing : Message → Bool
  | .newRoomEvent msg => !msg.event.paired
  | .redactedEvent _ _ => true
  | _ => false

def World.start : World := ⟨.empty, none, false, false⟩

/-- The message is acknowledged, and nothing has been stored. -/
theorem deliver_swallows (he : Stopped e = true) (isLocal : String → Bool) (appservices : Bool) (hmsg : msg.swallowing = true) :
    (deliver isLocal appservices msg).perform (reply env e) .start = (.ok (), { World.start with acked := true }) := by
  have hhandle : (handle isLocal appservices msg).run.perform (reply env e) .start = (.ok (), .start) := by
    have hnew (msg : OutputNewRoomEvent) : (onNewRoomEvent isLocal msg).run.perform (reply env e) .start = (.ok (), .start) := by
      rw [onNewRoomEvent_swallows he isLocal msg rfl, World.purged]
      split <;> rfl
    cases msg with
    | malformed | oldRoomEvent => cases hmsg
    | redactedEvent redactedEventID redactedBecause =>
      have hredact :
          (query (.redactEvent redactedEventID redactedBecause)).run.perform (reply env e) .start = (.ok (), .start) := rfl
      have hrelations : (query (.redactRelations redactedBecause.roomID redactedEventID)).run.perform (reply env e) .start =
          (.ok (), .start) := rfl
      exact (perform_bindOk hredact).trans ((perform_bindOk hrelations).trans (hnew _))
    | newRoomEvent msg =>
      simp only [handle]
      rw [if_neg (by simpa [Message.swallowing] using hmsg)]
      refine (perform_bindOk (hnew msg)).trans ?_
      split <;> rfl
  unfold deliver
  rw [perform_bind, hhandle]
  rfl

theorem foldl_keeps {β γ : Type} {g : Tables → γ} {f : Tables → β → Tables} (hf : ∀ t b, g (f t b) = g t) (bs : List β)
    (t : Tables) : g (bs.foldl f t) = g t := by
  induction bs generalizing t with
  | nil => rfl
  | cons b bs ih => rw [List.foldl_cons, ih, hf]

theorem addRoomState_outputEvents (pos topo : Int) (t : Tables) (ev : Event) :
    (t.addRoomState pos topo ev).outputEvents = t.outputEvents := by
  unfold Tables.addRoomState
  split
  · rfl
  · split <;> rfl

section

variable (ev : Event) (added : List Event) (adds removes : List String) (excludeFromSync : Bool) (pos : Int)

theorem writeEvent_outputEvents (t : Tables) :
    (t.writeEvent ev added adds removes excludeFromSync pos).outputEvents =
      (t.insertEvent ev adds removes excludeFromSync pos).outputEvents := by
  unfold Tables.writeEvent Tables.updateRoomState Tables.handleBackwardExtremities
  have hdelete :
      ∀ (t : Tables) (eventID : String), (t.deleteRoomStateByEventID eventID).outputEvents = t.outputEvents := fun _ _ => rfl
  rw [foldl_keeps (addRoomState_outputEvents pos ev.depth), foldl_keeps hdelete, foldl_keeps (g := Tables.outputEvents)]
  · rfl
  · intro t eID
    split <;> rfl

theorem upsert_ne_nil (same : β → Bool) (update : β → β) (row : β) (rows : List β) : upsert same update row rows ≠ [] := by
  unfold upsert
  split
  · rename_i hany
    rintro hnil
    rw [List.map_eq_nil_iff.mp hnil] at hany
    cases hany
  · simp

theorem writeEvent_ne_empty (t : Tables) : t.writeEvent ev added adds removes excludeFromSync pos ≠ .empty := by
  intro hempty
  have hnone : (t.insertEvent ev adds removes excludeFromSync pos).outputEvents = [] := by
    rw [← writeEvent_outputEvents ev added, hempty]
    rfl
  exact upsert_ne_nil _ _ _ _ hnone

end

theorem not_stored_empty (msg : Message) : ¬ Stored env msg .empty := by
  cases msg with
  | malformed => exact id
  | oldRoomEvent ev =>
    rintro ⟨before, pos, hempty⟩
    exact writeEvent_ne_empty _ _ _ _ _ _ _ hempty.symm
  | newRoomEvent | redactedEvent =>
    rintro ⟨before, added, pos, -, -, -, hempty⟩
    exact writeEvent_ne_empty _ _ _ _ _ _ _ hempty.symm

def sampleMessage : Message :=
  .newRoomEvent ⟨⟨"$event", "!room:home", "m.room.message", none, "@alice:home", "", [], 1, none, ""⟩, [], [], false⟩

/-- What `Begin` answers once the database handle is closed. -/
def databaseClosed : Error := ⟨"sql: database is closed", []⟩

def closedEnv : Env := ⟨(· = databaseClosed), fun id => ⟨id, "", "", none, "", "", [], 0, none, ""⟩, fun _ => rfl⟩

end Dirextalk.Sync

/-
  Dirextalk.Contacts.Decisions — a contact row is replaced by a writer that has read it
  (`decision_replaced_by_reader`).

  Two things get in the way. `handleReactivate` takes no lock, so it can save what it made
  of a row that has been decided since (`reactivation_overwrites_rejection`). And a workflow
  that names a room may hold the lock of one peer and write the row of another: the peer
  whose lock it takes is found before it has the lock, a decision may name another peer
  than its row, and a deletion of a room that is not found writes the peer it names.
-/
import Dirextalk.Contacts.Readers

namespace Dirextalk.Contacts

open Lib Lib.Go Dirextalk.Action Pool

abbrev Event := Ev ContactSig Request

abbrev State := Pool ContactSig Request World

/-! ## What is claimed -/

def readOf : (c : ContactCall) → c.Ans → Option (Option ContactRecord)
  | .contactByRoom _, .ok found | .contactByPeer _, .ok found => some found
  | _, _ => none

def lastRead (t : Nat) : List Event → Option (Option ContactRecord)
  | [] => none
  | .answer u c r :: es => (lastRead t es).or (if u = t then readOf c r else none)
  | _ :: es => lastRead t es

def ReadBefore (es : List Event) (s : State) (e : Event) (s' : State) : Prop :=
  ∀ t c r, e = .answer t c r → ∀ peer, s'.world.tables.contacts.byPeer peer ≠ s.world.tables.contacts.byPeer peer →
    lastRead t es = some (s.world.tables.contacts.byPeer peer)

/-! ## The condition -/

def Reactivating (s : State) (requester : String) (t : Nat) : Prop :=
  ∃ q c k, s.thread t = some ⟨q, .call c k⟩ ∧ q.requester = some requester

/-- A thread that holds a lock and finds this goes on to write the row it has found, which is that of the peer
whose lock it holds. -/
def Fits (home : Home) (s : State) (t : Nat) (found : Option ContactRecord) : Prop :=
  ∀ q prog key, s.thread t = some ⟨q, prog⟩ → s.world.locks key = some t → ∀ peer, q.target home found = some peer →
    trimSpace peer = key ∧ s.world.tables.contacts.byPeer peer = found

/-- Lookups under a lock fit, deletions name a room, and reactivations are alone with their requester. -/
def Orderly (home : Home) (s : State) : Event → Prop
  | .arrive q =>
    q.NamesRoom ∧ ∀ requester, q.requester = some requester → s.world.locks requester = none ∧ ∀ t, ¬ Reactivating s requester t
  | .answer _ (.lock key) _ => ∀ t, ¬ Reactivating s key t
  | .answer t (.contactByRoom roomID) _ => Fits home s t (s.world.tables.contacts.byRoom roomID)
  | .answer t (.contactByPeer peerMXID) _ => Fits home s t (s.world.tables.contacts.byPeer peerMXID)
  | _ => True

abbrev OrderlyStep (home : Home) : State → Event → State → Prop :=
  Under (Step (system home)) fun s e _ => Orderly home s e

/-! ## What threads know is so -/

def Alone (s : State) : Prop :=
  ∀ requester t, Reactivating s requester t → s.world.locks requester = none ∧ ∀ u, Reactivating s requester u → u = t

structure Known (es : List Event) (t : Nat) (q : Request) (κ : Knows) (w : World) : Prop where
  locked : ∀ key, κ.key = some key → w.locks key = some t
  read : ∀ found, κ.seen = some found → lastRead t es = some found
  row : ∀ peer, κ.mine = some peer → κ.seen = some (w.tables.contacts.byPeer peer)
  guarded : ∀ peer, κ.mine = some peer → κ.key = some (trimSpace peer) ∨ q.requester = some (trimSpace peer)

variable {home : Home} {es : List Event} {s s' : State} {e : Event} {t u : Nat} {q : Request} {κ : Knows} {w w' : World}

theorem Known.nothing : Known es t q .nothing w := by
  constructor
  all_goals exact nofun

theorem lastRead_append (t : Nat) (es es' : List Event) : lastRead t (es ++ es') = (lastRead t es').or (lastRead t es) := by
  induction es with
  | nil => simp [lastRead]
  | cons e es ih =>
    cases e with
    | arrive | crash => exact ih
    | answer u c r => simp only [List.cons_append, lastRead, ih, Option.or_assoc]

theorem lastRead_other (h : ∀ c r, e ≠ .answer t c r) : lastRead t (es ++ [e]) = lastRead t es := by
  rw [lastRead_append]
  cases e with
  | arrive q => rfl
  | crash => rfl
  | answer u c r =>
    have hu : u ≠ t := by
      rintro rfl
      exact h c r rfl
    simp [lastRead, hu]

theorem lastRead_answer (c : ContactCall) (r : c.Ans) : lastRead t (es ++ [.answer t c r]) = (readOf c r).or (lastRead t es) := by
  rw [lastRead_append]
  simp [lastRead]

/-- A row that two threads have to themselves. -/
theorem Known.unique (halone : Alone s) (ht : Known es t qt κt s.world) (hu : Known es u qu κu s.world)
    (hthread : s.thread t = some ⟨qt, .call ct kt⟩) (huthread : s.thread u = some ⟨qu, .call cu ku⟩)
    (hmine : κt.mine = some peer) (humine : κu.mine = some peer) : u = t := by
  have hnone :
      ∀ {v x : Nat} {q : Request} {c : ContactCall} {k : c.Ans → Prog ContactSig Unit}, s.thread v = some ⟨q, .call c k⟩ →
      q.requester = some (trimSpace peer) → s.world.locks (trimSpace peer) = some x → False := by
    intro v x q c k hthread hq hlock
    rw [(halone _ v ⟨q, c, k, hthread, hq⟩).1] at hlock
    cases hlock
  rcases ht.guarded peer hmine with hkey | hq <;> rcases hu.guarded peer humine with hukey | huq
  · have := (ht.locked _ hkey).symm.trans (hu.locked _ hukey)
    injection this with this
    exact this.symm
  · exact (hnone huthread huq (ht.locked _ hkey)).elim
  · exact (hnone hthread hq (hu.locked _ hukey)).elim
  · exact (halone _ t ⟨_, _, _, hthread, hq⟩).2 u ⟨_, _, _, huthread, huq⟩

/-! ### The steps of other threads -/

variable {c : ContactCall} {r : c.Ans}

theorem row_mine (h : c.Exec t w r w') (hallows : (reader home q).allows κ c)
    (hne : w'.tables.contacts.byPeer peer ≠ w.tables.contacts.byPeer peer) : κ.mine = some peer := by
  obtain ⟨contact, rfl, rfl⟩ | ⟨contact, expected, rfl, hpeer⟩ := ContactCall.exec_row h hne
  · exact hallows
  · obtain ⟨hmine, hsame, -⟩ := hallows
    obtain rfl | rfl := hpeer
    · rw [hmine, hsame]
    · exact hmine

theorem Known.other (halone : Alone s) (h : Known es t q κ s.world)
    (hthread : s.thread t = some ⟨q, .call ct kt⟩) (hu : Known es u qu κu s.world) (huthread : s.thread u = some ⟨qu, .call c k⟩)
    (hallows : (reader home qu).allows κu c) (hexec : c.Exec u s.world r w') (hne : u ≠ t) :
    Known (es ++ [.answer u c r]) t q κ w' where
  locked key hkey := by
    have hlock := h.locked key hkey
    obtain hsame | ⟨key', rfl, hfree, hlocks⟩ | ⟨key', rfl, hlocks⟩ := ContactCall.exec_locks hexec
    · rw [hsame, hlock]
    · have : key ≠ key' := by
        rintro rfl
        rw [hlock] at hfree
        cases hfree
      rw [hlocks, Function.update_of_ne this, hlock]
    · have : key ≠ key' := by
        rintro rfl
        rw [hu.locked key hallows] at hlock
        injection hlock with hlock
        exact hne hlock
      rw [hlocks, Function.update_of_ne this, hlock]
  read found hfound := by
    rw [lastRead_other, h.read found hfound]
    rintro c' r' heq
    injection heq with heq
    exact hne heq
  row peer hmine := by
    rw [h.row peer hmine]
    by_contra hchanged
    have humine := row_mine hexec hallows fun heq => hchanged (by rw [heq])
    exact hne (h.unique halone hu hthread huthread hmine humine)
  guarded := h.guarded

/-! ### The steps of a thread itself -/

theorem Known.same (h : Known es t q κ w) (hread : readOf c r = none) (hlocks : w'.locks = w.locks)
    (hrows : ∀ peer, w'.tables.contacts.byPeer peer = w.tables.contacts.byPeer peer) :
      Known (es ++ [.answer t c r]) t q κ w' where
  locked key hkey := by rw [hlocks, h.locked key hkey]
  read found hfound := by rw [lastRead_answer, hread, Option.none_or, h.read found hfound]
  row peer hmine := by rw [hrows, h.row peer hmine]
  guarded := h.guarded

/-- A call after which no row counts as read; `key` is the lock the thread then has. -/
theorem Known.forget (h : Known es t q κ w) (hread : readOf c r = none)
    (hlocked : ∀ k, key = some k → w'.locks k = some t) : Known (es ++ [.answer t c r]) t q ⟨key, κ.seen, none⟩ w' where
  locked := hlocked
  read found hfound := by rw [lastRead_answer, hread, Option.none_or, h.read found hfound]
  row _ hmine := nomatch hmine
  guarded _ hmine := nomatch hmine

theorem Request.requester_spec (home : Home) {requester : String} (h : q.requester = some requester) :
    trimSpace requester = requester ∧ ∀ found, q.target home found = found.map (·.peerMXID) := by
  cases q with
  | reactivate params =>
    cases h
    exact ⟨Params.trimSpace_string _ _, fun _ => rfl⟩
  | _ => cases h

/-- What a lookup finds is known: under a lock if it fits, and in a reactivation if it is the row of the requester. -/
theorem Known.found {found : Option ContactRecord} (h : Known es t q κ w) (hread : readOf c r = some found)
    (hfits : ∀ key, κ.key = some key → ∀ peer, q.target home found = some peer →
      trimSpace peer = key ∧ w.tables.contacts.byPeer peer = found)
    (hseeks : ∀ requester, q.requester = some requester → w.tables.contacts.byPeer requester = found) :
    κ.Fitting home q found ∧ Known (es ++ [.answer t c r]) t q (κ.read home q found) w := by
  have hmine : ∀ peer, (κ.read home q found).mine = some peer → w.tables.contacts.byPeer peer = found ∧
      (∀ key, κ.key = some key → trimSpace peer = key) ∧
        (κ.key = some (trimSpace peer) ∨ q.requester = some (trimSpace peer)) := by
    intro peer hpeer
    rw [Knows.read] at hpeer
    split at hpeer
    · rename_i hlocked
      cases hkey : κ.key with
      | some key =>
        obtain ⟨htrim, hrow⟩ := hfits key hkey peer hpeer
        refine ⟨hrow, ?_, .inl (congrArg some htrim.symm)⟩
        rintro _ ⟨⟩
        exact htrim
      | none =>
        rw [hkey, Option.isSome_none, Bool.false_or] at hlocked
        obtain ⟨requester, hq⟩ := Option.isSome_iff_exists.mp hlocked
        obtain ⟨htrim, htarget⟩ := Request.requester_spec home hq
        have hrow := hseeks requester hq
        rw [htarget] at hpeer
        obtain ⟨row, rfl, rfl⟩ := Option.map_eq_some_iff.mp hpeer
        have hpeer := ContactTable.byPeer_peer hrow
        rw [hpeer, htrim]
        refine ⟨hrow, fun key h => ?_, .inr hq⟩
        cases h
    · cases hpeer
  refine ⟨fun peer hpeer => ⟨?_, (hmine peer hpeer).2.1⟩, ?_⟩
  · rintro row rfl
    exact ContactTable.byPeer_peer (hmine peer hpeer).1
  · exact {
      locked := h.locked
      read := fun found' hfound => by
        cases hfound
        rw [lastRead_answer, hread, Option.some_or]
      row := fun peer hpeer => congrArg some (hmine peer hpeer).1.symm
      guarded := fun peer hpeer => (hmine peer hpeer).2.2 }

variable {tables : Tables}

/-- A compare-and-swap of a row as it is goes through, or fails. -/
theorem compareAndSwap_current
    (hrow : tables.contacts.byPeer expected.peerMXID = some expected)
    (h : tables.compareAndSwap contact expected = some (saved, tables')) :
    saved = true ∧ tables.contacts.replace expected.peerMXID contact = some tables'.contacts := by
  have hcurrent : ContactTable.current expected expected = true := by simp [ContactTable.current]
  unfold Tables.compareAndSwap at h
  split at h
  · cases h
  · rw [hrow] at h
    dsimp only at h
    rw [hcurrent] at h
    obtain ⟨contacts, hreplace, h⟩ := Option.bind_eq_some_iff.mp h
    obtain ⟨conversations, -, h⟩ := Option.bind_eq_some_iff.mp h
    cases h
    exact ⟨rfl, hreplace⟩

theorem Known.own (h : Known es t q κ s.world)
    (hthread : s.thread t = some ⟨q, .call c k⟩) (hallows : (reader home q).allows κ c) (hexec : c.Exec t s.world r w')
    (horderly : Orderly home s (.answer t c r)) :
    (reader home q).expects κ c r ∧ Known (es ++ [.answer t c r]) t q ((reader home q).next κ c r) w' := by
  have hlocks : (∀ key, c ≠ .lock key) → (∀ key, c ≠ .unlock key) → w'.locks = s.world.locks := by
    intro hlock hunlock
    obtain hsame | ⟨key, rfl, -⟩ | ⟨key, rfl, -⟩ := ContactCall.exec_locks hexec
    · exact hsame
    · exact absurd rfl (hlock key)
    · exact absurd rfl (hunlock key)
  cases c with
  | lock key =>
    refine ⟨trivial, h.forget rfl ?_⟩
    rintro _ ⟨⟩
    rw [hexec.2]
    exact Function.update_self ..
  | unlock key => exact ⟨trivial, h.forget rfl nofun⟩
  | contactByRoom roomID =>
    obtain ⟨rfl, ⟨err, rfl⟩ | rfl⟩ := hexec
    · exact ⟨trivial, h.same rfl rfl fun _ => rfl⟩
    · refine h.found rfl (fun key hkey => horderly q _ key hthread (h.locked key hkey)) fun requester hq => ?_
      rw [show q.requester = none from hallows] at hq
      cases hq
  | contactByPeer peerMXID =>
    obtain ⟨rfl, ⟨err, rfl⟩ | rfl⟩ := hexec
    · exact ⟨trivial, h.same rfl rfl fun _ => rfl⟩
    · refine h.found rfl (fun key hkey => horderly q _ key hthread (h.locked key hkey)) fun requester hq => ?_
      rw [hallows requester hq]
  | upsertContact contact =>
    have hsame := hlocks nofun nofun
    obtain ⟨⟨err, rfl⟩, rfl⟩ | ⟨a, rfl, -⟩ := hexec
    · exact ⟨trivial, h.same rfl rfl fun _ => rfl⟩
    · refine ⟨trivial, h.forget rfl fun key hkey => ?_⟩
      rw [hsame, h.locked key hkey]
  | compareAndSwap contact expected =>
    have hsame := hlocks nofun nofun
    obtain ⟨hmine, hpeer, hseen⟩ := hallows
    have hrow : s.world.tables.contacts.byPeer expected.peerMXID = some expected := by
      have := (h.row _ hmine).symm.trans hseen
      injection this
    obtain ⟨⟨err, rfl⟩, rfl⟩ | ⟨saved, rfl, hswap⟩ := hexec
    · exact ⟨trivial, h.same rfl rfl fun _ => rfl⟩
    · obtain ⟨⟨saved', tables⟩, hswap', heq⟩ := Option.map_eq_some_iff.mp hswap
      cases heq
      obtain ⟨hsaved, hreplace⟩ := compareAndSwap_current hrow hswap'
      refine ⟨hsaved, ?_⟩
      show Known _ t q (if contact = expected then κ else { κ with mine := none }) _
      split
      · rename_i heq
        subst heq
        -- the row is replaced by itself
        refine h.same rfl hsame fun peer => ?_
        rw [(ContactTable.replace_spec hreplace).1 peer]
        by_cases hp : peer = contact.peerMXID
        · rw [if_pos hp, hp, hrow]
        · rw [if_neg hp, if_neg hp]
      · refine h.forget rfl fun key hkey => ?_
        rw [hsame, h.locked key hkey]
  | _ =>
    have hsame := hlocks nofun nofun
    refine ⟨trivial, h.same rfl hsame ?_⟩
    obtain hcontacts | ⟨_, h, -⟩ | ⟨_, _, _, h, -⟩ := ContactCall.exec_contacts hexec
    · exact fun peer => by rw [hcontacts]
    · cases h
    · cases h

/-- A reactivation has arrived with the step, or was under way before it. -/
theorem Reactivating.cases (hstep : Step (system home) s e s') (h : Reactivating s' requester t) :
    Reactivating s requester t ∨ t = s.next ∧ ∃ q, e = .arrive q ∧ q.requester = some requester := by
  obtain ⟨q, c, k, hthread, hq⟩ := h
  obtain ⟨q', rfl, rfl, heq⟩ | ⟨q', c', k', r, -, hold, heq⟩ | ⟨hold, -⟩ := hstep.thread_cases hthread
  · cases congrArg Thread.origin heq
    exact .inr ⟨rfl, q, rfl, hq⟩
  · cases congrArg Thread.origin heq
    exact .inl ⟨q, c', k', hold, hq⟩
  · exact .inl ⟨q, c, k, hold, hq⟩

theorem Alone.step (h : Alone s) (hstep : OrderlyStep home s e s') : Alone s' := by
  obtain ⟨hstep, horderly⟩ := hstep
  intro requester t ht
  -- a reactivation that arrives finds its requester free, and no other one
  have hnew : ∀ q, e = .arrive q → q.requester = some requester →
      s.world.locks requester = none ∧ ∀ u, ¬ Reactivating s requester u := by
    rintro q rfl hq
    exact horderly.2 requester hq
  refine ⟨?_, fun u hu => ?_⟩
  · cases hstep with
    | crash _ =>
      obtain ⟨_, _, _, hthread, _⟩ := ht
      cases hthread
    | arrive q =>
      obtain hold | ⟨-, q', heq, hq⟩ := Reactivating.cases (.arrive s q) ht
      · exact (h requester t hold).1
      · exact (hnew q' heq hq).1
    | @answer u q c k r w hthread hexec =>
      obtain hold | ⟨-, q', heq, -⟩ := Reactivating.cases (.answer hthread hexec) ht
      · obtain hsame | ⟨key, rfl, -, hlocks⟩ | ⟨key, rfl, hlocks⟩ := ContactCall.exec_locks hexec
        · exact (congrFun hsame requester).trans (h requester t hold).1
        · have : requester ≠ key := by
            rintro rfl
            exact horderly t hold
          exact (congrFun hlocks requester).trans ((Function.update_of_ne this _ _).trans (h requester t hold).1)
        · refine (congrFun hlocks requester).trans ?_
          rw [Function.update_apply]
          split
          · rfl
          · exact (h requester t hold).1
      · cases heq
  · rcases Reactivating.cases hstep ht with hold | ⟨rfl, q, heq, hq⟩ <;>
      obtain huold | ⟨rfl, q', heq', hq'⟩ := Reactivating.cases hstep hu
    · exact (h requester t hold).2 u huold
    · exact absurd hold ((hnew q' heq' hq').2 t)
    · exact absurd huold ((hnew q heq hq).2 u)
    · rfl

/-! ## The property -/

theorem known_run (hr : Run (OrderlyStep home) (start (World.start tables)) es s) :
    Alone s ∧ Obeying (reader home) (fun _ => True) Known es s := by
  refine obeying_run (fun _ => .nothing) (J := fun _ => Alone) (fun h => h.1) ?_ ?_ ?_ ?_ hr ?_
  · intro es s e s' t th κ halone hthreads hthread hthread' hobeys hknown hstep hother
    obtain ⟨q, prog⟩ := th
    cases prog with
    | ret a => exact ⟨.nothing, .ret trivial, .nothing⟩
    | call ct kt =>
      refine ⟨κ, hobeys, ?_⟩
      cases hstep.1 with
      | arrive q' => exact ⟨hknown.locked, fun found hfound => by rw [lastRead_other hother, hknown.read found hfound],
        hknown.row, hknown.guarded⟩
      | crash _ => cases hthread'
      | @answer u qu c k r w huthread hexec =>
        obtain ⟨κu, huobeys, huknown⟩ := hthreads u _ huthread
        cases huobeys with
        | call hallows _ =>
          refine hknown.other halone hthread huknown huthread hallows hexec ?_
          rintro rfl
          exact hother c r rfl
  · intro es s q s' halone hthreads hstep
    exact ⟨request_obeys hstep.2.1, .nothing, halone.step hstep⟩
  · intro es s s' halone hstep
    exact halone.step hstep
  · intro es s t q c k r s' κ halone hthreads hknown hthread hallows hstep
    have halone' := halone.step hstep
    obtain ⟨hstep, horderly⟩ := hstep
    cases hstep with
    | @answer _ q' _ k' _ w hthread' hexec =>
      obtain ⟨hexpects, hknown'⟩ := hknown.own hthread hallows hexec horderly
      exact ⟨hexpects, hknown', halone'⟩
  · rintro requester t ⟨_, _, _, hthread, _⟩
    cases hthread

/-- Where lookups under a lock fit, deletions name a room and reactivations are alone with their requester, a row is
only ever replaced by a writer that has read it as it is. -/
theorem decision_replaced_by_reader (home : Home) (tables : Tables) {es : List Event} {s s' : State} {e : Event}
    (hr : Run (OrderlyStep home) (start (World.start tables)) es s) (hstep : OrderlyStep home s e s') : ReadBefore es s e s' := by
  obtain ⟨halone, hthreads⟩ := known_run hr
  rintro t c r rfl peer hchanged
  cases hstep.1 with
  | @answer _ q _ k _ w hthread hexec =>
    obtain ⟨κ, hobeys, hknown⟩ := hthreads t _ hthread
    cases hobeys with
    | call hallows _ => exact hknown.read _ (hknown.row peer (row_mine hexec hallows hchanged))

/-! ## Runs -/

def keyed (home : Home) (key : String) (w : World) (q : Request) : ContactCall → Bool
  | .lock k => k = key
  | .contactByRoom roomID => fits (w.tables.contacts.byRoom roomID)
  | .contactByPeer peerMXID => fits (w.tables.contacts.byPeer peerMXID)
  | _ => true
where
  fits (found : Option ContactRecord) : Bool :=
    (q.target home found).all fun peer => trimSpace peer = key ∧ w.tables.contacts.byPeer peer = found

def oneKey (home : Home) (key : String) (s : State) : Event → Bool
  | .arrive (.accept _) | .arrive (.reject _) => true
  | .answer t c _ => c.free s.world && (s.thread t).all fun th => keyed home key s.world th.origin c
  | _ => false

structure OneKey (key : String) (s : State) : Prop where
  locks : ∀ k t, s.world.locks k = some t → k = key
  origins : ∀ t th, s.thread t = some th → th.origin.requester = none

variable {key : String}

theorem OneKey.fits (h : OneKey key s) (hthread : s.thread t = some th)
    (hfits : keyed.fits home key s.world th.origin found = true) : Fits home s t found := by
  intro q prog k hthread' hlock peer htarget
  rw [hthread] at hthread'
  cases hthread'
  obtain rfl := h.locks k t hlock
  rw [keyed.fits, htarget] at hfits
  simpa using hfits

theorem oneKey_keyed (hthread : s.thread t = some th)
    (hcheck : oneKey home key s (.answer t c r) = true) : keyed home key s.world th.origin c = true := by
  have hall := (Bool.and_eq_true_iff.mp hcheck).2
  rwa [hthread] at hall

theorem oneKey_arrives (hcheck : oneKey home key s (.arrive q) = true) : q.NamesRoom ∧ q.requester = none := by
  cases q with
  | accept | reject => exact ⟨trivial, rfl⟩
  | _ => cases hcheck

section

variable (h : OneKey key s) (hstep : Step (system home) s e s') (hcheck : oneKey home key s e = true)
include h hstep hcheck

theorem OneKey.orderly : Orderly home s e := by
  cases hstep with
  | arrive q =>
    obtain ⟨hroom, hq⟩ := oneKey_arrives hcheck
    refine ⟨hroom, fun requester hrequester => ?_⟩
    rw [hq] at hrequester
    cases hrequester
  | crash _ => trivial
  | @answer t q c k r w hthread _ =>
    have hkeyed := oneKey_keyed hthread hcheck
    cases c with
    | lock key' =>
      rintro t ⟨q, c, k, hthread, hq⟩
      rw [h.origins t _ hthread] at hq
      cases hq
    | contactByRoom | contactByPeer => exact h.fits hthread hkeyed
    | _ => trivial

theorem OneKey.step : OneKey key s' := by
  refine ⟨fun k t hlock => ?_, fun t th hth => ?_⟩
  · cases hstep with
    | arrive q => exact h.locks k t hlock
    | crash _ => cases hcheck
    | @answer u q c _ r w hthread hexec =>
      obtain hold | rfl := ContactCall.exec_locked hexec hlock
      · exact h.locks k t hold
      · exact of_decide_eq_true (oneKey_keyed hthread hcheck)
  · obtain ⟨q, rfl, rfl, rfl⟩ | ⟨q, c, k, r, rfl, hthread, rfl⟩ | ⟨hold, -⟩ := hstep.thread_cases hth
    · exact (oneKey_arrives hcheck).2
    · exact h.origins t ⟨q, .call c k⟩ hthread
    · exact h.origins t th hold

end

theorem oneKey_orderly
    (hr : Run (Under (Step (system home)) fun s e _ => oneKey home key s e = true) (start (World.start tables)) es s) :
    Run (OrderlyStep home) (start (World.start tables)) es s ∧ OneKey key s := by
  refine hr.inv_trace (I := fun es s => Run (OrderlyStep home) (.start (.start tables)) es s ∧ OneKey key s) ?_ ⟨.nil _, ?_⟩
  · intro es s e s' h hs
    exact ⟨.snoc h.1 ⟨hs.1, h.2.orderly hs.1 hs.2⟩, h.2.step hs.1 hs.2⟩
  · exact ⟨nofun, nofun⟩

def sampleHome : Home := ⟨"a", "@owner:a", true⟩

def sampleContact (status : String) : ContactRecord := ⟨"!r:b", "@p:b", "P", false, "", "", "b", status, "invite"⟩

def sampleTables (status : String) : Tables :=
  { Tables.empty with contacts := (ContactTable.empty.upsert (sampleContact status)).getD .empty }

def sampleRoom : Params
  | "room_id" => some (.string "!r:b")
  | _ => none

def sampleReactivation : Params
  | "requester_mxid" => some (.string "@p:b")
  | "room_id" => some (.string "!r:b")
  | _ => none

def replaced (check : State → Event → Bool) (script : List (Request ⊕ Nat)) (t : Nat) :
    Option (Option (Option ContactRecord) × Option ContactRecord × Option ContactRecord) :=
  observe (system sampleHome) check (moves script) t (fun c w => c.reply OutsideCall.calm t w)
    (fun es s s' => (lastRead t es, s.world.tables.contacts.byPeer "@p:b", s'.world.tables.contacts.byPeer "@p:b"))
    (start (World.start (sampleTables "pending_inbound")))

theorem replaced_run {check : State → Event → Bool} (hcheck : Waits check) {script : List (Request ⊕ Nat)}
    {read : Option (Option ContactRecord)} {before after : Option ContactRecord}
    (h : replaced check script t = some (read, before, after)) : ∃ (es : List Event) (s s' : State) (c : ContactCall) (r : c.Ans),
      Run (Under (Step (system sampleHome)) fun s e _ => check s e = true)
        (start (World.start (sampleTables "pending_inbound"))) es s ∧
      Under (Step (system sampleHome)) (fun s e _ => check s e = true) s (.answer t c r) s' ∧ lastRead t es = read ∧
      s.world.tables.contacts.byPeer "@p:b" = before ∧ s'.world.tables.contacts.byPeer "@p:b" = after := by
  have hfair : ∀ move ∈ moves script ++ moves [.inr t], FairWhere (system sampleHome) check move := by
    rw [moves, moves, ← List.map_append]
    exact moves_fair hcheck _
  obtain ⟨es, s, c, r, s', hr, hstep, heq⟩ := observe_run hfair h
  cases heq
  exact ⟨es, s, s', c, r, hr, hstep, rfl, rfl, rfl⟩

/-- The contact is accepted; the rejection has found it before, and reads it again under the lock. -/
def acceptedThenRejected : List (Request ⊕ Nat) :=
  [.inl (.accept sampleRoom), .inr 0, .inl (.reject sampleRoom), .inr 1, .inr 0, .inr 0, .inr 0, .inr 0, .inr 0, .inr 0, .inr 1,
    .inr 1, .inr 1]

/-- An acceptance is replaced by a rejection that has read it. -/
theorem rejection_reads_acceptance : ∃ (es : List Event) (s s' : State) (c : ContactCall) (r : c.Ans),
    Run (OrderlyStep sampleHome) (start (World.start (sampleTables "pending_inbound"))) es s ∧
      OrderlyStep sampleHome s (.answer 1 c r) s' ∧ s.world.tables.contacts.byPeer "@p:b" = some (sampleContact "accepted") ∧
      s'.world.tables.contacts.byPeer "@p:b" = some (sampleContact "rejected") ∧
      lastRead 1 es = some (some (sampleContact "accepted")) := by
  have hreplaced : replaced (oneKey sampleHome "@p:b") acceptedThenRejected 1 =
      some (some (some (sampleContact "accepted")), some (sampleContact "accepted"), some (sampleContact "rejected")) := by
    decide +kernel
  obtain ⟨es, s, s', c, r, hr, hstep, -, hbefore, hafter⟩ :=
    replaced_run (fun _ _ _ _ h => (Bool.and_eq_true_iff.mp h).1) hreplaced
  obtain ⟨hr, hkey⟩ := oneKey_orderly hr
  have hstep : OrderlyStep sampleHome s (.answer 1 c r) s' := ⟨hstep.1, hkey.orderly hstep.1 hstep.2⟩
  have hchanged : s'.world.tables.contacts.byPeer "@p:b" ≠ s.world.tables.contacts.byPeer "@p:b" := by
    rw [hbefore, hafter]
    decide
  have hread := decision_replaced_by_reader sampleHome _ hr hstep 1 c r rfl "@p:b" hchanged
  exact ⟨es, s, s', c, r, hr, hstep, hbefore, hafter, hread.trans (congrArg some hbefore)⟩

/-- The contact is read for a reactivation, and rejected before that saves it. -/
def rejectedWhileReactivated : List (Request ⊕ Nat) :=
  [.inl (.reactivate sampleReactivation), .inr 0, .inl (.reject sampleRoom), .inr 1, .inr 1, .inr 1, .inr 1, .inr 1, .inr 0,
    .inr 0, .inr 0]

/-- A rejection is replaced by a reactivation that has not read it. -/
theorem reactivation_overwrites_rejection : ∃ (es : List Event) (s s' : State) (c : ContactCall) (r : c.Ans),
    Run (Step (system sampleHome)) (start (World.start (sampleTables "pending_inbound"))) es s ∧
      Step (system sampleHome) s (.answer 0 c r) s' ∧ s.world.tables.contacts.byPeer "@p:b" = some (sampleContact "rejected") ∧
      s'.world.tables.contacts.byPeer "@p:b" = some (sampleContact "pending_inbound") ∧
      lastRead 0 es = some (some (sampleContact "pending_inbound")) ∧ ¬ ReadBefore es s (.answer 0 c r) s' := by
  have hreplaced : replaced ready rejectedWhileReactivated 0 = some (some (some (sampleContact "pending_inbound")),
      some (sampleContact "rejected"), some (sampleContact "pending_inbound")) := by
    decide +kernel
  obtain ⟨es, s, s', c, r, hr, hstep, hread, hbefore, hafter⟩ := replaced_run ready_waits hreplaced
  refine ⟨es, s, s', c, r, hr.of_under, hstep.1, hbefore, hafter, hread, fun h => ?_⟩
  have hchanged : s'.world.tables.contacts.byPeer "@p:b" ≠ s.world.tables.contacts.byPeer "@p:b" := by
    rw [hbefore, hafter]
    decide
  have hlast := h 0 c r rfl "@p:b" hchanged
  rw [hread, hbefore] at hlast
  exact absurd hlast (by decide)

end Dirextalk.Contacts

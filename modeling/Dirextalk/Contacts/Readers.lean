/-
  Dirextalk.Contacts.Readers — contact workflows against the row they have read: each writes
  only the row of the peer it goes on to write, as it has read it under the lock of that
  peer (`request_obeys`).

  The monitor `reader` says what a workflow knows: the lock it holds, what its last lookup
  found, and the peer whose row is still as it was found. It counts on lookups under a lock
  to find a row that is the one to be written (`Knows.Fitting`).
-/
import Dirextalk.Contacts.System
import Dirextalk.Lib.Trace

namespace Dirextalk.Contacts

open Lib Lib.Go Dirextalk.Action Contacts Request

/-- The peer whose row a request goes on to write, given the row it has found. -/
def Request.target (home : Home) : Request → Option ContactRecord → Option String
  | .request params, _ => some (params.string "mxid")
  | .accept params, found | .reject params, found =>
    found.map fun row => if namedPeer params = "" then row.peerMXID else namedPeer params
  | .requestDelete params, found | .delete params, found => some ((found.map (·.peerMXID)).getD (namedPeer params))
  | .update _, found | .reactivate _, found | .ownerJoin _, found => found.map (·.peerMXID)
  | .invite event, _ => (event.contact home.ownerMXID).map (·.peerMXID)
  | .peerJoin member, found =>
    (found.filter fun row => row.peerMXID = "" ∨ row.peerMXID = member.userID).map fun _ => member.userID
  | .accountDeleted _ peerMXID, found =>
    (found.filter fun row => peerMXID = "" ∨ row.peerMXID = "" ∨ row.peerMXID = peerMXID).map fun row =>
      if peerMXID ≠ "" then peerMXID else row.peerMXID

/-! ## Workflows against what they have read -/

/-- What is known of a thread: the lock it holds, what it has read last, and the peer whose row is still as it
has read it. -/
structure Knows where
  key : Option String
  seen : Option (Option ContactRecord)
  mine : Option String

def Request.requester : Request → Option String
  | .reactivate params => some (params.string "requester_mxid")
  | _ => none

abbrev Request.Seeks (q : Request) (peerMXID : String) : Prop := ∀ requester, q.requester = some requester → peerMXID = requester

section

variable (home : Home) (q : Request) (κ : Knows) (found : Option ContactRecord)
include home

def Knows.read : Knows :=
  { κ with seen := some found, mine := if κ.key.isSome || q.requester.isSome then q.target home found else none }

/-- What a thread counts on when it has found a row to write. -/
def Knows.Fitting : Prop :=
  ∀ peer, (κ.read home q found).mine = some peer →
    (∀ row, found = some row → row.peerMXID = peer) ∧ ∀ key, κ.key = some key → trimSpace peer = key

end

/-- The row a thread writes is still as it has read it; a compare-and-swap finds it. -/
def reader (home : Home) (q : Request) : Monitor ContactSig Knows where
  allows κ
    | .lock _ => κ.key = none
    | .unlock key => κ.key = some key
    | .contactByRoom _ => q.requester = none
    | .contactByPeer peerMXID => q.Seeks peerMXID
    | .upsertContact contact => κ.mine = some contact.peerMXID
    | .compareAndSwap contact expected =>
      κ.mine = some expected.peerMXID ∧ contact.peerMXID = expected.peerMXID ∧ κ.seen = some (some expected)
    | _ => True
  expects κ
    | .contactByRoom _, .ok found | .contactByPeer _, .ok found => κ.Fitting home q found
    | .compareAndSwap _ _, .ok saved => saved = true
    | _, _ => True
  next κ
    | .lock key, _ => { κ with key := some key, mine := none }
    | .unlock _, _ => { κ with key := none, mine := none }
    | .contactByRoom _, .ok found | .contactByPeer _, .ok found => κ.read home q found
    | .upsertContact _, .ok _ => { κ with mine := none }
    | .compareAndSwap contact expected, .ok _ => if contact = expected then κ else { κ with mine := none }
    | _, _ => κ

/-- Calls that neither read nor write contacts and take no lock of a peer. -/
def ContactCall.Neutral : ContactCall → Prop
  | .lock _ | .unlock _ | .contactByRoom _ | .contactByPeer _ | .upsertContact _ | .compareAndSwap _ _ => False
  | _ => True

variable {home : Home} {q : Request} {κ : Knows} {α β ε : Type}

theorem reader_neutral (h : c.Neutral) : (reader home q).allows κ c ∧ ∀ r, (reader home q).next κ c r = κ := by
  cases c with
  | lock | unlock | contactByRoom | contactByPeer | upsertContact | compareAndSwap => exact h.elim
  | _ => exact ⟨trivial, fun _ => rfl⟩

theorem neutral_obeys {p : Prog ContactSig α} (h : p.Only ContactCall.Neutral fun _ => True) :
    p.Obeys (reader home q) (fun _ κ' => κ' = κ) κ := by
  induction p with
  | ret a => exact .ret rfl
  | call c k ih =>
    cases h with
    | call hc hk =>
      obtain ⟨hallows, hnext⟩ := reader_neutral (κ := κ) hc
      refine .call hallows fun r _ => ?_
      rw [hnext r]
      exact ih r (hk r trivial)

theorem internal_obeys {p : Work α} {same : Knows → Prop} {post : α → Knows → Prop}
    (h : p.run.Obeys (reader home q) (fun r κ' => same κ' ∧ ∀ a, r = .ok a → post a κ') κ) :
    (internal p).run.Obeys (reader home q) (fun r κ' => same κ' ∧ ∀ a, r = .ok a → post a κ') κ := by
  refine .bind h fun r κ' hr => .ret ⟨hr.1, fun a heq => ?_⟩
  cases r with
  | error err => cases heq
  | ok b =>
    cases heq
    exact hr.2 _ rfl

/-! ### Quiet functions -/

abbrev Quiet (p : ExceptT ε (Prog ContactSig) α) : Prop := p.run.Only ContactCall.Neutral fun _ => True

namespace Quiet

theorem pure (a : α) : Quiet (pure a : ExceptT ε (Prog ContactSig) α) := .ret trivial

theorem ask (c : ContactCall) (hc : c.Neutral) : (Prog.ask (σ := ContactSig) c).Only ContactCall.Neutral fun _ => True :=
  .call hc fun _ _ => .ret trivial

theorem outside (c : OutsideCall) : (outside c).Only ContactCall.Neutral fun _ => True := ask (.outside c) trivial

theorem lift (h : p.Only ContactCall.Neutral fun _ => True) :
    Quiet (ExceptT.lift p : ExceptT ε (Prog ContactSig) α) :=
  .bind h fun _ _ => .ret trivial

theorem bind {p : ExceptT ε (Prog ContactSig) α} {f : α → ExceptT ε (Prog ContactSig) β} (h : Quiet p) (hf : ∀ a, Quiet (f a)) :
    Quiet (p >>= f) := by
  refine Prog.Only.bind h fun r _ => ?_
  cases r with
  | error e => exact .ret trivial
  | ok a => exact hf a

theorem internal {p : Work α} (h : Quiet p) : Quiet (internal p) := Prog.Only.bind h fun _ _ => .ret trivial

theorem forM {l : List String} {f : String → Work Unit} (h : ∀ x, Quiet (f x)) : Quiet (l.forM f) := by
  induction l with
  | nil => exact pure ()
  | cons x l ih => exact bind (h x) fun _ => ih

end Quiet

theorem viewWithOperation_quiet (action : String) (contact : ContactRecord) : Quiet (viewWithOperation action contact) :=
  .bind (.internal (.outside (.operation action contact.status contact.roomID))) fun _ => .pure _

theorem contactDecisionView_quiet (action : String) (contact : ContactRecord) : Quiet (contactDecisionView action contact) := by
  refine .bind (viewWithOperation_quiet action contact) fun view => ?_
  split
  · exact .pure _
  · exact .pure _

theorem statusOperationResult_quiet (action status roomID : String) : Quiet (statusOperationResult action status roomID) :=
  .bind (.internal (.outside (.operation action status roomID))) fun _ => .pure _

theorem deleteKindByRoom_quiet (kind : ConversationKind) (roomID : String) : Quiet (deleteKindByRoom kind roomID) := by
  unfold deleteKindByRoom
  split
  · exact .pure ()
  refine .bind (.ask (.conversationByRoom roomID) trivial) fun record => ?_
  split
  · exact .ask (.deleteConversation roomID) trivial
  · exact .pure ()

theorem projectSaved_quiet (contact : ContactRecord) (replaced : List String) : Quiet (projectSaved contact replaced) := by
  have hsave : Quiet (.mk (.ask (σ := ContactSig) (.saveConversation (conversationFromContact contact))) : Work Unit) :=
    .ask (.saveConversation (conversationFromContact contact)) trivial
  refine .bind (.forM (deleteKindByRoom_quiet .direct)) fun _ => ?_
  split
  · refine .bind (.ask (.deleteGroup contact.roomID) trivial) fun _ => ?_
    exact .bind (deleteKindByRoom_quiet _ _) fun _ => hsave
  · exact hsave

/-! ### Reading and writing -/

/-- From here on a thread keeps to the monitor and holds on to its lock. -/
abbrev Reads (home : Home) (q : Request) (κ : Knows) (p : Prog ContactSig α) : Prop :=
  p.Obeys (reader home q) (fun _ κ' => κ'.key = κ.key) κ

variable {p : ExceptT ε (Prog ContactSig) α}

theorem Quiet.reads (h : Quiet p) : Reads home q κ p.run :=
  (neutral_obeys h).mono fun _ _ h => by rw [h]

namespace Reads

variable {f : α → ExceptT ε (Prog ContactSig) β} {p : ExceptT ε (Prog ContactSig) α}

theorem bind (h : Reads home q κ p.run)
    (hf : ∀ a κ', κ'.key = κ.key → Reads home q κ' (f a).run) : Reads home q κ (p >>= f).run := by
  refine .bindExcept h (fun _ _ hkey => hkey) fun a κ' hkey => ?_
  exact (hf a κ' hkey).mono fun _ _ h => h.trans hkey

/-- A step that leaves what is known as it is. -/
theorem quiet (h : Quiet p)
    (hf : ∀ a, Reads home q κ (f a).run) : Reads home q κ (p >>= f).run := by
  refine .bindExcept (neutral_obeys (κ := κ) h) (fun _ _ hsame => congrArg Knows.key hsame) fun a κ' hsame => ?_
  rw [hsame]
  exact hf a

theorem internal {p : Work α} (h : Reads home q κ p.run) : Reads home q κ (internal p).run :=
  Prog.Obeys.bind h fun _ _ hkey => .ret hkey

theorem pure (a : α) : Reads home q κ (pure a : ExceptT ε (Prog ContactSig) α).run := .ret rfl

theorem throw (e : ε) : Reads home q κ (throw e : ExceptT ε (Prog ContactSig) α).run := .ret rfl

theorem result {p : Act α} {f : α → β} (h : Quiet p) : Reads home q κ (p >>= fun a => Pure.pure (f a)).run :=
  .quiet h fun _ => .pure _

end Reads

theorem save_reads (hmine : κ.mine = some contact.peerMXID) : Reads home q κ (save contact).run := by
  have hbody : Reads home q κ (saveLocked contact).run := by
    refine .quiet (.ask .listContacts trivial) fun contacts => ?_
    refine .quiet (.ask .listConversations trivial) fun conversations => ?_
    refine .bind ?_ fun _ _ _ => (projectSaved_quiet _ _).reads
    refine .call hmine fun r _ => .ret ?_
    cases r <;> rfl
  apply Prog.Obeys.ask
  · trivial
  · intro _ _
    apply Prog.Obeys.bind hbody
    intro r κ' hkey
    exact .call trivial fun _ _ => .ret hkey

theorem saved_reads (contact : ContactRecord) (hmine : κ.mine = some contact.peerMXID) (hf : ∀ a, Quiet (f a)) :
    Reads home q κ (internal (save contact) >>= f).run :=
  .bind (.internal (save_reads hmine)) fun a _ _ => (hf a).reads

/-! ### Requests -/

variable {params : Params} {contact existing : ContactRecord} {domain : String}

theorem saveAccepted_reads (contact : ContactRecord) (hmine : κ.mine = some contact.peerMXID) :
    Reads home q κ (saveAccepted contact).run :=
  saved_reads contact hmine fun _ => viewWithOperation_quiet _ _

variable {peerMXID : String}

theorem createRequest_reads (hmine : κ.mine = some peerMXID) : Reads home q κ (createRequest peerMXID params domain).run := by
  refine Reads.quiet (Quiet.lift (Quiet.outside .newDirectRoomID)) fun fallbackRoomID => ?_
  refine .quiet (.outside (.createRoom _ _ _ _)) fun roomID => ?_
  exact saveAccepted_reads _ hmine

theorem joinDirectRoom_quiet (roomID : String) (mode : JoinMode) (useRoomServerFallback : Bool) :
    Quiet (joinDirectRoom roomID params mode useRoomServerFallback) :=
  Quiet.lift (Quiet.outside (.joinRoom _ _ _ _))

theorem reactivatePeer_quiet (home : Home) (contact : ContactRecord) : Quiet (reactivatePeer home contact params) :=
  .outside (.reactivatePeer _)

theorem joined_reads {join : JoinOutcome} {f : JoinOutcome → ContactRecord} (hmine : κ.mine = some (f join).peerMXID) :
    Reads home q κ (if join.kind ≠ .succeeded then throw (directRoomJoinFailure join) else saveAccepted (f join)).run := by
  split
  · exact .throw _
  · exact saveAccepted_reads _ hmine

section

variable (hmine : κ.mine = some contact.peerMXID)
include hmine

theorem createReplacementRequest_reads : Reads home q κ (createReplacementRequest contact params domain).run :=
  createRequest_reads hmine

theorem requestPeerApproval_reads : Reads home q κ (requestPeerApproval contact params domain sendMatrixInvite).run := by
  unfold requestPeerApproval
  split
  · exact createRequest_reads hmine
  split
  · exact .quiet (.outside (.inviteRoom _)) fun _ => saveAccepted_reads _ hmine
  · exact saveAccepted_reads _ hmine

theorem resendPendingOutbound_reads : Reads home q κ (resendPendingOutbound contact params domain).run := by
  unfold resendPendingOutbound
  dsimp only
  split
  · exact .quiet (.outside (.inviteRoom _)) fun _ => saveAccepted_reads _ hmine
  · exact saveAccepted_reads _ hmine

theorem acceptPendingInbound_reads : Reads home q κ (acceptPendingInbound home contact params).run := by
  unfold acceptPendingInbound
  split
  · exact saveAccepted_reads _ hmine
  refine .quiet (joinDirectRoom_quiet _ _ _) fun join => ?_
  split
  · refine .quiet (reactivatePeer_quiet home contact) fun peer => ?_
    split
    · exact requestPeerApproval_reads hmine
    split
    · exact requestPeerApproval_reads hmine
    · exact .quiet (joinDirectRoom_quiet _ _ _)
        fun join => joined_reads (f := fun join => acceptedInbound contact params join.roomID) hmine
  · exact joined_reads (f := fun join => acceptedInbound contact params join.roomID) hmine

theorem restoreDeleted_reads : Reads home q κ (restoreDeleted home contact params domain).run := by
  unfold restoreDeleted
  have hjoined : ∀ join : JoinOutcome, Reads home q κ (if join.kind ≠ .succeeded then throw (directRoomJoinFailure join)
      else saveAccepted (restored contact params domain join.roomID)).run :=
    fun join => joined_reads (f := fun join => restored contact params domain join.roomID) hmine
  split
  · exact saveAccepted_reads _ hmine
  split
  · refine .quiet (reactivatePeer_quiet home contact) fun peer => ?_
    split
    · exact createReplacementRequest_reads hmine
    · exact .quiet (joinDirectRoom_quiet _ _ _) hjoined
  · refine .quiet (joinDirectRoom_quiet _ _ _) fun join => ?_
    split
    · refine .quiet (reactivatePeer_quiet home contact) fun peer => ?_
      split
      · exact requestPeerApproval_reads hmine
      split
      · exact createReplacementRequest_reads hmine
      · exact .quiet (joinDirectRoom_quiet _ _ _) hjoined
    · exact hjoined join

variable (hseen : κ.seen = some (some contact))
include hseen

theorem ensureAcceptedProjection_obeys : (ensureAcceptedProjection contact).run.Obeys (reader home q)
      (fun r κ' => κ' = κ ∧ ∀ stored, r = .ok stored → stored = contact) κ := by
  unfold ensureAcceptedProjection
  split
  · refine .ret ⟨rfl, ?_⟩
    rintro stored ⟨⟩
    rfl
  · refine .call ⟨hmine, rfl, hseen⟩ fun r hr => ?_
    cases r with
    | error err => exact .ret ⟨rfl, nofun⟩
    | ok saved =>
      obtain rfl : saved = true := hr
      refine .ret ⟨if_pos rfl, ?_⟩
      rintro stored ⟨⟩
      rfl

theorem resolveExistingRequest_reads : Reads home q κ (resolveExistingRequest home contact params domain).run := by
  refine .bindExcept (internal_obeys (ensureAcceptedProjection_obeys hmine hseen)) (fun _ _ h => congrArg Knows.key h.1)
    fun stored κ' h => ?_
  obtain ⟨rfl, hstored⟩ := h
  obtain rfl := hstored stored rfl
  split
  · exact (viewWithOperation_quiet _ _).reads
  refine Reads.quiet (reactivatePeer_quiet home stored) fun result => ?_
  split
  · exact createReplacementRequest_reads hmine
  · exact (viewWithOperation_quiet _ _).reads

end

/-! ### Lookups and locks -/

/-- What a lookup leaves known: it has found this, or there was nothing to look for. -/
def Knows.Found (home : Home) (q : Request) (blank : Prop) (κ : Knows) (found : Option ContactRecord) (κ' : Knows) : Prop :=
  κ' = κ.read home q found ∧ κ.Fitting home q found ∨ blank ∧ found = none ∧ κ' = κ

abbrev LooksUp (home : Home) (q : Request) (blank : Prop) (κ : Knows)
    (p : ExceptT ε (Prog ContactSig) (Option ContactRecord)) : Prop :=
  p.run.Obeys (reader home q) (fun r κ' => κ'.key = κ.key ∧ ∀ found, r = .ok found → κ.Found home q blank found κ') κ

variable {blank : Prop}

variable {found : Option ContactRecord} {κ' : Knows}

theorem Knows.Found.key (h : κ.Found home q blank found κ') : κ'.key = κ.key := by
  obtain ⟨rfl, -⟩ | ⟨-, -, rfl⟩ := h
  · rfl
  · rfl

theorem Request.seeks_of_none (hq : q.requester = none) (peerMXID : String) : q.Seeks peerMXID := by
  intro requester h
  rw [hq] at h
  cases h

theorem contactByPeer_looksUp (hq : q.Seeks peerMXID) :
    LooksUp home q blank κ (ExceptT.mk (Prog.ask (σ := ContactSig) (.contactByPeer peerMXID)) : Work _) := by
  refine .call hq fun r hr => .ret ?_
  cases r with
  | error err => exact ⟨rfl, nofun⟩
  | ok found =>
    refine ⟨rfl, ?_⟩
    rintro _ ⟨⟩
    exact .inl ⟨rfl, hr⟩

theorem contactByRoom_looksUp (hq : q.requester = none) (roomID : String) :
    LooksUp home q blank κ (ExceptT.mk (Prog.ask (σ := ContactSig) (.contactByRoom roomID)) : Work _) := by
  refine .call hq fun r hr => .ret ?_
  cases r with
  | error err => exact ⟨rfl, nofun⟩
  | ok found =>
    refine ⟨rfl, ?_⟩
    rintro _ ⟨⟩
    exact .inl ⟨rfl, hr⟩

theorem nothing_looksUp (h : blank) : LooksUp home q blank κ (pure none : ExceptT ε (Prog ContactSig) _) := by
  refine .ret ⟨rfl, ?_⟩
  rintro _ ⟨⟩
  exact .inr ⟨h, rfl, rfl⟩

theorem lookupByPeer_looksUp (hq : q.Seeks (trimSpace peerMXID)) :
    LooksUp home q (trimSpace peerMXID = "") κ (lookupByPeer peerMXID) := by
  unfold lookupByPeer
  split
  · exact nothing_looksUp ‹_›
  · exact contactByPeer_looksUp hq

theorem lookupByRoom_looksUp (hq : q.requester = none) (roomID : String) :
    LooksUp home q (trimSpace roomID = "") κ (lookupByRoom roomID) := by
  unfold lookupByRoom
  split
  · exact nothing_looksUp ‹_›
  · exact contactByRoom_looksUp hq _

theorem LooksUp.internal {p : Work (Option ContactRecord)} (h : LooksUp home q blank κ p) :
    LooksUp home q blank κ (internal p) :=
  internal_obeys h

/-- A lookup, and what follows. -/
theorem LooksUp.bind {p : ExceptT ε (Prog ContactSig) (Option ContactRecord)}
    {f : Option ContactRecord → ExceptT ε (Prog ContactSig) β}
    (h : LooksUp home q blank κ p) (hf : ∀ found κ', κ.Found home q blank found κ' → Reads home q κ' (f found).run) :
    Reads home q κ (p >>= f).run := by
  refine .bindExcept h (fun _ _ hr => hr.1) fun found κ' hr => ?_
  exact (hf found κ' (hr.2 found rfl)).mono fun _ _ h => h.trans hr.1

theorem serializePeer_reads (hkey : κ.key = none)
    (hp : ∀ κ', κ'.key.isSome = true → Reads home q κ' p.run) : Reads home q κ (serializePeer peerMXID p).run := by
  apply Prog.Obeys.ask
  · exact hkey
  · intro _ _
    apply Prog.Obeys.bind (hp { κ with key := some (trimSpace peerMXID), mine := none } rfl)
    intro r κ' hlocked
    exact .call hlocked fun _ _ => .ret hkey.symm

/-- What a thread goes on to write after a lookup that was made. -/
theorem Knows.Found.mine (h : κ.Found home q blank found κ') (hblank : ¬ blank)
    (hlocked : κ.key.isSome = true ∨ q.requester.isSome = true) : κ'.seen = some found ∧ κ'.mine = q.target home found := by
  obtain ⟨rfl, -⟩ | ⟨h, -⟩ := h
  · exact ⟨rfl, if_pos (by simpa using hlocked)⟩
  · exact absurd h hblank

/-- A row that a thread with a lock has found: it is the row to write. -/
theorem Knows.Found.row {row : ContactRecord} (h : κ.Found home q blank (some row) κ')
    (hlocked : κ.key.isSome = true ∨ q.requester.isSome = true) {peer : String} (htarget : q.target home (some row) = some peer) :
    κ'.seen = some (some row) ∧ κ'.mine = some row.peerMXID ∧ peer = row.peerMXID := by
  obtain ⟨rfl, hfits⟩ | ⟨-, h, -⟩ := h
  · have hmine : (κ.read home q (some row)).mine = some peer := by
      rw [Knows.read, ← htarget]
      exact if_pos (by simpa using hlocked)
    have hpeer := (hfits peer hmine).1 row rfl
    exact ⟨rfl, hmine.trans (congrArg some hpeer.symm), hpeer.symm⟩
  · cases h

/-! ### Whole workflows -/

abbrev Leaves (home : Home) (q : Request) (κ : Knows) (p : Act (Option α)) : Prop :=
  p.run.Obeys (reader home q) (fun r κ' => κ'.key = κ.key ∧ (r = .ok none → κ' = κ)) κ

namespace Leaves

theorem none : Leaves home q κ (pure none : Act (Option α)) := .ret ⟨rfl, fun _ => rfl⟩

theorem throw (err : ApiError) : Leaves home q κ (throw err : Act (Option α)) := .ret ⟨rfl, fun _ => rfl⟩

theorem some {p : Act β} {f : β → α} (h : Reads home q κ p.run) :
    Leaves home q κ (p >>= fun b => pure (some (f b)) : Act (Option α)) := by
  exact .bindExcept h (fun _ _ hkey => ⟨hkey, nofun⟩) fun _ _ hkey => .ret ⟨hkey, nofun⟩

theorem quiet {p : Act β} {f : β → Act (Option α)} (h : Quiet p) (hf : ∀ b, Leaves home q κ (f b)) :
    Leaves home q κ (p >>= f) := by
  refine .bindExcept (neutral_obeys (κ := κ) h) (fun _ _ hsame => ⟨congrArg Knows.key hsame, fun _ => hsame⟩) fun b κ' hsame => ?_
  rw [hsame]
  exact hf b

theorem bind {p : Act (Option α)} {f : Option α → Act β} (h : Leaves home q κ p)
    (hsome : ∀ a κ', Reads home q κ' (f (Option.some a)).run)
    (hnone : Reads home q κ (f Option.none).run) : Reads home q κ (p >>= f).run := by
  refine .bindExcept h (fun _ _ hr => hr.1) fun found κ' hr => ?_
  cases found with
  | none =>
    rw [hr.2 rfl]
    exact hnone
  | some a => exact (hsome a κ').mono fun _ _ h => h.trans hr.1

end Leaves

theorem restoreRetainedPeer_leaves (hmine : κ.mine = some peerMXID) :
    Leaves home q κ (restoreRetainedPeer home peerMXID params domain) := by
  unfold restoreRetainedPeer
  split
  · exact .none
  refine .quiet (reactivatePeer_quiet home _) fun peer => ?_
  split
  · exact .none
  refine .quiet (joinDirectRoom_quiet _ _ _) fun join => ?_
  split
  · exact .some (createReplacementRequest_reads hmine)
  split
  · exact .throw _
  · exact .some (saveAccepted_reads _ hmine)

theorem requestForPeer_reads (hkey : κ.key.isSome = true) (hpeer : trimSpace (params.string "mxid") ≠ "") :
    Reads home (.request params) κ (requestForPeer home (params.string "mxid") params).run := by
  refine .quiet (.internal (.outside (.peerBlocked _))) fun blocked => ?_
  split
  · exact .throw _
  refine LooksUp.bind ((lookupByPeer_looksUp (seeks_of_none rfl _)).internal) fun found κ' hfound => ?_
  cases found with
  | some existing =>
    obtain ⟨hseen, hmine, -⟩ := hfound.row (.inl hkey) rfl
    dsimp only
    split
    · exact restoreDeleted_reads hmine
    split
    · exact acceptPendingInbound_reads hmine
    split
    · exact resendPendingOutbound_reads hmine
    · exact resolveExistingRequest_reads hmine hseen
  | none =>
    have hmine := (hfound.mine hpeer (.inl hkey)).2
    exact Leaves.bind (restoreRetainedPeer_leaves hmine) (fun _ _ => .pure _) (createRequest_reads hmine)

theorem request_reads (hkey : κ.key = none) : Reads home (.request params) κ (request home params).run := by
  unfold request
  dsimp only
  split
  · exact .throw _
  rename_i hpeer
  split
  · exact .throw _
  · refine .bind (serializePeer_reads hkey fun κ' hkey' => requestForPeer_reads hkey' ?_) fun _ _ _ => .pure _
    rwa [Params.trimSpace_string]

/-! ### Decisions -/

theorem serializeRoomPeerMutation_reads (hq : q.requester = none) (hkey : κ.key = none)
    (h : ∀ κ', κ'.key.isSome = true → Reads home q κ' mutate.run) :
      Reads home q κ (serializeRoomPeerMutation params mutate).run := by
  unfold serializeRoomPeerMutation
  split
  · exact LooksUp.bind ((lookupByRoom_looksUp hq _).internal) fun found κ' hfound => serializePeer_reads (hfound.key.trans hkey) h
  · exact LooksUp.bind (nothing_looksUp trivial) fun found κ' hfound => serializePeer_reads (hfound.key.trans hkey) h

structure Knows.Decides (κ : Knows) (params : Params) (existing : ContactRecord) : Prop where
  seen : κ.seen = some (some existing)
  mine : κ.mine = some existing.peerMXID
  named : (if namedPeer params = "" then existing.peerMXID else namedPeer params) = existing.peerMXID

/-- Requests that decide on the row they find, and may name its peer. -/
def Request.Decides (home : Home) (q : Request) (params : Params) : Prop :=
  q.requester = none ∧ ∀ row, q.target home (some row) = some (if namedPeer params = "" then row.peerMXID else namedPeer params)

theorem Knows.Found.decides (h : κ.Found home q blank found κ') (hq : q.Decides home params)
    (hkey : κ.key.isSome = true) (hfilter : found.filter (fun contact => trimSpace contact.roomID ≠ "") = some existing) :
    κ'.Decides params existing := by
  obtain ⟨rfl, -⟩ := Option.filter_eq_some_iff.mp hfilter
  obtain ⟨hseen, hmine, hnamed⟩ := h.row (.inl hkey) (hq.2 existing)
  exact ⟨hseen, hmine, hnamed⟩

theorem lookupDecisionContact_obeys (hq : q.Decides home params) (hkey : κ.key.isSome = true) (roomID peerMXID : String) :
    (lookupDecisionContact roomID peerMXID).run.Obeys (reader home q)
      (fun r κ' =>
        κ'.key = κ.key ∧ ∀ found, r = .ok found → ∀ existing, found = some existing → κ'.Decides params existing) κ := by
  refine .bindExcept (lookupByRoom_looksUp hq.1 roomID) (fun _ _ h => ⟨h.1, nofun⟩) fun byRoom κ₁ h₁ => ?_
  have hfound := h₁.2 byRoom rfl
  cases byRoom with
  | some row =>
    refine .ret ⟨h₁.1, ?_⟩
    rintro _ ⟨⟩ existing hfilter
    exact hfound.decides hq hkey hfilter
  | none =>
    refine Prog.Obeys.bindExcept (lookupByPeer_looksUp (seeks_of_none hq.1 _))
      (fun _ _ h => ⟨h.1.trans h₁.1, nofun⟩) fun found κ₂ h₂ => ?_
    refine .ret ⟨h₂.1.trans h₁.1, ?_⟩
    rintro _ ⟨⟩ existing hfilter
    exact (h₂.2 found rfl).decides hq (by rwa [h₁.1]) hfilter

section

variable (h : κ.Decides params existing)
include h

variable {authoritativeAccepted : Bool}

theorem saveDecision_reads (hpeer : contact.peerMXID = existing.peerMXID) :
    (saveDecision contact existing authoritativeAccepted).run.Obeys (reader home q)
      (fun _ κ' => κ'.key = κ.key) κ := by
  unfold saveDecision
  split
  · exact Reads.bind (save_reads (by rw [h.mine, hpeer])) fun _ _ _ => .pure _
  refine .call ⟨h.mine, hpeer, h.seen⟩ fun r hr => ?_
  cases r with
  | error err => exact .ret rfl
  | ok saved =>
    obtain rfl : saved = true := hr
    refine .ret ?_
    show (ite _ _ _ : Knows).key = κ.key
    split
    · rfl
    · rfl

theorem settle_reads
    (hpeer : contact.peerMXID = existing.peerMXID) :
      Reads home q κ (settle action contact existing authoritativeAccepted).run := by
  refine .bind (.internal (saveDecision_reads h hpeer)) fun r _ _ => ?_
  obtain ⟨current, saved⟩ := r
  dsimp only
  split
  · exact .result (contactDecisionView_quiet _ _)
  · exact .result (viewWithOperation_quiet _ _)

theorem settleUnconfirmed_reads : Reads home q κ (settleUnconfirmed existing params).run := by
  refine .bind (.internal (saveDecision_reads h rfl)) fun r _ _ => ?_
  obtain ⟨current, saved⟩ := r
  dsimp only
  split
  · exact .result (contactDecisionView_quiet _ _)
  · exact .result (viewWithOperation_quiet _ _)

end

variable {roomID : String}

theorem decisionLookup_reads {f : Option ContactRecord → Act Response} (hq : q.Decides home params)
    (hkey : κ.key.isSome = true) (hnone : ∀ κ', Reads home q κ' (f none).run)
    (hsome : ∀ existing κ', κ'.Decides params existing → Reads home q κ' (f (some existing)).run) :
    Reads home q κ (internal (lookupDecisionContact roomID peerMXID) >>= f).run := by
  refine .bindExcept (internal_obeys (lookupDecisionContact_obeys hq hkey roomID peerMXID)) (fun _ _ hr => hr.1)
    fun found κ' hr => ?_
  refine .mono (?_ : Reads home q κ' (f found).run) fun _ _ h => h.trans hr.1
  cases found with
  | none => exact hnone κ'
  | some existing => exact hsome existing κ' (hr.2 _ rfl existing rfl)

theorem requestAcceptForPeer_reads (hkey : κ.key.isSome = true) :
    Reads home (.accept params) κ (requestAcceptForPeer home params).run := by
  refine decisionLookup_reads ⟨rfl, fun _ => rfl⟩ hkey (fun _ => .throw _) fun existing κ' h => ?_
  dsimp only
  split
  · exact .throw _
  split
  · exact .result (viewWithOperation_quiet _ _)
  refine Reads.quiet (Quiet.lift (Quiet.outside (.acceptRoom _ _))) fun accepted => ?_
  cases accepted with
  | error err =>
    dsimp only
    split
    · exact settleUnconfirmed_reads h
    · exact .throw _
  | ok resolved =>
    dsimp only
    split
    · exact .throw _
    · exact settle_reads h h.named

theorem matrixContactJoined_quiet (home : Home) (existing : ContactRecord) : Quiet (matrixContactJoined home existing) := by
  unfold matrixContactJoined
  split
  · exact .pure _
  · exact .bind (.internal (.outside (.matrixJoined _ _))) fun _ => .pure _

theorem rejectUndecided_reads (h : κ.Decides params existing) : Reads home q κ (rejectUndecided existing params).run := by
  unfold rejectUndecided
  split
  · exact .result (contactDecisionView_quiet _ _)
  split
  · exact .result (viewWithOperation_quiet _ _)
  · exact settle_reads h h.named

theorem acceptedContactFromMatrix_leaves (h : κ.Decides params existing) :
    Leaves home q κ (acceptedContactFromMatrix home existing) := by
  refine .quiet (matrixContactJoined_quiet home existing) fun joined => ?_
  split
  · exact .some (.internal (saveDecision_reads h rfl))
  · exact .none

section

variable (hkey : κ.key.isSome = true)
include hkey

theorem requestRejectForPeer_reads : Reads home (.reject params) κ (requestRejectForPeer home params).run := by
  refine decisionLookup_reads ⟨rfl, fun _ => rfl⟩ hkey (fun _ => .throw _) fun existing κ' h => ?_
  have haccepted : ∀ joined : Option Bool, Reads home (.reject params) κ'
      (if joined ≠ some false then do return .view (← viewWithOperation "contacts.requests.reject" existing)
        else rejectUndecided existing params : Act Response).run := by
    intro joined
    split
    · exact .result (viewWithOperation_quiet _ _)
    · exact rejectUndecided_reads h
  dsimp only
  split
  · exact .throw _
  split
  · split
    · exact .quiet (matrixContactJoined_quiet home existing) haccepted
    · exact haccepted none
  · refine Leaves.bind (acceptedContactFromMatrix_leaves h) (fun current κ'' => ?_) (rejectUndecided_reads h)
    exact .result (contactDecisionView_quiet _ _)

/-! ### Deletions, updates and reactivations -/

variable (hroom : trimSpace (params.string "room_id") ≠ "")
include hroom

theorem requestDeleteForPeer_reads : Reads home (.requestDelete params) κ (requestDeleteForPeer params).run := by
  refine LooksUp.bind ((lookupByRoom_looksUp rfl _).internal) fun found κ' hfound => ?_
  have hmine : κ'.mine = some (deletionContact params found).peerMXID := by
    rw [(hfound.mine hroom (.inl hkey)).2]
    cases found <;> rfl
  dsimp only
  split
  · exact (statusOperationResult_quiet _ _ _).reads
  · exact saved_reads (deletedContact _ params) hmine fun _ => statusOperationResult_quiet _ _ _

theorem deleteForPeer_reads : Reads home (.delete params) κ (deleteForPeer params).run := by
  refine LooksUp.bind ((lookupByRoom_looksUp rfl _).internal) fun found κ' hfound => ?_
  have hmine : κ'.mine = some (deletionContact params found).peerMXID := by
    rw [(hfound.mine hroom (.inl hkey)).2]
    cases found <;> rfl
  dsimp only
  split
  · exact .quiet (.outside (.leaveRoom _)) fun _ =>
      saved_reads (deletedContact _ params) hmine fun _ => statusOperationResult_quiet _ _ _
  · exact saved_reads (deletedContact _ params) hmine fun _ => statusOperationResult_quiet _ _ _

omit hroom in
theorem updateForPeer_reads : Reads home (.update params) κ (updateForPeer params).run := by
  refine LooksUp.bind ((lookupByRoom_looksUp rfl _).internal) fun found κ' hfound => ?_
  cases found with
  | none => exact .throw _
  | some existing =>
    obtain ⟨-, hmine, -⟩ := hfound.row (.inl hkey) rfl
    dsimp only
    split
    · exact .throw _
    · refine .bind (.internal (save_reads hmine)) fun _ _ _ => ?_
      exact .result (viewWithOperation_quiet _ _)

end

theorem update_reads (hkey : κ.key = none) : Reads home (.update params) κ (update params).run := by
  unfold update
  split
  · exact .throw _
  split
  · exact .throw _
  refine LooksUp.bind ((lookupByRoom_looksUp rfl _).internal) fun found κ' hfound => ?_
  cases found with
  | none => exact .throw _
  | some contact =>
    exact serializePeer_reads (hfound.key.trans hkey) fun _ => updateForPeer_reads

theorem reactivate_reads : Reads home (.reactivate params) κ (reactivate home params).run := by
  have hseeks : Seeks (.reactivate params) (trimSpace (params.string "requester_mxid")) := by
    rintro _ ⟨⟩
    exact Params.trimSpace_string _ _
  unfold reactivate
  dsimp only
  split
  · exact .throw _
  split
  · exact .throw _
  refine LooksUp.bind ((lookupByPeer_looksUp hseeks).internal) fun found κ' hfound => ?_
  cases found with
  | none => exact .throw _
  | some contact =>
    obtain ⟨-, hmine, -⟩ := hfound.row (.inr rfl) rfl
    dsimp only
    split
    · exact .throw _
    split
    · exact .throw _
    split
    · exact .throw _
    split
    · exact saved_reads (reactivated contact params) hmine fun _ => statusOperationResult_quiet _ _ _
    · exact .quiet (.outside (.reactivateRoom _ _)) fun _ => (statusOperationResult_quiet _ _ _).reads

/-! ### Projections -/

theorem saveProjectionIfCurrent_reads (hmine : κ.mine = some existing.peerMXID) (hpeer : contact.peerMXID = existing.peerMXID)
    (hseen : κ.seen = some (some existing)) : Reads home q κ (saveProjectionIfCurrent contact existing).run := by
  refine .call ⟨hmine, hpeer, hseen⟩ fun r _ => .ret ?_
  cases r with
  | error err => rfl
  | ok saved =>
    show (ite _ _ _ : Knows).key = κ.key
    split
    · rfl
    · rfl

theorem saveRequested_reads (hmine : κ.mine = some contact.peerMXID) : Reads home q κ (saveRequested contact).run :=
  Reads.bind (save_reads hmine) fun _ _ _ => Quiet.reads (Quiet.outside (.appendEvent _ _))

theorem acceptReplacementDirectInvite_reads (hmine : κ.mine = some existing.peerMXID) :
    Reads home q κ (acceptReplacementDirectInvite existing contact).run := by
  unfold acceptReplacementDirectInvite
  dsimp only
  split
  · exact .pure _
  · refine .quiet (.outside (.joinReplacementRoom _)) fun joined => save_reads ?_
    exact hmine

theorem reinviteAcceptedContactToRetainedRoom_quiet (contact : ContactRecord) :
    Quiet (reinviteAcceptedContactToRetainedRoom contact) := by
  unfold reinviteAcceptedContactToRetainedRoom
  split
  · exact .pure _
  · exact .bind (.outside (.reinviteAcceptedContact _)) fun _ => .pure _

theorem savePendingInboundContactForPeer_reads (hkey : κ.key.isSome = true)
    (hcontact : event.contact home.ownerMXID = some contact) :
    Reads home (.invite event) κ (savePendingInboundContactForPeer contact).run := by
  have htarget : ∀ found, target home (.invite event) found = some contact.peerMXID := by
    intro found
    rw [target, hcontact]
    rfl
  have hlookup : LooksUp home (.invite event) False κ (.mk (.ask (σ := ContactSig) (.contactByPeer contact.peerMXID)) : Work _) :=
    contactByPeer_looksUp (seeks_of_none rfl _)
  refine .quiet (.outside (.peerBlocked _)) fun blocked => ?_
  split
  · exact .pure _
  refine LooksUp.bind hlookup fun found κ' hfound => ?_
  have hmine := (hfound.mine id (.inl hkey)).2.trans (htarget found)
  cases found with
  | none => exact saveRequested_reads hmine
  | some existing =>
    obtain ⟨-, hexisting, -⟩ := hfound.row (.inl hkey) (htarget _)
    dsimp only
    split
    · refine .quiet (reinviteAcceptedContactToRetainedRoom_quiet _) fun reinvited => ?_
      split
      · exact .pure _
      · exact acceptReplacementDirectInvite_reads hexisting
    · split
      · exact acceptReplacementDirectInvite_reads hexisting
      split
      · exact .pure _
      · exact saveRequested_reads hmine

theorem projectOwnerJoinForPeer_reads (hkey : κ.key.isSome = true) :
    Reads home (.ownerJoin roomID) κ (projectOwnerJoinForPeer roomID).run := by
  refine LooksUp.bind (lookupByRoom_looksUp rfl _) fun found κ' hfound => ?_
  cases found with
  | none => exact .pure _
  | some current =>
    obtain ⟨hseen, hmine, -⟩ := hfound.row (.inl hkey) rfl
    dsimp only
    split
    · exact .pure _
    · exact .bind (saveProjectionIfCurrent_reads hmine rfl hseen) fun _ _ _ => .pure _

theorem projectOwnerDirectContactJoin_reads (hkey : κ.key = none) :
    Reads home (.ownerJoin roomID) κ (projectOwnerDirectContactJoin roomID).run := by
  refine LooksUp.bind (lookupByRoom_looksUp rfl _) fun found κ' hfound => ?_
  cases found with
  | none => exact .pure _
  | some contact =>
    dsimp only
    split
    · exact .pure _
    · exact serializePeer_reads (hfound.key.trans hkey) fun _ => projectOwnerJoinForPeer_reads

theorem projectDirectContactMemberForPeer_reads (hkey : κ.key.isSome = true) :
    Reads home (.peerJoin member) κ (projectDirectContactMemberForPeer member).run := by
  refine LooksUp.bind (lookupByRoom_looksUp rfl _) fun found κ' hfound => ?_
  cases found with
  | none => exact .pure _
  | some contact =>
    dsimp only
    split
    · exact .pure _
    rename_i hpeer
    have htarget : target home (.peerJoin member) (some contact) = some member.userID := by
      have : contact.peerMXID = "" ∨ contact.peerMXID = member.userID := by tauto
      simp [target, Option.filter, this]
    obtain ⟨hseen, hmine, huser⟩ := hfound.row (.inl hkey) htarget
    split
    · exact .pure _
    refine .bind (saveProjectionIfCurrent_reads hmine ?_ hseen) fun _ _ _ => .pure _
    show (if contact.peerMXID = "" then member.userID else contact.peerMXID) = contact.peerMXID
    rw [huser, ite_self]

theorem markDeletedForPeer_reads (hkey : κ.key.isSome = true) :
    Reads home (.accountDeleted roomID peerMXID) κ (markDeletedForPeer roomID peerMXID).run := by
  refine LooksUp.bind (lookupByRoom_looksUp rfl _) fun found κ' hfound => ?_
  cases found with
  | none => exact .pure _
  | some contact =>
    dsimp only
    split
    · exact .pure _
    have htarget : target home (.accountDeleted roomID peerMXID) (some contact) =
        some (if peerMXID ≠ "" then peerMXID else contact.peerMXID) := by
      have : peerMXID = "" ∨ contact.peerMXID = "" ∨ contact.peerMXID = peerMXID := by tauto
      simp [target, Option.filter, this]
    obtain ⟨-, hmine, hpeer⟩ := hfound.row (.inl hkey) htarget
    refine save_reads ?_
    rw [hmine, hpeer]

theorem markDirectContactDeleted_reads (hkey : κ.key = none) :
    Reads home (.accountDeleted roomID peerMXID) κ (markDirectContactDeleted roomID peerMXID).run := by
  unfold markDirectContactDeleted
  split
  · exact serializePeer_reads hkey fun _ => markDeletedForPeer_reads
  refine LooksUp.bind (lookupByRoom_looksUp rfl _) fun found κ' hfound => ?_
  cases found with
  | none => exact .pure _
  | some contact => exact serializePeer_reads (hfound.key.trans hkey) fun _ => markDeletedForPeer_reads

/-! ### Every request -/

def Request.NamesRoom : Request → Prop
  | .delete params | .requestDelete params => params.string "room_id" ≠ ""
  | _ => True

def Knows.nothing : Knows := ⟨none, none, none⟩

theorem request_obeys (hq : q.NamesRoom) : (q.prog home).Obeys (reader home q) (fun _ _ => True) .nothing := by
  have hdone : ∀ {α : Type} {p : Prog ContactSig α}, Reads home q .nothing p →
      (do let _ ← p : Prog ContactSig Unit).Obeys (reader home q) (fun _ _ => True) .nothing :=
    fun h => .bind h fun _ _ _ => .ret trivial
  cases q with
  | request params => exact hdone (request_reads rfl)
  | accept params => exact hdone (serializeRoomPeerMutation_reads rfl rfl fun _ => requestAcceptForPeer_reads)
  | reject params => exact hdone (serializeRoomPeerMutation_reads rfl rfl fun _ => requestRejectForPeer_reads)
  | requestDelete params =>
    refine hdone (serializeRoomPeerMutation_reads rfl rfl fun _ hkey => requestDeleteForPeer_reads hkey ?_)
    rw [Params.trimSpace_string]
    exact hq
  | delete params =>
    refine hdone (serializeRoomPeerMutation_reads rfl rfl fun _ hkey => deleteForPeer_reads hkey ?_)
    rw [Params.trimSpace_string]
    exact hq
  | update params => exact hdone (update_reads rfl)
  | reactivate params => exact hdone reactivate_reads
  | invite event =>
    rw [prog]
    cases hcontact : event.contact home.ownerMXID with
    | none => exact .ret trivial
    | some contact =>
      exact hdone (serializePeer_reads rfl fun _ hkey => savePendingInboundContactForPeer_reads hkey hcontact)
  | ownerJoin roomID => exact hdone (projectOwnerDirectContactJoin_reads rfl)
  | peerJoin member => exact hdone (serializePeer_reads rfl fun _ => projectDirectContactMemberForPeer_reads)
  | accountDeleted roomID peerMXID => exact hdone (markDirectContactDeleted_reads rfl)

end Dirextalk.Contacts

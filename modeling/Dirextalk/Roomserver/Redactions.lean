/-
  Dirextalk.Roomserver.Redactions — redactions and the events they name
  (`roomserver/storage/shared/storage.go`: `StoreEvent`, `MaybeRedactEvent`,
  `loadRedactionPair`; `roomserver/internal/input/input_events.go`: `processRoomEvent`).

  An event that is processed is stored under its id with the text it arrived in. If it is
  neither an outlier nor rejected it is then matched with the redactions on record: a
  redaction with the event it names, any other event with a redaction that names it. The
  table has a row for each redaction, with a flag for those that have been applied, and the
  match is made with one row of the event, whichever the query returns. A match is reported
  on the output log unless the event was soft-failed. All of the match is one transaction;
  that its begin or its commit failed is not told to the caller.

  Given are what an event is and which redactions may be applied to which events.

  An event E should be stored redacted exactly if a redaction that may be applied to it was
  processed and not rejected, stay so, and exactly the step that redacts it be reported. It
  is not so (`redaction_undone`). In runs whose steps meet `Keeps` it is redacted and stays
  so, and the steps that are `Loud` report it.
-/
import Dirextalk.Roomserver.Extremities

namespace Dirextalk.Roomserver

open Lib List

/-- What the code tells events apart by. -/
inductive Content where
  | create
  /-- `m.room.redaction` without a state key. -/
  | redaction (redacts : String)
  | other
  deriving DecidableEq, Repr

structure Contents where
  content : String → Content
  allowed : (redaction redacted : String) → Bool

/-- The transaction of a match: it commits; a statement or the resolver of the power levels fails, and that is returned;
or its begin or commit fails, and nothing is returned, whether the writes are there or not. -/
inductive Txn where
  | commits
  | errs
  | lost (written : Bool)
  deriving DecidableEq, Repr

def Txn.written : Txn → Bool
  | .commits => true
  | .errs => false
  | .lost written => written

/-- An event with what becomes of its transaction. -/
structure Turn extends Input where
  txn : Txn
  deriving DecidableEq, Repr

structure StoredEvent where
  isRejected : Bool
  /-- The stored text is the redacted one. -/
  redacted : Bool

structure RedactionInfo where
  redactionEventID : String
  redactsEventID : String
  validated : Bool
  deriving DecidableEq, Repr

def RedactionInfo.mark (redaction : String) (info : RedactionInfo) : RedactionInfo :=
  if info.redactionEventID = redaction then { info with validated := true } else info

structure Redactions where
  events : String → Option StoredEvent
  redactions : List RedactionInfo

structure RedactedOutput where
  redactedEventID : String
  redactedBecause : String
  deriving DecidableEq, Repr

namespace Redactions

def empty : Redactions := ⟨fun _ => none, []⟩

section

variable (s : Redactions) (eventID : String)

def redacted : Bool := (s.events eventID).any (·.redacted)

def storeEvent (eventID : String) (isRejected : Bool) (s : Redactions) : Redactions :=
  { s with events := Function.update s.events eventID (some (match s.events eventID with
      | none => ⟨isRejected, false⟩
      | some row => ⟨if row.isRejected then isRejected else false, false⟩)) }

/-- `INSERT … ON CONFLICT DO NOTHING`. -/
def insertRedaction (redactionEventID redactsEventID : String) (s : Redactions) : Redactions :=
  if s.redactions.any (·.redactionEventID == redactionEventID) then s
  else { s with redactions := s.redactions ++ [⟨redactionEventID, redactsEventID, false⟩] }

/-- The rows of the redactions of an event, one of which the query returns. -/
def infos : List RedactionInfo := s.redactions.filter (·.redactsEventID == eventID)

/-- `loadEvent`: the id of a stored event. -/
def loadEvent : Option String := (s.events eventID).map fun _ => eventID

end

def redact (redaction redacted : String) (s : Redactions) : Redactions where
  events := Function.update s.events redacted ((s.events redacted).map fun row => { row with redacted := true })
  redactions := s.redactions.map (·.mark redaction)

section

variable (C : Contents) (eventID : String)

/-- The redaction and the redacted event, if there are both. -/
def loadRedactionPair (info : RedactionInfo) (s : Redactions) : Option (String × String) :=
  match C.content eventID with
  | .redaction _ => (s.loadEvent info.redactsEventID).map fun redacted => (eventID, redacted)
  | _ => (s.loadEvent info.redactionEventID).map fun redaction => (redaction, eventID)

/-- `MaybeRedactEvent` once the row of a redaction is inserted, with the row that the query returns. A pair whose
redaction has been applied before is returned like one that is applied now. -/
def applyRedaction (info : Option RedactionInfo) (s : Redactions) : Redactions × Option RedactedOutput :=
  match info with
  | none => (s, none)
  | some info =>
    match s.loadRedactionPair C eventID info with
    | none => (s, none)
    | some (redaction, redacted) =>
      if info.validated then (s, some ⟨redacted, redaction⟩)
      else if C.allowed redaction redacted then (s.redact redaction redacted, some ⟨redacted, redaction⟩)
      else (s, none)

def matched : String :=
  match C.content eventID with
  | .redaction redacts => redacts
  | _ => eventID

def recorded (s : Redactions) : Redactions :=
  match C.content eventID with
  | .redaction redacts => s.insertRedaction eventID redacts
  | _ => s

end

end Redactions

namespace Turn

/-- The checks leave the event to be matched. -/
def matchable (C : Contents) (turn : Turn) : Bool :=
  turn.kind ≠ .outlier && !turn.rejected && C.content turn.eventID ≠ .create && C.content turn.eventID ≠ .redaction turn.eventID

def enters (C : Contents) (turn : Turn) : Bool := turn.matchable C && turn.txn.written

/-- Nothing is reported: the event was soft-failed, or the caller does not learn of the match. -/
def quiet (turn : Turn) : Bool := turn.kind = .new && turn.softFailed || turn.txn ≠ .commits

def reports (turn : Turn) (out : Option RedactedOutput) : Option RedactedOutput := if turn.quiet then none else out

end Turn

namespace Redactions

/-- A known outlier is not stored again. -/
def ignores (s : Redactions) (turn : Turn) : Bool := turn.kind = .outlier && (s.events turn.eventID).any (!·.isRejected)

section

variable (C : Contents)

/-- `processRoomEvent`, with the row that the lookup returns. -/
def process (turn : Turn) (info : Option RedactionInfo) (s : Redactions) : Redactions × Option RedactedOutput :=
  if s.ignores turn then (s, none)
  else
    let s := s.storeEvent turn.eventID turn.rejected
    if turn.enters C then
      let result := (s.recorded C turn.eventID).applyRedaction C turn.eventID info
      (result.1, turn.reports result.2)
    else (s, none)

/-- What the query may return. -/
def Selects (turn : Turn) (info : Option RedactionInfo) (s : Redactions) : Prop :=
  let rows := ((s.storeEvent turn.eventID turn.rejected).recorded C turn.eventID).infos (matched C turn.eventID)
  match info with
  | none => rows = []
  | some info => info ∈ rows

instance (C : Contents) (turn : Turn) (s : Redactions) : (info : Option RedactionInfo) → Decidable (s.Selects C turn info)
  | none => inferInstanceAs (Decidable (_ = []))
  | some info => inferInstanceAs (Decidable (info ∈ _))

/-- A step: the event and what is reported. -/
inductive Step (C : Contents) : Redactions → Turn × Option RedactedOutput → Redactions → Prop where
  | process {s : Redactions} (turn : Turn) (info : Option RedactionInfo) (h : s.Selects C turn info) :
      Step C s (turn, (s.process C turn info).2) (s.process C turn info).1

/-! ## What should hold -/

/-- A redaction of `E` that may be applied was processed, without an error, and not rejected. -/
def Effective (E : String) (turn : Turn) : Prop :=
  C.content turn.eventID = .redaction E ∧ turn.matchable C = true ∧ turn.txn ≠ .errs ∧ C.allowed turn.eventID E = true

/-- What it takes to receive `E`: it is not redacted, and either no redaction on record may be applied to it, or `E` is
matched and each of them may. -/
def KeepsReceipt (E : String) (s : Redactions) (turn : Turn) : Prop :=
  s.redacted E = false ∧ ((∀ info ∈ s.infos E, C.allowed info.redactionEventID E = false) ∨
    turn.enters C = true ∧ C.content E = .other ∧ ∀ info ∈ s.infos E, C.allowed info.redactionEventID E = true)

/-- What a step must meet for `E`. Redactions of it may come again and again, but none is lost unnoticed. -/
def Keeps (E : String) (s : Redactions) (turn : Turn) : Prop :=
  s.ignores turn = true ∨ (turn.eventID = E → KeepsReceipt C E s turn) ∧
    (C.content turn.eventID = .redaction E → turn.matchable C = true → turn.txn ≠ .lost false)

/-- What a step must meet for what it reports: an event that is redacted by a redaction on record is not received
quietly; a redaction is quiet if `E` is redacted, and otherwise may not be applied or is not. -/
def Loud (E : String) (s : Redactions) (turn : Turn) : Prop :=
  (turn.eventID = E → turn.quiet = true → ∀ info ∈ s.infos E, C.allowed info.redactionEventID E = false) ∧
    (C.content turn.eventID = .redaction E → turn.enters C = true → (s.events E).isSome = true →
      if s.redacted E then turn.quiet = true else C.allowed turn.eventID E = true → turn.quiet = false)

end

instance (C : Contents) (E : String) (turn : Turn) : Decidable (Effective C E turn) :=
  inferInstanceAs (Decidable (_ ∧ _))

instance (C : Contents) (E : String) (s : Redactions) (turn : Turn) : Decidable (KeepsReceipt C E s turn) :=
  inferInstanceAs (Decidable (_ ∧ _))

instance (C : Contents) (E : String) (s : Redactions) (turn : Turn) : Decidable (Keeps C E s turn) :=
  inferInstanceAs (Decidable (_ ∨ _))

instance (C : Contents) (E : String) (s : Redactions) (turn : Turn) : Decidable (Loud C E s turn) :=
  inferInstanceAs (Decidable (_ ∧ _))

/-- A step does not undo a redaction and, if it is loud, reports `E` exactly if it redacts `E`. -/
structure Sound (E : String) (loud : Prop) (s : Redactions) (out : Option RedactedOutput) (s' : Redactions) : Prop where
  permanent : s.redacted E = true → s'.redacted E = true
  reported : loud → ((∃ o ∈ out, o.redactedEventID = E) ↔ s.redacted E = false ∧ s'.redacted E = true)

variable {C : Contents} {E X R T : String} {s s' t : Redactions} {turn : Turn} {info : Option RedactionInfo}
  {out : Option RedactedOutput}

/-! ## The parts of a step -/

variable {row : RedactionInfo}

/-- The event is stored. -/
abbrev after (s : Redactions) (turn : Turn) : Redactions := s.storeEvent turn.eventID turn.rejected

/-- And on record, if it is a redaction. -/
abbrev entered (C : Contents) (s : Redactions) (turn : Turn) : Redactions := (s.after turn).recorded C turn.eventID

theorem mem_infos : row ∈ s.infos E ↔ row ∈ s.redactions ∧ row.redactsEventID = E := by
  simp [infos]

@[simp] theorem storeEvent_infos (r : Bool) : (s.storeEvent X r).infos E = s.infos E := rfl

theorem storeEvent_isSome (r : Bool) : ((s.storeEvent X r).events E).isSome = (decide (E = X) || (s.events E).isSome) := by
  by_cases h : E = X
  · simp [storeEvent, h]
  · simp [storeEvent, h]

theorem storeEvent_redacted_self (r : Bool) : (s.storeEvent E r).redacted E = false := by
  simp only [redacted, storeEvent, Function.update_self, Option.any_some]
  split <;> rfl

theorem storeEvent_redacted_ne (h : E ≠ X) (r : Bool) : (s.storeEvent X r).redacted E = s.redacted E := by
  simp [redacted, storeEvent, h]

@[simp] theorem recorded_events : (s.recorded C X).events = s.events := by
  unfold recorded insertRedaction
  split
  · split <;> rfl
  · rfl

@[simp] theorem recorded_redacted : (s.recorded C X).redacted E = s.redacted E := by
  rw [redacted, recorded_events, redacted]

theorem of_mem_recorded (h : row ∈ (s.recorded C X).redactions) :
    row ∈ s.redactions ∨ C.content X = .redaction row.redactsEventID ∧ row.redactionEventID = X ∧ row.validated = false := by
  unfold recorded insertRedaction at h
  split at h
  · rename_i T hT
    split at h
    · exact .inl h
    · obtain h | h := mem_append.mp h
      · exact .inl h
      · rw [mem_singleton.mp h]
        exact .inr ⟨hT, rfl, rfl⟩
  · exact .inl h

theorem mem_recorded (h : row ∈ s.redactions) : row ∈ (s.recorded C X).redactions := by
  unfold recorded insertRedaction
  split
  · split
    · exact h
    · exact mem_append_left _ h
  · exact h

theorem exists_mem_recorded (hX : C.content X = .redaction T) :
    ∃ row ∈ (s.recorded C X).redactions, row.redactionEventID = X := by
  unfold recorded insertRedaction
  simp only [hX]
  split
  · rename_i h
    simpa using h
  · exact ⟨⟨X, T, false⟩, by simp, rfl⟩

theorem redact_isSome : ((s.redact R T).events E).isSome = (s.events E).isSome := by
  by_cases h : E = T
  · simp [redact, h]
  · simp [redact, h]

theorem redact_redacted_self (h : (s.events E).isSome = true) : (s.redact R E).redacted E = true := by
  obtain ⟨row, hrow⟩ := Option.isSome_iff_exists.mp h
  simp [redacted, redact, hrow]

@[simp] theorem mark_ids (R : String) (row : RedactionInfo) :
    (row.mark R).redactionEventID = row.redactionEventID ∧ (row.mark R).redactsEventID = row.redactsEventID := by
  unfold RedactionInfo.mark
  split <;> exact ⟨rfl, rfl⟩

theorem redact_infos : (s.redact R T).infos E = (s.infos E).map (·.mark R) := by
  simp [infos, redact, filter_map, Function.comp_def]

/-! ## The rows

A row stands for a stored redaction and for the event that it names. -/

structure Rows (C : Contents) (s : Redactions) : Prop where
  named : ∀ row ∈ s.redactions, C.content row.redactionEventID = .redaction row.redactsEventID
  stored : ∀ row ∈ s.redactions, (s.events row.redactionEventID).isSome = true

theorem Rows.storeEvent (h : Rows C s) (r : Bool) : Rows C (s.storeEvent X r) where
  named := h.named
  stored row hrow := by
    rw [storeEvent_isSome, h.stored row hrow, Bool.or_true]

theorem Rows.recorded (h : Rows C s) (hX : (s.events X).isSome = true) : Rows C (s.recorded C X) where
  named row hrow := by
    obtain hrow | ⟨hrow, hid, -⟩ := of_mem_recorded hrow
    · exact h.named row hrow
    · rw [hid, hrow]
  stored row hrow := by
    rw [recorded_events]
    obtain hrow | ⟨-, hid, -⟩ := of_mem_recorded hrow
    · exact h.stored row hrow
    · rw [hid, hX]

theorem Rows.redact (h : Rows C s) : Rows C (s.redact R T) where
  named row hrow := by
    obtain ⟨old, hold, rfl⟩ := mem_map.mp hrow
    simpa using h.named old hold
  stored row hrow := by
    obtain ⟨old, hold, rfl⟩ := mem_map.mp hrow
    simpa [redact_isSome] using h.stored old hold

/-- What becomes of a match: nothing; it had been applied before; or it is applied now. -/
theorem applyRedaction_cases (C : Contents) (X : String) (info : Option RedactionInfo) (s : Redactions) :
    s.applyRedaction C X info = (s, none) ∨ ∃ row ∈ info, ∃ R T, s.loadRedactionPair C X row = some (R, T) ∧
        (row.validated = true ∧ s.applyRedaction C X info = (s, some ⟨T, R⟩) ∨
          row.validated = false ∧ C.allowed R T = true ∧ s.applyRedaction C X info = (s.redact R T, some ⟨T, R⟩)) := by
  cases info with
  | none => exact .inl rfl
  | some row =>
    cases hpair : s.loadRedactionPair C X row with
    | none => exact .inl (by simp only [applyRedaction, hpair])
    | some pair =>
      obtain ⟨R, T⟩ := pair
      simp only [applyRedaction, hpair]
      by_cases hv : row.validated = true
      · exact .inr ⟨row, rfl, R, T, hpair, .inl ⟨hv, if_pos hv⟩⟩
      by_cases ha : C.allowed R T = true
      · exact .inr ⟨row, rfl, R, T, hpair, .inr ⟨eq_false_of_ne_true hv, ha, by rw [if_neg hv, if_pos ha]⟩⟩
      · exact .inl (by rw [if_neg hv, if_neg ha])

theorem Rows.applyRedaction (h : Rows C s) : Rows C (s.applyRedaction C X info).1 := by
  obtain heq | ⟨_, _, _, _, _, ⟨_, heq⟩ | ⟨_, _, heq⟩⟩ := applyRedaction_cases C X info s
  · rw [heq]
    exact h
  · rw [heq]
    exact h
  · rw [heq]
    exact h.redact

theorem Rows.process (h : Rows C s) : Rows C (s.process C turn info).1 := by
  unfold Redactions.process
  split
  · exact h
  · split
    · exact ((h.storeEvent _).recorded (by simp [storeEvent_isSome])).applyRedaction
    · exact h.storeEvent _

theorem pair_eq (hrow : row ∈ s.infos (matched C X)) (h : s.loadRedactionPair C X row = some (R, T)) :
    T = matched C X := by
  have hto := (mem_infos.mp hrow).2
  unfold loadRedactionPair loadEvent at h
  unfold matched at hto ⊢
  split at h
  · rename_i redacts hX
    simp only [hX] at hto ⊢
    cases hE : s.events row.redactsEventID <;> simp [hE] at h
    rw [← h.2, hto]
  · cases hE : s.events row.redactionEventID <;> simp [hE] at h
    exact h.2.symm

/-! ## Steps that leave the event alone -/

structure Same (E : String) (s s' : Redactions) : Prop where
  redacted : s'.redacted E = s.redacted E
  stored : (s'.events E).isSome = (s.events E).isSome
  rows : ∀ row, row ∈ s'.infos E ↔ row ∈ s.infos E

theorem Same.refl (E : String) (s : Redactions) : Same E s s := ⟨rfl, rfl, fun _ => Iff.rfl⟩

theorem Same.trans (h : Same E s t) (h' : Same E t s') : Same E s s' where
  redacted := h'.redacted.trans h.redacted
  stored := h'.stored.trans h.stored
  rows row := (h'.rows row).trans (h.rows row)

theorem same_recorded (h : C.content X ≠ .redaction E) : Same E s (s.recorded C X) where
  redacted := recorded_redacted
  stored := by rw [recorded_events]
  rows row := by
    rw [mem_infos, mem_infos]
    refine ⟨fun ⟨hmem, hto⟩ => ⟨?_, hto⟩, fun ⟨hmem, hto⟩ => ⟨mem_recorded hmem, hto⟩⟩
    obtain hmem | ⟨hX, -, -⟩ := of_mem_recorded hmem
    · exact hmem
    · exact absurd (hto ▸ hX) h

theorem same_redact (hrows : Rows C s) (hT : E ≠ T) (hR : ∀ U, C.content R = .redaction U → U = T) :
    Same E s (s.redact R T) where
  redacted := by simp [redacted, redact, hT]
  stored := redact_isSome
  rows row := by
    -- no redaction of `E` is marked
    have hkept : ∀ old ∈ s.infos E, old.mark R = old := by
      intro old hold
      obtain ⟨hmem, hto⟩ := mem_infos.mp hold
      refine if_neg fun h => hT (hto.symm.trans (hR _ ?_))
      rw [← h, hrows.named old hmem]
    rw [redact_infos, map_congr_left hkept, map_id']

theorem pair_names (hrows : Rows C s) (hrow : row ∈ s.infos (matched C X))
    (h : s.loadRedactionPair C X row = some (R, T)) : C.content R = .redaction (matched C X) := by
  obtain ⟨hmem, hto⟩ := mem_infos.mp hrow
  have hnamed := hrows.named row hmem
  rw [hto] at hnamed
  unfold loadRedactionPair loadEvent at h
  split at h
  · rename_i redacts hX
    cases hE : s.events row.redactsEventID <;> simp [hE] at h
    rw [← h.1, hX, matched, hX]
  · cases hE : s.events row.redactionEventID <;> simp [hE] at h
    rw [← h.1, hnamed]

theorem same_applyRedaction (hrows : Rows C s) (hinfo : ∀ row ∈ info, row ∈ s.infos (matched C X)) (hE : matched C X ≠ E) :
    Same E s (s.applyRedaction C X info).1 ∧ ∀ o ∈ (s.applyRedaction C X info).2, o.redactedEventID ≠ E := by
  obtain heq | ⟨row, hrow, R, T, hpair, ⟨_, heq⟩ | ⟨_, _, heq⟩⟩ := applyRedaction_cases C X info s
  · rw [heq]
    exact ⟨.refl E s, nofun⟩
  · have hT := pair_eq (hinfo row hrow) hpair
    subst hT
    rw [heq]
    refine ⟨.refl E s, ?_⟩
    rintro o ⟨⟩
    exact hE
  · have hT := pair_eq (hinfo row hrow) hpair
    have hR := pair_names hrows (hinfo row hrow) hpair
    subst hT
    rw [heq]
    refine ⟨same_redact hrows hE.symm fun U hU => ?_, ?_⟩
    · exact (Content.redaction.inj (hR.symm.trans hU)).symm
    · rintro o ⟨⟩
      exact hE

theorem of_mem_reports {o : RedactedOutput} (h : o ∈ turn.reports out) : o ∈ out := by
  unfold Turn.reports at h
  split at h
  · cases h
  · exact h

theorem matched_ne (hX : X ≠ E) (h : C.content X ≠ .redaction E) : matched C X ≠ E := by
  unfold matched
  split
  · rename_i T hT
    exact fun hTE => h (hTE ▸ hT)
  · exact hX

theorem Selects.mem (h : s.Selects C turn info) :
    ∀ row ∈ info, row ∈ (s.entered C turn).infos (matched C turn.eventID) := by
  rintro row ⟨⟩
  exact h

/-- An event that is neither `E` nor a redaction of it. -/
theorem same_process (hrows : Rows C s) (hsel : s.Selects C turn info) (hX : turn.eventID ≠ E)
    (hto : turn.enters C = true → C.content turn.eventID ≠ .redaction E) :
    Same E s (s.process C turn info).1 ∧ ∀ o ∈ (s.process C turn info).2, o.redactedEventID ≠ E := by
  have hstored : Same E s (s.after turn) :=
    ⟨storeEvent_redacted_ne hX.symm _, by rw [after, storeEvent_isSome, decide_eq_false hX.symm, Bool.false_or], fun _ => Iff.rfl⟩
  unfold process
  split
  · exact ⟨.refl E s, nofun⟩
  split
  · rename_i henters
    have hne := hto henters
    have happly := same_applyRedaction ((hrows.storeEvent _).recorded (by simp [storeEvent_isSome])) hsel.mem
      (matched_ne hX hne)
    exact ⟨(hstored.trans (same_recorded hne)).trans happly.1, fun o ho => happly.2 o (of_mem_reports ho)⟩
  · exact ⟨hstored, nofun⟩

/-! ## Steps that are about the event -/

/-- No redaction of `E` is marked before `E` is redacted, and a stored `E` is redacted exactly if a redaction on record
may be applied to it. -/
structure Kept (C : Contents) (E : String) (s : Redactions) : Prop where
  marked : ∀ row ∈ s.infos E, row.validated = true → s.redacted E = true
  exact : (s.events E).isSome = true → (s.redacted E = true ↔ ∃ row ∈ s.infos E, C.allowed row.redactionEventID E = true)

theorem Kept.same (h : Kept C E s) (hsame : Same E s s') : Kept C E s' where
  marked row hrow hv := by
    rw [hsame.redacted]
    exact h.marked row ((hsame.rows row).mp hrow) hv
  exact hstored := by
    rw [hsame.redacted, h.exact (hsame.stored ▸ hstored)]
    simp only [hsame.rows]

theorem Kept.of_redacted (h : s.redacted E = true) (hrow : ∃ row ∈ s.infos E, C.allowed row.redactionEventID E = true) :
    Kept C E s :=
  ⟨fun _ _ _ => h, fun _ => iff_of_true h hrow⟩

/-- An event that no redaction may be applied to. -/
theorem Kept.of_unredacted (h : s.redacted E = false) (hmarked : ∀ row ∈ s.infos E, row.validated = false)
    (hrow : ∀ row ∈ s.infos E, C.allowed row.redactionEventID E = false) : Kept C E s where
  marked row hmem hv := absurd (hmarked row hmem) (by simp [hv])
  exact _ := iff_of_false (by simp [h]) fun ⟨row, hmem, ha⟩ => by simp [hrow row hmem] at ha

theorem Kept.unmarked (h : Kept C E s) (hE : s.redacted E = false) (hrow : row ∈ s.infos E) :
    row.validated = false := by
  cases hv : row.validated
  · rfl
  · rw [h.marked row hrow hv] at hE
    exact absurd hE nofun

theorem Sound.of_eq (h : s'.redacted E = s.redacted E) (hout : loud → ∀ o ∈ out, o.redactedEventID ≠ E) :
    Sound E loud s out s' where
  permanent hE := by rw [h, hE]
  reported hloud := by
    refine iff_of_false (fun ⟨o, ho, hoE⟩ => hout hloud o ho hoE) fun ⟨hE, hE'⟩ => ?_
    rw [h, hE] at hE'
    exact absurd hE' nofun

theorem Sound.of_redacts (hE : s.redacted E = false) (hE' : s'.redacted E = true) (hquiet : loud → turn.quiet = false) :
    Sound E loud s (turn.reports (some ⟨E, R⟩)) s' where
  permanent _ := hE'
  reported hloud := by
    rw [Turn.reports, if_neg (by simp [hquiet hloud])]
    exact iff_of_true ⟨⟨E, R⟩, rfl, rfl⟩ ⟨hE, hE'⟩

abbrev Goes (C : Contents) (E : String) (s : Redactions) (turn : Turn) (result : Redactions × Option RedactedOutput) : Prop :=
  Kept C E result.1 ∧ Sound E (Loud C E s turn) s result.2 result.1

/-- The redaction that is applied stays on record. -/
theorem kept_redact (hrow : row ∈ s.infos E) (ha : C.allowed row.redactionEventID E = true)
    (hstored : (s.events E).isSome = true) : Kept C E (s.redact R E) := by
  refine .of_redacted (redact_redacted_self hstored) ⟨row.mark R, ?_, by simpa using ha⟩
  rw [redact_infos]
  exact mem_map_of_mem hrow

theorem applyRedaction_other (hX : C.content X = .other)
    (hstored : (s.events row.redactionEventID).isSome = true) (hv : row.validated = false) :
    s.applyRedaction C X (some row) = if C.allowed row.redactionEventID X then
      (s.redact row.redactionEventID X, some ⟨X, row.redactionEventID⟩) else (s, none) := by
  obtain ⟨stored, hstored⟩ := Option.isSome_iff_exists.mp hstored
  simp [applyRedaction, loadRedactionPair, hX, loadEvent, hstored, hv]

theorem applyRedaction_redaction (hX : C.content X = .redaction E) (hto : row.redactsEventID = E)
    (hstored : (s.events E).isSome = true) :
    s.applyRedaction C X (some row) = if row.validated then (s, some ⟨E, X⟩) else if C.allowed X E then
      (s.redact X E, some ⟨E, X⟩) else (s, none) := by
  obtain ⟨stored, hstored⟩ := Option.isSome_iff_exists.mp hstored
  simp [applyRedaction, loadRedactionPair, hX, loadEvent, hto, hstored]

theorem process_of_enters (hign : s.ignores turn = false) (henters : turn.enters C = true) :
    s.process C turn info = (((s.entered C turn).applyRedaction C turn.eventID info).1,
        turn.reports ((s.entered C turn).applyRedaction C turn.eventID info).2) := by
  simp [process, hign, henters]

theorem enters_iff : turn.enters C = true ↔ turn.kind ≠ .outlier ∧ turn.rejected = false ∧
    C.content turn.eventID ≠ .create ∧ C.content turn.eventID ≠ .redaction turn.eventID ∧ turn.txn.written = true := by
  simp [Turn.enters, Turn.matchable, and_assoc]

section

variable (hrows : Rows C s)
include hrows

section

variable (hk : Kept C E s) (hE : s.redacted E = false) (hX : turn.eventID = E) (hign : s.ignores turn = false)
include hk hE hX hign

/-- `E` arrives and is matched with a redaction on record. -/
theorem receive_other (henters : turn.enters C = true) (hother : C.content E = .other)
    (hsel : s.Selects C turn info)
    (hrow : (∀ row ∈ s.infos E, C.allowed row.redactionEventID E = false) ∨
      ∀ row ∈ s.infos E, C.allowed row.redactionEventID E = true) :
    Goes C E s turn (s.process C turn info) := by
  subst hX
  have hrecorded : s.entered C turn = s.after turn := by
    simp [recorded, hother]
  have hmatched : matched C turn.eventID = turn.eventID := by simp [matched, hother]
  have hred : (s.after turn).redacted turn.eventID = false := storeEvent_redacted_self _
  have hstored : ((s.after turn).events turn.eventID).isSome = true := by
    simp [storeEvent_isSome]
  have hunmarked : ∀ row ∈ (s.after turn).infos turn.eventID, row.validated = false :=
    fun row hrow => hk.unmarked hE hrow
  rw [process_of_enters hign henters, hrecorded]
  cases info with
  | none =>
    have hempty : s.infos turn.eventID = [] := by
      have := hsel
      simpa only [Selects, hrecorded, hmatched, storeEvent_infos] using this
    have hnone : ∀ row ∈ (s.after turn).infos turn.eventID,
        C.allowed row.redactionEventID turn.eventID = false := by
      simp [hempty]
    refine ⟨.of_unredacted hred hunmarked hnone, .of_eq (hred.trans hE.symm) fun _ o ho => ?_⟩
    exact absurd (of_mem_reports ho) nofun
  | some row =>
    have hmem : row ∈ s.infos turn.eventID := by
      have := hsel.mem row rfl
      simpa only [hrecorded, hmatched, storeEvent_infos] using this
    have hid : ((s.after turn).events row.redactionEventID).isSome = true :=
      (hrows.storeEvent _).stored row (mem_infos.mp hmem).1
    rw [applyRedaction_other hother hid (hunmarked row hmem)]
    obtain hnone | hall := hrow
    · rw [if_neg (by simp [hnone row hmem])]
      exact ⟨.of_unredacted hred hunmarked hnone, .of_eq (hred.trans hE.symm) fun _ o ho => absurd (of_mem_reports ho) nofun⟩
    · rw [if_pos (hall row hmem)]
      have hmem' : row ∈ (s.after turn).infos turn.eventID := hmem
      refine ⟨kept_redact hmem' (hall row hmem) hstored, .of_redacts hE (redact_redacted_self hstored) fun hloud => ?_⟩
      by_contra hquiet
      simpa [hall row hmem] using hloud.1 rfl (eq_true_of_ne_false hquiet) row hmem

/-- `E` arrives and no redaction on record may be applied to it. -/
theorem receive_unmatched (hother : turn.enters C = true → C.content E ≠ .other) (hsel : s.Selects C turn info)
    (hrow : ∀ row ∈ s.infos E, C.allowed row.redactionEventID E = false) :
    Goes C E s turn (s.process C turn info) := by
  subst hX
  have hred : (s.after turn).redacted turn.eventID = false := storeEvent_redacted_self _
  have hstored : Kept C turn.eventID (s.after turn) :=
    .of_unredacted hred (fun row hrow => hk.unmarked hE hrow) hrow
  by_cases henters : turn.enters C = true
  · -- it is a redaction of another event
    have hcontent := enters_iff.mp henters
    have hne : matched C turn.eventID ≠ turn.eventID := by
      unfold matched
      cases hc : C.content turn.eventID with
      | create => exact absurd hc hcontent.2.2.1
      | other => exact absurd hc (hother henters)
      | redaction T => exact fun hT => hcontent.2.2.2.1 (hc.trans (congrArg _ hT))
    have happly := same_applyRedaction ((hrows.storeEvent _).recorded (by simp [storeEvent_isSome])) hsel.mem hne
    have hsame := (same_recorded hcontent.2.2.2.1).trans happly.1
    rw [process_of_enters hign henters]
    exact ⟨hstored.same hsame, .of_eq ((hsame.redacted.trans hred).trans hE.symm) fun _ o ho => happly.2 o (of_mem_reports ho)⟩
  · have hprocess : s.process C turn info = (s.after turn, none) := by
      simp [process, hign, henters]
    rw [hprocess]
    exact ⟨hstored, .of_eq (hred.trans hE.symm) fun _ => nofun⟩

end

/-- The rows of `E` once a redaction of it is on record. -/
theorem infos_entered (hX : C.content turn.eventID = .redaction E) :
    (∀ row ∈ (s.entered C turn).infos E, row ∈ s.infos E ∨ row.redactionEventID = turn.eventID ∧ row.validated = false) ∧
      (∀ row ∈ s.infos E, row ∈ (s.entered C turn).infos E) ∧
      ∃ row ∈ (s.entered C turn).infos E, row.redactionEventID = turn.eventID := by
  have hu := (hrows.storeEvent (X := turn.eventID) turn.rejected).recorded (X := turn.eventID) (by simp [storeEvent_isSome])
  refine ⟨fun row hrow => ?_, fun row hrow => ?_, ?_⟩
  · obtain ⟨hmem, hto⟩ := mem_infos.mp hrow
    obtain hmem | ⟨-, hid, hv⟩ := of_mem_recorded hmem
    · exact .inl (mem_infos.mpr ⟨hmem, hto⟩)
    · exact .inr ⟨hid, hv⟩
  · obtain ⟨hmem, hto⟩ := mem_infos.mp hrow
    exact mem_infos.mpr ⟨mem_recorded hmem, hto⟩
  · obtain ⟨row, hmem, hid⟩ := exists_mem_recorded (s := s.after turn) hX
    have hnamed := hu.named row hmem
    rw [hid, hX] at hnamed
    exact ⟨row, mem_infos.mpr ⟨hmem, (Content.redaction.inj hnamed).symm⟩, hid⟩

theorem Selects.exists_row (hX : C.content turn.eventID = .redaction E) (h : s.Selects C turn info) :
    ∃ row, info = some row ∧ row ∈ (s.entered C turn).infos E := by
  have hmatched : matched C turn.eventID = E := by simp [matched, hX]
  cases info with
  | none =>
    obtain ⟨-, -, row, hrow, -⟩ := infos_entered hrows hX
    have hempty : (s.entered C turn).infos E = [] := hmatched ▸ h
    rw [hempty] at hrow
    cases hrow
  | some row => exact ⟨row, rfl, hmatched ▸ h⟩

/-- A redaction of `E` arrives. -/
theorem receive_redaction (hk : Kept C E s) (hX : C.content turn.eventID = .redaction E)
    (hign : s.ignores turn = false) (henters : turn.enters C = true) (hsel : s.Selects C turn info) :
    Goes C E s turn (s.process C turn info) := by
  have hne : E ≠ turn.eventID := fun h => (enters_iff.mp henters).2.2.2.1 (hX.trans (congrArg _ h))
  obtain ⟨row, rfl, hrow⟩ := hsel.exists_row hrows hX
  obtain ⟨hold, hnew, own, hown, hownid⟩ := infos_entered hrows hX
  have hred : (s.entered C turn).redacted E = s.redacted E := by
    rw [recorded_redacted, storeEvent_redacted_ne hne]
  have hstored : ((s.entered C turn).events E).isSome = (s.events E).isSome := by
    rw [recorded_events, storeEvent_isSome, decide_eq_false hne, Bool.false_or]
  rw [process_of_enters hign henters]
  generalize s.entered C turn = u at hrow hold hnew hown hred hstored ⊢
  have hunmarked : s.redacted E = false → ∀ row ∈ u.infos E, row.validated = false := fun hE row hrow =>
    (hold row hrow).elim (hk.unmarked hE) (·.2)
  cases hthere : (s.events E).isSome
  · -- `E` is not there yet, and the row waits for it
    have happly : u.applyRedaction C turn.eventID (some row) = (u, none) := by
      have : u.events E = none := by simpa [hthere] using hstored
      simp [applyRedaction, loadRedactionPair, hX, loadEvent, (mem_infos.mp hrow).2, this]
    have hE : s.redacted E = false := by
      have : s.events E = none := by simpa using hthere
      simp [redacted, this]
    rw [happly]
    refine ⟨⟨fun row hrow hv => ?_, fun h => ?_⟩, .of_eq hred fun _ o ho => absurd (of_mem_reports ho) nofun⟩
    · simp [hunmarked hE row hrow] at hv
    · simp [hstored, hthere] at h
  rw [hthere] at hstored
  rw [applyRedaction_redaction hX (mem_infos.mp hrow).2 hstored]
  have hquiet :
      Loud C E s turn → if s.redacted E then turn.quiet = true else C.allowed turn.eventID E = true → turn.quiet = false :=
    fun hloud => hloud.2 hX henters hthere
  cases hE : s.redacted E
  · -- the row is not marked
    rw [if_neg (by simp [hunmarked hE row hrow])]
    simp only [hE, Bool.false_eq_true, if_false] at hquiet
    by_cases ha : C.allowed turn.eventID E = true
    · rw [if_pos ha]
      exact ⟨kept_redact hown (hownid ▸ ha) hstored, .of_redacts hE (redact_redacted_self hstored) fun hloud => hquiet hloud ha⟩
    · have hnone : ∀ row ∈ u.infos E, C.allowed row.redactionEventID E = false := fun row hrow => by
        obtain hrow | ⟨hid, -⟩ := hold row hrow
        · exact eq_false_of_ne_true fun h => by simp [(hk.exact hthere).mpr ⟨row, hrow, h⟩] at hE
        · rw [hid]
          exact eq_false_of_ne_true ha
      rw [if_neg ha]
      exact ⟨.of_unredacted (hred.trans hE) (hunmarked hE) hnone, .of_eq hred fun _ o ho => absurd (of_mem_reports ho) nofun⟩
  · -- whatever is done, `E` stays redacted, and nothing is reported if the step is loud
    simp only [hE, if_true] at hquiet
    have hsilent (out : Option RedactedOutput) (hloud : Loud C E s turn) : ∀ o ∈ turn.reports out, o.redactedEventID ≠ E := by
      rw [Turn.reports, if_pos (hquiet hloud)]
      exact nofun
    obtain ⟨applied, happlied, ha⟩ := (hk.exact hthere).mp hE
    have hkept : Kept C E u := .of_redacted (hred.trans hE) ⟨applied, hnew applied happlied, ha⟩
    split
    · exact ⟨hkept, .of_eq hred (hsilent _)⟩
    split
    · exact ⟨kept_redact (hnew applied happlied) ha hstored, .of_eq ((redact_redacted_self hstored).trans hE.symm) (hsilent _)⟩
    · exact ⟨hkept, .of_eq hred (hsilent _)⟩

/-- What one step keeps of `E`. -/
theorem Keeps.step (hk : Kept C E s) (hsel : s.Selects C turn info) (hkeeps : Keeps C E s turn) :
    Goes C E s turn (s.process C turn info) := by
  cases hign : s.ignores turn
  · obtain ⟨hown, -⟩ := hkeeps.resolve_left (by simp [hign])
    by_cases hX : turn.eventID = E
    · obtain ⟨hE, hrow⟩ := hown hX
      by_cases hother : turn.enters C = true ∧ C.content E = .other
      · exact receive_other hrows hk hE hX hign hother.1 hother.2 hsel (hrow.imp_right fun h => h.2.2)
      · exact receive_unmatched hrows hk hE hX hign (fun henters hc => hother ⟨henters, hc⟩) hsel
          (hrow.resolve_right fun h => hother ⟨h.1, h.2.1⟩)
    by_cases hto : turn.enters C = true ∧ C.content turn.eventID = .redaction E
    · exact receive_redaction hrows hk hto.2 hign hto.1 hsel
    · have h := same_process hrows hsel hX fun henters hc => hto ⟨henters, hc⟩
      exact ⟨hk.same h.1, .of_eq h.1.redacted fun _ => h.2⟩
  · have hprocess : s.process C turn info = (s, none) := by simp [process, hign]
    rw [hprocess]
    exact ⟨hk, .of_eq rfl fun _ => nofun⟩

end

/-! ## Runs -/

theorem ids_applyRedaction : (∃ row ∈ (s.applyRedaction C X info).1.infos E, row.redactionEventID = R) ↔
    ∃ row ∈ s.infos E, row.redactionEventID = R := by
  obtain heq | ⟨_, _, _, _, _, ⟨_, heq⟩ | ⟨_, _, heq⟩⟩ := applyRedaction_cases C X info s
  · rw [heq]
  · rw [heq]
  · simp [heq, redact_infos]

/-- The redactions on record after a step. -/
theorem ids_process (hrows : Rows C s) : (∃ row ∈ (s.process C turn info).1.infos E, row.redactionEventID = R) ↔
    (∃ row ∈ s.infos E, row.redactionEventID = R) ∨
      turn.eventID = R ∧ C.content R = .redaction E ∧ turn.enters C = true := by
  cases henters : turn.enters C
  · have hinfos : (s.process C turn info).1.infos E = s.infos E := by
      unfold process
      split
      · rfl
      · simp [henters]
    simp [hinfos]
  have hign : s.ignores turn = false := by
    simp [ignores, (enters_iff.mp henters).1]
  rw [process_of_enters hign henters, ids_applyRedaction]
  by_cases hX : C.content turn.eventID = .redaction E
  · obtain ⟨hold, hnew, own, hown, hownid⟩ := infos_entered hrows hX
    constructor
    · rintro ⟨row, hrow, rfl⟩
      obtain hrow | ⟨hid, -⟩ := hold row hrow
      · exact .inl ⟨row, hrow, rfl⟩
      · rw [hid]
        exact .inr ⟨rfl, hX, rfl⟩
    · rintro (⟨row, hrow, hid⟩ | ⟨rfl, -, -⟩)
      · exact ⟨row, hnew row hrow, hid⟩
      · exact ⟨own, hown, hownid⟩
  · simp only [(same_recorded hX).rows, storeEvent_infos]
    refine ⟨.inl, fun h => h.resolve_right ?_⟩
    rintro ⟨rfl, h, -⟩
    exact hX h

theorem process_isSome : ((s.process C turn info).1.events E).isSome = (decide (E = turn.eventID) || (s.events E).isSome) := by
  unfold process
  split
  · rename_i hign
    by_cases h : E = turn.eventID
    · subst h
      cases hrow : s.events turn.eventID with
      | none => simp [ignores, hrow] at hign
      | some row => simp
    · simp [h]
  dsimp only
  split
  · rw [← storeEvent_isSome turn.rejected]
    rcases applyRedaction_cases C turn.eventID info (s.entered C turn) with
      heq | ⟨_, _, _, _, _, ⟨_, heq⟩ | ⟨_, _, heq⟩⟩
    · rw [heq, recorded_events]
    · rw [heq, recorded_events]
    · rw [heq, redact_isSome, recorded_events]
  · exact storeEvent_isSome _

structure Follows (C : Contents) (E : String) (ls : List (Turn × Option RedactedOutput)) (s : Redactions) : Prop where
  rows : Rows C s
  ids : ∀ R, (∃ row ∈ s.infos E, row.redactionEventID = R) ↔
    ∃ l ∈ ls, l.1.eventID = R ∧ C.content R = .redaction E ∧ l.1.enters C = true
  stored : (s.events E).isSome = true ↔ ∃ l ∈ ls, l.1.eventID = E
  noticed : ∀ l ∈ ls, C.content l.1.eventID = .redaction E → l.1.matchable C = true → l.1.txn ≠ .lost false

theorem Follows.empty (C : Contents) (E : String) : Follows C E [] .empty where
  rows := ⟨nofun, nofun⟩
  ids R := by simp [Redactions.empty, infos]
  stored := by simp [Redactions.empty]
  noticed := nofun

variable {ls : List (Turn × Option RedactedOutput)}

theorem Keeps.noticed (h : Keeps C E s turn) (hX : C.content turn.eventID = .redaction E) (hmatchable : turn.matchable C = true) :
    turn.txn ≠ .lost false := by
  refine (h.resolve_left fun hign => ?_).2 hX hmatchable
  simp only [ignores, Turn.matchable, Bool.and_eq_true, decide_eq_true_eq] at hign hmatchable
  exact hmatchable.1.1.1 hign.1

theorem Follows.step {l : Turn × Option RedactedOutput} (h : Follows C E ls s)
    (hs : Step C s l s') (hkeeps : Keeps C E s l.1) : Follows C E (ls ++ [l]) s' := by
  obtain ⟨_, _, hsel⟩ := hs
  refine ⟨h.rows.process, fun R => ?_, ?_, fun l hl => ?_⟩
  · rw [ids_process h.rows, h.ids R]
    simp only [mem_append, mem_singleton, or_and_right, exists_or, exists_eq_left]
  · rw [process_isSome, Bool.or_eq_true, decide_eq_true_iff, h.stored]
    simp only [mem_append, mem_singleton, or_and_right, exists_or, exists_eq_left, eq_comm (a := E), or_comm]
  · obtain hl | hl := mem_append.mp hl
    · exact h.noticed l hl
    · rw [mem_singleton.mp hl]
      exact hkeeps.noticed

theorem Follows.effective (h : Follows C E ls s) :
    (∃ row ∈ s.infos E, C.allowed row.redactionEventID E = true) ↔ ∃ l ∈ ls, Effective C E l.1 := by
  constructor
  · rintro ⟨row, hrow, ha⟩
    obtain ⟨l, hl, hid, hc, henters⟩ := (h.ids row.redactionEventID).mp ⟨row, hrow, rfl⟩
    obtain ⟨hmatchable, hwritten⟩ := Bool.and_eq_true_iff.mp henters
    exact ⟨l, hl, hid ▸ hc, hmatchable, fun herrs => by simp [herrs, Txn.written] at hwritten, hid ▸ ha⟩
  · rintro ⟨l, hl, hc, hmatchable, herrs, ha⟩
    have hwritten : l.1.txn.written = true := by
      cases htxn : l.1.txn with
      | commits => rfl
      | errs => exact absurd htxn herrs
      | lost written =>
        cases written
        · exact absurd htxn (h.noticed l hl hc hmatchable)
        · rfl
    obtain ⟨row, hrow, hid⟩ := (h.ids l.1.eventID).mpr ⟨l, hl, rfl, hc, Bool.and_eq_true_iff.mpr ⟨hmatchable, hwritten⟩⟩
    exact ⟨row, hrow, hid ▸ ha⟩

def sampleContents : Contents where
  content id := if id = "message" then .other else .redaction "message"
  allowed redaction _ := redaction = "first" ∨ redaction = "third"

def arrives (eventID : String) : Turn := ⟨⟨eventID, .new, false, false⟩, .commits⟩

/-- Events after which the message is not redacted, though an effective redaction was among them. -/
def Undone (turns : List Turn) : Prop :=
  ∃ ls s, Run (Step sampleContents) .empty ls s ∧ ls.map (·.1) = turns ∧
    (∃ l ∈ ls, Effective sampleContents "message" l.1) ∧ s.redacted "message" = false

end Redactions

end Dirextalk.Roomserver

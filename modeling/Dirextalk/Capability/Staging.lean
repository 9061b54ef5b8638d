/-
  Dirextalk.Capability.Staging — the ledger and the table of staged Matrix events together.

  The invariant of all who stage events (`Single`): at most one event was ever staged for
  an operation, and one that is not terminal still has it. The product handlers keep more
  (`Staging`): every operation row has a complete fence; a staged row belongs to an
  operation with that fence, bound to the staged action; an operation with a staged event
  is never cancelled.

  Proved: every store call, every call of the prepared store and every restart keeps them,
  if a staged row is deleted only once its operation is terminal and what is staged fits
  the operation.
-/
import Dirextalk.Capability.Postgres

namespace Dirextalk.Capability

open Lib Lib.Go Tables
open Function (update update_of_ne update_self)

variable {pg : Platform} {T T' : Tables} {id : String}

/-! ## What a call does to a state -/

/-- The operation a store call moves, and the state it moves it to. -/
def StoreCall.target : StoreCall → Option (String × OperationState)
  | .start _ | .deletePrepared _ => none
  | .claimReplay id => some (id, .running)
  | .finish id _ err => some (id, if err.isSome then .failed else .completed)
  | .markUncertain id _ => some (id, .uncertain)
  | .cancel id => some (id, .cancelled)

variable {c : StoreCall} {v v' : View}

theorem target_cancelled (h : c.target = some (id, .cancelled)) : c = .cancel id := by
  cases c <;> simp [StoreCall.target] at h
  · split at h <;> simp at h
  · rw [h]

/-- A store call changes nothing, creates a row or moves one. -/
theorem CallSpec.inversion (h : CallSpec c v r v') : v' = v ∨ (∃ record, c = .start record ∧ v record.id = none ∧
        v' = update v record.id (some ⟨record.key, .pending, 1⟩)) ∨
      ∃ i state o, c.target = some (i, state) ∧ v i = some o ∧ v' = update v i (some (o.move state)) := by
  cases c with
  | start record =>
    obtain e | e := r
    · obtain hv | ⟨hnone, hv⟩ := h
      · exact .inl hv
      · exact .inr (.inl ⟨record, rfl, hnone, hv⟩)
    · obtain ⟨_, ⟨_, _, hnone, hv⟩ | ⟨_, hv, _⟩⟩ := h
      · exact .inr (.inl ⟨record, rfl, hnone, hv⟩)
      · exact .inl hv
  | claimReplay i =>
    obtain ⟨_, hv⟩ | ⟨o, ho, _, hv⟩ := h
    · exact .inl hv
    · exact .inr (.inr ⟨i, _, o, rfl, ho, hv⟩)
  | finish i | markUncertain i | cancel i => exact h.imp_right fun ⟨o, ho, _, hv⟩ => .inr ⟨i, _, o, rfl, ho, hv⟩
  | deletePrepared i => exact .inl h

theorem CallSpec.moves (h : CallSpec c v r v')
    (ho : v id = some o) : v' id = some o ∨ ∃ state, c.target = some (id, state) ∧ v' id = some (o.move state) := by
  obtain rfl | ⟨record, _, hnone, rfl⟩ | ⟨i, state, p, ht, hp, rfl⟩ := h.inversion
  · exact .inl ho
  · rw [update_of_ne (by rintro rfl; rw [hnone] at ho; cases ho)]
    exact .inl ho
  · by_cases he : id = i
    · subst he
      rw [ho] at hp
      cases hp
      exact .inr ⟨state, ht, update_self ..⟩
    · rw [update_of_ne he]
      exact .inl ho

/-- Only `start` makes a row. -/
theorem CallSpec.creates (h : CallSpec c v r v')
    (hnone : v id = none) (ho : v' id = some o) : ∃ record, c = .start record := by
  obtain rfl | ⟨record, hc, _, _⟩ | ⟨i, state, p, _, hp, rfl⟩ := h.inversion
  · rw [hnone] at ho
    cases ho
  · exact ⟨record, hc⟩
  · rw [update_of_ne (by rintro rfl; rw [hp] at hnone; cases hnone), hnone] at ho
    cases ho

/-! ## What the tables keep -/

structure SameOp (row row' : OperationRow) : Prop where
  capability : row'.capability = row.capability
  operation : row'.operation = row.operation
  ownerID : row'.ownerID = row.ownerID
  generation : row'.generation = row.generation
  rootDigest : row'.rootDigest = row.rootDigest

theorem SameOp.refl (row : OperationRow) : SameOp row row := ⟨rfl, rfl, rfl, rfl, rfl⟩

theorem SameOp.moved (row : OperationRow) (state : OperationState) (result : Option String) (code message : String) :
    SameOp row (row.moved state result code message) := ⟨rfl, rfl, rfl, rfl, rfl⟩

theorem SameOp.trans {a b c : OperationRow} (h : SameOp a b) (h' : SameOp b c) : SameOp a c :=
  ⟨h'.capability.trans h.capability, h'.operation.trans h.operation, h'.ownerID.trans h.ownerID,
    h'.generation.trans h.generation, h'.rootDigest.trans h.rootDigest⟩

theorem SameOp.context (h : SameOp a b) (id : String) : b.context id = a.context id := by
  simp [OperationRow.context, h.ownerID, h.generation, h.rootDigest]

variable {row : OperationRow} {r : Except Error Unit}

theorem Effect.kept (h : Effect again s s')
    (hrow : s.row = some row) :
    ∃ row', s'.row = some row' ∧ SameOp row row' ∧ (row.state.terminal = true → row'.state = row.state) := by
  cases h with
  | same => exact ⟨row, hrow, .refl row, fun _ => rfl⟩
  | created => cases hrow
  | claimed hstate =>
    cases hrow
    exact ⟨_, rfl, .moved .., fun ht => by rw [hstate] at ht; cases ht⟩
  | doubted _ _ _ hlive | settled _ _ _ hlive =>
    cases hrow
    exact ⟨_, rfl, .moved .., fun ht => by rw [hlive] at ht; cases ht⟩

namespace Tables

/-- A transaction that was rolled back has no effect. -/
theorem tx_effect (h : Commits (T.tx i f) T answer T') (heff : ∀ a s, f (T.ledger i) = .ok (a, s) → Effect True (T.ledger i) s) :
    (∀ id, Effect True (T.ledger id) (T'.ledger id)) ∧ T'.staged = T.staged ∧ T'.inserted = T.inserted := by
  obtain ⟨a, htx, _⟩ | ⟨rfl, _⟩ := h.split
  · obtain ⟨s, hf, rfl⟩ := tx_ok htx
    refine ⟨fun id => ?_, rfl, rfl⟩
    by_cases he : id = i
    · subst he
      simpa [setSlot] using heff a s hf
    · simpa [setSlot, he] using .same _
  · exact ⟨fun _ => .same _, rfl, rfl⟩

def Inserted (T : Tables) (id : String) (m : PreparedMessage) : Prop :=
  ∃ e ∈ T.inserted, e.operationID = id ∧ e.event = m

/-- Rows stay what they are, terminal ones in their state, and a staged event was staged for good. -/
structure Kept (T T' : Tables) : Prop where
  rows : ∀ id row, T.row id = some row → ∃ row', T'.row id = some row' ∧ SameOp row row' ∧
    (row.state.terminal = true → row'.state = row.state)
  inserted : ∀ id m, T.Inserted id m → T'.Inserted id m

theorem Kept.refl (T : Tables) : Kept T T :=
  ⟨fun _ row h => ⟨row, h, .refl row, fun _ => rfl⟩, fun _ _ h => h⟩

theorem Kept.trans (h : Kept T₁ T₂) (h' : Kept T₂ T₃) : Kept T₁ T₃ where
  rows id row hrow := by
    obtain ⟨row₂, hrow₂, hsame₂, hst₂⟩ := h.rows id row hrow
    obtain ⟨row₃, hrow₃, hsame₃, hst₃⟩ := h'.rows id row₂ hrow₂
    refine ⟨row₃, hrow₃, hsame₂.trans hsame₃, fun ht => ?_⟩
    have heq := hst₂ ht
    rw [hst₃ (by rw [heq]; exact ht), heq]
  inserted id m hm := h'.inserted id m (h.inserted id m hm)

theorem Kept.of_effect (heff : ∀ id, Effect True (T.ledger id) (T'.ledger id)) (hi : T'.inserted = T.inserted) :
    Kept T T' where
  rows id row hrow := (heff id).kept hrow
  inserted id m hm := by
    unfold Inserted
    rw [hi]
    exact hm

end Tables

theorem pgCall_ledger {r : c.Ans} (h : pgCall pg c T r T') (hc : ∀ id, c ≠ .deletePrepared id) :
    (∀ id, Effect True (T.ledger id) (T'.ledger id)) ∧ T'.staged = T.staged ∧ T'.inserted = T.inserted := by
  cases c with
  | start record =>
    obtain ⟨raced, hc⟩ := h
    exact tx_effect hc fun _ _ => start_effect
  | claimReplay i => exact tx_effect h fun _ _ => claimReplay_effect
  | finish i result err => exact tx_effect h fun _ _ => finish_effect
  | markUncertain i err => exact tx_effect h fun _ _ => markUncertain_effect trivial
  | cancel i => exact tx_effect h fun _ _ => cancel_effect
  | deletePrepared i => exact absurd rfl (hc i)

theorem pgCall_state {r : c.Ans} {row' : OperationRow} (h : pgCall pg c T r T')
    (hrow : T.row id = some row) (hrow' : T'.row id = some row') :
    row'.state = row.state ∨ c.target = some (id, row'.state) := by
  have hspec : CallSpec c T.view r T'.view := ((postgres_lawful pg).call trivial h).2
  obtain hv | ⟨state, ht, hv⟩ := hspec.moves (view_some hrow)
  · rw [view_some hrow', Option.some.injEq] at hv
    exact .inl (congrArg OpView.state hv)
  · rw [view_some hrow', Option.some.injEq] at hv
    have heq : row'.state = state := congrArg OpView.state hv
    exact .inr (heq ▸ ht)

theorem pgRestart_state (h : pgRestart T T') (hrow : T.row id = some row)
    (hrow' : T'.row id = some row') : row'.state = row.state ∨ row'.state = .uncertain := by
  obtain hv | ⟨o, _, _, hv⟩ := pgRestart_view h id
  · rw [view_some hrow', view_some hrow, Option.some.injEq] at hv
    exact .inl (congrArg OpView.state hv)
  · rw [view_some hrow', Option.some.injEq] at hv
    exact .inr (congrArg OpView.state hv)

theorem pgRestart_ledger (h : pgRestart T T') :
    (∀ id, Effect True (T.ledger id) (T'.ledger id)) ∧ T'.staged = T.staged ∧ T'.inserted = T.inserted := by
  obtain rfl | ⟨ids, l, hsel, hl, rfl⟩ := h
  · exact ⟨fun _ => .same _, rfl, rfl⟩
  · refine ⟨fun id => ?_, rfl, rfl⟩
    obtain ⟨hmem, hfence⟩ | ⟨_, hsame⟩ := ensureSchema_at hsel.1 hl id
    · obtain ⟨row, hrow, hlive⟩ := (hsel.2 id).mp hmem
      exact fenceRestart_effect hrow hlive hfence
    · simpa [hsame] using .same _

/-- What the prepared store does, given what its statements do. -/
theorem pgDelete (h : pgCall pg (.deletePrepared id) T r T') :
    T' = T ∨ T' = { T with staged := update T.staged id none } := by
  obtain ⟨u, htx, _⟩ | ⟨rfl, _⟩ := Commits.split h
  · unfold deletePrepared at htx
    split at htx <;> cases htx
    exact .inr rfl
  · exact .inl rfl

theorem pgPrepare (h : pgHandle pg (.prepareEvent e) T r T') :
    (T' = T ∧ (r = .ok () → ∃ old, T.staged e.operationID = some old ∧ old.event.event = e.event)) ∨
      (∃ row st, T.row e.operationID = some row ∧ row.state.terminal = false ∧ T.staged e.operationID = none ∧
        st.event.event = e.event ∧ st.event.context = e.context ∧ st.event.capability = e.capability ∧
        st.event.operation = e.operation ∧
        T' = { T with staged := update T.staged e.operationID (some st), inserted := T.inserted ++ [e] }) := by
  obtain ⟨u, htx, _⟩ | ⟨rfl, e', rfl, _⟩ := Commits.split h
  · unfold prepare at htx
    rcases hp : prepareMatrixEvent pg e (T.row e.operationID) (T.staged e.operationID) with _ | st
    · rw [hp] at htx
      cases htx
    · rw [hp] at htx
      cases htx
      obtain ⟨row, hrow, hlive, ⟨old, hold, rfl, heq⟩ | ⟨hnone, rfl⟩⟩ := prepare_ok hp
      · simp only [preparedMatrixEventEqual, Bool.and_eq_true, beq_iff_eq] at heq
        refine .inl ⟨?_, fun _ => ⟨old, hold, heq.2⟩⟩
        have hself : update T.staged e.operationID (some old) = T.staged := by
          rw [← hold]
          exact Function.update_eq_self ..
        rw [hself, if_neg (by simp [hold])]
      · refine .inr ⟨row, ⟨{ e with attempt := max e.attempt 1, revision := max e.revision 1 },
          pg.sha256 e.event.eventJSON⟩, hrow, hlive, hnone, rfl, rfl, rfl, rfl, ?_⟩
        rw [if_pos (by simp [hnone])]
  · exact .inl ⟨rfl, by simp⟩

theorem pgMarkSent (h : pgHandle pg (.markSent ctx receipt) T r T') :
    T' = T ∨ ∃ st st', T.staged ctx.operationID = some st ∧ st'.event.event = st.event.event ∧
      st'.event.context = st.event.context ∧ st'.event.capability = st.event.capability ∧
      st'.event.operation = st.event.operation ∧
      T' = { T with staged := update T.staged ctx.operationID (some st') } := by
  obtain ⟨u, htx, _⟩ | ⟨rfl, _⟩ := Commits.split h
  · unfold markSent at htx
    rcases hp : markMatrixPreparedEventSent ctx receipt (T.staged ctx.operationID) with _ | st
    · rw [hp] at htx
      cases htx
    · rw [hp] at htx
      cases htx
      obtain ⟨row, row', hrow, rfl, _, hev, hctx, hcap, hop⟩ := markSent_ok hp
      exact .inr ⟨row, row', hrow, hev, hctx, hcap, hop, rfl⟩
  · exact .inl rfl

/-! ## The staged events -/

/-- For each operation at most one event was ever staged, and a live operation still has it. -/
structure Single (T : Tables) : Prop where
  staged : ∀ id st, T.staged id = some st → T.Inserted id st.event.event
  unique : ∀ id m m', T.Inserted id m → T.Inserted id m' → m = m'
  live : ∀ id m, T.Inserted id m → ∃ row, T.row id = some row ∧ (row.state.terminal = false → (T.staged id).isSome = true)

structure Grows (T T' : Tables) : Prop where
  single : Single T'
  inserted : ∀ id m, T.Inserted id m → T'.Inserted id m

namespace Single

theorem empty : Single empty where
  staged _ _ h := by cases h
  unique _ _ _ h := by
    obtain ⟨_, he, _⟩ := h
    cases he
  live _ _ h := by
    obtain ⟨_, he, _⟩ := h
    cases he

section

variable (h : Single T)
include h

theorem grows : Grows T T := ⟨h, fun _ _ hm => hm⟩

/-- A step of the ledger alone that brings no operation back to life. -/
theorem ledger (hstaged : T'.staged = T.staged) (hinserted : T'.inserted = T.inserted)
    (hrows : ∀ id row, T.row id = some row →
      ∃ row', T'.row id = some row' ∧ (row.state.terminal = true → row'.state.terminal = true)) : Grows T T' := by
  have hsame : ∀ id m, T'.Inserted id m ↔ T.Inserted id m := fun id m => by unfold Inserted; rw [hinserted]
  refine ⟨⟨fun id st hst => ?_, fun id m m' hm hm' => ?_, fun id m hm => ?_⟩, fun id m hm => (hsame id m).mpr hm⟩
  · rw [hstaged] at hst
    exact (hsame _ _).mpr (h.staged id st hst)
  · exact h.unique id m m' ((hsame _ _).mp hm) ((hsame _ _).mp hm')
  · obtain ⟨row, hrow, hlive⟩ := h.live id m ((hsame _ _).mp hm)
    obtain ⟨row', hrow', hterminal⟩ := hrows id row hrow
    refine ⟨row', hrow', fun hnot => ?_⟩
    rw [hstaged]
    apply hlive
    cases hstate : row.state.terminal with
    | false => rfl
    | true => rw [hterminal hstate] at hnot; cases hnot

theorem effect (heff : (∀ id, Effect True (T.ledger id) (T'.ledger id)) ∧ T'.staged = T.staged ∧ T'.inserted = T.inserted) :
    Grows T T' := by
  obtain ⟨hledger, hstaged, hinserted⟩ := heff
  refine h.ledger hstaged hinserted fun id row hrow => ?_
  obtain ⟨row', hrow', -, hstate⟩ := (hledger id).kept hrow
  exact ⟨row', hrow', fun ht => by rw [hstate ht, ht]⟩

/-- A staged row may be replaced by one with its event, or go once its operation is terminal. -/
theorem restage (hevent : ∀ st, new = some st → T.Inserted id st.event.event)
    (hgone : new = none → ∃ row, T.row id = some row ∧ row.state.terminal = true) :
    Grows T { T with staged := update T.staged id new } := by
  refine ⟨⟨fun i st hst => ?_, h.unique, fun i m hm => ?_⟩, fun _ _ hm => hm⟩
  · dsimp only at hst
    by_cases hi : i = id
    · rw [hi, update_self] at hst
      exact hi ▸ hevent st hst
    · rw [update_of_ne hi] at hst
      exact h.staged i st hst
  · obtain ⟨row, hrow, hlive⟩ := h.live i m hm
    refine ⟨row, hrow, fun hnot => ?_⟩
    dsimp only
    by_cases hi : i = id
    · subst hi
      rw [update_self]
      cases hnew : new with
      | some st => rfl
      | none =>
        obtain ⟨row', hrow', hterminal⟩ := hgone hnew
        rw [hrow, Option.some.injEq] at hrow'
        rw [hrow', hterminal] at hnot
        cases hnot
    · rw [update_of_ne hi]
      exact hlive hnot

/-- A live operation without a staged row never had one, so that the first event staged for it is
the only one. -/
theorem insert (hrow : T.row e.operationID = some row) (hlive : row.state.terminal = false)
    (hnone : T.staged e.operationID = none) (hst : st.event.event = e.event) :
    Grows T { T with staged := update T.staged e.operationID (some st), inserted := T.inserted ++ [e] } := by
  have hfirst : ∀ m, ¬ T.Inserted e.operationID m := by
    intro m hm
    obtain ⟨row', hrow', hsome⟩ := h.live _ m hm
    rw [hrow] at hrow'
    cases hrow'
    simpa [hnone] using hsome hlive
  have hins : ∀ i m, Inserted { T with
      staged := update T.staged e.operationID (some st), inserted := T.inserted ++ [e] } i m ↔
      T.Inserted i m ∨ (i = e.operationID ∧ m = e.event) := by
    intro i m
    simp only [Inserted, List.mem_append, List.mem_singleton, or_and_right, exists_or, exists_eq_left]
    exact or_congr_right (and_congr eq_comm eq_comm)
  refine ⟨⟨fun i st' hst' => ?_, fun i m m' hm hm' => ?_, fun i m hm => ?_⟩, fun i m hm => (hins i m).mpr (.inl hm)⟩
  · rw [hins]
    dsimp only at hst'
    by_cases hi : i = e.operationID
    · subst hi
      rw [update_self, Option.some.injEq] at hst'
      exact .inr ⟨rfl, by rw [← hst', hst]⟩
    · rw [update_of_ne hi] at hst'
      exact .inl (h.staged i st' hst')
  · rw [hins] at hm hm'
    obtain hm | ⟨rfl, rfl⟩ := hm
    · obtain hm' | ⟨rfl, rfl⟩ := hm'
      · exact h.unique i m m' hm hm'
      · exact absurd hm (hfirst m)
    · obtain hm' | ⟨_, rfl⟩ := hm'
      · exact absurd hm' (hfirst m')
      · rfl
  · by_cases hi : i = e.operationID
    · subst hi
      exact ⟨row, hrow, fun _ => by simp⟩
    · obtain ⟨row', hrow', hsome⟩ := h.live i m (((hins i m).mp hm).resolve_right fun hboth => hi hboth.1)
      exact ⟨row', hrow', fun hnot => by dsimp only; rw [update_of_ne hi]; exact hsome hnot⟩

theorem handle {c : HandlerCall} {r : c.Ans} (hcall : pgHandle pg c T r T') : Grows T T' := by
  cases c with
  | getPrepared c =>
    obtain ⟨rfl, -⟩ := hcall
    exact h.grows
  | prepareEvent e =>
    obtain ⟨rfl, -⟩ | ⟨row, st, hrow, hlive, hnone, hst, -, -, -, rfl⟩ := pgPrepare hcall
    · exact h.grows
    · exact h.insert hrow hlive hnone hst
  | markSent c receipt =>
    obtain rfl | ⟨st, st', hold, hevent, -, -, -, rfl⟩ := pgMarkSent hcall
    · exact h.grows
    · refine h.restage (fun _ hnew => ?_) nofun
      cases hnew
      exact hevent ▸ h.staged _ st hold
  | _ =>
    cases hcall
    exact h.grows

theorem call {c : StoreCall} {r : c.Ans} (hcall : pgCall pg c T r T')
    (hdelete : ∀ id, c = .deletePrepared id → ∃ row, T.row id = some row ∧ row.state.terminal = true) : Grows T T' := by
  by_cases hc : ∃ id, c = .deletePrepared id
  · obtain ⟨id, rfl⟩ := hc
    obtain rfl | rfl := pgDelete hcall
    · exact h.grows
    · exact h.restage nofun fun _ => hdelete id rfl
  · exact h.effect (pgCall_ledger hcall fun id heq => hc ⟨id, heq⟩)

end

end Single

/-! ## The events of the product handlers -/

/-- The pair under which an action's event is staged, whatever capability was asked for it. -/
def Action.binding : Action → String × String
  | .messagesSend => ("product.messages.v1", "send")
  | .channelCommentsCreate => ("product.channel_comments.v1", "create")

namespace Tables

/-- The operation of the fence exists, under this fence, and is bound to the action. -/
def Fenced (T : Tables) (ctx : OperationContext) (action : Action) : Prop :=
  ∃ row, T.row ctx.operationID = some row ∧ row.context ctx.operationID = ctx ∧
    registeredAction row.capability row.operation = some action

theorem Fenced.later (h : T.Fenced ctx action) (hk : Kept T T') : T'.Fenced ctx action := by
  obtain ⟨row, hrow, hctx, hact⟩ := h
  obtain ⟨row', hrow', hsame, _⟩ := hk.rows _ row hrow
  exact ⟨row', hrow', (hsame.context _).trans hctx, by rw [hsame.capability, hsame.operation]; exact hact⟩

end Tables

structure Staging (T : Tables) : Prop extends Single T where
  complete : ∀ id row, T.row id = some row → (row.context id).complete = true
  owned : ∀ id st, T.staged id = some st → st.event.operationID = id ∧
    ∃ action, T.Fenced st.event.context action ∧ (st.event.capability, st.event.operation) = action.binding
  /-- An operation with a staged event is never cancelled. -/
  uncancelled : ∀ id m row, T.Inserted id m → T.row id = some row → row.state ≠ .cancelled

namespace Staging

theorem empty : Staging empty where
  toSingle := .empty
  complete _ _ h := by cases h
  owned _ _ h := by cases h
  uncancelled _ _ _ _ h := by cases h

/-- A step of the ledger keeps the invariant if new rows are complete and no operation with a
staged event is cancelled. -/
theorem ledger (h : Staging T) (hk : T.Kept T') (hst : T'.staged = T.staged) (hin : T'.inserted = T.inserted)
    (hnew : ∀ id row, T'.row id = some row → T.row id = none → (row.context id).complete = true)
    (hcancel : ∀ id row row', (T.staged id).isSome = true → T.row id = some row → T'.row id = some row' →
      row.state.terminal = false → row'.state ≠ .cancelled) : Staging T' where
  toSingle := by
    refine (h.toSingle.ledger hst hin fun id row hrow => ?_).single
    obtain ⟨row', hrow', _, hterm⟩ := hk.rows id row hrow
    exact ⟨row', hrow', fun ht => by rw [hterm ht, ht]⟩
  complete id row' hrow' := by
    rcases hrow : T.row id with _ | row
    · exact hnew id row' hrow' hrow
    · obtain ⟨row₂, hrow₂, hsame, _⟩ := hk.rows id row hrow
      rw [hrow'] at hrow₂
      cases hrow₂
      rw [hsame.context]
      exact h.complete id row hrow
  owned id st hs := by
    rw [hst] at hs
    obtain ⟨hid, action, hf, hb⟩ := h.owned id st hs
    exact ⟨hid, action, hf.later hk, hb⟩
  uncancelled id m row' hm hrow' := by
    have hm : T.Inserted id m := by rwa [Inserted, hin] at hm
    obtain ⟨row, hrow, hlive⟩ := h.live id m hm
    obtain ⟨row₂, hrow₂, _, hterm⟩ := hk.rows id row hrow
    rw [hrow'] at hrow₂
    cases hrow₂
    rcases hl : row.state.terminal with _ | _
    · exact hcancel id row row' (hlive hl) hrow hrow' hl
    · rw [hterm hl]
      exact h.uncancelled id m row hm hrow

variable {row : OperationRow}

section

variable (h : Staging T)
include h

theorem restage (hevent : ∀ st, new = some st → T.Inserted id st.event.event)
    (hgone : new = none → ∃ row, T.row id = some row ∧ row.state.terminal = true)
    (howned : ∀ st, new = some st → st.event.operationID = id ∧
      ∃ action, T.Fenced st.event.context action ∧ (st.event.capability, st.event.operation) = action.binding) :
    Staging { T with staged := update T.staged id new } where
  toSingle := (h.toSingle.restage hevent hgone).single
  complete := h.complete
  owned i st hs := by
    by_cases he : i = id
    · subst he
      exact howned st (by simpa using hs)
    · simp only [update_of_ne he] at hs
      exact h.owned i st hs
  uncancelled := h.uncancelled

theorem insert (hrow : T.row e.operationID = some row) (hlive : row.state.terminal = false)
    (hnone : T.staged e.operationID = none) (hf : T.Fenced e.context action)
    (hb : (e.capability, e.operation) = action.binding) (hev : st.event.event = e.event)
    (hctx : st.event.context = e.context) (hcap : st.event.capability = e.capability)
    (hop : st.event.operation = e.operation) :
    Staging { T with staged := update T.staged e.operationID (some st), inserted := T.inserted ++ [e] } where
  toSingle := (h.toSingle.insert hrow hlive hnone hev).single
  complete := h.complete
  owned i s hs := by
    by_cases he : i = e.operationID
    · subst he
      simp only [update_self, Option.some.injEq] at hs
      subst hs
      refine ⟨congrArg OperationContext.operationID hctx, action, by rw [hctx]; exact hf, ?_⟩
      rw [hcap, hop]
      exact hb
    · simp only [update_of_ne he] at hs
      exact h.owned i s hs
  uncancelled i m row' hm hrow' := by
    obtain ⟨a, ha, rfl, rfl⟩ := hm
    obtain ha | ha := List.mem_append.mp ha
    · exact h.uncancelled _ _ row' ⟨a, ha, rfl, rfl⟩ hrow'
    · rw [List.mem_singleton.mp ha] at hrow'
      cases hrow.symm.trans hrow'
      intro hc
      rw [hc] at hlive
      cases hlive

/-- `cancel` refuses an operation whose event is staged. -/
theorem cancel_refused (hs : (T.staged id).isSome = true)
    (hrow : T.row id = some row) : preparedMatrixPresent id (T.staged id) row ≠ .ok false := by
  obtain ⟨st, hst⟩ := Option.isSome_iff_exists.mp hs
  obtain ⟨hid, action, ⟨row', hrow', hctx, hact⟩, _⟩ := h.owned id st hst
  have hop : st.event.context.operationID = id := hid
  rw [hop] at hrow' hctx
  rw [hrow] at hrow'
  cases hrow'
  have hfenced := fencedRow_some.mpr ⟨hst, hctx.symm⟩
  unfold preparedMatrixPresent hasMatrixPreparedEventTx
  rw [if_pos (registeredAction_prepared hact), hfenced]
  split <;> simp

theorem cancel_kept
    (hcall : pgCall pg (.cancel id) T r T') (hs : (T.staged id).isSome = true) (hrow : T.row id = some row)
    (hrow' : T'.row id = some row') (hlive : row.state.terminal = false) : row'.state ≠ .cancelled := by
  obtain ⟨u, htx, _⟩ | ⟨rfl, _⟩ := Commits.split hcall
  · obtain ⟨s, hcan, rfl⟩ := tx_ok htx
    obtain ⟨row₂, hrow₂, _, hp, _⟩ := cancel_cases hcan
    exact absurd hp (h.cancel_refused hs hrow₂)
  · rw [hrow] at hrow'
    cases hrow'
    intro hc
    rw [hc] at hlive
    cases hlive

end

theorem start_complete {record r : OperationRecord} {raced : Bool}
    (h : T.tx record.id (start record raced) = .ok (r, T')) (hnew : T'.row id = some row) (hold : T.row id = none) :
    (row.context id).complete = true := by
  obtain ⟨s, htx, rfl⟩ := tx_ok h
  rw [row_setSlot] at hnew
  by_cases he : id = record.id
  · subst he
    rw [update_self] at hnew
    obtain ⟨row', hrow', rfl, _⟩ | ⟨_, hchecks, rfl, _⟩ := start_cases htx
    · exact absurd (hnew.symm.trans hold) (by simp)
    · cases hnew
      simp only [OperationRow.checks, Bool.and_eq_true] at hchecks
      simp only [OperationRow.context, OperationContext.complete, Bool.and_eq_true]
      exact ⟨⟨⟨hchecks.1.1.1.1.1.1.1, hchecks.1.1.1.1.2⟩, hchecks.1.1.1.2⟩, hchecks.1.1.2⟩
  · rw [update_of_ne he, hold] at hnew
    cases hnew

theorem call {c : StoreCall} {r : c.Ans} (h : Staging T) (hcall : pgCall pg c T r T')
    (hpre : ∀ id, c = .deletePrepared id → ∃ row, T.row id = some row ∧ row.state.terminal = true) :
    Staging T' ∧ T.Kept T' := by
  by_cases hdel : ∃ id, c = .deletePrepared id
  · obtain ⟨id, rfl⟩ := hdel
    obtain rfl | rfl := pgDelete hcall
    · exact ⟨h, .refl _⟩
    · exact ⟨h.restage nofun (fun _ => hpre id rfl) nofun, ⟨(Kept.refl T).rows, fun _ _ hm => hm⟩⟩
  · have hspec : CallSpec c T.view r T'.view := ((postgres_lawful pg).call trivial hcall).2
    obtain ⟨heff, hst, hin⟩ := pgCall_ledger hcall fun id hc => hdel ⟨id, hc⟩
    have hk := Kept.of_effect heff hin
    refine ⟨h.ledger hk hst hin (fun id row hnew hold => ?_) fun id row row' hs hrow hrow' hlive hc => ?_, hk⟩
    · obtain ⟨record, rfl⟩ := hspec.creates (by rw [view_apply, hold]; rfl) (view_some hnew)
      obtain ⟨raced, hc⟩ := hcall
      obtain ⟨a, htx, _⟩ | ⟨rfl, _⟩ := hc.split
      · exact start_complete htx hnew hold
      · rw [hold] at hnew
        cases hnew
    · obtain heq | ht := pgCall_state hcall hrow hrow'
      · rw [← heq, hc] at hlive
        cases hlive
      · rw [hc] at ht
        obtain rfl := target_cancelled ht
        exact h.cancel_kept hcall hs hrow hrow' hlive hc

theorem restart (h : Staging T) (hr : pgRestart T T') : Staging T' ∧ T.Kept T' := by
  obtain ⟨heff, hst, hin⟩ := pgRestart_ledger hr
  have hk := Kept.of_effect heff hin
  refine ⟨h.ledger hk hst hin (fun id row hnew hold => ?_) fun id row row' _ hrow hrow' hlive hc => ?_, hk⟩
  · obtain hv | ⟨o, ho, _⟩ := pgRestart_view hr id
    · rw [view_some hnew, view_apply, hold] at hv
      cases hv
    · rw [view_apply, hold] at ho
      cases ho
  · obtain heq | heq := pgRestart_state hr hrow hrow'
    · rw [← heq, hc] at hlive
      cases hlive
    · rw [hc] at heq
      cases heq

theorem handle {c : HandlerCall} {r : c.Ans} (h : Staging T) (hcall : pgHandle pg c T r T')
    (hpre : ∀ e, c = .prepareEvent e → ∃ action, T.Fenced e.context action ∧
      (e.capability, e.operation) = action.binding) : Staging T' ∧ T.Kept T' := by
  cases c with
  | getPrepared ctx =>
    obtain ⟨rfl, _⟩ := hcall
    exact ⟨h, .refl _⟩
  | prepareEvent e =>
    obtain ⟨action, hf, hb⟩ := hpre e rfl
    obtain ⟨rfl, _⟩ | ⟨row, st, hrow, hlive, hnone, hev, hctx, hcap, hop, rfl⟩ := pgPrepare hcall
    · exact ⟨h, .refl _⟩
    · refine ⟨h.insert hrow hlive hnone hf hb hev hctx hcap hop, (Kept.refl T).rows, ?_⟩
      rintro id m ⟨e', he', hid⟩
      exact ⟨e', List.mem_append_left _ he', hid⟩
  | markSent ctx receipt =>
    obtain rfl | ⟨st, st', hst, hev, hctx, hcap, hop, rfl⟩ := pgMarkSent hcall
    · exact ⟨h, .refl _⟩
    · obtain ⟨hid, action, hf, hb⟩ := h.owned _ st hst
      refine ⟨h.restage (fun _ hnew => ?_) nofun fun _ hnew => ?_, (Kept.refl T).rows, fun _ _ hm => hm⟩
      · cases hnew
        exact hev ▸ h.staged _ st hst
      · cases hnew
        refine ⟨(congrArg OperationContext.operationID hctx).trans hid, action, by rw [hctx]; exact hf, ?_⟩
        rw [hcap, hop]
        exact hb
  | _ =>
    obtain rfl : _ = T := hcall
    exact ⟨h, .refl _⟩

end Staging

end Dirextalk.Capability

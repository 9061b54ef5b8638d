/-
  Dirextalk.Capability.ProductOutline — the outline of the server over PostgreSQL and the
  product handlers.

  The outline `staging` puts the layers below together. Its invariant is the one of the
  tables, that the history tells nothing else, and that an operation fails only if its event
  was not accepted or an answer was not clean while it might have been (`Excused`); its
  preconditions are what the monitor of the handlers allows.
-/
import Dirextalk.Capability.Exclusive
import Dirextalk.Capability.ProductHandlers

namespace Dirextalk.Capability

open Lib Lib.Go List Function

variable {pg : Platform} {T T' : Tables} {id : String} {h h' : List Act}

/-! ## Doubt and taint -/

/-- The operation's event was not accepted, or an answer left its execution no way but to fail. -/
def Excused (history : List Act) (id : String) : Prop :=
  mayBeAccepted history id = false ∨ .tainted id ∈ history

/-- The history grew by nothing that leaves the operation's event in doubt. -/
structure Certain (id : String) (h h' : List Act) : Prop where
  grows : h ⊆ h'
  same : mayBeAccepted h' id = mayBeAccepted h id

theorem Certain.excused (hc : Certain id h h') (he : Excused h id) : Excused h' id :=
  he.imp (fun hm => hc.same.trans hm) fun ht => hc.grows ht

theorem Certain.refl (id : String) (h : List Act) : Certain id h h := ⟨.refl _, rfl⟩

theorem Certain.append (ha : ∀ a ∈ acts, Act.opensDoubt id a = false) : Certain id h (h ++ acts) where
  grows := subset_append_left _ _
  same := by
    have hany : acts.any (Act.opensDoubt id) = false := by simpa using ha
    simp [mayBeAccepted, hany]

theorem Certain.trans (hc : Certain id h h') (hc' : Certain id h' h'') : Certain id h h'' :=
  ⟨List.Subset.trans hc.grows hc'.grows, hc'.same.trans hc.same⟩

theorem taint_certain (history : List Act) (i : String) (clean : Bool) : Certain id h (h ++ taint history i clean) := by
  refine .append fun a ha => ?_
  unfold taint at ha
  split at ha <;> simp only [mem_singleton, not_mem_nil] at ha
  rw [ha]
  rfl

/-- An answer that is not clean leaves the operation excused. -/
theorem taint_excused (history : List Act) : Excused (history ++ taint history id false) id := by
  rcases hm : mayBeAccepted history id with _ | _
  · exact (taint_certain ..).excused (.inl hm)
  · exact .inr (mem_append_right _ (by simp [taint, hm]))

/-- The acts of a handler concern its own operation, and only a send leaves it in doubt. -/
theorem acts_certain {i : String} {c : HandlerCall} {r : c.Ans} (hc : i ≠ id ∨ c.sends = false) :
    Certain id h (h ++ c.acts i r) := by
  refine .append fun a ha => ?_
  unfold HandlerCall.acts at ha
  split at ha <;> simp only [mem_singleton, not_mem_nil] at ha
  all_goals subst ha
  · obtain hne | hs := hc
    · simp [Act.opensDoubt, hne]
    · cases hs
  · rfl
  · rfl

section Steps

variable {B : Backend} {w w' : World B} {t : Nat} {c : SysCall}

theorem afterStore_certain (w : World B) (t : Nat) (st : B.Store) (c : StoreCall) (r : c.Ans) :
    Certain id w.history (w.afterStore t st c r).history := by
  unfold World.afterStore
  split
  · split
    · exact .append (by simp [Act.opensDoubt])
    · exact .refl ..
  · split
    · exact .append (by simp [Act.opensDoubt])
    · exact .refl ..
  · exact .append (by simp [Act.opensDoubt])
  all_goals exact .refl ..

theorem World.Exec.grows (h : World.Exec B t c w r w') : w.history ⊆ w'.history := by
  cases h with
  | wrapInput _ | enter | leave => exact subset_append_left _ _
  | store _ => exact (afterStore_certain w t _ _ _ : Certain "" _ _).grows
  | handler _ => exact List.Subset.trans (subset_append_left _ _) (subset_append_left _ _)

/-- Only a handler of the operation itself can leave its event in doubt. -/
theorem World.Exec.certain (h : World.Exec B t c w r w')
    (hne : ∀ ctx hc, c = .handler ctx hc → ctx.operationID ≠ id ∨ hc.sends = false) :
    Certain id w.history w'.history := by
  cases h with
  | wrapInput r => exact taint_certain ..
  | enter | leave => exact .append (by simp [Act.opensDoubt])
  | store _ => exact afterStore_certain ..
  | handler _ => exact (acts_certain (hne _ _ rfl)).trans (taint_certain ..)

end Steps

/-! ## The outline -/

def Act.Told (T : Tables) : Act → Prop
  | .sent id m _ => T.Inserted id m
  | .receipt id r => ∃ m, T.Inserted id m ∧ r.eventID = m.eventID
  | .returned id value => Known.carries (T.Inserted id) value
  | _ => True

/-- The server, each of its calls known to meet the outline of exclusive execution. -/
abbrev exclusiveServer (pg : Platform) (ports : Ports) : Machine SysSig Request (World (postgres pg)) :=
  (server (postgres pg) (productRegistry ports)).restrict
    (exclusion (postgres pg) (fun _ => True) (productRegistry ports))

def StagedPre (w : World (postgres pg)) : SysCall → Prop
  | .handler ctx c => ∃ action, w.store.Fenced ctx action ∧
      Known.allows (w.store.Inserted ctx.operationID) ctx action.binding c
  | .store (.deletePrepared id) => ∃ row, w.store.row id = some row ∧ row.state.terminal = true
  | .store (.finish id _ (some _)) => Excused w.history id
  | _ => True

structure Staged (w : World (postgres pg)) : Prop where
  tables : Staging w.store
  told : ∀ a ∈ w.history, a.Told w.store
  excused : ∀ id row, w.store.row id = some row → row.state = .failed → Excused w.history id

/-- The rows stay, and nobody else leaves an event in doubt for the thread that holds its operation. -/
structure StagedRely (t : Nat) (w w' : World (postgres pg)) : Prop where
  kept : w.store.Kept w'.store
  holder : ∀ id, w.holder id = some t → w'.holder id = some t ∧ Certain id w.history w'.history

def staging (pg : Platform) (ports : Ports) : Outline (exclusiveServer pg ports) where
  Inv := Staged
  Rely := StagedRely
  Pre _ _ c w := StagedPre w c
  Fresh _ _ := True

theorem StagedRely.refl (t : Nat) (w : World (postgres pg)) : StagedRely t w w :=
  ⟨.refl _, fun _ h => ⟨h, .refl ..⟩⟩

theorem StagedRely.trans (h : StagedRely t w₁ w₂) (h' : StagedRely t w₂ w₃) : StagedRely t w₁ w₃ where
  kept := h.kept.trans h'.kept
  holder id hid := by
    obtain ⟨hid₂, hc₂⟩ := h.holder id hid
    obtain ⟨hid₃, hc₃⟩ := h'.holder id hid₂
    exact ⟨hid₃, hc₂.trans hc₃⟩

theorem Known.carries_mono {κ κ' : Known} (h : ∀ m, κ m → κ' m) {value : ResultValue} (hc : κ.carries value) :
    κ'.carries value := by
  cases value with
  | message _ _ _ => exact hc.imp fun m hm => ⟨h m hm.1, hm.2⟩
  | comment _ _ _ => trivial

theorem Act.Told.later {a : Act} (h : a.Told T) (hk : T.Kept T') : a.Told T' := by
  cases a with
  | sent id m _ => exact hk.inserted id m h
  | receipt id r => exact h.imp fun m hm => ⟨hk.inserted id m hm.1, hm.2⟩
  | returned id value => exact Known.carries_mono (hk.inserted id) h
  | _ => trivial

variable {action : Action} {ctx : OperationContext}

theorem Known.allows_mono {κ κ' : Known} (h : ∀ m, κ m → κ' m) {c : HandlerCall} (hc : κ.allows ctx bound c) :
    κ'.allows ctx bound c := by
  cases c with
  | sendPrepared m => exact h m hc
  | encodeResult value => exact Known.carries_mono h hc
  | mutated out =>
    obtain e | r := out
    · trivial
    · exact hc.imp fun m hm => ⟨h m hm.1, hm.2⟩
  | _ => exact hc

/-- What a handler's call leaves in the history is true of the tables. -/
theorem acts_told (hc : Known.allows (T.Inserted ctx.operationID) ctx bound c) :
    ∀ a ∈ c.acts ctx.operationID r, a.Told T := by
  intro a ha
  unfold HandlerCall.acts at ha
  split at ha <;> simp only [mem_singleton, not_mem_nil] at ha
  all_goals
    subst ha
    exact hc

variable {w : World (postgres pg)}

theorem afterStore_told (h : ∀ a ∈ w.history, a.Told st) : ∀ a ∈ (w.afterStore t st c r).history, a.Told st := by
  have more : ∀ {a : Act}, a.Told st → ∀ b ∈ w.history ++ [a], b.Told st := by
    intro a ha b hb
    obtain hb | hb := mem_append.mp hb
    · exact h b hb
    · rw [mem_singleton] at hb
      exact hb ▸ ha
  unfold World.afterStore
  split
  · split
    · exact more trivial
    · exact h
  · split
    · exact more trivial
    · exact h
  · exact more trivial
  all_goals exact h

theorem afterStore_store (w : World B) (t : Nat) (st : B.Store) (c : StoreCall) (r : c.Ans) :
    (w.afterStore t st c r).store = st := by
  unfold World.afterStore
  split
  · split <;> rfl
  · split <;> rfl
  all_goals rfl

theorem pgCall_failed (h : pgCall pg c T r T')
    (hrow' : T'.row id = some row') (hf : row'.state = .failed) :
    (∃ row, T.row id = some row ∧ row.state = .failed) ∨ ∃ result err, c = .finish id result (some err) := by
  rcases hrow : T.row id with _ | row
  · -- a row that was not there before is pending
    have hspec : CallSpec c T.view r T'.view := ((postgres_lawful pg).call trivial h).2
    have hnone : T.view id = none := by rw [Tables.view_apply, hrow]; rfl
    have hsome := Tables.view_some hrow'
    obtain hv | ⟨record, _, _, hv⟩ | ⟨i, state, o, _, ho, hv⟩ := hspec.inversion
    · rw [hv, hnone] at hsome
      cases hsome
    · rw [hv] at hsome
      by_cases he : id = record.id
      · subst he
        rw [update_self, Option.some.injEq] at hsome
        have hstate : row'.state = .pending := (congrArg OpView.state hsome).symm
        rw [hf] at hstate
        cases hstate
      · rw [update_of_ne he, hnone] at hsome
        cases hsome
    · rw [hv, update_of_ne (by rintro rfl; rw [hnone] at ho; cases ho), hnone] at hsome
      cases hsome
  · obtain heq | ht := pgCall_state h hrow hrow'
    · exact .inl ⟨row, rfl, heq ▸ hf⟩
    · refine .inr ?_
      rw [hf] at ht
      cases c <;> simp [StoreCall.target] at ht
      rename_i i result err
      obtain ⟨rfl, hs⟩ := ht
      obtain _ | err := err
      · simp at hs
      · exact ⟨result, err, rfl⟩

/-- An operation whose handler runs has not failed. -/
theorem inside_not_failed
    (hi : Excl (postgres pg) (fun _ => True) w) (hin : Inside t id w) (hrow : w.store.row id = some row) :
    row.state ≠ .failed := by
  obtain ⟨o, ho, hs⟩ := hi.held.state id t hin.holder
  have hv : (postgres pg).view w.store id = some (Tables.rowView id row) := Tables.view_some hrow
  rw [hv, Option.some.injEq] at ho
  intro hf
  rw [← ho, show (Tables.rowView id row).state = row.state from rfl, hf] at hs
  exact absurd hs (by decide)

section Valid

variable {ports : Ports} {t u : Nat} {q : Request} {c : SysCall} {r : c.Ans} {w' : World (postgres pg)}

/-- What a call leaves of the tables and of what the history tells. -/
theorem Staged.tells (h : Staged w) (hp : StagedPre w c) (he : World.Exec (postgres pg) t c w r w') :
    (Staging w'.store ∧ ∀ a ∈ w'.history, a.Told w'.store) ∧ w.store.Kept w'.store := by
  have quiet : ∀ (acts : List Act), (∀ a ∈ acts, a.Told w.store) → ∀ a ∈ w.history ++ acts, a.Told w.store := by
    intro acts hacts a ha
    exact (mem_append.mp ha).elim (h.told a) (hacts a)
  have tainted : ∀ (history : List Act) (id : String) (clean : Bool) (T : Tables), ∀ a ∈ taint history id clean,
      a.Told T := by
    intro history id clean T a ha
    unfold taint at ha
    split at ha <;> simp only [mem_singleton, not_mem_nil] at ha
    subst ha
    trivial
  cases he with
  | wrapInput r => exact ⟨⟨h.tables, quiet _ (tainted _ _ _ _)⟩, .refl _⟩
  | enter | leave => exact ⟨⟨h.tables, quiet _ (by simp [Act.Told])⟩, .refl _⟩
  | @store _ c r st hcall =>
    have hpre : ∀ id, c = .deletePrepared id → ∃ row, w.store.row id = some row ∧ row.state.terminal = true := by
      rintro id rfl
      exact hp
    obtain ⟨htables, hkept⟩ := h.tables.call hcall hpre
    rw [afterStore_store]
    exact ⟨⟨htables, afterStore_told fun a ha => (h.told a ha).later hkept⟩, hkept⟩
  | @handler _ ctx c r st hcall =>
    obtain ⟨action, hf, hallow⟩ := hp
    have hpre : ∀ e, c = .prepareEvent e → ∃ action, w.store.Fenced e.context action ∧
        (e.capability, e.operation) = action.binding := by
      rintro e rfl
      exact ⟨action, hallow.1 ▸ hf, hallow.2⟩
    obtain ⟨htables, hkept⟩ := h.tables.handle hcall hpre
    refine ⟨⟨htables, fun a ha => ?_⟩, hkept⟩
    obtain ha | ha := mem_append.mp ha
    · exact (quiet _ (acts_told hallow) a ha).later hkept
    · exact tainted _ _ _ _ a ha

section

variable (hi : Staged w) (hp : StagedPre w c) (he : (exclusiveServer pg ports).exec t q c w r w')
include hi hp he

theorem Staged.failed : ∀ id row, w'.store.row id = some row → row.state = .failed → Excused w'.history id := by
  obtain ⟨hexec, hexcl, hpre⟩ := he
  intro id row' hrow' hf
  cases hexec with
  | wrapInput r => exact (taint_certain ..).excused (hi.excused id row' hrow' hf)
  | enter | leave => exact (Certain.append (by simp [Act.opensDoubt])).excused (hi.excused id row' hrow' hf)
  | @store _ c r st hcall =>
    rw [afterStore_store] at hrow'
    refine (afterStore_certain ..).excused ?_
    obtain ⟨row, hrow, hf⟩ | ⟨result, err, rfl⟩ := pgCall_failed hcall hrow' hf
    · exact hi.excused id row hrow hf
    · exact hp
  | @handler _ ctx c r st hcall =>
    have hrow : w.store.row id = some row' := by
      have hledger := pgHandle_ledger pg hcall
      have : st.row id = some row' := hrow'
      rwa [Tables.row, hledger] at this
    have hne : ctx.operationID ≠ id := by
      rintro rfl
      exact inside_not_failed hexcl hpre.1 hrow hf
    exact ((acts_certain (.inl hne)).trans (taint_certain ..)).excused (hi.excused id row' hrow hf)

theorem Staged.exec : Staged w' := by
  obtain ⟨htables, htold⟩ := (hi.tells hp he.1).1
  exact ⟨htables, htold, hi.failed hp he⟩

theorem Staged.kept : w.store.Kept w'.store := (hi.tells hp he.1).2

theorem Staged.rely (hne : t ≠ u) : StagedRely u w w' := by
  refine ⟨hi.kept hp he, fun id hu => ⟨?_, ?_⟩⟩
  · exact (World.Exec.change (postgres_lawful pg) he.2.1 he.2.2 he.1).2.holder he.2.1 hne hu
  · refine World.Exec.certain he.1 ?_
    rintro ctx hc rfl
    refine .inl ?_
    rintro rfl
    exact hne (Option.some.inj (he.2.2.1.holder.symm.trans hu))

end

theorem Staged.crash (hi : Staged w) (hc : (exclusiveServer pg ports).crash w w') : Staged w' := by
  obtain ⟨⟨st, hst, rfl⟩, _⟩ := hc
  obtain ⟨htables, hk⟩ := Staging.restart hi.tables hst
  refine ⟨htables, fun a ha => (hi.told a ha).later hk, fun id row' hrow' hf => ?_⟩
  have hsome := Tables.view_some hrow'
  obtain hv | ⟨o, _, _, hv⟩ := pgRestart_view hst id
  · rw [hsome] at hv
    rcases hrow : w.store.row id with _ | row
    · rw [Tables.view_apply, hrow] at hv
      cases hv
    · rw [Tables.view_some hrow, Option.some.injEq] at hv
      have heq : row'.state = row.state := congrArg OpView.state hv
      exact hi.excused id row hrow (heq ▸ hf)
  · rw [hsome, Option.some.injEq] at hv
    have heq : row'.state = .uncertain := congrArg OpView.state hv
    rw [hf] at heq
    cases heq

end Valid

/-! ## The programs meet the outline -/

theorem pgFinish_terminal (h : pgCall pg (.finish id result err) T (.ok true) T') :
    ∃ row, T'.row id = some row ∧ row.state.terminal = true := by
  obtain ⟨b, htx, hr⟩ | ⟨_, e, he, _⟩ := Commits.split h
  · obtain ⟨s, hf, rfl⟩ := Tables.tx_ok htx
    obtain ⟨rfl, _⟩ | ⟨_, row, column, _, _, rfl⟩ := finish_cases hf
    · obtain hr | ⟨e, he, _⟩ := hr
      · cases hr
      · cases he
    · rw [Tables.row_setSlot]
      refine ⟨_, Function.update_self .., ?_⟩
      cases err <;> rfl
  · cases he

theorem pgCancel_terminal (pg : Platform) (h : pgCall pg (.cancel id) T (.ok ()) T') :
    ∃ row, T'.row id = some row ∧ row.state.terminal = true := by
  obtain ⟨b, htx, hr⟩ | ⟨_, e, he, _⟩ := Commits.split h
  · obtain ⟨s, hf, rfl⟩ := Tables.tx_ok htx
    obtain ⟨row, _, _, _, rfl⟩ := cancel_cases hf
    rw [Tables.row_setSlot]
    exact ⟨_, Function.update_self .., rfl⟩
  · cases he

/-- The record `start` answers with carries the fence of its row. -/
theorem pgStart_fenced (pg : Platform) (h : pgCall pg (.start record) T (.ok e) T')
    (hact : registeredAction record.capability record.operation = some action) : T'.Fenced e.context action := by
  obtain ⟨raced, hc⟩ := h
  obtain ⟨a, htx, hr⟩ | ⟨_, e', he, _⟩ := hc.split
  · obtain rfl : e = a := by
      obtain hr | ⟨e', he, _⟩ := hr
      · cases hr
        rfl
      · cases he
    obtain ⟨s, hf, rfl⟩ := Tables.tx_ok htx
    unfold Tables.Fenced
    rw [Tables.row_setSlot]
    obtain ⟨row, hrow, rfl, rfl, hm⟩ | ⟨_, _, rfl, rfl⟩ := start_cases hf
    · have hkey := operationMatches_key.mp hm
      have hcap : row.capability = record.capability := congrArg OpKey.capability hkey
      have hop : row.operation = record.operation := congrArg OpKey.operation hkey
      refine ⟨row, ?_, rfl, by rw [hcap, hop]; exact hact⟩
      rw [show OperationContext.operationID (scanOperationRow record.id row).context = record.id from rfl,
        Function.update_self]
      exact hrow
    · exact ⟨insertedRow record, Function.update_self .., rfl, hact⟩
  · cases he

section Programs

variable {ports : Ports} {t : Nat} {q : Request} {w w' : World (postgres pg)} {ctx : OperationContext} {action : Action}
  {κ : Known × Bool}

/-- Thread `t` executes the operation: the events it knows to be staged are, and if an answer was not clean, its failure
is excused. -/
structure Knows (t : Nat) (ctx : OperationContext) (action : Action) (κ : Known × Bool) (w : World (postgres pg)) :
    Prop where
  holder : w.holder ctx.operationID = some t
  fenced : w.store.Fenced ctx action
  known : ∀ m, κ.1 m → w.store.Inserted ctx.operationID m
  excused : κ.2 = true → Excused w.history ctx.operationID

theorem Knows.later (h : Knows t ctx action κ w) (hr : StagedRely t w w') : Knows t ctx action κ w' := by
  obtain ⟨hh, hc⟩ := hr.holder _ h.holder
  exact ⟨hh, h.fenced.later hr.kept, fun m hm => hr.kept.inserted _ m (h.known m hm), fun hκ => hc.excused (h.excused hκ)⟩

theorem Knows.pre (h : Knows t ctx action κ w) (hc : (product ctx action.binding).allows κ c) : StagedPre w (.handler ctx c) :=
  ⟨action, h.fenced, Known.allows_mono h.known hc.1⟩

theorem get_bound (h : Staging T)
    (hf : T.Fenced ctx action) (hcall : pgHandle pg (.getPrepared ctx) T r T') (hr : r = .ok e) :
    (e.capability, e.operation) = action.binding := by
  obtain ⟨_, hget | ⟨err, _, he⟩⟩ := hcall
  · obtain ⟨st, hst, rfl, hctx⟩ := get_ok (hget.symm.trans hr)
    obtain ⟨_, action', ⟨row', hrow', _, hact'⟩, hb⟩ := h.owned _ st hst
    obtain ⟨row, hrow, _, hact⟩ := hf
    rw [hctx] at hrow'
    rw [hrow] at hrow'
    cases hrow'
    rw [hact] at hact'
    cases hact'
    exact hb
  · rw [he] at hr
    cases hr

theorem Knows.next (hi : Staged w) (h : Knows t ctx action κ w) (hc : (product ctx action.binding).allows κ c)
    (he : (exclusiveServer pg ports).exec t q (.handler ctx c) w r w') :
    Knows t ctx action ((product ctx action.binding).next κ c r) w' := by
  have hk := hi.kept (c := .handler ctx c) (h.pre hc) he
  obtain ⟨hexec, _, _⟩ := he
  cases hexec with
  | handler hcall =>
    refine ⟨h.holder, h.fenced.later hk, ?_, fun hκ => ?_⟩
    · exact Known.learn_inserted hi.tables.staged hk.inserted h.known hc.1 hcall
    · have hfits : c.fits action.binding r = c.clean r := by
        cases c with
        | getPrepared c =>
          obtain err | e := r
          · rfl
          · obtain rfl : c = ctx := hc.1
            exact decide_eq_true (get_bound hi.tables h.fenced hcall rfl)
        | _ => rfl
      have hor : (κ.2 || !c.clean r) = true := hfits ▸ hκ
      rcases hcl : c.clean r with _ | _
      · show Excused (_ ++ taint _ _ (c.clean r)) _
        rw [hcl]
        exact taint_excused _
      · have hold : κ.2 = true := by simpa [hcl] using hor
        have hquiet : c.sends = false := by
          cases c with
          | sendPrepared m => exact absurd (hold.symm.trans (hc.2 rfl)) nofun
          | _ => rfl
        exact ((acts_certain (.inr hquiet)).trans (taint_certain ..)).excused (h.excused hold)

theorem under_staged (h : p.Obeys (product ctx action.binding) post κ) (hk : Knows t ctx action κ w) :
    (under ctx p).Safe (staging pg ports) t q (fun a w => ∃ κ, post a κ ∧ Knows t ctx action κ w) w :=
  Prog.Obeys.safe (σ := SysSig) (τ := HandlerSig) (o := staging pg ports) (.handler ctx) (fun _ r => r)
    (Knows t ctx action) (fun hR hr => hR.later hr) (fun _ hR hc => hR.pre hc)
      (fun hi hR hc he => ⟨trivial, hR.next hi hc he⟩) h hk

/-- The staged row is deleted once the operation is terminal. -/
theorem staging_delete (hrow : ∃ row, w.store.row id = some row ∧ row.state.terminal = true) :
    (sys (.store (.deletePrepared id)) >>= fun _ => pure ()).Safe (staging pg ports) t q (fun _ _ => True) w := by
  intro w₁ hr _
  refine ⟨?_, fun _ _ _ _ _ _ => trivial⟩
  obtain ⟨row, hrow, ht⟩ := hrow
  obtain ⟨row', hrow', _, hst⟩ := hr.kept.rows id row hrow
  exact ⟨row', hrow', by rw [hst ht]; exact ht⟩

theorem staging_finish (hfails : ∀ e, err = some e → w.holder id = some t ∧ Excused w.history id) :
    (finishOperation id result err).Safe (staging pg ports) t q (fun _ _ => True) w := by
  intro w₁ hr _
  refine ⟨?_, fun r w₂ he => ?_⟩
  · cases err with
    | none => trivial
    | some e => exact (hr.holder id (hfails e rfl).1).2.excused (hfails e rfl).2
  obtain e | _ | _ := r
  · exact fun _ _ _ => trivial
  · exact fun _ _ _ => trivial
  · cases he.1 with
    | store hcall => exact staging_delete (pgFinish_terminal hcall)

theorem staging_cancel : (cancelOperation id).Safe (staging pg ports) t q (fun _ _ => True) w := by
  refine fun _ _ _ => ⟨trivial, fun r w₂ he => ?_⟩
  obtain e | ⟨⟩ := r
  · exact fun _ _ _ => trivial
  · cases he.1 with
    | store hcall => exact staging_delete (pgCancel_terminal pg hcall)

theorem staging_execute
    (hact : registeredAction capability operation = some action) (hf : w.store.Fenced record.context action) :
    (executeOperation (providerHandler ports capability) record operation' requestJSON).Safe (staging pg ports) t q
      (fun _ _ => True) w := by
  intro w₁ hr₁ hi₁
  have hf₁ := hf.later hr₁.kept
  have hcomplete : record.context.complete = true := by
    obtain ⟨row, hrow, hctx, _⟩ := hf₁
    have := hi₁.tables.complete _ row hrow
    rwa [hctx] at this
  refine ⟨trivial, fun r w₂ he₂ => ?_⟩
  have hf₂ := hf₁.later (hi₁.kept (c := .wrapInput _ _ _) trivial he₂)
  obtain ⟨hexec₂, _, hset, _⟩ := he₂
  cases hexec₂
  obtain e | wrapped := r
  · exact staging_finish fun _ _ => ⟨hset.holder, taint_excused _⟩
  · intro w₃ hr₃ hi₃
    have hh₃ := (hr₃.holder record.id hset.holder).1
    refine ⟨trivial, fun r w₄ he₄ => ?_⟩
    have hf₄ := (hf₂.later hr₃.kept).later (hi₃.kept (c := .enter _) trivial he₄)
    have hknows : Knows t record.context action (fun _ => False, false) w₄ := by
      cases he₄.1
      exact ⟨hh₃, hf₄, fun _ hm => hm.elim, fun hblamed => by cases hblamed⟩
    refine .bind (p := under record.context (providerHandler ports capability record.context wrapped)) StagedRely.refl
      (under_staged (providerHandler_obeys hcomplete hact) hknows) ?_
    rintro out w₅ _ ⟨κ, hout, hknows₅⟩ w₆ hr₆ _
    have hknows₆ := hknows₅.later hr₆
    refine ⟨trivial, fun r w₇ he₇ => ?_⟩
    cases he₇.1
    obtain e | result := out
    · dsimp only
      split
      · exact fun _ _ _ => ⟨trivial, fun _ _ _ _ _ _ => trivial⟩
      · exact staging_finish fun _ _ =>
          ⟨hknows₆.holder, (Certain.append (by simp [Act.opensDoubt])).excused (hknows₆.excused hout)⟩
    · exact staging_finish fun e he => by cases he

theorem staging_startOperation :
    (startOperation (productRegistry ports) req).Safe (staging pg ports) t q (fun _ _ => True) w := by
  unfold startOperation productRegistry
  rcases hact : registeredAction req.capabilityID req.operation with _ | action
  · exact fun _ _ _ => trivial
  intro w₁ _ _
  refine ⟨trivial, fun r w₂ he₂ => ?_⟩
  obtain e | existing := r
  · exact fun _ _ _ => trivial
  have hf : w₂.store.Fenced existing.context action := by
    cases he₂.1 with
    | store hcall =>
      rw [afterStore_store]
      exact pgStart_fenced pg hcall hact
  show Prog.Safe _ _ _ _ (if !existing.created then _ else _) _
  refine .ite (fun _ => ?_) fun _ => ?_
  · refine .ite (fun _ => ?_) fun _ => ?_
    · intro w₃ hr₃ hi₃
      refine ⟨trivial, fun r w₄ he₄ => ?_⟩
      obtain e | _ | _ := r
      · exact fun _ _ _ => trivial
      · exact fun _ _ _ => trivial
      · exact staging_execute hact ((hf.later hr₃.kept).later (hi₃.kept (c := .store (.claimReplay _)) trivial he₄))
    · exact fun _ _ _ => trivial
  · split
    · exact fun _ _ _ => trivial
    · exact staging_execute hact hf

theorem staging_valid (pg : Platform) (ports : Ports) : (staging pg ports).Valid where
  refl := .refl
  trans _ _ _ _ := .trans
  exec_inv hi hp he := hi.exec hp he
  exec_rely hne hi hp he := hi.rely hp he hne
  crash_inv hi hc := hi.crash hc
  fresh_rely _ _ := trivial
  fresh_crash _ _ := trivial
  entry {t q w} _ _ := by
    cases q with
    | start req => exact staging_startOperation
    | cancel id => exact staging_cancel

theorem staging_start (pg : Platform) (ports : Ports) :
    (staging pg ports).Holds (Pool.start (World.init (postgres pg))) :=
  Outline.Valid.start _ ⟨.empty, by simp [World.init], fun id row hrow _ => by cases hrow⟩ fun _ => trivial

/-- Every state of the server over PostgreSQL meets the outline. -/
theorem staging_of_run (h : ServerRun (postgres pg) (productRegistry ports) es s) : (staging pg ports).Holds s := by
  have hrun := (exclusion_valid (postgres_lawful pg) (productRegistry ports)).strengthen
    (exclusion_start (postgres_lawful pg) _) h
  exact (staging_valid pg ports).run (staging_start pg ports) hrun

end Programs

section Runs

variable {ports : Ports} {es : List (Pool.Ev SysSig Request)} {s s' : Server (postgres pg)}

theorem step_kept (h : (staging pg ports).Holds s)
    (hs : Pool.Step (exclusiveServer pg ports) s e s') : s.world.store.Kept s'.world.store := by
  cases hs with
  | arrive q => exact .refl _
  | answer hthread hexec =>
    have hp := (h.threads _ _ hthread _ (.refl _ _) h.inv).1
    exact h.inv.kept hp hexec
  | crash hcrash =>
    obtain ⟨⟨st, hst, rfl⟩, _⟩ := hcrash
    exact (Staging.restart h.inv.tables hst).2

theorem kept_of_run (h : ServerRun (postgres pg) (productRegistry ports) es s)
    (h' : Run (Pool.Step (server (postgres pg) (productRegistry ports))) s es' s') :
    s.world.store.Kept s'.world.store := by
  have hexcl := (exclusion_valid (postgres_lawful pg) (productRegistry ports)).run
    (exclusion_start (postgres_lawful pg) _) h
  have hrun := (exclusion_valid (postgres_lawful pg) (productRegistry ports)).strengthen hexcl h'
  exact hrun.rel (fun _ => .refl _) (fun _ _ _ => .trans) (fun _ _ _ hi hs => (staging_valid pg ports).step hi hs)
    (fun _ _ _ hi hs => step_kept hi hs) (staging_of_run h)

end Runs

end Dirextalk.Capability

/-
  Dirextalk.Operations.KeyedLocks — locks per key (`service_member_persistence.go`:
  `lockMemberWrite`; `service_operation_recovery.go`: `lockRecoverableOperation`,
  `lockMemberWorkflow`; `internal/contacts/module.go`: `SerializePeer`): the same code four
  times, each over a map of its own. Every operation of a mutex is a step, and the code under
  the map's mutex goes with its unlock. A goroutine with several keys stands for several.

  Proved (`keyed_locks`): at most one goroutine holds a key, all who use a key use one entry,
  and a key that nobody uses has no entry. A key that is no longer held may have one, until
  its holder has counted down (`entry_outlives_holder`).
-/
import Dirextalk.Lib.Run

namespace Dirextalk.Operations.KeyedLocks

open Function List Lib

inductive Stage where
  | waiting | holding | leaving | closing
  deriving DecidableEq

/-- A goroutine from when it has counted itself until it has counted down. -/
structure User where
  key : String
  entry : Nat
  stage : Stage

/-- The mutex of the map, and what the goroutine that has it is doing. -/
inductive MapMu where
  | free | looking (key : String) | closing

structure Locks where
  mapMu : MapMu
  users : List User
  entries : String → Option Nat
  refs : Nat → Nat
  mu : Nat → Bool

namespace Locks

def start : Locks := ⟨.free, [], fun _ => none, fun _ => 0, fun _ => false⟩

def enter (key : String) (e : Nat) (s : Locks) : Locks :=
  { s with mapMu := .free, users := ⟨key, e, .waiting⟩ :: s.users, refs := update s.refs e (s.refs e + 1) }

/-- `new` is the address of the entry that is made where the key has none. -/
def acquire (key : String) (new : Nat) (s : Locks) : Locks :=
  match s.entries key with
  | some e => s.enter key e
  | none =>
    enter key new
      { s with entries := update s.entries key (some new), refs := update s.refs new 0, mu := update s.mu new false }

def release (key : String) (e : Nat) (s : Locks) : Locks :=
  let refs := update s.refs e (s.refs e - 1)
  { s with refs := refs, entries := if refs e = 0 ∧ s.entries key = some e then update s.entries key none else s.entries }

inductive Act where
  | look | count | lock | unlock | close | done

/-- What goroutines do, each with its key. -/
inductive Step (s : Locks) : String × Act → Locks → Prop
  | look (key : String) (hmap : s.mapMu = .free) : Step s (key, .look) { s with mapMu := .looking key }
  | count (hmap : s.mapMu = .looking key) (new : Nat) (hnew : ∀ u ∈ s.users, u.entry ≠ new) :
      Step s (key, .count) (s.acquire key new)
  | lock (hu : s.users = before ++ ⟨key, e, .waiting⟩ :: rest) (hmu : s.mu e = false) :
      Step s (key, .lock) { s with users := before ++ ⟨key, e, .holding⟩ :: rest, mu := update s.mu e true }
  | unlock (hu : s.users = before ++ ⟨key, e, .holding⟩ :: rest) :
      Step s (key, .unlock) { s with users := before ++ ⟨key, e, .leaving⟩ :: rest, mu := update s.mu e false }
  | close (hu : s.users = before ++ ⟨key, e, .leaving⟩ :: rest) (hmap : s.mapMu = .free) :
      Step s (key, .close) { s with users := before ++ ⟨key, e, .closing⟩ :: rest, mapMu := .closing }
  | done (hu : s.users = before ++ ⟨key, e, .closing⟩ :: rest) :
      Step s (key, .done) { s.release key e with users := before ++ rest, mapMu := .free }

variable {s s' : Locks} {before rest : List User} {key : String} {e : Nat} {stage : Stage}

def names (s : Locks) : List (String × Nat) := s.users.map fun u => (u.key, u.entry)

def holds (e : Nat) (u : User) : Bool := u.entry = e ∧ u.stage = .holding

/-- Both counts are right, and no two keys share an entry. -/
structure Counted (s : Locks) : Prop where
  keys : ∀ key key' e, (key, e) ∈ s.names → (key', e) ∈ s.names → key = key'
  refs : ∀ e, s.refs e = s.names.countP (·.2 = e)
  held : ∀ e, (s.mu e).toNat = s.users.countP (holds e)

/-- The map has the entries in use. -/
structure Sound (s : Locks) : Prop extends Counted s where
  entries : ∀ key e, s.entries key = some e ↔ (key, e) ∈ s.names

theorem Sound.moved (h : Sound s) (hu : s.users = before ++ ⟨key, e, stage⟩ :: rest) (stage' : Stage) (m : MapMu)
    (mu : Nat → Bool)
    (hmu : ∀ e', (mu e').toNat + (if holds e' ⟨key, e, stage⟩ then 1 else 0) =
      (s.mu e').toNat + if holds e' ⟨key, e, stage'⟩ then 1 else 0) :
    Sound { s with users := before ++ ⟨key, e, stage'⟩ :: rest, mapMu := m, mu := mu } := by
  have hnames : names { s with users := before ++ ⟨key, e, stage'⟩ :: rest, mapMu := m, mu := mu } = s.names := by
    simp [names, hu]
  refine ⟨⟨hnames ▸ h.keys, hnames ▸ h.refs, fun e' => ?_⟩, hnames ▸ h.entries⟩
  have hheld := h.held e'
  have := hmu e'
  simp only [hu, countP_append, countP_cons] at hheld ⊢
  omega

theorem Counted.enter (h : Counted s) (hentries : ∀ k e', s.entries k = some e' ↔ (k, e') = (key, e) ∨ (k, e') ∈ s.names)
    (hkey : ∀ k, (k, e) ∈ s.names → k = key) : Sound (s.enter key e) where
  keys k k' e' hk hk' := by
    have := h.keys k k' e'
    simp only [names, Locks.enter, map_cons, mem_cons, Prod.mk.injEq] at *
    grind
  refs e' := by
    have := h.refs e'
    simp only [Locks.enter, names, update, map_cons, countP_cons] at *
    grind
  held e' := by simpa [Locks.enter, holds] using h.held e'
  entries k e' := by
    rw [Locks.enter, hentries]
    simp [names]

theorem Sound.count (h : Sound s) (new : Nat) (hnew : ∀ u ∈ s.users, u.entry ≠ new) : Sound (s.acquire key new) := by
  unfold acquire
  cases hkey : s.entries key with
  | some e =>
    have hmem := (h.entries key e).mp hkey
    refine h.toCounted.enter (fun k e' => ?_) fun k hk => h.keys _ _ _ hk hmem
    rw [h.entries, Prod.mk.injEq]
    grind
  | none =>
    have hfresh : ∀ k, (k, new) ∉ s.names := by simpa [names] using fun _ u hu _ => hnew u hu
    have hrefs : s.refs new = 0 := by
      rw [h.refs, countP_eq_zero]
      grind
    have hmu : s.mu new = false := by
      have hnone : s.users.countP (holds new) = 0 := countP_eq_zero.mpr fun u hu => by simp [holds, hnew u hu]
      simpa [hnone] using h.held new
    simp only [← hrefs, ← hmu, update_eq_self]
    refine Counted.enter { h with } (fun k e' => ?_) fun k hk => absurd hk (hfresh k)
    have := h.entries k e'
    simp only [update]
    grind [names]

theorem Sound.done (h : Sound s) (hu : s.users = before ++ ⟨key, e, .closing⟩ :: rest) :
    Sound { s.release key e with users := before ++ rest, mapMu := .free } := by
  let left := (before ++ rest).map fun u => (u.key, u.entry)
  have hmem (p : String × Nat) : p ∈ s.names ↔ p = (key, e) ∨ p ∈ left := by
    simp only [names, hu, left]
    grind
  have hcount (e' : Nat) : s.refs e' = left.countP (·.2 = e') + if e = e' then 1 else 0 := by
    simp only [h.refs, names, hu, left]
    grind
  have hkey : (key, e) ∈ s.names := (hmem _).mpr (.inl rfl)
  have hrefs (e' : Nat) : update s.refs e (s.refs e - 1) e' = left.countP (·.2 = e') := by
    simp only [update, hcount]
    grind
  refine ⟨⟨fun k k' e' hk hk' => ?_, hrefs, fun e' => ?_⟩, fun k e' => ?_⟩
  · exact h.keys k k' e' ((hmem _).mpr (.inr hk)) ((hmem _).mpr (.inr hk'))
  · simpa [hu, holds, release] using h.held e'
  have hold := h.entries k e'
  have hown := (h.entries key e).mpr hkey
  change (if _ then update s.entries key none else s.entries) k = some e' ↔ (k, e') ∈ left
  rw [hrefs]
  split
  case isTrue hlast =>
    have hfree : ∀ p ∈ left, ¬p.2 = e := by simpa using countP_eq_zero.mp hlast.1
    grind
  case isFalse hothers =>
    obtain ⟨p, hp, he⟩ : ∃ p ∈ left, p.2 = e := by
      simpa using countP_pos_iff.mp (Nat.pos_of_ne_zero fun hzero => hothers ⟨hzero, hown⟩)
    have hsame := h.keys key p.1 e hkey ((hmem _).mpr (.inr (he ▸ hp)))
    grind

theorem Step.sound (hs : Step s act s') (h : Sound s) : Sound s' := by
  cases hs with
  | look => exact ⟨{ h with }, h.entries⟩
  | count _ new hnew => exact h.count new hnew
  | lock hu hmu => exact h.moved hu .holding _ _ fun e' => by grind [holds]
  | @unlock _ _ _ e hu =>
    have hmu : s.mu e ≠ false := fun hmu => by simpa [hu, hmu, holds] using h.held e
    exact h.moved hu .leaving _ _ fun e' => by grind [holds]
  | close hu => exact h.moved hu .closing _ _ fun e' => by simp [holds]
  | done hu => exact h.done hu

theorem run_sound (h : Run Step .start acts s) : Sound s :=
  h.inv (fun _ _ _ hi hs => hs.sound hi) ⟨⟨nofun, fun _ => rfl, fun _ => rfl⟩, fun _ _ => ⟨nofun, nofun⟩⟩

/-- A key is held by one goroutine at most, all who use it use one entry, and it has none once nobody uses it. -/
theorem keyed_locks {acts : List (String × Act)} (h : Run Step .start acts s) (key : String) :
    (s.users.countP fun u => u.key = key ∧ u.stage = .holding) ≤ 1 ∧
    (∀ u ∈ s.users, ∀ v ∈ s.users, u.key = key → v.key = key → u.entry = v.entry) ∧
    ((∀ u ∈ s.users, u.key ≠ key) → s.entries key = none) := by
  have hentry (u : User) (hu : u ∈ s.users) (hkey : u.key = key) : s.entries key = some u.entry :=
    hkey ▸ ((run_sound h).entries u.key u.entry).mpr (mem_map.mpr ⟨u, hu, rfl⟩)
  refine ⟨?_, fun u hu v hv hkey hkey' => ?_, fun hnone => ?_⟩
  · let e := (s.entries key).getD 0
    have hle : (s.users.countP fun u => u.key = key ∧ u.stage = .holding) ≤ s.users.countP (holds e) := by
      refine countP_mono_left fun u hu hheld => ?_
      have := hentry u hu
      grind [holds]
    have := (run_sound h).held e
    have := (s.mu e).toNat_le
    omega
  · exact Option.some.inj ((hentry u hu hkey).symm.trans (hentry v hv hkey'))
  · refine Option.eq_none_iff_forall_ne_some.mpr fun e he => ?_
    obtain ⟨u, hu, hname⟩ := mem_map.mp (((run_sound h).entries key e).mp he)
    exact hnone u hu (Prod.mk.inj hname).1

/-- One goroutine has the key, one waits for it, and a third has another. -/
theorem run_waiting : ∃ acts s, Run Step .start acts s ∧
    s.users = [⟨"l", 1, .holding⟩, ⟨"k", 0, .waiting⟩, ⟨"k", 0, .holding⟩] ∧ s.entries "k" = some 0 := by
  have hfirst := ((Run.nil start).snoc (Step.look "k" rfl)).snoc (Step.count rfl 0 (by simp [start]))
  have hheld := hfirst.snoc (@Step.lock _ [] [] 0 "k" rfl rfl)
  have hsecond := (hheld.snoc (Step.look "k" rfl)).snoc (Step.count rfl 2 (by simp))
  have hthird := (hsecond.snoc (Step.look "l" rfl)).snoc (Step.count rfl 1 (by simp [acquire, enter, start]))
  exact ⟨_, _, hthird.snoc (@Step.lock _ [] _ 1 "l" rfl rfl), rfl, rfl⟩

theorem keyed_locks_waiting : ∃ acts s, Run Step .start acts s ∧
    (s.users.countP fun u => u.key = "k" ∧ u.stage = .holding) = 1 ∧ (s.users.countP fun u => u.key = "k") = 2 ∧
    ∀ u ∈ s.users, ∀ v ∈ s.users, u.key = "k" → v.key = "k" → u.entry = v.entry :=
  have ⟨acts, s, hs, hu, _⟩ := run_waiting
  ⟨acts, s, hs, Nat.le_antisymm (keyed_locks hs "k").1 (by simp [hu]), by simp [hu], (keyed_locks hs "k").2.1⟩

/-- The holder has unlocked its entry and not counted down yet. -/
theorem entry_outlives_holder : ¬∀ acts s, Run Step .start acts s → ∀ key,
    (∀ u ∈ s.users, u.key = key → u.stage ≠ .waiting ∧ u.stage ≠ .holding) → s.entries key = none := by
  have hcount := ((Run.nil start).snoc (Step.look "k" rfl)).snoc (Step.count rfl 0 (by simp [start]))
  have hlock := hcount.snoc (@Step.lock _ [] [] 0 "k" rfl rfl)
  have hunlock := hlock.snoc (@Step.unlock _ [] [] "k" 0 rfl)
  intro h
  cases h _ _ hunlock "k" (by simp)

end Locks

end Dirextalk.Operations.KeyedLocks

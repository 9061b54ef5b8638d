/-
  Dirextalk.Lib.Interned — a table that stores each content once, under a number of a sequence.

  `INSERT … ON CONFLICT (hash) DO UPDATE … RETURNING`: a content that is there already is
  answered with the number it was given first, and a new one gets a number above all others
  (`insert_cases`). The sequence moves on in both cases. Contents stand for their hashes,
  which is right if these are `CollisionFree` (`find_conflict`).
-/
import Dirextalk.Lib.Overlay
import Dirextalk.Lib.Rows

namespace Dirextalk.Lib

open List

/-- The rows stand in the order of their numbers. -/
structure Interned (α : Type) where
  rows : List (Nat × α)
  next : Nat
  sorted : rows.Pairwise (·.1 < ·.1)
  below : ∀ r ∈ rows, r.1 < next
  distinct : (rows.map (·.2)).Nodup

namespace Interned

variable {α : Type}

/-- Sequences start at 1. -/
def empty : Interned α := ⟨[], 1, .nil, by simp, .nil⟩

def find (t : Interned α) (n : Nat) : Option α := (t.rows.find? (·.1 = n)).map (·.2)

def number [DecidableEq α] (t : Interned α) (a : α) : Option Nat := (t.rows.find? (·.2 = a)).map (·.1)

def select (t : Interned α) (ns : List Nat) : List (Nat × α) := t.rows.filter (·.1 ∈ ns)

def insert [DecidableEq α] (t : Interned α) (a : α) : Nat × Interned α :=
  match h : t.rows.find? (·.2 = a) with
  | some r => (r.1, { t with next := t.next + 1, below := fun r hr => Nat.lt_succ_of_lt (t.below r hr) })
  | none =>
    (t.next,
      { rows := t.rows ++ [(t.next, a)]
        next := t.next + 1
        sorted := pairwise_append.mpr ⟨t.sorted, pairwise_singleton _ _, by simpa using t.below⟩
        below := by
          intro r hr
          obtain hr | hr := mem_append.mp hr
          · exact Nat.lt_succ_of_lt (t.below r hr)
          · rw [mem_singleton.mp hr]
            exact Nat.lt_succ_self _
        distinct := by
          rw [map_append, nodup_append']
          refine ⟨t.distinct, by simp, fun b hb ha => ?_⟩
          obtain ⟨r, hr, rfl⟩ := mem_map.mp hb
          exact absurd (by simpa using ha) (by simpa using find?_eq_none.mp h r hr) })

variable {t : Interned α} {a b : α} {m n : Nat}

/-- No two contents have one hash. -/
abbrev CollisionFree {η : Type} (hash : α → η) : Prop := Function.Injective hash

/-- The row that has the hash is the row that `insert` looks for. -/
theorem find_conflict {η : Type} [DecidableEq α] [DecidableEq η] {hash : α → η} (h : CollisionFree hash) :
    t.rows.find? (hash ·.2 = hash a) = t.rows.find? (·.2 = a) := by
  simp only [h.eq_iff]

theorem find_eq_some : t.find n = some a ↔ (n, a) ∈ t.rows := by
  have hunique := pairwise_map.mpr (t.sorted.imp Nat.ne_of_lt)
  have hfind := fun r => (⟨t.rows, hunique⟩ : Rows Prod.fst).find_eq_some (k := n) (a := r)
  rw [find, Option.map_eq_some_iff]
  constructor
  · rintro ⟨r, hr, rfl⟩
    obtain ⟨hmem, rfl⟩ := (hfind r).mp hr
    exact hmem
  · intro h
    exact ⟨(n, a), (hfind _).mpr ⟨h, rfl⟩, rfl⟩

/-- A content has one number. -/
theorem find_inj (h : t.find m = some a) (h' : t.find n = some a) : m = n := by
  have hrow := inj_on_of_nodup_map t.distinct (find_eq_some.mp h) (find_eq_some.mp h') rfl
  exact congrArg Prod.fst hrow

/-- Known numbers in order are answered row by row. -/
theorem select_eq [Inhabited α] {ns : List Nat} (hsorted : ns.Pairwise (· < ·)) (hknown : ∀ n ∈ ns, (t.find n).isSome) :
    t.select ns = ns.map fun n => (n, (t.find n).getD default) := by
  apply eq_of_sorted Prod.fst (t.sorted.filter _) (pairwise_map.mpr hsorted)
  rintro ⟨n, a⟩
  simp only [mem_filter, decide_eq_true_eq, ← find_eq_some, mem_map, Prod.mk.injEq]
  constructor
  · rintro ⟨ha, hn⟩
    exact ⟨n, hn, rfl, by rw [ha]; rfl⟩
  · rintro ⟨m, hm, rfl, rfl⟩
    obtain ⟨a, ha⟩ := Option.isSome_iff_exists.mp (hknown m hm)
    exact ⟨by rw [ha]; rfl, hm⟩

variable [DecidableEq α]

/-- A content is found under the number it had, or is new and gets a number above all others. -/
theorem insert_cases (t : Interned α) (a : α) :
    (t.find (t.insert a).1 = some a ∧ ∀ n, (t.insert a).2.find n = t.find n) ∨
      ((∀ n, t.find n ≠ some a) ∧ (∀ n b, t.find n = some b → n < (t.insert a).1) ∧
        ∀ n b, (t.insert a).2.find n = some b ↔ t.find n = some b ∨ n = (t.insert a).1 ∧ b = a) := by
  unfold insert
  split
  · rename_i r hr
    have ha : r.2 = a := by simpa using find?_some hr
    refine .inl ⟨?_, fun _ => rfl⟩
    rw [find_eq_some, ← ha]
    exact mem_of_find?_eq_some hr
  · rename_i hnone
    refine .inr ⟨fun n h => ?_, fun n b h => t.below _ (find_eq_some.mp h), fun n b => ?_⟩
    · simpa using find?_eq_none.mp hnone _ (find_eq_some.mp h)
    · rw [find_eq_some, find_eq_some, mem_append, mem_singleton, Prod.mk.injEq]

theorem find_insert_self (t : Interned α) (a : α) : (t.insert a).2.find (t.insert a).1 = some a := by
  obtain ⟨hfind, hsame⟩ | ⟨-, -, hfind⟩ := t.insert_cases a
  · rw [hsame, hfind]
  · exact (hfind _ _).mpr (.inr ⟨rfl, rfl⟩)

/-- What is there stays. -/
theorem find_insert (h : t.find n = some b) (a : α) : (t.insert a).2.find n = some b := by
  obtain ⟨-, hsame⟩ | ⟨-, -, hfind⟩ := t.insert_cases a
  · rw [hsame, h]
  · exact (hfind _ _).mpr (.inl h)

theorem of_find_insert (h : (t.insert a).2.find n = some b) : t.find n = some b ∨ n = (t.insert a).1 ∧ b = a := by
  obtain ⟨-, hsame⟩ | ⟨-, -, hfind⟩ := t.insert_cases a
  · exact .inl (by rw [← hsame, h])
  · exact (hfind _ _).mp h

theorem number_eq_some : t.number a = some n ↔ t.find n = some a := by
  have hfind := fun r => (⟨t.rows, t.distinct⟩ : Rows Prod.snd).find_eq_some (k := a) (a := r)
  rw [number, find_eq_some, Option.map_eq_some_iff]
  constructor
  · rintro ⟨r, hr, rfl⟩
    obtain ⟨hmem, rfl⟩ := (hfind r).mp hr
    exact hmem
  · intro h
    exact ⟨(n, a), (hfind _).mpr ⟨h, rfl⟩, rfl⟩

/-- What is there stays when more is added. -/
theorem find_foldl_insert (h : t.find n = some b) (as : List α) : (as.foldl (fun t a => (t.insert a).2) t).find n = some b := by
  induction as generalizing t with
  | nil => exact h
  | cons a as ih => exact ih (find_insert h a)

end Interned

end Dirextalk.Lib

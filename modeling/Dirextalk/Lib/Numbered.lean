/-
  Dirextalk.Lib.Numbered — append-only logs whose entries carry consecutive numbers.

  `Numbered seq b l` says that the entries of `l` are numbered `b + 1, b + 2, …`. The next
  number is allocated as SQL does it, from the largest number stored (`nextNumber`).
-/
import Mathlib.Data.List.Basic

namespace Dirextalk.Lib

open List

variable {α : Type} {seq : α → Nat} {b : Nat} {l : List α}

def Numbered (seq : α → Nat) (b : Nat) (l : List α) : Prop :=
  l.map seq = range' (b + 1) l.length

/-- `COALESCE(MAX(seq),0)+1`. -/
def nextNumber (seq : α → Nat) (l : List α) : Nat := (l.map seq).foldr max 0 + 1

namespace Numbered

theorem nil : Numbered seq b ([] : List α) := rfl

theorem snoc {a : α} (h : Numbered seq b l) (ha : seq a = b + l.length + 1) : Numbered seq b (l ++ [a]) := by
  rw [Numbered, map_append, h, length_append, length_singleton, range'_concat,
    map_singleton, ha]
  congr 2
  omega

theorem cons_iff {a : α} : Numbered seq b (a :: l) ↔ seq a = b + 1 ∧ Numbered seq (b + 1) l := by
  simp [Numbered, range'_succ]

theorem take (h : Numbered seq b l) (k : Nat) : Numbered seq b (l.take k) := by
  induction k generalizing b l with
  | zero => simpa using nil
  | succ k ih =>
    cases l with
    | nil => simpa using nil
    | cons a l =>
      obtain ⟨ha, hl⟩ := cons_iff.mp h
      exact cons_iff.mpr ⟨ha, ih hl⟩

theorem drop (h : Numbered seq b l) {k : Nat} (hk : k ≤ l.length) : Numbered seq (b + k) (l.drop k) := by
  induction k generalizing b l with
  | zero => simpa using h
  | succ k ih =>
    cases l with
    | nil => simp at hk
    | cons a l =>
      have hl := ih (cons_iff.mp h).2 (by simpa using hk)
      rw [drop_succ_cons, ← Nat.add_assoc, Nat.add_right_comm]
      exact hl

/-- The entries numbered `lo + 1 … hi` of a log that is numbered from 1. -/
theorem window (h : Numbered seq 0 l) {lo hi : Nat} (hlo : lo ≤ hi) (hhi : hi ≤ l.length) :
    Numbered seq lo ((l.take hi).drop lo) := by
  have hcut := (h.take hi).drop (k := lo) (by rw [length_take]; omega)
  rwa [Nat.zero_add] at hcut

theorem mem_map_iff (h : Numbered seq b l) {n : Nat} : n ∈ l.map seq ↔ b < n ∧ n ≤ b + l.length := by
  rw [h, mem_range'_1]
  omega

theorem pairwise (h : Numbered seq b l) : l.Pairwise (seq · < seq ·) := by
  rw [← pairwise_map (f := seq) (R := (· < ·)), h]
  exact pairwise_lt_range'

/-- Selecting the numbers above a bound is dropping the entries up to it. -/
theorem filter_above (h : Numbered seq b l) (after : Int) :
    l.filter (fun a => decide (after < seq a)) = l.drop (after.toNat - b) := by
  induction l generalizing b with
  | nil => simp
  | cons a l ih =>
    obtain ⟨ha, hl⟩ := cons_iff.mp h
    by_cases hlt : after < seq a
    · have hall : after.toNat - (b + 1) = 0 := by omega
      have hnone : after.toNat - b = 0 := by omega
      rw [filter_cons_of_pos (by simpa using hlt), ih hl, hall, hnone, drop_zero, drop_zero]
    · have hskip : after.toNat - b = (after.toNat - (b + 1)) + 1 := by omega
      rw [filter_cons_of_neg (by simpa using hlt), ih hl, hskip, drop_succ_cons]

end Numbered

private theorem foldr_max_range' (s n : Nat) : (range' (s + 1) n).foldr max 0 = if n = 0 then 0 else s + n := by
  induction n generalizing s with
  | zero => rfl
  | succ n ih =>
    rw [range'_succ, foldr_cons, ih (s + 1)]
    split
    · simp_all
    · simp_all; omega

theorem Numbered.next (h : Numbered seq 0 l) : nextNumber seq l = l.length + 1 := by
  rw [nextNumber, h, foldr_max_range']
  split <;> omega

end Dirextalk.Lib

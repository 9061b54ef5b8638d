/-
  Dirextalk.Lib.Paging — rows ordered by a key, and reading them page by page.

  `Ascending key l` says that the keys of `l` increase strictly. A page is what
  `WHERE key > c ORDER BY key LIMIT n` returns (`page`), and `rank` counts the rows between
  a cursor and a row: what a reader has still to be given before it is given the row.
-/
import Mathlib.Data.List.Basic
import Mathlib.Order.Basic
import Mathlib.Data.Int.Order.Basic

namespace Dirextalk.Lib

open List

variable {α : Type} {key : α → Int} {l : List α} {a x y : α} {c : Int} {n : Nat}

def Ascending (key : α → Int) (l : List α) : Prop := l.Pairwise (key · < key ·)

def insertByKey (key : α → Int) (a : α) (l : List α) : List α :=
  l.filter (key · < key a) ++ a :: l.filter (key a < key ·)

def page (key : α → Int) (c : Int) (n : Nat) (l : List α) : List α := (l.filter (c < key ·)).take n

/-- The rows above the cursor `c`, up to `x`. -/
def rank (key : α → Int) (c : Int) (x : α) (l : List α) : Nat :=
  (l.filter fun y => c < key y ∧ key y ≤ key x).length

namespace Ascending

theorem nil : Ascending key [] := Pairwise.nil

section

variable (h : Ascending key l)
include h

theorem nodup : l.Nodup :=
  Pairwise.imp (fun hlt heq => absurd hlt (by rw [heq]; exact Int.lt_irrefl _)) h

theorem filter (p : α → Bool) : Ascending key (l.filter p) := Pairwise.filter p h

theorem snoc (ha : ∀ y ∈ l, key y < key a) : Ascending key (l ++ [a]) := by
  refine pairwise_append.mpr ⟨h, pairwise_singleton _ _, fun y hy z hz => ?_⟩
  rw [mem_singleton.mp hz]
  exact ha y hy

theorem insertByKey (a : α) : Ascending key (insertByKey key a l) := by
  have hlow : ∀ y ∈ l.filter (key · < key a), key y < key a := fun y hy => by
    simpa using (mem_filter.mp hy).2
  have hhigh : ∀ y ∈ l.filter (key a < key ·), key a < key y := fun y hy => by
    simpa using (mem_filter.mp hy).2
  refine pairwise_append.mpr ⟨h.filter _, pairwise_cons.mpr ⟨hhigh, h.filter _⟩, ?_⟩
  intro y hy z hz
  obtain rfl | hz := mem_cons.mp hz
  · exact hlow y hy
  · exact (hlow y hy).trans (hhigh z hz)

theorem le_getLast (hlast : l.getLast? = some a) (hx : x ∈ l) : key x ≤ key a := by
  obtain ⟨init, rfl⟩ := getLast?_eq_some_iff.mp hlast
  obtain hold | hnew := mem_append.mp hx
  · exact ((pairwise_append.mp h).2.2 x hold a (by simp)).le
  · rw [mem_singleton.mp hnew]

theorem page : Ascending key (page key c n l) :=
  (h.filter _).sublist (take_sublist _ _)

end

end Ascending

theorem mem_insertByKey (h : ∀ y ∈ l, key y ≠ key a) : x ∈ insertByKey key a l ↔ x = a ∨ x ∈ l := by
  simp only [insertByKey, mem_append, mem_cons, mem_filter, decide_eq_true_eq]
  constructor
  · rintro (⟨hx, _⟩ | rfl | ⟨hx, _⟩)
    · exact .inr hx
    · exact .inl rfl
    · exact .inr hx
  · rintro (rfl | hx)
    · exact .inr (.inl rfl)
    · obtain hlt | hgt := lt_or_gt_of_ne (h x hx)
      · exact .inl ⟨hx, hlt⟩
      · exact .inr (.inr ⟨hx, hgt⟩)

theorem mem_page (h : x ∈ page key c n l) : x ∈ l ∧ c < key x := by
  have hx := mem_filter.mp (mem_of_mem_take h)
  exact ⟨hx.1, by simpa using hx.2⟩

/-- A row that a page leaves out stands above everything on it, and the page is full. -/
theorem not_mem_page (h : Ascending key l) (hx : x ∈ l) (hc : c < key x) (hout : x ∉ page key c n l) :
    (∀ y ∈ page key c n l, key y < key x) ∧ (page key c n l).length = n := by
  have hmem : x ∈ l.filter (c < key ·) := mem_filter.mpr ⟨hx, by simpa using hc⟩
  have hrest : x ∈ (l.filter (c < key ·)).drop n := by
    rw [← take_append_drop n (l.filter (c < key ·)), mem_append] at hmem
    exact hmem.resolve_left hout
  refine ⟨fun y hy => ?_, ?_⟩
  · have hsplit := h.filter (c < key ·)
    rw [Ascending, ← take_append_drop n (l.filter (c < key ·))] at hsplit
    exact (pairwise_append.mp hsplit).2.2 y hy x hrest
  · have hlen := length_pos_of_mem hrest
    rw [length_drop] at hlen
    rw [page, length_take]
    omega

theorem insertByKey_above (h : ∀ y ∈ l, key y < key a) : insertByKey key a l = l ++ [a] := by
  have hall : l.filter (key · < key a) = l := filter_eq_self.mpr fun y hy => by simpa using h y hy
  have hnone : l.filter (key a < key ·) = [] :=
    filter_eq_nil_iff.mpr fun y hy => by simpa using (h y hy).le
  rw [insertByKey, hall, hnone]

theorem rank_snoc_above (h : key x < key a) : rank key c x (l ++ [a]) = rank key c x l := by
  have hnone : [a].filter (fun y => decide (c < key y ∧ key y ≤ key x)) = [] :=
    filter_eq_nil_iff.mpr fun y hy => by
      obtain rfl := mem_singleton.mp hy
      simpa using fun _ => h
  rw [rank, filter_append, hnone, append_nil, rank]

theorem rank_pos (hx : x ∈ l) (hc : c < key x) : 0 < rank key c x l :=
  length_pos_of_mem (mem_filter.mpr ⟨hx, by simpa using hc⟩)

/-- A page of some size that leaves `x` out brings the cursor closer to it. -/
theorem rank_page_lt (h : Ascending key l) (hx : x ∈ l) (hc : c < key x) (hn : 0 < n)
    (hout : x ∉ page key c n l) {c' : Int} (hle : c ≤ c') (hc' : ∀ y ∈ page key c n l, key y ≤ c') :
    rank key c' x l < rank key c x l := by
  obtain ⟨hbelow, hfull⟩ := not_mem_page h hx hc hout
  obtain ⟨y, hy⟩ := exists_mem_of_length_pos (hfull ▸ hn)
  obtain ⟨hyl, hyc⟩ := mem_page hy
  -- the rows that count for `c'` count for `c`, and the row `y` of the page counts for `c` only
  have hsub : l.filter (fun z => decide (c' < key z ∧ key z ≤ key x)) =
      (l.filter fun z => decide (c < key z ∧ key z ≤ key x)).filter fun z => decide (c' < key z) := by
    rw [filter_filter]
    refine filter_congr fun z _ => ?_
    rw [← Bool.decide_and]
    exact decide_eq_decide.mpr ⟨fun hz => ⟨hz.1, by omega, hz.2⟩, fun hz => ⟨hz.1, hz.2.2⟩⟩
  rw [rank, rank, hsub]
  refine length_filter_lt_length_iff_exists.mpr ⟨y, mem_filter.mpr ⟨hyl, ?_⟩, ?_⟩
  · simpa using ⟨hyc, (hbelow y hy).le⟩
  · simpa using hc' y hy

/-- A page that does not hold all rows ends with a row. -/
theorem page_split (h0 : 0 < n) (h : n < l.length) : ∃ init a post, l.take n = init ++ [a] ∧ l = init ++ a :: post := by
  obtain ⟨m, rfl⟩ := Nat.exists_eq_add_of_lt h0
  have hm : 0 + m < l.length := by omega
  refine ⟨l.take (0 + m), l[0 + m], l.drop (0 + m + 1), take_succ_eq_append_getElem hm, ?_⟩
  rw [← drop_eq_getElem_cons hm, take_append_drop]

end Dirextalk.Lib

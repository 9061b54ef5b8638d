/-
  Dirextalk.Lib.Rows — a table of rows with a unique key: lookup, `INSERT … ON CONFLICT DO
  UPDATE`, `UPDATE … WHERE`, `DELETE … WHERE` and a count.

  Each statement has one lemma that says what a lookup by key finds after it. The order of
  the rows is the order in which a query without `ORDER BY` happens to return them.
-/
import Mathlib.Data.List.Nodup

namespace Dirextalk.Lib

open List

structure Rows {α κ : Type} (key : α → κ) where
  rows : List α
  unique : (rows.map key).Nodup

namespace Rows

variable {α κ : Type} [DecidableEq κ] {key : α → κ}

def empty : Rows key := ⟨[], nodup_nil⟩

def find (t : Rows key) (k : κ) : Option α := t.rows.find? (key · = k)

variable {k : κ} {a : α} {t : Rows key}

theorem find_eq_some (t : Rows key) : t.find k = some a ↔ a ∈ t.rows ∧ key a = k := by
  constructor
  · intro h
    exact ⟨mem_of_find?_eq_some h, by simpa using find?_some h⟩
  · rintro ⟨ha, rfl⟩
    unfold find
    cases h : t.rows.find? (key · = key a) with
    | none => simpa using find?_eq_none.mp h a ha
    | some b =>
      have hb : key b = key a := by simpa using find?_some h
      rw [inj_on_of_nodup_map t.unique (mem_of_find?_eq_some h) ha hb]

theorem key_of_find (h : t.find k = some a) : key a = k := (t.find_eq_some.mp h).2

@[simp] theorem find_empty (k : κ) : (empty : Rows key).find k = none := rfl

/-- A lookup is determined by the rows it can find. -/
theorem find_eq_of_mem (h : ∀ a, a ∈ t.rows ∧ key a = k ↔ o = some a) : t.find k = o := by
  apply Option.ext
  intro a
  rw [t.find_eq_some, h]

/-! ## Statements -/

/-- Replace the row of the same key, or add one. -/
def put (t : Rows key) (x : α) : Rows key where
  rows := if t.rows.any (key · = key x) then t.rows.map fun a => if key a = key x then x else a else t.rows ++ [x]
  unique := by
    split
    · have hkeys : (t.rows.map fun a => if key a = key x then x else a).map key = t.rows.map key := by
        rw [map_map]
        apply map_congr_left
        intro a _
        by_cases h : key a = key x <;> simp [h]
      rw [hkeys]
      exact t.unique
    · rename_i hnew
      simp only [any_eq_true, decide_eq_true_eq, not_exists, not_and] at hnew
      rw [map_append, nodup_append']
      refine ⟨t.unique, by simp, ?_⟩
      intro k hk hx
      obtain ⟨a, ha, rfl⟩ := mem_map.mp hk
      exact hnew a ha (by simpa using hx)

/-- Change the rows that match, which keep their keys. -/
def modify (t : Rows key) (p : α → Bool) (f : α → α) (hf : ∀ a, key (f a) = key a) : Rows key where
  rows := t.rows.map fun a => if p a then f a else a
  unique := by
    have hkeys : (t.rows.map fun a => if p a then f a else a).map key = t.rows.map key := by
      rw [map_map]
      apply map_congr_left
      intro a _
      by_cases h : p a <;> simp [h, hf]
    rw [hkeys]
    exact t.unique

/-- Remove the rows that match. -/
def delete (t : Rows key) (p : α → Bool) : Rows key where
  rows := t.rows.filter (!p ·)
  unique := t.unique.sublist (filter_sublist.map key)

theorem mem_put : a ∈ (t.put x).rows ↔ a = x ∨ a ∈ t.rows ∧ key a ≠ key x := by
  unfold put
  by_cases hany : t.rows.any (key · = key x)
  · obtain ⟨b, hb, hkey⟩ := any_eq_true.mp hany
    simp only [hany, if_true, mem_map]
    constructor
    · rintro ⟨c, hc, rfl⟩
      by_cases h : key c = key x <;> simp [h, hc]
    · rintro (rfl | ⟨ha, hne⟩)
      · exact ⟨b, hb, if_pos (of_decide_eq_true hkey)⟩
      · exact ⟨a, ha, by simp [hne]⟩
  · simp only [hany, Bool.false_eq_true, if_false, mem_append, mem_singleton]
    simp only [any_eq_true, decide_eq_true_eq, not_exists, not_and] at hany
    constructor
    · rintro (ha | rfl)
      · exact .inr ⟨ha, hany a ha⟩
      · exact .inl rfl
    · rintro (rfl | ⟨ha, -⟩)
      · exact .inr rfl
      · exact .inl ha

variable (t)

theorem find_put (x : α) (k : κ) : (t.put x).find k = if key x = k then some x else t.find k := by
  apply find_eq_of_mem
  intro a
  rw [mem_put]
  by_cases h : key x = k
  · subst h
    simp only [if_true, Option.some.injEq]
    constructor
    · rintro ⟨rfl | ⟨-, hne⟩, hkey⟩
      · rfl
      · exact absurd hkey hne
    · rintro rfl
      exact ⟨.inl rfl, rfl⟩
  · rw [if_neg h, t.find_eq_some]
    constructor
    · rintro ⟨rfl | ⟨ha, -⟩, hkey⟩
      · exact absurd hkey h
      · exact ⟨ha, hkey⟩
    · rintro ⟨ha, rfl⟩
      exact ⟨.inr ⟨ha, fun heq => h heq.symm⟩, rfl⟩

@[simp] theorem find_put_self (x : α) : (t.put x).find (key x) = some x := by rw [find_put, if_pos rfl]

variable (p : α → Bool)

theorem find_modify (f : α → α) (hf : ∀ a, key (f a) = key a) (k : κ) :
    (t.modify p f hf).find k = (t.find k).map fun a => if p a then f a else a := by
  apply find_eq_of_mem
  intro b
  have hkey : ∀ a, key (if p a then f a else a) = key a := by
    intro a
    by_cases h : p a <;> simp [h, hf]
  simp only [modify, mem_map, Option.map_eq_some_iff, t.find_eq_some]
  constructor
  · rintro ⟨⟨a, ha, rfl⟩, hk⟩
    exact ⟨a, ⟨ha, by rw [← hk, hkey]⟩, rfl⟩
  · rintro ⟨a, ⟨ha, rfl⟩, rfl⟩
    exact ⟨⟨a, ha, rfl⟩, hkey a⟩

theorem find_delete (k : κ) : (t.delete p).find k = (t.find k).filter (!p ·) := by
  apply find_eq_of_mem
  intro a
  simp only [delete, mem_filter, Option.filter_eq_some_iff, t.find_eq_some]
  constructor
  · rintro ⟨⟨ha, hp⟩, hk⟩
    exact ⟨⟨ha, hk⟩, hp⟩
  · rintro ⟨⟨ha, hk⟩, hp⟩
    exact ⟨⟨ha, hp⟩, hk⟩

theorem rows_put_of_new {t : Rows key} (h : ∀ a ∈ t.rows, key a ≠ key x) : (t.put x).rows = t.rows ++ [x] := by
  have hany : t.rows.any (key · = key x) = false := by simpa using h
  simp [put, hany]

variable {β : Type}

omit [DecidableEq κ] in
/-- What the change leaves alone, it leaves alone in every row. -/
theorem map_modify (f : α → α) (hf : ∀ a, key (f a) = key a)
    (hg : ∀ a, g (f a) = g a) : (t.modify p f hf).rows.map g = t.rows.map g := by
  simp only [modify, map_map]
  apply map_congr_left
  intro a _
  by_cases h : p a <;> simp [h, hg]

/-! ## Rows of a class -/

/-- Some row of the class is in one of the tables and not in the other. -/
def Differ {β : Type} (f : α → β) (c : β) (t t' : Rows key) : Prop := ∃ a, f a = c ∧ ¬(a ∈ t.rows ↔ a ∈ t'.rows)

omit [DecidableEq κ] in
theorem not_differ_self : ¬Differ f c t t := fun ⟨_, _, h⟩ => h Iff.rfl

theorem differ_put_iff {f : α → β} {P : β → Prop} (x : α) :
    (∀ c, Differ f c t (t.put x) → P c) ↔ t.find (key x) = some x ∨ P (f x) ∧ ∀ old, t.find (key x) = some old → P (f old) := by
  constructor
  · intro h
    by_cases hsame : t.find (key x) = some x
    · exact .inl hsame
    · refine .inr ⟨h _ ⟨x, rfl, fun hiff => hsame ?_⟩, fun old hold => h _ ⟨old, rfl, fun hiff => hsame ?_⟩⟩
      · exact t.find_eq_some.mpr ⟨hiff.mpr (mem_put.mpr (.inl rfl)), rfl⟩
      · obtain ⟨hmem, hkey⟩ := t.find_eq_some.mp hold
        obtain rfl | ⟨-, hne⟩ := mem_put.mp (hiff.mp hmem)
        · exact hold
        · exact absurd hkey hne
  · rintro h c ⟨a, rfl, hiff⟩
    rw [mem_put] at hiff
    obtain hsame | ⟨hx, hold⟩ := h
    · refine absurd ⟨fun ha => ?_, ?_⟩ hiff
      · by_cases hkey : key a = key x
        · have heq := (t.find_eq_some.mpr ⟨ha, hkey⟩).symm.trans hsame
          exact .inl (Option.some.inj heq)
        · exact .inr ⟨ha, hkey⟩
      · rintro (rfl | ⟨ha, -⟩)
        · exact (t.find_eq_some.mp hsame).1
        · exact ha
    · by_cases ha : a = x
      · exact ha ▸ hx
      · by_cases hkey : a ∈ t.rows ∧ key a = key x
        · exact hold a (t.find_eq_some.mpr hkey)
        · refine absurd ⟨fun hmem => .inr ⟨hmem, fun heq => hkey ⟨hmem, heq⟩⟩, ?_⟩ hiff
          rintro (heq | ⟨hmem, -⟩)
          · exact absurd heq ha
          · exact hmem

/-! ## Registers -/

/-- The newest of what was written: nothing, or one of the writes and none of them is newer. -/
def IsLatest (stamp : α → Int) (written : List α) : Option α → Prop
  | none => written = []
  | some a => a ∈ written ∧ ∀ w ∈ written, stamp w ≤ stamp a

/-- A write replaces what is not newer. -/
def replaces (stamp : α → Int) (x : α) : Option α → Bool
  | some a => stamp a ≤ stamp x
  | none => true

omit [DecidableEq κ] in
theorem IsLatest.write (h : IsLatest stamp written o) (x : α) :
    IsLatest stamp (written ++ [x]) (if replaces stamp x o then some x else o) := by
  cases o with
  | none =>
    have hnil : written = [] := h
    simp [replaces, IsLatest, hnil]
  | some a =>
    obtain ⟨hmem, hle⟩ := h
    by_cases hx : stamp a ≤ stamp x
    · simp only [replaces, hx, decide_true, if_true, IsLatest]
      refine ⟨by simp, fun w hw => ?_⟩
      obtain hw | hw := mem_append.mp hw
      · exact Int.le_trans (hle w hw) hx
      · simp_all
    · simp only [replaces, hx, decide_false, Bool.false_eq_true, if_false, IsLatest]
      refine ⟨mem_append_left _ hmem, fun w hw => ?_⟩
      obtain hw | hw := mem_append.mp hw
      · exact hle w hw
      · simp only [mem_singleton] at hw
        subst hw
        omega

/-! ## Counts -/

/-- `SELECT COUNT(*) … WHERE`. -/
def count : Nat := t.rows.countP p

omit [DecidableEq κ] in
/-- A change after which no other row is counted. -/
theorem count_modify_le (f : α → α) (hf : ∀ a, key (f a) = key a)
    (h : ∀ a ∈ t.rows, p a → q (f a) → q a) : (t.modify p f hf).count q ≤ t.count q := by
  simp only [count, modify, countP_map]
  apply countP_mono_left
  intro a ha hq
  by_cases hp : p a
  · exact h a ha hp (by simpa [hp] using hq)
  · simpa [hp] using hq

def others (k : κ) : List α := t.rows.filter (key · ≠ k)

theorem filter_key_eq (k : κ) : t.rows.filter (key · = k) = (t.find k).toList := by
  have hmem : ∀ a, a ∈ t.rows.filter (key · = k) ↔ t.find k = some a := by simp [t.find_eq_some]
  have hnodup : (t.rows.filter (key · = k)).Nodup := (Nodup.of_map key t.unique).filter _
  cases hrows : t.rows.filter (key · = k) with
  | nil =>
    cases hfind : t.find k with
    | none => rfl
    | some a => simpa [hrows] using (hmem a).mpr hfind
  | cons a l =>
    rw [hrows] at hmem hnodup
    have ha : t.find k = some a := (hmem a).mp mem_cons_self
    -- another row of the key would be the same row
    cases l with
    | nil => rw [ha, Option.toList_some]
    | cons a' l =>
      have ha' := (hmem a').mp (mem_cons_of_mem _ mem_cons_self)
      rw [ha, Option.some.injEq] at ha'
      simp [ha'] at hnodup

theorem count_eq (k : κ) : t.count p = (t.others k).countP p + (t.find k).toList.countP p := by
  rw [count, others, ← filter_key_eq, countP_eq_countP_filter_add t.rows p (key · ≠ k)]
  simp

/-- Rows changed under their keys, as far as another key sees them. -/
theorem filter_map_of_key (l : List α) (f : α → α) (hf : ∀ a, key (f a) = key a) (k : κ)
    (h : ∀ a ∈ l, key a ≠ k → f a = a) : (l.map f).filter (key · ≠ k) = l.filter (key · ≠ k) := by
  have hsame : (fun a => decide (key a ≠ k)) ∘ f = fun a => decide (key a ≠ k) := by
    funext a
    simp [hf]
  rw [filter_map, hsame]
  conv_rhs => rw [← map_id (l.filter (key · ≠ k))]
  apply map_congr_left
  intro a ha
  rw [mem_filter] at ha
  exact h a ha.1 (by simpa using ha.2)

theorem others_put (x : α) : (t.put x).others (key x) = t.others (key x) := by
  unfold others put
  by_cases hany : t.rows.any (key · = key x)
  · simp only [hany, if_true]
    apply filter_map_of_key
    · intro a
      by_cases h : key a = key x <;> simp [h]
    · intro a _ hne
      rw [if_neg hne]
  · simp [hany]

theorem others_modify (f : α → α) (hf : ∀ a, key (f a) = key a) (k : κ)
    (h : ∀ a ∈ t.others k, p a = false) : (t.modify p f hf).others k = t.others k := by
  apply filter_map_of_key
  · intro a
    by_cases hp : p a <;> simp [hp, hf]
  · intro a ha hne
    have hother : a ∈ t.others k := mem_filter.mpr ⟨ha, by simpa using hne⟩
    simp [h a hother]

end Rows

end Dirextalk.Lib

/-
  Dirextalk.Lib.Overlay — lists in which a later entry of a key overrides the earlier ones.

  `latest key l k` is the entry that counts at `k`. `normalize` brings a list into its normal
  form, by a stable sort and then by keeping the last entry of each key: what is left is
  strictly sorted (`normalize_sorted`) and holds just the entries that count
  (`mem_normalize`). `difference` walks two sorted lists side by side.
-/
import Mathlib.Data.List.Sort

namespace Dirextalk.Lib

open List

section Latest

variable {α κ : Type} [DecidableEq κ] {key : α → κ} {l l' : List α} {a : α} {k : κ}

/-- The entry that counts at a key: the last one. -/
def latest (key : α → κ) (l : List α) (k : κ) : Option α := (l.filter (key · = k)).getLast?

theorem latest_append : latest key (l ++ l') k = (latest key l' k).or (latest key l k) := by
  rw [latest, filter_append, getLast?_append]
  rfl

theorem latest_singleton : latest key [a] k = if key a = k then some a else none := by
  by_cases h : key a = k <;> simp [latest, h]

theorem latest_cons : latest key (a :: l) k = (latest key l k).or (if key a = k then some a else none) := by
  rw [← latest_singleton, ← latest_append, singleton_append]

theorem of_latest (h : latest key l k = some a) : a ∈ l ∧ key a = k := by
  have hmem := mem_of_getLast? h
  simpa using hmem

theorem latest_eq_none : latest key l k = none ↔ ∀ a ∈ l, key a ≠ k := by
  simp [latest]

/-- Where no two entries share a key, each counts. -/
theorem latest_of_mem (hdistinct : ∀ b ∈ l, key b = key a → b = a) (ha : a ∈ l) : latest key l (key a) = some a := by
  cases h : latest key l (key a) with
  | none => exact absurd rfl (latest_eq_none.mp h a ha)
  | some b => rw [hdistinct b (of_latest h).1 (of_latest h).2]

/-- What is chosen by its key counts as before. -/
theorem latest_filter (p : κ → Bool) : latest key (l.filter (p <| key ·)) k = if p k then latest key l k else none := by
  unfold latest
  rw [filter_filter]
  split
  · rename_i hp
    congr 1
    apply filter_congr
    intro a _
    by_cases h : key a = k <;> simp [h, hp]
  · rename_i hp
    have hnone : (l.filter fun a => decide (key a = k) && p (key a)) = [] := by
      rw [filter_eq_nil_iff]
      intro a _
      by_cases h : key a = k <;> simp [h, hp]
    rw [hnone]
    rfl

/-- Parts that agree at a key agree there put together. -/
theorem latest_flatMap_congr {β : Type} {f g : β → List α} {bs : List β} (h : ∀ b ∈ bs, latest key (f b) k = latest key (g b) k) :
    latest key (bs.flatMap f) k = latest key (bs.flatMap g) k := by
  induction bs with
  | nil => rfl
  | cons b bs ih =>
    rw [flatMap_cons, flatMap_cons, latest_append, latest_append, h b mem_cons_self,
      ih fun b hb => h b (mem_cons_of_mem _ hb)]

end Latest

section Normal

variable {α κ : Type} [LinearOrder κ] {key : α → κ} {l l' : List α} {a x : α} {k : κ}

/-- `util.Unique` of a sorted list: the last entry of each key. -/
def keepLast (key : α → κ) : List α → List α
  | [] => []
  | [a] => [a]
  | a :: b :: l => if key a < key b then a :: keepLast key (b :: l) else keepLast key (b :: l)

/-- `sort.Stable` and `util.Unique`. -/
def normalize (key : α → κ) (l : List α) : List α := keepLast key (l.insertionSort (key · ≤ key ·))

instance keyTotal : Std.Total (α := α) (key · ≤ key ·) := ⟨fun a b => le_total (key a) (key b)⟩

instance keyTrans : IsTrans α (key · ≤ key ·) := ⟨fun _ _ _ => le_trans⟩

/-- The sort keeps the order of the entries of one key. -/
theorem latest_insertionSort (key : α → κ) : latest key (l.insertionSort (key · ≤ key ·)) k = latest key l k := by
  have hsame : (l.filter (key · = k)).Pairwise (key · ≤ key ·) := by
    rw [pairwise_filter]
    apply pairwise_of_forall
    intro a b ha hb
    simp only [decide_eq_true_eq] at ha hb
    rw [ha, hb]
  have hsub := (sublist_insertionSort hsame filter_sublist).filter (key · = k)
  rw [filter_filter] at hsub
  simp only [Bool.and_self] at hsub
  have hlength : (l.filter (key · = k)).length = ((l.insertionSort (key · ≤ key ·)).filter (key · = k)).length :=
    ((perm_insertionSort _ l).filter _).length_eq.symm
  rw [latest, latest, hsub.eq_of_length hlength]

theorem mem_keepLast (hsorted : l.Pairwise (key · ≤ key ·)) : x ∈ keepLast key l ↔ latest key l (key x) = some x := by
  induction l using keepLast.induct key with
  | case1 => simp [keepLast, latest]
  | case2 a =>
    rw [keepLast, mem_singleton, latest_singleton]
    constructor
    · rintro rfl
      exact if_pos rfl
    · intro h
      split at h
      · exact (Option.some.inj h).symm
      · cases h
  | case3 a b l hlt ih =>
    obtain ⟨hfirst, hrest⟩ := pairwise_cons.mp hsorted
    have hnone : latest key (b :: l) (key a) = none := by
      rw [latest_eq_none]
      intro c hc heq
      obtain rfl | hc := mem_cons.mp hc
      · exact absurd heq hlt.ne'
      · exact absurd heq (hlt.trans_le ((pairwise_cons.mp hrest).1 c hc)).ne'
    rw [keepLast, if_pos hlt, mem_cons, ih hrest, latest_cons (l := b :: l)]
    by_cases hax : key a = key x
    · rw [← hax, hnone, if_pos rfl]
      simp [eq_comm]
    · simp only [if_neg hax, Option.or_none, or_iff_right_iff_imp]
      rintro rfl
      exact absurd rfl hax
  | case4 a b l hle ih =>
    obtain ⟨hfirst, hrest⟩ := pairwise_cons.mp hsorted
    have hab := le_antisymm (hfirst b mem_cons_self) (not_lt.mp hle)
    rw [keepLast, if_neg hle, ih hrest, latest_cons (l := b :: l)]
    by_cases hax : key a = key x
    · have hsome : latest key (b :: l) (key x) ≠ none := by
        intro h
        exact latest_eq_none.mp h b mem_cons_self (hab.symm.trans hax)
      obtain ⟨c, hc⟩ := Option.ne_none_iff_exists'.mp hsome
      rw [hc, Option.some_or]
    · rw [if_neg hax, Option.or_none]

theorem keepLast_sorted (hsorted : l.Pairwise (key · ≤ key ·)) : (keepLast key l).Pairwise (key · < key ·) := by
  induction l using keepLast.induct key with
  | case1 => exact .nil
  | case2 a => exact pairwise_singleton _ _
  | case3 a b l hlt ih =>
    obtain ⟨-, hrest⟩ := pairwise_cons.mp hsorted
    rw [keepLast, if_pos hlt, pairwise_cons]
    refine ⟨fun c hc => ?_, ih hrest⟩
    have hmem := (of_latest ((mem_keepLast hrest).mp hc)).1
    obtain rfl | hmem := mem_cons.mp hmem
    · exact hlt
    · exact hlt.trans_le ((pairwise_cons.mp hrest).1 c hmem)
  | case4 a b l hle ih =>
    rw [keepLast, if_neg hle]
    exact ih (pairwise_cons.mp hsorted).2

theorem mem_normalize : x ∈ normalize key l ↔ latest key l (key x) = some x := by
  rw [normalize, mem_keepLast (pairwise_insertionSort _ l), latest_insertionSort key]

theorem normalize_sorted : (normalize key l).Pairwise (key · < key ·) := keepLast_sorted (pairwise_insertionSort _ l)

/-- Where keys tell entries apart, nothing is lost. -/
theorem mem_normalize_of_distinct (h : ∀ a ∈ l, ∀ b ∈ l, key a = key b → a = b) : x ∈ normalize key l ↔ x ∈ l := by
  rw [mem_normalize]
  exact ⟨fun hx => (of_latest hx).1, fun hx => latest_of_mem (fun b hb => h b hb x hx) hx⟩

/-- Strictly sorted lists of the same entries are the same. -/
theorem eq_of_sorted (key : α → κ) (h : l.Pairwise (key · < key ·)) (h' : l'.Pairwise (key · < key ·))
    (hmem : ∀ a, a ∈ l ↔ a ∈ l') : l = l' := by
  have : Std.Irrefl (α := α) (key · < key ·) := ⟨fun a => lt_irrefl (key a)⟩
  have : Std.Antisymm (α := α) (key · < key ·) := ⟨fun _ _ hab hba => absurd hab hba.asymm⟩
  exact h.eq_of_mem_iff h' hmem

/-! ### Sorted keys -/

variable {ks : List κ}

theorem mem_normalize_keys : k ∈ normalize id ks ↔ k ∈ ks := mem_normalize_of_distinct fun _ _ _ _ heq => heq

section

variable (h : ks.Pairwise (· < ·))
include h

theorem normalize_sorted_keys : normalize id ks = ks :=
  eq_of_sorted id normalize_sorted h fun _ => mem_normalize_keys

/-- A key that is not among sorted ones splits them. -/
theorem sorted_split (hk : k ∉ ks) : ks = ks.filter (· < k) ++ ks.filter (k < ·) := by
  refine eq_of_sorted id h ?_ fun j => ?_
  · rw [pairwise_append]
    refine ⟨h.filter _, h.filter _, fun a ha b hb => ?_⟩
    have hak : a < k := by simpa using (mem_filter.mp ha).2
    exact hak.trans (by simpa using (mem_filter.mp hb).2)
  · simp only [mem_append, mem_filter, decide_eq_true_eq, ← and_or_left]
    refine ⟨fun hj => ⟨hj, ?_⟩, And.left⟩
    exact lt_or_gt_of_ne fun heq => hk (heq ▸ hj)

/-- A new key stands between the smaller and the larger ones. -/
theorem normalize_added_key (hk : k ∉ ks) :
    normalize id (ks ++ [k]) = ks.filter (· < k) ++ k :: ks.filter (k < ·) := by
  refine eq_of_sorted id normalize_sorted ?_ fun j => ?_
  · rw [pairwise_append, pairwise_cons]
    refine ⟨h.filter _, ⟨fun b hb => by simpa using (mem_filter.mp hb).2, h.filter _⟩, fun a ha b hb => ?_⟩
    have hak : a < k := by simpa using (mem_filter.mp ha).2
    obtain rfl | hb := mem_cons.mp hb
    · exact hak
    · exact hak.trans (by simpa using (mem_filter.mp hb).2)
  · rw [mem_normalize_keys, mem_append, mem_singleton]
    nth_rewrite 1 [sorted_split h hk]
    rw [mem_append, mem_append, mem_cons, or_assoc, or_comm (a := j ∈ ks.filter (k < ·))]

end

end Normal

section Difference

variable {α : Type} [LinearOrder α] {x : α}

/-- What only the first and what only the second of two sorted lists has, found side by side. -/
def difference : List α → List α → List α × List α
  | [], new => ([], new)
  | a :: old, [] => (a :: old, [])
  | a :: old, b :: new =>
    if a = b then difference old new
    else if a < b then (a :: (difference old (b :: new)).1, (difference old (b :: new)).2)
    else ((difference (a :: old) new).1, b :: (difference (a :: old) new).2)
termination_by old new => old.length + new.length

theorem mem_difference (hold : old.Pairwise (· < ·)) (hnew : new.Pairwise (· < ·)) :
    (x ∈ (difference old new).1 ↔ x ∈ old ∧ x ∉ new) ∧ (x ∈ (difference old new).2 ↔ x ∈ new ∧ x ∉ old) := by
  induction old, new using difference.induct with
  | case1 new => simp [difference]
  | case2 a old => simp [difference]
  | case3 old b new ih =>
    obtain ⟨hfirst, hold⟩ := pairwise_cons.mp hold
    obtain ⟨hfirst', hnew⟩ := pairwise_cons.mp hnew
    have hb : b ∉ old := fun h => (hfirst b h).false
    have hb' : b ∉ new := fun h => (hfirst' b h).false
    rw [difference, if_pos rfl, (ih hold hnew).1, (ih hold hnew).2]
    grind
  | case4 a old b new hne hlt ih =>
    have ha : a ∉ b :: new := by
      intro h
      obtain h | h := mem_cons.mp h
      · exact hne h
      · exact (hlt.trans ((pairwise_cons.mp hnew).1 a h)).false
    have hrest := ih (pairwise_cons.mp hold).2 hnew
    rw [difference, if_neg hne, if_pos hlt]
    grind
  | case5 a old b new hne hle ih =>
    have hb : b ∉ a :: old := by
      intro h
      obtain h | h := mem_cons.mp h
      · exact hne h.symm
      · exact hle ((pairwise_cons.mp hold).1 b h)
    have hrest := ih hold (pairwise_cons.mp hnew).2
    rw [difference, if_neg hne, if_neg hle]
    grind

end Difference

end Dirextalk.Lib

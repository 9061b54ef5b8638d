/-
  Dirextalk.Roomserver.StateLists — lists of state entries
  (`roomserver/types/types.go`: `DeduplicateStateEntries`; `roomserver/state/state.go`:
  `findDuplicateStateKeys`, `stateEntryMap.lookup`), with the indices of their loops.

  Proved (`state_lists_exact`): of any list the first keeps the last event of every tuple, in
  order; of a sorted list the second returns, in order, the entries whose tuple occurs again,
  and the third finds the first event of a tuple if there is one.
-/
import Mathlib.Data.List.Pairwise
import Dirextalk.Roomserver.StateQueries

namespace Dirextalk.Roomserver.StateLists

open Lib List StateEntry

/-- The loop of `DeduplicateStateEntries`; the index stays where it is when an entry is deleted. -/
def deduplicate (a : List StateEntry) (i : Nat) : List StateEntry :=
  if i + 1 < a.length then
    if a[i]?.map (·.tuple) = a[i + 1]?.map (·.tuple) then deduplicate (a.eraseIdx i) i else deduplicate a (i + 1)
  else a
termination_by a.length - i
decreasing_by all_goals grind

def deduplicateStateEntries (a : List StateEntry) : List StateEntry :=
  if a.length < 2 then a else deduplicate (a.insertionSort (· ≤ ·)) 0

/-- The loop of `findDuplicateStateKeys`: `j` is where the block of the same tuple starts. -/
def duplicates (a result : List StateEntry) (j i : Nat) : List StateEntry :=
  if i < a.length then
    if a[j]?.map (·.tuple) ≠ a[i]?.map (·.tuple) then
      duplicates a (if j + 1 ≠ i then result ++ (a.take i).drop j else result) i (i + 1)
    else duplicates a result j (i + 1)
  else if j + 1 ≠ a.length then result ++ a.drop j
  else result
termination_by a.length - i

def findDuplicateStateKeys (a : List StateEntry) : List StateEntry := duplicates a [] 0 1

/-- `sort.Search`, between two indices. -/
def search (f : Nat → Bool) (i j : Nat) : Nat :=
  if i < j then
    if !f ((i + j) / 2) then search f ((i + j) / 2 + 1) j else search f i ((i + j) / 2)
  else i
termination_by j - i

def lookup (m : List StateEntry) (stateKey : StateKeyTuple) : Option EventNID :=
  let i := search (fun i => m[i]?.all fun x => !decide (x.tuple < stateKey)) 0 m.length
  (m[i]?.filter (·.tuple = stateKey)).map (·.eventNID)

variable {a l pre block rest : List StateEntry} {x y : StateEntry} {k : StateKeyTuple}

theorem le_iff : x ≤ y ↔ x.tuple < y.tuple ∨ x.tuple = y.tuple ∧ x.eventNID ≤ y.eventNID := Prod.Lex.toLex_le_toLex

theorem tuple_le (h : x ≤ y) : x.tuple ≤ y.tuple := (le_iff.mp h).elim le_of_lt fun h => h.1.le

/-! ## Deduplication -/

theorem deduplicate_eq (rest pre : List StateEntry) (h : rest.Pairwise (·.tuple ≤ ·.tuple)) :
    deduplicate (pre ++ rest) pre.length = pre ++ keepLast tuple rest := by
  induction rest using keepLast.induct tuple generalizing pre with
  | case1 => rw [deduplicate, if_neg (by simp), keepLast]
  | case2 x => rw [deduplicate, if_neg (by simp), keepLast]
  | case3 x y rest hlt ih =>
    have hnext := ih (pre ++ [x]) (pairwise_cons.mp h).2
    rw [deduplicate, if_pos (by simp), if_neg (by simp [hlt.ne]), keepLast, if_pos hlt]
    simpa using hnext
  | case4 x y rest hle ih =>
    obtain ⟨hfirst, hrest⟩ := pairwise_cons.mp h
    have hsame := le_antisymm (hfirst y mem_cons_self) (not_lt.mp hle)
    rw [deduplicate, if_pos (by simp), if_pos (by simp [hsame]), keepLast, if_neg hle, ← ih pre hrest]
    simp [eraseIdx_append]

theorem deduplicateStateEntries_eq (a : List StateEntry) :
    deduplicateStateEntries a = keepLast tuple (a.insertionSort (· ≤ ·)) := by
  unfold deduplicateStateEntries
  split
  · match a with
    | [] => rfl
    | [x] => rfl
  · exact deduplicate_eq _ [] ((pairwise_insertionSort (· ≤ ·) a).imp tuple_le)

/-- The last entry of a tuple in a sorted list has its greatest event. -/
theorem latest_iff (h : l.Pairwise (· ≤ ·)) :
    latest tuple l x.tuple = some x ↔ x ∈ l ∧ ∀ y ∈ l, y.tuple = x.tuple → y.eventNID ≤ x.eventNID := by
  have hlast (y : StateEntry) (hy : latest tuple l y.tuple = some y) : ∀ z ∈ l, z.tuple = y.tuple → z.eventNID ≤ y.eventNID := by
    intro z hz htuple
    have hle := (h.filter (·.tuple = y.tuple)).rel_getLast (mem_filter.mpr ⟨hz, by simpa using htuple⟩)
    rw [getLast_of_getLast?_eq_some hy] at hle
    exact (le_iff.mp hle).elim (fun hlt => absurd htuple hlt.ne) (·.2)
  refine ⟨fun hx => ⟨(of_latest hx).1, hlast x hx⟩, fun ⟨hx, hmax⟩ => ?_⟩
  cases hfound : latest tuple l x.tuple with
  | none => exact absurd rfl (latest_eq_none.mp hfound x hx)
  | some y =>
    obtain ⟨hy, htuple⟩ := of_latest hfound
    have hle := hlast y (htuple ▸ hfound) x hx htuple.symm
    rw [le_antisymm (le_iff.mpr (.inr ⟨htuple, hmax y hy htuple⟩)) (le_iff.mpr (.inr ⟨htuple.symm, hle⟩))]

/-! ## Duplicates -/

/-- The tuple of the entry occurs at least twice. -/
def Repeated (a : List StateEntry) (x : StateEntry) : Bool := 2 ≤ a.countP (·.tuple = x.tuple)

section Block

variable (ha : a = pre ++ x :: block ++ rest) (hblock : ∀ y ∈ x :: block, y.tuple = x.tuple) (hpre : ∀ y ∈ pre, y.tuple < x.tuple)
include ha hblock hpre

/-- A block of a tuple that occurs nowhere else counts if it is longer than one. -/
theorem filter_block (hrest : ∀ y ∈ rest, x.tuple < y.tuple) : (pre ++ x :: block).filter (Repeated a) =
    if pre.length + 1 ≠ pre.length + 1 + block.length then pre.filter (Repeated a) ++ x :: block
      else pre.filter (Repeated a) := by
  have hcount : a.countP (·.tuple = x.tuple) = block.length + 1 := by
    have h₁ : pre.countP (·.tuple = x.tuple) = 0 := countP_eq_zero.mpr fun y hy => by simpa using (hpre y hy).ne
    have h₂ : rest.countP (·.tuple = x.tuple) = 0 := countP_eq_zero.mpr fun y hy => by simpa using (hrest y hy).ne'
    have h₃ : block.countP (·.tuple = x.tuple) = block.length :=
      countP_eq_length.mpr fun y hy => by simpa using hblock y (mem_cons_of_mem x hy)
    rw [ha, countP_append, countP_append, countP_cons, h₁, h₂, h₃]
    simp
  have hrepeated (y : StateEntry) (hy : y ∈ x :: block) : Repeated a y = decide (block ≠ []) := by
    rw [Repeated, hblock y hy, hcount]
    cases block <;> simp
  rw [filter_append, filter_congr hrepeated]
  cases block <;> simp

variable (pre block) in
theorem duplicates_eq (hrest : (x :: rest).Pairwise (·.tuple ≤ ·.tuple)) :
    duplicates a (pre.filter (Repeated a)) pre.length (pre.length + 1 + block.length) = a.filter (Repeated a) := by
  induction rest generalizing pre block x with
  | nil =>
    have hlength : a.length = pre.length + 1 + block.length := by simp [ha]; omega
    have hdrop : a.drop pre.length = x :: block := by simp [ha]
    have hkept := filter_block ha hblock hpre nofun
    rw [duplicates, if_neg (by omega), hlength, hdrop, ← hkept, ha, append_nil]
  | cons y rest ih =>
    obtain ⟨hfirst, hsorted⟩ := pairwise_cons.mp hrest
    have hcut : pre.length + 1 + block.length = (pre ++ x :: block).length := by simp; omega
    have hi : a[pre.length + 1 + block.length]? = some y := by rw [ha, hcut, getElem?_append_right le_rfl]; simp
    have hj : a[pre.length]? = some x := by simp [ha]
    rw [duplicates, if_pos (List.getElem?_eq_some_iff.mp hi).1, hi, hj]
    by_cases htuple : x.tuple = y.tuple
    · have hnext := ih pre (block ++ [y]) (by simp [ha])
          (by simpa [or_imp, forall_and, htuple] using hblock) hpre (hrest.sublist (.cons_cons x (sublist_cons_self y rest)))
      rw [length_append] at hnext
      rwa [if_neg (by simp [htuple])]
    · have hlt := lt_of_le_of_ne (hfirst y mem_cons_self) htuple
      have hlater : ∀ z ∈ y :: rest, x.tuple < z.tuple := by
        intro z hz
        obtain rfl | hz := mem_cons.mp hz
        · exact hlt
        · exact hlt.trans_le ((pairwise_cons.mp hsorted).1 z hz)
      have hnext := ih (pre ++ x :: block) [] (by simp [ha]) (by simp) ?_ hsorted
      · have htake : (a.take (pre.length + 1 + block.length)).drop pre.length = x :: block := by rw [ha, hcut, take_left]; simp
        rwa [if_pos (by simpa using htuple), htake, ← filter_block ha hblock hpre hlater, hcut]
      · intro z hz
        obtain hz | hz := mem_append.mp hz
        · exact (hpre z hz).trans hlt
        · exact (hblock z hz).trans_lt hlt

end Block

/-! ## Lookup -/

theorem search_spec {f : Nat → Bool} (i j : Nat) (hmono : ∀ m n, m ≤ n → f m = true → f n = true) (hi : ∀ m < i, f m = false)
    (hij : i ≤ j) (hj : f j = true) : f (search f i j) = true ∧ ∀ m < search f i j, f m = false := by
  induction i, j using search.induct f with
  | case1 i j hlt hmid ih =>
    rw [search, if_pos hlt, if_pos hmid]
    refine ih (fun m hm => ?_) (by omega) hj
    by_contra hm'
    have := hmono m ((i + j) / 2) (by omega) (by simpa using hm')
    simp [this] at hmid
  | case2 i j hlt hmid ih =>
    rw [search, if_pos hlt, if_neg hmid]
    exact ih hi (by omega) (by simpa using hmid)
  | case3 i j hge =>
    rw [search, if_neg hge]
    obtain rfl : i = j := by omega
    exact ⟨hj, hi⟩

/-- The search stops at the first entry that does not lie below the tuple. -/
theorem lookup_of_mem (h : a.Pairwise (· ≤ ·)) (hy : y ∈ a) :
    ∃ x ∈ a, x.tuple = y.tuple ∧ lookup a y.tuple = some x.eventNID ∧ ∀ z ∈ a, z.tuple = y.tuple → x.eventNID ≤ z.eventNID := by
  have hle {i j : Nat} {u v : StateEntry} (hu : a[i]? = some u) (hv : a[j]? = some v) (hij : i ≤ j) : u ≤ v := by
    obtain ⟨hi, rfl⟩ := List.getElem?_eq_some_iff.mp hu
    obtain ⟨hj, rfl⟩ := List.getElem?_eq_some_iff.mp hv
    exact h.rel_get_of_le (a := ⟨i, hi⟩) (b := ⟨j, hj⟩) hij
  let f (i : Nat) : Bool := a[i]?.all fun x => !decide (x.tuple < y.tuple)
  have hf {i : Nat} {u : StateEntry} (hu : a[i]? = some u) : f i = true ↔ y.tuple ≤ u.tuple := by simp [f, hu]
  have hmono (m n : Nat) (hmn : m ≤ n) (hm : f m = true) : f n = true := by
    cases hn : a[n]? with
    | none => simp [f, hn]
    | some v =>
      have hlt := (List.getElem?_eq_some_iff.mp hn).1
      have hget : a[m]? = some a[m] := getElem?_eq_getElem _
      exact (hf hn).mpr (((hf hget).mp hm).trans (tuple_le (hle hget hn hmn)))
  obtain ⟨hstop, hbefore⟩ := search_spec 0 a.length hmono nofun (Nat.zero_le _) (by simp [f])
  have hfirst {i : Nat} {u : StateEntry} (hu : a[i]? = some u) (htuple : u.tuple = y.tuple) : search f 0 a.length ≤ i := by
    by_contra hlt
    simpa [hbefore i (not_le.mp hlt), htuple] using hf hu
  obtain ⟨n, hn⟩ := mem_iff_getElem?.mp hy
  have hlt := lt_of_le_of_lt (hfirst hn rfl) (List.getElem?_eq_some_iff.mp hn).1
  have hget : a[search f 0 a.length]? = some a[search f 0 a.length] := getElem?_eq_getElem hlt
  have htuple := le_antisymm (tuple_le (hle hget hn (hfirst hn rfl))) ((hf hget).mp hstop)
  refine ⟨_, getElem_mem hlt, htuple, by simp [lookup, f, hget, htuple], fun z hz hz' => ?_⟩
  obtain ⟨i, hi⟩ := mem_iff_getElem?.mp hz
  exact (le_iff.mp (hle hget hi (hfirst hi hz'))).elim (fun hlt => absurd (htuple.trans hz'.symm) hlt.ne) (·.2)

/-- Deduplicating keeps the newest entry of each tuple; in a sorted list the duplicates are those whose tuple stands
twice, and a lookup finds the oldest entry of a tuple. -/
theorem state_lists_exact (a : List StateEntry) :
    ((deduplicateStateEntries a).Pairwise (·.tuple < ·.tuple) ∧
      ∀ x, x ∈ deduplicateStateEntries a ↔ x ∈ a ∧ ∀ y ∈ a, y.tuple = x.tuple → y.eventNID ≤ x.eventNID) ∧
    (a.Pairwise (· ≤ ·) → findDuplicateStateKeys a = a.filter (fun x => 2 ≤ a.countP (·.tuple = x.tuple)) ∧
      ∀ k, ((lookup a k).isSome = true ↔ ∃ x ∈ a, x.tuple = k) ∧
        ∀ nid, lookup a k = some nid → ⟨k, nid⟩ ∈ a ∧ ∀ y ∈ a, y.tuple = k → nid ≤ y.eventNID) := by
  have hsort := pairwise_insertionSort (· ≤ ·) a
  have hmem {x : StateEntry} : x ∈ a.insertionSort (· ≤ ·) ↔ x ∈ a := (perm_insertionSort _ a).mem_iff
  rw [deduplicateStateEntries_eq]
  refine ⟨⟨keepLast_sorted (hsort.imp tuple_le), fun x => ?_⟩, fun h => ⟨?_, fun k => ?_⟩⟩
  · rw [mem_keepLast (hsort.imp tuple_le), latest_iff hsort]
    simp only [hmem]
  · cases a with
    | nil => simp [findDuplicateStateKeys, duplicates]
    | cons x rest => exact duplicates_eq [] [] rfl (by simp) nofun (h.imp tuple_le)
  · have hfound {nid : EventNID} (hnid : lookup a k = some nid) : ⟨k, nid⟩ ∈ a := by
      obtain ⟨x, hx, rfl⟩ := Option.map_eq_some_iff.mp hnid
      obtain ⟨hget, htuple⟩ := Option.filter_eq_some_iff.mp hx
      obtain rfl : x.tuple = k := by simpa using htuple
      exact mem_of_getElem? hget
    refine ⟨⟨fun hsome => ?_, ?_⟩, fun nid hnid => ⟨hfound hnid, ?_⟩⟩
    · obtain ⟨nid, hnid⟩ := Option.isSome_iff_exists.mp hsome
      exact ⟨_, hfound hnid, rfl⟩
    · rintro ⟨y, hy, rfl⟩
      obtain ⟨x, -, -, hx, -⟩ := lookup_of_mem h hy
      rw [hx, Option.isSome_some]
    · obtain ⟨x, -, -, hx, hmin⟩ := lookup_of_mem h (hfound hnid)
      obtain rfl : x.eventNID = nid := Option.some.inj (hx.symm.trans hnid)
      exact hmin

theorem state_lists_exact_duplicate :
    findDuplicateStateKeys [⟨⟨1, 1⟩, 2⟩, ⟨⟨1, 2⟩, 3⟩, ⟨⟨1, 2⟩, 4⟩, ⟨⟨2, 1⟩, 1⟩] = [⟨⟨1, 2⟩, 3⟩, ⟨⟨1, 2⟩, 4⟩] :=
  ((state_lists_exact _).2 (by decide)).1

end Dirextalk.Roomserver.StateLists

/-
  Dirextalk.Lib.Go — the parts of Go's standard library the modelled code decides on:
  `strings.TrimSpace` over Unicode white space and a few more string functions, `int64`,
  and errors with the sentinels that `errors.Is` finds in their chain.
-/
import Mathlib.Algebra.Group.Int.Defs
import Mathlib.Algebra.Group.Nat.Defs
import Mathlib.Data.List.DropRight

namespace Dirextalk.Lib.Go

open List

abbrev Bytes := List UInt8

/-- An `int64` after an operation that may overflow. -/
def int64 (n : Int) : Int := n.bmod (2 ^ 64)

/-- An increment of what is not negative is larger, or overflows to what is. -/
theorem int64_succ (h0 : 0 ≤ n) (hlt : n < 2 ^ 63) (h : 0 ≤ int64 (n + 1)) : int64 (n + 1) = n + 1 := by
  unfold int64 at h ⊢
  rw [Int.bmod_def] at h ⊢
  split at h <;> split <;> omega

variable {α : Type} {c d : Char} {s w : String}

/-- A step that may fail goes through exactly if both halves do. -/
theorem bind_eq_ok {ε β : Type} {x : Except ε α} {f : α → Except ε β} {b : β} :
    (x >>= f) = .ok b ↔ ∃ a, x = .ok a ∧ f a = .ok b := by
  cases x <;> simp [bind, Except.bind]

theorem mapError_eq_ok {x : Except ε α} {f : ε → ε'} : x.mapError f = .ok a ↔ x = .ok a := by
  cases x <;> simp [Except.mapError]

/-- `unicode.IsSpace`. -/
def isSpace (c : Char) : Bool :=
  c.val ∈ [0x09, 0x0A, 0x0B, 0x0C, 0x0D, 0x20, 0x85, 0xA0, 0x1680, 0x2028, 0x2029, 0x202F, 0x205F, 0x3000]
    || (0x2000 ≤ c.val && c.val ≤ 0x200A)

section

variable (s : String)

/-- `strings.TrimSpace`. -/
def trimSpace : String :=
  String.ofList ((s.toList.dropWhile isSpace).reverse.dropWhile isSpace).reverse

/-- `strings.TrimSpace(s) == ""`. -/
def blank : Bool := trimSpace s == ""

/-- What starts like a list without leading spaces has none either. -/
theorem dropWhile_initial (h : a <+: b) (hb : b.dropWhile p = b) : a.dropWhile p = a := by
  rw [dropWhile_eq_self_iff] at hb ⊢
  intro ha
  rw [h.getElem ha]
  exact hb _

theorem trimSpace_trimSpace : trimSpace (trimSpace s) = trimSpace s := by
  have htrim :
      ∀ l : List Char, (l.dropWhile isSpace).rdropWhile isSpace = ((l.dropWhile isSpace).reverse.dropWhile isSpace).reverse :=
    fun _ => rfl
  simp only [trimSpace, ← htrim, String.toList_ofList]
  have hinitial : (s.toList.dropWhile isSpace).rdropWhile isSpace <+: s.toList.dropWhile isSpace := rdropWhile_prefix ..
  rw [dropWhile_initial hinitial (dropWhile_idempotent ..), rdropWhile_idempotent]

@[simp] theorem blank_trimSpace : blank (trimSpace s) = blank s := by
  simp [blank, trimSpace_trimSpace]

/-- Leading characters that are no spaces stay. -/
theorem trimSpace_head (hc : isSpace c = false) :
    ∃ rest', trimSpace (String.ofList (c :: rest)) = String.ofList (c :: rest') := by
  have hfirst : (c :: rest).dropWhile isSpace = c :: rest := dropWhile_cons_of_neg (by simp [hc])
  have hlast : ((c :: rest).rdropWhile isSpace) ≠ [] := by
    intro h
    have hall := rdropWhile_eq_nil_iff.mp h c mem_cons_self
    simp [hc] at hall
  obtain ⟨d, rest', hd⟩ := exists_cons_of_ne_nil hlast
  have hprefix : d :: rest' <+: c :: rest := hd ▸ rdropWhile_prefix ..
  obtain ⟨rfl, -⟩ := cons_prefix_cons.mp hprefix
  refine ⟨rest', ?_⟩
  rw [trimSpace, String.toList_ofList, hfirst, ← hd]
  rfl

/-- What stands around something that is no space is trimmed on its own side. -/
theorem trimSpace_around (hc : isSpace c = false) :
    trimSpace (String.ofList (a ++ c :: b)) = String.ofList (a.dropWhile isSpace ++ c :: b.rdropWhile isSpace) := by
  have hleft : (a ++ c :: b).dropWhile isSpace = a.dropWhile isSpace ++ c :: b := by
    induction a with
    | nil => exact dropWhile_cons_of_neg (by simp [hc])
    | cons x a ih =>
      rw [cons_append, dropWhile_cons, dropWhile_cons]
      split
      · exact ih
      · rfl
  have hright : ∀ l : List Char, (l ++ c :: b).rdropWhile isSpace = l ++ c :: b.rdropWhile isSpace := by
    intro l
    clear hleft
    induction b using reverseRecOn with
    | nil => exact rdropWhile_concat_neg _ _ _ (by simp [hc])
    | append_singleton b x ih =>
      rw [← cons_append, ← append_assoc, rdropWhile_concat, rdropWhile_concat]
      split
      · exact ih
      · simp
  show String.ofList (((String.ofList (a ++ c :: b)).toList.dropWhile isSpace).rdropWhile isSpace) = _
  rw [String.toList_ofList, hleft, hright]

/-- What starts with something else than a space is not blank. -/
theorem trimSpace_ne_empty (hc : isSpace c = false) : trimSpace (String.ofList (c :: rest)) ≠ "" := by
  obtain ⟨rest', h⟩ := trimSpace_head hc
  rw [h]
  intro hempty
  simpa using congrArg String.toList hempty

def hasPrefix (s p : String) : Bool := p.toList.isPrefixOf s.toList

def trimPrefix (s p : String) : String :=
  if hasPrefix s p then String.ofList (s.toList.drop p.length) else s

def hasSuffix (s p : String) : Bool := p.toList.isSuffixOf s.toList

def trimSuffix (s p : String) : String :=
  if hasSuffix s p then String.ofList (s.toList.take (s.length - p.length)) else s

/-- Split a list around the first occurrence of `sep`. -/
def cutList {α : Type} [DecidableEq α] (sep : List α) : List α → Option (List α × List α)
  | [] => if sep.isPrefixOf [] then some ([], []) else none
  | c :: rest =>
    if sep.isPrefixOf (c :: rest) then some ([], (c :: rest).drop sep.length)
    else (cutList sep rest).map fun p => (c :: p.1, p.2)

/-- `strings.Cut`, `none` when the separator is not found. -/
def cut (s sep : String) : Option (String × String) :=
  (cutList sep.toList s.toList).map fun p => (String.ofList p.1, String.ofList p.2)

/-- `gomatrixserverlib.SplitID('@', id)`: the local part and the server. -/
abbrev SplitID := String → Option (String × String)

/-- The split without a look at the characters. -/
def SplitID.plain : SplitID := fun id => cut (trimPrefix id "@") ":"

/-- `strings.Contains`. -/
def contains (s substr : String) : Bool := (cutList substr.toList s.toList).isSome

/-- A text without `c` is found on one side of it. -/
theorem cutList_around [DecidableEq α] {sep a b : List α} {c : α} (hc : c ∉ sep) (hsep : sep ≠ []) :
    (cutList sep (a ++ c :: b)).isSome = ((cutList sep a).isSome || (cutList sep b).isSome) := by
  have hcross : ∀ a : List α, sep.isPrefixOf (a ++ c :: b) = sep.isPrefixOf a := by
    intro a
    rw [Bool.eq_iff_iff, isPrefixOf_iff_prefix, isPrefixOf_iff_prefix]
    refine ⟨fun h => ?_, fun h => h.trans (prefix_append _ _)⟩
    obtain h' | ⟨rest, hrest⟩ := prefix_or_prefix_of_prefix h (prefix_append a (c :: b))
    · exact h'
    · subst hrest
      cases rest with
      | nil => simp
      | cons d rest =>
        obtain ⟨tail, htail⟩ := h
        simp only [append_assoc, cons_append, append_cancel_left_eq, cons.injEq] at htail
        exact absurd (htail.1 ▸ by simp) hc
  induction a with
  | nil =>
    have hfirst : sep.isPrefixOf (c :: b) = false := by
      rw [show c :: b = [] ++ c :: b from rfl, hcross]
      cases sep with
      | nil => exact absurd rfl hsep
      | cons => rfl
    simp [cutList, hfirst, hsep]
  | cons d a ih =>
    have hhead := hcross (d :: a)
    simp only [cons_append, cutList] at hhead ⊢
    rw [hhead]
    split
    · simp
    · simp [ih]

/-- `strings.ReplaceAll(s, string(c), "")`. -/
def removeAll (c : Char) : String := String.ofList (s.toList.filter (· != c))

/-- `strings.Join`. -/
def join (sep : String) (parts : List String) : String :=
  String.ofList (intercalate sep.toList (parts.map String.toList))

/-- `unicode.ToLower` for the characters whose lower case is an ASCII letter; no comparison with an ASCII word sees
the others. -/
def lowerChar (c : Char) : Char :=
  if 'A' ≤ c ∧ c ≤ 'Z' then Char.ofNat (c.toNat + 32)
  else if c.toNat = 0x130 then 'i'
  else if c.toNat = 0x212A then 'k'
  else c

/-- `strings.ToLower`, up to letters that have no ASCII form. -/
def toLower : String := String.ofList (s.toList.map lowerChar)

theorem lowerChar_letter : ∀ n < 26, lowerChar (Char.ofNat (65 + n)) = Char.ofNat (97 + n) ∧
    lowerChar (Char.ofNat (97 + n)) = Char.ofNat (97 + n) ∧ isSpace (Char.ofNat (97 + n)) = false ∧
    isSpace (Char.ofNat (65 + n)) = false := by decide

/-- Lowering a character does nothing, or gives a letter for a letter. -/
theorem lowerChar_cases (c : Char) :
    lowerChar c = c ∨ lowerChar (lowerChar c) = lowerChar c ∧ isSpace (lowerChar c) = false ∧ isSpace c = false := by
  by_cases hupper : 'A' ≤ c ∧ c ≤ 'Z'
  · right
    have hlo : 65 ≤ c.toNat := hupper.1
    have hhi : c.toNat ≤ 90 := hupper.2
    obtain ⟨h₁, h₂, h₃, h₄⟩ := lowerChar_letter (c.toNat - 65) (by omega)
    have hc : Char.ofNat (65 + (c.toNat - 65)) = c := by
      rw [show 65 + (c.toNat - 65) = c.toNat by omega, Char.ofNat_toNat]
    rw [hc] at h₁ h₄
    rw [h₁]
    exact ⟨h₂, h₃, h₄⟩
  · by_cases hi : c.toNat = 0x130
    · right
      have hc : c = Char.ofNat 0x130 := by rw [← hi, Char.ofNat_toNat]
      rw [hc]
      decide
    · by_cases hk : c.toNat = 0x212A
      · right
        have hc : c = Char.ofNat 0x212A := by rw [← hk, Char.ofNat_toNat]
        rw [hc]
        decide
      · left
        simp [lowerChar, hupper, hi, hk]

theorem lowerChar_lowerChar (c : Char) : lowerChar (lowerChar c) = lowerChar c := by
  obtain h | h := lowerChar_cases c
  · rw [h, h]
  · exact h.1

theorem isSpace_lowerChar (c : Char) : isSpace (lowerChar c) = isSpace c := by
  obtain h | ⟨-, h, hc⟩ := lowerChar_cases c
  · rw [h]
  · rw [h, hc]

theorem toLower_toLower : toLower (toLower s) = toLower s := by
  simp [toLower, Function.comp_def, lowerChar_lowerChar]

theorem trimSpace_toLower : trimSpace (toLower s) = toLower (trimSpace s) := by
  simp [trimSpace, toLower, dropWhile_map, Function.comp_def, isSpace_lowerChar, ← map_reverse]

end

/-- What a character is compared as under Unicode case-folding, up to letters that have no ASCII form. -/
def foldChar (c : Char) : Char :=
  if 'A' ≤ c ∧ c ≤ 'Z' then Char.ofNat (c.toNat + 32)
  else if c.toNat = 0x17F then 's'
  else if c.toNat = 0x212A then 'k'
  else c

/-- `strings.EqualFold`. -/
def equalFold (s t : String) : Bool := s.toList.map foldChar == t.toList.map foldChar

theorem lowerChar_of_foldChar (h : foldChar d = c) (hs : c ≠ 's') (hlower : lowerChar c = c) : lowerChar d = c := by
  by_cases hupper : 'A' ≤ d ∧ d ≤ 'Z'
  · rw [← h, foldChar, lowerChar, if_pos hupper, if_pos hupper]
  · by_cases hlong : d.toNat = 0x17F
    · rw [foldChar, if_neg hupper, if_pos hlong] at h
      exact absurd h.symm hs
    · by_cases hkelvin : d.toNat = 0x212A
      · rw [foldChar, if_neg hupper, if_neg hlong, if_pos hkelvin] at h
        rw [lowerChar, if_neg hupper, if_neg (by omega), if_pos hkelvin, h]
      · rw [foldChar, if_neg hupper, if_neg hlong, if_neg hkelvin] at h
        rw [h, hlower]

/-- What is equal to a lower-case word without an s under case-folding is that word in lower case. -/
theorem toLower_of_equalFold (h : equalFold s w = true)
    (hword : w.toList.all (fun c => foldChar c = c ∧ c ≠ 's' ∧ lowerChar c = c) = true) : toLower s = w := by
  have hw : ∀ c ∈ w.toList, foldChar c = c ∧ c ≠ 's' ∧ lowerChar c = c :=
    fun c hc => of_decide_eq_true (all_eq_true.mp hword c hc)
  have hfold : s.toList.map foldChar = w.toList := by
    rw [equalFold, beq_iff_eq] at h
    rw [h]
    conv_rhs => rw [← map_id w.toList]
    exact map_congr_left fun c hc => (hw c hc).1
  have hlower : s.toList.map lowerChar = w.toList := by
    rw [← hfold]
    refine map_congr_left fun d hd => ?_
    have hmem : foldChar d ∈ w.toList := by
      rw [← hfold]
      exact mem_map_of_mem hd
    exact lowerChar_of_foldChar rfl (hw _ hmem).2.1 (hw _ hmem).2.2
  rw [toLower, hlower, String.ofList_toList]

theorem foldChar_of_lowerChar (h : lowerChar d = c) (hi : c ≠ 'i') (hfold : foldChar c = c) : foldChar d = c := by
  by_cases hupper : 'A' ≤ d ∧ d ≤ 'Z'
  · rw [← h, foldChar, lowerChar, if_pos hupper, if_pos hupper]
  · rw [lowerChar, if_neg hupper] at h
    split at h
    · exact absurd h.symm hi
    split at h
    · rename_i hkelvin
      rw [foldChar, if_neg hupper, if_neg (by omega), if_pos hkelvin, h]
    · rw [h, hfold]

/-- What is a word without an i in lower case is equal to it under case-folding. -/
theorem equalFold_of_toLower (h : toLower s = w) (hword : w.toList.all (fun c => foldChar c = c ∧ c ≠ 'i') = true) :
    equalFold s w = true := by
  have hw : ∀ c ∈ w.toList, foldChar c = c ∧ c ≠ 'i' := fun c hc => of_decide_eq_true (all_eq_true.mp hword c hc)
  have hlower : s.toList.map lowerChar = w.toList := by rw [← h, toLower, String.toList_ofList]
  rw [equalFold, beq_iff_eq]
  calc s.toList.map foldChar = (s.toList.map lowerChar).map foldChar := by
        rw [map_map]
        refine map_congr_left fun d hd => ?_
        have hmem : lowerChar d ∈ w.toList := by
          rw [← hlower]
          exact mem_map_of_mem hd
        rw [Function.comp_apply, (hw _ hmem).1]
        exact foldChar_of_lowerChar rfl (hw _ hmem).2 (hw _ hmem).1
    _ = w.toList.map foldChar := by rw [hlower]

theorem eq_of_lowerChar (h : lowerChar d = c) (hc : ¬('a' ≤ c ∧ c ≤ 'z')) : d = c := by
  unfold lowerChar at h
  split at h
  · rename_i hupper
    have hlo : 65 ≤ d.toNat := hupper.1
    have hhi : d.toNat ≤ 90 := hupper.2
    refine absurd ?_ hc
    have hletter : ∀ n < 26, 'a' ≤ Char.ofNat (65 + n + 32) ∧ Char.ofNat (65 + n + 32) ≤ 'z' := by decide
    have hd := hletter (d.toNat - 65) (by omega)
    rwa [show 65 + (d.toNat - 65) + 32 = d.toNat + 32 by omega, h] at hd
  split at h
  · exact absurd (h ▸ by decide) hc
  split at h
  · exact absurd (h ▸ by decide) hc
  · exact h

/-- What has no letters is the same in lower case. -/
theorem eq_of_toLower (h : toLower s = w) (hword : w.toList.all (fun c => ¬('a' ≤ c ∧ c ≤ 'z')) = true) : s = w := by
  have hlower : s.toList.map lowerChar = w.toList := by rw [← h, toLower, String.toList_ofList]
  have hsame : s.toList.map lowerChar = s.toList := by
    conv_rhs => rw [← map_id s.toList]
    refine map_congr_left fun d hd => ?_
    have hmem : lowerChar d ∈ w.toList := by
      rw [← hlower]
      exact mem_map_of_mem hd
    exact (eq_of_lowerChar rfl (of_decide_eq_true (all_eq_true.mp hword _ hmem))).symm
  exact String.toList_injective (hsame.symm.trans hlower)

attribute [irreducible] equalFold

/-- An error value: its text, and the sentinel errors that `errors.Is` finds in its chain. -/
structure Err (Sentinel : Type) where
  text : String
  wraps : List Sentinel
  deriving DecidableEq, Repr

variable {Sentinel : Type}

/-- `errors.Is`. -/
def Err.is [DecidableEq Sentinel] (e : Err Sentinel) (s : Sentinel) : Bool := s ∈ e.wraps

/-- `fmt.Errorf(context + ": %w", e)`. -/
def Err.wrap (context : String) (e : Err Sentinel) : Err Sentinel := ⟨context ++ ": " ++ e.text, e.wraps⟩

/-- `errors.New`, and `fmt.Errorf` without `%w`: nothing is wrapped. -/
def Err.new (text : String) : Err Sentinel := ⟨text, []⟩

end Dirextalk.Lib.Go

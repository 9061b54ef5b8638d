/-
  Dirextalk.Lib.Json — decoded JSON as `encoding/json` leaves it in an `any`, and how
  `fmt.Sprint` prints it.

  A number is a `float64`, kept as the shortest decimal that denotes it, which is what
  `strconv` prints. Nothing but a text prints as an arbitrary word: the first character of
  everything else says what it is (`Json.chars_head`).
-/
import Mathlib.Data.List.Sort
import Dirextalk.Lib.Go

namespace Dirextalk.Lib

open Go

/-! ## Numbers -/

/-- `±0.d₁d₂… × 10^point`; zero has no digits. -/
structure Decimal where
  negative : Bool
  digits : List (Fin 10)
  point : Int
  normal : digits.head? ≠ some 0 ∧ digits.getLast? ≠ some 0

namespace Decimal

def ofDigit (d : Fin 10) : Decimal :=
  if h : d = 0 then ⟨false, [], 0, by simp⟩ else ⟨false, [d], 1, by simpa using h⟩

def isZero (x : Decimal) : Bool := x.digits.isEmpty

def digitChar (d : Fin 10) : Char := Char.ofNat (48 + d)

/-- `%e`: one digit, the others after the point, an exponent of at least two digits. -/
def exponential (x : Decimal) : List Char :=
  let e := x.point - 1
  (x.digits.take 1).map digitChar ++ (if x.digits.length ≤ 1 then [] else '.' :: (x.digits.drop 1).map digitChar) ++
    ['e', if e < 0 then '-' else '+'] ++ (if e.natAbs < 10 then ['0'] else []) ++ Nat.toDigits 10 e.natAbs

/-- `%f`, with as many decimals as there are. -/
def positional (x : Decimal) : List Char :=
  if x.point ≤ 0 then '0' :: '.' :: (List.replicate x.point.natAbs '0' ++ x.digits.map digitChar)
  else
    let n := x.point.toNat
    (x.digits.take n).map digitChar ++ List.replicate (n - x.digits.length) '0' ++
      (if x.digits.length ≤ n then [] else '.' :: (x.digits.drop n).map digitChar)

/-- `%v`. -/
def chars (x : Decimal) : List Char :=
  (if x.negative then ['-'] else []) ++
    (if x.isZero then ['0'] else if x.point < -3 ∨ 6 < x.point then x.exponential else x.positional)

end Decimal

/-! ## Values -/

inductive Json where
  | null
  | bool (b : Bool)
  | number (x : Decimal)
  | string (s : String)
  | array (items : List Json)
  | object (fields : List (String × Json))

namespace Json

/-- The entries of a map, in the order of their keys. -/
def sorted (entries : List (String × List Char)) : List (String × List Char) :=
  entries.insertionSort fun a b => a.1 ≤ b.1

mutual

/-- `fmt.Sprint`. -/
def chars : Json → List Char
  | .null => "<nil>".toList
  | .bool b => if b then "true".toList else "false".toList
  | .number x => x.chars
  | .string s => s.toList
  | .array items => '[' :: (List.intercalate [' '] (itemChars items) ++ [']'])
  | .object fields =>
    "map[".toList ++ (List.intercalate [' '] ((sorted (fieldChars fields)).map fun e => e.1.toList ++ ':' :: e.2) ++ [']'])

def itemChars : List Json → List (List Char)
  | [] => []
  | v :: rest => v.chars :: itemChars rest

def fieldChars : List (String × Json) → List (String × List Char)
  | [] => []
  | (key, v) :: rest => (key, v.chars) :: fieldChars rest

end

end Json

abbrev Object := String → Option Json

/-! ## What everything but a text starts with -/

/-- The first characters of what is neither a text nor nothing. -/
def Json.heads : List Char := "-0123456789tf[m".toList

theorem Decimal.digitChar_mem_heads (d : Fin 10) : digitChar d ∈ Json.heads := by
  revert d
  decide

theorem Decimal.chars_head (x : Decimal) : ∃ c rest, x.chars = c :: rest ∧ c ∈ Json.heads := by
  by_cases hneg : x.negative = true
  · exact ⟨'-', _, by rw [chars, if_pos hneg]; rfl, by decide⟩
  · simp only [chars, hneg, Bool.false_eq_true, if_false, List.nil_append]
    by_cases hzero : x.isZero = true
    · exact ⟨'0', [], by simp [hzero], by decide⟩
    rw [if_neg hzero]
    obtain ⟨d, rest, hdigits⟩ : ∃ d rest, x.digits = d :: rest := by
      cases hx : x.digits with
      | nil => simp [isZero, hx] at hzero
      | cons d rest => exact ⟨d, rest, rfl⟩
    split
    · exact ⟨digitChar d, _, by simp [exponential, hdigits]; rfl, digitChar_mem_heads d⟩
    · unfold positional
      split
      · exact ⟨'0', _, rfl, by decide⟩
      · obtain ⟨n, hn⟩ : ∃ n, x.point.toNat = n + 1 := ⟨x.point.toNat - 1, by omega⟩
        exact ⟨digitChar d, _, by simp [hn, hdigits]; rfl, digitChar_mem_heads d⟩

theorem Json.chars_head {v : Json} (htext : ∀ s, v ≠ .string s) (hnull : v ≠ .null) :
    ∃ c rest, v.chars = c :: rest ∧ c ∈ Json.heads := by
  cases v with
  | null => exact absurd rfl hnull
  | string s => exact absurd rfl (htext s)
  | number x =>
    rw [chars]
    exact x.chars_head
  | bool b =>
    cases b with
    | true => exact ⟨'t', _, by simp [chars]; rfl, by decide⟩
    | false => exact ⟨'f', _, by simp [chars]; rfl, by decide⟩
  | array items => exact ⟨'[', _, by rw [chars], by decide⟩
  | object fields => exact ⟨'m', _, by rw [chars]; rfl, by decide⟩

example : (Json.array [.number (Decimal.ofDigit 7), .bool true, .null]).chars = "[7 true <nil>]".toList := by
  simp [Json.chars, Json.itemChars]
  decide

end Dirextalk.Lib

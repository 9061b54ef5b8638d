/-
  Dirextalk.Sync.Tokens — sync tokens (`syncapi/types/types.go`).

  A token is a letter and its positions in decimal, joined by `_`; a byte string is the list
  of its characters. The parser of topology tokens lets a third number through, for which its
  array has no place (`third_part_panics`).
-/
import Mathlib.Order.Basic

namespace Dirextalk.Sync.Tokens

open List

/-- `%d` of a position. -/
def printPosition (n : Int64) : List Char :=
  if n.toInt < 0 then '-' :: Nat.toDigits 10 n.toInt.natAbs else Nat.toDigits 10 n.toInt.natAbs

/-- `strconv.ParseInt(p, 10, 64)` -/
def parsePosition (p : List Char) : Option Int64 :=
  let digits := if p.head? = some '-' ∨ p.head? = some '+' then p.tail else p
  let n := (if p.head? = some '-' then -1 else 1) * (Nat.ofDigitChars 10 digits 0 : Int)
  if digits ≠ [] ∧ digits.all Char.isDigit ∧ -0x8000000000000000 ≤ n ∧ n < 0x8000000000000000 then some (.ofInt n) else none

inductive Parsed (α : Type) where
  | ok (token : α)
  | error
  | panic
  deriving DecidableEq, Repr

/-- The loop over the parts, which stops at an index of `stop`. The array has `size` places, of which `done` are set. -/
def readPositions (size : Nat) (stop : Nat → Bool) : List (List Char) → List Int64 → Parsed (List Int64)
  | [], done => .ok done
  | p :: parts, done =>
    if stop done.length then .ok done
    else match parsePosition p with
      | none => .error
      | some pos => if done.length < size then readPositions size stop parts (done ++ [pos]) else .panic

def parseToken (letter : Char) (read : List Char → Parsed (List Int64)) (make : List Int64 → α) : List Char → Parsed α
  | [] => .error
  | c :: rest =>
    if c ≠ letter then .error
    else match read rest with
      | .ok positions => .ok (make positions)
      | .error => .error
      | .panic => .panic

/-- The fields of a `StreamingToken`, in the order in which they are printed. -/
inductive Stream where
  | pdu | typing | receipt | sendToDevice | invite | accountData | deviceList | notificationData | presence
  deriving DecidableEq, Repr

def streams : List Stream :=
  [.pdu, .typing, .receipt, .sendToDevice, .invite, .accountData, .deviceList, .notificationData, .presence]

abbrev StreamingToken := Stream → Int64

structure TopologyToken where
  depth : Int64
  pduPosition : Int64
  deriving DecidableEq, Repr

namespace StreamingToken

def string (t : StreamingToken) : List Char := 's' :: ['_'].intercalate ((streams.map t).map printPosition)

/-- Positions that are not given are zero. -/
def ofPositions (l : List Int64) : StreamingToken := fun stream => l.getD stream.ctorIdx 0

def isAfter (t other : StreamingToken) : Bool := streams.any fun stream => t stream > other stream

def withUpdates (t other : StreamingToken) : StreamingToken :=
  fun stream => if other stream > t stream then other stream else t stream

end StreamingToken

def TopologyToken.string (t : TopologyToken) : List Char :=
  if t.depth ≤ 0 ∧ t.pduPosition ≤ 0 then [] else 't' :: ['_'].intercalate ([t.depth, t.pduPosition].map printPosition)

/-- What follows a `.` is left out. -/
def newStreamTokenFromString : List Char → Parsed StreamingToken :=
  parseToken 's' (fun rest => readPositions 9 (· ≥ 9) (((rest.splitOn '.').headD []).splitOn '_') []) .ofPositions

def newTopologyTokenFromString : List Char → Parsed TopologyToken :=
  parseToken 't' (fun rest => readPositions 2 (· > 2) (rest.splitOn '_') []) fun l => ⟨l.getD 0 0, l.getD 1 0⟩

/-! ## Printing and parsing -/

theorem isDigit_toDigits (h : c ∈ Nat.toDigits 10 n) : c.isDigit = true := Nat.isDigit_of_mem_toDigits (by decide) (by decide) h

theorem not_mem_print (hminus : c ≠ '-') (hdigit : c.isDigit = false) (n : Int64) : c ∉ printPosition n := by
  have hnot : c ∉ Nat.toDigits 10 n.toInt.natAbs := fun h => by simp [isDigit_toDigits h] at hdigit
  unfold printPosition
  split <;> simp [hminus, hnot]

theorem parsePosition_print (n : Int64) : parsePosition (printPosition n) = some n := by
  have hall : (Nat.toDigits 10 n.toInt.natAbs).all Char.isDigit = true := all_eq_true.mpr fun _ => isDigit_toDigits
  have hhead : ∀ c, c.isDigit = false → (Nat.toDigits 10 n.toInt.natAbs).head? ≠ some c := fun c hc h => by
    simp [isDigit_toDigits (mem_of_mem_head? h)] at hc
  have hrange : -0x8000000000000000 ≤ n.toInt ∧ n.toInt < 0x8000000000000000 := ⟨n.le_toInt, n.toInt_lt⟩
  unfold printPosition parsePosition
  split
  · have hvalue : -1 * (n.toInt.natAbs : Int) = n.toInt := by omega
    simp only [head?_cons, true_or, if_true, tail_cons, Nat.ofDigitChars_ten_toDigits, hvalue]
    rw [if_pos ⟨Nat.toDigits_ne_nil, hall, hrange⟩, Int64.ofInt_toInt]
  · have hvalue : 1 * (n.toInt.natAbs : Int) = n.toInt := by omega
    simp only [hhead '-' (by decide), hhead '+' (by decide), or_self, if_false, Nat.ofDigitChars_ten_toDigits, hvalue]
    rw [if_pos ⟨Nat.toDigits_ne_nil, hall, hrange⟩, Int64.ofInt_toInt]

theorem readPositions_print (hstop : ∀ i < size, stop i = false) (hlen : done.length + l.length ≤ size) :
    readPositions size stop (l.map printPosition) done = .ok (done ++ l) := by
  induction l generalizing done with
  | nil => simp [readPositions]
  | cons pos l ih =>
    rw [length_cons] at hlen
    rw [map_cons, readPositions, hstop _ (by omega), parsePosition_print, if_neg Bool.false_ne_true]
    dsimp only
    rw [if_pos (by omega), ih (by simp; omega)]
    simp

theorem readPositions_split (l : List Int64) (hl : l ≠ []) (hlen : l.length ≤ size) (hstop : ∀ i < size, stop i = false) :
    readPositions size stop ((['_'].intercalate (l.map printPosition)).splitOn '_') [] = .ok l := by
  rw [splitOn_intercalate]
  · exact readPositions_print hstop (by simpa using hlen)
  · simpa using fun n _ => not_mem_print (by decide) (by decide) n
  · simpa using hl

theorem newStreamTokenFromString_string (t : StreamingToken) : newStreamTokenFromString t.string = .ok t := by
  have hdot : ∀ n, '.' ∉ printPosition n := not_mem_print (by decide) (by decide)
  have hhead : (['_'].intercalate ((streams.map t).map printPosition)).splitOn '.' = [_] :=
    splitOn_eq_singleton (by simp [streams, intercalate, hdot])
  rw [newStreamTokenFromString, StreamingToken.string, parseToken, if_neg (by simp), hhead, headD_cons,
    readPositions_split (streams.map t) (cons_ne_nil _ _) (Nat.le_refl 9) (by simp)]
  exact congrArg Parsed.ok (funext fun stream => by cases stream <;> rfl)

theorem newTopologyTokenFromString_string (t : TopologyToken) (h : ¬ (t.depth ≤ 0 ∧ t.pduPosition ≤ 0)) :
    newTopologyTokenFromString t.string = .ok t := by
  rw [newTopologyTokenFromString, TopologyToken.string, if_neg h, parseToken, if_neg (by simp),
    readPositions_split [t.depth, t.pduPosition] (cons_ne_nil _ _) (Nat.le_refl 2) (by simp; omega)]
  rfl

/-! ## Panics -/

theorem parseToken_panic {read : List Char → Parsed (List Int64)} :
    parseToken letter read make tok = .panic ↔ ∃ rest, tok = letter :: rest ∧ read rest = .panic := by
  obtain _ | ⟨c, rest⟩ := tok
  · simp [parseToken]
  by_cases hc : c = letter
  · cases hread : read rest <;> simp [parseToken, hc, hread]
  · simp [parseToken, hc]

theorem readPositions_safe (h : ∀ i, stop i = false → i < size) : readPositions size stop parts done ≠ .panic := by
  induction parts generalizing done with
  | nil => simp [readPositions]
  | cons p parts ih =>
    rw [readPositions]
    split
    · simp
    · rename_i hstop
      cases parsePosition p with
      | none => simp
      | some pos =>
        dsimp only
        rw [if_pos (h _ (by simpa using hstop))]
        exact ih

def threeNumbers : List (List Char) → Bool
  | p :: q :: r :: _ => (parsePosition p).isSome && (parsePosition q).isSome && (parsePosition r).isSome
  | _ => false

theorem readPositions_panic (parts : List (List Char)) :
    readPositions 2 (· > 2) parts [] = .panic ↔ threeNumbers parts = true := by
  rcases parts with _ | ⟨p, _ | ⟨q, _ | ⟨r, parts⟩⟩⟩
  · simp [readPositions, threeNumbers]
  · cases hp : parsePosition p <;> simp [readPositions, threeNumbers, hp]
  · cases hp : parsePosition p <;> cases hq : parsePosition q <;> simp [readPositions, threeNumbers, hp, hq]
  · cases hp : parsePosition p <;> cases hq : parsePosition q <;> cases hr : parsePosition r <;>
      simp [readPositions, threeNumbers, hp, hq, hr]

/-! ## The order of stream tokens -/

theorem isAfter_iff (t other : StreamingToken) : t.isAfter other = true ↔ ¬ ∀ stream, t stream ≤ other stream := by
  have hall : ∀ stream, stream ∈ streams := fun stream => by cases stream <;> decide
  simp [StreamingToken.isAfter, hall, ← Int64.not_le]

theorem withUpdates_le (t other : StreamingToken) (stream : Stream) (pos : Int64) :
    t.withUpdates other stream ≤ pos ↔ t stream ≤ pos ∧ other stream ≤ pos := by
  simp only [StreamingToken.withUpdates, gt_iff_lt, Int64.lt_iff_toInt_lt, Int64.le_iff_toInt_le]
  split <;> omega

/-- Printed tokens are read back; the parsers never panic, but the one of topology tokens if three numbers
come first; updates give the least upper bound, and a token is after those that are no upper bound. -/
theorem tokens_safe_iff (s other bound : StreamingToken) (t : TopologyToken) (tok : List Char) :
    newStreamTokenFromString s.string = .ok s ∧
      (0 < t.depth ∧ 0 < t.pduPosition → newTopologyTokenFromString t.string = .ok t) ∧
      newStreamTokenFromString tok ≠ .panic ∧
      (newTopologyTokenFromString tok = .panic ↔ ∃ rest, tok = 't' :: rest ∧ threeNumbers (rest.splitOn '_') = true) ∧
      s ≤ s.withUpdates other ∧ other ≤ s.withUpdates other ∧ (s ≤ bound → other ≤ bound → s.withUpdates other ≤ bound) ∧
      (s.isAfter other = true ↔ ¬ s ≤ other) ∧ s.isAfter s = false ∧ s.isAfter (s.withUpdates other) = false := by
  have hbounds := fun stream => (withUpdates_le s other stream _).mp (Int64.le_refl _)
  have hnot : ∀ u : StreamingToken, s ≤ u → s.isAfter u = false := fun u h => by
    rw [← Bool.not_eq_true, isAfter_iff, not_not]
    exact h
  refine ⟨newStreamTokenFromString_string s, fun h => newTopologyTokenFromString_string t fun hle => ?_, fun h => ?_, ?_,
    fun stream => (hbounds stream).1, fun stream => (hbounds stream).2,
    fun h h' stream => (withUpdates_le s other stream _).mpr ⟨h stream, h' stream⟩, isAfter_iff s other,
    hnot s fun _ => Int64.le_refl _, hnot _ fun stream => (hbounds stream).1⟩
  · exact Int64.not_le.mpr h.1 hle.1
  · obtain ⟨rest, -, hread⟩ := parseToken_panic.mp h
    exact readPositions_safe (by simp) hread
  · simp only [newTopologyTokenFromString, parseToken_panic, readPositions_panic]

/-- A topology token with a third position. -/
theorem third_part_panics : newTopologyTokenFromString "t1_2_3".toList = .panic := by decide

end Dirextalk.Sync.Tokens

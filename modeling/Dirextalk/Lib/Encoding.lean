/-
  Dirextalk.Lib.Encoding — the encodings of Go's standard library that identities are made
  of: strings as UTF-8, `encoding/hex`, string values of `encoding/json`, `crypto/sha256`.

  Everything is by structural recursion over lists, so that a digest of a closed term
  evaluates in the kernel.
-/
import Dirextalk.Lib.Go

namespace Dirextalk.Lib.Go

/-- `[]byte(s)`. -/
def bytesOf (s : String) : Bytes := s.toByteArray.data.toList

/-! ## Hexadecimal -/

def hexDigits : List Char := "0123456789abcdef".toList

def hexDigit (n : Nat) : Char := hexDigits.getD n '0'

/-- `hex.EncodeToString`. -/
def hexEncode (b : Bytes) : String :=
  String.ofList (b.flatMap fun x => [hexDigit (x.toNat / 16), hexDigit (x.toNat % 16)])

theorem hexDigit_inj : ∀ m < 16, ∀ n < 16, hexDigit m = hexDigit n → m = n := by decide

theorem hexEncode_injective : Function.Injective hexEncode := by
  intro a b h
  replace h := String.ofList_injective h
  induction a generalizing b with
  | nil =>
    cases b with
    | nil => rfl
    | cons => cases h
  | cons x a ih =>
    cases b with
    | nil => cases h
    | cons y b =>
      simp only [List.flatMap_cons, List.cons_append, List.nil_append, List.cons.injEq] at h
      obtain ⟨hhigh, hlow, htail⟩ := h
      have hx := x.toNat_lt
      have hy := y.toNat_lt
      have hdiv := hexDigit_inj _ (by omega) _ (by omega) hhigh
      have hmod := hexDigit_inj _ (by omega) _ (by omega) hlow
      rw [UInt8.toNat_inj.mp (by omega : x.toNat = y.toNat), ih htail]

def isHexDigit (c : Char) : Bool := c ∈ hexDigits || c ∈ "ABCDEF".toList

/-- Whether `hex.DecodeString` succeeds. -/
def hexDecodes (s : String) : Bool := s.length % 2 == 0 && s.toList.all isHexDigit

/-! ## JSON strings -/

/-- A character inside a JSON string of `json.Marshal`, which also escapes HTML. -/
def jsonChar (c : Char) : List Char :=
  let escaped := ['\\', 'u', hexDigit (c.toNat / 4096 % 16), hexDigit (c.toNat / 256 % 16), hexDigit (c.toNat / 16 % 16),
    hexDigit (c.toNat % 16)]
  if c = '"' ∨ c = '\\' then ['\\', c]
  else if c.toNat = 0x08 then ['\\', 'b']
  else if c.toNat = 0x0C then ['\\', 'f']
  else if c = '\n' then ['\\', 'n']
  else if c = '\r' then ['\\', 'r']
  else if c = '\t' then ['\\', 't']
  else if c.toNat < 0x20 ∨ c ∈ ['<', '>', '&'] ∨ c.toNat = 0x2028 ∨ c.toNat = 0x2029 then escaped
  else [c]

def jsonString (s : String) : String := String.ofList (['"'] ++ s.toList.flatMap jsonChar ++ ['"'])

/-- `json.Marshal` of a struct of strings, under its field names. -/
def jsonStrings (fields : List (String × String)) : String :=
  "\x7b" ++ ",".intercalate (fields.map fun f => jsonString f.1 ++ ":" ++ jsonString f.2) ++ "\x7d"

/-! ## SHA-256 -/

namespace Sha256

def initial : List UInt32 :=
  [0x6a09e667, 0xbb67ae85, 0x3c6ef372, 0xa54ff53a, 0x510e527f, 0x9b05688c, 0x1f83d9ab, 0x5be0cd19]

def constants : List UInt32 :=
  [0x428a2f98, 0x71374491, 0xb5c0fbcf, 0xe9b5dba5, 0x3956c25b, 0x59f111f1, 0x923f82a4, 0xab1c5ed5,
   0xd807aa98, 0x12835b01, 0x243185be, 0x550c7dc3, 0x72be5d74, 0x80deb1fe, 0x9bdc06a7, 0xc19bf174,
   0xe49b69c1, 0xefbe4786, 0x0fc19dc6, 0x240ca1cc, 0x2de92c6f, 0x4a7484aa, 0x5cb0a9dc, 0x76f988da,
   0x983e5152, 0xa831c66d, 0xb00327c8, 0xbf597fc7, 0xc6e00bf3, 0xd5a79147, 0x06ca6351, 0x14292967,
   0x27b70a85, 0x2e1b2138, 0x4d2c6dfc, 0x53380d13, 0x650a7354, 0x766a0abb, 0x81c2c92e, 0x92722c85,
   0xa2bfe8a1, 0xa81a664b, 0xc24b8b70, 0xc76c51a3, 0xd192e819, 0xd6990624, 0xf40e3585, 0x106aa070,
   0x19a4c116, 0x1e376c08, 0x2748774c, 0x34b0bcb5, 0x391c0cb3, 0x4ed8aa4a, 0x5b9cca4f, 0x682e6ff3,
   0x748f82ee, 0x78a5636f, 0x84c87814, 0x8cc70208, 0x90befffa, 0xa4506ceb, 0xbef9a3f7, 0xc67178f2]

def rotr (x : UInt32) (n : UInt32) : UInt32 := (x >>> n) ||| (x <<< (32 - n))

/-- Big-endian words of a block. -/
def words : Bytes → List UInt32
  | a :: b :: c :: d :: rest => (a.toUInt32 <<< 24 ||| b.toUInt32 <<< 16 ||| c.toUInt32 <<< 8 ||| d.toUInt32) :: words rest
  | _ => []

/-- `n` more words of the message schedule; `w` is the schedule so far, newest word first. -/
def extend : Nat → List UInt32 → List UInt32
  | 0, w => w
  | n + 1, w =>
    let s0 := let x := w.getD 14 0; rotr x 7 ^^^ rotr x 18 ^^^ (x >>> 3)
    let s1 := let x := w.getD 1 0; rotr x 17 ^^^ rotr x 19 ^^^ (x >>> 10)
    extend n ((w.getD 15 0 + s0 + w.getD 6 0 + s1) :: w)

def round (v : List UInt32) (kw : UInt32 × UInt32) : List UInt32 :=
  match v with
  | [a, b, c, d, e, f, g, h] =>
    let t1 := h + (rotr e 6 ^^^ rotr e 11 ^^^ rotr e 25) + ((e &&& f) ^^^ (~~~e &&& g)) + kw.1 + kw.2
    let t2 := (rotr a 2 ^^^ rotr a 13 ^^^ rotr a 22) + ((a &&& b) ^^^ (a &&& c) ^^^ (b &&& c))
    [t1 + t2, a, b, c, d + t1, e, f, g]
  | v => v

def compress (h : List UInt32) (block : Bytes) : List UInt32 :=
  let w := (extend 48 (words block).reverse).reverse
  List.zipWith (· + ·) h ((constants.zip w).foldl round h)

def bigEndian (n k : Nat) : Bytes := ((List.range k).map fun i => UInt8.ofNat (n >>> (8 * i))).reverse

/-- The message with its delimiter, zeros and length in bits, a multiple of 64 bytes. -/
def pad (b : Bytes) : Bytes :=
  b ++ [0x80] ++ List.replicate ((119 - b.length % 64) % 64) 0 ++ bigEndian (8 * b.length) 8

/-- `n` blocks of 64 bytes. -/
def blocks : Nat → Bytes → List Bytes
  | 0, _ => []
  | n + 1, b => b.take 64 :: blocks n (b.drop 64)

end Sha256

/-- `sha256.Sum256`. -/
def sum256 (b : Bytes) : Bytes :=
  let padded := Sha256.pad b
  ((Sha256.blocks (padded.length / 64) padded).foldl Sha256.compress Sha256.initial).flatMap fun w =>
    Sha256.bigEndian w.toNat 4

example : hexEncode (sum256 (bytesOf "abc")) = "ba7816bf8f01cfea414140de5dae2223b00361a396177a9cb410ff61f20015ad" := by
  decide +kernel

end Dirextalk.Lib.Go

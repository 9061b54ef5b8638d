/-
  Dirextalk.Action.Params — the boundary of product actions (`p2p/internal/action`): the
  parameter map of a request, read as the code reads it, and the error of an action.
-/
import Dirextalk.Lib.Go

namespace Dirextalk.Action

open Lib.Go List

/-- A value of a decoded parameter map, as far as the readers tell values apart. -/
inductive Value where
  | string (s : String)
  /-- a `fmt.Stringer`, such as a JSON number -/
  | stringer (s : String)
  | strings (l : List String)
  | list (l : List Value)
  | bool (b : Bool)
  /-- a number, of which only its being zero is read -/
  | number (n : Int)
  | object (fields : List (String × Value))
  | other

/-- `map[string]any`. -/
abbrev Params := String → Option Value

/-- `String(value)`: texts are trimmed, everything else is empty. -/
def Value.text : Value → String
  | .string s | .stringer s => trimSpace s
  | _ => ""

/-- `Bool(value)`. -/
def Value.truth : Value → Bool
  | .bool b => b
  | .string s => equalFold (trimSpace s) "true" || trimSpace s == "1"
  | .number n => n != 0
  | _ => false

section

variable (params : Params)

section

variable (key : String)

def Params.string : String := ((params key).map Value.text).getD ""

theorem Value.trimSpace_text (value : Value) : trimSpace value.text = value.text := by
  cases value with
  | string s | stringer s => exact trimSpace_trimSpace s
  | _ => rfl

/-- What is read as a text has no blanks around it. -/
theorem Params.trimSpace_string : trimSpace (params.string key) = params.string key := by
  unfold Params.string
  cases params key with
  | none => rfl
  | some value => exact value.trimSpace_text

/-- `params.Bool(key)`, with a default for a key that is not there. -/
def Params.boolOr (absent : Bool) : Bool := ((params key).map Value.truth).getD absent

/-- `value.(map[string]any)` of an entry, the empty map when it is none. -/
def Params.object : Params :=
  match params key with
  | some (.object fields) => fun k => fields.lookup k
  | _ => fun _ => none

/-- `params[key] = value` in a copy of the map. -/
def Params.set (value : Value) : Params := fun k => if k = key then some value else params k

/-- `normalizedStrings`: trimmed, without empty texts and repetitions. -/
def normalizedStrings (values : List String) : List String :=
  ((values.map trimSpace).filter (· ≠ "")).foldl (fun out v => if v ∈ out then out else out ++ [v]) []

def Params.strings : List String :=
  match params key with
  | some (.strings l) => normalizedStrings l
  | some (.list l) => normalizedStrings (l.map Value.text)
  | _ => []

end

variable (keys : List String)

def Params.firstString : String :=
  ((keys.map params.string).find? (· ≠ "")).getD ""

def Params.firstListString : String :=
  ((keys.map params.strings).find? (· ≠ [])).bind (·.head?) |>.getD ""

/-- `firstMemberID`. -/
def firstMemberID : String :=
  let userID := params.firstString ["user_id", "user_mxid", "peer_mxid", "mxid"]
  if userID ≠ "" then userID else params.firstListString ["user_ids", "user_mxids", "peer_mxids", "invitees"]

theorem trimSpace_of_mem_normalizedStrings {values : List String} {v : String} (h : v ∈ normalizedStrings values) :
    trimSpace v = v := by
  -- the fold only takes over entries of the trimmed list
  have hmem : v ∈ (values.map trimSpace).filter (· ≠ "") := by
    revert h
    refine foldlRecOn (motive := fun out => v ∈ out → _) _ _ (fun h => absurd h not_mem_nil) ?_
    intro out ih w hw h
    split at h
    · exact ih h
    · obtain h | h := mem_append.mp h
      · exact ih h
      · rw [mem_singleton.mp h]
        exact hw
  obtain ⟨w, -, rfl⟩ := mem_map.mp (mem_of_mem_filter hmem)
  exact trimSpace_trimSpace w

theorem Params.trimSpace_firstString :
    trimSpace (params.firstString keys) = params.firstString keys := by
  unfold Params.firstString
  cases hfind : (keys.map params.string).find? (· ≠ "") with
  | none => rfl
  | some v =>
    obtain ⟨key, -, rfl⟩ := mem_map.mp (mem_of_find?_eq_some hfind)
    exact params.trimSpace_string key

theorem Params.trimSpace_firstListString :
    trimSpace (params.firstListString keys) = params.firstListString keys := by
  unfold Params.firstListString
  cases hfind : (keys.map params.strings).find? (· ≠ []) with
  | none => rfl
  | some l =>
    obtain ⟨key, -, rfl⟩ := mem_map.mp (mem_of_find?_eq_some hfind)
    rw [Option.bind_some]
    cases hhead : (params.strings key).head? with
    | none => rfl
    | some v =>
      have hv := mem_of_head? hhead
      unfold Params.strings at hv
      split at hv
      · exact trimSpace_of_mem_normalizedStrings hv
      · exact trimSpace_of_mem_normalizedStrings hv
      · cases hv

theorem trimSpace_firstMemberID : trimSpace (firstMemberID params) = firstMemberID params := by
  unfold firstMemberID
  dsimp only
  split
  · exact params.trimSpace_firstString _
  · exact params.trimSpace_firstListString _

end

/-- `fallbackString` of the service. -/
def fallbackString (value fallback : String) : String := if trimSpace value ≠ "" then trimSpace value else fallback

structure ApiError where
  status : Nat
  error : String
  code : String
  operationID : String
  currentRoomID : String

def codedError (status : Nat) (code message : String) : ApiError := ⟨status, message, code, "", ""⟩

def statusError (status : Nat) (message : String) : ApiError := codedError status "" message

def badRequest (message : String) : ApiError := statusError 400 message

def internalError (err : String) : ApiError :=
  let message :=
    if err = "matrix member lookup is not configured" then "Matrix member lookup is not configured"
    else if err = "matrix transport is not configured" then "Matrix transport is not configured"
    else err
  statusError 500 ("internal error: " ++ message)

end Dirextalk.Action

/-
  Dirextalk.Client.Transactions — responses kept for retries of a request
  (`internal/transactions/transactions.go`). New ones go into the first of two maps; a
  clean-up moves it to the second place, and what was there is gone.
-/
import Mathlib.Logic.Function.Basic

namespace Dirextalk.Client

open Function List

/-- `endpoint` is `filepath.Dir` of the path. -/
structure CacheKey where
  accessToken : String
  txnID : String
  endpoint : String
  deriving DecidableEq

structure Cache (ρ : Type) where
  front : CacheKey → Option ρ := fun _ => none
  back : CacheKey → Option ρ := fun _ => none

inductive Op (ρ : Type) where
  | addTransaction (key : CacheKey) (res : ρ)
  | clean

variable {ρ : Type} {key : CacheKey} {res : ρ}

def Cache.fetchTransaction (c : Cache ρ) (key : CacheKey) : Option ρ := (c.front key).or (c.back key)

def Op.run : Op ρ → Cache ρ → Cache ρ
  | .addTransaction key res, c => { c with front := update c.front key (some res) }
  | .clean, c => { back := c.front }

/-- The newest response for the key, with at most `n` clean-ups since; the newest operation comes first. -/
inductive Newest (key : CacheKey) (res : ρ) : Nat → List (Op ρ) → Prop where
  | added : Newest key res n (.addTransaction key res :: ops)
  | other (hother : k ≠ key) : Newest key res n ops → Newest key res n (.addTransaction k r :: ops)
  | clean : Newest key res n ops → Newest key res (n + 1) (.clean :: ops)

/-- Whatever was added and cleaned, a request gets the newest response for its key, unless two clean-ups came after it. -/
theorem fetchTransaction_iff (ops : List (Op ρ)) :
    (ops.foldr Op.run {}).fetchTransaction key = some res ↔ Newest key res 1 ops := by
  suffices h : ∀ ops : List (Op ρ), ((ops.foldr Op.run {}).front key = some res ↔ Newest key res 0 ops) ∧
      ((ops.foldr Op.run {}).fetchTransaction key = some res ↔ Newest key res 1 ops) from (h ops).2
  intro ops
  induction ops with
  | nil => exact ⟨⟨nofun, nofun⟩, ⟨nofun, nofun⟩⟩
  | cons op ops ih =>
    cases op with
    | clean => exact ⟨⟨nofun, nofun⟩, ih.1.trans ⟨.clean, fun | .clean h => h⟩⟩
    | addTransaction k r =>
      have hadded : ∀ n, Newest key res n (.addTransaction k r :: ops) ↔ if key = k then r = res else Newest key res n ops := by
        grind [Newest]
      rw [hadded, hadded, Cache.fetchTransaction, foldr_cons, Op.run]
      by_cases hk : key = k
      · simp [hk]
      · simpa [hk, Cache.fetchTransaction] using ih

end Dirextalk.Client

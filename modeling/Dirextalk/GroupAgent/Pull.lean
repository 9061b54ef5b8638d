/-
  Dirextalk.GroupAgent.Pull — the agent walks its queue page by page
  (`p2p/service_group_agent.go`, the operation `pull`; `ListGroupAgentRequests` of both
  stores).

  A page goes on above the last request of the page before, and passes over requests that do
  not hold any more. But one request whose check fails, because its binding, its room or its
  message cannot be read, fails the whole call, and the agent is given no cursor to go on
  from (`failing_room_blocks`).
-/
import Dirextalk.GroupAgent.Store
import Dirextalk.Events.Completion
import Mathlib.Data.List.Sort
import Mathlib.Data.String.Basic

namespace Dirextalk.GroupAgent

open Lib Lib.Go List
open Events (standardUuid)

/-- What a call finds: the tables, whose ids are canonical, and what the bindings and the checks of requests answer,
`none` for an error. -/
structure Moment where
  tables : Tables
  canonical : ∀ r ∈ tables.requests.rows, standardUuid r.requestID = true
  binding : String → Option (Option Binding)
  validate : Binding → Request → Option (Option String)

structure Caller where
  /-- the memory store, which also compares the agent of a request with that of its binding -/
  memory : Bool
  owner : String
  accountGeneration : Int
  limit : Int

structure Pulled where
  requests : List Request
  hasMore : Bool
  nextAfterRequestID : String

section

variable (c : Caller) (m : Moment)

/-- The request is one of the agent's queue. -/
def Caller.queued (r : Request) : Bool :=
  r.ownerMXID = c.owner ∧ r.accountGeneration = c.accountGeneration ∧ r.status = .pending ∧ groupAgentRequestMatches
      { m.tables.binding r.roomID with agentMXID := if c.memory then (m.tables.binding r.roomID).agentMXID else r.agentMXID } r

def Caller.above (after : String) : List Request :=
  (m.tables.requests.rows.filter fun r => c.queued m r && after < r.requestID).insertionSort (·.requestID ≤ ·.requestID)

def Caller.pageLimit : Nat := if c.limit = 0 then 10 else c.limit.toNat

/-- The requests that a call goes through, after `ListGroupAgentRequests` with one more than the limit. -/
def Caller.batch (after : String) : List Request := ((c.above m after).take (c.pageLimit + 1)).take c.pageLimit

def Moment.check (r : Request) : Option (Option String) := do
  match ← m.binding r.roomID with
  | none => return none
  | some b => m.validate b r

/-- The request as it is returned, if it holds. -/
def Moment.kept (r : Request) : Option Request := (m.check r).join.map fun body => { r with body := body }

def Caller.pull (after : String) : Option Pulled :=
  if c.limit < 0 ∨ c.limit > 10 then none
  else if after ≠ "" ∧ standardUuid after = false then none
  -- the first check that fails fails the call
  else if (c.batch m after).any fun r => (m.check r).isNone then none
  else
    some {
      requests := (c.batch m after).filterMap m.kept
      hasMore := c.pageLimit < ((c.above m after).take (c.pageLimit + 1)).length
      nextAfterRequestID := ((c.batch m after).getLast?.map (·.requestID)).getD "" }

end

/-- At most `n` calls from the `k`-th moment on, with the requests each has gone through. A call that fails ends the walk. -/
def Caller.walk (c : Caller) (m : Nat → Moment) : Nat → Nat → String → List (List Request × Pulled)
  | 0, _, _ => []
  | n + 1, k, after =>
    match c.pull (m k) after with
    | none => []
    | some page => (c.batch (m k) after, page) :: if page.hasMore then walk c m n (k + 1) page.nextAfterRequestID else []

/-- No check of a queued request fails. -/
def Caller.Answered (c : Caller) (m : Nat → Moment) : Prop :=
  ∀ k, ∀ r ∈ (m k).tables.requests.rows, c.queued (m k) r = true → ((m k).check r).isSome

def Caller.StaysQueued (c : Caller) (m : Nat → Moment) (r : Request) : Prop :=
  ∀ k, r ∈ (m k).tables.requests.rows ∧ c.queued (m k) r = true

variable {c : Caller} {m : Moment} {after : String} {r : Request}

theorem mem_above : r ∈ c.above m after ↔ r ∈ m.tables.requests.rows ∧ c.queued m r = true ∧ after < r.requestID := by
  rw [Caller.above, mem_insertionSort, mem_filter, Bool.and_eq_true, decide_eq_true_eq]

theorem above_ascending : (c.above m after).Pairwise (·.requestID < ·.requestID) := by
  have hsorted : (c.above m after).Pairwise (·.requestID ≤ ·.requestID) := pairwise_insertionSort _ _
  have hids : ((c.above m after).map Request.requestID).Nodup :=
    ((perm_insertionSort _ _).map _).nodup_iff.mpr (m.tables.requests.unique.sublist (filter_sublist.map _))
  exact (hsorted.and (pairwise_map.mp hids)).imp fun h => lt_of_le_of_ne h.1 h.2

theorem above_nodup : (c.above m after).Nodup := above_ascending.imp fun h heq => absurd (heq ▸ h) (lt_irrefl _)

section Walk

variable {m : Nat → Moment} (hlimit : 0 ≤ c.limit ∧ c.limit ≤ 10) (hchecks : c.Answered m)
include hlimit hchecks

theorem pull_eq (k : Nat) (hafter : after = "" ∨ standardUuid after = true) : c.pull (m k) after = some
    ⟨(c.batch (m k) after).filterMap (m k).kept, decide (c.pageLimit < (c.above (m k) after).length),
      ((c.batch (m k) after).getLast?.map (·.requestID)).getD ""⟩ := by
  have hmore :
      c.pageLimit < ((c.above (m k) after).take (c.pageLimit + 1)).length ↔ c.pageLimit < (c.above (m k) after).length := by
    rw [length_take]
    omega
  have hnone : ((c.batch (m k) after).any fun r => ((m k).check r).isNone) = false := by
    refine any_eq_false.mpr fun r hr => ?_
    obtain ⟨hrow, hqueued, -⟩ := mem_above.mp (mem_of_mem_take (mem_of_mem_take hr))
    simpa [Option.isSome_iff_ne_none] using hchecks k r hrow hqueued
  rw [Caller.pull, if_neg (by omega), if_neg (by simpa using fun hne => hafter.resolve_left hne), hnone]
  simp only [hmore]
  rfl

theorem walk_returns {n k : Nat} (hafter : after = "" ∨ standardUuid after = true) {page : List Request × Pulled}
    (hpage : page ∈ c.walk m n k after) : ∃ k, page.2.requests = page.1.filterMap (m k).kept := by
  induction n generalizing k after with
  | zero => cases hpage
  | succ n ih =>
    rw [Caller.walk, pull_eq hlimit hchecks k hafter] at hpage
    obtain rfl | hrest := mem_cons.mp hpage
    · exact ⟨k, rfl⟩
    · split at hrest
      · refine ih ?_ hrest
        cases hlast : (c.batch (m k) after).getLast? with
        | none => exact .inl rfl
        | some a =>
          have ha := mem_of_mem_take (mem_of_mem_take (mem_of_getLast? hlast))
          exact .inr ((m k).canonical a (mem_above.mp ha).1)
      · cases hrest

/-- From a cursor on, a request that stays pending is looked at once if it is above the cursor, and else not again. -/
theorem walk_count (ids : List String) (hids : ∀ k, ∀ r ∈ (m k).tables.requests.rows, r.requestID ∈ ids)
    (hr : c.StaysQueued m r) (n k : Nat) (hafter : after = "" ∨ standardUuid after = true)
    (hn : (ids.filter (after < ·)).length < n) :
    ((c.walk m n k after).flatMap (·.1)).count r = if after < r.requestID then 1 else 0 := by
  induction n generalizing k after with
  | zero => exact absurd hn (Nat.not_lt_zero _)
  | succ n ih =>
    have hbatch : c.batch (m k) after = (c.above (m k) after).take c.pageLimit := by
      rw [Caller.batch, take_take, min_eq_left (Nat.le_succ _)]
    have hpositive : 0 < c.pageLimit := by
      unfold Caller.pageLimit
      split <;> omega
    rw [Caller.walk, pull_eq hlimit hchecks k hafter, flatMap_cons, count_append]
    have hmem : r ∈ c.above (m k) after ↔ after < r.requestID := by simp [mem_above, hr k]
    by_cases hmore : c.pageLimit < (c.above (m k) after).length
    · -- the page ends with `a`: what it holds is not above `a`, and the rest is
      obtain ⟨init, a, post, htake, hrows⟩ := page_split hpositive hmore
      obtain ⟨hrow, -, habove⟩ := mem_above.mp (hrows ▸ mem_append_right _ mem_cons_self : a ∈ c.above (m k) after)
      have hfewer : (ids.filter (a.requestID < ·)).length < (ids.filter (after < ·)).length := by
        have hsub : ids.filter (a.requestID < ·) = (ids.filter (after < ·)).filter (a.requestID < ·) := by
          rw [filter_filter]
          refine filter_congr fun id _ => ?_
          rw [← Bool.decide_and, decide_eq_decide]
          exact ⟨fun h => ⟨h, habove.trans h⟩, And.left⟩
        rw [hsub]
        exact length_filter_lt_length_iff_exists.mpr ⟨a.requestID, mem_filter.mpr ⟨hids k a hrow, decide_eq_true habove⟩, by simp⟩
      have hnext : ((init ++ [a]).getLast?.map (·.requestID)).getD "" = a.requestID := by simp
      have hnodup : (init ++ [a]).Nodup := htake ▸ above_nodup.sublist (take_sublist _ _)
      have hsorted : (init ++ a :: post).Pairwise (·.requestID < ·.requestID) := hrows ▸ above_ascending
      simp only [hmore, decide_true, if_true, hbatch, htake, hnext]
      rw [ih (k + 1) (.inr ((m k).canonical a hrow)) (by omega), hnodup.count]
      by_cases hpage : r ∈ init ++ [a]
      · have hbelow : ¬ a.requestID < r.requestID := by
          rw [append_cons] at hsorted
          obtain hinit | hlast := mem_append.mp hpage
          · exact lt_asymm ((pairwise_append.mp (pairwise_append.mp hsorted).1).2.2 r hinit a (mem_singleton_self a))
          · rw [mem_singleton.mp hlast]
            exact lt_irrefl _
        have hafter : after < r.requestID := hmem.mp (mem_of_mem_take (htake ▸ hpage))
        rw [if_pos hpage, if_neg hbelow, if_pos hafter]
      · rw [if_neg hpage, Nat.zero_add]
        refine if_congr ⟨habove.trans, fun hafter => ?_⟩ rfl rfl
        have hpost : r ∈ post := by
          have hin := hmem.mpr hafter
          rw [hrows, append_cons] at hin
          exact (mem_append.mp hin).resolve_left hpage
        exact (pairwise_cons.mp (pairwise_append.mp hsorted).2.1).1 r hpost
    · have hall : (c.above (m k) after).take c.pageLimit = c.above (m k) after := take_of_length_le (Nat.le_of_not_lt hmore)
      simp only [hmore, decide_false, Bool.false_eq_true, if_false, flatMap_nil, count_nil, hbatch, hall]
      rw [above_nodup.count, Nat.add_zero]
      exact if_congr hmem rfl rfl

end Walk

/-- In a walk without a failure, from the start of the queue, every request that stays pending is
looked at once, and returned if it holds whenever it is checked. -/
theorem pull_visits_once {m : Nat → Moment} (hlimit : 0 ≤ c.limit ∧ c.limit ≤ 10) (hchecks : c.Answered m)
    (ids : List String) (hids : ∀ k, ∀ r ∈ (m k).tables.requests.rows, r.requestID ∈ ids) (n : Nat) (hn : ids.length < n)
    (hr : c.StaysQueued m r) :
    ((c.walk m n 0 "").flatMap (·.1)).count r = 1 ∧
      ((∀ k, ((m k).kept r).isSome) → ∃ k, ∃ kept ∈ (c.walk m n 0 "").flatMap (·.2.requests), (m k).kept r = some kept) := by
  have hstart : "" < r.requestID := by
    have hid := (m 0).canonical r (hr 0).1
    rw [String.lt_iff_toList_lt]
    cases hchars : r.requestID.toList with
    | nil => simp [standardUuid, ← String.length_toList, hchars] at hid
    | cons => exact nil_lt_cons _ _
  have hcount := walk_count hlimit hchecks ids hids hr n 0 (.inl rfl) (Nat.lt_of_le_of_lt (length_filter_le _ _) hn)
  rw [if_pos hstart] at hcount
  refine ⟨hcount, fun hholds => ?_⟩
  obtain ⟨page, hpage, hmem⟩ := mem_flatMap.mp (count_pos_iff.mp (hcount ▸ Nat.one_pos))
  obtain ⟨k, hreturned⟩ := walk_returns hlimit hchecks (.inl rfl) hpage
  obtain ⟨kept, hkept⟩ := Option.isSome_iff_exists.mp (hholds k)
  refine ⟨k, kept, mem_flatMap.mpr ⟨page, hpage, ?_⟩, hkept⟩
  rw [hreturned]
  exact mem_filterMap.mpr ⟨r, hmem, hkept⟩

def pulledBinding : Binding :=
  { enabled := true, ownerMXID := "@o:s", agentMXID := "@ying:s", revision := 1, accountGeneration := 1 }

/-- A request with this last digit of its id, in a room of its own. -/
def roomRequest (digit : String) : Request :=
  ⟨"00000000-0000-0000-0000-00000000000" ++ digit, "!" ++ digit, "$" ++ digit, "@u:s", "@o:s", "@ying:s", 1, 1, 5, .pending, "",
    "", "", ""⟩

/-- Two requests; the room `!1` is read or not. -/
def twoRooms (readable : Bool) : Moment where
  tables := ⟨fun _ => some pulledBinding, ⟨[roomRequest "2", roomRequest "1"], by decide⟩, by decide⟩
  canonical := by decide
  binding _ := some (some pulledBinding)
  validate _ r := if r.roomID = "!1" ∧ !readable then none else some (some "hello")

def oneByOne : Caller := ⟨false, "@o:s", 1, 1⟩

theorem both_requests_pulled :
    ((oneByOne.walk (fun _ => twoRooms true) 3 0 "").flatMap (·.1)).count (roomRequest "2") = 1 ∧
      ∃ kept ∈ (oneByOne.walk (fun _ => twoRooms true) 3 0 "").flatMap (·.2.requests),
        (twoRooms true).kept (roomRequest "2") = some kept := by
  have hqueued : ∀ r ∈ (twoRooms true).tables.requests.rows, oneByOne.queued (twoRooms true) r = true ∧
      ((twoRooms true).check r).isSome ∧ r.requestID ∈ ["2", "1"].map fun digit => (roomRequest digit).requestID := by
    decide
  obtain ⟨hcount, hreturned⟩ := pull_visits_once (m := fun _ => twoRooms true) (by decide) (fun _ r hr _ => (hqueued r hr).2.1) _
    (fun _ r hr => (hqueued r hr).2.2) 3 (by decide) fun _ => ⟨mem_cons_self, (hqueued _ mem_cons_self).1⟩
  exact ⟨hcount, (hreturned fun _ => by decide).choose_spec⟩

/-- The room of the first request cannot be read: the agent is given nothing, now and whenever it asks again. -/
theorem failing_room_blocks :
    oneByOne.queued (twoRooms false) (roomRequest "2") = true ∧ ((twoRooms false).kept (roomRequest "2")).isSome ∧
      ∀ n k, oneByOne.walk (fun _ => twoRooms false) n k "" = [] := by
  refine ⟨by decide, by decide, fun n k => ?_⟩
  cases n with
  | zero => rfl
  | succ n =>
    have hfails : oneByOne.pull (twoRooms false) "" = none := by decide
    rw [Caller.walk, hfails]

end Dirextalk.GroupAgent

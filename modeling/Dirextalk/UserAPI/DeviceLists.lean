/-
  Dirextalk.UserAPI.DeviceLists — the refresh of a server's stale device lists.

  `processServer` goes through the users of the server whose lists are stale and asks for a
  retry unless all of them went well. A user of whom nothing was stored can go well: for
  invalid JSON, for an answer about another user, and for errors that leave the switch of
  `processServerUser` without returning, whose answer is empty.
-/
import Mathlib.Data.List.Nodup

namespace Dirextalk.UserAPI

open List

/-- In nanoseconds. -/
abbrev Duration := Int

def minute : Duration := 60000000000

def hour : Duration := 60 * minute

/-- What `GetUserDevices` fails with, in the order of the checks. -/
inductive FetchError where
  | deadlineExceeded
  | invalidJSON
  | federationClient (retryAfter : Duration) (blacklisted : Bool)
  | net (timeout : Bool)
  | http (code : Int)
  | other
  deriving DecidableEq, Repr

/-- An answer, the devices as they are stored. -/
structure RespUserDevices where
  userID : String
  devices : List String

/-- A user whose list is stale, with what the calls made for it come to. -/
structure StaleUser where
  userID : String
  fetched : Except FetchError RespUserDevices
  stores : Bool
  marks : Bool
  emits : Bool
  valid : userID ≠ ""

inductive Effect where
  | stored (userID : String) (devices : List String)
  | fresh (userID : String)
  deriving DecidableEq, Repr

/-- The effects of a part, how long to wait and whether it failed. -/
structure Outcome where
  log : List Effect
  wait : Duration
  failed : Bool

def defaultWaitTime : Duration := minute

def hourWaitTime : Duration := hour

def updateDeviceList (u : StaleUser) (res : RespUserDevices) : Outcome :=
  if !u.stores then ⟨[], defaultWaitTime, true⟩
  else if !u.marks then ⟨[.stored res.userID res.devices], defaultWaitTime, true⟩
  else ⟨[.stored res.userID res.devices, .fresh res.userID], defaultWaitTime, !u.emits⟩

def processResponse (u : StaleUser) (res : RespUserDevices) : Outcome :=
  if res.userID ≠ u.userID then ⟨[], defaultWaitTime, false⟩ else updateDeviceList u res

def processServerUser (u : StaleUser) : Outcome :=
  match u.fetched with
  | .ok res => processResponse u res
  | .error .deadlineExceeded => ⟨[], 10 * minute, true⟩
  | .error .invalidJSON => ⟨[], defaultWaitTime, false⟩
  | .error (.federationClient retryAfter blacklisted) =>
    if retryAfter > 0 then ⟨[], retryAfter, true⟩
    else if blacklisted then ⟨[], 8 * hour, true⟩
    else processResponse u ⟨"", []⟩
  | .error (.net timeout) => if !timeout then ⟨[], 10 * minute, true⟩ else processResponse u ⟨"", []⟩
  | .error (.http code) => if code ≥ 300 then ⟨[], hourWaitTime, true⟩ else processResponse u ⟨"", []⟩
  | .error .other => ⟨[], 10 * minute, true⟩

/-- The loop over the users, which stops at the first that fails. -/
def processUsers (waitTime : Duration) : List StaleUser → Outcome
  | [] => ⟨[], waitTime, false⟩
  | u :: users =>
    let o := processServerUser u
    if o.failed then ⟨o.log, if o.wait > waitTime then o.wait else waitTime, true⟩
    else
      let rest := processUsers waitTime users
      ⟨o.log ++ rest.log, rest.wait, rest.failed⟩

/-- A call of `processServer`: whether the process is ending and the list can be loaded, and the list, of different users. -/
structure Refresh where
  canceled : Bool
  loads : Bool
  users : List StaleUser
  distinct : (users.map (·.userID)).Nodup

/-- Whether to retry is `failed`. -/
def processServer (r : Refresh) : Outcome :=
  if r.canceled then ⟨[], defaultWaitTime, false⟩
  else if !r.loads then ⟨[], defaultWaitTime, true⟩
  else processUsers defaultWaitTime r.users

/-! ## What becomes of a user -/

/-- Errors after which the code goes on with an empty answer. -/
def FetchError.passes : FetchError → Bool
  | .federationClient retryAfter blacklisted => !decide (retryAfter > 0) && !blacklisted
  | .net timeout => timeout
  | .http code => !decide (code ≥ 300)
  | _ => false

namespace StaleUser

/-- Nothing is fetched for the user and no error is returned. -/
def skipped (u : StaleUser) : Bool :=
  match u.fetched with
  | .ok res => res.userID != u.userID
  | .error e => e == .invalidJSON || e.passes

/-- The devices of the user are fetched, stored and marked, and the change is told. -/
def refreshed (u : StaleUser) : Bool :=
  match u.fetched with
  | .ok res => res.userID == u.userID && u.stores && u.marks && u.emits
  | .error _ => false

end StaleUser

variable {u : StaleUser} {users : List StaleUser} {log log' : List Effect}

theorem processResponse_empty (u : StaleUser) : processResponse u ⟨"", []⟩ = ⟨[], defaultWaitTime, false⟩ :=
  if_pos u.valid.symm

/-- A user fails unless it is skipped or refreshed; what is refreshed is marked fresh, and what is marked fresh was fetched
and stored just before. -/
theorem processServerUser_cases (u : StaleUser) :
    (processServerUser u).failed = !(u.skipped || u.refreshed) ∧
      (u.refreshed = true → .fresh u.userID ∈ (processServerUser u).log) ∧
      ∀ before userID after, (processServerUser u).log = before ++ .fresh userID :: after →
        u.userID = userID ∧ ∃ devices, u.fetched = .ok ⟨userID, devices⟩ ∧ before = [.stored userID devices] := by
  unfold processServerUser StaleUser.skipped StaleUser.refreshed
  cases hfetched : u.fetched with
  | ok res =>
    obtain ⟨userID, devices⟩ := res
    by_cases hid : userID = u.userID
    · subst hid
      cases hstores : u.stores <;> cases hmarks : u.marks <;>
        simp +contextual [processResponse, updateDeviceList, hstores, hmarks, cons_eq_append_iff]
    · simp [processResponse, hid]
  | error e =>
    cases e with
    | deadlineExceeded | invalidJSON | other => exact ⟨rfl, by simp⟩
    | federationClient retryAfter blacklisted =>
      by_cases hretry : retryAfter > 0 <;> cases blacklisted <;> simp [FetchError.passes, processResponse_empty, hretry]
    | net timeout => cases timeout <;> simp [FetchError.passes, processResponse_empty]
    | http code => by_cases hcode : code ≥ 300 <;> simp [FetchError.passes, processResponse_empty, hcode]

/-! ## The loop -/

/-- Lists are marked fresh only after the devices that were fetched for them are stored. -/
def Backed (users : List StaleUser) (log : List Effect) : Prop :=
  ∀ before userID after, log = before ++ .fresh userID :: after →
    ∃ u ∈ users, ∃ devices, u.userID = userID ∧ u.fetched = .ok ⟨userID, devices⟩ ∧ .stored userID devices ∈ before

theorem Backed.append (h : Backed users log) (h' : Backed users log') : Backed users (log ++ log') := by
  intro before userID after heq
  obtain ⟨mid, hbefore, hlog'⟩ | ⟨mid, hlog, hafter⟩ := append_eq_append_iff.mp heq
  · obtain ⟨u, hu, devices, hid, hfetched, hstored⟩ := h' mid userID after hlog'
    exact ⟨u, hu, devices, hid, hfetched, hbefore ▸ mem_append_right _ hstored⟩
  · cases mid with
    | nil =>
      obtain ⟨u, hu, devices, hid, hfetched, ⟨⟩⟩ := h' [] userID after hafter.symm
    | cons e mid =>
      obtain ⟨rfl, rfl⟩ := cons.inj hafter
      exact h before userID mid hlog

theorem backed_user (hu : u ∈ users) : Backed users (processServerUser u).log := by
  intro before userID after heq
  obtain ⟨rfl, devices, hfetched, rfl⟩ := (processServerUser_cases u).2.2 before userID after heq
  exact ⟨u, hu, devices, rfl, hfetched, mem_singleton_self _⟩

theorem processUsers_backed (waitTime : Duration) (us : List StaleUser) (hus : ∀ u ∈ us, u ∈ users) :
    Backed users (processUsers waitTime us).log := by
  induction us with
  | nil => exact fun before _ _ heq => by cases before <;> cases heq
  | cons u us ih =>
    rw [forall_mem_cons] at hus
    rw [processUsers]
    split
    · exact backed_user hus.1
    · exact (backed_user hus.1).append (ih hus.2)

theorem processUsers_done (waitTime : Duration) (users : List StaleUser) :
    ((processUsers waitTime users).failed = false ↔ ∀ u ∈ users, u.skipped = true ∨ u.refreshed = true) ∧
      ((processUsers waitTime users).failed = false → ∀ u ∈ users, u.refreshed = true →
        .fresh u.userID ∈ (processUsers waitTime users).log) := by
  induction users with
  | nil => simp [processUsers]
  | cons u users ih =>
    obtain ⟨hfailed, hfresh, -⟩ := processServerUser_cases u
    rw [processUsers, forall_mem_cons, forall_mem_cons, ← ih.1]
    cases hdone : u.skipped || u.refreshed with
    | false => simp_all
    | true =>
      simp only [hfailed, hdone, Bool.not_true, Bool.false_eq_true, if_false, ← Bool.or_eq_true, true_and, mem_append]
      exact fun h => ⟨fun hu => .inl (hfresh hu), fun v hv hv' => .inr (ih.2 h v hv hv')⟩

/-- Stale lists are not forgotten. Lists are marked fresh only after the devices fetched for them are stored; and no
retry is reported only if no list is left stale, exactly if the process is not ending while there are users, and no user
is skipped while every other is skipped or refreshed. -/
theorem no_retry_iff (r : Refresh) :
    Backed r.users (processServer r).log ∧
      ((processServer r).failed = false → ∀ u ∈ r.users, .fresh u.userID ∈ (processServer r).log) ↔
      (r.canceled = true → r.users = []) ∧ (r.canceled = false → r.loads = true →
        (∀ u ∈ r.users, u.skipped = true ∨ u.refreshed = true) → ∀ u ∈ r.users, u.skipped = false) := by
  have hnone : Backed r.users [] := fun before _ _ heq => by cases before <;> cases heq
  unfold processServer
  cases r.canceled with
  | true =>
    simp only [if_true, hnone, true_and, forall_const, not_mem_nil, imp_false, reduceCtorEq, false_implies, and_true]
    exact eq_nil_iff_forall_not_mem.symm
  | false =>
    cases r.loads with
    | false => simp [hnone]
    | true =>
      have hbacked : Backed r.users _ := processUsers_backed defaultWaitTime r.users fun _ h => h
      simp only [Bool.false_eq_true, if_false, Bool.not_true, (processUsers_done _ _).1, false_implies, forall_const, true_and]
      rw [and_iff_right hbacked]
      refine forall_congr' fun hall => forall₂_congr fun u hu => ⟨fun hfresh => ?_, fun hskipped => ?_⟩
      · obtain ⟨before, after, hlog⟩ := append_of_mem hfresh
        obtain ⟨u', hu', devices, hid, hfetched, -⟩ := hbacked before u.userID after hlog
        obtain rfl := inj_on_of_nodup_map r.distinct hu' hu hid
        simp [StaleUser.skipped, hfetched]
      · obtain ⟨hdone, hfresh⟩ := processUsers_done defaultWaitTime r.users
        refine hfresh (hdone.mpr hall) u hu ((hall u hu).resolve_left ?_)
        rw [hskipped]
        decide

def timedOut : StaleUser := ⟨"@alice:remote", .error (.net true), true, true, true, by decide⟩

/-- A user whose fetch times out stays stale, and no retry is reported. -/
theorem timed_out_forgotten : (processServer ⟨false, true, [timedOut], nodup_singleton _⟩).failed = false ∧
      Effect.fresh timedOut.userID ∉ (processServer ⟨false, true, [timedOut], nodup_singleton _⟩).log := by
  decide

end Dirextalk.UserAPI

/-
  Dirextalk.Portal.ReadMarkers — the read marker of a room (`p2p/service_profile_sync.go`:
  `updateReadMarker`; `p2p/storage/storage_portal.go` and `memory_portal.go`:
  `SaveReadMarker`, `GetReadMarker`).

  A marker names an event with its place in the order of the room: a topological position
  and a position in the stream. A save takes effect on a row at an earlier place, in one
  statement. Rows from before the positions were stored have none; an update that reads one
  resolves its event and saves it with its place before it saves the event it is about.

  Any number of updates run at once, each resolve, read and save a step of its own, and a
  call may fail, a save also after it has been made. The resolver gives an event of a room
  one answer.

  What carries `read_marker_greatest` (`Sound`): a row without positions is the first row of
  its room, and before another event is saved over it it has its own.
-/
import Mathlib.Data.Prod.Lex
import Dirextalk.Action.Params
import Dirextalk.Lib.Script
import Dirextalk.Lib.Trace

namespace Dirextalk.Portal

open Lib Lib.Go Dirextalk.Action List Option

/-! ## The stores -/

structure ReadMarker where
  roomID : String
  eventID : String
  originServerTS : Int
  topologicalPosition : Int
  streamPosition : Int
  deriving DecidableEq, Repr

abbrev Place := Int ×ₗ Int

def ReadMarker.place (marker : ReadMarker) : Place := toLex (marker.topologicalPosition, marker.streamPosition)

structure Markers where
  row : String → Option ReadMarker
  keyed : ∀ roomID marker, row roomID = some marker → marker.roomID = roomID

namespace Markers

def put (t : Markers) (marker : ReadMarker) : Markers where
  row := Function.update t.row marker.roomID (some marker)
  keyed roomID m h := by
    by_cases hroom : roomID = marker.roomID
    · subst hroom
      rw [Function.update_self, some.injEq] at h
      rw [h]
    · rw [Function.update_of_ne hroom] at h
      exact t.keyed roomID m h

/-- `INSERT … ON CONFLICT(room_id) DO UPDATE … WHERE` the stored pair of positions `<` the new one. -/
def saveReadMarkerPostgres (marker : ReadMarker) (t : Markers) : Markers :=
  match t.row marker.roomID with
  | none => t.put marker
  | some row => if row.place < marker.place then t.put { marker with roomID := row.roomID } else t

def readMarkerPositionAfter (candidate current : ReadMarker) : Bool :=
  candidate.topologicalPosition > current.topologicalPosition ||
    (candidate.topologicalPosition == current.topologicalPosition && candidate.streamPosition > current.streamPosition)

def saveReadMarkerMemory (marker : ReadMarker) (t : Markers) : Markers :=
  match t.row marker.roomID with
  | none => t.put marker
  | some current => if readMarkerPositionAfter marker current then t.put marker else t

end Markers

inductive Backend where
  | postgres
  | memory

def Backend.saveReadMarker : Backend → ReadMarker → Markers → Markers
  | .postgres => Markers.saveReadMarkerPostgres
  | .memory => Markers.saveReadMarkerMemory

/-! ## The update -/

structure Resolved where
  topologicalPosition : Int
  streamPosition : Int
  originServerTS : Int

/-- `topologicalPosition < 0 || streamPosition <= 0` is refused. -/
def Resolved.usable (found : Resolved) : Bool := 0 ≤ found.topologicalPosition && 0 < found.streamPosition

def Resolved.marker (roomID eventID : String) (found : Resolved) : ReadMarker :=
  ⟨roomID, eventID, found.originServerTS, found.topologicalPosition, found.streamPosition⟩

inductive MarkerCall where
  | resolveReadMarkerPosition (roomID eventID : String)
  | getReadMarker (roomID : String)
  | saveReadMarker (marker : ReadMarker)

@[reducible] def MarkerCall.Ans : MarkerCall → Type
  | .resolveReadMarkerPosition _ _ => Except String (Option Resolved)
  | .getReadMarker _ => Except String (Option ReadMarker)
  | .saveReadMarker _ => Except String Unit

abbrev MarkerSig : Sig := ⟨MarkerCall, MarkerCall.Ans⟩

abbrev Act (α : Type) := ExceptT ApiError (Prog MarkerSig) α

def resolve (roomID eventID : String) : Act (Option Resolved) :=
  ExceptT.adapt internalError (ExceptT.mk (Prog.ask (σ := MarkerSig) (.resolveReadMarkerPosition roomID eventID)))

def getReadMarker (roomID : String) : Act (Option ReadMarker) :=
  ExceptT.adapt internalError (ExceptT.mk (Prog.ask (σ := MarkerSig) (.getReadMarker roomID)))

def saveReadMarker (marker : ReadMarker) : Act Unit :=
  ExceptT.adapt internalError (ExceptT.mk (Prog.ask (σ := MarkerSig) (.saveReadMarker marker)))

/-- The part of `updateReadMarker` that gives a stored row without a stream position its place. -/
def canonicalise : Option ReadMarker → Act Unit
  | none => pure ()
  | some current =>
    if current.streamPosition ≤ 0 then do
      match (← resolve current.roomID current.eventID).filter Resolved.usable with
      | none => throw (internalError "stored read marker cannot be resolved into authoritative room order")
      | some found => saveReadMarker (found.marker current.roomID current.eventID)
    else pure ()

def updateReadMarker (params : Params) : Act Unit :=
  let roomID := params.string "room_id"
  let eventID := params.string "event_id"
  if roomID = "" ∨ eventID = "" then throw (badRequest "room_id and event_id are required")
  else do
    match (← resolve roomID eventID).filter Resolved.usable with
    | none => throw (badRequest "event_id cannot be resolved in room_id")
    | some found =>
      canonicalise (← getReadMarker roomID)
      saveReadMarker (found.marker roomID eventID)

/-! ## The world -/

abbrev Resolver := String → String → Option Resolved

structure World where
  markers : Markers
  initial : Markers
  /-- The saves made, newest first. -/
  saves : List ReadMarker

def World.start (markers : Markers) : World := ⟨markers, markers, []⟩

def World.save (backend : Backend) (marker : ReadMarker) (w : World) : World :=
  { w with markers := backend.saveReadMarker marker w.markers, saves := marker :: w.saves }

/-- What a call may answer and do. -/
def exec (backend : Backend) (resolver : Resolver) : (c : MarkerCall) → World → c.Ans → World → Prop
  | .resolveReadMarkerPosition roomID eventID, w, r, w' => w' = w ∧ (r = .ok (resolver roomID eventID) ∨ ∃ err, r = .error err)
  | .getReadMarker roomID, w, r, w' => w' = w ∧ (r = .ok (w.markers.row roomID) ∨ ∃ err, r = .error err)
  | .saveReadMarker marker, w, r, w' => w' = w.save backend marker ∨ w' = w ∧ ∃ err, r = .error err

/-- The updates of a process. What is in memory is gone with it. -/
def updates (backend : Backend) (resolver : Resolver) : Machine MarkerSig Params World where
  entry params := (updateReadMarker params).run >>= fun _ => pure ()
  exec _ _ := exec backend resolver
  crash w w' := match backend with
    | .postgres => w' = w
    | .memory => False

/-! ## The greatest place -/

def Resolver.place (resolver : Resolver) (roomID eventID : String) : Option Place :=
  ((resolver roomID eventID).filter Resolved.usable).map fun found => (found.marker roomID eventID).place

/-- A row from before the positions were stored. -/
def ReadMarker.bare (marker : ReadMarker) : Bool := marker.topologicalPosition ≤ 0 && marker.streamPosition ≤ 0

/-- The place of the event of a first row: as stored, if it is. -/
def ReadMarker.firstPlace (resolver : Resolver) (marker : ReadMarker) : Option Place :=
  if marker.bare then resolver.place marker.roomID marker.eventID else some marker.place

/-- The events that count for a room, with their places: that of its first row and those of the saves. -/
def World.events (resolver : Resolver) (w : World) (roomID : String) : List (String × Option Place) :=
  (w.initial.row roomID).toList.map (fun row => (row.eventID, row.firstPlace resolver)) ++
    (w.saves.filter (·.roomID = roomID)).map fun marker => (marker.eventID, resolver.place roomID marker.eventID)

/-- The row of a room names one of them at the greatest place; there is none if there are none. -/
structure Greatest (resolver : Resolver) (roomID : String) (w : World) : Prop where
  absent : w.markers.row roomID = none → w.events resolver roomID = []
  present : ∀ row, w.markers.row roomID = some row → ∃ place, (row.eventID, place) ∈ w.events resolver roomID ∧
    ∀ x ∈ w.events resolver roomID, ∀ p ∈ x.2, ∃ p' ∈ place, p ≤ p'

/-! ## One save -/

variable {backend : Backend} {resolver : Resolver} {w w' : World} {marker row : ReadMarker} {t : Markers}

def later (old : Option ReadMarker) (marker : ReadMarker) : ReadMarker :=
  match old with
  | none => marker
  | some row => if row.place < marker.place then marker else row

theorem readMarkerPositionAfter_iff (candidate current : ReadMarker) :
    Markers.readMarkerPositionAfter candidate current = true ↔ current.place < candidate.place := by
  simp only [Markers.readMarkerPositionAfter, ReadMarker.place, Prod.Lex.toLex_lt_toLex, Bool.or_eq_true, Bool.and_eq_true,
    decide_eq_true_eq, beq_iff_eq]
  constructor
  · rintro (h | ⟨h, h'⟩)
    · exact .inl h
    · exact .inr ⟨h.symm, h'⟩
  · rintro (h | ⟨h, h'⟩)
    · exact .inl h
    · exact .inr ⟨h.symm, h'⟩

/-- Both stores do the same. -/
theorem saveReadMarker_row (backend : Backend) (marker : ReadMarker) (t : Markers) (roomID : String) :
    (backend.saveReadMarker marker t).row roomID =
      if roomID = marker.roomID then some (later (t.row marker.roomID) marker) else t.row roomID := by
  have hput : (t.put marker).row roomID = if roomID = marker.roomID then some marker else t.row roomID :=
    Function.update_apply ..
  cases hrow : t.row marker.roomID with
  | none => cases backend <;> simp [Backend.saveReadMarker, Markers.saveReadMarkerPostgres, Markers.saveReadMarkerMemory, hrow,
    later, hput]
  | some row =>
    have hroom := t.keyed _ _ hrow
    have hsame : ({ marker with roomID := row.roomID } : ReadMarker) = marker := by rw [hroom]
    by_cases hlt : row.place < marker.place
    · have hafter := (readMarkerPositionAfter_iff marker row).mpr hlt
      cases backend <;>
        simp [Backend.saveReadMarker, Markers.saveReadMarkerPostgres, Markers.saveReadMarkerMemory, hrow, later, hput, hlt,
          hafter, hsame]
    · have hafter : Markers.readMarkerPositionAfter marker row = false := by
        rw [← Bool.not_eq_true, readMarkerPositionAfter_iff]
        exact hlt
      have hkept : t.row roomID = if roomID = marker.roomID then some row else t.row roomID := by
        split
        · next h => rw [h, hrow]
        · rfl
      cases backend <;>
        simpa [Backend.saveReadMarker, Markers.saveReadMarkerPostgres, Markers.saveReadMarkerMemory, hrow, later, hlt,
          hafter] using hkept

theorem le_later_new (old : Option ReadMarker) (marker : ReadMarker) : marker.place ≤ (later old marker).place := by
  unfold later
  split
  · exact le_refl _
  split
  · exact le_refl _
  · next h => exact not_lt.mp h

theorem later_cases (old : Option ReadMarker) (marker : ReadMarker) :
    later old marker = marker ∧ (∀ row ∈ old, row.place < marker.place) ∨ old = some (later old marker) := by
  cases old with
  | none => exact .inl ⟨rfl, fun row h => nomatch h⟩
  | some row =>
    by_cases hlt : row.place < marker.place
    · refine .inl ⟨if_pos hlt, fun row' h => ?_⟩
      cases h
      exact hlt
    · refine .inr ?_
      rw [later, if_neg hlt]

/-! ## The outline -/

/-- The marker has the place the resolver gives its event. -/
def Placed (resolver : Resolver) (marker : ReadMarker) : Prop :=
  ∃ found, (resolver marker.roomID marker.eventID).filter Resolved.usable = some found ∧
    marker = found.marker marker.roomID marker.eventID

section

variable (h : Placed resolver marker)
include h

theorem Placed.place : resolver.place marker.roomID marker.eventID = some marker.place := by
  obtain ⟨found, hfound, hmarker⟩ := h
  rw [Resolver.place, hfound, map_some, ← hmarker]

theorem Placed.bare_lt (hbare : row.bare = true) : row.place < marker.place := by
  obtain ⟨found, hfound, hmarker⟩ := h
  have husable := (filter_eq_some_iff.mp hfound).2
  rw [hmarker, ReadMarker.place, ReadMarker.place, Prod.Lex.toLex_lt_toLex]
  simp only [Resolved.marker, ReadMarker.bare, Resolved.usable, Bool.and_eq_true, decide_eq_true_eq] at hbare husable ⊢
  omega

theorem Placed.not_bare : marker.bare = false := by
  by_contra hbare
  exact lt_irrefl _ (h.bare_lt (Bool.eq_true_of_not_eq_false hbare))

end

structure Sound (resolver : Resolver) (w : World) : Prop where
  placed : ∀ marker ∈ w.saves, Placed resolver marker
  source : ∀ roomID row, w.markers.row roomID = some row → w.initial.row roomID = some row ∨ row ∈ w.saves
  above : ∀ marker ∈ w.saves, ∃ row, w.markers.row marker.roomID = some row ∧ marker.place ≤ row.place
  begun : ∀ roomID first, w.initial.row roomID = some first →
    ∃ row, w.markers.row roomID = some row ∧ (row = first ∨ ∀ p ∈ first.firstPlace resolver, p ≤ row.place)

/-- The request is for an event that has a place. -/
def resolvable (resolver : Resolver) (params : Params) : Bool :=
  (resolver.place (params.string "room_id") (params.string "event_id")).isSome

/-- A save gives a placed marker, and over a row without positions only one for the event of the row. -/
def CallPre (resolver : Resolver) (params : Params) (w : World) : MarkerCall → Prop
  | .saveReadMarker marker => Placed resolver marker ∧ resolvable resolver params = true ∧
      ∀ row, w.markers.row marker.roomID = some row → row.bare = true → marker.eventID = row.eventID
  | _ => True

def Ages (w w' : World) : Prop :=
  ∀ roomID row, w'.markers.row roomID = some row → row.bare = true → w.markers.row roomID = some row

def outline (backend : Backend) (resolver : Resolver) : Outline (updates backend resolver) where
  Inv := Sound resolver
  Rely _ := Ages
  Pre _ params c w := CallPre resolver params w c
  Fresh _ _ := True

theorem Sound.start (markers : Markers) : Sound resolver (World.start markers) where
  placed := nofun
  source _ _ h := .inl h
  above := nofun
  begun _ first h := ⟨first, h, .inl rfl⟩

theorem Sound.save (h : Sound resolver w) (hpre : CallPre resolver params w (.saveReadMarker marker)) :
    Sound resolver (w.save backend marker) := by
  obtain ⟨hplaced, -, hover⟩ := hpre
  have hnew : (w.save backend marker).markers.row marker.roomID = some (later (w.markers.row marker.roomID) marker) :=
    (saveReadMarker_row backend marker w.markers _).trans (if_pos rfl)
  have hother : ∀ {roomID}, roomID ≠ marker.roomID → (w.save backend marker).markers.row roomID = w.markers.row roomID :=
    fun hne => (saveReadMarker_row backend marker w.markers _).trans (if_neg hne)
  refine ⟨?_, ?_, ?_, ?_⟩
  · intro m hm
    obtain rfl | hm := mem_cons.mp hm
    · exact hplaced
    · exact h.placed m hm
  · intro roomID row hrow
    by_cases hroom : roomID = marker.roomID
    · subst hroom
      rw [hnew, some.injEq] at hrow
      subst hrow
      obtain ⟨heq, -⟩ | hold := later_cases (w.markers.row marker.roomID) marker
      · rw [heq]
        exact .inr mem_cons_self
      · exact (h.source _ _ hold).imp_right (mem_cons_of_mem _)
    · rw [hother hroom] at hrow
      exact (h.source _ _ hrow).imp_right (mem_cons_of_mem _)
  · intro m hm
    obtain rfl | hm := mem_cons.mp hm
    · exact ⟨_, hnew, le_later_new _ _⟩
    · obtain ⟨row, hrow, hle⟩ := h.above m hm
      by_cases hroom : m.roomID = marker.roomID
      · rw [hroom] at hrow ⊢
        refine ⟨_, hnew, hle.trans ?_⟩
        rw [hrow]
        show row.place ≤ (if row.place < marker.place then marker else row).place
        split
        · next h => exact le_of_lt h
        · exact le_refl _
      · exact ⟨row, (hother hroom).trans hrow, hle⟩
  · intro roomID first hfirst
    obtain ⟨row, hrow, hle⟩ := h.begun roomID first hfirst
    by_cases hroom : roomID = marker.roomID
    · subst hroom
      refine ⟨_, hnew, ?_⟩
      obtain ⟨heq, hlt⟩ | hold := later_cases (w.markers.row marker.roomID) marker
      · rw [heq]
        have hlt := hlt row hrow
        refine .inr fun p hp => ?_
        obtain rfl | hle := hle
        · -- the first row itself is overwritten: by its own event if it had no positions
          unfold ReadMarker.firstPlace at hp
          split at hp
          · next hbare =>
            have hsame := hover row hrow hbare
            rw [w.markers.keyed _ _ hrow, ← hsame, hplaced.place, mem_some_iff] at hp
            exact le_of_eq hp.symm
          · rw [mem_some_iff] at hp
            rw [← hp]
            exact le_of_lt hlt
        · exact (hle p hp).trans (le_of_lt hlt)
      · rw [hrow, some.injEq] at hold
        rw [hrow, ← hold]
        exact hle
    · exact ⟨row, (hother hroom).trans hrow, hle⟩

theorem Placed.save_ages (hplaced : Placed resolver marker) : Ages w (w.save backend marker) := by
  intro roomID row hrow hbare
  have hsaved := (saveReadMarker_row backend marker w.markers roomID).symm.trans hrow
  split at hsaved
  · next hroom =>
    rw [some.injEq] at hsaved
    obtain ⟨heq, -⟩ | hold := later_cases (w.markers.row marker.roomID) marker
    · rw [← hsaved, heq, hplaced.not_bare] at hbare
      cases hbare
    · rw [hroom, hold, hsaved]
  · exact hsaved

def Filled (roomID : String) (w : World) : Prop := ∀ row, w.markers.row roomID = some row → row.bare = false

theorem Filled.later (h : Filled roomID w) (hages : Ages w w') : Filled roomID w' := by
  intro row hrow
  by_contra hbare
  have hbare := Bool.eq_true_of_not_eq_false hbare
  have hfilled := h row (hages roomID row hrow hbare)
  rw [hbare] at hfilled
  cases hfilled

theorem Placed.save_filled (hplaced : Placed resolver marker) : Filled marker.roomID (w.save backend marker) := by
  intro row hrow
  have hsaved := ((saveReadMarker_row backend marker w.markers marker.roomID).trans (if_pos rfl)).symm.trans hrow
  rw [some.injEq] at hsaved
  obtain ⟨heq, -⟩ | hold := later_cases (w.markers.row marker.roomID) marker
  · rw [← hsaved, heq]
    exact hplaced.not_bare
  · rw [hsaved] at hold
    by_contra hbare
    have hlt := hplaced.bare_lt (Bool.eq_true_of_not_eq_false hbare)
    have hle := le_later_new (w.markers.row marker.roomID) marker
    rw [hsaved] at hle
    exact lt_irrefl _ (lt_of_lt_of_le hlt hle)

/-! ## An update -/

variable {params : Params} {tid : Nat} {roomID eventID : String}

theorem Ages.refl (w : World) : Ages w w := fun _ _ h _ => h

theorem Ages.trans (h : Ages w₁ w₂) (h' : Ages w₂ w₃) : Ages w₁ w₃ :=
  fun roomID row hrow hbare => h roomID row (h' roomID row hrow hbare) hbare

theorem adapt_safe {α : Type} {A : α → World → Prop} (hlater : ∀ a w w', A a w → Ages w w' → A a w')
    {p : ExceptT String (Prog MarkerSig) α}
    (h : p.run.Safe (outline backend resolver) tid params (Prog.Ends (fun _ _ => True) A) w) :
    (p.adapt internalError).run.Safe (outline backend resolver) tid params (Prog.Ends (fun _ _ => True) A) w := by
  refine Prog.Safe.adaptExcept (fun _ => Ages.refl) internalError h fun r w w' hr hages => ?_
  cases r with
  | error err => trivial
  | ok a => exact hlater a w w' hr hages

theorem resolve_safe {K : World → Prop} (hlater : ∀ w w', K w → Ages w w' → K w') (hK : K w) :
    (resolve roomID eventID).run.Safe (outline backend resolver) tid params
      (Prog.Ends (fun _ _ => True) fun found w' => found = resolver roomID eventID ∧ K w') w := by
  refine adapt_safe (fun found w w' h hages => ⟨h.1, hlater w w' h.2 hages⟩) ?_
  refine .ask (fun _ _ _ => trivial) fun w₁ r w₂ w₃ hbefore _ hexec hafter _ => ?_
  obtain ⟨rfl, rfl | ⟨err, rfl⟩⟩ := hexec
  · exact ⟨rfl, hlater _ _ (hlater _ _ hK hbefore) hafter⟩
  · trivial

/-- A row without positions is the one that was read. -/
theorem getReadMarker_safe : (getReadMarker roomID).run.Safe (outline backend resolver) tid params
      (Prog.Ends (fun _ _ => True) fun current w' => (∀ row ∈ current, row.roomID = roomID) ∧
        ∀ row, w'.markers.row roomID = some row → row.bare = true → current = some row) w := by
  refine adapt_safe (fun current w w' h hages => ⟨h.1, fun row hrow hbare => h.2 row (hages roomID row hrow hbare) hbare⟩) ?_
  refine .ask (fun _ _ _ => trivial) fun w₁ r w₂ w₃ _ _ hexec hafter _ => ?_
  obtain ⟨rfl, rfl | ⟨err, rfl⟩⟩ := hexec
  · exact ⟨fun row hrow => w₂.markers.keyed _ _ hrow, fun row hrow hbare => hafter roomID row hrow hbare⟩
  · trivial

theorem saveReadMarker_safe (hpre : CallPre resolver params w (.saveReadMarker marker)) :
    (saveReadMarker marker).run.Safe (outline backend resolver) tid params
      (Prog.Ends (fun _ _ => True) fun _ w' => Filled marker.roomID w') w := by
  refine adapt_safe (fun _ w w' h hages => h.later hages) ?_
  refine .ask (fun w₁ hages _ => ?_) fun w₁ r w₂ w₃ hbefore _ hexec hafter _ => ?_
  · exact ⟨hpre.1, hpre.2.1, fun row hrow hbare => hpre.2.2 row (hages _ _ hrow hbare) hbare⟩
  · obtain rfl | ⟨rfl, err, rfl⟩ := hexec
    · cases r with
      | error err => trivial
      | ok _ => exact (hpre.1.save_filled).later hafter
    · trivial

theorem placed_marker (h : (resolver roomID eventID).filter Resolved.usable = some found) :
    Placed resolver (found.marker roomID eventID) := ⟨found, h, rfl⟩

/-- Afterwards the row of the room has positions. -/
theorem canonicalise_safe (hresolvable : resolvable resolver params = true)
    (hroom : ∀ row ∈ current, row.roomID = roomID)
    (hread : ∀ row, w.markers.row roomID = some row → row.bare = true → current = some row) :
    (canonicalise current).run.Safe (outline backend resolver) tid params
      (Prog.Ends (fun _ _ => True) fun _ w' => Filled roomID w') w := by
  have hlater : ∀ w w' : World, (∀ row, w.markers.row roomID = some row → row.bare = true → current = some row) → Ages w w' →
      ∀ row, w'.markers.row roomID = some row → row.bare = true → current = some row :=
    fun w w' h hages row hrow hbare => h row (hages roomID row hrow hbare) hbare
  cases current with
  | none =>
    intro w' hages _ row hrow
    by_contra hbare
    cases hlater _ _ hread hages row hrow (Bool.eq_true_of_not_eq_false hbare)
  | some current =>
    rw [canonicalise]
    split
    · refine Prog.Safe.seqExcept (fun _ => Ages.refl) (resolve_safe hlater hread)
        (fun _ _ _ _ _ => trivial) fun found w' _ hfound => ?_
      obtain ⟨rfl, hread⟩ := hfound
      have hkey := hroom current rfl
      split
      · exact fun _ _ _ => trivial
      next found hfound =>
      have hpre : CallPre resolver params w' (.saveReadMarker (found.marker current.roomID current.eventID)) :=
        ⟨placed_marker hfound, hresolvable, fun row hrow hbare => by
          have hsame := hread row (hkey ▸ hrow) hbare
          rw [some.injEq] at hsame
          rw [← hsame]
          rfl⟩
      rw [← hkey]
      exact saveReadMarker_safe hpre
    · next hpositive =>
      intro w' hages _ row hrow
      by_contra hbare
      have hbare := Bool.eq_true_of_not_eq_false hbare
      have hsame := hlater _ _ hread hages row hrow hbare
      rw [some.injEq] at hsame
      rw [← hsame] at hbare
      simp only [ReadMarker.bare, Bool.and_eq_true, decide_eq_true_eq] at hbare
      exact hpositive hbare.2

theorem updateReadMarker_safe :
    (updateReadMarker params).run.Safe (outline backend resolver) tid params (Prog.Ends (fun _ _ => True) fun _ _ => True) w := by
  unfold updateReadMarker
  dsimp only
  split
  · exact fun _ _ _ => trivial
  refine Prog.Safe.seqExcept (fun _ => Ages.refl) (resolve_safe (K := fun _ => True) (fun _ _ _ _ => trivial) trivial)
    (fun _ _ _ _ _ => trivial) fun found w₁ _ hfound => ?_
  obtain ⟨rfl, -⟩ := hfound
  split
  · exact fun _ _ _ => trivial
  next found hfound =>
  have hresolvable : resolvable resolver params = true := by simp [resolvable, Resolver.place, hfound]
  refine Prog.Safe.seqExcept (fun _ => Ages.refl) getReadMarker_safe (fun _ _ _ _ _ => trivial) fun current w₂ _ hcurrent => ?_
  refine Prog.Safe.seqExcept (fun _ => Ages.refl) (canonicalise_safe hresolvable hcurrent.1 hcurrent.2)
    (fun _ _ _ _ _ => trivial) fun _ w₃ _ hfilled => ?_
  refine .mono (fun r w' _ _ => ?_) (saveReadMarker_safe ⟨placed_marker hfound, hresolvable, fun row hrow hbare => ?_⟩)
  · cases r <;> trivial
  · have hfilled := hfilled row hrow
    rw [hbare] at hfilled
    cases hfilled

theorem outline_valid (backend : Backend) (resolver : Resolver) : (outline backend resolver).Valid where
  refl _ := .refl
  trans _ _ _ _ := .trans
  exec_inv {t params c w r w'} hinv hpre hexec := by
    cases c with
    | resolveReadMarkerPosition | getReadMarker => exact hexec.1 ▸ hinv
    | saveReadMarker marker =>
      obtain rfl | ⟨rfl, -⟩ := hexec
      · exact .save hinv hpre
      · exact hinv
  exec_rely {t u params c w r w'} _ _ hpre hexec := by
    cases c with
    | resolveReadMarkerPosition | getReadMarker => exact hexec.1 ▸ .refl w
    | saveReadMarker marker =>
      obtain rfl | ⟨rfl, -⟩ := hexec
      · exact hpre.1.save_ages
      · exact .refl _
  crash_inv {w w'} hinv hcrash := by
    cases backend with
    | postgres => exact hcrash ▸ hinv
    | memory => exact hcrash.elim
  fresh_rely _ _ := trivial
  fresh_crash _ _ := trivial
  entry _ _ := Prog.Safe.bind (fun _ => Ages.refl) updateReadMarker_safe fun _ _ _ _ _ _ _ => trivial

/-! ## Every run -/

theorem Sound.greatest (h : Sound resolver w) (roomID : String) : Greatest resolver roomID w := by
  have hsaved : ∀ marker ∈ w.saves, marker.roomID = roomID → resolver.place roomID marker.eventID = some marker.place := by
    rintro marker hmarker rfl
    exact (h.placed marker hmarker).place
  constructor
  · intro hnone
    have hfirst : w.initial.row roomID = none := by
      by_contra hsome
      obtain ⟨first, hfirst⟩ := ne_none_iff_exists'.mp hsome
      obtain ⟨row, hrow, -⟩ := h.begun roomID first hfirst
      rw [hnone] at hrow
      cases hrow
    have hsaves : w.saves.filter (·.roomID = roomID) = [] := by
      refine filter_eq_nil_iff.mpr fun marker hmarker hroom => ?_
      obtain ⟨row, hrow, -⟩ := h.above marker hmarker
      rw [decide_eq_true_eq] at hroom
      rw [hroom, hnone] at hrow
      cases hrow
    simp [World.events, hfirst, hsaves]
  · intro row hrow
    have habove : ∀ marker ∈ w.saves, marker.roomID = roomID → marker.place ≤ row.place := by
      rintro marker hmarker rfl
      obtain ⟨row', hrow', hle⟩ := h.above marker hmarker
      rw [hrow, some.injEq] at hrow'
      exact hrow' ▸ hle
    by_cases hinitial : w.initial.row roomID = some row
    · -- the first row stands; if it has no positions, nothing was saved
      refine ⟨row.firstPlace resolver, ?_, ?_⟩
      · simp [World.events, hinitial]
      · intro x hx p hp
        obtain hx | hx := mem_append.mp hx
        · simp only [hinitial, toList_some, map_cons, map_nil, mem_singleton] at hx
          subst hx
          exact ⟨p, hp, le_refl _⟩
        · obtain ⟨marker, hmarker, rfl⟩ := mem_map.mp hx
          obtain ⟨hmarker, hroom⟩ := mem_filter.mp hmarker
          rw [decide_eq_true_eq] at hroom
          have hle := habove marker hmarker hroom
          have hfilled : row.bare = false := by
            by_contra hbare
            exact lt_irrefl _ (lt_of_lt_of_le ((h.placed marker hmarker).bare_lt (Bool.eq_true_of_not_eq_false hbare)) hle)
          rw [hsaved marker hmarker hroom, mem_some_iff] at hp
          refine ⟨row.place, ?_, hp ▸ hle⟩
          simp [ReadMarker.firstPlace, hfilled]
    · have hmem := (h.source roomID row hrow).resolve_left hinitial
      have hroom := w.markers.keyed roomID row hrow
      refine ⟨some row.place, ?_, ?_⟩
      · refine mem_append_right _ (mem_map.mpr ⟨row, mem_filter.mpr ⟨hmem, decide_eq_true hroom⟩, ?_⟩)
        rw [hsaved row hmem hroom]
      · intro x hx p hp
        refine ⟨row.place, rfl, ?_⟩
        obtain hx | hx := mem_append.mp hx
        · obtain ⟨first, hfirst, rfl⟩ := mem_map.mp hx
          rw [mem_toList] at hfirst
          obtain ⟨row', hrow', hle⟩ := h.begun roomID first hfirst
          rw [hrow, some.injEq] at hrow'
          subst hrow'
          obtain rfl | hle := hle
          · exact absurd hfirst hinitial
          · exact hle p hp
        · obtain ⟨marker, hmarker, rfl⟩ := mem_map.mp hx
          obtain ⟨hmarker, hroom'⟩ := mem_filter.mp hmarker
          rw [decide_eq_true_eq] at hroom'
          rw [hsaved marker hmarker hroom', mem_some_iff] at hp
          exact hp ▸ habove marker hmarker hroom'

/-- In every state of every run the row of a room names an event at the greatest place among its first row and the
saves made, and an update whose event has no place changes no row. -/
theorem read_marker_greatest (backend : Backend) (resolver : Resolver) (markers : Markers) {es : List (Pool.Ev MarkerSig Params)}
    {s : Pool MarkerSig Params World} (hr : Run (Pool.Step (updates backend resolver)) (Pool.start (World.start markers)) es s) :
    (∀ roomID, Greatest resolver roomID s.world) ∧
      ∀ t c r s' th, s.thread t = some th → resolvable resolver th.origin = false →
        Pool.Step (updates backend resolver) s (.answer t c r) s' → s'.world.markers = s.world.markers := by
  have hvalid := outline_valid backend resolver
  have hholds := hvalid.run (Outline.Valid.start (World.start markers) (Sound.start markers) fun _ => trivial) hr
  refine ⟨hholds.inv.greatest, fun t c r s' th hthread hun hstep => ?_⟩
  cases hstep with
  | answer hcall hexec =>
    rw [hthread, some.injEq] at hcall
    subst hcall
    have hpre := (hholds.threads _ _ hthread _ (hvalid.refl _ _) hholds.inv).1
    cases c with
    | resolveReadMarkerPosition | getReadMarker => rw [hexec.1]
    | saveReadMarker marker =>
      have hresolvable : resolvable resolver _ = true := hpre.2.1
      rw [hun] at hresolvable
      cases hresolvable

def MarkerCall.reply (backend : Backend) (resolver : Resolver) : Reply MarkerSig World
  | .resolveReadMarkerPosition roomID eventID, w => (.ok (resolver roomID eventID), w)
  | .getReadMarker roomID, w => (.ok (w.markers.row roomID), w)
  | .saveReadMarker marker, w => (.ok (), w.save backend marker)

def sampleMarkers : Markers where
  row roomID := if roomID = "!r" then some ⟨"!r", "a", 0, 0, 0⟩ else none
  keyed roomID marker h := by
    split at h
    · next hroom =>
      cases h
      exact hroom.symm
    · cases h

def sampleResolver : Resolver := fun _ eventID =>
  if eventID = "a" then some ⟨4, 7, 0⟩ else if eventID = "b" then some ⟨4, 9, 0⟩ else none

def sampleParams : Params := fun key =>
  if key = "room_id" then some (.string "!r") else if key = "event_id" then some (.string "b") else none

def sampleMoves : List (Move MarkerSig Params World) :=
  .arrive sampleParams :: replicate 5 (.call 0 (MarkerCall.reply .postgres sampleResolver))

theorem sample_marker_moves :
    ∃ es s, Run (Pool.Step (updates .postgres sampleResolver)) (Pool.start (World.start sampleMarkers)) es s ∧
    (s.world.markers.row "!r").map (·.eventID) = some "b" ∧ Greatest sampleResolver "!r" s.world := by
  have hplay : ((Pool.play (updates .postgres sampleResolver) sampleMoves (Pool.start (World.start sampleMarkers))).bind
      fun s => (s.world.markers.row "!r").map (·.eventID)) = some "b" := by decide
  obtain ⟨s, hs, hrow⟩ := bind_eq_some_iff.mp hplay
  have hfair : ∀ move ∈ sampleMoves, Pool.Fair (updates .postgres sampleResolver) move := by
    intro move hmove
    obtain rfl | hmove := mem_cons.mp hmove
    · trivial
    · rw [eq_of_mem_replicate hmove]
      intro params c w
      cases c with
      | resolveReadMarkerPosition | getReadMarker => exact ⟨rfl, .inl rfl⟩
      | saveReadMarker marker => exact .inl rfl
  have hrun := Pool.play_run hfair hs
  exact ⟨_, s, hrun, hrow, (read_marker_greatest .postgres sampleResolver sampleMarkers hrun).1 "!r"⟩

end Dirextalk.Portal

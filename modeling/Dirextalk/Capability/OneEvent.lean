/-
  Dirextalk.Capability.OneEvent — at most one Matrix event per operation, and none for a
  cancelled one, over PostgreSQL and the product handlers.

  Proved, over every schedule, every failure of a store or port call and every crash:
  `one_event_per_operation` and `cancelled_never_sent`.
-/
import Dirextalk.Capability.ProductOutline

namespace Dirextalk.Capability

open Lib Lib.Go List

/-- All events handed to `SendPreparedMessage` for an operation are one, and every result returned for it carries its
id. -/
theorem one_event_per_operation (pg : Platform) (ports : Ports) {es : List (Pool.Ev SysSig Request)}
    {s : Server (postgres pg)} (h : ServerRun (postgres pg) (productRegistry ports) es s) (id : String) :
    ∃ event : PreparedMessage, (∀ m answer, .sent id m answer ∈ s.world.history → m = event) ∧
      (∀ result, .receipt id result ∈ s.world.history → result.eventID = event.eventID) ∧
      ∀ roomID eventID ts, .returned id (.message roomID eventID ts) ∈ s.world.history → eventID = event.eventID := by
  obtain ⟨htables, htold, -⟩ := (staging_of_run h).inv
  by_cases hsome : ∃ m, s.world.store.Inserted id m
  · obtain ⟨event, hev⟩ := hsome
    refine ⟨event, fun m answer hm => ?_, fun result hr => ?_, fun roomID eventID ts hr => ?_⟩
    · exact htables.unique id m event (htold _ hm) hev
    · obtain ⟨m, hm, hid⟩ := htold _ hr
      rw [hid, htables.unique id m event hm hev]
    · obtain ⟨m, hm, hid⟩ := htold _ hr
      rw [hid, htables.unique id m event hm hev]
  · -- nothing was ever staged, so that nothing was sent or returned either
    refine ⟨⟨"", "", "", "", "", 0, "", [], []⟩, fun m answer hm => ?_, fun result hr => ?_,
      fun roomID eventID ts hr => ?_⟩
    · exact absurd ⟨m, htold _ hm⟩ hsome
    · obtain ⟨m, hm, _⟩ := htold _ hr
      exact absurd ⟨m, hm⟩ hsome
    · obtain ⟨m, hm, _⟩ := htold _ hr
      exact absurd ⟨m, hm⟩ hsome

def samplePorts : Ports := ⟨true, true, true⟩

def sampleParams : Params where
  text key := if key = "room_id" then "!room:example.com" else if key = "msg" then "hello" else ""
  flag _ := false

def sampleIdentity : Identity := ⟨"@owner:example.com", "@agent:example.com", ""⟩

def SampleRun : Type := { x : List (Pool.Ev SysSig Request) × Server (postgres samplePlatform) //
  ServerRun (postgres samplePlatform) (productRegistry samplePorts) x.1 x.2 }

/-- The handler has the event to be staged. -/
def preparedRun : SampleRun :=
  ⟨(_, _), ServerRun.start (postgres samplePlatform) (productRegistry samplePorts)
    |>.arrive (.start sampleStart)
    |>.answer 0 rfl (.store ⟨false, .done rfl⟩)
    |>.answer 0 rfl (.wrapInput (.ok "hello"))
    |>.answer 0 rfl .enter
    |>.handled 0 sampleContext (.decodeInput "product.messages.v1" "hello") (.ok ("send", sampleParams)) rfl rfl
    |>.handled 0 sampleContext .accountDeprovisioned false rfl rfl
    |>.handled 0 sampleContext (.roomBlocked "!room:example.com") false rfl rfl
    |>.handled 0 sampleContext .identity sampleIdentity rfl rfl
    |>.handled 0 sampleContext .identity sampleIdentity rfl rfl
    |>.handled 0 sampleContext (.requireMatrixJoinedUser "!room:example.com" "@agent:example.com") none rfl rfl
    |>.handled 0 sampleContext .matrixWired true rfl rfl
    |>.handled 0 sampleContext .preparedWired true rfl rfl
    |>.handled 0 sampleContext (.getPrepared sampleContext) (.error errNoRows) rfl ⟨rfl, .inl rfl⟩
    |>.handled 0 sampleContext (.prepareMessage sampleRequest) (.ok sampleMessage) rfl rfl⟩

def stagedRun : SampleRun :=
  ⟨(_, _), preparedRun.2.handled 0 sampleContext (.prepareEvent sampleStaged) (.ok ()) rfl (.done rfl)⟩

/-- The one event, in a run that sends it and returns its receipt. -/
theorem one_event_sent : ∃ es s, ServerRun (postgres samplePlatform) (productRegistry samplePorts) es s ∧
      s.world.history = [.created 0 "op-1", .began 0 "op-1",
        .sent "op-1" sampleMessage (.ok ⟨"$prepared", 1⟩), .receipt "op-1" ⟨"$prepared", 1⟩] ∧
      ∃ event : PreparedMessage, (∀ m answer, .sent "op-1" m answer ∈ s.world.history → m = event) ∧
        (∀ result, .receipt "op-1" result ∈ s.world.history → result.eventID = event.eventID) ∧
        ∀ roomID eventID ts, .returned "op-1" (.message roomID eventID ts) ∈ s.world.history →
          eventID = event.eventID := by
  have hrun := stagedRun.2.handled 0 sampleContext (.sendPrepared sampleMessage) (.ok ⟨"$prepared", 1⟩) rfl rfl
  have hrun := hrun.handled 0 sampleContext (.markSent sampleContext ⟨"$prepared", 1⟩) (.ok ()) rfl (.done rfl)
  have hrun := hrun.handled 0 sampleContext (.mutated (.ok ⟨"$prepared", 1⟩)) () rfl rfl
  exact ⟨_, _, hrun, rfl, one_event_per_operation samplePlatform samplePorts hrun "op-1"⟩

/-- Once the row is cancelled, nothing was or ever will be sent for the operation, and no staged row is left or comes
back. -/
theorem cancelled_never_sent (pg : Platform) (ports : Ports) {es es' : List (Pool.Ev SysSig Request)}
    {s s' : Server (postgres pg)} {id : String} {row : OperationRow}
    (h : ServerRun (postgres pg) (productRegistry ports) es s) (hrow : s.world.store.row id = some row)
    (hcancelled : row.state = .cancelled)
    (h' : Run (Pool.Step (server (postgres pg) (productRegistry ports))) s es' s') :
    (∀ m answer, .sent id m answer ∉ s'.world.history) ∧ s'.world.store.staged id = none := by
  obtain ⟨htables, htold, -⟩ := (staging_of_run (h.trans h')).inv
  have hnever : ∀ m, ¬ s'.world.store.Inserted id m := by
    intro m hm
    obtain ⟨row', hrow', _, hst⟩ := (kept_of_run h h').rows id row hrow
    exact htables.uncancelled id m row' hm hrow' ((hst (by rw [hcancelled]; rfl)).trans hcancelled)
  refine ⟨fun m answer hm => hnever m (htold _ hm), ?_⟩
  rcases hst : s'.world.store.staged id with _ | st
  · rfl
  · exact absurd (htables.staged id st hst) (hnever _)

def cancelledRun : SampleRun :=
  ⟨(_, _), (preparedRun.2.arrive (.cancel "op-1")).answer 1 rfl (.store (.done rfl))⟩

/-- The operation is cancelled while its handler is running, which then cannot stage its event. -/
theorem cancelled_while_running : ∃ es s es' s', ServerRun (postgres samplePlatform) (productRegistry samplePorts) es s ∧
      (∃ row, s.world.store.row "op-1" = some row ∧ row.state = .cancelled) ∧
      ServerRunFrom (postgres samplePlatform) (productRegistry samplePorts) s es' s' ∧ es'.length = 2 ∧
      (∀ m answer, .sent "op-1" m answer ∉ s'.world.history) ∧ s'.world.store.staged "op-1" = none := by
  have hrest :
      ServerRunFrom (postgres samplePlatform) (productRegistry samplePorts) cancelledRun.1.2 [] cancelledRun.1.2 := .nil _
  have hrest := hrest.handled 0 sampleContext (.prepareEvent sampleStaged) _ rfl (.refused rfl)
  have hrest := hrest.answer 1 rfl (.store (.done rfl))
  exact ⟨_, _, _, _, cancelledRun.2, ⟨_, rfl, rfl⟩, hrest, rfl,
    cancelled_never_sent samplePlatform samplePorts cancelledRun.2 rfl rfl hrest⟩

end Dirextalk.Capability

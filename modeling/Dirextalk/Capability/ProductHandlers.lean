/-
  Dirextalk.Capability.ProductHandlers — what the product handlers do with staged events and
  when they fail, as programs alone.

  The monitor `product` knows which events were staged for the operation and whether some
  answer was not clean (`HandlerCall.clean`) or brought an event of another operation. Proved
  (`providerHandler_obeys`): the handlers of the prepared operations send and report only the
  event staged for them, send nothing after such an answer and fail only after one.
-/
import Dirextalk.Lib.Trace
import Dirextalk.Capability.Staging

namespace Dirextalk.Capability

open Lib Lib.Go HandlerCall

abbrev Known := PreparedMessage → Prop

/-- The value a handler returns carries the id of the event. -/
def Known.carries (κ : Known) : ResultValue → Prop
  | .message _ eventID _ => ∃ m, κ m ∧ eventID = m.eventID
  | .comment _ _ _ => True

def Known.learn (κ : Known) : (c : HandlerCall) → c.Ans → Known
  | .getPrepared _, (.ok e : Except Error _) => fun m => κ m ∨ m = e.event
  | .prepareEvent e, (.ok _ : Except Error _) => fun m => κ m ∨ m = e.event
  | _, _ => κ

/-- An operation looks up and stages only its own event, sends only what it knows to be staged, and reports only that
event's id. -/
def Known.allows (κ : Known) (ctx : OperationContext) (bound : String × String) : HandlerCall → Prop
  | .getPrepared c => c = ctx
  | .prepareEvent e => e.context = ctx ∧ (e.capability, e.operation) = bound
  | .sendPrepared m => κ m
  | .mutated (.ok r) => ∃ m, κ m ∧ r.eventID = m.eventID
  | .encodeResult value => κ.carries value
  | _ => True

/-- What a look at the staged event, or its staging, teaches is in the tables. -/
theorem Known.learn_inserted {pg : Platform} {T T' : Tables} {κ : Known} {c : HandlerCall} {r : c.Ans}
    (hstaged : ∀ id st, T.staged id = some st → T.Inserted id st.event.event)
    (hkeep : ∀ id m, T.Inserted id m → T'.Inserted id m) (hκ : ∀ m, κ m → T.Inserted ctx.operationID m)
    (hc : κ.allows ctx bound c) (hcall : pgHandle pg c T r T') : ∀ m, κ.learn c r m → T'.Inserted ctx.operationID m := by
  have hold : ∀ m, κ m → T'.Inserted ctx.operationID m := fun m hm => hkeep _ m (hκ m hm)
  cases c with
  | getPrepared c =>
    obtain e | existing := r
    · exact hold
    · rintro m (hm | rfl)
      · exact hold m hm
      · obtain ⟨rfl, hget | ⟨e, _, he⟩⟩ := hcall
        · obtain ⟨row, hst, rfl, _⟩ := get_ok hget.symm
          obtain rfl : c = ctx := hc
          exact hstaged _ row hst
        · cases he
  | prepareEvent e =>
    obtain err | _ := r
    · exact hold
    · rintro m (hm | rfl)
      · exact hold m hm
      · rw [← show e.operationID = ctx.operationID from congrArg OperationContext.operationID hc.1]
        obtain ⟨rfl, hsame⟩ | ⟨row, s, _, _, _, _, _, _, _, rfl⟩ := pgPrepare hcall
        · obtain ⟨old, hst, hev⟩ := hsame rfl
          exact hev ▸ hstaged _ old hst
        · exact ⟨e, List.mem_append_right _ (List.mem_singleton_self e), rfl, rfl⟩
  | _ => exact hold

def HandlerCall.sends : HandlerCall → Bool
  | .sendPrepared _ => true
  | _ => false

/-- The answer is clean, and a staged event is bound to the operation. -/
def HandlerCall.fits (bound : String × String) : (c : HandlerCall) → c.Ans → Bool
  | .getPrepared _, (.ok e : Except Error _) => (e.capability, e.operation) = bound
  | c, r => c.clean r

/-- Nothing is sent after an answer that does not fit. -/
def product (ctx : OperationContext) (bound : String × String) : Monitor HandlerSig (Known × Bool) where
  allows κ c := κ.1.allows ctx bound c ∧ (c.sends = true → κ.2 = false)
  expects _ _ _ := True
  next κ c r := (κ.1.learn c r, κ.2 || !c.fits bound r)

/-- An error is returned only after an answer that does not fit. -/
abbrev Blamed {ε α : Type} (A : α → Known → Prop) : Except ε α → Known × Bool → Prop :=
  Prog.Ends (fun _ κ => κ.2 = true) fun a κ => A a κ.1

abbrev Announces : Except Error SendMessageResult → Known × Bool → Prop := Blamed fun r κ => ∃ m, κ m ∧ r.eventID = m.eventID

abbrev Carries {ε : Type} : Except ε ResultValue → Known × Bool → Prop := Blamed fun value κ => κ.carries value

abbrev Anything {ε α : Type} : Except ε α → Known × Bool → Prop := Blamed fun _ _ => True

/-- The calls that have nothing to do with the staged event. -/
def HandlerCall.neutral : HandlerCall → Bool
  | .getPrepared _ | .prepareEvent _ | .sendPrepared _ | .mutated _ | .encodeResult _ => false
  | _ => true

theorem registeredAction_unique (h : registeredAction capability operation = some action)
    (h' : registeredAction capability operation' = some action') : action = action' := by
  unfold registeredAction at h h'
  split_ifs at h h' <;> simp_all

section Obeys

variable {ctx : OperationContext} {bound : String × String} {action : Action} {κ : Known} {blamed : Bool} {ports : Ports}
  {β : Type} {post : β → Known × Bool → Prop} {c : HandlerCall} {f : c.Ans → Handler β}

theorem ask_neutral (hc : c.neutral = true) (hf : ∀ r, (f r).Obeys (product ctx bound) post (κ, blamed || !c.clean r)) :
    (invoke c >>= f).Obeys (product ctx bound) post (κ, blamed) := by
  refine .ask ?_ fun r _ => ?_
  · cases c <;> first | exact ⟨trivial, nofun⟩ | cases hc
  · cases c <;> first | exact hf r | cases hc

/-- A call whose every answer is clean. -/
theorem ask_plain (hc : c.neutral = true) (hclean : ∀ r, c.clean r = true)
    (hf : ∀ r, (f r).Obeys (product ctx bound) post (κ, blamed)) :
    (invoke c >>= f).Obeys (product ctx bound) post (κ, blamed) := by
  refine ask_neutral hc fun r => ?_
  rw [hclean r, Bool.not_true, Bool.or_false]
  exact hf r

theorem blames {κ : Known × Bool} {ε α : Type} {e : ε} {A : α → Known → Prop} (h : κ.2 = true) :
    Prog.Obeys (product ctx bound) (Blamed A) (pure (.error e)) κ :=
  .pure h

variable {event : PreparedMessage} {capability operationName : String} {request : SendMessageRequest} {roomID : String}
  {params : Params}

theorem succeed_obeys (hm : κ m) (hr : result.eventID = m.eventID) :
    (succeed ports ctx result).Obeys (product ctx bound) Announces (κ, blamed) := by
  unfold succeed
  split
  · exact ask_plain rfl (fun _ => rfl) fun _ => .pure ⟨m, hm, hr⟩
  · exact .pure ⟨m, hm, hr⟩

theorem sendStaged_obeys (hm : κ event) :
    (sendStaged ports ctx verb event).Obeys (product ctx bound) Announces (κ, false) := by
  refine .ask ⟨hm, fun _ => rfl⟩ fun r _ => ?_
  obtain e | result := r
  · dsimp only
    split <;> exact .pure rfl
  · have hclean : fits bound (.sendPrepared event) (.ok result) = isOk (validatePreparedReceipt event result) := rfl
    dsimp only
    rcases hv : validatePreparedReceipt event result with e | result'
    · exact blames (by simp [product, hclean, hv, isOk])
    · exact succeed_obeys hm (validatePreparedReceipt_ok hv).2

theorem probeAndResend_obeys (hm : κ event) :
    (probeAndResend ports ctx event).Obeys (product ctx bound) Announces (κ, false) := by
  refine ask_neutral rfl fun r => ?_
  obtain e | _ | _ := r
  · exact .pure rfl
  · exact sendStaged_obeys hm
  · exact succeed_obeys hm rfl

theorem reconcileStaged_obeys (hm : κ event) :
    (reconcileStaged ports ctx event).Obeys (product ctx bound) Announces (κ, false) := by
  unfold reconcileStaged
  split
  · refine ask_neutral rfl fun r => ?_
    obtain e | _ | _ | _ | text := r
    · exact .pure rfl
    · exact succeed_obeys hm rfl
    · exact .pure rfl
    · refine ask_neutral rfl fun r => ?_
      obtain e | _ | _ := r
      · exact .pure rfl
      · exact probeAndResend_obeys hm
      · exact .pure rfl
    · exact .pure rfl
  · exact probeAndResend_obeys hm

theorem prepareAndSend_obeys :
    (prepareAndSend ports ctx capability operationName request).Obeys (product ctx (capability, operationName)) Announces
      (κ, false) := by
  refine ask_neutral rfl fun r => ?_
  obtain e | prepared := r
  · exact .pure rfl
  · rw [clean]
    dsimp only
    obtain e | _ := validatePreparedMessage prepared
    · exact .pure rfl
    · refine .ask ⟨⟨rfl, rfl⟩, nofun⟩ fun r _ => ?_
      obtain e | _ := r
      · exact .pure rfl
      · exact sendStaged_obeys (.inr rfl)

/-- The mutation fails at once without its port and store, or under an incomplete context. -/
theorem execute_obeys :
    (executePreparedMatrixMutation ports ctx capability operationName request).Obeys
      (product ctx (capability, operationName)) Announces (κ, !(ports.present && ctx.complete)) := by
  unfold executePreparedMatrixMutation
  rcases hp : ports.present with _ | _
  · exact .pure rfl
  rcases hc : ctx.complete with _ | _
  · exact .pure rfl
  refine .ask ⟨rfl, nofun⟩ fun r _ => ?_
  obtain e | existing := r
  · show Prog.Obeys _ _ _ (κ, !e.is .sqlNoRows)
    dsimp only
    obtain _ | _ := e.is .sqlNoRows
    · exact .pure rfl
    · exact prepareAndSend_obeys
  · dsimp only
    by_cases hb : existing.capability = capability ∧ existing.operation = operationName
    · rw [if_neg (by simp [hb])]
      have hfits : fits (capability, operationName) (.getPrepared ctx) (.ok existing) = true := by simp [fits, hb]
      show Prog.Obeys _ _ _ (_, !fits _ _ _)
      rw [hfits]
      exact reconcileStaged_obeys (.inr rfl)
    · rw [if_pos (by simpa using not_and_or.mp hb)]
      exact blames (by simpa [product, fits] using not_and_or.mp hb)

section Complete

variable (hc : ctx.complete = true)
include hc

theorem mutate_obeys :
    (mutate ports ctx capability operationName request).Obeys (product ctx (capability, operationName)) Announces
      (κ, false) := by
  have hexecute : (executePreparedMatrixMutation { ports with present := true } ctx capability operationName request).Obeys
      (product ctx (capability, operationName)) Announces (κ, !(true && ctx.complete)) := execute_obeys
  rw [hc] at hexecute
  refine .bind hexecute fun out κ' hout => ?_
  obtain e | r := out
  · refine .ask ⟨trivial, nofun⟩ fun _ _ => .pure ?_
    show (κ'.2 || false) = true
    rw [show κ'.2 = true from hout]
    rfl
  · exact .ask ⟨hout, nofun⟩ fun _ _ => .pure hout

theorem sendMatrixMutation_obeys :
    (sendMatrixMutation ports ctx request capability operationName).Obeys (product ctx (capability, operationName))
      Announces (κ, false) := by
  unfold sendMatrixMutation
  rw [if_pos hc]
  refine ask_neutral rfl fun wired => ?_
  cases wired
  · exact .pure rfl
  · exact mutate_obeys hc

end Complete

theorem attachComment_obeys : (attachComment roomID comment).Obeys (product ctx bound) Anything (κ, blamed) := by
  refine ask_neutral rfl fun r => ?_
  obtain e | _ := r
  · exact .pure (Bool.or_true _)
  · exact .pure trivial

theorem storeComment_obeys : (storeComment comment roomID).Obeys (product ctx bound) Anything (κ, blamed) := by
  refine ask_plain rfl (fun _ => rfl) fun r => ?_
  obtain e | _ := r
  · refine ask_neutral rfl fun r => ?_
    obtain e | _ | existing := r
    · exact .pure (Bool.or_true _)
    · exact .pure (Bool.or_true _)
    · dsimp only
      split
      · rename_i hne
        exact blames (by simpa [clean] using Or.inr hne)
      · exact attachComment_obeys
  · exact attachComment_obeys

theorem sendComment_obeys (hc : ctx.complete = true) :
    (sendComment ports ctx request).Obeys (product ctx Action.channelCommentsCreate.binding) Anything (κ, false) := by
  unfold sendComment
  rw [if_pos hc]
  refine ask_neutral rfl fun wired => ?_
  cases wired
  · exact .pure rfl
  · refine .bind (mutate_obeys hc) fun out κ hout => ?_
    obtain e | r := out
    · exact .pure hout
    · exact .pure trivial

/-- A question is refused only after an answer that was not clean, and leaves what is known otherwise. -/
abbrev Refuses (κ : Known) (refused : α → Bool) : α → Known × Bool → Prop := fun out κ' => κ' = (κ, refused out)

theorem roomIDForChannel_obeys :
    (roomIDForChannel channelID fallbackRoomID).Obeys (product ctx bound) (Refuses κ fun out => !isOk out) (κ, false) := by
  unfold roomIDForChannel
  dsimp only
  split
  · exact .pure rfl
  split
  · exact .pure rfl
  refine ask_neutral rfl fun r => ?_
  rcases r with e | _ | room <;> exact .pure rfl

theorem contentJoined_obeys : Prog.Obeys (product ctx bound) (Refuses κ Option.isSome)
    (if blank roomID then pure none else invoke (.contentJoined (trimSpace roomID)) : Handler (Option StatusError))
    (κ, false) := by
  split
  · exact .pure rfl
  · refine .call ⟨trivial, nofun⟩ fun r _ => .ret ?_
    cases r <;> rfl

theorem createComment_obeys (hc : ctx.complete = true) (hpost : postID ≠ "") :
    (createComment ports ctx channelParam roomParam postID body).Obeys (product ctx Action.channelCommentsCreate.binding) Anything
      (κ, false) := by
  refine ask_plain rfl (fun _ => rfl) fun now => ?_
  refine ask_plain rfl (fun _ => rfl) fun token => ?_
  refine ask_neutral rfl fun owner => ?_
  rw [if_neg (by simpa using hpost), clean]
  rcases hagent : blank owner.agentMXID with _ | _
  · refine ask_neutral rfl fun r => ?_
    obtain e | _ | post := r
    · exact .pure rfl
    · exact .pure rfl
    rw [clean]
    dsimp only
    obtain _ | _ := post.commentsEnabled
    · exact .pure rfl
    rw [if_neg (by simp), if_neg (by simp)]
    refine ask_plain rfl (fun _ => rfl) fun eventID => ?_
    refine .bind roomIDForChannel_obeys fun room κ' hroom => ?_
    rcases room with e | roomID <;> subst hroom
    · exact .pure rfl
    refine .bind contentJoined_obeys fun out κ' hout => ?_
    rcases out with _ | e <;> subst hout
    · refine ask_neutral rfl fun wired => ?_
      cases wired
      · exact storeComment_obeys
      · split
        · refine .bind (sendComment_obeys hc) fun out κ hout => ?_
          obtain e | result := out
          · exact .pure hout
          · exact storeComment_obeys
        · exact storeComment_obeys
    · exact .pure rfl
  · -- no agent to post as: whatever the post lookup answers, nothing is sent
    refine ask_neutral rfl fun r => ?_
    obtain e | _ | post := r
    · exact .pure rfl
    · exact .pure rfl
    dsimp only
    split
    · exact .pure rfl
    · rw [if_pos (by simp [hc])]
      exact .pure rfl

theorem requireRoomAllowed_obeys :
    (requireRoomAllowed roomID).Obeys (product ctx bound) (Refuses κ fun out => blamed || out.isSome) (κ, blamed) := by
  refine ask_neutral rfl fun blocked => ?_
  cases blocked <;> exact .pure rfl

theorem requireJoinedRoomForUser_obeys :
    (requireJoinedRoomForUser roomID userID).Obeys (product ctx bound) (Refuses κ Option.isSome) (κ, false) := by
  refine ask_plain rfl (fun _ => rfl) fun identity => ?_
  split
  · refine .call ⟨trivial, nofun⟩ fun r _ => .ret ?_
    cases r <;> rfl
  · refine .call ⟨trivial, nofun⟩ fun r _ => .ret ?_
    cases r <;> rfl

def Params.given (params : Params) : Action → Bool
  | .messagesSend => !blank (params.text "room_id") && !(blank (params.text "msg") && blank (params.text "text"))
  | .channelCommentsCreate => !blank (params.text "post_id") && !(blank (params.text "msg") && blank (params.text "body"))

theorem mcpFallback_empty :
    mcpFallback (trimSpace value) (trimSpace fallbackValue) = "" ↔ (blank value && blank fallbackValue) = true := by
  unfold mcpFallback
  rw [blank_trimSpace]
  rcases hv : blank value with _ | _
  · simpa [trimSpace_trimSpace, blank] using hv
  · simp [blank]

theorem messagesSend_obeys (hc : ctx.complete = true) (hm : gatewayMarked params = true) :
    (messagesSend ports ctx params).Obeys (product ctx Action.messagesSend.binding) Carries (κ, !params.given .messagesSend) := by
  unfold messagesSend
  dsimp only
  split
  · rename_i hroom
    have hblank : blank (params.text "room_id") = true := by simpa [blank] using hroom
    exact blames (by simp [Params.given, hblank])
  rename_i hroom
  have hgiven : params.given .messagesSend = !(blank (params.text "msg") && blank (params.text "text")) := by
    have hnot : blank (params.text "room_id") = false := by simpa [blank] using hroom
    simp [Params.given, hnot]
  refine .bind requireRoomAllowed_obeys fun refusal κ' hr => ?_
  rcases refusal with _ | e <;> subst hr
  · rcases hmsg : (blank (params.text "msg") && blank (params.text "text")) with _ | _
    · rw [if_neg (by simp [mcpFallback_empty, hmsg]), hgiven, hmsg]
      refine ask_plain rfl (fun _ => rfl) fun identity => ?_
      rw [if_neg (by simp [hm])]
      refine .bind requireJoinedRoomForUser_obeys fun refusal κ' hr => ?_
      rcases refusal with _ | e <;> subst hr
      · refine ask_neutral rfl fun wired => ?_
        cases wired
        · exact .pure rfl
        · refine .bind (sendMatrixMutation_obeys hc) fun out κ hout => ?_
          obtain e | result := out
          · exact .pure hout
          · exact .pure hout
      · exact .pure rfl
    · rw [if_pos (by simpa [mcpFallback_empty] using hmsg), hgiven, hmsg]
      exact .pure rfl
  · exact .pure (Bool.or_true _)

theorem channelCommentCreate_obeys (hc : ctx.complete = true) :
    (channelCommentCreate ports ctx params).Obeys (product ctx Action.channelCommentsCreate.binding) Carries
      (κ, !params.given .channelCommentsCreate) := by
  unfold channelCommentCreate
  dsimp only
  split
  · rename_i hpost
    have hblank : blank (params.text "post_id") = true := by simpa [blank] using hpost
    exact blames (by simp [Params.given, hblank])
  rename_i hpost
  have hgiven : params.given .channelCommentsCreate = !(blank (params.text "msg") && blank (params.text "body")) := by
    have hnot : blank (params.text "post_id") = false := by simpa [blank] using hpost
    simp [Params.given, hnot]
  rw [hgiven]
  rcases hmsg : (blank (params.text "msg") && blank (params.text "body")) with _ | _
  · rw [if_neg (by simp [mcpFallback_empty, hmsg])]
    refine ask_neutral rfl fun r => ?_
    obtain e | _ | post := r
    · exact .pure rfl
    · exact .pure rfl
    refine .bind requireRoomAllowed_obeys fun refusal κ' hr => ?_
    rcases refusal with _ | e <;> subst hr
    · refine ask_neutral rfl fun refusal => ?_
      obtain _ | e := refusal
      · refine .bind (createComment_obeys hc (by simpa using hpost)) fun out κ hout => ?_
        obtain e | comment := out
        · exact .pure hout
        · exact .pure trivial
      · exact .pure rfl
    · exact .pure rfl
  · rw [if_pos (by simpa [mcpFallback_empty] using hmsg)]
    exact .pure rfl

theorem markGateway_given (params : Params) : (markGateway params).given .messagesSend = params.given .messagesSend := by
  have htext : ∀ key, key ≠ "gateway_source" → (markGateway params).text key = params.text key := by
    intro key hkey
    simp only [markGateway]
    split
    · exact Function.update_of_ne hkey ..
    · rfl
  simp [Params.given, htext]

theorem invokeCapability_obeys (hc : ctx.complete = true) :
    (invokeCapability ports ctx action params).Obeys (product ctx action.binding) Carries (κ, !params.given action) := by
  refine ask_neutral rfl fun deprovisioned => ?_
  cases deprovisioned
  · rw [if_neg (by decide)]
    show Prog.Obeys _ _ _ (κ, !params.given action || false)
    rw [Bool.or_false]
    cases action with
    | messagesSend =>
      rw [← markGateway_given]
      exact messagesSend_obeys hc (by simp [gatewayMarked, markGateway])
    | channelCommentsCreate => exact channelCommentCreate_obeys hc
  · exact .pure (Bool.or_true _)

theorem runAction_obeys (hc : ctx.complete = true) :
    (runAction ports ctx action params).Obeys (product ctx action.binding) Anything (κ, !params.given action) := by
  refine .bind (.bind (invokeCapability_obeys hc) fun out κ hout => ?_ : Prog.Obeys _ Carries _ _) fun out κ hout => ?_
  · obtain e | value := out
    · exact .pure hout
    · exact .pure hout
  · obtain e | value := out
    · exact .pure hout
    · refine .call ⟨hout, nofun⟩ fun r _ => .ret ?_
      obtain e | text := r
      · exact Bool.or_true _
      · trivial

theorem providerHandler_obeys (hc : ctx.complete = true) (hact : registeredAction capability operation = some action) :
    (providerHandler ports capability ctx input).Obeys (product ctx action.binding) Anything (κ, false) := by
  refine ask_neutral rfl fun r => ?_
  obtain e | ⟨operation', params⟩ := r
  · exact .pure rfl
  dsimp only
  rcases hact' : registeredAction capability operation' with _ | action'
  · exact blames (by simp [clean, hact'])
  · obtain rfl := registeredAction_unique hact hact'
    rw [show clean (.decodeInput capability input) (.ok (operation', params)) = params.given action by
      cases action <;> simp [clean, hact', Params.given]]
    exact runAction_obeys hc

end Obeys

end Dirextalk.Capability

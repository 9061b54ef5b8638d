/-
  Dirextalk.Capability.Handlers — the capability handlers behind the prepared Matrix
  operations and the executor that runs them.

  From the bottom: the channel comment workflow
  (`p2p/internal/channels/content_workflows.go`), the MCP module
  (`p2p/internal/mcp/messages.go`, `channels.go`, `matrix_mutation.go`), the provider
  boundary (`p2p/product_capability.go`, `internal/productcapability/mcp.go`), and
  `StartOperation`, `executeOperation` and `CancelOperation`
  (`internal/productcapability/handlers.go`).
-/
import Dirextalk.Capability.Mutation

namespace Dirextalk.Capability

open Lib Lib.Go

/-! ## Errors on their way out -/

def badRequest (message : String) : StatusError := ⟨400, message⟩

def Sentinel.policy? : Sentinel → Option (Int × String)
  | .policy code message => some (code, message)
  | _ => none

/-- `internalError` of the MCP module. -/
def mcpInternalError (e : Error) : StatusError := ⟨500, "internal error: " ++ e.text⟩

/-- `actionbase.InternalError`. -/
def actionInternalError (e : Error) : StatusError :=
  let message :=
    if e.text = "matrix member lookup is not configured" then "Matrix member lookup is not configured"
    else if e.text = "matrix transport is not configured" then "Matrix transport is not configured"
    else e.text
  ⟨500, "internal error: " ++ message⟩

/-- `transportWriteError` of both packages, which fall back to different errors. Only the text of the cause is kept.
-/
def transportWriteError (internal : Error → StatusError) (e : Error) : StatusError :=
  match e.wraps.findSome? Sentinel.policy? with
  | some (code, message) => ⟨if code ≤ 0 then 403 else code, message⟩
  | none => internal e

/-! ## Comments -/

/-- `fallback` of the channels package. -/
def fallback (value fallbackValue : String) : String := if blank value then fallbackValue else value

def roomIDForChannel (channelID fallbackRoomID : String) : Handler (Except StatusError String) := do
  let roomID := trimSpace fallbackRoomID
  if roomID != "" then return .ok roomID
  else if blank channelID then return .ok ""
  else
    match ← invoke (.channelByID (trimSpace channelID)) with
    | .error e => return .error (actionInternalError e)
    | .ok none => return .ok ""
    | .ok (some room) => return .ok room

/-- `ExecutePreparedMatrixMutation` over a wired port and store, with its return marked. -/
def mutate (ports : Ports) (op : OperationContext) (capability operationName : String)
    (request : SendMessageRequest) : Handler (Except Error SendMessageResult) := do
  let result ← executePreparedMatrixMutation { ports with present := true } op capability operationName request
  let _ ← invoke (.mutated result)
  return result

/-- The end of `CreateComment`, once the comment row stands. -/
def attachComment (roomID : String) (comment : Comment) : Handler (Except StatusError Comment) := do
  match ← invoke (.commentOperation roomID) with
  | .error e => return .error (actionInternalError e)
  | .ok () => return .ok comment

/-- The part of `CreateComment` after the Matrix event: the comment row and its operation. -/
def storeComment (comment : Comment) (roomID : String) : Handler (Except StatusError Comment) := do
  match ← invoke (.insertComment comment) with
  | .ok () => attachComment roomID comment
  | .error e =>
    -- the row may stand from an earlier run of the same operation
    match ← invoke (.existingComment comment) with
    | .ok (some existing) =>
      if existing.eventID != comment.eventID then return .error (actionInternalError e)
      else attachComment roomID existing
    | _ => return .error (actionInternalError e)

section

variable (ports : Ports) (ctx : OperationContext)

/-- The event of a comment: staged and sent under an operation, sent plainly without one. -/
def sendComment (request : SendMessageRequest) : Handler (Except StatusError SendMessageResult) := do
  if ctx.complete then
    let wired : Bool ← invoke .preparedWired
    if wired then
      match ← mutate ports ctx "product.channel_comments.v1" "create" request with
      | .error e => return .error (transportWriteError actionInternalError e)
      | .ok result => return .ok result
    else
      return .error (transportWriteError actionInternalError (Err.new "durable Matrix mutation is unavailable"))
  else
    match ← invoke (.sendMessage request) with
    | .error e => return .error (transportWriteError actionInternalError e)
    | .ok result => return .ok result

def createComment (channelParam roomParam postID body : String) : Handler (Except StatusError Comment) := do
  let now : Int ← invoke .clock
  let token : String ← invoke .commentToken
  let owner : ContentOwner ← invoke .contentOwner
  if postID == "" then return .error (badRequest "post_id is required")
  else
    match ← invoke (.postByID .forComment postID (trimSpace channelParam)) with
    | .error e => return .error (actionInternalError e)
    | .ok none => return .error ⟨404, "post not found"⟩
    | .ok (some post) =>
      if !post.commentsEnabled then return .error ⟨403, "comments are disabled for this post"⟩
      else if ctx.complete && blank owner.agentMXID then
        return .error (actionInternalError (Err.new "agent Matrix identity is unavailable"))
      else
        let channelID := fallback (trimSpace channelParam) post.channelID
        let sender := if ctx.complete then trimSpace owner.agentMXID else owner.mxid
        let authorName := if ctx.complete then fallback owner.agentDisplayName sender else owner.displayName
        let commentID :=
          if ctx.complete then "comment_" ++ removeAll ctx.operationID '-' else "comment_" ++ token
        let eventID : String ← invoke (.newEventID commentID)
        match ← roomIDForChannel channelID (fallback (trimSpace roomParam) post.roomID) with
        | .error e => return .error e
        | .ok roomID =>
          match ← (if blank roomID then pure none else invoke (.contentJoined (trimSpace roomID))) with
          | some e => return .error e
          | none =>
            let comment : Comment := ⟨commentID, postID, channelID, eventID, sender, authorName, body, "text", now⟩
            let wired : Bool ← invoke .matrixWired
            if wired && roomID != "" then
              match ← sendComment ports ctx ⟨sender, roomID, "text", commentID, postID⟩ with
              | .error e => return .error e
              | .ok result =>
                storeComment { comment with eventID := result.eventID, originServerTS := result.originServerTS } roomID
            else storeComment comment roomID

/-! ## The MCP module -/

/-- `fallback` of the MCP package, which trims. -/
def mcpFallback (value fallbackValue : String) : String :=
  if blank value then fallbackValue else trimSpace value

def gatewayMarked (params : Params) : Bool :=
  params.flag "agent_gateway" || params.flag "gateway" || params.flag "io.dirextalk.agent_gateway" ||
    trimSpace (params.text "gateway_source") != ""

def requireRoomAllowed (roomID : String) : Handler (Option StatusError) := do
  let blocked : Bool ← invoke (.roomBlocked roomID)
  return if blocked then some ⟨403, "room is blocked for MCP"⟩ else none

def requireJoinedRoomForUser (roomID userID : String) : Handler (Option StatusError) := do
  let identity : Identity ← invoke .identity
  if trimSpace userID == trimSpace identity.ownerMXID then invoke (.requireJoinedRoom roomID)
  else invoke (.requireMatrixJoinedUser roomID userID)

def sendMatrixMutation (request : SendMessageRequest)
    (capability operation : String) : Handler (Except Error SendMessageResult) := do
  if ctx.complete then
    let wired : Bool ← invoke .preparedWired
    if wired then mutate ports ctx capability operation request
    else return .error (Err.new "durable Matrix mutation is unavailable")
  else invoke (.sendMessage request)

def messagesSend (params : Params) : Handler (Except StatusError ResultValue) := do
  let roomID := trimSpace (params.text "room_id")
  let msg := mcpFallback (trimSpace (params.text "msg")) (trimSpace (params.text "text"))
  if roomID == "" then return .error (badRequest "room_id is required")
  else
    match ← requireRoomAllowed roomID with
    | some e => return .error e
    | none =>
      if msg == "" then return .error (badRequest "msg is required")
      else
        let marked := gatewayMarked params
        let identity : Identity ← invoke .identity
        let sender := if marked then identity.agentMXID else identity.ownerMXID
        if !marked && trimSpace identity.agentRoomID != "" && roomID == trimSpace identity.agentRoomID then
          return .error (badRequest
            "mcp.messages.send cannot send owner messages to the agent room; use the Matrix agent gateway")
        else
          match ← requireJoinedRoomForUser roomID sender with
          | some e => return .error e
          | none =>
            let wired : Bool ← invoke .matrixWired
            if wired then
              match ← sendMatrixMutation ports ctx ⟨sender, roomID, "text", roomID, ""⟩ "product.messages.v1" "send" with
              | .error e => return .error (transportWriteError mcpInternalError e)
              | .ok result => return .ok (.message roomID result.eventID result.originServerTS)
            else return .error (mcpInternalError (Err.new "matrix transport is unavailable"))

def channelCommentCreate (params : Params) : Handler (Except StatusError ResultValue) := do
  let postID := trimSpace (params.text "post_id")
  let msg := mcpFallback (trimSpace (params.text "msg")) (trimSpace (params.text "body"))
  if postID == "" then return .error (badRequest "post_id is required")
  else if msg == "" then return .error (badRequest "msg is required")
  else
    match ← invoke (.postByID .forRoom postID "") with
    | .error e => return .error (mcpInternalError e)
    | .ok none => return .error ⟨404, "post not found"⟩
    | .ok (some post) =>
      match ← requireRoomAllowed post.roomID with
      | some e => return .error e
      | none =>
        match ← invoke (.requireJoinedRoom post.roomID) with
        | some e => return .error e
        | none =>
          match ← createComment ports ctx post.channelID post.roomID postID msg with
          | .error e => return .error e
          | .ok comment => return .ok (.comment comment.postID comment.commentID comment.originServerTS)

/-! ## The provider boundary -/

inductive Action where
  | messagesSend
  | channelCommentsCreate

def Action.name : Action → String
  | .messagesSend => "mcp.messages.send"
  | .channelCommentsCreate => "mcp.channel_comments.create"

/-- The mutations of the capability catalog and the action each is bound to. -/
def registeredAction (capability operation : String) : Option Action :=
  if capability = "product.messages.v1" ∧ operation = "send" then some .messagesSend
  else if capability = "product.channel_comments.v1" ∧ operation = "create" then some .channelCommentsCreate
  else if capability = "product.spi.messages_send.v1" ∧ operation = "invoke" then some .messagesSend
  else if capability = "product.spi.channel_comments_create.v1" ∧ operation = "invoke" then
    some .channelCommentsCreate
  else none

/-- The mark `InvokeProductCapability` puts on a message before it is sent. -/
def markGateway (params : Params) : Params where
  text := if blank (params.text "gateway_source") then
      Function.update params.text "gateway_source" "native_agent" else params.text
  flag := Function.update params.flag "agent_gateway" true

section

variable (action : Action) (params : Params)

def invokeCapability : Handler (Except StatusError ResultValue) := do
  let deprovisioned : Bool ← invoke .accountDeprovisioned
  if deprovisioned then return .error ⟨401, "M_UNKNOWN_TOKEN"⟩
  else
    match action with
    | .messagesSend => messagesSend ports ctx (markGateway params)
    | .channelCommentsCreate => channelCommentCreate ports ctx params

/-- `InvokeProductCapability`: the error it returns carries the message of its cause and wraps nothing. -/
def invokeProductCapability : Handler (Except Error ResultValue) := do
  match ← invokeCapability ports ctx action params with
  | .error e => return .error (Err.new ("product capability " ++ action.name ++ " failed: " ++ e.message))
  | .ok value => return .ok value

abbrev Provider := OperationContext → String → Handler (Except Error String)

/-- An action that was found: its product capability, and the result as JSON. -/
def runAction : Handler (Except Error String) := do
  match ← invokeProductCapability ports ctx action params with
  | .error e => return .error e
  | .ok value => invoke (.encodeResult value)

end

end

def providerHandler (ports : Ports) (capability : String) : Provider := fun ctx input => do
  match ← invoke (.decodeInput capability input) with
  | .error e => return .error e
  | .ok (operation, params) =>
    match registeredAction capability operation with
    | none => return .error (Err.new ("operation \"" ++ operation ++ "\" is not registered for " ++ capability))
    | some action => runAction ports ctx action params

abbrev Registry := String → String → Option Provider

def productRegistry (ports : Ports) : Registry := fun capability operation =>
  (registeredAction capability operation).map fun _ => providerHandler ports capability

theorem registeredAction_prepared {capability operation : String} {action : Action}
    (h : registeredAction capability operation = some action) :
    isPreparedMatrixMutation capability operation = true := by
  unfold registeredAction at h
  split at h
  · rename_i he
    rw [he.1, he.2]
    decide
  · split at h
    · rename_i he
      rw [he.1, he.2]
      decide
    · split at h
      · rename_i he
        rw [he.1, he.2]
        decide
      · split at h
        · rename_i he
          rw [he.1, he.2]
          decide
        · cases h

/-! ## The text of a failure -/

def publicMatrixReceiptError (message : String) : Option String :=
  if message = "matrix transport returned an empty event id" then
    some "Matrix transport returned an empty event id"
  else if hasPrefix message "matrix transport returned event " then
    let receiptIDs := trimPrefix message "matrix transport returned event "
    match cut receiptIDs " for prepared event " with
    | some (returned, prepared) =>
      if returned = "" ∨ prepared = "" then none else some ("Matrix transport returned event " ++ receiptIDs)
    | none => none
  else none

def capabilityUnknownMatrixErrorSuffix (suffix : String) : String :=
  if hasPrefix suffix ": invalid Matrix receipt for " then
    match cut (trimPrefix suffix ": invalid Matrix receipt for ") ": " with
    | some (preparedEventID, internal) =>
      if preparedEventID = "" then suffix
      else
        match publicMatrixReceiptError internal with
        | some text => ": invalid Matrix receipt for " ++ preparedEventID ++ ": " ++ text
        | none => suffix
    | none => suffix
  else suffix

def capabilityInvokeErrorMessage (e : Error) : String :=
  if e.is .matrixEventUnknown && hasPrefix e.text "matrix event acceptance is unknown" then
    "Matrix event acceptance is unknown" ++
      capabilityUnknownMatrixErrorSuffix (trimPrefix e.text "matrix event acceptance is unknown")
  else if e.is .matrixEventRejected && hasPrefix e.text "matrix event was rejected" then
    "Matrix event was rejected" ++ trimPrefix e.text "matrix event was rejected"
  else (publicMatrixReceiptError e.text).getD e.text

end Dirextalk.Capability

/-
  Dirextalk.Capability.Delegation — scopes of capability grants
  (`internal/productcapability/handlers.go`: `scopesAllow`, `sameStrings`,
  `ExchangeProductDelegation`, `validateRootPermission`, `StartOperation` up to the
  operation store).

  What an entry of a grant is for (`covers`): the scope it spells, `*` for every scope, an
  entry that ends in `:*` for the scopes that start with the text before its star, and
  `agent:read` and `agent:write` for the product scopes of that direction. The code lets
  `product:*` stand for every scope, not only for those that start with `product:`.

  Given are the grants of the capability library, with the law that a signed child has the
  scopes it was signed for, its digests of requests, and the validation of inputs.
-/
import Dirextalk.Capability.System
import Dirextalk.Lib.Encoding

namespace Dirextalk.Capability

open Lib Lib.Go List

/-! ## Scopes -/

/-- The test of `scopesAllow` for one entry and one requirement. -/
def scopeMatches (candidate requirement : String) : Bool :=
  let candidate := trimSpace candidate
  let requirement := trimSpace requirement
  candidate == requirement || candidate == "*" || candidate == "product:*" ||
    (hasSuffix candidate ":*" && hasPrefix requirement (trimSuffix candidate "*")) ||
    (hasPrefix requirement "product:" &&
      (candidate == "agent:read" && hasSuffix requirement ":read" ||
        candidate == "agent:write" && hasSuffix requirement ":write"))

def scopesAllow (granted required : List String) : Bool :=
  if required.length = 0 then true
  else required.all fun requirement => granted.any fun candidate => scopeMatches candidate requirement

/-- `sort.Strings` on copies, and the copies compared. -/
def sameStrings (left right : List String) : Bool :=
  if left.length ≠ right.length then false
  else left.mergeSort (· ≤ ·) == right.mergeSort (· ≤ ·)

/-- What an entry of a grant is for. -/
def covers (entry scope : String) : Bool :=
  entry == scope || entry == "*" ||
    (":*".toList.isSuffixOf entry.toList && entry.toList.dropLast.isPrefixOf scope.toList) ||
    ("product:".toList.isPrefixOf scope.toList &&
      (entry == "agent:read" && ":read".toList.isSuffixOf scope.toList ||
        entry == "agent:write" && ":write".toList.isSuffixOf scope.toList))

def Covered (granted required : List String) : Prop := ∀ scope ∈ required, ∃ entry ∈ granted, covers entry scope = true

/-- An entry is taken for the scope: for what it is without blanks around it, or as `product:*`. -/
def Stretched (granted : List String) (scope : String) : Prop :=
  ∃ entry ∈ granted, trimSpace entry = "product:*" ∨ covers (trimSpace entry) (trimSpace scope) = true

/-- What entries are taken for is covered. -/
def Within (granted required : List String) : Prop :=
  ∀ scope ∈ required, Stretched granted scope → ∃ entry ∈ granted, covers entry scope = true

variable {granted required : List String} {entry scope : String}

/-- The text before the star. -/
theorem hasPrefix_stem (candidate requirement : String) :
    (hasSuffix candidate ":*" && hasPrefix requirement (trimSuffix candidate "*")) =
      (":*".toList.isSuffixOf candidate.toList && candidate.toList.dropLast.isPrefixOf requirement.toList) := by
  cases hsuffix : hasSuffix candidate ":*" with
  | false =>
    have hsuffix : ":*".toList.isSuffixOf candidate.toList = false := hsuffix
    rw [hsuffix, Bool.false_and, Bool.false_and]
  | true =>
    have hsuffix : ":*".toList.isSuffixOf candidate.toList = true := hsuffix
    obtain ⟨stem, hstem⟩ := isSuffixOf_iff_suffix.mp hsuffix
    have hone : hasSuffix candidate "*" = true := isSuffixOf_iff_suffix.mpr ⟨stem ++ [':'], by rw [← hstem]; simp⟩
    have hlength : candidate.length - "*".length = candidate.toList.length - 1 := by
      rw [String.length_toList]
      rfl
    rw [hsuffix, Bool.true_and, Bool.true_and, trimSuffix, if_pos hone, hasPrefix, String.toList_ofList, hlength,
      dropLast_eq_take]

theorem scopeMatches_iff : scopeMatches entry scope = true ↔
    trimSpace entry = "product:*" ∨ covers (trimSpace entry) (trimSpace scope) = true := by
  have hreorder : ∀ spelled all product star agent : Bool,
      (spelled || all || product || star || agent) = true ↔ product = true ∨ (spelled || all || star || agent) = true := by decide
  rw [← beq_iff_eq (a := trimSpace entry) (b := "product:*")]
  unfold scopeMatches
  dsimp only
  rw [hasPrefix_stem]
  exact hreorder ..

theorem scopesAllow_iff : scopesAllow granted required = true ↔ ∀ scope ∈ required, Stretched granted scope := by
  have hall : (required.all fun requirement => granted.any fun candidate => scopeMatches candidate requirement) = true ↔
      ∀ scope ∈ required, Stretched granted scope := by
    rw [all_eq_true]
    refine forall₂_congr fun scope _ => ?_
    rw [any_eq_true]
    exact exists_congr fun entry => and_congr_right fun _ => scopeMatches_iff
  unfold scopesAllow
  split
  · next hempty =>
    rw [length_eq_zero_iff.mp hempty]
    simp
  · exact hall

/-- What an entry is for it is also for without the blanks. -/
theorem covers_trim (h : covers entry scope = true) : covers (trimSpace entry) (trimSpace scope) = true := by
  have hcases := h
  unfold covers at hcases
  simp only [Bool.or_eq_true, Bool.and_eq_true, beq_iff_eq, isPrefixOf_iff_prefix, isSuffixOf_iff_suffix] at hcases
  rcases hcases with ((rfl | rfl) | ⟨⟨stem, hstem⟩, hprefix⟩) | ⟨⟨rest, hrest⟩, hagent⟩
  · simp [covers]
  · have htrim : trimSpace "*" = "*" := by decide
    simp [covers, htrim]
  · -- neither the colon before the star nor what stands before it loses anything on the right
    have hentry : trimSpace entry = String.ofList (stem.dropWhile isSpace ++ [':', '*']) := by
      rw [← String.ofList_toList (s := entry), ← hstem]
      exact trimSpace_around (b := ['*']) (by decide)
    rw [← hstem, show stem ++ ":*".toList = (stem ++ [':']) ++ ['*'] by simp, dropLast_concat] at hprefix
    obtain ⟨rest, hrest⟩ := hprefix
    have hscope : trimSpace scope = String.ofList (stem.dropWhile isSpace ++ ':' :: rest.rdropWhile isSpace) := by
      rw [← String.ofList_toList (s := scope), ← hrest, append_assoc]
      exact trimSpace_around (by decide)
    have hstar : (":*".toList.isSuffixOf (trimSpace entry).toList &&
        (trimSpace entry).toList.dropLast.isPrefixOf (trimSpace scope).toList) = true := by
      rw [Bool.and_eq_true, isSuffixOf_iff_suffix, isPrefixOf_iff_prefix, hentry, hscope, String.toList_ofList,
        String.toList_ofList]
      refine ⟨⟨_, rfl⟩, rest.rdropWhile isSpace, ?_⟩
      rw [show stem.dropWhile isSpace ++ [':', '*'] = (stem.dropWhile isSpace ++ [':']) ++ ['*'] by simp, dropLast_concat]
      simp
    unfold covers
    rw [hstar]
    simp
  · -- the scope starts and ends with letters
    have hentry : trimSpace entry = entry := by
      rcases hagent with ⟨rfl, -⟩ | ⟨rfl, -⟩ <;> decide
    have hlast : ∃ init d, scope.toList = init ++ [d] ∧ isSpace d = false := by
      obtain ⟨-, init, hinit⟩ | ⟨-, init, hinit⟩ := hagent
      · exact ⟨init ++ [':', 'r', 'e', 'a'], 'd', by rw [← hinit]; simp, by decide⟩
      · exact ⟨init ++ [':', 'w', 'r', 'i', 't'], 'e', by rw [← hinit]; simp, by decide⟩
    obtain ⟨init, d, hinit, hd⟩ := hlast
    have hleft : scope.toList.dropWhile isSpace = scope.toList := by
      rw [← hrest]
      exact dropWhile_cons_of_neg (by decide)
    have hright : scope.toList.rdropWhile isSpace = scope.toList := by
      rw [hinit]
      exact rdropWhile_concat_neg _ _ _ (by simp [hd])
    have hscope : trimSpace scope = scope := by
      show String.ofList ((scope.toList.dropWhile isSpace).rdropWhile isSpace) = scope
      rw [hleft, hright, String.ofList_toList]
    rw [hentry, hscope]
    exact h

/-! ## Capabilities and requests -/

inductive OperationType where
  | unspecified
  | read
  | mutation
  deriving DecidableEq, Repr

structure OperationDescriptor where
  operationID : String
  operationType : OperationType
  requiredScopes : List String
  inputSchemaJSON : String

structure CapabilityDescriptor where
  capabilityID : String
  readiness : Bool
  readinessReason : String
  operations : List OperationDescriptor

structure RegisteredProvider where
  descriptor : CapabilityDescriptor
  handler : Provider

structure CallContext where
  rootOperationID : String

structure PermissionContext where
  authenticatedOwnerID : String
  grantedScopes : List String
  capabilityGrant : Bytes
  accountGeneration : Int
  rootRequestDigest : Bytes

/-- `capv1.ExchangeProductTargetKind`. -/
inductive TargetKind where
  | unspecified
  | query
  | startOperation

structure ExchangeRequest where
  capabilityID : String
  operation : String
  requestJSON : String
  expectedRevision : Int
  parentPermission : Option PermissionContext
  callContext : Option CallContext
  childOperationID : String
  targetKind : TargetKind

structure StartOperationRequest where
  operationID : String
  capabilityID : String
  operation : String
  requestJSON : String
  expectedRevision : Int
  requestDigest : Bytes
  permission : Option PermissionContext
  callContext : Option CallContext

/-! ## The capability library -/

structure GrantClaims where
  scopes : List String
  rootCapabilityID : String
  rootOperation : String
  ownerID : String
  accountGeneration : Int
  catalogDigest : Bytes
  schemaDigest : Bytes
  expiresAtUnixMs : Int

structure RootGrantBinding where
  callContext : CallContext
  ownerID : String
  accountGeneration : Int
  rootRequestDigest : Bytes
  requiredScopes : List String

structure ProductGrantBinding where
  callContext : CallContext
  childOperationID : String
  ownerID : String
  accountGeneration : Int
  requiredScopes : List String
  capabilityID : String
  operation : String
  targetKind : TargetKind
  rootRequestDigest : Bytes
  catalogDigest : Bytes
  schemaDigest : Bytes

structure ProductDelegationIssue where
  parentClaims : GrantClaims
  callContext : CallContext
  childOperationID : String
  capabilityID : String
  operation : String
  requiredScopes : List String
  targetKind : TargetKind
  rootRequestDigest : Bytes
  catalogDigest : Bytes
  schemaDigest : Bytes

structure GrantLibrary where
  validateProductDelegationExchangeRequest : ExchangeRequest → Except String Unit
  verifyProductDelegationParent : Bytes → RootGrantBinding → Except String GrantClaims
  signProductDelegationFromParent : ProductDelegationIssue → Except String Bytes
  verifyProductDelegationGrant : Bytes → ProductGrantBinding → Except String GrantClaims
  /-- A child grant has the scopes it was signed for. -/
  signed : ∀ {issue grant binding claims}, signProductDelegationFromParent issue = .ok grant →
    verifyProductDelegationGrant grant binding = .ok claims → claims.scopes = issue.requiredScopes

structure Broker where
  library : GrantLibrary
  registry : String → Option RegisteredProvider
  /-- The public key has the size of one. -/
  grantKeyed : Bool
  catalogDigest : Bytes
  validateOperationInput : OperationDescriptor → String → Except String Unit
  rootRequestDigest : CapabilityDescriptor → OperationDescriptor → String → Int → Except String Bytes
  canonicalRequestDigest : StartOperationRequest → CapabilityDescriptor → OperationDescriptor → String → Except String Bytes

/-! ## Refusals -/

inductive RefusalCode where
  | invalidArgument
  | trustFailed
  | permissionDenied
  | notFound
  | notReady
  | conflict

structure Refusal where
  code : RefusalCode
  message : String

inductive GrpcCode where
  | invalidArgument
  | unauthenticated
  | permissionDenied
  | notFound
  | alreadyExists
  | unavailable
  | internal

def grpcCodeForCapability : RefusalCode → GrpcCode
  | .invalidArgument => .invalidArgument
  | .trustFailed => .unauthenticated
  | .permissionDenied => .permissionDenied
  | .notFound => .notFound
  | .conflict => .alreadyExists
  | .notReady => .unavailable

def Refusal.status (refusal : Refusal) : GrpcCode × String := (grpcCodeForCapability refusal.code, refusal.message)

def ensure {ε : Type} (holds : Bool) (e : ε) : Except ε Unit := if holds then .ok () else .error e

def given {ε α : Type} (value : Option α) (e : ε) : Except ε α := value.elim (.error e) .ok

theorem ensure_ok (h : ensure holds e = .ok u) : holds = true := by
  unfold ensure at h
  split at h
  · assumption
  · cases h

theorem given_ok (h : given value e = .ok a) : value = some a := by
  cases value with
  | none => cases h
  | some b =>
    cases h
    rfl

/-! ## The handlers -/

namespace Broker

/-- `resolveProvider`; the operation is looked up under the capability id as it was sent. -/
def resolveProvider (s : Broker) (capabilityID operationID : String) (expectedType : OperationType) :
    Except Refusal (RegisteredProvider × OperationDescriptor) := do
  let provider ← given (s.registry (trimSpace capabilityID)) ⟨.notFound, "capability not found"⟩
  ensure provider.descriptor.readiness ⟨.notReady, provider.descriptor.readinessReason⟩
  let operation ← given ((s.registry capabilityID).bind fun p => p.descriptor.operations.find? (·.operationID == operationID))
    ⟨.notFound, "operation not found"⟩
  ensure (expectedType == .unspecified || operation.operationType == expectedType)
    ⟨.invalidArgument, "operation type is not supported by this RPC"⟩
  return (provider, operation)

/-- The account generation in the metadata of a call: absent with the metadata, or not a number. -/
abbrev Metadata := Option (Option Int)

def validatePermissionMetadata (metadata : Metadata) (permission : PermissionContext) : Except Refusal Unit := do
  let generation ← given metadata ⟨.trustFailed, "capability metadata is required"⟩
  ensure (generation == some permission.accountGeneration)
    ⟨.trustFailed, "permission generation does not match authenticated peer"⟩

def inputOf (requestJSON : String) : String := if requestJSON.isEmpty then "{}" else requestJSON

def schemaDigest (operation : OperationDescriptor) : Bytes := sum256 (bytesOf operation.inputSchemaJSON)

def permissionOf (permission : Option PermissionContext) : Option PermissionContext :=
  permission.filter fun p => !blank p.authenticatedOwnerID

def parentBinding (parent : PermissionContext) (call : CallContext) : RootGrantBinding where
  callContext := call
  ownerID := parent.authenticatedOwnerID
  accountGeneration := parent.accountGeneration
  rootRequestDigest := parent.rootRequestDigest
  requiredScopes := parent.grantedScopes

/-- The child grant for an operation within the parent's scopes. -/
def issueFor (s : Broker) (req : ExchangeRequest) (call : CallContext) (operation : OperationDescriptor)
    (parentClaims : GrantClaims) (rootDigest : Bytes) : ProductDelegationIssue where
  parentClaims := parentClaims
  callContext := call
  childOperationID := req.childOperationID
  capabilityID := req.capabilityID
  operation := operation.operationID
  requiredScopes := operation.requiredScopes
  targetKind := req.targetKind
  rootRequestDigest := rootDigest
  catalogDigest := s.catalogDigest
  schemaDigest := schemaDigest operation

def productBinding (s : Broker) (call : CallContext) (permission : PermissionContext) (childOperationID : String)
    (requiredScopes : List String) (capabilityID : String) (operation : OperationDescriptor) (targetKind : TargetKind)
    (rootDigest : Bytes) : ProductGrantBinding where
  callContext := call
  childOperationID := childOperationID
  ownerID := permission.authenticatedOwnerID
  accountGeneration := permission.accountGeneration
  requiredScopes := requiredScopes
  capabilityID := capabilityID
  operation := operation.operationID
  targetKind := targetKind
  rootRequestDigest := rootDigest
  catalogDigest := s.catalogDigest
  schemaDigest := schemaDigest operation

section

variable (s : Broker) (metadata : Metadata)

def exchangeProductDelegation (req : ExchangeRequest) : Except (GrpcCode × String) (PermissionContext × Int) := do
  let (provider, operation) ← (s.resolveProvider req.capabilityID req.operation .unspecified).mapError Refusal.status
  let requestJSON := inputOf req.requestJSON
  (s.library.validateProductDelegationExchangeRequest { req with requestJSON := requestJSON }).mapError
    fun e => (.invalidArgument, e)
  (s.validateOperationInput operation requestJSON).mapError fun e => (.invalidArgument, e)
  let parent ← given (permissionOf req.parentPermission) (.permissionDenied, "parent permission context required")
  let call ← given req.callContext (.invalidArgument, "call_context is required")
  (validatePermissionMetadata metadata parent).mapError Refusal.status
  ensure (parent.rootRequestDigest.length == 32) (.unauthenticated, "parent root request digest is required")
  let parentClaims ← (s.library.verifyProductDelegationParent parent.capabilityGrant (parentBinding parent call)).mapError
    fun _ => (.unauthenticated, "parent capability grant binding failed")
  ensure (sameStrings parentClaims.scopes parent.grantedScopes) (.unauthenticated, "parent capability grant binding failed")
  ensure (hasPrefix parentClaims.rootCapabilityID "agent." && scopesAllow parentClaims.scopes ["agent:product:execute"])
    (.permissionDenied, "parent grant cannot delegate Product capability")
  ensure (scopesAllow parentClaims.scopes operation.requiredScopes)
    (.permissionDenied, "parent grant does not cover Product operation scope")
  let rootDigest ← (s.rootRequestDigest provider.descriptor operation requestJSON req.expectedRevision).mapError
    fun e => (.invalidArgument, e)
  let childGrant ← (s.library.signProductDelegationFromParent (s.issueFor req call operation parentClaims rootDigest)).mapError
    fun _ => (.internal, "issue Product delegation")
  let claims ← (s.library.verifyProductDelegationGrant childGrant
    (s.productBinding call parent req.childOperationID operation.requiredScopes req.capabilityID operation req.targetKind
      rootDigest)).mapError
    fun _ => (.internal, "issued Product delegation failed exact binding")
  ensure (claims.rootCapabilityID == req.capabilityID && claims.rootOperation == operation.operationID &&
    claims.catalogDigest == s.catalogDigest && claims.schemaDigest == schemaDigest operation)
    (.internal, "issued Product delegation failed exact binding")
  return (⟨parent.authenticatedOwnerID, operation.requiredScopes, childGrant, parent.accountGeneration, rootDigest⟩,
    claims.expiresAtUnixMs)

/-- `validateRootPermission`, with the claims it verifies. -/
def validateRootPermission (permission : Option PermissionContext) (callContext : Option CallContext)
    (descriptor : CapabilityDescriptor) (operation : OperationDescriptor) (requestJSON : String) (expectedRevision : Int)
    (childOperationID : String) (targetKind : TargetKind) : Except Refusal (PermissionContext × GrantClaims) := do
  let permission ← given (permissionOf permission) ⟨.permissionDenied, "permission context required"⟩
  ensure (s.grantKeyed && !permission.capabilityGrant.isEmpty) ⟨.trustFailed, "signed capability grant is required"⟩
  let call ← given (callContext.filter fun c => !blank c.rootOperationID)
    ⟨.invalidArgument, "call_context root operation is required"⟩
  validatePermissionMetadata metadata permission
  let rootDigest ← (s.rootRequestDigest descriptor operation requestJSON expectedRevision).mapError fun e => ⟨.invalidArgument, e⟩
  ensure (permission.rootRequestDigest.length == 32 && permission.rootRequestDigest == rootDigest)
    ⟨.trustFailed, "product root request digest does not match permission"⟩
  let claims ← (s.library.verifyProductDelegationGrant permission.capabilityGrant
    (s.productBinding call permission childOperationID permission.grantedScopes descriptor.capabilityID operation targetKind
      rootDigest)).mapError
    fun _ => ⟨.trustFailed, "capability grant binding failed"⟩
  ensure (claims.ownerID == permission.authenticatedOwnerID && claims.accountGeneration == permission.accountGeneration)
    ⟨.trustFailed, "capability grant verification failed"⟩
  ensure (sameStrings claims.scopes permission.grantedScopes) ⟨.trustFailed, "permission scopes do not match grant"⟩
  return (permission, claims)

structure Admission where
  operation : OperationDescriptor
  claims : GrantClaims
  request : StartRequest

variable (req : StartOperationRequest)

def startRequest (operation : OperationDescriptor) (permission : PermissionContext)
    (rootDigest digest : Bytes) : Except Refusal StartRequest :=
  if h : blank req.operationID = false ∧ rootDigest.length = 32 then
    .ok ⟨req.operationID, req.capabilityID, operation.operationID, permission.authenticatedOwnerID, permission.accountGeneration,
      rootDigest, digest, inputOf req.requestJSON, h.1, h.2⟩
  else .error ⟨.invalidArgument, "operation_id is required"⟩

/-- `StartOperation` from the lookup of the provider up to the operation store. -/
def admitOperation : Except Refusal Admission := do
  let (provider, operation) ← s.resolveProvider req.capabilityID req.operation .mutation
  ensure (!blank req.operationID) ⟨.invalidArgument, "operation_id is required"⟩
  let requestJSON := inputOf req.requestJSON
  (s.validateOperationInput operation requestJSON).mapError fun e => ⟨.invalidArgument, e⟩
  let (permission, claims) ← s.validateRootPermission metadata req.permission req.callContext provider.descriptor operation
    requestJSON req.expectedRevision req.operationID .startOperation
  ensure (scopesAllow permission.grantedScopes operation.requiredScopes)
    ⟨.permissionDenied, "required capability scope is missing"⟩
  let digest ← (s.canonicalRequestDigest req provider.descriptor operation requestJSON).mapError fun e => ⟨.invalidArgument, e⟩
  ensure (req.requestDigest.isEmpty || req.requestDigest == digest) ⟨.conflict, "request_digest does not match request_json"⟩
  let rootDigest ← (s.rootRequestDigest provider.descriptor operation requestJSON req.expectedRevision).mapError
    fun e => ⟨.invalidArgument, e⟩
  let request ← startRequest req operation permission rootDigest digest
  return ⟨operation, claims, request⟩

/-- The capabilities outside the registry, which take no permission and need no scopes. -/
def privateCapabilities : List String := ["product.agent_execution.v1", "product.group_agent.v1"]

def handlers (s : Broker) : Registry := fun capabilityID operationID =>
  (s.registry (trimSpace capabilityID)).bind
    fun p => (p.descriptor.operations.find? (·.operationID == operationID)).map fun _ => p.handler

/-- What a `StartOperation` call does with the operation store and the handlers of the registry. -/
def startOperation : Sys Unit :=
  if req.capabilityID ∈ privateCapabilities then return ()
  else
    match s.admitOperation metadata req with
    | .error _ => return ()
    | .ok admission => Capability.startOperation s.handlers admission.request

end

end Broker

/-! ## What is issued and run -/

theorem Covered.stretched (h : Covered granted required) (hscope : scope ∈ required) : Stretched granted scope := by
  obtain ⟨entry, hentry, hcovers⟩ := h scope hscope
  exact ⟨entry, hentry, .inr (covers_trim hcovers)⟩

theorem covered_iff_within (h : scopesAllow granted required = true) : Covered granted required ↔ Within granted required :=
  ⟨fun hcovered scope hscope _ => hcovered scope hscope,
    fun hwithin scope hscope => hwithin scope hscope (scopesAllow_iff.mp h scope hscope)⟩

theorem allow_iff_covered_iff : (scopesAllow granted required = true ↔ Covered granted required) ↔
    Within granted required ∨ ∃ scope ∈ required, ¬ Stretched granted scope := by
  constructor
  · intro h
    by_cases hallow : scopesAllow granted required = true
    · exact .inl ((covered_iff_within hallow).mp (h.mp hallow))
    · rw [scopesAllow_iff] at hallow
      push Not at hallow
      exact .inr hallow
  · rintro (hwithin | ⟨scope, hscope, hnot⟩)
    · refine ⟨fun hallow => (covered_iff_within hallow).mpr hwithin, fun hcovered => ?_⟩
      exact scopesAllow_iff.mpr fun scope hscope => hcovered.stretched hscope
    · refine ⟨fun hallow => absurd (scopesAllow_iff.mp hallow scope hscope) hnot,
        fun hcovered => absurd (hcovered.stretched hscope) hnot⟩

theorem sameStrings_mem (h : sameStrings left right = true) (x : String) : x ∈ left ↔ x ∈ right := by
  unfold sameStrings at h
  split at h
  · cases h
  · rw [← (mergeSort_perm left (· ≤ ·)).mem_iff, beq_iff_eq.mp h, (mergeSort_perm right (· ≤ ·)).mem_iff]

theorem within_cons : Within granted (scope :: required) ↔ Within granted [scope] ∧ Within granted required := by
  simp [Within]

def ParentClaims (s : Broker) (req : ExchangeRequest) (claims : GrantClaims) : Prop :=
  ∃ parent call, req.parentPermission = some parent ∧ req.callContext = some call ∧
    s.library.verifyProductDelegationParent parent.capabilityGrant (Broker.parentBinding parent call) = .ok claims

def RequestClaims (s : Broker) (req : StartOperationRequest) (claims : GrantClaims) : Prop :=
  ∃ permission binding, req.permission = some permission ∧
    s.library.verifyProductDelegationGrant permission.capabilityGrant binding = .ok claims ∧
      ∀ x, x ∈ claims.scopes ↔ x ∈ permission.grantedScopes

variable {s : Broker} {metadata : Broker.Metadata}

/-- What is known of an exchange that goes through. -/
theorem exchange_ok {req : ExchangeRequest} {permission : PermissionContext} {expires : Int}
    (h : s.exchangeProductDelegation metadata req = .ok (permission, expires)) :
    ∃ provider operation claims, s.resolveProvider req.capabilityID req.operation .unspecified = .ok (provider, operation) ∧
      ParentClaims s req claims ∧ scopesAllow claims.scopes ["agent:product:execute"] = true ∧
      scopesAllow claims.scopes operation.requiredScopes = true ∧ permission.grantedScopes = operation.requiredScopes ∧
      ∀ binding child, s.library.verifyProductDelegationGrant permission.capabilityGrant binding = .ok child →
        child.scopes = operation.requiredScopes := by
  obtain ⟨⟨provider, operation⟩, hresolve, h⟩ := bind_eq_ok.mp h
  simp only [bind_eq_ok] at h
  obtain ⟨_, -, _, -, parent, hparent, call, hcall, _, -, _, -, claims, hclaims, _, -, _, hexecute, _, hscopes, rootDigest, -,
    childGrant, hsign, _, -, _, -, h⟩ := h
  cases h
  have hexecute := (Bool.and_eq_true_iff.mp (ensure_ok hexecute)).2
  have hparent := (Option.filter_eq_some_iff.mp (given_ok hparent)).1
  refine ⟨provider, operation, claims, mapError_eq_ok.mp hresolve,
    ⟨parent, call, hparent, given_ok hcall, mapError_eq_ok.mp hclaims⟩, hexecute,
    ensure_ok hscopes, rfl, fun binding child hchild => s.library.signed (mapError_eq_ok.mp hsign) hchild⟩

/-- What is known of a start that is admitted. -/
theorem admit_ok {req : StartOperationRequest} {admission : Broker.Admission}
    (h : s.admitOperation metadata req = .ok admission) :
    (∃ provider, s.resolveProvider req.capabilityID req.operation .mutation = .ok (provider, admission.operation)) ∧
      RequestClaims s req admission.claims ∧
      ∃ permission, req.permission = some permission ∧ (∀ x, x ∈ admission.claims.scopes ↔ x ∈ permission.grantedScopes) ∧
        scopesAllow permission.grantedScopes admission.operation.requiredScopes = true := by
  obtain ⟨⟨provider, operation⟩, hresolve, h⟩ := bind_eq_ok.mp h
  simp only [bind_eq_ok] at h
  obtain ⟨_, -, _, -, ⟨permission, claims⟩, hvalid, _, hscopes, _, -, _, -, _, -, _, -, h⟩ := h
  cases h
  unfold Broker.validateRootPermission at hvalid
  simp only [bind_eq_ok] at hvalid
  obtain ⟨permission', hpermission, _, -, call, -, _, -, rootDigest, -, _, -, _, hclaims, _, -, _, hsame, hvalid⟩ := hvalid
  cases hvalid
  have hpermission := (Option.filter_eq_some_iff.mp (given_ok hpermission)).1
  have hmem := sameStrings_mem (ensure_ok hsame)
  exact ⟨⟨provider, hresolve⟩, ⟨permission, _, hpermission, mapError_eq_ok.mp hclaims, hmem⟩, permission, hpermission, hmem,
    ensure_ok hscopes⟩

/-- `scopesAllow`, the child grants and the runs of operations respect the scopes exactly where no entry is stretched
to a scope it does not cover (for `scopesAllow`, or where another scope is refused). -/
theorem scopes_respected_iff (s : Broker) (metadata : Broker.Metadata) :
    (∀ granted required, (scopesAllow granted required = true ↔ Covered granted required) ↔
      Within granted required ∨ ∃ scope ∈ required, ¬ Stretched granted scope) ∧
    (∀ req permission expires, s.exchangeProductDelegation metadata req = .ok (permission, expires) →
      ∃ provider operation claims, s.resolveProvider req.capabilityID req.operation .unspecified = .ok (provider, operation) ∧
        ParentClaims s req claims ∧
        (Covered claims.scopes operation.requiredScopes ∧ Covered claims.scopes ["agent:product:execute"] ∧
          Covered claims.scopes permission.grantedScopes ∧
          (∀ binding child, s.library.verifyProductDelegationGrant permission.capabilityGrant binding = .ok child →
            Covered claims.scopes child.scopes) ↔
        Within claims.scopes ("agent:product:execute" :: operation.requiredScopes))) ∧
    ∀ req, s.startOperation metadata req ≠ pure () →
      ∃ provider operation claims, s.resolveProvider req.capabilityID req.operation .mutation = .ok (provider, operation) ∧
        RequestClaims s req claims ∧
          (Covered claims.scopes operation.requiredScopes ↔ Within claims.scopes operation.requiredScopes) := by
  refine ⟨fun _ _ => allow_iff_covered_iff, ?_, ?_⟩
  · intro req permission expires h
    obtain ⟨provider, operation, claims, hresolve, hclaims, hexecute, hscopes, hissued, hchild⟩ := exchange_ok h
    refine ⟨provider, operation, claims, hresolve, hclaims, ?_⟩
    rw [within_cons, ← covered_iff_within hexecute, ← covered_iff_within hscopes, hissued]
    constructor
    · rintro ⟨hcovered, hcoveredExecute, -, -⟩
      exact ⟨hcoveredExecute, hcovered⟩
    · rintro ⟨hcoveredExecute, hcovered⟩
      exact ⟨hcovered, hcoveredExecute, hcovered, fun binding child hverify => hchild binding child hverify ▸ hcovered⟩
  · intro req hruns
    unfold Broker.startOperation at hruns
    split at hruns
    · exact absurd rfl hruns
    split at hruns
    · exact absurd rfl hruns
    next admission hadmitted =>
    obtain ⟨⟨provider, hresolve⟩, hclaims, permission, -, hmem, hscopes⟩ := admit_ok hadmitted
    refine ⟨provider, admission.operation, admission.claims, hresolve, hclaims, ?_⟩
    simp only [Covered, Within, Stretched, hmem]
    exact covered_iff_within hscopes

/-! ## The wildcard of the products -/

def sampleOperation : OperationDescriptor := ⟨"send", .mutation, ["product:messages:write"], "{}"⟩

/-- The claims of a grant of the agent `agent.chat` with the scope `product:*` alone, and of a child of it. -/
def sampleClaims (scopes : List String) (rootCapabilityID : String) : GrantClaims :=
  ⟨scopes, rootCapabilityID, "send", "@o:home", 1, [], Broker.schemaDigest sampleOperation, 0⟩

def sampleLibrary : GrantLibrary where
  validateProductDelegationExchangeRequest _ := .ok ()
  verifyProductDelegationParent _ _ := .ok (sampleClaims ["product:*"] "agent.chat")
  signProductDelegationFromParent issue := if issue.requiredScopes = ["product:messages:write"] then .ok [1] else .error ""
  verifyProductDelegationGrant _ _ := .ok (sampleClaims ["product:messages:write"] "product.messages.v1")
  signed {issue grant binding claims} hsign hverify := by
    cases hverify
    split at hsign
    · next hscopes => exact hscopes.symm
    · cases hsign

def sampleBroker : Broker where
  library := sampleLibrary
  registry capabilityID :=
    if capabilityID = "product.messages.v1" then
      some ⟨⟨"product.messages.v1", true, "", [sampleOperation]⟩, fun _ _ => pure (.ok "")⟩ else none
  grantKeyed := true
  catalogDigest := []
  validateOperationInput _ _ := .ok ()
  rootRequestDigest _ _ _ _ := .ok []
  canonicalRequestDigest _ _ _ _ := .ok []

def sampleExchange : ExchangeRequest :=
  ⟨"product.messages.v1", "send", "", 0, some ⟨"@o:home", ["product:*"], [], 1, replicate 32 0⟩, some ⟨"root"⟩, "child",
    .startOperation⟩

/-- A grant for `product:*` alone delegates, although no entry of it covers `agent:product:execute`. -/
theorem delegated_without_execute :
    scopesAllow ["product:*"] ["agent:product:execute"] = true ∧ ¬ Covered ["product:*"] ["agent:product:execute"] ∧
      isOk (sampleBroker.exchangeProductDelegation (some (some 1)) sampleExchange) = true ∧
      ParentClaims sampleBroker sampleExchange (sampleClaims ["product:*"] "agent.chat") := by
  refine ⟨by decide, ?_, by decide +kernel, _, _, rfl, rfl, rfl⟩
  intro h
  obtain ⟨entry, hentry, hcovers⟩ := h "agent:product:execute" (by simp)
  rw [mem_singleton.mp hentry] at hcovers
  revert hcovers
  decide

end Dirextalk.Capability

import Traverse.Events.Types
import Traverse.Text.Doc

/-!
# Execution.Types

What the runtime reads and writes when it executes a request: contracts and registry entries as far
as it looks at them, requests, and the records it answers with. Enumerations carry the name serde
writes for them, since state events and errors hold them as JSON.
-/

namespace Traverse.Execution

open Json (Doc)
open Lines (Bytes)

/-! ## Contracts -/

inductive Lifecycle where
  | draft
  | active
  | deprecated
  | retired
  | archived
  deriving DecidableEq, Repr

def Lifecycle.isRuntimeEligible : Lifecycle → Bool
  | .active | .deprecated => true
  | _ => false

def Lifecycle.name : Lifecycle → String
  | .draft => "draft"
  | .active => "active"
  | .deprecated => "deprecated"
  | .retired => "retired"
  | .archived => "archived"

inductive ServiceType where
  | stateless
  | subscribable
  | stateful
  deriving DecidableEq, Repr

inductive ExecutionTarget where
  | localTarget
  | browser
  | edge
  | cloud
  | worker
  | device
  deriving DecidableEq, Repr

/-- `format!("{:?}", target)`. -/
def ExecutionTarget.debug : ExecutionTarget → String
  | .localTarget => "Local"
  | .browser => "Browser"
  | .edge => "Edge"
  | .cloud => "Cloud"
  | .worker => "Worker"
  | .device => "Device"

inductive HostApiAccess where
  | none
  | exceptionRequired
  deriving DecidableEq, Repr

inductive NetworkAccess where
  | forbidden
  | required
  deriving DecidableEq, Repr

structure EventReference where
  (eventId version : String)
  deriving DecidableEq, Repr

inductive DependencyArtifactType where
  | capability
  | event
  | policy
  deriving DecidableEq, Repr

structure DependencyReference where
  artifactType : DependencyArtifactType
  (id version : String)
  deriving DecidableEq, Repr

/-- `contract.execution`, with the constraints the runtime checks. -/
structure ContractExecution where
  preferredTargets : List ExecutionTarget
  hostApiAccess : HostApiAccess
  networkAccess : NetworkAccess
  deriving DecidableEq, Repr

structure CapabilityContract where
  (id version : String)
  lifecycle : Lifecycle
  (inputs outputs : Doc)
  emits : List EventReference
  execution : ContractExecution
  dependencies : List DependencyReference
  serviceType : ServiceType
  permittedTargets : List ExecutionTarget

/-! ## Events -/

/-- `TraverseEvent`, with any JSON as its data. -/
structure TraverseEvent where
  (id source eventType datacontenttype time : String)
  data : Doc
  (owner version : String)
  lifecycleStatus : Events.LifecycleStatus
  (deduplicationId orderingScope correlationId causationId subjectId actorId : Option String)

def TraverseEvent.reference (event : TraverseEvent) : EventReference :=
  ⟨event.eventType, event.version⟩

structure Subscription where
  subscriptionId : String

structure BrokerEvent where
  cursor : String
  event : TraverseEvent

structure SubscriptionPoll where
  events : List BrokerEvent

/-! ## Registry entries -/

inductive LookupScope where
  | publicOnly
  | preferPrivate
  deriving DecidableEq, Repr

def LookupScope.name : LookupScope → String
  | .publicOnly => "public_only"
  | .preferPrivate => "prefer_private"

inductive RegistryScope where
  | publicScope
  | privateScope
  deriving DecidableEq, Repr

def RegistryScope.name : RegistryScope → String
  | .publicScope => "public"
  | .privateScope => "private"

/-- The lookup that sees entries of a scope. -/
def RegistryScope.lookup : RegistryScope → LookupScope
  | .publicScope => .publicOnly
  | .privateScope => .preferPrivate

inductive ImplementationKind where
  | executable
  | workflow
  deriving DecidableEq, Repr

def ImplementationKind.name : ImplementationKind → String
  | .executable => "executable"
  | .workflow => "workflow"

inductive SourceKind where
  | git
  | localSource
  deriving DecidableEq, Repr

inductive ArtifactSignatureScheme where
  | ed25519
  | sigstore
  deriving DecidableEq, Repr

structure ArtifactSignature where
  scheme : ArtifactSignatureScheme
  (publicKeyHex signatureHex : Option String)
  deriving DecidableEq, Repr

structure BinaryReference where
  location : String
  signature : Option ArtifactSignature
  deriving DecidableEq, Repr

structure WorkflowReference where
  (workflowId workflowVersion : String)
  deriving DecidableEq, Repr

structure CapabilityArtifactRecord where
  sourceKind : SourceKind
  binary : Option BinaryReference
  workflowRef : Option WorkflowReference
  binaryDigest : Option String
  deriving DecidableEq, Repr

structure CapabilityRegistryRecord where
  scope : RegistryScope
  (id version : String)
  lifecycle : Lifecycle
  contractPath : String
  implementationKind : ImplementationKind
  artifactRef : String
  deriving DecidableEq, Repr

structure ResolvedCapability where
  contract : CapabilityContract
  record : CapabilityRegistryRecord
  artifact : CapabilityArtifactRecord

/-- A discovery entry, or what a version range resolved to. -/
structure DiscoveryIndexEntry where
  scope : RegistryScope
  (id version : String)
  deriving DecidableEq, Repr

inductive ResolutionError where
  | missingDependency (capabilityId requiredVersion : String)
  | circularDependency (cycle : List String)
  | maxTransitiveDepthExceeded (depth : Nat) (chain : List String)
  deriving DecidableEq, Repr

structure IndexedCapability where
  (appId appVersion componentId componentVersion capabilityId capabilityVersion : String)
  artifactDigest : Option String
  deriving DecidableEq, Repr

structure IndexedSource where
  (contract artifact : String)
  deriving DecidableEq, Repr

structure HydrationError where
  (code message : String)
  deriving DecidableEq, Repr

/-! ## Workflow definitions -/

inductive WorkflowEdgeTrigger where
  | direct
  | event
  deriving DecidableEq, Repr

structure WorkflowEdgePredicate where
  field : String
  equals : Doc

structure WorkflowEdge where
  (edgeId fromNode toNode : String)
  trigger : WorkflowEdgeTrigger
  event : Option EventReference
  predicate : Option WorkflowEdgePredicate

structure WorkflowNode where
  (nodeId capabilityId capabilityVersion : String)
  (fromWorkflowInput toWorkflowState : List String)
  publishToStateAs : Option String
  deriving DecidableEq, Repr

structure WorkflowDefinition where
  (id version : String)
  (inputs outputs : Doc)
  nodes : List WorkflowNode
  edges : List WorkflowEdge
  startNode : String
  (terminalNodes outputProjection : List String)

/-! ## Requests -/

structure RuntimeIdentity where
  subjectId : String
  actorId : Option String
  tokenReferenceHash : String
  deriving DecidableEq, Repr

def RuntimeIdentity.toDoc (identity : RuntimeIdentity) : Doc :=
  .object [("subject_id", .str identity.subjectId), ("actor_id", .ofOption .str identity.actorId),
    ("token_reference_hash", .str identity.tokenReferenceHash)]

inductive PlacementTarget where
  | localTarget
  | browser
  | edge
  | cloud
  | worker
  | device
  deriving DecidableEq, Repr

def PlacementTarget.toDoc : PlacementTarget → Doc
  | .localTarget => .str "local"
  | .browser => .str "browser"
  | .edge => .str "edge"
  | .cloud => .str "cloud"
  | .worker => .str "worker"
  | .device => .str "device"

structure RuntimeIntent where
  (capabilityId capabilityVersion versionRange intentKey : Option String)
  deriving DecidableEq, Repr

structure RuntimeLookup where
  scope : LookupScope
  allowAmbiguity : Bool
  deriving DecidableEq, Repr

structure RuntimeContext where
  requestedTarget : PlacementTarget
  caller : Option String
  identity : Option RuntimeIdentity
  deriving DecidableEq, Repr

structure RuntimeRequest where
  (kind schemaVersion requestId : String)
  intent : RuntimeIntent
  input : Doc
  lookup : RuntimeLookup
  context : RuntimeContext
  governingSpec : String

/-! ## Errors and warnings -/

inductive RuntimeErrorCode where
  | requestInvalid
  | capabilityNotFound
  | capabilityAmbiguous
  | capabilityNotRunnable
  | placementUnsupported
  | artifactMissing
  | executionFailed
  | outputValidationFailed
  | contractViolation
  deriving DecidableEq, Repr

def RuntimeErrorCode.toDoc : RuntimeErrorCode → Doc
  | .requestInvalid => .str "request_invalid"
  | .capabilityNotFound => .str "capability_not_found"
  | .capabilityAmbiguous => .str "capability_ambiguous"
  | .capabilityNotRunnable => .str "capability_not_runnable"
  | .placementUnsupported => .str "placement_unsupported"
  | .artifactMissing => .str "artifact_missing"
  | .executionFailed => .str "execution_failed"
  | .outputValidationFailed => .str "output_validation_failed"
  | .contractViolation => .str "contract_violation"

structure RuntimeError where
  code : RuntimeErrorCode
  message : String
  details : Doc

structure RuntimeWarning where
  (code message : String)
  deriving DecidableEq, Repr

inductive LocalExecutionFailureCode where
  | executionFailed
  | timeout
  | invalidInput
  | resourceExhausted
  | constraintViolated
  deriving DecidableEq, Repr

/-- `format!("{:?}", code)`. -/
def LocalExecutionFailureCode.debug : LocalExecutionFailureCode → String
  | .executionFailed => "ExecutionFailed"
  | .timeout => "Timeout"
  | .invalidInput => "InvalidInput"
  | .resourceExhausted => "ResourceExhausted"
  | .constraintViolated => "ConstraintViolated"

structure LocalExecutionFailure where
  code : LocalExecutionFailureCode
  message : String
  deriving DecidableEq, Repr

structure LocalExecutionOutput where
  value : Doc
  emittedEvents : List TraverseEvent

/-! ## Artifact verification -/

inductive RuntimeSecurityMode where
  | production
  | development
  deriving DecidableEq, Repr

inductive ArtifactVerificationStatus where
  | verified
  | warning
  | rejected
  deriving DecidableEq, Repr

def ArtifactVerificationStatus.toDoc : ArtifactVerificationStatus → Doc
  | .verified => .str "verified"
  | .warning => .str "warning"
  | .rejected => .str "rejected"

inductive ArtifactTrustLevel where
  | localDev
  | publishedGoverned
  deriving DecidableEq, Repr

def ArtifactTrustLevel.toDoc : ArtifactTrustLevel → Doc
  | .localDev => .str "local_dev"
  | .publishedGoverned => .str "published_governed"

def ArtifactSignatureScheme.toDoc : ArtifactSignatureScheme → Doc
  | .ed25519 => .str "ed25519"
  | .sigstore => .str "sigstore"

structure ArtifactVerificationRecord where
  status : ArtifactVerificationStatus
  trustLevel : ArtifactTrustLevel
  scheme : Option ArtifactSignatureScheme
  (warningCode errorCode : Option String)
  deriving DecidableEq, Repr

def ArtifactVerificationRecord.toDoc (record : ArtifactVerificationRecord) : Doc :=
  .object [("status", record.status.toDoc), ("trust_level", record.trustLevel.toDoc),
    ("scheme", .ofOption ArtifactSignatureScheme.toDoc record.scheme),
    ("warning_code", .ofOption .str record.warningCode),
    ("error_code", .ofOption .str record.errorCode)]

/-! ## Placement -/

inductive PlacementDecisionStatus where
  | notAttempted
  | selected
  | unsupported
  deriving DecidableEq, Repr

def PlacementDecisionStatus.toDoc : PlacementDecisionStatus → Doc
  | .notAttempted => .str "not_attempted"
  | .selected => .str "selected"
  | .unsupported => .str "unsupported"

inductive PlacementDecisionReason where
  | selectionNotReached
  | requestedTargetSelected
  | requestedTargetUnsupported
  deriving DecidableEq, Repr

def PlacementDecisionReason.toDoc : PlacementDecisionReason → Doc
  | .selectionNotReached => .str "selection_not_reached"
  | .requestedTargetSelected => .str "requested_target_selected"
  | .requestedTargetUnsupported => .str "requested_target_unsupported"

structure PlacementDecisionRecord where
  requestedTarget : PlacementTarget
  selectedTarget : Option PlacementTarget
  status : PlacementDecisionStatus
  reason : PlacementDecisionReason
  supportedExecutorTargets : List PlacementTarget
  deriving DecidableEq, Repr

/-- The target an execution is recorded with. -/
def PlacementDecisionRecord.target (placement : PlacementDecisionRecord) : PlacementTarget :=
  placement.selectedTarget.getD placement.requestedTarget

/-! ## Candidates and selection -/

inductive CandidateReason where
  | exactMatch
  | intentMatch
  deriving DecidableEq, Repr

def CandidateReason.toDoc : CandidateReason → Doc
  | .exactMatch => .str "exact_match"
  | .intentMatch => .str "intent_match"

inductive RejectedCandidateReason where
  | notRunnableLocally
  | lifecycleNotRunnable
  | artifactMissing
  deriving DecidableEq, Repr

def RejectedCandidateReason.toDoc : RejectedCandidateReason → Doc
  | .notRunnableLocally => .str "not_runnable_locally"
  | .lifecycleNotRunnable => .str "lifecycle_not_runnable"
  | .artifactMissing => .str "artifact_missing"

structure RuntimeCandidate where
  scope : RegistryScope
  (capabilityId capabilityVersion artifactRef : String)
  implementationKind : ImplementationKind
  lifecycle : Lifecycle
  reason : CandidateReason
  deriving DecidableEq, Repr

def RuntimeCandidate.toDoc (c : RuntimeCandidate) : Doc :=
  .object [("scope", .str c.scope.name), ("capability_id", .str c.capabilityId),
    ("capability_version", .str c.capabilityVersion), ("artifact_ref", .str c.artifactRef),
    ("implementation_kind", .str c.implementationKind.name), ("lifecycle", .str c.lifecycle.name),
    ("reason", c.reason.toDoc)]

structure RejectedRuntimeCandidate where
  (capabilityId capabilityVersion : String)
  scope : RegistryScope
  reason : RejectedCandidateReason
  deriving DecidableEq, Repr

def RejectedRuntimeCandidate.toDoc (c : RejectedRuntimeCandidate) : Doc :=
  .object [("capability_id", .str c.capabilityId), ("capability_version", .str c.capabilityVersion),
    ("scope", .str c.scope.name), ("reason", c.reason.toDoc)]

structure CandidateCollectionRecord where
  lookupScope : LookupScope
  candidates : List RuntimeCandidate
  rejectedCandidates : List RejectedRuntimeCandidate
  deriving DecidableEq, Repr

inductive SelectionStatus where
  | selected
  | noMatch
  | ambiguous
  | invalidRequest
  deriving DecidableEq, Repr

inductive SelectionFailureReason where
  | invalidRequest
  | noMatch
  | ambiguous
  | notRunnable
  deriving DecidableEq, Repr

structure SelectionRecord where
  status : SelectionStatus
  (selectedCapabilityId selectedCapabilityVersion : Option String)
  failureReason : Option SelectionFailureReason
  remainingCandidates : List RuntimeCandidate
  deriving DecidableEq, Repr

/-! ## Execution and result -/

inductive ExecutionStatus where
  | notStarted
  | succeeded
  | failed
  deriving DecidableEq, Repr

inductive ExecutionFailureReason where
  | contractInputInvalid
  | artifactMissing
  | artifactNotRunnable
  | placementUnsupported
  | executionFailed
  | contractOutputInvalid
  deriving DecidableEq, Repr

structure ExecutionRecord where
  placement : PlacementDecisionRecord
  placementTarget : PlacementTarget
  status : ExecutionStatus
  (artifactRef startedAt completedAt outputDigest : Option String)
  failureReason : Option ExecutionFailureReason
  artifactVerification : Option ArtifactVerificationRecord
  identity : Option RuntimeIdentity
  deriving DecidableEq, Repr

inductive RuntimeResultStatus where
  | completed
  | error
  deriving DecidableEq, Repr

def RuntimeResultStatus.toDoc : RuntimeResultStatus → Doc
  | .completed => .str "completed"
  | .error => .str "error"

structure RuntimeResult where
  (kind schemaVersion executionId requestId : String)
  status : RuntimeResultStatus
  traceRef : String
  output : Option Doc
  error : Option RuntimeError
  warnings : List RuntimeWarning

structure TraceResultRecord where
  status : RuntimeResultStatus
  output : Option Doc
  error : Option RuntimeError
  warnings : List RuntimeWarning

structure TraceTerminalOutcome where
  runtimeStatus : RuntimeResultStatus
  executionStatus : ExecutionStatus
  failureReason : Option ExecutionFailureReason
  error : Option RuntimeError

end Traverse.Execution

import Traverse.Execution.Workflow

/-!
# Execution.Runtime

`Runtime::execute`: begin the attempt, validate the request, collect the candidates, and execute the
one that is eligible, through the placement router or by traversing its workflow. Whatever the
outcome, a lifecycle event goes to the event sink.

As in a traversal, `none` means that the execution has not returned with this much fuel.
-/

namespace Traverse.Execution

open Json (Doc)
open Lines (Bytes)

/-! ## The attempt -/

def sanitizedRequest (primitives : Primitives) (request : RuntimeRequest) : RuntimeRequest :=
  match request.context.caller.bind (deriveIdentityFromJwt primitives) with
  | some identity =>
    { request with context := { request.context with identity := some identity, caller := none } }
  | none => request

def executionIdOf (requestId : String) : String := s!"exec_{requestId}"

def traceIdOf (requestId : String) : String := s!"trace_{executionIdOf requestId}"

def beginAttempt (primitives : Primitives) (request : RuntimeRequest) :
    AttemptContext × StateEmitter :=
  let request := sanitizedRequest primitives request
  let executionId := executionIdOf request.requestId
  let emitter := StateEmitter.new executionId request.requestId
  let emitter := emitter.push .loadingRegistry .runtimeInitializationStarted
    (.object [("registry_status", .str "available"),
      ("identity", .ofOption RuntimeIdentity.toDoc request.context.identity)])
  let emitter := emitter.push .ready .registryLoaded
    (.object [("governing_spec", .str requestGoverningSpec)])
  (⟨request, executionId, traceIdOf request.requestId, none, []⟩, emitter)

/-! ## Validation -/

def invalidAt (message path : String) : RuntimeError :=
  runtimeError .requestInvalid message (.object [("path", .str path)])

variable (intent : RuntimeIntent)

def isExactTarget : Bool :=
  intent.capabilityId.any nonEmpty && intent.capabilityVersion.any nonEmpty

def validateRequest (semver : Semver) (request : RuntimeRequest) : Option RuntimeError :=
  let exactId := request.intent.capabilityId.any nonEmpty
  let exactVersion := request.intent.capabilityVersion.any nonEmpty
  let intentKey := request.intent.intentKey.any nonEmpty
  let hasVersionRange := request.intent.versionRange.any nonEmpty
  if request.kind ≠ "runtime_request" then
    some (invalidAt "kind must equal runtime_request" "$.kind")
  else if request.schemaVersion ≠ supportedSchemaVersion then
    some (invalidAt "schema_version must equal 1.0.0" "$.schema_version")
  else if request.governingSpec ≠ requestGoverningSpec then
    some (invalidAt "governing_spec must equal 006-runtime-request-execution" "$.governing_spec")
  else if !nonEmpty request.requestId then
    some (invalidAt "request_id must be non-empty" "$.request_id")
  else if request.lookup.allowAmbiguity then
    some (invalidAt "allow_ambiguity must be false in this runtime slice"
      "$.lookup.allow_ambiguity")
  else if request.intent.capabilityVersion.any fun version => !semver.isVersion version then
    some (invalidAt "capability_version must be valid semantic versioning"
      "$.intent.capability_version")
  else if !(exactId || intentKey) then
    some (invalidAt "runtime intent must include capability_id or intent_key" "$.intent")
  else if exactVersion && !exactId then
    some (invalidAt "capability_version requires capability_id" "$.intent.capability_version")
  else if hasVersionRange && !exactId then
    some (invalidAt "version_range requires capability_id" "$.intent.version_range")
  else if hasVersionRange && exactVersion then
    some (invalidAt "version_range and capability_version are mutually exclusive"
      "$.intent.version_range")
  else none

/-! ## Candidates -/

/-- `evaluate_candidate`: why the candidate is rejected, or nothing if it is eligible. -/
def evaluateCandidate (candidate : ResolvedCapability) : Option RejectedCandidateReason :=
  if !candidate.contract.lifecycle.isRuntimeEligible then some .lifecycleNotRunnable
  else if candidate.record.implementationKind = .workflow then
    if candidate.artifact.workflowRef.isSome then none else some .artifactMissing
  else if !candidate.contract.execution.preferredTargets.contains .localTarget ||
      candidate.contract.execution.hostApiAccess ≠ .none ||
      candidate.contract.execution.networkAccess ≠ .forbidden then
    some .notRunnableLocally
  else if candidate.artifact.binary.any fun binary => !nonEmpty binary.location then
    some .artifactMissing
  else none

def rejectedCandidate (candidate : ResolvedCapability) : Option RejectedRuntimeCandidate :=
  (evaluateCandidate candidate).map fun reason =>
    ⟨candidate.record.id, candidate.record.version, candidate.record.scope, reason⟩

/-- The version range of an intent, where it is looked up by one. -/
def rangeTarget : Option (String × String) :=
  match intent.capabilityId, intent.versionRange with
  | some id, some range => if nonEmpty id && nonEmpty range then some (id, range) else none
  | _, _ => none

/-- The id that discovery compares with. -/
def discoveryTarget : String :=
  (intent.capabilityId.or intent.intentKey).getD ""

namespace Runtime

variable {σ κ : Type} (rt : Runtime σ κ)

def findEntry (entry : DiscoveryIndexEntry) : Option ResolvedCapability :=
  rt.registry.findExact entry.scope.lookup entry.id entry.version

variable (request : RuntimeRequest)

def collectCandidates : List ResolvedCapability :=
  let scope := request.lookup.scope
  if isExactTarget request.intent then
    match request.intent.capabilityId, request.intent.capabilityVersion with
    | some id, some version => (rt.registry.findExact scope id version).toList
    | _, _ => []
  else
    match rangeTarget request.intent with
    | some (id, range) =>
      ((rt.registry.resolveVersionRange id range scope).bind rt.findEntry).toList
    | none =>
      ((rt.registry.discover scope).filter fun entry =>
        entry.id = discoveryTarget request.intent).filterMap rt.findEntry

/-- Hydrates one entry after the other, up to the first that fails. -/
def hydrateAll : List IndexedCapability → State σ κ →
    Except HydrationError (List ResolvedCapability) × State σ κ
  | [], s => (.ok [], s)
  | entry :: entries, s =>
    match rt.hydrateResolvedCapability entry.capabilityId entry.capabilityVersion s with
    | (.error error, s) => (.error error, s)
    | (.ok capability, s) =>
      let rest := hydrateAll entries s
      (rest.1.map (capability :: ·), rest.2)

/-- The entries of the index a request asks for. -/
def indexedTargets : List IndexedCapability :=
  let entries := rt.capabilityMetadata.entries.map Prod.snd
  match request.intent.capabilityId.filter nonEmpty,
      request.intent.capabilityVersion.filter nonEmpty with
  | some id, some version =>
    -- It is hydrated under the names of the request, whatever the entry says.
    (rt.capabilityMetadata.get id version).toList.map fun entry =>
      { entry with capabilityId := id, capabilityVersion := version }
  | _, _ =>
    match rangeTarget request.intent with
    | some (id, range) =>
      if rt.semver.isRange range then
        let inRange := entries.filter fun entry => entry.capabilityId = id &&
          rt.semver.isVersion entry.capabilityVersion &&
          rt.semver.inRange range entry.capabilityVersion
        (inRange.insertionSort fun left right =>
          rt.semver.le left.capabilityVersion right.capabilityVersion).getLast?.toList
      else []
    | none => entries.filter fun entry => entry.capabilityId = discoveryTarget request.intent

def collectIndexedCandidates (s : State σ κ) :
    Except HydrationError (List ResolvedCapability) × State σ κ :=
  rt.hydrateAll (rt.indexedTargets request) s

/-- The candidates, from the registry or else from the index. -/
def discover (s : State σ κ) :
    Except HydrationError (List ResolvedCapability) × State σ κ :=
  let discovered := rt.collectCandidates request
  if discovered.isEmpty && !rt.capabilityMetadata.entries.isEmpty then
    rt.collectIndexedCandidates request s
  else (.ok discovered, s)

end Runtime

def candidateReasonOf (intent : RuntimeIntent) : CandidateReason :=
  if isExactTarget intent then .exactMatch else .intentMatch

def eligibleCandidates (candidates : List ResolvedCapability) : List ResolvedCapability :=
  candidates.filter fun candidate => (evaluateCandidate candidate).isNone

/-- The states of the evaluation: one if there was anything to evaluate, one more if anything is
eligible. -/
def StateEmitter.evaluate (e : StateEmitter) (candidates : List ResolvedCapability) :
    StateEmitter :=
  let e :=
    if candidates.isEmpty then e
    else e.push .evaluatingConstraints .candidatesCollected
      (.object [("candidate_count", .int candidates.length)])
  if (eligibleCandidates candidates).isEmpty then e
  else e.push .selecting .constraintsEvaluated
    (.object [("eligible_candidates", .int (eligibleCandidates candidates).length),
      ("rejected_candidates", .int (candidates.filterMap rejectedCandidate).length)])

/-- What `resolve_candidates` returns for the candidates that were discovered. -/
def candidateResolution (request : RuntimeRequest) (candidates : List ResolvedCapability)
    (hydrationFailure : Option HydrationError) : CandidateResolution :=
  let reason := candidateReasonOf request.intent
  let eligible := eligibleCandidates candidates
  { eligible := eligible
    collection := ⟨request.lookup.scope, eligible.map (runtimeCandidate · reason),
      candidates.filterMap rejectedCandidate⟩
    candidateReason := reason
    hydrationFailure := hydrationFailure }

/-! ## Gates -/

def containsDraftsSegment (path : String) : Bool :=
  ((path.toList.map fun ch => if ch = '\\' then '/' else ch).splitOn '/').any fun segment =>
    segment == "drafts".toList

def draftError (selected : ResolvedCapability) : RuntimeError :=
  runtimeError .contractViolation "draft artifacts are not executable"
    (.object [("violations",
      .arr [.object [("violation_code", .str "draft_artifact_not_executable"),
      ("path", .str selected.record.contractPath),
      ("message",
        .str "draft artifacts are quarantined under drafts/ and must not be executable")]])])

def artifactVerificationRuntimeError (failure : ArtifactVerificationFailure) : RuntimeError :=
  runtimeError .contractViolation "artifact signature verification failed before execution"
    (.object [("code", .str failure.code), ("artifact_verification", failure.record.toDoc)])

def dependencyError (error : ResolutionError) : RuntimeError :=
  let detail : String × String := match error with
    | .missingDependency id required => (id, required)
    | .circularDependency cycle => (" -> ".intercalate cycle, "")
    | .maxTransitiveDepthExceeded depth chain => (s!"depth={depth}", " -> ".intercalate chain)
  runtimeError .capabilityNotFound "dependency resolution failed before execution"
    (.object [("dependency_id", .str detail.1), ("required_version", .str detail.2)])

/-- The input gate: the contract's schema, then canonical JSON. -/
def checkInput (input : Doc) (contract : CapabilityContract) : Except RuntimeError Unit :=
  match validatePayloadAgainstContract input contract.inputs .requestInvalid
      "runtime request input does not satisfy the selected capability input contract" with
  | .error error => .error error
  | .ok () => canonicalInputCheck input

/-! ## Execution -/

def violationDoc (violation : Trace.ViolationRecord) : Doc :=
  .object [("violation_code", .str violation.violationCode), ("path", .str violation.path),
    ("message", .str violation.message)]

def mapRouterError : RouterError → RuntimeError × ExecutionFailureReason
  | .placementFailed .noEligibleTarget =>
    (runtimeError .placementUnsupported
      "placement constraints rejected the capability execution request"
      (.object [("placement_error", .str "NoEligibleTarget")]), .placementUnsupported)
  | .executorNotFound artifactType =>
    (runtimeError .capabilityNotRunnable
      "no executor is registered for the capability artifact type"
      (.object [("artifact_type", .str artifactType)]), .artifactNotRunnable)
  | .executionFailed message =>
    (runtimeError .executionFailed message (.object [("code", .str "execution_failed")]),
      .executionFailed)
  | .contractViolation violations =>
    (runtimeError .contractViolation "capability execution violated its governed contract"
      (.object [("violations", .arr (violations.map violationDoc))]), .executionFailed)
  | .traceLockPoisoned =>
    (runtimeError .executionFailed "trace store lock is poisoned"
      (.object [("code", .str "trace_lock_poisoned")]), .executionFailed)
  | .durableTraceWriteFailed message =>
    (runtimeError .executionFailed "the execution trace could not be durably written"
      (.object [("code", .str "durable_trace_write_failed"), ("detail", .str message)]),
      .executionFailed)

def executionTargetFromPlacement : PlacementTarget → ExecutionTarget
  | .localTarget => .localTarget
  | .browser => .browser
  | .edge => .edge
  | .cloud => .cloud
  | .worker => .worker
  | .device => .device

def outputError (output : Doc) (contract : CapabilityContract) : Except RuntimeError Unit :=
  validatePayloadAgainstContract output contract.outputs .outputValidationFailed
    "executor output does not satisfy the selected capability output contract"

namespace Runtime

variable {σ κ : Type} (rt : Runtime σ κ)

/-- `BoundLocalExecutor`: the local executor for one capability, with its events checked. -/
def boundLocalExecutor (selected : ResolvedCapability) (input : Doc) (s : State σ κ) :
    Except ExecutorError ExecutorOutput × State σ κ :=
  let called := s.callExecutor rt.services selected input
  (match called.1 with
    | .error failure => .error (.executionFailed failure.message)
    | .ok output =>
      match validateNativelyEmittedEvents selected.contract output.emittedEvents with
      | .error message => .error (.executionFailed message)
      | .ok () => .ok ⟨output.value, output.emittedEvents⟩, called.2)

def routerRequest (attempt : AttemptContext) (selected : ResolvedCapability)
    (placement : PlacementDecisionRecord) : RouterRequest where
  capabilityId := selected.record.id
  contract := selected.contract
  targetHint := some (executionTargetFromPlacement placement.target)
  runtimeSnapshot := idleRuntimeSnapshot
  input := attempt.request.input
  traceIdOverride := some attempt.traceId

variable (context : ExecutionContext) (selected : ResolvedCapability)

/-- The rest of an execution of an executable capability. -/
def executeRouted (started : StartedExecution) (s : State σ κ)
    : RuntimeExecutionOutcome × State σ κ :=
  let failure (reason : ExecutionFailureReason) : ExecutionFailureState :=
    ⟨selected.record.artifactRef, started, reason⟩
  match executeWithExecutor rt.services rt.primitives
      (routerRequest context.attempt selected started.placement)
      (rt.boundLocalExecutor selected context.attempt.request.input) s with
  | (.error error, s) =>
    let mapped := mapRouterError error
    (executionFailureOutcome context (failure mapped.2) mapped.1 [] none, s)
  | (.ok response, s) =>
    match outputError response.output selected.contract with
    | .error error =>
      (executionFailureOutcome context (failure .contractOutputInvalid) error [] none, s)
    | .ok () =>
      (successfulExecutionOutcome rt.primitives context selected started response.output
        (response.emittedEvents.map (·.reference)) none, s)

def workflowRequestFor (workflowRef : WorkflowReference) : WorkflowExecutionRequest where
  kind := workflowRequestKind
  schemaVersion := workflowSchemaVersion
  requestId := context.attempt.request.requestId
  workflowId := workflowRef.workflowId
  workflowVersion := workflowRef.workflowVersion
  scope := selected.record.scope.lookup
  input := context.attempt.request.input
  governingSpec := workflowGoverningSpec

/-- The outcome of a workflow as the outcome of the capability it implements. -/
def workflowOutcome (started : StartedExecution) (workflow : WorkflowExecutionOutcome)
    : RuntimeExecutionOutcome :=
  let context := { context with attempt.warnings :=
    context.attempt.warnings ++ workflow.result.warnings }
  match workflow.result.status with
  | .completed =>
    successfulExecutionOutcome rt.primitives context selected started
      (workflow.result.output.getD (.obj [])) workflow.evidence.emittedEvents
      (some workflow.evidence)
  | .error =>
    executionFailureOutcome context ⟨selected.record.artifactRef, started, .executionFailed⟩
      (workflow.result.error.getD (runtimeError .executionFailed
        "workflow-backed capability execution failed" (.obj [])))
      workflow.evidence.emittedEvents (some workflow.evidence)

def executeWorkflowCapability (fuel : Nat) (context : ExecutionContext)
    (selected : ResolvedCapability) (started : StartedExecution) (s : State σ κ) :
    Option RuntimeExecutionOutcome × State σ κ :=
  match selected.artifact.workflowRef with
  | none =>
    (some (executionFailureOutcome context ⟨selected.record.artifactRef, started, .artifactMissing⟩
      (runtimeError .artifactMissing "workflow-backed capability is missing its workflow reference"
        (.object [("artifact_ref", .str selected.record.artifactRef)])) [] none), s)
  | some workflowRef =>
    let traversed := rt.executeWorkflow fuel (workflowRequestFor context selected workflowRef) s
    (traversed.1.map (rt.workflowOutcome context selected started), traversed.2)

def executeStartedSelection (fuel : Nat) (context : ExecutionContext)
    (selected : ResolvedCapability) (placement : PlacementDecisionRecord) (s : State σ κ) :
    Option RuntimeExecutionOutcome × State σ κ :=
  let started := startSelectedExecution context.emitter selected placement
    context.attempt.request.context.identity
  let context := { context with emitter := started.2 }
  if selected.record.implementationKind = .workflow then
    rt.executeWorkflowCapability fuel context selected started.1 s
  else
    let routed := rt.executeRouted context selected started.1 s
    (some routed.1, routed.2)

/-- The attempt once its artifact is verified. -/
def verifiedAttempt (attempt : AttemptContext) (record : ArtifactVerificationRecord) :
    AttemptContext :=
  { attempt with
    warnings := attempt.warnings ++ verificationWarnings record
    artifactVerification := some record }

/-- The gates before execution, in the order of the source, each with the attempt as it is by
then. -/
def preExecution (attempt : AttemptContext) (selected : ResolvedCapability) (w : σ) :
    Except PreExecutionFailure PlacementDecisionRecord × AttemptContext :=
  let artifactRef := some selected.record.artifactRef
  let target := attempt.request.context.requestedTarget
  if containsDraftsSegment selected.record.contractPath then
    (.error ⟨artifactRef, .artifactNotRunnable, placementNotAttempted target .selectionNotReached,
      draftError selected, none⟩, attempt)
  else
    match resolvePlacement target with
    | .error error =>
      (.error ⟨artifactRef, .placementUnsupported,
        placementNotAttempted target .requestedTargetUnsupported, error, none⟩, attempt)
    | .ok placement =>
      match rt.loadArtifactBytesForVerification selected w with
      | .error error => (.error ⟨artifactRef, .artifactMissing, placement, error, none⟩, attempt)
      | .ok bytes =>
        match verifyArtifact rt.primitives selected bytes rt.security with
        | .error failure =>
          (.error ⟨artifactRef, .artifactNotRunnable, placement,
            artifactVerificationRuntimeError failure, some failure.record⟩, attempt)
        | .ok record =>
          (match rt.registry.resolveDependencies selected.record.id selected.contract.dependencies
              attempt.request.lookup.scope with
          | .error error =>
            .error ⟨artifactRef, .artifactMissing, placement, dependencyError error, some record⟩
          | .ok () =>
            match checkInput attempt.request.input selected.contract with
            | .error error =>
              .error ⟨artifactRef, .contractInputInvalid, placement, error, some record⟩
            | .ok () => .ok placement, verifiedAttempt attempt record)

def executeSelected (fuel : Nat) (context : ExecutionContext) (selected : ResolvedCapability)
    (s : State σ κ) : Option RuntimeExecutionOutcome × State σ κ :=
  let gated := rt.preExecution context.attempt selected s.world
  let context := { context with attempt := gated.2 }
  match gated.1 with
  | .error failure => (some (preExecutionFailureOutcome context failure), s)
  | .ok placement => rt.executeStartedSelection fuel context selected placement s

end Runtime

def selectionOf (selected : ResolvedCapability) : SelectionRecord :=
  ⟨.selected, some selected.record.id, some selected.record.version, none, []⟩

namespace Runtime

variable {σ κ : Type} (rt : Runtime σ κ)

/-- An attempt with a valid request, once its candidates are evaluated. -/
def executeEvaluated (fuel : Nat) (attempt : AttemptContext) (emitter : StateEmitter)
    (resolution : CandidateResolution) (s : State σ κ) :
    Option RuntimeExecutionOutcome × State σ κ :=
  match resolution.eligible with
  | [] => (some (noEligibleOutcome attempt emitter resolution.collection), s)
  | [selected] =>
    rt.executeSelected fuel ⟨attempt, emitter, resolution.collection, selectionOf selected⟩
      selected s
  | _ :: _ :: _ => (some (ambiguousOutcome attempt emitter resolution), s)

/-- A failed hydration leaves nothing to evaluate. -/
def executeAttempt (fuel : Nat) (attempt : AttemptContext) (emitter : StateEmitter)
    (s : State σ κ) : Option RuntimeExecutionOutcome × State σ κ :=
  match validateRequest rt.semver attempt.request with
  | some error => (some (invalidRequestOutcome attempt emitter error), s)
  | none =>
    match rt.discover attempt.request s with
    | (.error error, s) =>
      (some (hydrationFailureOutcome attempt (emitter.evaluate [])
        (candidateResolution attempt.request [] (some error)).collection error), s)
    | (.ok candidates, s) =>
      rt.executeEvaluated fuel attempt (emitter.evaluate candidates)
        (candidateResolution attempt.request candidates none) s

/-- The envelope of the lifecycle event. -/
def lifecycleEvent (w : σ) (outcome : RuntimeExecutionOutcome)
    (identity : Option RuntimeIdentity) : TraverseEvent where
  id := rt.services.uuid w
  source := "traverse-runtime"
  eventType := "dev.traverse.runtime.execution.completed"
  datacontenttype := "application/json"
  time := rt.services.now w
  data := .object [("execution_id", .str outcome.result.executionId),
    ("request_id", .str outcome.result.requestId), ("status", outcome.result.status.toDoc),
    ("trace_ref", .str outcome.result.traceRef)]
  owner := "traverse-runtime"
  version := supportedSchemaVersion
  lifecycleStatus := .active
  deduplicationId := some outcome.result.executionId
  orderingScope := some outcome.result.requestId
  correlationId := some outcome.result.requestId
  causationId := some outcome.result.requestId
  subjectId := identity.map (·.subjectId)
  actorId := identity.bind (·.actorId)

def warned (outcome : RuntimeExecutionOutcome) (warning : RuntimeWarning) :
    RuntimeExecutionOutcome :=
  { outcome with
    result.warnings := outcome.result.warnings ++ [warning]
    trace.result.warnings := outcome.trace.result.warnings ++ [warning] }

def emitExecutionLifecycleEvent (outcome : RuntimeExecutionOutcome)
    (identity : Option RuntimeIdentity) (s : State σ κ) :
    RuntimeExecutionOutcome × State σ κ :=
  let event := rt.lifecycleEvent s.world outcome identity
  let answer := rt.services.emit event s.world
  (match answer.1 with
    | .ok () => outcome
    | .error error => warned outcome ⟨"runtime_event_sink_delivery_failed", error.display⟩,
    { s with world := answer.2, emitted := s.emitted ++ [event] })

def execute (fuel : Nat) (request : RuntimeRequest) (s : State σ κ) :
    Option RuntimeExecutionOutcome × State σ κ :=
  let identity := request.context.identity
  let begun := beginAttempt rt.primitives request
  let emitter := begun.2.push .discovering .requestStarted
    (.object [("lookup_scope", .str begun.1.request.lookup.scope.name),
      ("identity", .ofOption RuntimeIdentity.toDoc begun.1.request.context.identity)])
  match rt.executeAttempt fuel begun.1 emitter s with
  | (none, s) => (none, s)
  | (some outcome, s) =>
    let emitted := rt.emitExecutionLifecycleEvent outcome identity s
    (some emitted.1, emitted.2)

/-! ## Frames -/

variable {rt}

theorem hydrateAll_state (entries : List IndexedCapability) (s : State σ κ) :
    ∃ cache, (rt.hydrateAll entries s).2 = { s with cache := cache } := by
  induction entries generalizing s with
  | nil => exact ⟨s.cache, rfl⟩
  | cons entry entries ih =>
    have hone : ∃ cache, (rt.hydrateResolvedCapability entry.capabilityId entry.capabilityVersion
        s).2 = { s with cache := cache } := ⟨_, rfl⟩
    unfold hydrateAll
    split
    case _ hhydrated => rwa [hhydrated] at hone
    next s₁ hhydrated =>
    rw [hhydrated] at hone
    obtain ⟨cache, rfl⟩ := hone
    exact ih _

/-- Looking for candidates fills the cache of hydrated contracts and does nothing else. -/
theorem discover_state (request : RuntimeRequest) (s : State σ κ) :
    ∃ cache, (rt.discover request s).2 = { s with cache := cache } := by
  unfold discover
  simp only
  split
  · exact hydrateAll_state _ s
  · exact ⟨s.cache, rfl⟩

theorem executeWithExecutor_emitted (request : RouterRequest) (selected : ResolvedCapability)
    (input : Doc) (s : State σ κ) :
    (executeWithExecutor rt.services rt.primitives request
      (rt.boundLocalExecutor selected input) s).2.emitted = s.emitted := by
  cases haccepted : accepted rt.services request (rt.boundLocalExecutor selected input) s with
  | none =>
    obtain ⟨error, after, hrouted, rfl | rfl⟩ := executeWithExecutor_refused haccepted
    · rw [hrouted]
    · rw [hrouted]
      rfl
  | some accepted =>
    rw [executeWithExecutor_accepted haccepted]
    exact (State.publishAll_frame rt.services _ _).2.2.1

theorem executeRouted_state (context : ExecutionContext) (selected : ResolvedCapability)
    (started : StartedExecution) (s : State σ κ) :
    (rt.executeRouted context selected started s).2 =
      (executeWithExecutor rt.services rt.primitives
        (routerRequest context.attempt selected started.placement)
        (rt.boundLocalExecutor selected context.attempt.request.input) s).2 := by
  unfold executeRouted
  split
  case _ hrouted => rw [hrouted]
  case _ hrouted => rw [hrouted]; split <;> rfl

theorem executeStartedSelection_emitted (fuel : Nat) (context : ExecutionContext)
    (selected : ResolvedCapability) (placement : PlacementDecisionRecord) (s : State σ κ) :
    (rt.executeStartedSelection fuel context selected placement s).2.emitted = s.emitted := by
  unfold executeStartedSelection
  split
  · unfold executeWorkflowCapability
    split
    · rfl
    · exact (rt.executeWorkflow_within fuel _ s).emitted
  · rw [executeRouted_state]
    exact executeWithExecutor_emitted _ _ _ s

theorem executeAttempt_emitted (fuel : Nat) (attempt : AttemptContext) (e : StateEmitter)
    (s : State σ κ) : (rt.executeAttempt fuel attempt e s).2.emitted = s.emitted := by
  obtain ⟨cache, hdiscover⟩ := rt.discover_state attempt.request s
  have hemitted : (rt.discover attempt.request s).2.emitted = s.emitted := by rw [hdiscover]
  unfold executeAttempt
  split
  · rfl
  split
  case _ s₁ hs₁ => rwa [hs₁] at hemitted
  next s₁ hs₁ =>
  rw [hs₁] at hemitted
  unfold executeEvaluated
  split
  · exact hemitted
  · refine Eq.trans ?_ hemitted
    unfold executeSelected
    simp only
    split
    · rfl
    · exact executeStartedSelection_emitted fuel _ _ _ s₁
  · exact hemitted

end Runtime

end Traverse.Execution

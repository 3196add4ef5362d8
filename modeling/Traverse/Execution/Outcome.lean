import Traverse.Execution.Edges
import Traverse.Execution.Schema
import Traverse.Execution.StateMachine

/-!
# Execution.Outcome

The ends an execution can come to (`lib.rs`, from `terminal_failure` to
`successful_execution_outcome`). Each closes the state machine and fills in the trace. Failures go
through `terminalFailure`; they differ in the last states they push and in the records they keep.

`Recorded` is what every outcome has in common: its transitions are a walk from `idle` back
to `ready`, none was refused, it went through `completed` exactly if its status says so, and request
and state events name one identity. There is one lemma per builder, from the emitter it is given.
-/

namespace Traverse.Execution

open Json (Doc)

/-! ## Workflow evidence -/

inductive WorkflowTraversalStepStatus where
  | entered
  | completed
  | failed
  deriving DecidableEq, Repr

structure WorkflowTraversalStepRecord where
  stepIndex : Nat
  (nodeId capabilityId capabilityVersion : String)
  status : WorkflowTraversalStepStatus
  deriving DecidableEq, Repr

structure WorkflowTraversalEdgeRecord where
  (edgeId fromNode toNode : String)
  trigger : WorkflowEdgeTrigger
  event : Option EventReference
  deriving DecidableEq, Repr

inductive WorkflowTraversalStatus where
  | completed
  | error
  deriving DecidableEq, Repr

inductive WorkflowTraversalFailureReason where
  | workflowNotFound
  | workflowInvalid
  | ambiguousNextEdge
  | missingRequiredEvent
  | terminalNodeNotReached
  | stepExecutionFailed
  | eventSubscriptionFailed
  | eventBrokerUnavailable
  deriving DecidableEq, Repr

structure WorkflowTraversalEvidence where
  (kind schemaVersion traceId requestId workflowId workflowVersion governingSpec : String)
  visitedNodes : List WorkflowTraversalStepRecord
  traversedEdges : List WorkflowTraversalEdgeRecord
  emittedEvents : List EventReference
  events : WorkflowEventEvidenceBundle
  status : WorkflowTraversalStatus
  failureReason : Option WorkflowTraversalFailureReason

/-! ## Trace and outcome -/

structure TraceStateProgression where
  stateEvents : List RuntimeStateEvent
  transitions : List RuntimeTransitionRecord
  validation : RuntimeStateMachineValidationEvidence

structure TraceDecisionEvidence where
  candidateCollection : CandidateCollectionRecord
  selection : SelectionRecord

structure RuntimeTrace where
  (kind schemaVersion traceId executionId requestId governingSpec : String)
  request : RuntimeRequest
  decisionEvidence : TraceDecisionEvidence
  stateProgression : TraceStateProgression
  terminalOutcome : TraceTerminalOutcome
  emittedEvents : List EventReference
  workflowEvidence : Option WorkflowTraversalEvidence
  stateTransitions : List RuntimeTransitionRecord
  stateMachineValidation : RuntimeStateMachineValidationEvidence
  candidateCollection : CandidateCollectionRecord
  selection : SelectionRecord
  execution : ExecutionRecord
  result : TraceResultRecord

structure RuntimeExecutionOutcome where
  result : RuntimeResult
  trace : RuntimeTrace
  stateEvents : List RuntimeStateEvent

structure AttemptContext where
  request : RuntimeRequest
  (executionId traceId : String)
  artifactVerification : Option ArtifactVerificationRecord
  warnings : List RuntimeWarning

structure ExecutionContext where
  attempt : AttemptContext
  emitter : StateEmitter
  candidateCollection : CandidateCollectionRecord
  selection : SelectionRecord

structure FailureContext where
  attempt : AttemptContext
  finished : FinishedStateMachineArtifacts
  candidateCollection : CandidateCollectionRecord
  selection : SelectionRecord
  execution : ExecutionRecord
  error : RuntimeError
  emittedEvents : List EventReference
  workflowEvidence : Option WorkflowTraversalEvidence

structure CandidateResolution where
  eligible : List ResolvedCapability
  collection : CandidateCollectionRecord
  candidateReason : CandidateReason
  hydrationFailure : Option HydrationError

structure StartedExecution where
  startedAt : String
  placement : PlacementDecisionRecord

structure ExecutionFailureState where
  artifactRef : String
  started : StartedExecution
  failureReason : ExecutionFailureReason

structure PreExecutionFailure where
  artifactRef : Option String
  failureReason : ExecutionFailureReason
  placement : PlacementDecisionRecord
  error : RuntimeError
  artifactVerification : Option ArtifactVerificationRecord

def requestGoverningSpec : String := "006-runtime-request-execution"

def runtimeTraceKind : String := "runtime_trace"

def runtimeResultKind : String := "runtime_result"

def terminalFailure (context : FailureContext) : RuntimeExecutionOutcome where
  result := {
    kind := runtimeResultKind
    schemaVersion := supportedSchemaVersion
    executionId := context.attempt.executionId
    requestId := context.attempt.request.requestId
    status := .error
    traceRef := context.attempt.traceId
    output := none
    error := some context.error
    warnings := context.attempt.warnings }
  trace := {
    kind := runtimeTraceKind
    schemaVersion := supportedSchemaVersion
    traceId := context.attempt.traceId
    executionId := context.attempt.executionId
    requestId := context.attempt.request.requestId
    governingSpec := requestGoverningSpec
    request := context.attempt.request
    decisionEvidence := ⟨context.candidateCollection, context.selection⟩
    stateProgression := ⟨context.finished.events, context.finished.transitions,
      context.finished.validation⟩
    terminalOutcome := ⟨.error, context.execution.status, context.execution.failureReason,
      some context.error⟩
    emittedEvents := context.emittedEvents
    workflowEvidence := context.workflowEvidence
    stateTransitions := context.finished.transitions
    stateMachineValidation := context.finished.validation
    candidateCollection := context.candidateCollection
    selection := context.selection
    execution := context.execution
    result := ⟨.error, none, some context.error, context.attempt.warnings⟩ }
  stateEvents := context.finished.events

def StateEmitter.closeError (e : StateEmitter) : StateEmitter :=
  e.push .ready .executionClosed (.object [("terminal_state", RuntimeState.error.toDoc)])

/-! ## Placement -/

def supportedExecutorTargets : List PlacementTarget := [.localTarget]

def placementNotAttempted (requestedTarget : PlacementTarget) (reason : PlacementDecisionReason) :
    PlacementDecisionRecord :=
  ⟨requestedTarget, none, .notAttempted, reason, supportedExecutorTargets⟩

def resolvePlacement (requestedTarget : PlacementTarget) :
    Except RuntimeError PlacementDecisionRecord :=
  if requestedTarget = .localTarget then
    .ok ⟨requestedTarget, some .localTarget, .selected, .requestedTargetSelected,
      supportedExecutorTargets⟩
  else
    .error (runtimeError .placementUnsupported
      "requested placement target is not supported by the available executor set"
      (.object [("requested_target", requestedTarget.toDoc),
        ("supported_executor_targets", .arr (supportedExecutorTargets.map (·.toDoc)))]))

variable (attempt : AttemptContext)

/-- An execution that was never started, for lack of a selection. -/
def executionNotStarted (reason : ExecutionFailureReason) :
    ExecutionRecord :=
  let placement :=
    placementNotAttempted attempt.request.context.requestedTarget .selectionNotReached
  { placement := placement
    placementTarget := placement.requestedTarget
    status := .notStarted
    artifactRef := none
    startedAt := none
    completedAt := none
    outputDigest := none
    failureReason := some reason
    artifactVerification := none
    identity := attempt.request.context.identity }

/-! ## Outcomes without a selection -/

variable (emitter : StateEmitter)

def invalidRequestOutcome (error : RuntimeError) : RuntimeExecutionOutcome :=
  let emitter := emitter.push .evaluatingConstraints .candidatesCollected
    (.object [("candidate_count", .int 0)])
  let emitter := emitter.push .error .constraintValidationFailed
    (.object [("code", error.code.toDoc), ("message", .str error.message)])
  terminalFailure {
    attempt := attempt
    finished := emitter.closeError.finish
    candidateCollection := ⟨.preferPrivate, [], []⟩
    selection := ⟨.invalidRequest, none, none, some .invalidRequest, []⟩
    execution := executionNotStarted attempt .contractInputInvalid
    error := error
    emittedEvents := []
    workflowEvidence := none }

def hydrationRuntimeError (error : HydrationError) : RuntimeError :=
  let code : RuntimeErrorCode := match error.code with
    | "indexed_capability_missing" => .capabilityNotFound
    | "contract_digest_mismatch" | "contract_parse_failed" | "contract_not_utf8" =>
      .contractViolation
    | _ => .artifactMissing
  runtimeError code "capability contract could not be hydrated"
    (.object [("reason_code", .str error.code)])

variable (candidateCollection : CandidateCollectionRecord)

def hydrationFailureOutcome (error : HydrationError) :
    RuntimeExecutionOutcome :=
  let runtimeError := hydrationRuntimeError error
  let emitter := emitter.push .error .noMatch
    (.object [("code", runtimeError.code.toDoc), ("reason_code", .str error.code)])
  terminalFailure {
    attempt := attempt
    finished := emitter.closeError.finish
    candidateCollection := candidateCollection
    selection := ⟨.noMatch, none, none, some .notRunnable, []⟩
    execution := executionNotStarted attempt .artifactNotRunnable
    error := runtimeError
    emittedEvents := []
    workflowEvidence := none }

def noEligibleError (rejected : List RejectedRuntimeCandidate) :
    RuntimeError :=
  if rejected.isEmpty then
    runtimeError .capabilityNotFound "no eligible capability matched the runtime request"
      (.object [("request_id", .str attempt.request.requestId)])
  else
    runtimeError .capabilityNotRunnable
      "matching capabilities were found but none were runnable locally"
      (.object [("rejected_candidates", .arr (rejected.map (·.toDoc)))])

def noEligibleOutcome : RuntimeExecutionOutcome :=
  let rejected := candidateCollection.rejectedCandidates
  let error := noEligibleError attempt rejected
  let reason : RuntimeTransitionReasonCode :=
    if rejected.isEmpty then .noMatch else .constraintValidationFailed
  let emitter := emitter.push .error reason (.object [("code", error.code.toDoc)])
  terminalFailure {
    attempt := attempt
    finished := emitter.closeError.finish
    candidateCollection := candidateCollection
    selection := ⟨.noMatch, none, none,
      some (if error.code = .capabilityNotFound then .noMatch else .notRunnable), []⟩
    execution := executionNotStarted attempt .artifactNotRunnable
    error := error
    emittedEvents := []
    workflowEvidence := none }

def runtimeCandidate (capability : ResolvedCapability) (reason : CandidateReason) :
    RuntimeCandidate :=
  ⟨capability.record.scope, capability.record.id, capability.record.version,
    capability.record.artifactRef, capability.record.implementationKind,
    capability.record.lifecycle, reason⟩

def ambiguousOutcome (resolution : CandidateResolution) : RuntimeExecutionOutcome :=
  let remaining := resolution.eligible.map (runtimeCandidate · resolution.candidateReason)
  let error := runtimeError .capabilityAmbiguous
    "runtime request matched more than one eligible capability"
    (.object [("remaining_candidates", .arr (remaining.map (·.toDoc)))])
  let emitter := emitter.push .error .selectionFailed (.object [("code", error.code.toDoc)])
  terminalFailure {
    attempt := attempt
    finished := emitter.closeError.finish
    candidateCollection := resolution.collection
    selection := ⟨.ambiguous, none, none, some .ambiguous, remaining⟩
    execution := executionNotStarted attempt .artifactNotRunnable
    error := error
    emittedEvents := []
    workflowEvidence := none }

/-! ## Outcomes of a selected capability -/

def preExecutionFailureOutcome (context : ExecutionContext) (failure : PreExecutionFailure) :
    RuntimeExecutionOutcome :=
  let reason : RuntimeTransitionReasonCode :=
    if context.emitter.currentState = .selecting then .selectionFailed
    else .constraintValidationFailed
  let emitter := context.emitter.push .error reason
    (.object [("code", failure.error.code.toDoc), ("details", failure.error.details)])
  terminalFailure {
    attempt := context.attempt
    finished := emitter.closeError.finish
    candidateCollection := context.candidateCollection
    selection := context.selection
    execution := {
      placement := failure.placement
      placementTarget := failure.placement.target
      status := .notStarted
      artifactRef := failure.artifactRef
      startedAt := none
      completedAt := none
      outputDigest := none
      failureReason := some failure.failureReason
      artifactVerification := failure.artifactVerification
      identity := context.attempt.request.context.identity }
    error := failure.error
    emittedEvents := []
    workflowEvidence := none }

def startSelectedExecution (selected : ResolvedCapability)
    (placement : PlacementDecisionRecord) (identity : Option RuntimeIdentity) :
    StartedExecution × StateEmitter :=
  (⟨emitter.timestamp, placement⟩,
    emitter.tick.push .executing .candidateSelected (.object [
      ("capability_id", .str selected.record.id),
      ("capability_version", .str selected.record.version),
      ("artifact_ref", .str selected.record.artifactRef),
      ("requested_target", placement.requestedTarget.toDoc),
      ("selected_target", .ofOption PlacementTarget.toDoc placement.selectedTarget),
      ("placement_status", placement.status.toDoc),
      ("placement_reason", placement.reason.toDoc),
      ("identity", .ofOption RuntimeIdentity.toDoc identity)]))

def executionFailureOutcome (context : ExecutionContext) (failure : ExecutionFailureState)
    (error : RuntimeError) (emittedEvents : List EventReference)
    (workflowEvidence : Option WorkflowTraversalEvidence) : RuntimeExecutionOutcome :=
  let emitter := context.emitter.push .error .executionFailed
    (.object [("code", error.code.toDoc), ("details", error.details)])
  terminalFailure {
    attempt := context.attempt
    finished := emitter.tick.closeError.finish
    candidateCollection := context.candidateCollection
    selection := context.selection
    execution := {
      placement := failure.started.placement
      placementTarget := failure.started.placement.target
      status := .failed
      artifactRef := some failure.artifactRef
      startedAt := some failure.started.startedAt
      completedAt := some emitter.timestamp
      outputDigest := none
      failureReason := some failure.failureReason
      artifactVerification := context.attempt.artifactVerification
      identity := context.attempt.request.context.identity }
    error := error
    emittedEvents := emittedEvents
    workflowEvidence := workflowEvidence }

/-- FNV-1a over the text of the output. -/
def contentDigest (json : String) : String :=
  let hash := (Json.utf8 json.toList).foldl (fun hash byte =>
    (hash ^^^ byte.toNat) * 0x00000001000001b3 % 2 ^ 64) 0xcbf29ce484222325
  let digits := Nat.toDigits 16 hash
  let padded := String.ofList (List.replicate (16 - digits.length) '0' ++ digits)
  s!"0.1.0:{padded}"

/-- The states after an execution that succeeded. -/
def StateEmitter.closeCompleted (e : StateEmitter) (selected : ResolvedCapability) :
    StateEmitter :=
  let capability : List (String × Doc) := [("capability_id", .str selected.record.id),
    ("capability_version", .str selected.record.version)]
  let e :=
    if selected.record.implementationKind = .workflow ∨ selected.contract.emits ≠ [] then
      (e.push .emittingEvents .executionSucceededWithEvents (.object
        (capability ++ [("declared_event_count", .int selected.contract.emits.length)]))).push
        .completed .eventsEmitted (.object capability)
    else e.push .completed .executionSucceeded (.object capability)
  e.push .ready .executionClosed (.object [("terminal_state", RuntimeState.completed.toDoc)])

def successfulExecutionOutcome (primitives : Primitives) (context : ExecutionContext)
    (selected : ResolvedCapability) (started : StartedExecution) (output : Doc)
    (emittedEvents : List EventReference) (workflowEvidence : Option WorkflowTraversalEvidence) :
    RuntimeExecutionOutcome :=
  let attempt := context.attempt
  let finished := (context.emitter.tick.closeCompleted selected).finish
  let execution : ExecutionRecord := {
    placement := started.placement
    placementTarget := started.placement.target
    status := .succeeded
    artifactRef := some selected.record.artifactRef
    startedAt := some started.startedAt
    completedAt := some context.emitter.timestamp
    outputDigest := some (contentDigest (primitives.toText output))
    failureReason := none
    artifactVerification := attempt.artifactVerification
    identity := attempt.request.context.identity }
  { result := {
      kind := runtimeResultKind
      schemaVersion := supportedSchemaVersion
      executionId := attempt.executionId
      requestId := attempt.request.requestId
      status := .completed
      traceRef := attempt.traceId
      output := some output
      error := none
      warnings := attempt.warnings }
    trace := {
      kind := runtimeTraceKind
      schemaVersion := supportedSchemaVersion
      traceId := attempt.traceId
      executionId := attempt.executionId
      requestId := attempt.request.requestId
      governingSpec := requestGoverningSpec
      request := attempt.request
      decisionEvidence := ⟨context.candidateCollection, context.selection⟩
      stateProgression := ⟨finished.events, finished.transitions, finished.validation⟩
      terminalOutcome := ⟨.completed, execution.status, none, none⟩
      emittedEvents := emittedEvents
      workflowEvidence := workflowEvidence
      stateTransitions := finished.transitions
      stateMachineValidation := finished.validation
      candidateCollection := context.candidateCollection
      selection := context.selection
      execution := execution
      result := ⟨.completed, some output, none, attempt.warnings⟩ }
    stateEvents := finished.events }

/-! ## What outcomes have in common -/

/-- The identity of a request as its state events show it. -/
def identityDoc (request : RuntimeRequest) : Doc :=
  .ofOption RuntimeIdentity.toDoc request.context.identity

namespace RuntimeExecutionOutcome

structure Recorded (request : RuntimeRequest) (o : RuntimeExecutionOutcome) : Prop where
  request_eq : o.trace.request = request
  walk : Walk .idle o.trace.stateTransitions .ready
  closed : ∃ ts t, o.trace.stateTransitions = ts ++ [t] ∧ t.toState = .ready ∧
    (t.fromState = .completed ∨ t.fromState = .error)
  passed : o.trace.stateMachineValidation.status = .passed
  clean : o.trace.stateMachineValidation.violations = []
  through : (∃ t ∈ o.trace.stateTransitions, t.toState = .completed) ↔
    o.result.status = .completed
  named : EventsHold "identity" (identityDoc request) o.stateEvents
  progression_eq : o.trace.stateProgression =
    ⟨o.stateEvents, o.trace.stateTransitions, o.trace.stateMachineValidation⟩

end RuntimeExecutionOutcome

section Recorded

variable {attempt : AttemptContext} {e : StateEmitter}

/-- A failure closes an emitter that has reached `error` and never was in `completed`. -/
theorem terminalFailure_recorded {context : FailureContext} {request : RuntimeRequest}
    (hrequest : context.attempt.request = request)
    (hfinished : context.finished = e.closeError.finish)
    (h : e.Sound (identityDoc request) .error false) :
    (terminalFailure context).Recorded request := by
  have hsound : e.closeError.Sound (identityDoc request) .ready false :=
    h.push rfl (by decide) (by simp)
  have hevents : context.finished.events = e.closeError.events := by rw [hfinished]; rfl
  have htransitions : context.finished.transitions = e.closeError.transitions := by
    rw [hfinished]; rfl
  have hvalidation : context.finished.validation = e.closeError.finish.validation := by
    rw [hfinished]
  refine ⟨hrequest, ?_, ?_, ?_, ?_, ?_, ?_, rfl⟩
  · show Walk .idle context.finished.transitions .ready
    rw [htransitions]
    exact hsound.walk
  · show ∃ ts t, context.finished.transitions = ts ++ [t] ∧ _
    rw [htransitions]
    exact h.closed (.inr rfl) _
  · show context.finished.validation.status = .passed
    rw [hvalidation, StateEmitter.finish, hsound.clean]
    rfl
  · show context.finished.validation.violations = []
    rw [hvalidation]
    exact hsound.clean
  · show (∃ t ∈ context.finished.transitions, t.toState = .completed) ↔
      RuntimeResultStatus.error = .completed
    rw [htransitions, hsound.passed_iff]
    simp
  · show EventsHold "identity" _ context.finished.events
    rw [hevents]
    exact hsound.named

theorem invalidRequestOutcome_recorded
    (h : e.Sound (identityDoc attempt.request) .discovering false) (error : RuntimeError) :
    (invalidRequestOutcome attempt e error).Recorded attempt.request := by
  have hevaluating : (e.push .evaluatingConstraints .candidatesCollected
      (.object [("candidate_count", .int 0)])).Sound (identityDoc attempt.request)
      .evaluatingConstraints false := h.push rfl (by decide) (by simp)
  refine terminalFailure_recorded rfl rfl (hevaluating.push rfl (by decide) ?_)
  simp

theorem noEligibleOutcome_recorded {collection : CandidateCollectionRecord}
    (h : e.Sound (identityDoc attempt.request)
      (if collection.rejectedCandidates.isEmpty then .discovering else .evaluatingConstraints)
      false) : (noEligibleOutcome attempt e collection).Recorded attempt.request := by
  refine terminalFailure_recorded rfl rfl (h.push ?_ (by decide) ?_)
  · cases collection.rejectedCandidates.isEmpty <;> rfl
  · simp

variable {context : ExecutionContext} {request : RuntimeRequest}

theorem startSelectedExecution_sound {identity : Option RuntimeIdentity}
    (h : e.Sound (.ofOption RuntimeIdentity.toDoc identity) .selecting false)
    (selected : ResolvedCapability) (placement : PlacementDecisionRecord) :
    (startSelectedExecution e selected placement identity).2.Sound
      (.ofOption RuntimeIdentity.toDoc identity) .executing false := by
  refine h.tick.push rfl (by decide) ?_
  simp

theorem executionFailureOutcome_recorded (hrequest : context.attempt.request = request)
    (h : context.emitter.Sound (identityDoc request) .executing false)
    (failure : ExecutionFailureState) (error : RuntimeError) (events : List EventReference)
    (evidence : Option WorkflowTraversalEvidence) :
    (executionFailureOutcome context failure error events evidence).Recorded request := by
  have herror : (context.emitter.push .error .executionFailed (.object [("code", error.code.toDoc),
      ("details", error.details)])).Sound (identityDoc request) .error false :=
    h.push rfl (by decide) (by simp)
  exact terminalFailure_recorded hrequest rfl herror.tick

/-- With or without events, the way leads through `completed`. -/
theorem closeCompleted_sound {identity : Doc} (h : e.Sound identity .executing false)
    (selected : ResolvedCapability) :
    (e.closeCompleted selected).Sound identity .ready true ∧
      (e.closeCompleted selected).Closed := by
  have hdetails : ∀ d, ("identity", d) ∈ [("capability_id", Doc.str selected.record.id),
      ("capability_version", .str selected.record.version)] → d = identity := by simp
  unfold StateEmitter.closeCompleted
  split
  · have hemitting : (e.push .emittingEvents .executionSucceededWithEvents (.object
        [("capability_id", .str selected.record.id),
          ("capability_version", .str selected.record.version),
          ("declared_event_count", .int selected.contract.emits.length)])).Sound identity
        .emittingEvents false := h.push rfl (by decide) (by simp)
    have hcompleted :=
      hemitting.push_completed (by rfl : isAllowedTransition _ _ .eventsEmitted = _)
      hdetails
    exact ⟨hcompleted.push rfl (by decide) (by simp), hcompleted.closed (.inl rfl) _⟩
  · have hcompleted := h.push_completed (by rfl : isAllowedTransition _ _ .executionSucceeded = _)
      hdetails
    exact ⟨hcompleted.push rfl (by decide) (by simp), hcompleted.closed (.inl rfl) _⟩

theorem successfulExecutionOutcome_recorded (primitives : Primitives)
    (hrequest : context.attempt.request = request)
    (h : context.emitter.Sound (identityDoc request) .executing false)
    (selected : ResolvedCapability) (started : StartedExecution) (output : Doc)
    (events : List EventReference) (evidence : Option WorkflowTraversalEvidence) :
    (successfulExecutionOutcome primitives context selected started output events evidence).Recorded
      request := by
  obtain ⟨hsound, hclosed⟩ := closeCompleted_sound h.tick selected
  refine ⟨hrequest, hsound.walk, hclosed, ?_, hsound.clean, ?_, hsound.named, rfl⟩
  · show (if (context.emitter.tick.closeCompleted selected).violations.isEmpty then _ else _) = _
    rw [hsound.clean]
    rfl
  · exact hsound.passed_iff.trans (by simp [successfulExecutionOutcome])

end Recorded

end Traverse.Execution

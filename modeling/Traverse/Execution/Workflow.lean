import Traverse.Execution.Outcome

/-!
# Execution.Workflow

The runtime and its traversal of workflows (`workflows.rs`). A traversal runs the capability of one
node after the other, over a state that is a JSON object, and follows the edges until a terminal
node has no edge left to take.

The loop need not end, and neither need a poll of the broker, so both take fuel; `none` is "has not
returned yet", and what was done until then is in the state. The capability registry, semantic
versions and the workflow registry belong to another crate and are parameters.

* `visitNode_within`, `traverse_within`: the executor is called with verified artifacts and inputs
  their contracts accept; lifecycle events and trace store are left alone.
* `traverse_checked`: a workflow that completes has checked its output against its own schema.
-/

namespace Traverse.Execution

open Json (Doc)
open Lines (Bytes)

/-! ## The runtime -/

structure CapabilityRegistry where
  findExact : LookupScope → (id version : String) → Option ResolvedCapability
  discover : LookupScope → List DiscoveryIndexEntry
  /-- Nothing where the range is none or no version is in it. -/
  resolveVersionRange : (id range : String) → LookupScope → Option DiscoveryIndexEntry
  resolveDependencies : String → List DependencyReference → LookupScope →
    Except ResolutionError Unit

structure Semver where
  (isVersion isRange : String → Bool)
  inRange : (range version : String) → Bool
  le : String → String → Bool

structure CapabilityMetadataIndex where
  entries : List (String × IndexedCapability)
  sources : List (String × IndexedSource)

def lookupKey (capabilityId capabilityVersion : String) : String :=
  s!"{capabilityId}@{capabilityVersion}"

variable (index : CapabilityMetadataIndex)

def CapabilityMetadataIndex.get (id version : String) :
    Option IndexedCapability :=
  index.entries.lookup (lookupKey id version)

structure Runtime (σ κ : Type) where
  registry : CapabilityRegistry
  findWorkflow : LookupScope → (id version : String) → Option WorkflowDefinition
  indexedWorkflows : List ((String × String) × WorkflowDefinition)
  capabilityMetadata : CapabilityMetadataIndex
  services : Services σ κ
  primitives : Primitives
  semver : Semver
  security : RuntimeSecurityMode

def indexedArtifactRef (indexed : IndexedCapability) (artifactMissing : Bool) : String :=
  if artifactMissing then s!"app:{indexed.appId}:{indexed.appVersion}:{indexed.capabilityId}"
  else s!"app:{indexed.appId}:{indexed.appVersion}:component:{indexed.componentId}:{indexed.componentVersion}"

def wasmBinary (artifactPath : String) : Option BinaryReference :=
  if artifactPath.isEmpty then none else some ⟨artifactPath, none⟩

variable (contract : CapabilityContract)

/-- The entry and the paths of an indexed capability; where the index lacks one of them, what the
contract says and no paths. -/
def indexedOrigin (id version : String) : IndexedCapability × IndexedSource :=
  match index.get id version, index.sources.lookup (lookupKey id version) with
  | some indexed, some source => (indexed, source)
  | _, _ => (⟨"", "", contract.id, contract.version, contract.id, contract.version, none⟩, ⟨"", ""⟩)

def resolvedFromIndex (id version : String) : ResolvedCapability :=
  let origin := indexedOrigin index contract id version
  { contract := contract
    record := {
      scope := .privateScope
      id := contract.id
      version := contract.version
      lifecycle := contract.lifecycle
      contractPath := origin.2.contract
      implementationKind := .executable
      artifactRef := indexedArtifactRef origin.1 origin.2.artifact.isEmpty }
    artifact := {
      sourceKind := .localSource
      binary := wasmBinary origin.2.artifact
      workflowRef := none
      binaryDigest := origin.1.artifactDigest } }

/-- `validate_natively_emitted_events`. -/
def validateNativelyEmittedEvents (events : List TraverseEvent) :
    Except String Unit :=
  if events.isEmpty then .ok ()
  else if contract.serviceType ≠ .subscribable then
    .error s!"capability '{contract.id}' emitted events but its service_type is not Subscribable"
  else
    match events.find? fun event => !contract.emits.contains event.reference with
    | some event =>
      .error s!"capability '{contract.id}' emitted an undeclared event {event.eventType}@{event.version}"
    | none => .ok ()

namespace Runtime

variable {σ κ : Type} (rt : Runtime σ κ)

def hydrateResolvedCapability (id version : String) (s : State σ κ) :
    Except HydrationError ResolvedCapability × State σ κ :=
  let hydrated := rt.services.hydrate s.world id version s.cache
  (hydrated.1.map fun contract => resolvedFromIndex rt.capabilityMetadata contract id version,
    { s with cache := hydrated.2 })

def loadArtifactBytesForVerification (selected : ResolvedCapability) (w : σ) :
    Except RuntimeError Bytes :=
  match selected.artifact.binary with
  | none => .ok []
  | some binary =>
    match rt.services.read w binary.location with
    | .ok bytes => .ok bytes
    | .error error =>
      if binary.signature.isNone then
        .ok (Json.utf8 (selected.artifact.binaryDigest.getD selected.record.artifactRef).toList)
      else
        .error (runtimeError .artifactMissing
          "artifact bytes could not be loaded for signature verification"
          (.object [("artifact_ref", .str selected.record.artifactRef),
            ("location", .str binary.location), ("code", .str "artifact_load_failed"),
            ("message", .str error)]))

end Runtime

/-- The warning an unsigned artifact leaves. -/
def verificationWarnings (record : ArtifactVerificationRecord) : List RuntimeWarning :=
  record.warningCode.toList.map fun code =>
    ⟨code, "unsigned local/dev artifact allowed by development security mode"⟩

/-! ## Requests and outcomes -/

structure WorkflowExecutionRequest where
  (kind schemaVersion requestId workflowId workflowVersion : String)
  scope : LookupScope
  input : Doc
  governingSpec : String

structure WorkflowExecutionResult where
  (kind schemaVersion requestId workflowId workflowVersion : String)
  status : WorkflowTraversalStatus
  output : Option Doc
  error : Option RuntimeError
  warnings : List RuntimeWarning

structure WorkflowExecutionOutcome where
  result : WorkflowExecutionResult
  evidence : WorkflowTraversalEvidence

def workflowRequestKind : String := "workflow_execution_request"

def workflowEvidenceKind : String := "workflow_traversal_evidence"

def workflowSchemaVersion : String := "1.0.0"

def workflowGoverningSpec : String := "007-workflow-registry-traversal"

def validateWorkflowRequest (request : WorkflowExecutionRequest) : Option RuntimeError :=
  if request.kind ≠ workflowRequestKind then
    some (runtimeError .requestInvalid "kind must equal workflow_execution_request"
      (.object [("path", .str "$.kind")]))
  else if request.schemaVersion ≠ workflowSchemaVersion then
    some (runtimeError .requestInvalid "schema_version must equal 1.0.0"
      (.object [("path", .str "$.schema_version")]))
  else if request.governingSpec ≠ workflowGoverningSpec then
    some (runtimeError .requestInvalid "governing_spec must equal 007-workflow-registry-traversal"
      (.object [("path", .str "$.governing_spec")]))
  else if !nonEmpty request.requestId || !nonEmpty request.workflowId ||
      !nonEmpty request.workflowVersion then
    some (runtimeError .requestInvalid
      "request_id, workflow_id, and workflow_version must be non-empty"
      (.object [("path", .str "$")]))
  else none

/-! ## The state of a traversal -/

def workflowState : Doc → List (String × Doc)
  | .obj fields => fields
  | other => [("input", other)]

/-- The members of `state` under some keys. -/
def projected (keys : List String) (state : List (String × Doc)) : List (String × Doc) :=
  Json.insertAll (keys.filterMap fun key => (state.lookup key).map (key, ·)) []

variable (state : List (String × Doc))

def nodeInput (node : WorkflowNode) : Doc :=
  .obj (projected node.fromWorkflowInput state)

def updateState (node : WorkflowNode) (output : Doc) :
    List (String × Doc) :=
  match output with
  | .obj object =>
    let state := Json.insertAll
      (node.toWorkflowState.filterMap fun key => (object.lookup key).map (key, ·)) state
    match node.publishToStateAs with
    | some key => Json.insertKey key output state
    | none => state
  | _ => state

def finalWorkflowOutput (outputProjection : List String) : Doc :=
  if outputProjection.isEmpty then .obj state else .obj (projected outputProjection state)

theorem finalWorkflowOutput_obj (outputProjection : List String) :
    ∃ fields, finalWorkflowOutput state outputProjection = .obj fields := by
  unfold finalWorkflowOutput
  split
  · exact ⟨_, rfl⟩
  · exact ⟨_, rfl⟩

/-- The variables of the loop in `traverse_workflow`. -/
structure Traversal where
  state : List (String × Doc)
  current : String
  stepIndex : Nat
  visited : List WorkflowTraversalStepRecord
  traversed : List WorkflowTraversalEdgeRecord
  emitted : List EventReference
  evidence : WorkflowEventEvidenceBundle
  consumed : List String
  warnings : List RuntimeWarning

namespace Traversal

def start (input : Doc) (workflow : WorkflowDefinition) : Traversal where
  state := workflowState input
  current := workflow.startNode
  stepIndex := 0
  visited := []
  traversed := []
  emitted := []
  evidence := .empty
  consumed := []
  warnings := []

variable (t : Traversal)

def enter (node : WorkflowNode) : Traversal :=
  { t with visited := t.visited ++
      [⟨t.stepIndex, node.nodeId, node.capabilityId, node.capabilityVersion, .entered⟩] }

def mark (status : WorkflowTraversalStepStatus) : Traversal :=
  match t.visited.getLast? with
  | some last => { t with visited := t.visited.dropLast ++ [{ last with status := status }] }
  | none => t

def edgeRecord (edge : WorkflowEdge) : WorkflowTraversalEdgeRecord :=
  ⟨edge.edgeId, edge.fromNode, edge.toNode, edge.trigger, edge.event⟩

def follow (edge : WorkflowEdge) : Traversal :=
  { t with
    traversed := t.traversed ++ [edgeRecord edge]
    current := edge.toNode
    stepIndex := t.stepIndex + 1 }

def warn (warnings : List RuntimeWarning) : Traversal :=
  { t with warnings := t.warnings ++ warnings }

end Traversal

variable (request : WorkflowExecutionRequest)

def traversalEvidence (t : Traversal) (id version : String)
    (status : WorkflowTraversalStatus) (reason : Option WorkflowTraversalFailureReason) :
    WorkflowTraversalEvidence where
  kind := workflowEvidenceKind
  schemaVersion := workflowSchemaVersion
  traceId := s!"workflow_trace_{request.requestId}"
  requestId := request.requestId
  workflowId := id
  workflowVersion := version
  governingSpec := workflowGoverningSpec
  visitedNodes := t.visited
  traversedEdges := t.traversed
  emittedEvents := t.emitted
  events := t.evidence
  status := status
  failureReason := reason

def workflowFailure (reason : WorkflowTraversalFailureReason)
    (error : RuntimeError) (t : Traversal) : WorkflowExecutionOutcome where
  result := {
    kind := workflowRequestKind
    schemaVersion := workflowSchemaVersion
    requestId := request.requestId
    workflowId := request.workflowId
    workflowVersion := request.workflowVersion
    status := .error
    output := none
    error := some error
    warnings := t.warnings }
  evidence := traversalEvidence request t request.workflowId request.workflowVersion .error
    (some reason)

def stepFailure (error : RuntimeError) (t : Traversal) :
    WorkflowExecutionOutcome :=
  workflowFailure request .stepExecutionFailed error (t.mark .failed)

def workflowSuccess (workflow : WorkflowDefinition)
    (output : Doc) (t : Traversal) : WorkflowExecutionOutcome where
  result := {
    kind := workflowRequestKind
    schemaVersion := workflowSchemaVersion
    requestId := request.requestId
    workflowId := workflow.id
    workflowVersion := workflow.version
    status := .completed
    output := some output
    error := none
    warnings := t.warnings }
  evidence := traversalEvidence request t workflow.id workflow.version .completed none

/-! ## One visit of a node -/

namespace Runtime

variable {σ κ : Type} (rt : Runtime σ κ) (request : WorkflowExecutionRequest) (node : WorkflowNode)

/-- The capability of a node: registered, or indexed and then hydrated. -/
def resolveNode (t : Traversal)
    (s : State σ κ) : Except WorkflowExecutionOutcome ResolvedCapability × State σ κ :=
  match rt.registry.findExact request.scope node.capabilityId node.capabilityVersion with
  | some capability => (.ok capability, s)
  | none =>
    if (rt.capabilityMetadata.get node.capabilityId node.capabilityVersion).isNone then
      (.error (workflowFailure request .workflowInvalid
        (runtimeError .capabilityNotFound
          "workflow node capability was not found in the capability registry"
          (.object [("capability_id", .str node.capabilityId),
            ("capability_version", .str node.capabilityVersion)])) t), s)
    else
      match rt.hydrateResolvedCapability node.capabilityId node.capabilityVersion s with
      | (.ok capability, s) => (.ok capability, s)
      | (.error error, s) => (.error (stepFailure request (hydrationRuntimeError error) t), s)

/-- Artifact gate and input schema, before the executor is called. -/
def checkNode (capability : ResolvedCapability) (t : Traversal) (w : σ) :
    Except WorkflowExecutionOutcome (Traversal × Doc) :=
  match rt.loadArtifactBytesForVerification capability w with
  | .error error => .error (stepFailure request error t)
  | .ok bytes =>
    match verifyArtifact rt.primitives capability bytes rt.security with
    | .error failure =>
      .error (stepFailure request (runtimeError .contractViolation
        "artifact signature verification failed before workflow step execution"
        (.object [("code", .str failure.code), ("artifact_verification", failure.record.toDoc),
          ("node_id", .str node.nodeId)])) t)
    | .ok record =>
      let t := t.warn (verificationWarnings record)
      let input := nodeInput t.state node
      match validatePayloadAgainstContract input capability.contract.inputs .requestInvalid
          "workflow node input does not satisfy the capability input contract" with
      | .error error => .error (stepFailure request error t)
      | .ok () => .ok (t, input)

/-- The records of a node's own events. -/
def nodeEvents (output : LocalExecutionOutput) : List EmittedEventRecord :=
  output.emittedEvents.zipIdx.map fun event =>
    ⟨s!"event_record_{event.2}", event.1.reference, some event.1.data, none⟩

/-- The answer of the executor checked, merged into the state and published. -/
def settleNode (capability : ResolvedCapability)
    (answer : Except LocalExecutionFailure LocalExecutionOutput) (t : Traversal) (s : State σ κ) :
    Except WorkflowExecutionOutcome (Traversal × List EmittedEventRecord) × State σ κ :=
  match answer with
  | .error failure =>
    (.error (stepFailure request (runtimeError .executionFailed failure.message
      (.object [("code", .str failure.code.debug)])) t), s)
  | .ok output =>
    match validatePayloadAgainstContract output.value capability.contract.outputs
        .outputValidationFailed
        "workflow node output does not satisfy the capability output contract" with
    | .error error => (.error (stepFailure request error t), s)
    | .ok () =>
      match validateNativelyEmittedEvents capability.contract output.emittedEvents with
      | .error message =>
        (.error (stepFailure request (runtimeError .contractViolation message
          (.object [("node_id", .str node.nodeId)])) t), s)
      | .ok () =>
        let events := nodeEvents output
        let t := { t with
          state := updateState t.state node output.value
          emitted := t.emitted ++ events.map EmittedEventRecord.event }
        (.ok (t.mark .completed, events),
          if capability.contract.serviceType = .subscribable then
            s.publishAll rt.services output.emittedEvents
          else s)

/-- The end of the loop's body: an edge to follow, or an outcome. -/
def chooseEdge (workflow : WorkflowDefinition) (node : WorkflowNode) (outgoing : List WorkflowEdge)
    (takenEdgeIds : List String) (t : Traversal) : Except WorkflowExecutionOutcome Traversal :=
  match outgoing.filter fun edge => takenEdgeIds.contains edge.edgeId with
  | _ :: _ :: _ =>
    .error (workflowFailure request .ambiguousNextEdge (runtimeError .executionFailed
      "workflow traversal found more than one event next edge"
      (.object [("node_id", .str node.nodeId)])) t)
  | [edge] => .ok (t.follow edge)
  | [] =>
    if workflow.terminalNodes.contains node.nodeId then
      let output := finalWorkflowOutput t.state workflow.outputProjection
      match validatePayloadAgainstContract output workflow.outputs .outputValidationFailed
          "workflow output does not satisfy the workflow output contract" with
      | .error error => .error (workflowFailure request .workflowInvalid error t)
      | .ok () => .error (workflowSuccess request workflow output t)
    else
      let reason : WorkflowTraversalFailureReason :=
        if outgoing.any fun edge => edge.trigger = .event then .missingRequiredEvent
        else .terminalNodeNotReached
      .error (workflowFailure request reason (runtimeError .executionFailed
        "workflow traversal could not reach a valid next node"
        (.object [("node_id", .str node.nodeId)])) t)

variable (fuel : Nat) (request : WorkflowExecutionRequest) (workflow : WorkflowDefinition)

/-- Waiting edges that the node's own events do not satisfy ask the broker. -/
def awaitEvents (node : WorkflowNode) (outgoing : List WorkflowEdge)
    (nodeEmitted : List EmittedEventRecord)
    (t : Traversal) (w : σ) : Option (Except WorkflowExecutionOutcome Traversal) × σ :=
  let waiting := waitingEdgeContexts s!"workflow_exec_{request.requestId}"
    (outgoing.filter fun edge => edge.trigger = .event)
  let own := evaluateEventDrivenEdges waiting nodeEmitted t.consumed
    s!"{request.requestId}:step:{t.stepIndex}:local"
  let t := { t with
    evidence := { t.evidence with waitingEdges := t.evidence.waitingEdges ++ waiting }.extend
      own.evidence
    consumed := own.consumed }
  let unresolved := waiting.filter fun edge => !own.takenEdgeIds.contains edge.edgeId
  if unresolved.isEmpty then
    (some (chooseEdge request workflow node outgoing own.takenEdgeIds t), w)
  else
    match pollBrokerEventsForWaitingEdges rt.services fuel unresolved w with
    | (none, w) => (none, w)
    | (some (.error (.unregisteredEventType eventType)), w) =>
      (some (.error (workflowFailure request .eventSubscriptionFailed (runtimeError .requestInvalid
        "waiting edge references an event type not registered in EventBroker's catalog"
        (.object [("node_id", .str node.nodeId), ("event_type", .str eventType)]))
        (t.mark .failed))), w)
    | (some (.error (.brokerUnavailable detail)), w) =>
      (some (.error (workflowFailure request .eventBrokerUnavailable (runtimeError .executionFailed
        "EventBroker was unreachable or internally failing while evaluating a waiting event-driven edge"
        (.object [("node_id", .str node.nodeId), ("detail", .str detail)])) (t.mark .failed))), w)
    | (some (.ok polled), w) =>
      let broker := evaluateEventDrivenEdges unresolved polled.1 t.consumed
        s!"{request.requestId}:step:{t.stepIndex}:broker"
      let t := { t with
        evidence := t.evidence.extend broker.evidence
        consumed := broker.consumed
        warnings := t.warnings ++ polled.2 }
      (some (chooseEdge request workflow node outgoing (own.takenEdgeIds ++ broker.takenEdgeIds) t),
        w)

def takeEdge (node : WorkflowNode) (nodeEmitted : List EmittedEventRecord) (t : Traversal)
    (s : State σ κ) :
    Option (Except WorkflowExecutionOutcome Traversal) × State σ κ :=
  let outgoing := workflow.edges.filter fun edge => edge.fromNode = node.nodeId
  match outgoing.filter fun edge => edge.trigger = .direct with
  | _ :: _ :: _ =>
    (some (.error (workflowFailure request .ambiguousNextEdge (runtimeError .executionFailed
      "workflow traversal found more than one direct next edge"
      (.object [("node_id", .str node.nodeId)])) t)), s)
  | [edge] => (some (.ok (t.follow edge)), s)
  | [] =>
    let awaited := rt.awaitEvents fuel request workflow node outgoing nodeEmitted t s.world
    (awaited.1, { s with world := awaited.2 })

def visitNode (t : Traversal) (s : State σ κ) :
    Option (Except WorkflowExecutionOutcome Traversal) × State σ κ :=
  match workflow.nodes.find? fun node => node.nodeId = t.current with
  | none =>
    (some (.error (workflowFailure request .workflowInvalid (runtimeError .executionFailed
      "workflow node could not be resolved during traversal"
      (.object [("node_id", .str t.current)])) t)), s)
  | some node =>
    let t := t.enter node
    match rt.resolveNode request node t s with
    | (.error outcome, s) => (some (.error outcome), s)
    | (.ok capability, s) =>
      match rt.checkNode request node capability t s.world with
      | .error outcome => (some (.error outcome), s)
      | .ok (t, input) =>
        let called := s.callExecutor rt.services capability input
        match rt.settleNode request node capability called.1 t called.2 with
        | (.error outcome, s) => (some (.error outcome), s)
        | (.ok (t, events), s) => rt.takeEdge fuel request workflow node events t s

/-- The loop of `traverse_workflow`. -/
def traverse (fuel : Nat) (request : WorkflowExecutionRequest) (workflow : WorkflowDefinition) :
    Nat → Traversal → State σ κ → Option WorkflowExecutionOutcome × State σ κ
  | 0, _, s => (none, s)
  | n + 1, t, s =>
    match rt.visitNode fuel request workflow t s with
    | (none, s) => (none, s)
    | (some (.error outcome), s) => (some outcome, s)
    | (some (.ok t), s) => traverse fuel request workflow n t s

def traverseWorkflow (s : State σ κ) :
    Option WorkflowExecutionOutcome × State σ κ :=
  rt.traverse fuel request workflow fuel (.start request.input workflow) s

/-- The registry, or the workflows of a workspace unless only public ones are asked for. -/
def lookupWorkflow : Option WorkflowDefinition :=
  (rt.findWorkflow request.scope request.workflowId request.workflowVersion).or
    (if request.scope = .publicOnly then none
    else rt.indexedWorkflows.lookup (request.workflowId, request.workflowVersion))

def unstartedFailure (reason : WorkflowTraversalFailureReason)
    (error : RuntimeError) : WorkflowExecutionOutcome :=
  workflowFailure request reason error ⟨[], "", 0, [], [], [], .empty, [], []⟩

def executeWorkflow (s : State σ κ) :
    Option WorkflowExecutionOutcome × State σ κ :=
  match validateWorkflowRequest request with
  | some error => (some (unstartedFailure request .workflowInvalid error), s)
  | none =>
    match rt.lookupWorkflow request with
    | none =>
      (some (unstartedFailure request .workflowNotFound (runtimeError .capabilityNotFound
        "workflow definition was not found in the workflow registry"
        (.object [("workflow_id", .str request.workflowId),
          ("workflow_version", .str request.workflowVersion)]))), s)
    | some workflow =>
      match validatePayloadAgainstContract request.input workflow.inputs .requestInvalid
          "workflow request input does not satisfy the workflow input contract" with
      | .error error => (some (unstartedFailure request .workflowInvalid error), s)
      | .ok () => rt.traverseWorkflow fuel request workflow s

/-! ## What a traversal does to the state -/

/-- The bytes of the artifact can be had and pass `verify_artifact`. -/
def ArtifactVerifies (capability : ResolvedCapability) (w : σ) : Prop :=
  ∃ bytes record, rt.loadArtifactBytesForVerification capability w = .ok bytes ∧
    verifyArtifact rt.primitives capability bytes rt.security = .ok record

/-- The capability is registered under the name, or its contract is hydrated from the index. -/
def Resolves (scope : LookupScope) (id version : String) (capability : ResolvedCapability) : Prop :=
  rt.registry.findExact scope id version = some capability ∨
    rt.registry.findExact scope id version = none ∧
      rt.capabilityMetadata.get id version ≠ none ∧
      ∃ s, (rt.hydrateResolvedCapability id version s).1 = .ok capability

/-- The gates every call of the executor by a traversal has passed. -/
structure Vetted (request : WorkflowExecutionRequest) (call : ExecutorCall σ κ) : Prop where
  resolved : ∃ id version, rt.Resolves request.scope id version call.capability
  verifies : rt.ArtifactVerifies call.capability call.world
  input : Satisfies call.input call.capability.contract.inputs

/-- What lies between two states of a traversal. -/
structure Within (request : WorkflowExecutionRequest) (s s' : State σ κ) : Prop where
  emitted : s'.emitted = s.emitted
  traceStore : s'.traceStore = s.traceStore
  calls : ∃ new, s'.calls = s.calls ++ new ∧ ∀ call ∈ new, rt.Vetted request call

variable {rt}

variable {s s' : State σ κ} {request : WorkflowExecutionRequest} {node : WorkflowNode}
  {capability : ResolvedCapability} {t : Traversal} {w : σ} {input : Doc}
  {workflow : WorkflowDefinition} {outgoing : List WorkflowEdge} {o : WorkflowExecutionOutcome}
  {fuel : Nat} {events : List EmittedEventRecord}

theorem Within.of_eq (hemitted : s'.emitted = s.emitted) (hstore : s'.traceStore = s.traceStore)
    (hcalls : s'.calls = s.calls) : rt.Within request s s' :=
  ⟨hemitted, hstore, [], by rw [hcalls, List.append_nil], by simp⟩

theorem Within.refl (s : State σ κ) : rt.Within request s s := .of_eq rfl rfl rfl

theorem Within.trans {s₁ s₂ s₃ : State σ κ} (h₁ : rt.Within request s₁ s₂)
    (h₂ : rt.Within request s₂ s₃) :
    rt.Within request s₁ s₃ := by
  obtain ⟨new₁, hcalls₁, hvetted₁⟩ := h₁.calls
  obtain ⟨new₂, hcalls₂, hvetted₂⟩ := h₂.calls
  refine ⟨h₂.emitted.trans h₁.emitted, h₂.traceStore.trans h₁.traceStore, new₁ ++ new₂, ?_, ?_⟩
  · rw [hcalls₂, hcalls₁, List.append_assoc]
  · intro call hcall
    exact (List.mem_append.1 hcall).elim (hvetted₁ call) (hvetted₂ call)

theorem resolveNode_within (request : WorkflowExecutionRequest) (node : WorkflowNode)
    (t : Traversal) (s : State σ κ) : rt.Within request s (rt.resolveNode request node t s).2 := by
  unfold resolveNode
  split
  · exact .refl s
  split
  · exact .refl s
  have hcache : rt.Within request s
      (rt.hydrateResolvedCapability node.capabilityId node.capabilityVersion s).2 :=
    .of_eq rfl rfl rfl
  split
  case _ hhydrated => rwa [hhydrated] at hcache
  case _ hhydrated => rwa [hhydrated] at hcache

theorem resolveNode_ok (h : rt.resolveNode request node t s = (.ok capability, s')) :
    rt.Resolves request.scope node.capabilityId node.capabilityVersion capability := by
  unfold resolveNode at h
  split at h
  case _ hfound =>
    cases h
    exact .inl hfound
  case _ hnone =>
    split at h
    · cases h
    case _ hindexed =>
      split at h
      case _ hhydrated =>
        cases h
        exact .inr ⟨hnone, by simpa using hindexed, s, congrArg Prod.fst hhydrated⟩
      · cases h

theorem checkNode_ok {t' : Traversal}
    (h : rt.checkNode request node capability t w = .ok (t', input)) :
    rt.ArtifactVerifies capability w ∧ Satisfies input capability.contract.inputs := by
  unfold checkNode at h
  split at h
  · cases h
  next bytes hbytes =>
  split at h
  · cases h
  next record hrecord =>
  simp only at h
  split at h
  · cases h
  case _ hvalid =>
    cases h
    exact ⟨⟨bytes, record, hbytes, hrecord⟩, validatePayloadAgainstContract_eq_ok.1 hvalid⟩

theorem callExecutor_within {id version : String}
    (hresolves : rt.Resolves request.scope id version capability)
    (hverifies : rt.ArtifactVerifies capability s.world)
    (hinput : Satisfies input capability.contract.inputs) :
    rt.Within request s (s.callExecutor rt.services capability input).2 := by
  refine ⟨rfl, rfl, [⟨capability, input, s.world, s.cache⟩], rfl, fun call hcall => ?_⟩
  rw [List.mem_singleton.1 hcall]
  exact ⟨⟨id, version, hresolves⟩, hverifies, hinput⟩

theorem settleNode_within (request : WorkflowExecutionRequest) (node : WorkflowNode)
    (capability : ResolvedCapability)
    (answer : Except LocalExecutionFailure LocalExecutionOutput) (t : Traversal)
    (s : State σ κ) : rt.Within request s (rt.settleNode request node capability answer t s).2 := by
  unfold settleNode
  split
  · exact .refl s
  next output =>
  split
  · exact .refl s
  split
  · exact .refl s
  split
  · obtain ⟨hstore, hcalls, hemitted, -⟩ :=
      s.publishAll_frame rt.services output.emittedEvents
    exact .of_eq hemitted hstore hcalls
  · exact .refl s

section

variable (fuel : Nat) (request : WorkflowExecutionRequest) (workflow : WorkflowDefinition)

theorem takeEdge_within (node : WorkflowNode) (events : List EmittedEventRecord)
    (t : Traversal) (s : State σ κ) :
    rt.Within request s (rt.takeEdge fuel request workflow node events t s).2 := by
  unfold takeEdge
  simp only
  split <;> exact .of_eq rfl rfl rfl

theorem visitNode_within (t : Traversal) (s : State σ κ) :
    rt.Within request s (rt.visitNode fuel request workflow t s).2 := by
  unfold visitNode
  split
  · exact .refl s
  next node _ =>
  have hresolved := rt.resolveNode_within request node (t.enter node) s
  simp only
  split
  case _ hnode => rwa [hnode] at hresolved
  next capability s₁ hnode =>
  rw [hnode] at hresolved
  split
  · exact hresolved
  next t₁ input hchecked =>
  obtain ⟨hverifies, hinput⟩ := checkNode_ok hchecked
  have hcalled := hresolved.trans (callExecutor_within (resolveNode_ok hnode) hverifies hinput)
  have hsettled := hcalled.trans (rt.settleNode_within request node capability
    (s₁.callExecutor rt.services capability input).1 t₁
    (s₁.callExecutor rt.services capability input).2)
  split
  case _ hanswer => rwa [hanswer] at hsettled
  case _ hanswer =>
    rw [hanswer] at hsettled
    exact hsettled.trans (rt.takeEdge_within fuel request workflow node _ _ _)

/-- By induction on the rounds of the loop, whether it has returned by then or not. -/
theorem traverse_within (n : Nat) (t : Traversal) (s : State σ κ) :
    rt.Within request s (rt.traverse fuel request workflow n t s).2 := by
  induction n generalizing t s with
  | zero => exact .refl s
  | succ n ih =>
    have hvisit := rt.visitNode_within fuel request workflow t s
    unfold traverse
    split
    case _ hnode => rwa [hnode] at hvisit
    case _ hnode => rwa [hnode] at hvisit
    case _ t₁ s₁ hnode =>
      rw [hnode] at hvisit
      exact hvisit.trans (ih t₁ s₁)

end

/-! ## What a traversal answers -/

/-- A completed workflow has an object for its output that its definition accepts. -/
def Checked (workflow : WorkflowDefinition) (o : WorkflowExecutionOutcome) : Prop :=
  o.result.status = .completed → ∃ fields, o.result.output = some (.obj fields) ∧
    Satisfies (.obj fields) workflow.outputs

theorem Checked.failure {reason : WorkflowTraversalFailureReason} {error : RuntimeError} :
    Checked workflow (workflowFailure request reason error t) := by
  intro h
  cases h

theorem chooseEdge_checked {taken : List String}
    (h : chooseEdge request workflow node outgoing taken t = .error o) : Checked workflow o := by
  unfold chooseEdge at h
  split at h
  · cases h
    exact .failure
  · cases h
  · split at h
    · simp only at h
      split at h
      · cases h
        exact .failure
      next hvalid =>
      cases h
      obtain ⟨fields, hfields⟩ := finalWorkflowOutput_obj t.state workflow.outputProjection
      rw [hfields] at hvalid ⊢
      exact fun _ => ⟨fields, rfl, validatePayloadAgainstContract_eq_ok.1 hvalid⟩
    · cases h
      exact .failure

theorem awaitEvents_checked
    (h : (rt.awaitEvents fuel request workflow node outgoing events t w).1 = some (.error o)) :
    Checked workflow o := by
  unfold awaitEvents at h
  simp only at h
  split at h
  · exact chooseEdge_checked (Option.some.inj h)
  split at h
  · cases h
  · cases h
    exact .failure
  · cases h
    exact .failure
  · exact chooseEdge_checked (Option.some.inj h)

theorem takeEdge_checked
    (h : (rt.takeEdge fuel request workflow node events t s).1 = some (.error o)) :
    Checked workflow o := by
  unfold takeEdge at h
  simp only at h
  split at h
  · cases h
    exact .failure
  · cases h
  · exact awaitEvents_checked h

theorem resolveNode_checked (h : rt.resolveNode request node t s = (.error o, s')) :
    Checked workflow o := by
  unfold resolveNode at h
  split at h
  · cases h
  split at h
  · cases h
    exact .failure
  split at h
  · cases h
  · cases h
    exact .failure

theorem checkNode_checked (h : rt.checkNode request node capability t w = .error o) :
    Checked workflow o := by
  unfold checkNode at h
  split at h
  · cases h
    exact .failure
  split at h
  · cases h
    exact .failure
  simp only at h
  split at h
  · cases h
    exact .failure
  · cases h

theorem visitNode_checked (h : (rt.visitNode fuel request workflow t s).1 = some (.error o)) :
    Checked workflow o := by
  unfold visitNode at h
  split at h
  · cases h
    exact .failure
  simp only at h
  split at h
  case _ hnode =>
    cases h
    exact resolveNode_checked hnode
  · split at h
    case _ hchecked =>
      cases h
      exact checkNode_checked hchecked
    · split at h
      case _ hsettled =>
        cases h
        unfold settleNode at hsettled
        split at hsettled
        · cases hsettled
          exact .failure
        split at hsettled
        · cases hsettled
          exact .failure
        split at hsettled
        · cases hsettled
          exact .failure
        · cases hsettled
      · exact takeEdge_checked h

theorem traverse_checked {n : Nat} (h : (rt.traverse fuel request workflow n t s).1 = some o) :
    Checked workflow o := by
  induction n generalizing t s with
  | zero => cases h
  | succ n ih =>
    unfold traverse at h
    split at h
    · cases h
    case _ hnode =>
      cases h
      exact visitNode_checked (congrArg Prod.fst hnode)
    · exact ih h

theorem executeWorkflow_within (fuel : Nat) (request : WorkflowExecutionRequest)
    (s : State σ κ) : rt.Within request s (rt.executeWorkflow fuel request s).2 := by
  unfold executeWorkflow
  split
  · exact .refl s
  split
  · exact .refl s
  split
  · exact .refl s
  · exact rt.traverse_within _ _ _ _ _ s

theorem executeWorkflow_completed (h : (rt.executeWorkflow fuel request s).1 = some o)
    (hcompleted : o.result.status = .completed) :
    ∃ workflow fields, rt.lookupWorkflow request = some workflow ∧
      o.result.output = some (.obj fields) ∧ Satisfies (.obj fields) workflow.outputs := by
  unfold executeWorkflow at h
  split at h
  · cases h
    cases hcompleted
  split at h
  · cases h
    cases hcompleted
  next workflow hworkflow =>
  split at h
  · cases h
    cases hcompleted
  · obtain ⟨fields, houtput, haccepted⟩ := traverse_checked h hcompleted
    exact ⟨workflow, fields, hworkflow, houtput, haccepted⟩

end Runtime

end Traverse.Execution

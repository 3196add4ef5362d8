import Traverse.Execution.Runtime

/-!
# Execution.Record

What an execution writes down about itself. The emitter is handed through every branch of
`Runtime::execute`; `executeAttempt_onRecord` follows it: whatever the registry, the executor and
the request, an outcome is `Recorded` for the sanitized request, and an execution that has not
returned is in a workflow, with an emitter that is `Sound`.

* `execution_is_legal_walk`: the transitions of an execution are a walk of the state machine.
* `lifecycle_identity_iff`: when the lifecycle event names the identity that was recorded. Not
  always: the event takes the identity of the request as it came in, and the record the one derived
  from the caller's token, see `lifecycle_identity_lost`.
-/

namespace Traverse.Execution

open List

open Json (Doc)

/-! ## The emitter along an attempt -/

theorem beginAttempt_request (primitives : Primitives) (request : RuntimeRequest) :
    (beginAttempt primitives request).1.request = sanitizedRequest primitives request := rfl

theorem beginAttempt_sound (primitives : Primitives) (request : RuntimeRequest) :
    (beginAttempt primitives request).2.Sound
      (identityDoc (sanitizedRequest primitives request)) .ready false := by
  have hloading : ((StateEmitter.new (executionIdOf (sanitizedRequest primitives request).requestId)
      (sanitizedRequest primitives request).requestId).push .loadingRegistry
      .runtimeInitializationStarted (.object [("registry_status", .str "available"),
        ("identity", identityDoc (sanitizedRequest primitives request))])).Sound
      (identityDoc (sanitizedRequest primitives request)) .loadingRegistry false :=
    (StateEmitter.Sound.new _ _).push rfl (by decide) (by simp)
  have hready := hloading.push (by rfl : isAllowedTransition _ .ready .registryLoaded = true)
    (by decide) (by simp : ∀ d, ("identity", d) ∈
      [("governing_spec", Doc.str requestGoverningSpec)] → _)
  exact hready

/-- Where the emitter stands after the evaluation of candidates. -/
def evaluatedState (candidates : List ResolvedCapability) : RuntimeState :=
  if (eligibleCandidates candidates).isEmpty then
    if (candidates.filterMap rejectedCandidate).isEmpty then .discovering
    else .evaluatingConstraints
  else .selecting

theorem rejected_ne_nil {candidates : List ResolvedCapability} (hsome : candidates ≠ [])
    (hnone : eligibleCandidates candidates = []) : candidates.filterMap rejectedCandidate ≠ [] := by
  obtain ⟨c, cs, rfl⟩ := exists_cons_of_ne_nil hsome
  have hrejected := filter_eq_nil_iff.1 hnone c mem_cons_self
  obtain ⟨reason, hreason⟩ :=
    Option.ne_none_iff_exists'.1 (Option.isNone_iff_eq_none.not.1 hrejected)
  rw [filterMap_cons_some (by rw [rejectedCandidate, hreason]; rfl)]
  exact cons_ne_nil _ _

theorem evaluate_sound {e : StateEmitter} {identity : Doc}
    (h : e.Sound identity .discovering false) (candidates : List ResolvedCapability) :
    (e.evaluate candidates).Sound identity (evaluatedState candidates) false := by
  unfold StateEmitter.evaluate evaluatedState
  by_cases hcandidates : candidates = []
  · subst hcandidates
    exact h
  have hevaluating : (e.push .evaluatingConstraints .candidatesCollected
      (.object [("candidate_count", .int candidates.length)])).Sound identity
      .evaluatingConstraints false := h.push rfl (by decide) (by simp)
  rw [if_neg (mt List.isEmpty_iff.1 hcandidates)]
  by_cases heligible : eligibleCandidates candidates = []
  · have hrejected := rejected_ne_nil hcandidates heligible
    rw [if_pos (List.isEmpty_iff.2 heligible), if_pos (List.isEmpty_iff.2 heligible),
      if_neg (mt List.isEmpty_iff.1 hrejected)]
    exact hevaluating
  · rw [if_neg (mt List.isEmpty_iff.1 heligible), if_neg (mt List.isEmpty_iff.1 heligible)]
    exact hevaluating.push rfl (by decide) (by simp)

namespace Runtime

variable {σ κ : Type} {rt : Runtime σ κ}

section

variable (attempt : AttemptContext) (selected : ResolvedCapability) (w : σ)

theorem preExecution_attempt :
    (rt.preExecution attempt selected w).2 = attempt ∨
      ∃ record, (rt.preExecution attempt selected w).2 = verifiedAttempt attempt record := by
  unfold preExecution
  simp only
  split
  · exact .inl rfl
  split
  · exact .inl rfl
  split
  · exact .inl rfl
  split
  · exact .inl rfl
  · exact .inr ⟨_, rfl⟩

theorem preExecution_request :
    (rt.preExecution attempt selected w).2.request = attempt.request := by
  obtain h | ⟨record, h⟩ := rt.preExecution_attempt attempt selected w
  · rw [h]
  · rw [h]
    rfl

theorem preExecution_traceId :
    (rt.preExecution attempt selected w).2.traceId = attempt.traceId := by
  obtain h | ⟨record, h⟩ := rt.preExecution_attempt attempt selected w
  · rw [h]
  · rw [h]
    rfl

end

variable {context : ExecutionContext} {request : RuntimeRequest}

section

variable (hrequest : context.attempt.request = request)
  (h : context.emitter.Sound (identityDoc request) .executing false) (selected : ResolvedCapability)
  (started : StartedExecution)

include hrequest h

theorem executeRouted_recorded (s : State σ κ) :
    (rt.executeRouted context selected started s).1.Recorded request := by
  unfold executeRouted
  split
  · exact executionFailureOutcome_recorded hrequest h _ _ _ _
  split
  · exact executionFailureOutcome_recorded hrequest h _ _ _ _
  · exact successfulExecutionOutcome_recorded _ hrequest h _ _ _ _ _

theorem workflowOutcome_recorded (workflow : WorkflowExecutionOutcome) :
    (rt.workflowOutcome context selected started workflow).Recorded request := by
  unfold workflowOutcome
  split
  · refine successfulExecutionOutcome_recorded _ ?_ ?_ _ _ _ _ _
    · exact hrequest
    · exact h
  · refine executionFailureOutcome_recorded ?_ ?_ _ _ _ _
    · exact hrequest
    · exact h

end

/-- An outcome is recorded for the request. If there is none yet, the workflow of a capability is
being traversed, and until then no push was refused. -/
def OnRecord (rt : Runtime σ κ) (fuel : Nat) (request : RuntimeRequest)
    (answer : Option RuntimeExecutionOutcome × State σ κ) : Prop :=
  (∀ o, answer.1 = some o → o.Recorded request) ∧
    (answer.1 = none →
      ∃ context selected started s, selected.record.implementationKind = .workflow ∧
      answer = rt.executeWorkflowCapability fuel context selected started s ∧
      context.emitter.Sound (identityDoc request) .executing false)

variable {fuel : Nat} {selected : ResolvedCapability} {s : State σ κ} {o : RuntimeExecutionOutcome}
  {attempt : AttemptContext} {e : StateEmitter}

theorem OnRecord.outcome (h : o.Recorded request) : rt.OnRecord fuel request (some o, s) := by
  refine ⟨fun _ ho => ?_, nofun⟩
  cases ho
  exact h

section

variable (hrequest : context.attempt.request = request)
  (h : context.emitter.Sound (identityDoc request) .selecting false)

include hrequest h

theorem executeStartedSelection_onRecord (placement : PlacementDecisionRecord) :
    rt.OnRecord fuel request (rt.executeStartedSelection fuel context selected placement s) := by
  have hstarted := startSelectedExecution_sound h selected placement
  unfold executeStartedSelection
  rw [hrequest]
  -- From here on the context is the one with the started emitter.
  split
  case _ hworkflow =>
    refine ⟨fun o ho => ?_, fun _ => ⟨_, selected, _, s, hworkflow, rfl, hstarted⟩⟩
    unfold executeWorkflowCapability at ho
    split at ho
    · cases ho
      refine executionFailureOutcome_recorded ?_ ?_ _ _ _ _
      · exact hrequest
      · exact hstarted
    · obtain ⟨workflow, -, rfl⟩ := Option.map_eq_some_iff.1 ho
      refine workflowOutcome_recorded ?_ ?_ _ _ _
      · exact hrequest
      · exact hstarted
  · refine .outcome (executeRouted_recorded ?_ ?_ _ _ _)
    · exact hrequest
    · exact hstarted

theorem executeSelected_onRecord :
    rt.OnRecord fuel request (rt.executeSelected fuel context selected s) := by
  have hgated := (rt.preExecution_request context.attempt selected s.world).trans hrequest
  unfold executeSelected
  simp only
  split
  · refine .outcome (terminalFailure_recorded hgated rfl (h.push ?_ (by decide) ?_))
    · exact (congrArg _ (if_pos h.at_state)).trans rfl
    · simp
  · refine executeStartedSelection_onRecord ?_ ?_ _
    · exact hgated
    · exact h

end

theorem executeEvaluated_onRecord {candidates : List ResolvedCapability}
    (h : e.Sound (identityDoc attempt.request) (evaluatedState candidates) false)
    (hydrationFailure : Option HydrationError) :
    rt.OnRecord fuel attempt.request (rt.executeEvaluated fuel attempt e
      (candidateResolution attempt.request candidates hydrationFailure) s) := by
  unfold evaluatedState at h
  unfold executeEvaluated
  split
  case _ heligible =>
    rw [show eligibleCandidates candidates = [] from heligible] at h
    exact .outcome (noEligibleOutcome_recorded h)
  case _ selected heligible =>
    rw [show eligibleCandidates candidates = [selected] from heligible] at h
    exact executeSelected_onRecord rfl h
  next first second rest heligible =>
  rw [show eligibleCandidates candidates = first :: second :: rest from heligible] at h
  exact .outcome (terminalFailure_recorded rfl rfl (h.push rfl (by decide) (by simp)))

theorem executeAttempt_onRecord (h : e.Sound (identityDoc attempt.request) .discovering false) :
    rt.OnRecord fuel attempt.request (rt.executeAttempt fuel attempt e s) := by
  unfold executeAttempt
  split
  · exact .outcome (invalidRequestOutcome_recorded h _)
  split
  · exact .outcome (terminalFailure_recorded rfl rfl
      ((evaluate_sound h []).push rfl (by decide) (by simp)))
  · exact executeEvaluated_onRecord (evaluate_sound h _) _

/-- What does not read the warnings of an outcome does not see whether the event was delivered. -/
theorem emitExecutionLifecycleEvent_congr {α : Type} (f : RuntimeExecutionOutcome → α)
    (hf : ∀ o warning, f (warned o warning) = f o) (o : RuntimeExecutionOutcome)
    (identity : Option RuntimeIdentity) (s : State σ κ) :
    f (rt.emitExecutionLifecycleEvent o identity s).1 = f o := by
  unfold emitExecutionLifecycleEvent
  simp only
  split
  · rfl
  · exact hf o _

/-- The emitter an attempt starts with. -/
def startedEmitter (rt : Runtime σ κ) (request : RuntimeRequest) : StateEmitter :=
  let begun := beginAttempt rt.primitives request
  begun.2.push .discovering .requestStarted
    (.object [("lookup_scope", .str begun.1.request.lookup.scope.name),
      ("identity", identityDoc begun.1.request)])

theorem execute_of_attempt {s₁ : State σ κ} {inner : RuntimeExecutionOutcome}
    (h : rt.executeAttempt fuel (beginAttempt rt.primitives request).1
      (rt.startedEmitter request) s = (some inner, s₁)) :
    rt.execute fuel request s =
      (some (rt.emitExecutionLifecycleEvent inner request.context.identity s₁).1,
        (rt.emitExecutionLifecycleEvent inner request.context.identity s₁).2) := by
  unfold execute
  simp only
  split
  case _ hnone => cases hnone.symm.trans h
  case _ hsome =>
    cases hsome.symm.trans h
    rfl

/-- An execution that returns is an attempt that returned, and its lifecycle event. -/
theorem execute_eq_some (h : (rt.execute fuel request s).1 = some o) :
    ∃ inner s₁, rt.executeAttempt fuel (beginAttempt rt.primitives request).1
        (rt.startedEmitter request) s = (some inner, s₁) ∧
      rt.execute fuel request s =
        (some o, (rt.emitExecutionLifecycleEvent inner request.context.identity s₁).2) ∧
      o = (rt.emitExecutionLifecycleEvent inner request.context.identity s₁).1 := by
  rcases hattempt : rt.executeAttempt fuel (beginAttempt rt.primitives request).1
    (rt.startedEmitter request) s with ⟨_ | inner, s₁⟩
  · have hnone : (rt.execute fuel request s).1 = none := by
      unfold execute
      simp only
      split
      · rfl
      case _ hsome => cases hsome.symm.trans hattempt
    rw [hnone] at h
    cases h
  · have hexecute := execute_of_attempt hattempt
    rw [hexecute] at h
    cases h
    exact ⟨inner, s₁, rfl, hexecute, rfl⟩

theorem startedEmitter_sound (rt : Runtime σ κ) (request : RuntimeRequest) :
    (rt.startedEmitter request).Sound (identityDoc (sanitizedRequest rt.primitives request))
      .discovering false :=
  (beginAttempt_sound rt.primitives request).push rfl (by decide) (by simp [beginAttempt_request])

theorem execute_recorded (h : (rt.execute fuel request s).1 = some o) :
    o.Recorded (sanitizedRequest rt.primitives request) := by
  obtain ⟨inner, s₁, hattempt, -, rfl⟩ := execute_eq_some h
  have h := (executeAttempt_onRecord (rt.startedEmitter_sound request)).1 inner
    (congrArg Prod.fst hattempt)
  unfold emitExecutionLifecycleEvent
  simp only
  split
  · exact h
  · exact ⟨h.request_eq, h.walk, h.closed, h.passed, h.clean, h.through, h.named,
      h.progression_eq⟩

/-! ## A runtime with nothing registered -/

def bareServices : Services Unit Unit where
  execute := fun _ _ w => (.ok ⟨.null, []⟩, w)
  read := fun _ _ => .error "No such file or directory"
  hydrate := fun _ _ _ cache => (.error ⟨"indexed_capability_missing", ""⟩, cache)
  publish := fun _ w => (.ok (), w)
  subscribe := fun eventType _ w => (.error (.unregisteredEventType eventType), w)
  poll := fun subscriptionId _ w => (.error (.subscriptionNotFound subscriptionId), w)
  cancel := fun subscriptionId w => (.error (.subscriptionNotFound subscriptionId), w)
  emit := fun _ w => (.ok (), w)
  poisoned := fun _ => false
  now := fun _ => "2026-01-01T00:00:00Z"
  uuid := fun _ => "00000000-0000-4000-8000-000000000000"
  elapsedMs := fun _ => 0

/-- A reader that knows one document, the payload of `aliceToken`. -/
def barePrimitives : Primitives where
  sha256Hex := fun _ => ""
  ed25519 := fun _ _ _ => false
  fromSlice := fun bytes =>
    if bytes = Json.utf8 "\x7b\"sub\":\"alice\"\x7d".toList then
      some (.obj [("sub", .str "alice")])
    else none
  toText := fun _ => ""
  isGovernedArtifactPath := fun _ => false

def bareRuntime : Runtime Unit Unit where
  registry := {
    findExact := fun _ _ _ => none
    discover := fun _ => []
    resolveVersionRange := fun _ _ _ => none
    resolveDependencies := fun _ _ _ => .ok () }
  findWorkflow := fun _ _ _ => none
  indexedWorkflows := []
  capabilityMetadata := ⟨[], []⟩
  services := bareServices
  primitives := barePrimitives
  semver := ⟨fun _ => true, fun _ => true, fun _ _ => true, fun _ _ => true⟩
  security := .production

def bareState : State Unit Unit := ⟨(), (), fun _ => none, [], [], []⟩

def aliceToken : String := "h.eyJzdWIiOiJhbGljZSJ9.s"

def bareRequest (caller : Option String) (identity : Option RuntimeIdentity) : RuntimeRequest where
  kind := "runtime_request"
  schemaVersion := "1.0.0"
  requestId := "r1"
  intent := ⟨some "cap", some "1.0.0", none, none⟩
  input := .obj []
  lookup := ⟨.publicOnly, false⟩
  context := ⟨.localTarget, caller, identity⟩
  governingSpec := "006-runtime-request-execution"

/-- An executable capability that runs here, needs no binary and takes any input. -/
def sampleCapability (contractPath : String) (outputs : Doc) (serviceType : ServiceType) :
    ResolvedCapability where
  contract := {
    id := "cap"
    version := "1.0.0"
    lifecycle := .active
    inputs := .obj []
    outputs := outputs
    emits := [⟨"done", "1.0.0"⟩]
    execution := ⟨[.localTarget], .none, .forbidden⟩
    dependencies := []
    serviceType := serviceType
    permittedTargets := [.localTarget] }
  record := {
    scope := .publicScope
    id := "cap"
    version := "1.0.0"
    lifecycle := .active
    contractPath := contractPath
    implementationKind := .executable
    artifactRef := "artifact" }
  artifact := ⟨.localSource, none, none, none⟩

/-- The runtime with capabilities registered under their ids. -/
def withCapabilities (capabilities : List ResolvedCapability) : Runtime Unit Unit :=
  { bareRuntime with registry := { bareRuntime.registry with
      findExact := fun _ id _ => capabilities.find? fun capability => capability.record.id = id } }

end Runtime

/-! ## The identity of the lifecycle event -/

/-- Nothing is derived from the caller's token that the request does not say itself. -/
def TokenAgrees (primitives : Primitives) (request : RuntimeRequest) : Prop :=
  ∀ identity, request.context.caller.bind (deriveIdentityFromJwt primitives) = some identity →
    request.context.identity.map (·.subjectId) = some identity.subjectId ∧
      request.context.identity.bind (·.actorId) = identity.actorId
  deriving Decidable

namespace Runtime

variable {σ κ : Type} {rt : Runtime σ κ}

/-- Every execution that returns hands one lifecycle event to the sink. The trace's request and the
state events show the sanitized identity; the event has its subject and actor exactly if the token
agrees with what the request said before. -/
theorem lifecycle_identity_iff (rt : Runtime σ κ) (fuel : Nat) (request : RuntimeRequest)
    (s : State σ κ) (o : RuntimeExecutionOutcome) (h : (rt.execute fuel request s).1 = some o) :
    ∃ event, (rt.execute fuel request s).2.emitted = s.emitted ++ [event] ∧
      EventsHold "identity" (identityDoc o.trace.request) o.stateEvents ∧
      ((event.subjectId = o.trace.request.context.identity.map (·.subjectId) ∧
          event.actorId = o.trace.request.context.identity.bind (·.actorId)) ↔
        TokenAgrees rt.primitives request) := by
  have hrecorded := execute_recorded h
  obtain ⟨inner, s₁, hattempt, hexecute, -⟩ := execute_eq_some h
  have hemitted := rt.executeAttempt_emitted fuel (beginAttempt rt.primitives request).1
    (rt.startedEmitter request) s
  rw [hattempt] at hemitted
  refine ⟨rt.lifecycleEvent s₁.world inner request.context.identity, ?_, ?_, ?_⟩
  · rw [hexecute, ← hemitted]
    rfl
  · rw [hrecorded.request_eq]
    exact hrecorded.named
  · rw [hrecorded.request_eq, TokenAgrees]
    unfold sanitizedRequest
    cases request.context.caller.bind (deriveIdentityFromJwt rt.primitives) with
    | none | some => simp [lifecycleEvent]

def aliceRequest : RuntimeRequest := bareRequest (some aliceToken) (some ⟨"alice", none, ""⟩)

theorem lifecycle_identity_iff_agreeing : ∃ o event,
    (bareRuntime.execute 0 aliceRequest bareState).1 = some o ∧
      (bareRuntime.execute 0 aliceRequest bareState).2.emitted = [event] ∧
      event.subjectId = o.trace.request.context.identity.map (·.subjectId) ∧
      event.actorId = o.trace.request.context.identity.bind (·.actorId) := by
  have hreturns : (bareRuntime.execute 0 aliceRequest bareState).1.isSome := by decide +kernel
  have hagrees : TokenAgrees bareRuntime.primitives aliceRequest := by decide +kernel
  obtain ⟨event, hemitted, -, hiff⟩ := lifecycle_identity_iff bareRuntime 0 aliceRequest bareState _
    (Option.some_get hreturns).symm
  exact ⟨_, event, (Option.some_get hreturns).symm, hemitted, hiff.2 hagrees⟩

/-- A token in `context.caller` and no identity: the trace says `alice`, the lifecycle event says
nobody. -/
theorem lifecycle_identity_lost :
    ((bareRuntime.execute 0 (bareRequest (some aliceToken) none) bareState).1.map fun o =>
        o.trace.request.context.identity.map (·.subjectId)) = some (some "alice") ∧
      (bareRuntime.execute 0 (bareRequest (some aliceToken) none) bareState).2.emitted.map
        (·.subjectId) = [none] := by
  decide +kernel

end Runtime

end Traverse.Execution

import Traverse.Execution.Record

/-!
# Execution.Gates

The checks before an executor runs, on the two ways that lead there. `Gates` are those of
`Runtime::execute` for a capability that was selected; `rejectedBeforeExecution_iff` says that a
request that resolves to one capability is rejected exactly if the capability is not eligible or a
gate is closed.

A workflow step runs the executor on its own. It verifies the artifact and validates the input, and
none of the other gates is there: `step_gates_iff`. So a step can run what a direct request for the
same capability and input is refused, see `draft_runs_as_step`.
-/

namespace Traverse.Execution

open Json (Doc)

/-! ## A request and its sanitized form -/

section Sanitized

variable (primitives : Primitives) (request : RuntimeRequest)

theorem sanitizedRequest_lookup :
    (sanitizedRequest primitives request).lookup = request.lookup := by
  unfold sanitizedRequest
  split <;> rfl

theorem sanitizedRequest_input : (sanitizedRequest primitives request).input = request.input := by
  unfold sanitizedRequest
  split <;> rfl

theorem sanitizedRequest_requestId :
    (sanitizedRequest primitives request).requestId = request.requestId := by
  unfold sanitizedRequest
  split <;> rfl

theorem sanitizedRequest_target :
    (sanitizedRequest primitives request).context.requestedTarget =
      request.context.requestedTarget := by
  unfold sanitizedRequest
  split <;> rfl

end Sanitized

/-! ## The gates of a direct execution -/

namespace Runtime

variable {σ κ : Type}

/-- What `execute_selected` asks of a capability and a request before it executes. -/
structure Gates (rt : Runtime σ κ) (request : RuntimeRequest) (selected : ResolvedCapability)
    (w : σ) : Prop where
  notDraft : containsDraftsSegment selected.record.contractPath = false
  target : request.context.requestedTarget = .localTarget
  verifies : rt.ArtifactVerifies selected w
  dependencies : rt.registry.resolveDependencies selected.record.id selected.contract.dependencies
    request.lookup.scope = .ok ()
  input : Satisfies request.input selected.contract.inputs
  canonical : Canonicalizable request.input

variable {rt : Runtime σ κ} {attempt : AttemptContext} {request : RuntimeRequest}
  {capability : ResolvedCapability} {placement : PlacementDecisionRecord} {w : σ}

theorem resolvePlacement_ok {target : PlacementTarget}
    (h : resolvePlacement target = .ok placement) :
    target = .localTarget ∧ placement.target = .localTarget := by
  unfold resolvePlacement at h
  split at h
  case _ hlocal =>
    cases h
    exact ⟨hlocal, rfl⟩
  · cases h

theorem checkInput_eq_ok {input : Doc} {contract : CapabilityContract} :
    checkInput input contract = .ok () ↔
      Satisfies input contract.inputs ∧ Canonicalizable input := by
  rw [checkInput, validatePayloadAgainstContract_eq]
  by_cases hinput : Satisfies input contract.inputs
  · rw [if_pos hinput]
    exact canonicalInputCheck_eq_ok.trans (and_iff_right hinput).symm
  · rw [if_neg hinput]
    simp [hinput]

theorem preExecution_ok (h : (rt.preExecution attempt capability w).1 = .ok placement) :
    rt.Gates attempt.request capability w ∧ placement.target = .localTarget := by
  unfold preExecution at h
  simp only at h
  split at h
  · cases h
  next hdraft =>
  split at h
  · cases h
  next placed hplaced =>
  split at h
  · cases h
  next bytes hbytes =>
  split at h
  · cases h
  next record hrecord =>
  split at h
  · cases h
  next hdependencies =>
  split at h
  · cases h
  next hchecked =>
  cases h
  obtain ⟨htarget, hlocal⟩ := resolvePlacement_ok hplaced
  obtain ⟨hinput, hcanonical⟩ := checkInput_eq_ok.1 hchecked
  exact ⟨⟨by simpa using hdraft, htarget, ⟨bytes, record, hbytes, hrecord⟩,
    hdependencies, hinput, hcanonical⟩, hlocal⟩

theorem Gates.preExecution (h : rt.Gates attempt.request capability w) :
    ∃ placement, (rt.preExecution attempt capability w).1 = .ok placement := by
  obtain ⟨placement, hplaced⟩ : ∃ placement,
      resolvePlacement attempt.request.context.requestedTarget = .ok placement := by
    rw [h.target]
    exact ⟨_, rfl⟩
  obtain ⟨bytes, record, hbytes, hrecord⟩ := h.verifies
  have hchecked := checkInput_eq_ok.2 ⟨h.input, h.canonical⟩
  refine ⟨placement, ?_⟩
  simp only [Runtime.preExecution, h.notDraft, Bool.false_eq_true, if_false, hplaced, hbytes,
    hrecord, h.dependencies, hchecked]

theorem gates_sanitized :
    rt.Gates (sanitizedRequest rt.primitives request) capability w ↔
      rt.Gates request capability w := by
  constructor
  · rintro ⟨hdraft, htarget, hverifies, hdependencies, hinput, hcanonical⟩
    rw [sanitizedRequest_target] at htarget
    rw [sanitizedRequest_lookup] at hdependencies
    rw [sanitizedRequest_input] at hinput hcanonical
    exact ⟨hdraft, htarget, hverifies, hdependencies, hinput, hcanonical⟩
  · intro h
    refine ⟨h.notDraft, ?_, h.verifies, ?_, ?_, ?_⟩
    · rw [sanitizedRequest_target]
      exact h.target
    · rw [sanitizedRequest_lookup]
      exact h.dependencies
    · rw [sanitizedRequest_input]
      exact h.input
    · rw [sanitizedRequest_input]
      exact h.canonical

/-! ## The selected capability -/

/-- The capability an execution selects: the request is valid and one candidate is eligible. -/
def selected (rt : Runtime σ κ) (request : RuntimeRequest) (s : State σ κ) :
    Option ResolvedCapability :=
  match validateRequest rt.semver request, (rt.discover request s).1 with
  | none, .ok candidates =>
    match eligibleCandidates candidates with
    | [capability] => some capability
    | _ => none
  | _, _ => none

theorem selected_sanitized (request : RuntimeRequest) (s : State σ κ) :
    rt.selected (sanitizedRequest rt.primitives request) s = rt.selected request s := by
  unfold sanitizedRequest
  split <;> rfl

theorem selected_of_discover {s : State σ κ} (hvalid : validateRequest rt.semver request = none)
    (hdiscover : (rt.discover request s).1 = .ok [capability]) :
    rt.selected request s =
      if evaluateCandidate capability = none then some capability else none := by
  rw [selected, hvalid, hdiscover]
  split_ifs with heligible
  · simp [eligibleCandidates, heligible]
  · simp [eligibleCandidates, heligible]

end Runtime

/-- An outcome of an attempt that ran nothing. -/
structure RuntimeExecutionOutcome.Unstarted (attempt : AttemptContext)
    (o : RuntimeExecutionOutcome) : Prop where
  error : o.result.status = .error
  notStarted : o.trace.execution.status = .notStarted
  traceId_eq : o.trace.traceId = attempt.traceId

namespace Runtime

variable {σ κ : Type}

/-- An attempt that came to run `capability`, in the context and with the placement it runs in. -/
structure Started (rt : Runtime σ κ) (attempt : AttemptContext) (s : State σ κ)
    (capability : ResolvedCapability) (context : ExecutionContext)
    (placement : PlacementDecisionRecord) : Prop where
  selected_eq : rt.selected attempt.request s = some capability
  gates : rt.Gates attempt.request capability s.world
  request_eq : context.attempt.request = attempt.request
  traceId_eq : context.attempt.traceId = attempt.traceId
  selection_eq : context.selection = selectionOf capability
  target_eq : placement.target = .localTarget

variable {rt : Runtime σ κ} {fuel : Nat} {attempt : AttemptContext} {e : StateEmitter}
  {s : State σ κ} {request : RuntimeRequest} {capability : ResolvedCapability}

theorem executeAttempt_unselected (h : rt.selected attempt.request s = none) :
    ∃ o cache, rt.executeAttempt fuel attempt e s = (some o, { s with cache := cache }) ∧
      o.Unstarted attempt := by
  obtain ⟨cache, hstate⟩ := rt.discover_state attempt.request s
  unfold selected at h
  unfold executeAttempt
  cases hvalid : validateRequest rt.semver attempt.request with
  | some error => exact ⟨_, s.cache, rfl, rfl, rfl, rfl⟩
  | none =>
    rcases hdiscovered : rt.discover attempt.request s with ⟨_ | candidates, s₁⟩
    · rw [hdiscovered] at hstate
      cases hstate
      exact ⟨_, cache, rfl, rfl, rfl, rfl⟩
    rw [hvalid, hdiscovered] at h
    rw [hdiscovered] at hstate
    cases hstate
    unfold executeEvaluated candidateResolution
    simp only at h ⊢
    -- None or several: one would have been selected.
    split
    · exact ⟨_, cache, rfl, rfl, rfl, rfl⟩
    case _ heligible =>
      rw [heligible] at h
      cases h
    · exact ⟨_, cache, rfl, rfl, rfl, rfl⟩

theorem executeAttempt_selected (h : rt.selected attempt.request s = some capability) :
    ∃ context cache, context.attempt = attempt ∧ context.selection = selectionOf capability ∧
      rt.executeAttempt fuel attempt e s =
        rt.executeSelected fuel context capability { s with cache := cache } := by
  obtain ⟨cache, hstate⟩ := rt.discover_state attempt.request s
  unfold selected at h
  split at h
  case _ candidates hvalid hdiscover =>
    split at h
    case _ heligible =>
      cases h
      have hdiscovered : rt.discover attempt.request s =
          (.ok candidates, { s with cache := cache }) := Prod.ext hdiscover hstate
      refine ⟨⟨attempt, e.evaluate candidates,
        (candidateResolution attempt.request candidates none).collection,
        selectionOf capability⟩, cache, rfl, rfl, ?_⟩
      unfold executeAttempt executeEvaluated
      rw [hvalid, hdiscovered]
      simp only [candidateResolution, heligible]
    · cases h
  · cases h

/-- An attempt runs nothing, or it runs the capability that was selected once all gates are open. -/
theorem executeAttempt_cases (rt : Runtime σ κ) (fuel : Nat) (attempt : AttemptContext)
    (e : StateEmitter) (s : State σ κ) :
    (∃ o cache, rt.executeAttempt fuel attempt e s = (some o, { s with cache := cache }) ∧
      o.Unstarted attempt ∧
      ∀ capability, rt.selected attempt.request s = some capability →
        ¬ rt.Gates attempt.request capability s.world) ∨
    ∃ capability context placement cache, rt.Started attempt s capability context placement ∧
      rt.executeAttempt fuel attempt e s =
        rt.executeStartedSelection fuel context capability placement { s with cache := cache } := by
  cases hselected : rt.selected attempt.request s with
  | none =>
    obtain ⟨o, cache, hattempt, hunstarted⟩ := executeAttempt_unselected hselected
    exact .inl ⟨o, cache, hattempt, hunstarted, by simp⟩
  | some capability =>
    obtain ⟨context, cache, rfl, hselection, hattempt⟩ := executeAttempt_selected hselected
    rw [hattempt, executeSelected]
    have htraceId := rt.preExecution_traceId context.attempt capability s.world
    split
    case _ failure hgated =>
      refine .inl ⟨_, cache, rfl, ⟨rfl, rfl, htraceId⟩, fun other hother hgates => ?_⟩
      cases hother
      obtain ⟨placement, hplaced⟩ := hgates.preExecution
      rw [hplaced] at hgated
      cases hgated
    next placement hgated =>
    obtain ⟨hgates, hlocal⟩ := preExecution_ok hgated
    have hrequest := rt.preExecution_request context.attempt capability s.world
    exact .inr ⟨capability, { context with
      attempt := (rt.preExecution context.attempt capability s.world).2 }, placement, cache,
      ⟨hselected, hgates, hrequest, htraceId, hselection, hlocal⟩, rfl⟩

/-! ## Rejection -/

/-- The execution returns, and says that nothing was started. -/
def RejectedBeforeExecution (rt : Runtime σ κ) (fuel : Nat) (request : RuntimeRequest)
    (s : State σ κ) : Prop :=
  ∃ o, (rt.execute fuel request s).1 = some o ∧ o.trace.execution.status = .notStarted

theorem executeStartedSelection_started {context : ExecutionContext}
    {placement : PlacementDecisionRecord} {o : RuntimeExecutionOutcome}
    (h : (rt.executeStartedSelection fuel context capability placement s).1 = some o) :
    o.trace.execution.status ≠ .notStarted ∧ o.trace.selection = context.selection ∧
      o.trace.traceId = context.attempt.traceId := by
  unfold executeStartedSelection at h
  split at h
  · unfold executeWorkflowCapability at h
    split at h
    · cases h
      exact ⟨ExecutionStatus.noConfusion, rfl, rfl⟩
    · obtain ⟨workflow, -, rfl⟩ := Option.map_eq_some_iff.1 h
      unfold workflowOutcome
      split <;> exact ⟨ExecutionStatus.noConfusion, rfl, rfl⟩
  · cases h
    unfold executeRouted
    split
    · exact ⟨ExecutionStatus.noConfusion, rfl, rfl⟩
    · split <;> exact ⟨ExecutionStatus.noConfusion, rfl, rfl⟩

theorem rejectedBeforeExecution_iff_closed : rt.RejectedBeforeExecution fuel request s ↔
      ∀ capability, rt.selected request s = some capability →
        ¬ rt.Gates request capability s.world := by
  have hcases := rt.executeAttempt_cases fuel (beginAttempt rt.primitives request).1
    (rt.startedEmitter request) s
  simp only [beginAttempt_request, selected_sanitized, gates_sanitized] at hcases
  obtain ⟨inner, cache, hattempt, hunstarted, hclosed⟩ |
    ⟨capability, context, placement, cache, hstarted, hattempt⟩ := hcases
  · refine iff_of_true ⟨_, congrArg Prod.fst (execute_of_attempt hattempt), ?_⟩ hclosed
    rw [emitExecutionLifecycleEvent_congr (·.trace.execution) (fun _ _ => rfl),
      hunstarted.notStarted]
  have hselected := hstarted.selected_eq
  have hgates := hstarted.gates
  rw [beginAttempt_request, selected_sanitized] at hselected
  rw [beginAttempt_request, gates_sanitized] at hgates
  refine iff_of_false ?_ fun hclosed => hclosed capability hselected hgates
  rintro ⟨o, ho, hstatus⟩
  obtain ⟨inner, s₁, hinner, -, rfl⟩ := execute_eq_some ho
  rw [emitExecutionLifecycleEvent_congr (·.trace.execution) (fun _ _ => rfl)] at hstatus
  have hrun := congrArg Prod.fst (hattempt.symm.trans hinner)
  exact (executeStartedSelection_started hrun).1 hstatus

/-- A valid request that resolves to one capability is rejected before execution exactly if the
capability is not eligible or one of the gates is closed. -/
theorem rejectedBeforeExecution_iff (hvalid : validateRequest rt.semver request = none)
    (hdiscover : (rt.discover request s).1 = .ok [capability]) :
    rt.RejectedBeforeExecution fuel request s ↔
      ¬ (evaluateCandidate capability = none ∧ rt.Gates request capability s.world) := by
  rw [rejectedBeforeExecution_iff_closed, selected_of_discover hvalid hdiscover]
  by_cases heligible : evaluateCandidate capability = none
  · simp [heligible]
  · simp [heligible]

/-! ## The gates of a workflow step -/

/-- A request for one version of a capability, by its name. -/
def Names (direct : RuntimeRequest) (scope : LookupScope) (id version : String) : Prop :=
  isExactTarget direct.intent ∧ direct.intent.capabilityId = some id ∧
    direct.intent.capabilityVersion = some version ∧ direct.lookup.scope = scope

theorem discover_named {direct : RuntimeRequest} {scope : LookupScope} {id version : String}
    (hnames : Names direct scope id version) (hresolves : rt.Resolves scope id version capability)
    (hhydrates : rt.registry.findExact scope id version = none →
      (rt.hydrateResolvedCapability id version s).1 = .ok capability) :
    (rt.discover direct s).1 = .ok [capability] := by
  obtain ⟨hexact, hid, hversion, rfl⟩ := hnames
  have hgiven : nonEmpty id ∧ nonEmpty version := by
    simpa [isExactTarget, hid, hversion] using hexact
  obtain hfound | ⟨hnone, hindexed, -⟩ := hresolves
  · simp [discover, collectCandidates, hexact, hid, hversion, hfound]
  · obtain ⟨entry, hentry⟩ := Option.ne_none_iff_exists'.1 hindexed
    have hentries : rt.capabilityMetadata.entries ≠ [] := by
      intro hnil
      simp [CapabilityMetadataIndex.get, hnil] at hentry
    have htargets : rt.indexedTargets direct =
        [{ entry with capabilityId := id, capabilityVersion := version }] := by
      simp only [indexedTargets, hid, hversion, Option.filter_some, hgiven.1, hgiven.2, if_true,
        hentry]
      rfl
    rcases hhydrated : rt.hydrateResolvedCapability id version s with ⟨answer, _⟩
    obtain rfl : answer = .ok capability := by simpa [hhydrated] using hhydrates hnone
    simp [discover, collectCandidates, hexact, hid, hversion, hnone, hentries,
      collectIndexedCandidates, htargets, hydrateAll, hhydrated, Except.map]

/-- Every call of the executor in a traversal has a verified artifact and an input that its contract
accepts. Its capability has a name by which a direct request in the same scope finds it, as long as
what is not registered is hydrated again. A direct execution of that capability with that input, in
the world of the call, is let through exactly if the four gates that a step lacks are open as
well. -/
theorem step_gates_iff (rt : Runtime σ κ) (fuel : Nat) (request : WorkflowExecutionRequest)
    (workflow : WorkflowDefinition) (s : State σ κ) :
    ∃ calls, (rt.traverseWorkflow fuel request workflow s).2.calls = s.calls ++ calls ∧
      ∀ call ∈ calls, rt.ArtifactVerifies call.capability call.world ∧
        Satisfies call.input call.capability.contract.inputs ∧
        (∃ id version, ∀ direct d, Names direct request.scope id version →
          (rt.registry.findExact request.scope id version = none →
            (rt.hydrateResolvedCapability id version d).1 = .ok call.capability) →
          (rt.discover direct d).1 = .ok [call.capability]) ∧
        ∀ (n : Nat) (direct : RuntimeRequest) (d : State σ κ),
          validateRequest rt.semver direct = none →
          direct.context.requestedTarget = .localTarget → direct.input = call.input →
          d.world = call.world → (rt.discover direct d).1 = .ok [call.capability] →
          (¬ rt.RejectedBeforeExecution n direct d ↔
            evaluateCandidate call.capability = none ∧
            containsDraftsSegment call.capability.record.contractPath = false ∧
            rt.registry.resolveDependencies call.capability.record.id
              call.capability.contract.dependencies direct.lookup.scope = .ok () ∧
            Canonicalizable call.input) := by
  obtain ⟨calls, hcalls, hvetted⟩ :=
    (rt.traverse_within fuel request workflow fuel (.start request.input workflow) s).calls
  refine ⟨calls, hcalls, fun call hcall => ?_⟩
  obtain ⟨⟨id, version, hresolves⟩, hverifies, hinput⟩ := hvetted call hcall
  refine ⟨hverifies, hinput, ⟨id, version, fun direct d hnames => discover_named hnames hresolves⟩,
    fun n direct d hvalid htarget hsame hworld hdiscover => ?_⟩
  rw [rejectedBeforeExecution_iff hvalid hdiscover, not_not, hworld]
  refine and_congr_right fun _ => ⟨fun hgates => ?_, fun hmissing => ?_⟩
  · exact ⟨hgates.notDraft, hgates.dependencies, hsame ▸ hgates.canonical⟩
  · obtain ⟨hdraft, hdependencies, hcanonical⟩ := hmissing
    exact ⟨hdraft, htarget, hverifies, hdependencies, hsame.symm ▸ hinput, hsame.symm ▸ hcanonical⟩

/-- The request for a workflow of one step, and the workflow: it runs `cap` on nothing. -/
def stepRequest : WorkflowExecutionRequest where
  kind := workflowRequestKind
  schemaVersion := workflowSchemaVersion
  requestId := "r1"
  workflowId := "flow"
  workflowVersion := "1.0.0"
  scope := .publicOnly
  input := .obj []
  governingSpec := workflowGoverningSpec

def stepWorkflow (outputs : Doc) : WorkflowDefinition where
  id := "flow"
  version := "1.0.0"
  inputs := .obj []
  outputs := outputs
  nodes := [⟨"only", "cap", "1.0.0", [], [], none⟩]
  edges := []
  startNode := "only"
  terminalNodes := ["only"]
  outputProjection := []

variable (contractPath : String)

/-- The runtime that has `cap`, from a contract at some path, registered. -/
def stepRuntime : Runtime Unit Unit :=
  withCapabilities [sampleCapability contractPath (.obj []) .stateless]

theorem stepWorkflow_calls :
    ((stepRuntime contractPath).traverseWorkflow 1 stepRequest (stepWorkflow (.obj []))
        bareState).2.calls =
      [⟨sampleCapability contractPath (.obj []) .stateless, .obj [], (), ()⟩] := rfl

theorem validateRequest_bare :
    validateRequest (stepRuntime contractPath).semver (bareRequest none none) = none := by
  have hvalid : (validateRequest bareRuntime.semver (bareRequest none none)).isNone = true := by
    decide +kernel
  exact Option.isNone_iff_eq_none.1 hvalid

theorem step_gates_iff_governed :
    ∃ call ∈ ((stepRuntime "contracts/cap.json").traverseWorkflow 1 stepRequest
        (stepWorkflow (.obj [])) bareState).2.calls,
      ((stepRuntime "contracts/cap.json").discover (bareRequest none none) bareState).1 =
          .ok [call.capability] ∧
        (bareRequest none none).input = call.input ∧
        ¬ (stepRuntime "contracts/cap.json").RejectedBeforeExecution 0 (bareRequest none none)
          bareState := by
  obtain ⟨calls, hcalls, hgates⟩ := step_gates_iff (stepRuntime "contracts/cap.json") 1 stepRequest
    (stepWorkflow (.obj [])) bareState
  rw [stepWorkflow_calls] at hcalls
  obtain rfl : _ = calls := hcalls
  obtain ⟨-, -, -, hdirect⟩ := hgates _ (List.mem_singleton.2 rfl)
  refine ⟨_, by rw [stepWorkflow_calls]; exact List.mem_singleton.2 rfl, rfl, rfl, ?_⟩
  exact (hdirect 0 (bareRequest none none) bareState (validateRequest_bare _) rfl rfl rfl rfl).2
    ⟨by decide, by decide +kernel, rfl, by decide⟩

/-- The contract is under `drafts/`. The step runs it; a direct request for the same capability,
input and target is refused. -/
theorem draft_runs_as_step :
    ∃ call ∈ ((stepRuntime "drafts/cap.json").traverseWorkflow 1 stepRequest
        (stepWorkflow (.obj [])) bareState).2.calls,
      ((stepRuntime "drafts/cap.json").discover (bareRequest none none) bareState).1 =
          .ok [call.capability] ∧
        (bareRequest none none).input = call.input ∧
        (bareRequest none none).context.requestedTarget = .localTarget ∧
        (stepRuntime "drafts/cap.json").RejectedBeforeExecution 0 (bareRequest none none)
          bareState := by
  refine ⟨_, by rw [stepWorkflow_calls]; exact List.mem_singleton.2 rfl, rfl, rfl, rfl, ?_⟩
  have hdraft : containsDraftsSegment "drafts/cap.json" = true := by decide +kernel
  have hdiscover : ((stepRuntime "drafts/cap.json").discover (bareRequest none none) bareState).1 =
      .ok [sampleCapability "drafts/cap.json" (.obj []) .stateless] := rfl
  refine (rejectedBeforeExecution_iff (validateRequest_bare _) hdiscover).2 fun hgates => ?_
  exact Bool.false_ne_true (hgates.2.notDraft.symm.trans hdraft)

end Runtime

end Traverse.Execution

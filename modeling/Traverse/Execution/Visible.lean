import Traverse.Execution.Gates

/-!
# Execution.Visible

What others see of the execution of an executable capability: the events handed to the broker, and
the entry in the trace store. Both are the router's work, and the router is done before the output
is held against the contract.

* `completed_honours_contract`: when the output of an execution that completes satisfies the
  contract.
* `visible_effects_iff`: when an execution that ends in an error has left no such trace of a
  success. The events of one that completes are those its trace lists.
* `refused_output_published`: an output that the contract refuses, published and recorded as a
  success.
-/

namespace Traverse.Execution

open Json (Doc)

/-! ## What the output of a completed execution was held against

An executable capability answers through the router and its output is validated by the contract
that was selected. A workflow-backed one answers with the final state of the traversal, which was
validated by the workflow's own schema, and the contract is not looked at again. -/

namespace Runtime

variable {σ κ : Type}

/-- The workflow that implements a capability. -/
def backingWorkflow (rt : Runtime σ κ) (capability : ResolvedCapability) :
    Option WorkflowDefinition :=
  capability.artifact.workflowRef.bind fun workflowRef =>
    (rt.findWorkflow capability.record.scope.lookup workflowRef.workflowId
        workflowRef.workflowVersion).or
      (if capability.record.scope.lookup = .publicOnly then none
      else rt.indexedWorkflows.lookup (workflowRef.workflowId, workflowRef.workflowVersion))

/-- The workflow of a workflow-backed capability accepts no object that the contract refuses. -/
def SchemaCovered (rt : Runtime σ κ) (capability : ResolvedCapability) : Prop :=
  capability.record.implementationKind = .workflow →
    ∀ workflow, rt.backingWorkflow capability = some workflow →
      ∀ fields, Satisfies (.obj fields) workflow.outputs →
        Satisfies (.obj fields) capability.contract.outputs

variable {rt : Runtime σ κ} {fuel : Nat} {context : ExecutionContext}
  {capability : ResolvedCapability} {s : State σ κ}

variable {started : StartedExecution} {o : RuntimeExecutionOutcome}

theorem executeWorkflowCapability_completed
    (h : (rt.executeWorkflowCapability fuel context capability started s).1 = some o)
    (hcompleted : o.result.status = .completed) :
    ∃ workflow fields, rt.backingWorkflow capability = some workflow ∧
      o.result.output = some (.obj fields) ∧ Satisfies (.obj fields) workflow.outputs := by
  unfold executeWorkflowCapability at h
  split at h
  · cases h
    cases hcompleted
  next workflowRef hworkflowRef =>
  obtain ⟨traversed, htraversed, rfl⟩ := Option.map_eq_some_iff.1 h
  unfold workflowOutcome at hcompleted ⊢
  split at hcompleted
  case _ hstatus =>
    obtain ⟨workflow, fields, hworkflow, houtput, haccepted⟩ :=
      executeWorkflow_completed htraversed hstatus
    refine ⟨workflow, fields, ?_, ?_, haccepted⟩
    · rw [backingWorkflow, hworkflowRef]
      exact hworkflow
    · show some (traversed.result.output.getD (.obj [])) = some (.obj fields)
      rw [houtput]
      rfl
  · cases hcompleted

theorem executeStartedSelection_completed {placement : PlacementDecisionRecord}
    (h : (rt.executeStartedSelection fuel context capability placement s).1 = some o)
    (hcompleted : o.result.status = .completed) :
    ∃ output, o.result.output = some output ∧
      (rt.SchemaCovered capability → Satisfies output capability.contract.outputs) := by
  unfold executeStartedSelection at h
  split at h
  case _ hworkflow =>
    obtain ⟨workflow, fields, hbacking, houtput, haccepted⟩ :=
      executeWorkflowCapability_completed h hcompleted
    exact ⟨.obj fields, houtput, fun hcovered =>
      hcovered hworkflow workflow hbacking fields haccepted⟩
  · cases h
    unfold executeRouted at hcompleted ⊢
    split at hcompleted
    · cases hcompleted
    next response _ _ =>
    split at hcompleted
    · cases hcompleted
    case _ hvalid =>
      exact ⟨response.output, rfl, fun _ => validatePayloadAgainstContract_eq_ok.1 hvalid⟩

/-- Every completed execution ran the capability that was selected; the contract of that capability
accepts the output, if nothing slips through the schema of its workflow. -/
theorem completed_honours_contract (rt : Runtime σ κ) (fuel : Nat) (request : RuntimeRequest)
    (s : State σ κ) (o : RuntimeExecutionOutcome) (h : (rt.execute fuel request s).1 = some o)
    (hcompleted : o.result.status = .completed) :
    ∃ capability output, rt.selected request s = some capability ∧
      o.trace.selection = selectionOf capability ∧ o.result.output = some output ∧
      (rt.SchemaCovered capability → Satisfies output capability.contract.outputs) := by
  obtain ⟨inner, s₁, hinner, -, rfl⟩ := execute_eq_some h
  rw [emitExecutionLifecycleEvent_congr (·.result.status) (fun _ _ => rfl)] at hcompleted
  rw [emitExecutionLifecycleEvent_congr (·.result.output) (fun _ _ => rfl),
    emitExecutionLifecycleEvent_congr (·.trace.selection) (fun _ _ => rfl)]
  obtain ⟨_, cache, hattempt, hunstarted, -⟩ |
    ⟨capability, context, placement, cache, hstarted, hattempt⟩ :=
    rt.executeAttempt_cases fuel (beginAttempt rt.primitives request).1
      (rt.startedEmitter request) s
  · cases hattempt.symm.trans hinner
    rw [hunstarted.error] at hcompleted
    cases hcompleted
  have hrun := congrArg Prod.fst (hattempt.symm.trans hinner)
  have hselected := hstarted.selected_eq
  rw [beginAttempt_request, selected_sanitized] at hselected
  obtain ⟨output, houtput, haccepted⟩ := executeStartedSelection_completed hrun hcompleted
  refine ⟨capability, output, hselected, ?_, houtput, haccepted⟩
  rw [(executeStartedSelection_started hrun).2.1, hstarted.selection_eq]

/-- A contract that asks for a member `result`. -/
def resultSchema : Doc := .obj [("type", .str "object"), ("required", .arr [.str "result"])]

/-- The capability `cap`, implemented by the workflow of one step. -/
def workflowBacked (outputs : Doc) : ResolvedCapability :=
  let executable := sampleCapability "contracts/cap.json" outputs .stateless
  { executable with
    record.implementationKind := .workflow
    artifact.workflowRef := some ⟨"flow", "1.0.0"⟩ }

variable (workflowOutputs contractOutputs : Doc) (fields : List (String × Doc))

/-- The step of the workflow runs an executable capability, `step`. -/
def workflowRuntime : Runtime Unit Unit :=
  let step := sampleCapability "contracts/step.json" (.obj []) .stateless
  { withCapabilities [workflowBacked contractOutputs, { step with record.id := "step" }] with
    findWorkflow := fun _ _ _ => some { stepWorkflow workflowOutputs with
      nodes := [⟨"only", "step", "1.0.0", [], [], none⟩] } }

/-- The request for `cap` with an input. -/
def inputRequest : RuntimeRequest := { bareRequest none none with input := .obj fields }

theorem workflowRuntime_selected :
    (workflowRuntime workflowOutputs contractOutputs).selected (inputRequest fields) bareState =
      some (workflowBacked contractOutputs) := by
  have hvalid : validateRequest (workflowRuntime workflowOutputs contractOutputs).semver
      (inputRequest fields) = none := validateRequest_bare ""
  have hdiscover : ((workflowRuntime workflowOutputs contractOutputs).discover
      (inputRequest fields) bareState).1 = .ok [workflowBacked contractOutputs] := rfl
  exact (selected_of_discover hvalid hdiscover).trans (if_pos rfl)

/-- The workflow asks for `result` as the contract does, and its input has it. -/
theorem completed_honours_contract_covered : ∃ o output,
    ((workflowRuntime resultSchema resultSchema).execute 1
        (inputRequest [("result", .str "done")]) bareState).1 = some o ∧
      o.trace.selection = selectionOf (workflowBacked resultSchema) ∧
      o.result.output = some output ∧
      Satisfies output (workflowBacked resultSchema).contract.outputs := by
  have hstatus : (((workflowRuntime resultSchema resultSchema).execute 1
      (inputRequest [("result", .str "done")]) bareState).1.map fun o => o.result.status) =
        some .completed := by
    decide +kernel
  obtain ⟨o, ho, hcompleted⟩ := Option.map_eq_some_iff.1 hstatus
  obtain ⟨capability, output, hselected, htrace, houtput, haccepted⟩ :=
    completed_honours_contract (workflowRuntime resultSchema resultSchema) 1
      (inputRequest [("result", .str "done")]) bareState o ho hcompleted
  cases (workflowRuntime_selected _ _ _).symm.trans hselected
  refine ⟨o, output, ho, htrace, houtput, haccepted fun _ workflow hworkflow fields hfields => ?_⟩
  cases hworkflow
  exact hfields

/-- The workflow accepts any object, the contract only one with `result`: the execution completes
with an object that has none. -/
theorem completed_against_contract :
    (((workflowRuntime (.obj []) resultSchema).execute 1 (inputRequest []) bareState).1.map
        fun o => (o.result.status, o.result.output.map fun output =>
          decide (Satisfies output (workflowBacked resultSchema).contract.outputs))) =
        some (.completed, some false) ∧
      (workflowRuntime (.obj []) resultSchema).selected (inputRequest []) bareState =
        some (workflowBacked resultSchema) := by
  refine ⟨?_, workflowRuntime_selected _ _ _⟩
  decide +kernel

/-! ## What others see -/

/-- What the router is asked about a capability that runs here. -/
def localRequest (capability : ResolvedCapability) (input : Doc) : RouterRequest where
  capabilityId := capability.record.id
  contract := capability.contract
  targetHint := some .localTarget
  runtimeSnapshot := idleRuntimeSnapshot
  input := input
  traceIdOverride := none

def routed (rt : Runtime σ κ) (capability : ResolvedCapability) (input : Doc) (s : State σ κ) :
    Option ExecutorOutput :=
  (accepted rt.services (localRequest capability input) (rt.boundLocalExecutor capability input)
    s).map Prod.fst

/-- The execution gets as far as an output that the router accepts and the contract refuses. -/
def OutputRefused (rt : Runtime σ κ) (request : RuntimeRequest) (s : State σ κ) : Prop :=
  ∃ capability output, rt.selected request s = some capability ∧
    rt.Gates request capability s.world ∧
    rt.routed capability request.input s = some output ∧
    ¬ Satisfies output.value capability.contract.outputs

variable {rt : Runtime σ κ} {context : ExecutionContext} {capability : ResolvedCapability}
  {started : StartedExecution} {s : State σ κ}

theorem accepted_routerRequest (htarget : started.placement.target = .localTarget) :
    accepted rt.services (routerRequest context.attempt capability started.placement)
        (rt.boundLocalExecutor capability context.attempt.request.input) s =
      accepted rt.services (localRequest capability context.attempt.request.input)
        (rt.boundLocalExecutor capability context.attempt.request.input) s := by
  unfold accepted routerRequest
  rw [htarget]
  rfl

theorem executeRouted_of_none (htarget : started.placement.target = .localTarget)
    (h : rt.routed capability context.attempt.request.input s = none) :
    (rt.executeRouted context capability started s).1.result.status = .error ∧
      (rt.executeRouted context capability started s).2.published = s.published ∧
      (rt.executeRouted context capability started s).2.traceStore = s.traceStore := by
  have hrefused : accepted rt.services (routerRequest context.attempt capability started.placement)
      (rt.boundLocalExecutor capability context.attempt.request.input) s = none :=
    (accepted_routerRequest htarget).trans (Option.map_eq_none_iff.1 h)
  obtain ⟨error, after, hrouter, hafter⟩ := executeWithExecutor_refused hrefused
  unfold executeRouted
  rw [hrouter]
  obtain rfl | rfl := hafter
  · exact ⟨rfl, rfl, rfl⟩
  · exact ⟨rfl, rfl, rfl⟩

/-- Something is accepted: events and a success, whatever the contract says of the output. -/
theorem executeRouted_of_some (htarget : started.placement.target = .localTarget)
    {output : ExecutorOutput}
    (h : rt.routed capability context.attempt.request.input s = some output) :
    (rt.executeRouted context capability started s).2.traceStore.HoldsSuccess
        context.attempt.traceId ∧
      ((rt.executeRouted context capability started s).1.result.status = .completed ↔
        Satisfies output.value capability.contract.outputs) ∧
      ((rt.executeRouted context capability started s).1.result.status = .completed →
        capability.contract.serviceType = .subscribable →
        (rt.executeRouted context capability started s).2.published =
            s.published ++ output.emittedEvents ∧
          (rt.executeRouted context capability started s).1.trace.emittedEvents =
            output.emittedEvents.map (·.reference)) := by
  obtain ⟨⟨output, decision⟩, hlocal, rfl⟩ := Option.map_eq_some_iff.1 h
  have haccepted : accepted rt.services (routerRequest context.attempt capability started.placement)
      (rt.boundLocalExecutor capability context.attempt.request.input) s =
        some (output, decision) :=
    (accepted_routerRequest htarget).trans hlocal
  have hrouter : executeWithExecutor rt.services rt.primitives
      (routerRequest context.attempt capability started.placement)
      (rt.boundLocalExecutor capability context.attempt.request.input) s = _ :=
    executeWithExecutor_accepted haccepted
  refine ⟨?_, ?_, fun hcompleted hsubscribable => ?_⟩
  · rw [executeRouted_state, hrouter, (State.publishAll_frame rt.services _ _).1]
    exact ⟨_, Function.update_self .., rfl⟩
  · unfold executeRouted
    rw [hrouter]
    simp only [outputError, validatePayloadAgainstContract_eq]
    by_cases hvalid : Satisfies output.value capability.contract.outputs
    · simp only [if_pos hvalid]
      exact iff_of_true rfl hvalid
    · simp only [if_neg hvalid]
      exact iff_of_false RuntimeResultStatus.noConfusion hvalid
  · have hevents :
      routedEvents (routerRequest context.attempt capability started.placement) output =
        output.emittedEvents := if_pos hsubscribable
    rw [hevents] at hrouter
    refine ⟨?_, ?_⟩
    · rw [executeRouted_state, hrouter, State.publishAll_published]
      rfl
    · unfold executeRouted at hcompleted ⊢
      rw [hrouter] at hcompleted ⊢
      simp only at hcompleted ⊢
      split at hcompleted
      · cases hcompleted
      · rfl

/-- What an execution of an executable capability leaves to see, said of the attempt. -/
structure Shown (rt : Runtime σ κ) (request : RuntimeRequest) (s s' : State σ κ)
    (o : RuntimeExecutionOutcome) : Prop where
  traceId_eq : o.trace.traceId = traceIdOf request.requestId
  error_iff : o.result.status = .error →
    ((s'.published = s.published ∧ ¬ s'.traceStore.HoldsSuccess (traceIdOf request.requestId)) ↔
      ¬ rt.OutputRefused request s ∧ ¬ s.traceStore.HoldsSuccess (traceIdOf request.requestId))
  published_eq : o.result.status = .completed →
    ∀ capability, rt.selected request s = some capability →
      capability.contract.serviceType = .subscribable →
      ∃ events, s'.published = s.published ++ events ∧
        o.trace.emittedEvents = events.map (·.reference)

variable {request : RuntimeRequest}

theorem executeAttempt_shown {fuel : Nat} {s₁ : State σ κ} {o : RuntimeExecutionOutcome}
    (hexecutable : ∀ capability, rt.selected request s = some capability →
      capability.record.implementationKind = .executable)
    (h : rt.executeAttempt fuel (beginAttempt rt.primitives request).1
      (rt.startedEmitter request) s = (some o, s₁)) :
    rt.Shown request s s₁ o := by
  have htraceId : (beginAttempt rt.primitives request).1.traceId = traceIdOf request.requestId := by
    rw [← sanitizedRequest_requestId rt.primitives request]
    rfl
  obtain ⟨_, cache, hattempt, hunstarted, hclosed⟩ |
    ⟨capability, context, placement, cache, hstarted, hattempt⟩ :=
    rt.executeAttempt_cases fuel (beginAttempt rt.primitives request).1
      (rt.startedEmitter request) s
  · cases hattempt.symm.trans h
    simp only [beginAttempt_request, selected_sanitized, gates_sanitized] at hclosed
    have hrefused : ¬ rt.OutputRefused request s := by
      rintro ⟨capability, -, hselected, hgates, -⟩
      exact hclosed capability hselected hgates
    refine ⟨hunstarted.traceId_eq.trans htraceId, fun _ => ?_, fun hcompleted => ?_⟩
    · exact and_congr_left fun _ => iff_of_true rfl hrefused
    · cases hunstarted.error.symm.trans hcompleted
  · have hselected := hstarted.selected_eq
    have hgates := hstarted.gates
    rw [beginAttempt_request, selected_sanitized] at hselected
    rw [beginAttempt_request, gates_sanitized] at hgates
    obtain ⟨context', started, hcontext, hplacement, hrun⟩ :
        ∃ (context' : ExecutionContext) (started : StartedExecution),
          context'.attempt = context.attempt ∧ started.placement = placement ∧
          rt.executeStartedSelection fuel context capability placement { s with cache := cache } =
            (some (rt.executeRouted context' capability started { s with cache := cache }).1,
              (rt.executeRouted context' capability started { s with cache := cache }).2) := by
      let started := startSelectedExecution context.emitter capability placement
        context.attempt.request.context.identity
      refine ⟨{ context with emitter := started.2 }, started.1, rfl, rfl, ?_⟩
      unfold executeStartedSelection
      rw [hexecutable capability hselected]
      rfl
    cases (hattempt.trans hrun).symm.trans h
    have hattempted : context'.attempt.request = sanitizedRequest rt.primitives request := by
      rw [hcontext, hstarted.request_eq, beginAttempt_request]
    have hcontextId : context'.attempt.traceId = traceIdOf request.requestId := by
      rw [hcontext, hstarted.traceId_eq, htraceId]
    have htarget : started.placement.target = .localTarget := hplacement ▸ hstarted.target_eq
    have hrouted : rt.routed capability context'.attempt.request.input { s with cache := cache } =
        rt.routed capability request.input s := by
      rw [hattempted, sanitizedRequest_input]
      rfl
    refine ⟨?_, fun herror => ?_, fun hcompleted other hother hsubscribable => ?_⟩
    · rw [(executeStartedSelection_started (congrArg Prod.fst hrun)).2.2, hstarted.traceId_eq,
        htraceId]
    · cases hanswer : rt.routed capability request.input s with
      | none =>
        obtain ⟨-, hpublished, hstore⟩ := executeRouted_of_none htarget (hrouted.trans hanswer)
        have hrefused : ¬ rt.OutputRefused request s := by
          rintro ⟨other, output, hother, -, houtput, -⟩
          cases hselected.symm.trans hother
          cases hanswer.symm.trans houtput
        rw [hpublished, hstore]
        exact and_congr_left fun _ => iff_of_true rfl hrefused
      | some output =>
        obtain ⟨hholds, hstatus, -⟩ := executeRouted_of_some htarget (hrouted.trans hanswer)
        rw [hcontextId] at hholds
        have hrefused : rt.OutputRefused request s := by
          refine ⟨capability, output, hselected, hgates, hanswer, fun hvalid => ?_⟩
          cases herror.symm.trans (hstatus.2 hvalid)
        exact iff_of_false (fun hnone => hnone.2 hholds) fun hnone => hnone.1 hrefused
    · cases hselected.symm.trans hother
      cases hanswer : rt.routed capability request.input s with
      | none =>
        obtain ⟨herror, -⟩ := executeRouted_of_none htarget (hrouted.trans hanswer)
        cases herror.symm.trans hcompleted
      | some output =>
        obtain ⟨-, -, hevents⟩ := executeRouted_of_some htarget (hrouted.trans hanswer)
        exact ⟨output.emittedEvents, hevents hcompleted hsubscribable⟩

/-- For requests that select nothing but executable capabilities. An execution that ends in an error
has published nothing and left no success under its trace id exactly if it did not get as far as an
output that the contract refuses, and there was no success under that id before. The events of a
completed one that is subscribable are those its trace lists, in order. -/
theorem visible_effects_iff (rt : Runtime σ κ) (fuel : Nat) (request : RuntimeRequest)
    (s : State σ κ) (o : RuntimeExecutionOutcome) (h : (rt.execute fuel request s).1 = some o)
    (hexecutable : ∀ capability, rt.selected request s = some capability →
      capability.record.implementationKind = .executable) :
    o.trace.traceId = traceIdOf request.requestId ∧
    (o.result.status = .error →
      (((rt.execute fuel request s).2.published = s.published ∧
          ¬ (rt.execute fuel request s).2.traceStore.HoldsSuccess o.trace.traceId) ↔
        ¬ rt.OutputRefused request s ∧ ¬ s.traceStore.HoldsSuccess o.trace.traceId)) ∧
    (o.result.status = .completed → ∀ capability, rt.selected request s = some capability →
      capability.contract.serviceType = .subscribable →
      ∃ events, (rt.execute fuel request s).2.published = s.published ++ events ∧
        o.trace.emittedEvents = events.map (·.reference)) := by
  obtain ⟨inner, s₁, hinner, hexecute, rfl⟩ := execute_eq_some h
  have hshown := executeAttempt_shown hexecutable hinner
  rw [emitExecutionLifecycleEvent_congr (·.result.status) (fun _ _ => rfl),
    emitExecutionLifecycleEvent_congr (·.trace.traceId) (fun _ _ => rfl),
    emitExecutionLifecycleEvent_congr (·.trace.emittedEvents) (fun _ _ => rfl), hexecute,
    hshown.traceId_eq]
  exact ⟨rfl, hshown.error_iff, hshown.published_eq⟩

def doneEvent : TraverseEvent where
  id := "e1"
  source := "cap"
  eventType := "done"
  datacontenttype := "application/json"
  time := "2026-01-01T00:00:00Z"
  data := .null
  owner := "cap"
  version := "1.0.0"
  lifecycleStatus := .active
  deduplicationId := none
  orderingScope := none
  correlationId := none
  causationId := none
  subjectId := none
  actorId := none

/-- A runtime whose `cap` emits the event it declares. -/
def emittingCapability (outputs : Doc) : ResolvedCapability :=
  sampleCapability "contracts/cap.json" outputs .subscribable

def emittingRuntime (outputs : Doc) : Runtime Unit Unit :=
  { withCapabilities [emittingCapability outputs] with
    services := { bareServices with execute := fun _ _ w => (.ok ⟨.obj [], [doneEvent]⟩, w) } }

theorem emittingRuntime_selected (outputs : Doc) :
    (emittingRuntime outputs).selected (bareRequest none none) bareState =
      some (emittingCapability outputs) := by
  have hvalid : validateRequest (emittingRuntime outputs).semver (bareRequest none none) = none :=
    validateRequest_bare ""
  have hdiscover : ((emittingRuntime outputs).discover (bareRequest none none) bareState).1 =
      .ok [emittingCapability outputs] := rfl
  exact (selected_of_discover hvalid hdiscover).trans (if_pos rfl)

theorem visible_effects_iff_completed : ∃ o events,
    ((emittingRuntime (.obj [])).execute 0 (bareRequest none none) bareState).1 = some o ∧
      ((emittingRuntime (.obj [])).execute 0 (bareRequest none none) bareState).2.published =
        events ∧
      o.trace.emittedEvents = events.map (·.reference) := by
  have hstatus : (((emittingRuntime (.obj [])).execute 0 (bareRequest none none)
      bareState).1.map fun o => o.result.status) = some .completed := by decide +kernel
  obtain ⟨o, ho, hcompleted⟩ := Option.map_eq_some_iff.1 hstatus
  have hexecutable : ∀ capability,
      (emittingRuntime (.obj [])).selected (bareRequest none none) bareState = some capability →
        capability.record.implementationKind = .executable := by
    intro capability hselected
    cases (emittingRuntime_selected _).symm.trans hselected
    rfl
  obtain ⟨-, -, hpublished⟩ := visible_effects_iff (emittingRuntime (.obj [])) 0
    (bareRequest none none) bareState o ho hexecutable
  obtain ⟨events, hevents, hlisted⟩ := hpublished hcompleted _ (emittingRuntime_selected _) rfl
  exact ⟨o, events, ho, hevents, hlisted⟩

/-- The contract asks for `result` and the executor answers without it. The execution ends in an
error; its event is with the broker and the store has a success. -/
theorem refused_output_published :
    (((emittingRuntime resultSchema).execute 0 (bareRequest none none) bareState).1.map
        fun o => (o.result.status, o.trace.traceId)) = some (.error, "trace_exec_r1") ∧
      ((emittingRuntime resultSchema).execute 0 (bareRequest none none) bareState).2.published.map
        (·.reference) = [⟨"done", "1.0.0"⟩] ∧
      (((emittingRuntime resultSchema).execute 0 (bareRequest none none) bareState).2.traceStore
        "trace_exec_r1").map (·.1.outcome) = some .success ∧
      (emittingRuntime resultSchema).selected (bareRequest none none) bareState =
        some (emittingCapability resultSchema) := by
  refine ⟨by decide +kernel, by decide +kernel, by decide +kernel, emittingRuntime_selected _⟩

end Runtime

end Traverse.Execution

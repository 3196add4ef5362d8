import Traverse.Events.Feed
import Traverse.Execution.OwnEvents
import Traverse.Execution.Visible
import Traverse.Graph.Cycle

/-!
# Execution.Termination

Whether a traversal ends. A workflow of a workspace is checked against the metadata index when it is
loaded (`workspace_lazy.rs`), and a topology with a cycle is refused. The search for a cycle follows
direct edges only, but a traversal also follows edges that wait for an event.

* `validateWorkflowAgainstIndex_isSome`: the check itself ends.
* `workflowHasCycle_iff`: the search is right about direct edges.
* `visitNode_settles`, `visitNode_follows`: a visit of a node ends, with an outcome or along an
  edge.
* `accepted_workflow_terminates`: an accepted workflow ends if no edge that waits, at a node that
  can be reached, is on a cycle.
* `event_loop_runs_on`: an accepted workflow that does not end.
-/

namespace Traverse.Execution

open List

open Events (EventError)
open Relation (TransGen ReflTransGen)

/-! ## The check of a workflow -/

/-- The code that this check answers with. -/
inductive WorkspaceAppStateErrorCode where
  | workflowRegistrationFailed
  deriving DecidableEq, Repr

structure WorkspaceAppStateError where
  code : WorkspaceAppStateErrorCode
  (path message : String)
  deriving DecidableEq, Repr

structure WorkspaceAppStateFailure where
  errors : List WorkspaceAppStateError
  deriving DecidableEq, Repr

def singleError (code : WorkspaceAppStateErrorCode) (path message : String) :
    WorkspaceAppStateFailure :=
  ⟨[⟨code, path, message⟩]⟩

/-- The targets in `adjacency` under a node. -/
def directTargets (edges : List WorkflowEdge) (nodeIds : List String) (node : String) :
    List String :=
  if node ∈ nodeIds then
    (edges.filter fun edge => edge.trigger = .direct ∧ edge.fromNode = node).map (·.toNode)
  else []

/-- Every node of a way is a node id or the target of an edge. -/
def workflowHasCycle (edges : List WorkflowEdge) (nodeIds : List String) : Option Bool :=
  (Graph.anyCycle (fun node visited => Graph.dfsCycle (directTargets edges nodeIds)
    (nodeIds.length + edges.length + 1) node [] visited) nodeIds []).map Prod.fst

variable (definition : WorkflowDefinition)

def sortedNodeIds : List String :=
  ((definition.nodes.map (·.nodeId)).insertionSort (· ≤ ·)).dedup

def validateWorkflowAgainstIndex (index : CapabilityMetadataIndex) (path : String) :
    Option (Except WorkspaceAppStateFailure Unit) :=
  let nodeIds := sortedNodeIds definition
  let refuse (message : String) : Option (Except WorkspaceAppStateFailure Unit) :=
    some (.error (singleError .workflowRegistrationFailed path message))
  if definition.startNode ∉ nodeIds then
    refuse "workflow start_node is not present in the definition"
  else
    match definition.terminalNodes.find? (· ∉ nodeIds) with
    | some terminal => refuse s!"workflow terminal node {terminal} is not present in the definition"
    | none =>
      match definition.nodes.find? fun node =>
          (index.get node.capabilityId node.capabilityVersion).isNone with
      | some node =>
        refuse (s!"workflow node {node.nodeId} references capability {node.capabilityId}@" ++
          s!"{node.capabilityVersion} missing from the metadata index")
      | none =>
        match definition.edges.find? fun edge =>
            edge.fromNode ∉ nodeIds ∨ edge.toNode ∉ nodeIds with
        | some edge => refuse s!"workflow edge {edge.edgeId} references a missing node"
        | none =>
          match workflowHasCycle definition.edges nodeIds with
          | none => none
          | some true => refuse "workflow topology contains a cycle"
          | some false => some (.ok ())

theorem mem_directTargets {edges : List WorkflowEdge} {nodeIds : List String} {a b : String} :
    b ∈ directTargets edges nodeIds a ↔ a ∈ nodeIds ∧ ∃ edge ∈ edges,
      edge.trigger = .direct ∧ edge.fromNode = a ∧ edge.toNode = b := by
  unfold directTargets
  split <;> simp [*, and_assoc]

theorem workflowHasCycle_isSome (edges : List WorkflowEdge) (nodeIds : List String) :
    (workflowHasCycle edges nodeIds).isSome := by
  have hcard : (nodeIds ++ edges.map (·.toNode)).toFinset.card ≤ nodeIds.length + edges.length := by
    refine (toFinset_card_le _).trans ?_
    rw [length_append, length_map]
  rw [workflowHasCycle, Option.isSome_map]
  refine Graph.anyCycle_isSome fun node hnode visited =>
    Graph.dfsCycle_isSome (nodeIds ++ edges.map (·.toNode)).toFinset ?_ ?_ ?_
  · intro a _ b hb
    obtain ⟨-, edge, hedge, -, -, rfl⟩ := mem_directTargets.1 hb
    exact mem_toFinset.2 (mem_append_right _ (mem_map_of_mem hedge))
  · exact mem_toFinset.2 (mem_append_left _ hnode)
  · have := Finset.card_filter_le (nodeIds ++ edges.map (·.toNode)).toFinset (· ∉ [])
    omega

theorem workflowHasCycle_search {edges : List WorkflowEdge} {nodeIds : List String} {found : Bool}
    (h : workflowHasCycle edges nodeIds = some found) :
    found = true ↔ ∃ a, TransGen (Graph.Edge (directTargets edges nodeIds)) a a := by
  obtain ⟨⟨_, visited⟩, hsearch, rfl⟩ := Option.map_eq_some_iff.1 h
  exact Graph.search_iff hsearch fun a b hab => (mem_directTargets.1 hab).1

theorem workflowHasCycle_iff (edges : List WorkflowEdge) (nodeIds : List String) :
    ∃ found, workflowHasCycle edges nodeIds = some found ∧
      (found = true ↔ ∃ a, TransGen (fun a b => a ∈ nodeIds ∧ b ∈ nodeIds ∧ ∃ edge ∈ edges,
        edge.trigger = .direct ∧ edge.fromNode = a ∧ edge.toNode = b) a a) := by
  obtain ⟨found, hfound⟩ := Option.isSome_iff_exists.1 (workflowHasCycle_isSome edges nodeIds)
  refine ⟨found, hfound, (workflowHasCycle_search hfound).trans ?_⟩
  constructor
  · rintro ⟨a, hloop⟩
    have hwithin := Graph.transGen_within (S := (· ∈ nodeIds))
      (fun a b hab => (mem_directTargets.1 hab).1) hloop
    refine ⟨a, hwithin.lift id ?_⟩
    rintro a b ⟨hab, hb⟩
    obtain ⟨ha, hedge⟩ := mem_directTargets.1 hab
    exact ⟨ha, hb, hedge⟩
  · rintro ⟨a, hloop⟩
    exact ⟨a, hloop.lift id fun a b hab => mem_directTargets.2 ⟨hab.1, hab.2.2⟩⟩

theorem validateWorkflowAgainstIndex_isSome (index : CapabilityMetadataIndex) (path : String) :
    (validateWorkflowAgainstIndex definition index path).isSome := by
  have hcycle := workflowHasCycle_isSome definition.edges (sortedNodeIds definition)
  unfold validateWorkflowAgainstIndex
  simp only
  split
  · rfl
  split
  · rfl
  split
  · rfl
  split
  · rfl
  split
  case _ hnone =>
    rw [hnone] at hcycle
    cases hcycle
  · rfl
  · rfl

/-! ## The edges a traversal can take -/

variable (workflow : WorkflowDefinition)

/-- The only direct edge that leaves `a` leads to `b`; two of them are an error. -/
def Direct (a b : String) : Prop :=
  ∃ edge, (workflow.edges.filter (·.fromNode = a)).filter (·.trigger = .direct) = [edge] ∧
    edge.toNode = b

/-- An edge waits for an event, and no direct edge leaves the same node. -/
def Waits (edge : WorkflowEdge) : Prop :=
  edge ∈ workflow.edges ∧ edge.trigger = .event ∧ edge.event.isSome ∧
    ∀ other ∈ workflow.edges, other.fromNode = edge.fromNode → other.trigger ≠ .direct

def Wakes (a b : String) : Prop :=
  ∃ edge, Waits workflow edge ∧ edge.fromNode = a ∧ edge.toNode = b

/-- A step of a traversal can lead from `a` to `b`. -/
def Follows (a b : String) : Prop :=
  Direct workflow a b ∨ Wakes workflow a b

/-- No edge that waits, at a node that a traversal can come to, is on a cycle. -/
def WaitsOffCycle : Prop :=
  ∀ edge, Waits workflow edge → ReflTransGen (Follows workflow) workflow.startNode edge.fromNode →
    ¬ ReflTransGen (Follows workflow) edge.toNode edge.fromNode

variable {workflow} in
theorem Direct.edge {a b : String} (h : Direct workflow a b) :
    ∃ edge ∈ workflow.edges, edge.trigger = .direct ∧ edge.fromNode = a ∧ edge.toNode = b := by
  obtain ⟨edge, honly, hto⟩ := h
  obtain ⟨hleaves, htrigger⟩ := mem_filter.1 (honly ▸ mem_singleton_self edge)
  obtain ⟨hedge, hfrom⟩ := mem_filter.1 hleaves
  exact ⟨edge, hedge, of_decide_eq_true htrigger, of_decide_eq_true hfrom, hto⟩

section Accepted

variable {definition : WorkflowDefinition} {index : CapabilityMetadataIndex} {path : String}
  (h : validateWorkflowAgainstIndex definition index path = some (.ok ()))

include h

theorem validateWorkflowAgainstIndex_ok :
    (∀ edge ∈ definition.edges,
      edge.fromNode ∈ sortedNodeIds definition ∧ edge.toNode ∈ sortedNodeIds definition) ∧
      workflowHasCycle definition.edges (sortedNodeIds definition) = some false := by
  unfold validateWorkflowAgainstIndex at h
  simp only at h
  split at h
  · cases h
  split at h
  · cases h
  split at h
  · cases h
  split at h
  · cases h
  next hedges =>
  split at h
  · cases h
  · cases h
  case _ hcycle =>
    refine ⟨fun edge hedge => ?_, hcycle⟩
    simpa [not_or] using List.find?_eq_none.1 hedges edge hedge

theorem accepted_direct_acyclic (a : String) : ¬ TransGen (Direct definition) a a := by
  obtain ⟨hedges, hcycle⟩ := validateWorkflowAgainstIndex_ok h
  intro hloop
  refine Bool.false_ne_true ((workflowHasCycle_search hcycle).2 ⟨a, hloop.lift id ?_⟩)
  rintro a b hab
  obtain ⟨edge, hedge, hab⟩ := hab.edge
  exact mem_directTargets.2 ⟨hab.2.1 ▸ (hedges edge hedge).1, edge, hedge, hab⟩

/-- Hence no traversal goes on for ever, if no edge that waits is on a cycle. -/
theorem accepted_follows_acc (hwaits : WaitsOffCycle definition) :
    Acc (flip (Follows definition)) definition.startNode := by
  refine Graph.acc_of_acyclic (sortedNodeIds definition).toFinset ?_ ?_
  · rintro a b (hab | ⟨edge, hedge, -, rfl⟩)
    · obtain ⟨edge, hedge, -, -, rfl⟩ := hab.edge
      exact mem_toFinset.2 ((validateWorkflowAgainstIndex_ok h).1 edge hedge).2
    · exact mem_toFinset.2 ((validateWorkflowAgainstIndex_ok h).1 edge hedge.1).2
  · intro a hreached hcycle
    refine accepted_direct_acyclic h a
      (Graph.transGen_of_no_cycle_through (E := Wakes definition) hcycle ?_ .refl)
    rintro b c ⟨edge, hedge, rfl, rfl⟩ hon
    exact hwaits edge hedge (hreached.trans hon)

end Accepted

/-! ## Brokers with a finite backlog -/

/-- Every event a poll delivers was waiting for its subscription, and is so no longer. -/
def FiniteBacklog {σ : Type} (poll : String → Nat → σ → Except EventError SubscriptionPoll × σ) :
    Prop :=
  ∃ backlog : String → σ → Nat, ∀ id maxEvents w batch w',
    poll id maxEvents w = (.ok batch, w') →
      batch.events.length + backlog id w' ≤ backlog id w

/-- What waits for a subscription, as a poll shows it. -/
def inProcessBacklog (id : String) (b : Events.InProcessBroker) :
    List Events.BrokerEvent :=
  ((b.state.subscriptions id).map fun sub => sub.queue.map (·.shown)).getD []

variable (view : Events.TraverseEvent → TraverseEvent)

/-- `InProcessBroker::poll` as a traversal sees it, between two ticks of the clock. -/
def inProcessPoll (now : Int) (id : String) (maxEvents : Nat) (b : Events.InProcessBroker) :
    Except EventError SubscriptionPoll × Events.InProcessBroker :=
  let polled := b.poll now id maxEvents
  (polled.1.map fun batch => ⟨batch.events.map fun event => ⟨event.cursor, view event.event⟩⟩,
    polled.2)

/-- What a poll returns and what then still waits is what was waiting before, in the same order,
apart from events that have expired. So the events of a subscription are used up by polling. -/
theorem inProcessPoll_finiteBacklog (now : Int) :
    (∀ id maxEvents (b : Events.InProcessBroker),
      (((b.poll now id maxEvents).1.toOption.map (·.events)).getD [] ++
        inProcessBacklog id (b.poll now id maxEvents).2).Sublist (inProcessBacklog id b)) ∧
    FiniteBacklog (inProcessPoll view now) := by
  have hsublist : ∀ id maxEvents (b : Events.InProcessBroker),
      (((b.poll now id maxEvents).1.toOption.map (·.events)).getD [] ++
        inProcessBacklog id (b.poll now id maxEvents).2).Sublist (inProcessBacklog id b) := by
    intro id maxEvents b
    -- the name in the subscription's record is the one it is found under, or nothing is put back
    have hleft : ∀ eventType, (b.checked now id eventType).subscriptions id = none := by
      intro eventType
      unfold Events.InProcessBroker.checked
      rw [Events.BrokerState.pruneExpired_subscriptions]
      simp [Events.BrokerState.eachSubscription]
    rcases b.poll_cases now id maxEvents with
      ⟨-, hr, -⟩ | ⟨sub, hsub, ⟨e, -, hr, -⟩ | ⟨-, queue, hqueue, hr, -⟩⟩
    · simp [hr, Except.toOption]
    · simp [hr, inProcessBacklog, hleft, Except.toOption]
    · have htrimmed : queue.Sublist sub.queue :=
        hqueue ▸ Events.BrokerState.trimmedQueue_sublist _ _
      rw [hr, Events.InProcessBroker.polled]
      by_cases hid : id = sub.subscriptionId
      · subst hid
        simpa [inProcessBacklog, hsub, Except.toOption, ← map_append] using htrimmed.map _
      · simpa [inProcessBacklog, hsub, Except.toOption, Function.update_of_ne hid, hleft] using
          ((take_sublist maxEvents queue).trans htrimmed).map _
  refine ⟨hsublist, fun id b => (inProcessBacklog id b).length, fun id maxEvents b batch b' h => ?_⟩
  have hlength := (hsublist id maxEvents b).length_le
  unfold inProcessPoll at h
  rcases hpoll : b.poll now id maxEvents with ⟨e | polled, b₁⟩
  · rw [hpoll] at h
    cases h
  · rw [hpoll] at h hlength
    cases h
    simpa [Except.toOption] using hlength

/-! ## Loops that take fuel -/

/-- With enough fuel the answer is there, and it is always the same. -/
def Settles {ρ σ : Type} (f : Nat → Option ρ × σ) : Prop :=
  ∃ n r s, ∀ fuel ≥ n, f fuel = (some r, s)

theorem Settles.pure {ρ σ : Type} (r : ρ) (s : σ) : Settles fun _ => (some r, s) :=
  ⟨0, r, s, fun _ _ => rfl⟩

theorem Settles.bind {ρ σ ρ' σ' : Type} {f : Nat → Option ρ × σ} {g : Nat → Option ρ' × σ'}
    (hf : Settles f) (next : ρ → σ → Nat → Option ρ' × σ') (hnext : ∀ r s, Settles (next r s))
    (hg : ∀ fuel r s, f fuel = (some r, s) → g fuel = next r s fuel) : Settles g := by
  obtain ⟨n, r, s, hf⟩ := hf
  obtain ⟨m, r', s', hnext⟩ := hnext r s
  refine ⟨max n m, r', s', fun fuel hfuel => ?_⟩
  rw [hg fuel r s (hf fuel (le_of_max_le_left hfuel)), hnext fuel (le_of_max_le_right hfuel)]

theorem Settles.succ {ρ σ : Type} {f g : Nat → Option ρ × σ} (hf : Settles f)
    (hg : ∀ fuel, g (fuel + 1) = f fuel) : Settles g := by
  obtain ⟨n, r, s, hf⟩ := hf
  refine ⟨n + 1, r, s, fun fuel hfuel => ?_⟩
  obtain ⟨fuel, rfl⟩ := Nat.exists_eq_add_of_le' (Nat.one_le_of_lt hfuel)
  rw [hg, hf fuel (by omega)]

section Settling

variable {σ κ : Type} {services : Services σ κ}

theorem drain_settles (hbacklog : FiniteBacklog services.poll) (id : String)
    (delivered : List BrokerEvent) (w : σ) :
    Settles fun fuel => drain services id fuel delivered w := by
  obtain ⟨backlog, hpoll⟩ := hbacklog
  induction hleft : backlog id w using Nat.strong_induction_on generalizing delivered w with
  | _ left ih =>
    rcases hbatch : services.poll id eventBrokerPollBatch w with ⟨error | batch, w'⟩
    · refine (Settles.pure (.error error) w').succ fun fuel => ?_
      simp only [drain, hbatch]
    by_cases hfull : batch.events.length < eventBrokerPollBatch
    · refine (Settles.pure (.ok (delivered ++ batch.events)) w').succ fun fuel => ?_
      simp only [drain, hbatch, hfull, if_true]
    have hless : backlog id w' < left := by
      have := hpoll id eventBrokerPollBatch w batch w' hbatch
      unfold eventBrokerPollBatch at hfull
      omega
    refine (ih _ hless (delivered ++ batch.events) w' rfl).succ fun fuel => ?_
    simp only [drain, hbatch, hfull, if_false]

theorem pollEventTypes_settles (hbacklog : FiniteBacklog services.poll) (types : List String)
    (records : List EmittedEventRecord) (warnings : List RuntimeWarning) (w : σ) :
    Settles fun fuel => pollEventTypes services fuel types records warnings w := by
  induction types generalizing records warnings w with
  | nil => exact .pure _ _
  | cons eventType rest ih =>
    unfold pollEventTypes
    split
    · exact .pure _ _
    · exact .pure _ _
    next subscription w₁ _ =>
    refine (drain_settles hbacklog subscription.subscriptionId [] w₁).bind
      (fun drained w fuel => drained.casesOn
        (fun error => (some (.error (.brokerUnavailable error.display)),
          (services.cancel subscription.subscriptionId w).2))
        fun delivered => pollEventTypes services fuel rest
          (records ++ delivered.map (brokerRecord eventType subscription.subscriptionId))
          (warnings ++ cancelWarning subscription.subscriptionId
            (services.cancel subscription.subscriptionId w).1)
          (services.cancel subscription.subscriptionId w).2) ?_ ?_
    · intro drained w
      cases drained with
      | error error => exact .pure _ _
      | ok delivered => exact ih _ _ _
    · intro fuel drained w hdrained
      simp only [hdrained]
      cases drained <;> rfl

namespace Runtime

variable {rt : Runtime σ κ}

section

variable (hbacklog : FiniteBacklog rt.services.poll) (request : WorkflowExecutionRequest)
  (workflow : WorkflowDefinition)

include hbacklog

theorem awaitEvents_settles (node : WorkflowNode)
    (events : List EmittedEventRecord) (t : Traversal) (w : σ) :
    Settles fun fuel => rt.awaitEvents fuel request workflow node (outgoingEdges workflow node)
      events t w := by
  obtain ⟨n, r, w', hpolled⟩ : Settles fun fuel => pollBrokerEventsForWaitingEdges rt.services fuel
      (unresolvedEdges request workflow node events t) w :=
    pollEventTypes_settles hbacklog _ [] [] w
  unfold unresolvedEdges ownEvaluation waitingEdges at hpolled
  unfold awaitEvents
  simp only
  split
  · exact .pure _ _
  -- the rest of the body does not look at the fuel
  rcases r with (eventType | detail) | polled
  · exact ⟨n, _, _, fun fuel hfuel => by simp only [hpolled fuel hfuel]; rfl⟩
  · exact ⟨n, _, _, fun fuel hfuel => by simp only [hpolled fuel hfuel]; rfl⟩
  · exact ⟨n, _, _, fun fuel hfuel => by simp only [hpolled fuel hfuel]; rfl⟩

theorem takeEdge_settles (node : WorkflowNode)
    (events : List EmittedEventRecord) (t : Traversal) (s : State σ κ) :
    Settles fun fuel => rt.takeEdge fuel request workflow node events t s := by
  unfold takeEdge
  simp only
  split
  · exact .pure _ _
  · exact .pure _ _
  refine (awaitEvents_settles hbacklog request workflow node events t s.world).bind
    (fun r w _ => (some r, { s with world := w })) (fun r w => .pure _ _) ?_
  intro fuel r w hawaited
  exact congrArg (fun awaited => (awaited.1, { s with world := awaited.2 })) hawaited

theorem visitNode_settles (t : Traversal)
    (s : State σ κ) : Settles fun fuel => rt.visitNode fuel request workflow t s := by
  unfold visitNode
  split
  · exact .pure _ _
  simp only
  split
  · exact .pure _ _
  split
  · exact .pure _ _
  split
  · exact .pure _ _
  · exact takeEdge_settles hbacklog request workflow _ _ _ _

end

/-! ## Where a visit leads -/

variable {recordPrefix id : String} {events : List EmittedEventRecord}
  {request : WorkflowExecutionRequest} {workflow : WorkflowDefinition} {node : WorkflowNode}
  {taken : List String} {t t' : Traversal} {fuel : Nat} {s : State σ κ}

theorem takenEdgeIds_considerEdge {eventIndex : Nat} {event : EmittedEventRecord}
    {edges : List WaitingWorkflowEdgeContext} {e : EdgeEvaluation}
    (h : id ∈ (edges.foldl (considerEdge recordPrefix eventIndex event) e).takenEdgeIds) :
    id ∈ e.takenEdgeIds ∨ ∃ edge ∈ edges, edge.edgeId = id := by
  induction edges generalizing e with
  | nil => exact .inl h
  | cons edge edges ih =>
    obtain htaken | ⟨other, hother, hid⟩ := ih h
    · unfold considerEdge at htaken
      simp only at htaken
      split at htaken
      · exact .inl htaken
      split at htaken
      · exact .inl htaken
      split at htaken
      · exact .inl htaken
      obtain htaken | hid := mem_append.1 htaken
      · exact .inl htaken
      · exact .inr ⟨edge, mem_cons_self, (mem_singleton.1 hid).symm⟩
    · exact .inr ⟨other, mem_cons_of_mem edge hother, hid⟩

theorem takenEdgeIds_evaluate {waiting : List WaitingWorkflowEdgeContext} {consumed : List String}
    (h : id ∈ (evaluateEventDrivenEdges waiting events consumed recordPrefix).takenEdgeIds) :
    ∃ edge ∈ waiting, edge.edgeId = id := by
  have hordered : ∀ edge ∈ waiting.insertionSort edgeOrder, edge ∈ waiting :=
    fun edge hedge => (mem_insertionSort edgeOrder).1 hedge
  have hnotes : ∀ (edges : List WaitingWorkflowEdgeContext) (e : EdgeEvaluation)
      (record : WaitingWorkflowEdgeContext → EventMatchRecord),
      (edges.foldl (fun e edge => e.note (record edge)) e).takenEdgeIds = e.takenEdgeIds := by
    intro edges e record
    induction edges generalizing e with
    | nil => rfl
    | cons edge edges ih => exact ih (e.note (record edge))
  have hevents : ∀ (numbered : List (EmittedEventRecord × Nat)) (e : EdgeEvaluation),
      id ∈ (numbered.foldl (fun e event => (waiting.insertionSort edgeOrder).foldl
        (considerEdge recordPrefix event.2 event.1) e) e).takenEdgeIds →
      id ∈ e.takenEdgeIds ∨ ∃ edge ∈ waiting.insertionSort edgeOrder, edge.edgeId = id := by
    intro numbered
    induction numbered with
    | nil => exact fun e he => .inl he
    | cons event numbered ih =>
      intro e he
      obtain htaken | hfound := ih _ he
      · exact takenEdgeIds_considerEdge htaken
      · exact .inr hfound
  unfold evaluateEventDrivenEdges at h
  split at h
  · rw [hnotes] at h
    cases h
  · obtain hnone | ⟨edge, hedge, hid⟩ := hevents _ _ h
    · cases hnone
    · exact ⟨edge, hordered edge hedge, hid⟩

theorem chooseEdge_ok {outgoing : List WorkflowEdge}
    (h : chooseEdge request workflow node outgoing taken t = .ok t') :
    ∃ edge, outgoing.filter (fun edge => taken.contains edge.edgeId) = [edge] ∧
      t'.current = edge.toNode := by
  unfold chooseEdge at h
  split at h
  · cases h
  case _ edge hedge =>
    cases h
    exact ⟨edge, hedge, rfl⟩
  · split at h
    · simp only at h
      split at h <;> cases h
    · cases h

section

variable (hdirect : (outgoingEdges workflow node).filter (fun edge => edge.trigger = .direct) = [])

include hdirect

/-- The one edge that is chosen among those with an id that was taken is the edge that waited under
this id. -/
theorem chooseEdge_wakes
    (htaken : ∀ id ∈ taken, ∃ context ∈ waitingEdges request workflow node, context.edgeId = id)
    (h : chooseEdge request workflow node (outgoingEdges workflow node) taken t = .ok t') :
    Wakes workflow node.nodeId t'.current := by
  obtain ⟨edge, hedge, hto⟩ := chooseEdge_ok h
  have hfound : edge ∈ outgoingEdges workflow node ∧ edge.edgeId ∈ taken := by
    have hmem := mem_singleton.2 (rfl : edge = edge)
    rw [← hedge] at hmem
    simpa using mem_filter.1 hmem
  obtain ⟨context, hcontext, hid⟩ := htaken _ hfound.2
  obtain ⟨waiting, hwaiting, htrigger, eventRef, hevent, rfl⟩ := mem_waitingEdges.1 hcontext
  obtain rfl : waiting = edge := by
    rw [← mem_singleton, ← hedge]
    exact mem_filter.2 ⟨hwaiting, by simpa [← hid] using hfound.2⟩
  obtain ⟨hmem, hfrom⟩ := mem_filter.1 hwaiting
  refine ⟨_, ⟨hmem, htrigger, by rw [hevent]; rfl, ?_⟩, of_decide_eq_true hfrom, hto.symm⟩
  intro other hother hsame hother'
  have hnone := filter_eq_nil_iff.1 hdirect other
    (mem_filter.2 ⟨hother, by simpa [hsame] using hfrom⟩)
  exact hnone (decide_eq_true hother')

theorem awaitEvents_follows {w : σ}
    (h : (rt.awaitEvents fuel request workflow node (outgoingEdges workflow node) events t w).1 =
      some (.ok t')) :
    Wakes workflow node.nodeId t'.current := by
  have hown : ∀ id ∈ (ownEvaluation request workflow node events t).takenEdgeIds,
      ∃ context ∈ waitingEdges request workflow node, context.edgeId = id :=
    fun id hid => takenEdgeIds_evaluate hid
  unfold awaitEvents at h
  simp only at h
  split at h
  · exact chooseEdge_wakes hdirect hown (Option.some.inj h)
  split at h
  · cases h
  · cases h
  · cases h
  · refine chooseEdge_wakes hdirect (fun id hid => ?_) (Option.some.inj h)
    obtain hid | hid := mem_append.1 hid
    · exact hown id hid
    · obtain ⟨context, hcontext, rfl⟩ := takenEdgeIds_evaluate hid
      exact ⟨context, mem_of_mem_filter hcontext, rfl⟩

end

theorem takeEdge_follows
    (h : (rt.takeEdge fuel request workflow node events t s).1 = some (.ok t')) :
    Follows workflow node.nodeId t'.current := by
  unfold takeEdge at h
  simp only at h
  split at h
  · cases h
  case _ edge hedge =>
    cases h
    exact .inl ⟨edge, hedge, rfl⟩
  case _ hdirect => exact .inr (awaitEvents_follows hdirect h)

theorem visitNode_follows (h : (rt.visitNode fuel request workflow t s).1 = some (.ok t')) :
    Follows workflow t.current t'.current := by
  unfold visitNode at h
  split at h
  · cases h
  next node hnode =>
  have hcurrent : node.nodeId = t.current := by simpa using List.find?_some hnode
  simp only at h
  split at h
  · cases h
  split at h
  · cases h
  split at h
  · cases h
  · rw [← hcurrent]
    exact takeEdge_follows h

/-! ## The loop -/

theorem traverse_returns (hbacklog : FiniteBacklog rt.services.poll)
    (request : WorkflowExecutionRequest) (workflow : WorkflowDefinition) {a : String}
    (ha : Acc (flip (Follows workflow)) a) (t : Traversal) (hcurrent : t.current = a)
    (s : State σ κ) :
    ∃ rounds, ∀ fuel ≥ rounds, ∀ n ≥ rounds,
      (rt.traverse fuel request workflow n t s).1.isSome := by
  induction ha generalizing t s with
  | intro a _ ih =>
    obtain ⟨enough, r, s', hvisit⟩ := visitNode_settles hbacklog request workflow t s
    cases r with
    | error outcome =>
      refine ⟨enough + 1, fun fuel hfuel n hn => ?_⟩
      obtain ⟨n, rfl⟩ := Nat.exists_eq_add_of_le' (Nat.one_le_of_lt hn)
      simp only [traverse, hvisit fuel (by omega), Option.isSome_some]
    | ok t' =>
      have hfollows : Follows workflow t.current t'.current :=
        visitNode_follows (congrArg Prod.fst (hvisit enough le_rfl))
      obtain ⟨rounds, hrounds⟩ := ih t'.current (hcurrent ▸ hfollows) t' rfl s'
      refine ⟨max enough rounds + 1, fun fuel hfuel n hn => ?_⟩
      obtain ⟨n, rfl⟩ := Nat.exists_eq_add_of_le' (Nat.one_le_of_lt hn)
      simp only [traverse, hvisit fuel (by omega)]
      exact hrounds fuel (by omega) n (by omega)

/-- An accepted workflow without a cycle that can be reached and waits ends, over every registry, in
every security mode, with every executor and every broker with a finite backlog. -/
theorem accepted_workflow_terminates (rt : Runtime σ κ) (request : WorkflowExecutionRequest)
    (workflow : WorkflowDefinition) (index : CapabilityMetadataIndex) (path : String)
    (s : State σ κ) (haccepted : validateWorkflowAgainstIndex workflow index path = some (.ok ()))
    (hwaits : WaitsOffCycle workflow) (hbacklog : FiniteBacklog rt.services.poll) :
    ∃ rounds, ∀ fuel ≥ rounds, (rt.traverseWorkflow fuel request workflow s).1.isSome := by
  obtain ⟨rounds, hrounds⟩ := traverse_returns hbacklog request workflow
    (accepted_follows_acc haccepted hwaits) (.start request.input workflow) rfl s
  exact ⟨rounds, fun fuel hfuel => hrounds fuel hfuel fuel hfuel⟩

end Runtime

end Settling

/-! ## A loop over an event -/

namespace Runtime

def againEdge : WorkflowEdge := ⟨"again", "only", "only", .event, some ⟨"done", "1.0.0"⟩, none⟩

def loopWorkflow : WorkflowDefinition := waitingWorkflow [againEdge]

def sampleIndex : CapabilityMetadataIndex :=
  ⟨[("cap@1.0.0", ⟨"app", "1.0.0", "component", "1.0.0", "cap", "1.0.0", none⟩)], []⟩

def loopOutput (k : Nat) : LocalExecutionOutput := ⟨.obj [], List.replicate (k + 1) doneEvent⟩

/-- Call `k` of `cap`, from 0 on, emits `k + 1` events; the broker has nothing stored. -/
def countingServices : Services Nat Unit where
  execute := fun _ _ k => (.ok (loopOutput k), k + 1)
  read := fun _ _ => .error "No such file or directory"
  hydrate := fun _ _ _ cache => (.error ⟨"indexed_capability_missing", ""⟩, cache)
  publish := fun _ w => (.ok (), w)
  subscribe := (BrokerQueries.quiet Nat).subscribe
  poll := (BrokerQueries.quiet Nat).poll
  cancel := (BrokerQueries.quiet Nat).cancel
  emit := fun _ w => (.ok (), w)
  poisoned := fun _ => false
  now := fun _ => "2026-01-01T00:00:00Z"
  uuid := fun _ => "00000000-0000-4000-8000-000000000000"
  elapsedMs := fun _ => 0

def countingRuntime : Runtime Nat Unit where
  registry := (emittingRuntime (.obj [])).registry
  findWorkflow := fun _ _ _ => none
  indexedWorkflows := []
  capabilityMetadata := sampleIndex
  services := countingServices
  primitives := barePrimitives
  semver := bareRuntime.semver
  security := .production

theorem countingServices_finiteBacklog : FiniteBacklog countingServices.poll := by
  refine ⟨fun _ _ => 0, fun id maxEvents w batch w' h => ?_⟩
  cases h
  rfl

def forwardWorkflow : WorkflowDefinition :=
  { waitingWorkflow [doneEdge] with
    nodes := [onlyNode, { onlyNode with nodeId := "next" }]
    terminalNodes := ["next"] }

theorem forwardWorkflow_waitsOffCycle : WaitsOffCycle forwardWorkflow := by
  rintro edge ⟨hedge, -⟩ - hpath
  rw [mem_singleton.1 hedge] at hpath
  obtain hsame | ⟨_, hstep, -⟩ := hpath.cases_head
  · exact absurd hsame (by decide)
  obtain hdirect | ⟨other, hother, hfrom, -⟩ := hstep
  · obtain ⟨other, hother, -, hfrom, -⟩ := hdirect.edge
    rw [mem_singleton.1 hother] at hfrom
    exact absurd hfrom (by decide)
  · rw [mem_singleton.1 hother.1] at hfrom
    exact absurd hfrom (by decide)

theorem forwardWorkflow_terminates : ∃ rounds, ∀ fuel ≥ rounds,
    (countingRuntime.traverseWorkflow fuel stepRequest forwardWorkflow
      ⟨0, (), fun _ => none, [], [], []⟩).1.isSome :=
  accepted_workflow_terminates countingRuntime stepRequest forwardWorkflow sampleIndex
    "workflow.json" _ (by decide +kernel) forwardWorkflow_waitsOffCycle
    countingServices_finiteBacklog

def loopRecord (k : Nat) : EmittedEventRecord :=
  ⟨s!"event_record_{k}", ⟨"done", "1.0.0"⟩, some .null, none⟩

def loopContext : WaitingWorkflowEdgeContext :=
  ⟨"workflow_exec_r1", "again", "only", "only", ⟨"done", "1.0.0"⟩, none⟩

def loopKey (record : EmittedEventRecord) : String :=
  s!"{record.recordId}|{loopContext.workflowExecutionId}|{loopContext.edgeId}"

theorem loopKey_injective {i k : Nat} (h : loopKey (loopRecord i) = loopKey (loopRecord k)) :
    i = k := by
  simp only [loopKey, String.append_left_inj] at h
  exact Decimal.repr_injective ((String.append_right_inj "event_record_").1 h)

/-- The record takes the edge, unless it did so before. -/
theorem considerEdge_loop {recordPrefix : String} {eventIndex k : Nat} {e : EdgeEvaluation} :
    let after := considerEdge recordPrefix eventIndex (loopRecord k) e loopContext
    (loopKey (loopRecord k) ∈ e.consumed ∧ after.consumed = e.consumed ∧
        after.takenEdgeIds = e.takenEdgeIds) ∨
      (after.consumed = e.consumed ++ [loopKey (loopRecord k)] ∧
        "again" ∈ after.takenEdgeIds) := by
  have hevent : ¬ (loopRecord k).event ≠ loopContext.eventRef := fun h => h rfl
  have hpredicate : ¬ loopContext.predicate.any (fun predicate =>
      !predicatePassed (loopRecord k) predicate) = true := Bool.false_ne_true
  unfold considerEdge
  simp only [if_neg hevent, if_neg hpredicate]
  split
  case isTrue hmem => exact .inl ⟨contains_iff_mem.1 hmem, rfl, rfl⟩
  · exact .inr ⟨rfl, mem_append_right _ (mem_singleton.2 rfl)⟩

theorem foldl_loop (recordPrefix : String) {numbered : List (EmittedEventRecord × Nat)} {n : Nat}
    (hnumbered : ∀ x ∈ numbered, ∃ i < n, x.1 = loopRecord i) (e : EdgeEvaluation) :
    let after := numbered.foldl (fun e event => [loopContext].foldl
      (considerEdge recordPrefix event.2 event.1) e) e
    (∀ key ∈ after.consumed, key ∈ e.consumed ∨ ∃ i < n, key = loopKey (loopRecord i)) ∧
      ("again" ∈ e.takenEdgeIds ∨ (∃ x ∈ numbered, loopKey x.1 ∉ e.consumed) →
        "again" ∈ after.takenEdgeIds) := by
  induction numbered generalizing e with
  | nil => exact ⟨fun key hkey => .inl hkey, by simp⟩
  | cons x numbered ih =>
    obtain ⟨i, hi, hx⟩ := hnumbered x mem_cons_self
    obtain ⟨hconsumed, htaken⟩ := ih (fun y hy => hnumbered y (mem_cons_of_mem x hy))
      (considerEdge recordPrefix x.2 x.1 e loopContext)
    rw [hx] at hconsumed htaken
    rw [foldl_cons, foldl_cons, foldl_nil, hx]
    obtain ⟨hold, hsame, hids⟩ | ⟨hnew, hagain⟩ := considerEdge_loop
    · rw [hsame] at hconsumed
      rw [hsame, hids] at htaken
      refine ⟨hconsumed, fun h => htaken (h.imp_right ?_)⟩
      rintro ⟨y, hy, hfresh⟩
      obtain rfl | hy := mem_cons.1 hy
      · exact absurd hold (hx ▸ hfresh)
      · exact ⟨y, hy, hfresh⟩
    · refine ⟨fun key hkey => ?_, fun _ => htaken (.inl hagain)⟩
      obtain hkey | hkey := hconsumed key hkey
      · rw [hnew] at hkey
        obtain hkey | hkey := mem_append.1 hkey
        · exact .inl hkey
        · exact .inr ⟨i, hi, mem_singleton.1 hkey⟩
      · exact .inr hkey

/-- The `k`-th round is to come; what was consumed has lower numbers. -/
structure LoopAt (k : Nat) (t : Traversal) (s : State Nat Unit) : Prop where
  world : s.world = k
  current : t.current = "only"
  consumed : ∀ key ∈ t.consumed, ∃ i < k, key = loopKey (loopRecord i)

/-- The `k`-th record is new in the `k`-th round. -/
theorem loop_evaluation {k : Nat} {t : Traversal}
    (h : ∀ key ∈ t.consumed, ∃ i < k, key = loopKey (loopRecord i)) :
    let own := ownEvaluation stepRequest loopWorkflow onlyNode (nodeEvents (loopOutput k)) t
    "again" ∈ own.takenEdgeIds ∧
      ∀ key ∈ own.consumed, ∃ i < k + 1, key = loopKey (loopRecord i) := by
  have hrecords : ∀ x ∈ (nodeEvents (loopOutput k)).zipIdx,
      ∃ i < k + 1, x.1 = loopRecord i := by
    intro x hx
    obtain ⟨⟨event, i⟩, hevent, hrecord⟩ := mem_map.1 (fst_mem_of_mem_zipIdx hx)
    rw [mem_zipIdx_iff_getElem?, loopOutput, List.getElem?_replicate] at hevent
    split at hevent
    case isTrue hi =>
      cases hevent
      exact ⟨i, hi, hrecord.symm⟩
    · cases hevent
  have hlast : (loopRecord k, k) ∈
      (nodeEvents (loopOutput k)).zipIdx := by
    rw [mem_zipIdx_iff_getElem?, nodeEvents, List.getElem?_map, List.getElem?_zipIdx,
      loopOutput, List.getElem?_replicate, if_pos (Nat.lt_succ_self k), Nat.zero_add]
    rfl
  have hfresh : loopKey (loopRecord k) ∉ t.consumed := by
    intro hmem
    obtain ⟨i, hi, hkey⟩ := h _ hmem
    exact absurd (loopKey_injective hkey) (by omega)
  obtain ⟨hconsumed, htaken⟩ := foldl_loop s!"{stepRequest.requestId}:step:{t.stepIndex}:local"
    hrecords ⟨[], .empty, t.consumed, 1⟩
  refine ⟨htaken (.inr ⟨_, hlast, hfresh⟩), fun key hkey => ?_⟩
  obtain hkey | hkey := hconsumed key hkey
  · obtain ⟨i, hi, rfl⟩ := h key hkey
    exact ⟨i, by omega, rfl⟩
  · exact hkey

theorem publishAll_world (s : State Nat Unit) (events : List TraverseEvent) :
    (s.publishAll countingServices events).world = s.world := by
  induction events generalizing s with
  | nil => rfl
  | cons event events ih => exact ih (s.publish countingServices event)

theorem loop_settleNode (k : Nat) (t : Traversal) (s : State Nat Unit) :
    ∃ settled s', settled.consumed = t.consumed ∧ s'.world = s.world ∧
      countingRuntime.settleNode stepRequest onlyNode (emittingCapability (.obj []))
        (.ok (loopOutput k)) t s = (.ok (settled, nodeEvents (loopOutput k)), s') := by
  have hdeclared : validateNativelyEmittedEvents (emittingCapability (.obj [])).contract
      (loopOutput k).emittedEvents = .ok () := by
    have hfind : (loopOutput k).emittedEvents.find? (fun event =>
        !(emittingCapability (.obj [])).contract.emits.contains event.reference) = none := by
      rw [List.find?_eq_none]
      intro event hevent
      rw [eq_of_mem_replicate hevent]
      decide
    unfold validateNativelyEmittedEvents
    rw [hfind]
    rfl
  have hvalid : validatePayloadAgainstContract (loopOutput k).value
      (emittingCapability (.obj [])).contract.outputs .outputValidationFailed
      "workflow node output does not satisfy the capability output contract" = .ok () := rfl
  unfold settleNode
  simp only [hvalid, hdeclared]
  refine ⟨_, _, ?_, publishAll_world s _, rfl⟩
  unfold Traversal.mark
  split <;> rfl

/-- A round runs the capability and comes back to its node. -/
theorem loop_visit {fuel k : Nat} {t : Traversal} {s : State Nat Unit} (h : LoopAt k t s) :
    ∃ t' s', countingRuntime.visitNode fuel stepRequest loopWorkflow t s = (some (.ok t'), s') ∧
      LoopAt (k + 1) t' s' := by
  have hnode : loopWorkflow.nodes.find? (fun node => node.nodeId = t.current) = some onlyNode := by
    rw [h.current]
    rfl
  have hresolved : countingRuntime.resolveNode stepRequest onlyNode (t.enter onlyNode) s =
      (.ok (emittingCapability (.obj [])), s) := rfl
  have hchecked : countingRuntime.checkNode stepRequest onlyNode (emittingCapability (.obj []))
      (t.enter onlyNode) s.world = .ok ((t.enter onlyNode).warn [], .obj []) := rfl
  obtain ⟨called, hworld, hcalled⟩ : ∃ called : State Nat Unit, called.world = k + 1 ∧
      s.callExecutor countingServices (emittingCapability (.obj [])) (.obj []) =
        (.ok (loopOutput k), called) := by
    refine ⟨(s.callExecutor countingServices (emittingCapability (.obj [])) (.obj [])).2,
      congrArg (· + 1) h.world, Prod.ext ?_ rfl⟩
    rw [← h.world]
    rfl
  obtain ⟨settled, s', hconsumed, hkept, hsettled⟩ :=
    loop_settleNode k ((t.enter onlyNode).warn []) called
  obtain ⟨hagain, hkeys⟩ := loop_evaluation (hconsumed ▸ h.consumed)
  have hunresolved : unresolvedEdges stepRequest loopWorkflow onlyNode
      (nodeEvents (loopOutput k)) settled = [] := by
    refine filter_eq_nil_iff.2 fun context hcontext => ?_
    have hid : context.edgeId = "again" :=
      congrArg WaitingWorkflowEdgeContext.edgeId (mem_singleton.1 hcontext)
    rw [hid, contains_iff_mem.2 hagain]
    decide
  obtain ⟨noted, -, hnoted, hawait⟩ := @awaitEvents_own _ _ countingRuntime _ _ _ _ _ fuel
    s'.world hunresolved
  have hchosen : chooseEdge stepRequest loopWorkflow onlyNode (outgoingEdges loopWorkflow onlyNode)
      (ownEvaluation stepRequest loopWorkflow onlyNode (nodeEvents (loopOutput k))
        settled).takenEdgeIds noted = .ok (noted.follow againEdge) := by
    have hfollowed : (outgoingEdges loopWorkflow onlyNode).filter (fun edge =>
        (ownEvaluation stepRequest loopWorkflow onlyNode (nodeEvents (loopOutput k))
          settled).takenEdgeIds.contains edge.edgeId) = [againEdge] :=
      filter_cons_of_pos (contains_iff_mem.2 hagain)
    rw [chooseEdge, hfollowed]
  have htaken : countingRuntime.takeEdge fuel stepRequest loopWorkflow onlyNode
      (nodeEvents (loopOutput k)) settled s' = (some (.ok (noted.follow againEdge)), s') :=
    congrArg (fun awaited => (awaited.1, { s' with world := awaited.2 })) (hchosen ▸ hawait)
  refine ⟨noted.follow againEdge, s', ?_, hkept.trans hworld, rfl, hnoted ▸ hkeys⟩
  unfold visitNode
  simp only [hnode, hresolved, hchecked]
  rw [show countingRuntime.services = countingServices from rfl, hcalled]
  simp only [hsettled, htaken]

/-- The validation accepts the loop, and no amount of fuel sees it end. -/
theorem event_loop_runs_on :
    validateWorkflowAgainstIndex loopWorkflow sampleIndex "workflow.json" = some (.ok ()) ∧
      FiniteBacklog countingRuntime.services.poll ∧
      ∀ fuel s, (countingRuntime.traverseWorkflow fuel stepRequest loopWorkflow s).1 = none := by
  refine ⟨by decide +kernel, countingServices_finiteBacklog, fun fuel s => ?_⟩
  have hrounds : ∀ rounds k t (s : State Nat Unit), LoopAt k t s →
      (countingRuntime.traverse fuel stepRequest loopWorkflow rounds t s).1 = none := by
    intro rounds
    induction rounds with
    | zero => exact fun _ _ _ _ => rfl
    | succ rounds ih =>
      intro k t s h
      obtain ⟨t', s', hvisit, hnext⟩ := loop_visit h
      rw [traverse, hvisit]
      exact ih (k + 1) t' s' hnext
  exact hrounds fuel s.world _ s ⟨rfl, rfl, fun key hkey => nomatch hkey⟩

end Runtime

end Traverse.Execution

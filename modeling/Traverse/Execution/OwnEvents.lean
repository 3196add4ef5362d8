import Mathlib.Data.List.Dedup
import Traverse.Execution.Gates

/-!
# Execution.OwnEvents

A step that its own events decide. Edges that wait for an event are first matched with what the node
emitted, and those that were not are looked up in the broker, also when one of them has been
matched. The broker then still has a say: it can refuse the subscription, or satisfy a second edge.

* `own_events_decide_iff`: the edge that the own events match is taken whatever the broker does
  exactly if no other edge of the step waits.
* `sibling_asks_broker`: with another edge waiting, two brokers and two ends of one step.
-/

namespace Traverse.Execution

open List

open Events (EventError)

/-- What `EventBroker` offers a traversal that waits. -/
structure BrokerQueries (σ : Type) where
  subscribe : (eventType fromCursor : String) → σ → Except EventError Subscription × σ
  poll : String → Nat → σ → Except EventError SubscriptionPoll × σ
  cancel : String → σ → Except EventError Unit × σ

def BrokerQueries.failing (σ : Type) : BrokerQueries σ where
  subscribe := fun _ _ w => (.error (.journalRead "unreachable"), w)
  poll := fun _ _ w => (.error (.journalRead "unreachable"), w)
  cancel := fun _ w => (.error (.journalRead "unreachable"), w)

def BrokerQueries.quiet (σ : Type) : BrokerQueries σ where
  subscribe := fun eventType _ w => (.ok ⟨eventType⟩, w)
  poll := fun _ _ w => (.ok ⟨[]⟩, w)
  cancel := fun _ w => (.ok (), w)

def outgoingEdges (workflow : WorkflowDefinition) (node : WorkflowNode) : List WorkflowEdge :=
  workflow.edges.filter fun edge => edge.fromNode = node.nodeId

variable (request : WorkflowExecutionRequest) (workflow : WorkflowDefinition) (node : WorkflowNode)

/-- The edges of a step that wait for an event. -/
def waitingEdges : List WaitingWorkflowEdgeContext :=
  waitingEdgeContexts s!"workflow_exec_{request.requestId}"
    ((outgoingEdges workflow node).filter fun edge => edge.trigger = .event)

variable (events : List EmittedEventRecord) (t : Traversal)

/-- The first pass over them, with the events of the node. -/
def ownEvaluation : EdgeEvaluation :=
  evaluateEventDrivenEdges (waitingEdges request workflow node) events t.consumed
    s!"{request.requestId}:step:{t.stepIndex}:local"

/-- The outgoing edges that the events of the node match. -/
def ownMatches : List WorkflowEdge :=
  (outgoingEdges workflow node).filter fun edge =>
    (ownEvaluation request workflow node events t).takenEdgeIds.contains edge.edgeId

/-- The waiting edges that are left for the broker. -/
def unresolvedEdges :
    List WaitingWorkflowEdgeContext :=
  (waitingEdges request workflow node).filter fun context =>
    !(ownEvaluation request workflow node events t).takenEdgeIds.contains context.edgeId

def Takes (edge : WorkflowEdge)
    (result : Option (Except WorkflowExecutionOutcome Traversal)) : Prop :=
  ∃ next, result = some (.ok next) ∧ next.current = edge.toNode ∧
    next.traversed = t.traversed ++ [Traversal.edgeRecord edge]

theorem mem_waitingEdges {request : WorkflowExecutionRequest} {workflow : WorkflowDefinition}
    {node : WorkflowNode} {context : WaitingWorkflowEdgeContext} :
    context ∈ waitingEdges request workflow node ↔
      ∃ edge ∈ outgoingEdges workflow node, edge.trigger = .event ∧ ∃ eventRef,
        edge.event = some eventRef ∧ context = ⟨s!"workflow_exec_{request.requestId}", edge.edgeId,
          edge.fromNode, edge.toNode, eventRef, edge.predicate⟩ := by
  unfold waitingEdges waitingEdgeContexts
  simp only [mem_filterMap, mem_filter, decide_eq_true_eq, Option.map_eq_some_iff]
  constructor
  · rintro ⟨edge, ⟨hedge, htrigger⟩, eventRef, hevent, rfl⟩
    exact ⟨edge, hedge, htrigger, eventRef, hevent, rfl⟩
  · rintro ⟨edge, hedge, htrigger, eventRef, hevent, rfl⟩
    exact ⟨edge, ⟨hedge, htrigger⟩, eventRef, hevent, rfl⟩

namespace Runtime

variable {σ κ : Type}

/-- The runtime with another broker behind it. -/
def withBroker (rt : Runtime σ κ) (broker : BrokerQueries σ) : Runtime σ κ :=
  { rt with services := { rt.services with
      subscribe := broker.subscribe
      poll := broker.poll
      cancel := broker.cancel } }

variable {rt : Runtime σ κ} {request : WorkflowExecutionRequest} {workflow : WorkflowDefinition}
  {node : WorkflowNode} {events : List EmittedEventRecord} {t : Traversal}

variable {fuel : Nat} {w : σ} {edge : WorkflowEdge}

theorem takeEdge_eq_await {s : State σ κ}
    (hdirect : (outgoingEdges workflow node).filter (fun edge => edge.trigger = .direct) = []) :
    (rt.takeEdge fuel request workflow node events t s).1 =
      (rt.awaitEvents fuel request workflow node (outgoingEdges workflow node) events t
        s.world).1 := by
  unfold takeEdge
  simp only
  rw [show workflow.edges.filter (fun edge => edge.fromNode = node.nodeId) =
    outgoingEdges workflow node from rfl, hdirect]

theorem awaitEvents_own (hresolved : unresolvedEdges request workflow node events t = []) :
    ∃ noted : Traversal, noted.traversed = t.traversed ∧
      noted.consumed = (ownEvaluation request workflow node events t).consumed ∧
      rt.awaitEvents fuel request workflow node (outgoingEdges workflow node) events t w =
        (some (chooseEdge request workflow node (outgoingEdges workflow node)
          (ownEvaluation request workflow node events t).takenEdgeIds noted), w) := by
  refine ⟨_, ?_, ?_, if_pos (List.isEmpty_iff.2 hresolved)⟩
  · rfl
  · rfl

theorem awaitEvents_resolved (hown : ownMatches request workflow node events t = [edge])
    (hresolved : unresolvedEdges request workflow node events t = []) :
    Takes t edge (rt.awaitEvents fuel request workflow node (outgoingEdges workflow node) events t
      w).1 := by
  obtain ⟨noted, htraversed, -, hchosen⟩ := awaitEvents_own hresolved
  rw [hchosen, chooseEdge]
  unfold ownMatches at hown
  simp only [hown]
  exact ⟨_, rfl, rfl, by rw [← htraversed]; rfl⟩

theorem pollBroker_failing {waiting : List WaitingWorkflowEdgeContext} (hwaiting : waiting ≠ []) :
    pollBrokerEventsForWaitingEdges (rt.withBroker (.failing σ)).services fuel waiting w =
      (some (.error (.brokerUnavailable (EventError.journalRead "unreachable").display)), w) := by
  unfold pollBrokerEventsForWaitingEdges
  obtain ⟨context, rest, rfl⟩ := exists_cons_of_ne_nil hwaiting
  have hmem : context.eventRef.eventId ∈ (((context :: rest).map fun edge =>
      edge.eventRef.eventId).insertionSort (· ≤ ·)).dedup := by
    rw [mem_dedup, mem_insertionSort]
    exact mem_cons_self
  obtain ⟨eventType, types, htypes⟩ := exists_cons_of_ne_nil (ne_nil_of_mem hmem)
  rw [htypes]
  rfl

/-- A broker that fails every call ends a step that has something left to ask. -/
theorem awaitEvents_failing (hunresolved : unresolvedEdges request workflow node events t ≠ []) :
    ∃ outcome, ((rt.withBroker (.failing σ)).awaitEvents fuel request workflow node
      (outgoingEdges workflow node) events t w).1 = some (.error outcome) := by
  have hpoll : pollBrokerEventsForWaitingEdges (rt.withBroker (.failing σ)).services fuel
      (unresolvedEdges request workflow node events t) w = _ := pollBroker_failing hunresolved
  unfold awaitEvents
  simp only
  split
  case _ hnone => exact absurd (List.isEmpty_iff.1 hnone) hunresolved
  · split
    case _ hpolled => cases hpoll.symm.trans hpolled
    · exact ⟨_, rfl⟩
    · exact ⟨_, rfl⟩
    case _ hpolled => cases hpoll.symm.trans hpolled

theorem unresolvedEdges_eq_nil (hown : ownMatches request workflow node events t = [edge]) :
    unresolvedEdges request workflow node events t = [] ↔
      ∀ other ∈ outgoingEdges workflow node, other.trigger = .event → other.event.isSome →
        other = edge := by
  have hmatched : ∀ other, other ∈ outgoingEdges workflow node ∧ other.edgeId ∈
      (ownEvaluation request workflow node events t).takenEdgeIds ↔ other = edge := by
    intro other
    rw [← mem_singleton, ← hown, ownMatches, mem_filter, contains_iff_mem]
  unfold unresolvedEdges
  rw [filter_eq_nil_iff]
  constructor
  · intro hresolved other hother htrigger hevent
    obtain ⟨eventRef, heventRef⟩ := Option.isSome_iff_exists.1 hevent
    have htaken := hresolved _
      (mem_waitingEdges.2 ⟨other, hother, htrigger, eventRef, heventRef, rfl⟩)
    exact (hmatched other).1 ⟨hother, by simpa using htaken⟩
  · intro honly context hcontext
    obtain ⟨other, hother, htrigger, eventRef, heventRef, rfl⟩ := mem_waitingEdges.1 hcontext
    have hedge := honly other hother htrigger (heventRef ▸ rfl)
    simpa using ((hmatched other).2 hedge).2

/-- A step without direct edges whose own events match one edge. It goes on along that edge with
every broker, in every state of it, exactly if no other edge waits for an event. -/
theorem own_events_decide_iff (rt : Runtime σ κ) (request : WorkflowExecutionRequest)
    (workflow : WorkflowDefinition) (node : WorkflowNode) (events : List EmittedEventRecord)
    (t : Traversal) (s : State σ κ) (edge : WorkflowEdge)
    (hdirect : (outgoingEdges workflow node).filter (fun edge => edge.trigger = .direct) = [])
    (hown : ownMatches request workflow node events t = [edge]) :
    (∀ (broker : BrokerQueries σ) (fuel : Nat) (w : σ), Takes t edge
      ((rt.withBroker broker).takeEdge fuel request workflow node events t
        { s with world := w }).1) ↔
      ∀ other ∈ outgoingEdges workflow node, other.trigger = .event → other.event.isSome →
        other = edge := by
  rw [← unresolvedEdges_eq_nil hown]
  constructor
  · intro htakes
    by_contra hunresolved
    obtain ⟨next, hnext, -⟩ := htakes (.failing σ) 0 s.world
    rw [takeEdge_eq_await hdirect] at hnext
    obtain ⟨outcome, houtcome⟩ := awaitEvents_failing hunresolved
    cases hnext.symm.trans houtcome
  · intro hresolved broker fuel w
    rw [takeEdge_eq_await hdirect]
    exact awaitEvents_resolved hown hresolved

def doneEdge : WorkflowEdge := ⟨"on-done", "only", "next", .event, some ⟨"done", "1.0.0"⟩, none⟩

def lateEdge : WorkflowEdge := ⟨"on-late", "only", "other", .event, some ⟨"late", "1.0.0"⟩, none⟩

def waitingWorkflow (edges : List WorkflowEdge) : WorkflowDefinition :=
  { stepWorkflow (.obj []) with edges := edges }

def onlyNode : WorkflowNode := ⟨"only", "cap", "1.0.0", [], [], none⟩

def doneRecord : EmittedEventRecord := ⟨"event_record_0", ⟨"done", "1.0.0"⟩, some .null, none⟩

/-- Where a step of it goes, if it goes on. -/
def nextNode (broker : BrokerQueries Unit) (edges : List WorkflowEdge) : Option String :=
  ((bareRuntime.withBroker broker).takeEdge 1 stepRequest (waitingWorkflow edges) onlyNode
      [doneRecord] (.start (.obj []) (waitingWorkflow edges)) bareState).1.bind fun result =>
    result.toOption.map (·.current)

theorem own_events_decide_iff_alone :
    Takes (.start (.obj []) (waitingWorkflow [doneEdge])) doneEdge
      ((bareRuntime.withBroker (.failing Unit)).takeEdge 0 stepRequest (waitingWorkflow [doneEdge])
        onlyNode [doneRecord] (.start (.obj []) (waitingWorkflow [doneEdge])) bareState).1 := by
  refine (own_events_decide_iff bareRuntime stepRequest (waitingWorkflow [doneEdge]) onlyNode
    [doneRecord] (.start (.obj []) (waitingWorkflow [doneEdge])) bareState doneEdge rfl rfl).2 ?_
    (.failing Unit) 0 ()
  intro other hother _ _
  exact mem_singleton.1 hother

/-- The own event matches `on-done` alone. With nothing in the broker the step goes on; with a
broker that fails it does not, since `on-late` asks it. -/
theorem sibling_asks_broker :
    ownMatches stepRequest (waitingWorkflow [doneEdge, lateEdge]) onlyNode [doneRecord]
        (.start (.obj []) (waitingWorkflow [doneEdge, lateEdge])) = [doneEdge] ∧
      nextNode (.quiet Unit) [doneEdge, lateEdge] = some "next" ∧
      nextNode (.failing Unit) [doneEdge, lateEdge] = none := by
  refine ⟨rfl, ?_, ?_⟩
  · decide +kernel
  · decide +kernel

end Runtime

end Traverse.Execution

import Mathlib.Data.List.Sort
import Traverse.Execution.Router

/-!
# Execution.Edges

Event-driven edges of a workflow (`workflows.rs`). An edge that waits for an event is matched
against events of the node that just ran, and against events polled from the broker. Each event
record can be consumed once per edge. The evaluation leaves a record of every comparison.

Polling a subscription goes on as long as full batches arrive, so `drain` takes fuel and answers
`none` when it runs out. It acts on the world alone, on nothing the runtime owns.
-/

namespace Traverse.Execution

open Json (Doc)
open Events (EventError)

structure WaitingWorkflowEdgeContext where
  (workflowExecutionId edgeId fromNodeId toNodeId : String)
  eventRef : EventReference
  predicate : Option WorkflowEdgePredicate

structure BrokerEventSource where
  (subscriptionId cursor : String)
  deriving DecidableEq, Repr

structure EmittedEventRecord where
  recordId : String
  event : EventReference
  payload : Option Doc
  source : Option BrokerEventSource

inductive EventMatchResult where
  | matched
  | notMatched
  | alreadyConsumed
  deriving DecidableEq, Repr

inductive EventPredicateResult where
  | passed
  | failed
  deriving DecidableEq, Repr

structure EventMatchRecord where
  event : EventReference
  edgeId : String
  matchResult : EventMatchResult
  predicateResult : Option EventPredicateResult
  rejectionReason : Option String
  recordedAt : String
  source : Option BrokerEventSource
  deriving DecidableEq, Repr

/-- `EventWakeDecision`; the only decision is that the edge is taken. -/
structure EventWakeDecision where
  event : EventReference
  (edgeId workflowExecutionId : String)
  wakeOrder : Nat
  recordedAt : String
  source : Option BrokerEventSource
  deriving DecidableEq, Repr

structure EventConsumptionRecord where
  event : EventReference
  (edgeId workflowExecutionId consumedAt : String)
  source : Option BrokerEventSource
  deriving DecidableEq, Repr

structure WorkflowEventEvidenceBundle where
  waitingEdges : List WaitingWorkflowEdgeContext
  matchRecords : List EventMatchRecord
  wakeDecisions : List EventWakeDecision
  consumptions : List EventConsumptionRecord

def WorkflowEventEvidenceBundle.empty : WorkflowEventEvidenceBundle := ⟨[], [], [], []⟩

/-- Records of a later evaluation go behind those there are. -/
def WorkflowEventEvidenceBundle.extend (evidence more : WorkflowEventEvidenceBundle) :
    WorkflowEventEvidenceBundle where
  waitingEdges := evidence.waitingEdges ++ more.waitingEdges
  matchRecords := evidence.matchRecords ++ more.matchRecords
  wakeDecisions := evidence.wakeDecisions ++ more.wakeDecisions
  consumptions := evidence.consumptions ++ more.consumptions

def waitingEdgeContexts (workflowExecutionId : String) (edges : List WorkflowEdge) :
    List WaitingWorkflowEdgeContext :=
  edges.filterMap fun edge => edge.event.map fun eventRef =>
    ⟨workflowExecutionId, edge.edgeId, edge.fromNode, edge.toNode, eventRef, edge.predicate⟩

/-! ## Matching -/

def descend : Doc → List String → Option Doc
  | current, [] => some current
  | .obj fields, segment :: rest =>
    match fields.lookup segment with
    | some next => descend next rest
    | none => none
  | _, _ :: _ => none

def eventPayloadField (payload : Option Doc) (field : String) : Option Doc :=
  match payload with
  | none => none
  | some payload =>
    let path := (stripped "payload." field).getD field
    if path = "payload" ∨ path.isEmpty then some payload
    else descend payload ((path.toList.splitOn '.').map String.ofList)

def predicatePassed (event : EmittedEventRecord) (predicate : WorkflowEdgePredicate) : Bool :=
  match eventPayloadField event.payload predicate.field with
  | some value => value.beq predicate.equals
  | none => false

/-- The accumulators of `evaluate_event_driven_edges`. -/
structure EdgeEvaluation where
  takenEdgeIds : List String
  evidence : WorkflowEventEvidenceBundle
  consumed : List String
  wakeOrder : Nat

def EdgeEvaluation.note (e : EdgeEvaluation) (record : EventMatchRecord) : EdgeEvaluation :=
  { e with evidence.matchRecords := e.evidence.matchRecords ++ [record] }

def considerEdge (recordPrefix : String) (eventIndex : Nat) (event : EmittedEventRecord)
    (e : EdgeEvaluation) (edge : WaitingWorkflowEdgeContext) : EdgeEvaluation :=
  let recordedAt := s!"{recordPrefix}:event:{eventIndex}:match:{edge.edgeId}"
  let record (result : EventMatchResult) (predicateResult : Option EventPredicateResult)
      (reason : Option String) : EventMatchRecord :=
    ⟨event.event, edge.edgeId, result, predicateResult, reason, recordedAt, event.source⟩
  if event.event ≠ edge.eventRef then
    e.note (record .notMatched none (some "event id/version did not match the waiting edge"))
  else if edge.predicate.any (fun predicate => !predicatePassed event predicate) then
    e.note (record .notMatched (some .failed)
      (some "event predicate did not match the emitted payload"))
  else
    let passed := edge.predicate.map fun _ => EventPredicateResult.passed
    let consumptionKey := s!"{event.recordId}|{edge.workflowExecutionId}|{edge.edgeId}"
    if e.consumed.contains consumptionKey then
      e.note (record .alreadyConsumed passed
        (some "event record was already consumed for this waiting edge"))
    else
      let wakeRecordedAt := s!"{recordPrefix}:event:{eventIndex}:wake:{edge.edgeId}"
      { takenEdgeIds := e.takenEdgeIds ++ [edge.edgeId]
        evidence := e.evidence.extend {
          waitingEdges := []
          matchRecords := [record .matched passed none]
          wakeDecisions := [⟨event.event, edge.edgeId, edge.workflowExecutionId, e.wakeOrder,
            wakeRecordedAt, event.source⟩]
          consumptions := [⟨event.event, edge.edgeId, edge.workflowExecutionId, wakeRecordedAt,
            event.source⟩] }
        consumed := e.consumed ++ [consumptionKey]
        wakeOrder := e.wakeOrder + 1 }

def edgeOrder (left right : WaitingWorkflowEdgeContext) : Prop :=
  left.workflowExecutionId < right.workflowExecutionId ∨
    left.workflowExecutionId = right.workflowExecutionId ∧ left.edgeId ≤ right.edgeId
  deriving Decidable

def evaluateEventDrivenEdges (waitingEdges : List WaitingWorkflowEdgeContext)
    (emittedEvents : List EmittedEventRecord) (consumed : List String) (recordPrefix : String) :
    EdgeEvaluation :=
  let ordered := waitingEdges.insertionSort edgeOrder
  let start : EdgeEvaluation := ⟨[], .empty, consumed, 1⟩
  if emittedEvents.isEmpty then
    ordered.foldl (fun e edge => e.note ⟨edge.eventRef, edge.edgeId, .notMatched, none,
      some "required event was not emitted", s!"{recordPrefix}:no_event:{edge.edgeId}", none⟩) start
  else
    emittedEvents.zipIdx.foldl (fun e event =>
      ordered.foldl (considerEdge recordPrefix event.2 event.1) e) start

/-! ## Polling -/

inductive BrokerQueryFailure where
  | unregisteredEventType (eventType : String)
  | brokerUnavailable (detail : String)
  deriving DecidableEq, Repr

def eventBrokerPollBatch : Nat := 256

section Poll

variable {σ κ : Type} (services : Services σ κ)

/-- The loop of polls, until a batch is not full or a poll fails. -/
def drain (subscriptionId : String) : Nat → List BrokerEvent → σ →
    Option (Except EventError (List BrokerEvent)) × σ
  | 0, _, w => (none, w)
  | fuel + 1, delivered, w =>
    match services.poll subscriptionId eventBrokerPollBatch w with
    | (.error error, w) => (some (.error error), w)
    | (.ok batch, w) =>
      if batch.events.length < eventBrokerPollBatch then
        (some (.ok (delivered ++ batch.events)), w)
      else drain subscriptionId fuel (delivered ++ batch.events) w

def cancelWarning (subscriptionId : String) : Except EventError Unit → List RuntimeWarning
  | .ok () => []
  | .error error => [⟨"event_broker_subscription_cleanup_failed",
      s!"failed to cancel workflow event-driven edge subscription {subscriptionId}: {error.display}"⟩]

def brokerRecord (eventType subscriptionId : String) (delivered : BrokerEvent) :
    EmittedEventRecord where
  recordId := s!"broker:{eventType}:{delivered.cursor}"
  event := ⟨eventType, delivered.event.version⟩
  payload := some delivered.event.data
  source := some ⟨subscriptionId, delivered.cursor⟩

/-- One event type after the other: subscribe, drain, cancel. -/
def pollEventTypes (fuel : Nat) : List String → List EmittedEventRecord → List RuntimeWarning → σ →
    Option (Except BrokerQueryFailure (List EmittedEventRecord × List RuntimeWarning)) × σ
  | [], records, warnings, w => (some (.ok (records, warnings)), w)
  | eventType :: rest, records, warnings, w =>
    match services.subscribe eventType "0" w with
    | (.error (.unregisteredEventType eventType), w) =>
      (some (.error (.unregisteredEventType eventType)), w)
    | (.error other, w) => (some (.error (.brokerUnavailable other.display)), w)
    | (.ok subscription, w) =>
      match drain services subscription.subscriptionId fuel [] w with
      | (none, w) => (none, w)
      | (some drained, w) =>
        let cancelled := services.cancel subscription.subscriptionId w
        let warnings := warnings ++ cancelWarning subscription.subscriptionId cancelled.1
        match drained with
        | .error error => (some (.error (.brokerUnavailable error.display)), cancelled.2)
        | .ok delivered =>
          pollEventTypes fuel rest
            (records ++ delivered.map (brokerRecord eventType subscription.subscriptionId)) warnings
            cancelled.2

def pollBrokerEventsForWaitingEdges (fuel : Nat)
    (waitingEdges : List WaitingWorkflowEdgeContext) (w : σ) :
    Option (Except BrokerQueryFailure (List EmittedEventRecord × List RuntimeWarning)) × σ :=
  pollEventTypes services fuel
    ((waitingEdges.map fun edge => edge.eventRef.eventId).insertionSort (· ≤ ·)).dedup [] [] w

end Poll

end Traverse.Execution

import Traverse.Execution.Types

/-!
# Execution.StateMachine

The runtime state machine: its table of transitions (`isAllowedTransition`) and the emitter that
records the progress of an execution, one state event and one transition per accepted push. A push
outside the table is recorded as a violation and changes nothing else.

`Walk` is a chain of allowed transitions. `StateEmitter.Sound` is what an emitter holds as long as
every push was accepted; `Sound.push` keeps it.
-/

namespace Traverse.Execution

open List

open Json (Doc)

inductive RuntimeState where
  | idle
  | loadingRegistry
  | ready
  | discovering
  | evaluatingConstraints
  | selecting
  | executing
  | emittingEvents
  | completed
  | error
  deriving DecidableEq, Repr

def runtimeStateName : RuntimeState → String
  | .idle => "idle"
  | .loadingRegistry => "loading_registry"
  | .ready => "ready"
  | .discovering => "discovering"
  | .evaluatingConstraints => "evaluating_constraints"
  | .selecting => "selecting"
  | .executing => "executing"
  | .emittingEvents => "emitting_events"
  | .completed => "completed"
  | .error => "error"

def RuntimeState.toDoc (state : RuntimeState) : Doc := .str (runtimeStateName state)

inductive RuntimeTransitionReasonCode where
  | runtimeInitializationStarted
  | registryLoaded
  | registryLoadFailed
  | requestStarted
  | candidatesCollected
  | noMatch
  | constraintsEvaluated
  | constraintValidationFailed
  | candidateSelected
  | selectionFailed
  | executionSucceededWithEvents
  | executionSucceeded
  | executionFailed
  | eventsEmitted
  | eventEmissionFailed
  | executionClosed
  deriving DecidableEq, Repr

def RuntimeTransitionReasonCode.toDoc : RuntimeTransitionReasonCode → Doc
  | .runtimeInitializationStarted => .str "runtime_initialization_started"
  | .registryLoaded => .str "registry_loaded"
  | .registryLoadFailed => .str "registry_load_failed"
  | .requestStarted => .str "request_started"
  | .candidatesCollected => .str "candidates_collected"
  | .noMatch => .str "no_match"
  | .constraintsEvaluated => .str "constraints_evaluated"
  | .constraintValidationFailed => .str "constraint_validation_failed"
  | .candidateSelected => .str "candidate_selected"
  | .selectionFailed => .str "selection_failed"
  | .executionSucceededWithEvents => .str "execution_succeeded_with_events"
  | .executionSucceeded => .str "execution_succeeded"
  | .executionFailed => .str "execution_failed"
  | .eventsEmitted => .str "events_emitted"
  | .eventEmissionFailed => .str "event_emission_failed"
  | .executionClosed => .str "execution_closed"

def isAllowedTransition : RuntimeState → RuntimeState → RuntimeTransitionReasonCode → Bool
  | .idle, .loadingRegistry, .runtimeInitializationStarted => true
  | .loadingRegistry, .ready, .registryLoaded => true
  | .loadingRegistry, .error, .registryLoadFailed => true
  | .ready, .discovering, .requestStarted => true
  | .discovering, .evaluatingConstraints, .candidatesCollected => true
  | .discovering, .error, .noMatch => true
  | .evaluatingConstraints, .selecting, .constraintsEvaluated => true
  | .evaluatingConstraints, .error, .constraintValidationFailed => true
  | .selecting, .executing, .candidateSelected => true
  | .selecting, .error, .selectionFailed => true
  | .executing, .emittingEvents, .executionSucceededWithEvents => true
  | .executing, .completed, .executionSucceeded => true
  | .executing, .error, .executionFailed => true
  | .emittingEvents, .completed, .eventsEmitted => true
  | .emittingEvents, .error, .eventEmissionFailed => true
  | .completed, .ready, .executionClosed => true
  | .error, .ready, .executionClosed => true
  | _, _, _ => false

structure RuntimeStateEvent where
  (kind schemaVersion eventId executionId requestId : String)
  state : RuntimeState
  enteredAt : String
  details : Doc

structure RuntimeTransitionRecord where
  (fromState toState : RuntimeState)
  reasonCode : RuntimeTransitionReasonCode
  occurredAt : String
  (requestId executionId : Option String)
  details : Option Doc

inductive RuntimeStateMachineValidationStatus where
  | passed
  | failed
  deriving DecidableEq, Repr

structure RuntimeStateMachineValidationEvidence where
  (kind schemaVersion governingSpec validatedAt : String)
  status : RuntimeStateMachineValidationStatus
  checkedStates : List RuntimeState
  checkedTransitions : List String
  violations : List Doc

structure FinishedStateMachineArtifacts where
  events : List RuntimeStateEvent
  transitions : List RuntimeTransitionRecord
  validation : RuntimeStateMachineValidationEvidence

structure StateEmitter where
  (executionId requestId : String)
  (nextSecond nextEventIndex : Nat)
  currentState : RuntimeState
  events : List RuntimeStateEvent
  transitions : List RuntimeTransitionRecord
  violations : List Doc

def supportedSchemaVersion : String := "1.0.0"

/-- `{:0width$}`. -/
def zeroPadded (width n : Nat) : String :=
  let digits := Nat.toDigits 10 n
  String.ofList (List.replicate (width - digits.length) '0' ++ digits)

def timestampAt (second : Nat) : String := s!"1970-01-01T00:00:{zeroPadded 2 second}Z"

def detailObject : Doc → List (String × Doc)
  | .obj fields => fields
  | other => [("value", other)]

namespace StateEmitter

def new (executionId requestId : String) : StateEmitter where
  executionId := executionId
  requestId := requestId
  nextSecond := 0
  nextEventIndex := 0
  currentState := .idle
  events := []
  transitions := []
  violations := []

variable (e : StateEmitter)

/-- The timestamp that `next_timestamp` hands out. -/
def timestamp : String := timestampAt e.nextSecond

/-- The emitter after `next_timestamp`. -/
def tick : StateEmitter := { e with nextSecond := e.nextSecond + 1 }

/-- `try_push`, and `push` where the assertion of a debug build is not compiled in. -/
def push (state : RuntimeState) (reason : RuntimeTransitionReasonCode)
    (details : Doc) : StateEmitter :=
  if isAllowedTransition e.currentState state reason then
    let eventDetails : Doc :=
      .obj (Json.insertKey "transition_reason" reason.toDoc (detailObject details))
    { e.tick with
      nextEventIndex := e.nextEventIndex + 1
      events := e.events ++ [{
        kind := "runtime_state_event"
        schemaVersion := supportedSchemaVersion
        eventId := s!"rse_{e.executionId}_{zeroPadded 4 e.nextEventIndex}"
        executionId := e.executionId
        requestId := e.requestId
        state := state
        enteredAt := e.timestamp
        details := eventDetails }]
      transitions := e.transitions ++ [{
        fromState := e.currentState
        toState := state
        reasonCode := reason
        occurredAt := e.timestamp
        requestId := some e.requestId
        executionId := some e.executionId
        details := some eventDetails }]
      currentState := state }
  else
    { e with
      violations := e.violations ++ [.object [("from_state", e.currentState.toDoc),
        ("to_state", state.toDoc), ("reason_code", reason.toDoc),
        ("message", .str "unexpected runtime state transition")]] }

def checkedStates : List RuntimeState :=
  [.idle, .loadingRegistry, .ready, .discovering, .evaluatingConstraints, .selecting, .executing,
    .emittingEvents, .completed, .error]

def finish : FinishedStateMachineArtifacts where
  events := e.events
  transitions := e.transitions
  validation := {
    kind := "runtime_state_machine_validation"
    schemaVersion := supportedSchemaVersion
    governingSpec := "010-runtime-state-machine"
    validatedAt := timestampAt (e.nextSecond - 1)
    status := if e.violations.isEmpty then .passed else .failed
    checkedStates := checkedStates
    checkedTransitions := e.transitions.map fun t =>
      s!"{runtimeStateName t.fromState}->{runtimeStateName t.toState}"
    violations := e.violations }

end StateEmitter

/-! ## Walks -/

/-- The transitions lead from one state to the other, each allowed and each from where the one
before it led. -/
def Walk : RuntimeState → List RuntimeTransitionRecord → RuntimeState → Prop
  | a, [], b => a = b
  | a, t :: ts, b =>
    t.fromState = a ∧ isAllowedTransition t.fromState t.toState t.reasonCode = true ∧
      Walk t.toState ts b

theorem Walk.snoc {a b : RuntimeState} {ts : List RuntimeTransitionRecord} (h : Walk a ts b)
    {t : RuntimeTransitionRecord} (hfrom : t.fromState = b)
    (hallowed : isAllowedTransition t.fromState t.toState t.reasonCode = true) :
    Walk a (ts ++ [t]) t.toState := by
  induction ts generalizing a with
  | nil =>
    have hab : a = b := h
    exact ⟨hfrom.trans hab.symm, hallowed, rfl⟩
  | cons u ts ih =>
    obtain ⟨hu, huallowed, hrest⟩ := h
    exact ⟨hu, huallowed, ih hrest⟩

/-- What the state events under a key can hold. -/
def EventsHold (key : String) (value : Doc) (events : List RuntimeStateEvent) : Prop :=
  ∀ event ∈ events, ∀ d, event.details.field? key = some d → d = value

/-- An emitter in `state` that no push was refused by. `passed` tells whether it went through
`completed`, `identity` is what its events say of the caller. -/
structure StateEmitter.Sound (identity : Doc) (e : StateEmitter) (state : RuntimeState)
    (passed : Bool) : Prop where
  at_state : e.currentState = state
  walk : Walk .idle e.transitions state
  clean : e.violations = []
  passed_iff : (∃ t ∈ e.transitions, t.toState = .completed) ↔ passed = true
  named : EventsHold "identity" identity e.events

namespace StateEmitter

variable {identity : Doc}

theorem Sound.new (executionId requestId : String) :
    (new executionId requestId).Sound identity .idle false where
  at_state := rfl
  walk := rfl
  clean := rfl
  passed_iff := by simp [StateEmitter.new]
  named := by simp [EventsHold, StateEmitter.new]

variable {e : StateEmitter} {state a b : RuntimeState} {passed : Bool}
  {reason : RuntimeTransitionReasonCode} {details : List (String × Doc)}

theorem Sound.tick (h : e.Sound identity state passed) : e.tick.Sound identity state passed :=
  ⟨h.at_state, h.walk, h.clean, h.passed_iff, h.named⟩

theorem push_of_allowed (details : List (String × Doc))
    (hallowed : isAllowedTransition e.currentState state reason = true) :
    ∃ event transition, (e.push state reason (.object details)).events = e.events ++ [event] ∧
      event.details = .obj (Json.insertKey "transition_reason" reason.toDoc
        (Json.insertAll details [])) ∧
      (e.push state reason (.object details)).transitions = e.transitions ++ [transition] ∧
      transition.fromState = e.currentState ∧ transition.toState = state ∧
      transition.reasonCode = reason ∧
      (e.push state reason (.object details)).currentState = state ∧
      (e.push state reason (.object details)).violations = e.violations := by
  rw [push, if_pos hallowed]
  exact ⟨_, _, rfl, rfl, rfl, rfl, rfl, rfl, rfl, rfl⟩

section

variable (h : e.Sound identity a passed) (hallowed : isAllowedTransition a b reason = true)

include h hallowed

theorem Sound.push_passed (hnamed : ∀ d, ("identity", d) ∈ details → d = identity) :
    (e.push b reason (.object details)).Sound identity b (passed || b == .completed) := by
  obtain ⟨event, t, hevents, hdetails, htransitions, hfrom, hto, hreason, hstate, hviolations⟩ :=
    push_of_allowed details (h.at_state.symm ▸ hallowed)
  refine ⟨hstate, ?_, hviolations.trans h.clean, ?_, ?_⟩
  · rw [htransitions, ← hto]
    refine h.walk.snoc (hfrom.trans h.at_state) ?_
    rw [hfrom, hto, hreason, h.at_state]
    exact hallowed
  · rw [htransitions, Bool.or_eq_true, beq_iff_eq, ← h.passed_iff, ← hto]
    constructor
    · rintro ⟨u, hu, hcompleted⟩
      rcases mem_append.1 hu with hold | hnew
      · exact .inl ⟨u, hold, hcompleted⟩
      · exact .inr (mem_singleton.1 hnew ▸ hcompleted)
    · rintro (⟨u, hu, hcompleted⟩ | hcompleted)
      · exact ⟨u, mem_append_left _ hu, hcompleted⟩
      · exact ⟨t, mem_append_right _ (mem_singleton.2 rfl), hcompleted⟩
  · intro ev hev d hd
    rw [hevents] at hev
    rcases mem_append.1 hev with hold | hnew
    · exact h.named ev hold d hd
    · rw [mem_singleton.1 hnew, hdetails, Doc.field?, Json.lookup_insertKey,
        if_neg (by decide)] at hd
      exact hnamed d (Json.mem_of_lookup_insertAll hd)

theorem Sound.push (hb : b ≠ .completed) (hnamed : ∀ d, ("identity", d) ∈ details → d = identity) :
    (e.push b reason (.object details)).Sound identity b passed := by
  have hpushed := h.push_passed hallowed hnamed
  rwa [beq_false_of_ne hb, Bool.or_false] at hpushed

end

theorem Sound.push_completed (h : e.Sound identity a passed)
    (hallowed : isAllowedTransition a .completed reason = true)
    (hnamed : ∀ d, ("identity", d) ∈ details → d = identity) :
    (e.push .completed reason (.object details)).Sound identity .completed true := by
  have hpushed := h.push_passed hallowed hnamed
  rwa [beq_self_eq_true, Bool.or_true] at hpushed

/-- The last transition of an emitter that was closed. -/
def Closed (e : StateEmitter) : Prop :=
  ∃ ts t, e.transitions = ts ++ [t] ∧ t.toState = .ready ∧
    (t.fromState = .completed ∨ t.fromState = .error)

theorem Sound.closed (h : e.Sound identity a passed) (ha : a = .completed ∨ a = .error)
    (details : List (String × Doc)) :
    (e.push .ready .executionClosed (.object details)).Closed := by
  have hallowed : isAllowedTransition e.currentState .ready .executionClosed = true := by
    rw [h.at_state]
    rcases ha with rfl | rfl <;> rfl
  obtain ⟨-, t, -, -, htransitions, hfrom, hto, -, -, -⟩ := push_of_allowed details hallowed
  exact ⟨_, t, htransitions, hto, by rwa [hfrom, h.at_state]⟩

end StateEmitter

end Traverse.Execution

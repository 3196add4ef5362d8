import Traverse.Execution.Router
import Traverse.Execution.Schema

/-!
# Wasm.Submit

`submit` of `runtime.wasm`: the forms a request can have, the state machine of an app, and the runs
of the loaded guest. A run can be suspended on a deferred connector; the next submit is then the
answer. The engine that runs guests is a parameter; the runtime keeps a list of what it started.
What an app queues for the host, its events and connector commands, is left out: no submit reads it.

* `guest_placed_iff`: guests start where their capability is placed exactly if those do that a
  command of the app can start.
* `runs_reported_once`: without an app, every run has one `capability_invoked` and one
  `capability_result`, with what the engine returned.
-/

namespace Traverse.Wasm

open Json Lines List Function Contracts Execution

/-! ## Requests -/

mutual

/-- `serde_json::Value`: a map in the order of the names, with the last of repeated members. -/
def plainValue : Value → Value
  | .arr items => .arr (plainItems items)
  | .obj members => .obj (plainMembers [] members)
  | v => v

def plainItems : List Value → List Value
  | [] => []
  | v :: vs => plainValue v :: plainItems vs

def plainMembers (kept : List (String × Value)) : List (String × Value) → List (String × Value)
  | [] => kept
  | (key, v) :: fs => plainMembers
      ((kept.filter (·.1 ≠ key)).orderedInsert (byName id) (key, plainValue v)) fs

end

def asString : Option Value → Option String
  | some (.str s) => some s
  | _ => none

def nonEmpty (v : Option Value) : Option String := (asString v).filter (Text.trim · ≠ "")

inductive SubmitDiscrimination
  | appCommand (command : String) (payload : Value) (sessionId : Option String)
  | hostConnectorTerminal (commandId sessionId lifecycleEvent : String) (payload : Value)
  | targetEnvelope (targetId : String) (input : Value)
  | capabilityOrWorkflow
  | ambiguous
  | invalid (message : String)

variable (object : List (String × Value))

def parseTargetEnvelope : SubmitDiscrimination :=
  if object.length ≠ 2 then .ambiguous
  else match nonEmpty (object.lookup "target_id"), object.lookup "input" with
    | none, _ => .invalid "target_id must be a non-empty string"
    | some targetId, some (.obj members) => .targetEnvelope targetId (.obj members)
    | some _, _ => .invalid "input must be a JSON object"

def lifecycleEventOf (kind : String) (resultClass : Option String) : Except String String :=
  if kind = "deadline_fired" then .ok "host_connector_timeout"
  else match resultClass with
    | some "succeeded" => .ok "host_connector_succeeded"
    | some "failed" => .ok "host_connector_failed"
    | some "cancelled" => .ok "host_connector_cancelled"
    | some "timeout" => .ok "host_connector_timeout"
    | some other => .error s!"unsupported host_connector_result result_class '{other}'"
    | none => .error "host_connector_result requires result_class"

def parseHostConnectorTerminal (kind : String) :
    SubmitDiscrimination :=
  match nonEmpty (object.lookup "command_id"), nonEmpty (object.lookup "session_id") with
  | none, _ => .invalid "host connector terminal requires a non-empty command_id"
  | some _, none => .invalid "host connector terminal requires a non-empty session_id"
  | some commandId, some sessionId =>
    match lifecycleEventOf kind (asString (object.lookup "result_class")) with
    | .error message => .invalid message
    | .ok event => .hostConnectorTerminal commandId sessionId event <|
      ((object.lookup "payload").or ((object.lookup "artifact_ref").map fun artifact =>
        .obj [("artifact_ref", artifact)])).getD (.obj [])

def parseAppCommand : SubmitDiscrimination :=
  let payload := (object.lookup "payload").getD (.obj [])
  match nonEmpty (object.lookup "command"), object.lookup "session_id" with
  | none, _ => .invalid "app_command requires a non-empty command"
  | some command, none | some command, some .null => .appCommand command payload none
  | some command, given => match nonEmpty given with
    | some sessionId => .appCommand command payload (some sessionId)
    | none => .invalid "session_id must be a non-empty string when present"

def discriminateSubmit : Value → SubmitDiscrimination
  | .obj object =>
    let kind := asString (object.lookup "kind")
    let hasTarget := (object.lookup "target_id").isSome
    if kind = some "app_command" then if hasTarget then .ambiguous else parseAppCommand object
    else if kind = some "host_connector_result" ∨ kind = some "deadline_fired" then
      parseHostConnectorTerminal object (kind.getD "")
    else if (object.lookup "command").isSome ∧ ¬ hasTarget ∧ kind = none then .ambiguous
    else if hasTarget ∧ (object.lookup "input").isSome then parseTargetEnvelope object
    else .capabilityOrWorkflow
  | _ => .invalid "submit body must be a JSON object"

/-! ## The state machine of an app -/

inductive AppInvoke
  | capability (capabilityId inputFrom : String)
  | hostConnector (command : String)

structure AppTransition where
  (onEvent target : String)

structure AppState where
  invoke : Option AppInvoke
  transitions : List AppTransition

structure AppStateMachine where
  initialState : String
  states : String → Option AppState
  declared : (states initialState).isSome

def resolveCommandTransition (machine : AppStateMachine) (current command : String) :
    Except String String :=
  match machine.states current with
  | none => .error s!"unknown current state '{current}'"
  | some state =>
    if state.invoke.isSome then
      .error s!"session is waiting in state '{current}' and does not accept command '{command}'"
    else match state.transitions.find? (·.onEvent = command) with
      | some transition => .ok transition.target
      | none => .error s!"no transition for command '{command}' from '{current}'"

/-- `strip_prefix`, if more than blanks are left. -/
def hostConnectorResultField (inputFrom : String) : Option String :=
  let field := String.ofList (inputFrom.toList.drop "host_connector_result.".length)
  if "host_connector_result.".toList <+: inputFrom.toList ∧ Text.trim field ≠ "" then some field
  else none

/-- An error is a code and a message. -/
def resolveCapabilityInput (inputFrom : String) (payload : Value) (last : Option Value) :
    Except (String × String) Value :=
  if inputFrom = "command.payload" then .ok payload
  else match hostConnectorResultField inputFrom with
    | none => .error ("invalid_input_from", s!"unsupported invoke.input_from '{inputFrom}'")
    | some field => match last with
      | none => .error ("invalid_input", s!"input_from references host_connector_result.{field} " ++
          "but no host-connector wait has completed in this session")
      | some (.obj members) => match members.lookup field with
        | some value => .ok (.obj [(field, value)])
        | none => .error ("invalid_input", "the most recently completed host-connector result " ++
            s!"has no field '{field}'")
      | some _ => .error ("invalid_input", "the most recently completed host-connector result " ++
          s!"has no field '{field}'")

def resolveLifecycleTransition (machine : AppStateMachine) (current event : String) :
    Except String (Option String) :=
  match machine.states current with
  | none => .error s!"unknown current state '{current}'"
  | some state => .ok ((state.transitions.find? (·.onEvent = event)).map (·.target))

inductive AppWaitKind
  | capability (capabilityId : String)
  | hostConnector (command : String)

structure AppWait where
  commandId : String
  kind : AppWaitKind

structure AppSession where
  state : String
  wait : Option AppWait

/-! ## The runtime -/

structure NestedExecutionOutcome where
  /-- The bytes on stdout as JSON, or else as a string. -/
  output : Value
  /-- Type, version and data. -/
  emittedEvents : List (String × String × Value)
  connectorInvocationEvidence : List Value

inductive NestedRun (σ : Type)
  | finished (outcome : NestedExecutionOutcome)
  | suspended (execution : σ)

/-- The engine with the loaded artifact. A guest is started with the deferred connectors or without
them; `response` reads the response of a connector. -/
structure Engine (σ ρ : Type) where
  start : Bool → String → Except String (NestedRun σ)
  resume : σ → Except String ρ → Except String (NestedRun σ)
  response : Value → Option ρ

inductive CapabilityEvent
  /-- `capability_invoked`, with the placement unless there is none. -/
  | invoked (decision : Option PlacementDecision)
  | emitted (event : String × String × Value)
  /-- `capability_result`: completed with output and evidence, or failed. -/
  | result (outcome : Except String (Value × List Value))

inductive SubmitResult
  | accepted (sessionId : String)
  | suspended (sessionId : String)
  | rejected (sessionId error : String)

/-- Events stay in the list when the host takes them: no submit reads it. -/
structure RuntimeState (σ : Type) where
  capabilityId : String
  permittedTargets : List ExecutionTarget
  hostPlacementTarget : ExecutionTarget
  targetHint : Option ExecutionTarget
  runtimeSnapshot : ExecutionTarget → ℚ
  compatible : Bool
  suspended : Option (String × σ)
  /-- Its overflow, after 2^64 submits, is left out. -/
  executionCounter : Nat
  pendingEvents : List (String × CapabilityEvent)
  appStateMachine : Option AppStateMachine
  appSessions : String → Option AppSession
  lastHostConnectorResult : Option Value
  /-- The inputs with which the engine was asked to start the guest. No code reads the list. -/
  started : List String

/-- What is to be done with a request. -/
inductive Route
  | rejected (error : String)
  | appCommand (command : String) (payload : Value) (sessionId : Option String)
  | hostConnectorTerminal (commandId sessionId lifecycleEvent : String) (payload : Value)
  | capability (target : Option String) (input : Bytes)

variable {σ ρ : Type} (E : Engine σ ρ) (R : JsonReader)

/-- With the input of the guest, if the engine was asked to start it. -/
def startNestedCapability (deferred : Bool) (input : Bytes) :
    Except String (NestedRun σ) × Option String :=
  match canonicalizeJsonBytes R input with
  | .error error => (.error (canonicalErrorDisplay error), none)
  | .ok text => (E.start deferred text, some text)

def parseConnectorAnswer (request : Bytes) : Except String ρ :=
  match (R.fromSlice request).map plainValue with
  | none => .error "connector response is not JSON"
  | some (.obj answer) =>
    if asString (answer.lookup "kind") ≠ some "connector_response" then
      .error "expected a connector_response"
    else match answer.lookup "failure" with
      | some failure => .error ((asString (some failure)).getD "connector failed")
      | none => match E.response ((answer.lookup "response").getD .null) with
        | some response => .ok response
        | none => .error "connector response is malformed"
  | some _ => .error "expected a connector_response"

def sessionIdOf (capabilityId : String) (n : Nat) : String := s!"{capabilityId}-exec-{n}"

namespace RuntimeState

variable (rt : RuntimeState σ)

def route (request : Bytes) : Route :=
  match (R.fromSlice request).map fun document => discriminateSubmit (plainValue document) with
  | some (.appCommand command payload sessionId) => .appCommand command payload sessionId
  | some (.hostConnectorTerminal commandId sessionId event payload) =>
    .hostConnectorTerminal commandId sessionId event payload
  | some .ambiguous => .rejected "ambiguous_submit"
  | some (.invalid message) => .rejected message
  | some (.targetEnvelope target input) =>
    if target ≠ rt.capabilityId then .rejected "target_not_found"
    else match parseCanonicalizable R request with
      | .error error => .rejected (canonicalErrorDisplay error)
      | .ok _ => .capability (some target) (encode input)
  | some .capabilityOrWorkflow | none => .capability none request

def placement : Except PlacementError PlacementDecision :=
  evaluateTargets rt.targetHint rt.runtimeSnapshot rt.permittedTargets

def Placed : Prop :=
  ∃ decision, rt.placement = .ok decision ∧ decision.target = rt.hostPlacementTarget

def queue (sessionId : String) (events : List CapabilityEvent) : RuntimeState σ :=
  { rt with pendingEvents := rt.pendingEvents ++ events.map (sessionId, ·) }

/-- The first step of a run: the placement, what the engine returns, and the input it was asked to
start the guest with. A refused placement is a step that fails. -/
def begin (input : Bytes) :
    Option PlacementDecision × Except String (NestedRun σ) × Option String :=
  match rt.placement with
  | .error .noEligibleTarget => (none, .error "placement failed: NoEligibleTarget", none)
  | .ok decision => (some decision,
      if decision.target ≠ rt.hostPlacementTarget then
        (.error (s!"placement selected {decision.target.debug}, but this runtime.wasm host is " ++
          rt.hostPlacementTarget.debug), none)
      else startNestedCapability E R true input)

def finishCapabilityStep (sessionId : String) :
    Except String (NestedRun σ) → SubmitResult × RuntimeState σ
  | .ok (.suspended execution) =>
    (.suspended sessionId, { rt with suspended := some (sessionId, execution) })
  | .ok (.finished outcome) => (.accepted sessionId, rt.queue sessionId
      (outcome.emittedEvents.map .emitted ++
        [.result (.ok (outcome.output, outcome.connectorInvocationEvidence))]))
  | .error error => (.accepted sessionId, rt.queue sessionId [.result (.error error)])

def submitCapability (input : Bytes) : SubmitResult × RuntimeState σ :=
  let counter := rt.executionCounter + 1
  let sessionId := sessionIdOf rt.capabilityId counter
  let first := rt.begin E R input
  let rt := { rt with executionCounter := counter, started := rt.started ++ first.2.2.toList }
  (rt.queue sessionId [.invoked first.1]).finishCapabilityStep sessionId first.2.1

def setSession (sessionId : String) (session : AppSession) : RuntimeState σ :=
  { rt with appSessions := update rt.appSessions sessionId (some session) }

/-- A terminal event in the state that waits for it. -/
def endWait (machine : AppStateMachine) (sessionId state event : String) : RuntimeState σ :=
  match resolveLifecycleTransition machine state event with
  | .ok next => rt.setSession sessionId ⟨next.getD state, none⟩
  | .error _ => rt

/-- With `execute_nested_capability_with_connectors`: a guest that suspends has failed. -/
def runCapabilityInvokeWait (machine : AppStateMachine) (sessionId state : String) (input : Value) :
    RuntimeState σ :=
  let (run, stdin) := startNestedCapability E R false (encode input)
  { rt with started := rt.started ++ stdin.toList }.endWait machine sessionId state
    (match run with
      | .ok (.finished _) => "capability_succeeded"
      | _ => "capability_failed")

/-- The state of a session, also of one that is new. -/
def stateOf (machine : AppStateMachine) (given : Option String) : String :=
  ((given.bind rt.appSessions).map (·.state)).getD machine.initialState

/-- What the new state of a session invokes. -/
def invokeState (machine : AppStateMachine) (sessionId state commandId : String) (payload : Value) :
    RuntimeState σ :=
  match (machine.states state).bind (·.invoke) with
  | some (.capability capabilityId inputFrom) =>
    match resolveCapabilityInput inputFrom payload rt.lastHostConnectorResult with
    | .ok input => (rt.setSession sessionId
        ⟨state, some ⟨commandId, .capability capabilityId⟩⟩).runCapabilityInvokeWait E R machine
          sessionId state input
    | .error _ => rt.setSession sessionId ⟨state, none⟩
  | some (.hostConnector command) =>
    rt.setSession sessionId ⟨state, some ⟨commandId, .hostConnector command⟩⟩
  | none => rt.setSession sessionId ⟨state, none⟩

def submitAppCommand (command : String) (payload : Value) (given : Option String) :
    SubmitResult × RuntimeState σ :=
  match rt.appStateMachine with
  | none => (.rejected "" "app_state_machine_not_initialized", rt)
  | some machine =>
    let counter := rt.executionCounter + 1
    let sessionId := given.getD s!"{rt.capabilityId}-sess-{counter}"
    let counted := { rt with executionCounter := counter }
    match resolveCommandTransition machine (rt.stateOf machine given) command with
    | .error _ => (.rejected sessionId "invalid_transition", counted)
    | .ok state => (.accepted sessionId, counted.invokeState E R machine sessionId state
        s!"{rt.capabilityId}-cmd-{counter}" payload)

def submitHostConnectorTerminal (commandId sessionId event : String) (payload : Value) :
    SubmitResult × RuntimeState σ :=
  match rt.appStateMachine with
  | none => (.rejected sessionId "app_state_machine_not_initialized", rt)
  | some machine =>
    match rt.appSessions sessionId with
    | some ⟨state, some wait⟩ =>
      if wait.commandId ≠ commandId then (.accepted sessionId, rt)
      else match wait.kind with
        | .capability _ => (.rejected sessionId "host_connector_terminal_for_non_host_wait", rt)
        | .hostConnector _ => (.accepted sessionId,
            { rt with lastHostConnectorResult := some payload }.endWait machine sessionId state
              event)
    -- a late or unknown terminal
    | _ => (.accepted sessionId, rt)

def submit (request : Bytes) : SubmitResult × RuntimeState σ :=
  if rt.compatible then (.rejected "" "compatible_lifecycle_required", rt)
  else match rt.suspended with
    | some (sessionId, execution) => { rt with suspended := none }.finishCapabilityStep sessionId
        (E.resume execution (parseConnectorAnswer E R request))
    | none => match rt.route R request with
      | .rejected error => (.rejected "" error, rt)
      | .appCommand command payload sessionId => rt.submitAppCommand E R command payload sessionId
      | .hostConnectorTerminal commandId sessionId event payload =>
        rt.submitHostConnectorTerminal commandId sessionId event payload
      | .capability _ input => rt.submitCapability E R input

variable {E R rt}

/-! ## Placement -/

/-- The capability that a state invokes, and where its input is from. -/
def invokedIn (machine : AppStateMachine) (state : String) : Option (String × String) :=
  match (machine.states state).bind (·.invoke) with
  | some (.capability capabilityId inputFrom) => some (capabilityId, inputFrom)
  | _ => none

/-- The invoke of the state that a command leads to. -/
def invoked (rt : RuntimeState σ) (command : String) (given : Option String) :
    Option (String × String) :=
  rt.appStateMachine.bind fun machine =>
    (resolveCommandTransition machine (rt.stateOf machine given) command).toOption.bind
      (invokedIn machine)

/-- The capability that a request names, or the invoke of its command. -/
def named (rt : RuntimeState σ) (R : JsonReader) (request : Bytes) : Option String :=
  match rt.route R request with
  | .capability target _ => target
  | .appCommand command _ given => (rt.invoked command given).map Prod.fst
  | _ => none

/-- What an invoke has for stdin. -/
def invokeInput (rt : RuntimeState σ) (R : JsonReader) (payload : Value) (inputFrom : String) :
    Option String :=
  (resolveCapabilityInput inputFrom payload rt.lastHostConnectorResult).toOption.bind fun input =>
    (canonicalizeJsonBytes R (encode input)).toOption

theorem started_endWait (machine : AppStateMachine) (sessionId state event : String) :
    (rt.endWait machine sessionId state event).started = rt.started := by
  unfold endWait
  split <;> rfl

theorem started_finishCapabilityStep (sessionId : String) (run : Except String (NestedRun σ)) :
    (rt.finishCapabilityStep sessionId run).2.started = rt.started := by
  unfold finishCapabilityStep
  split <;> rfl

theorem started_runCapabilityInvokeWait (machine : AppStateMachine) (sessionId state : String)
    (input : Value) : (rt.runCapabilityInvokeWait E R machine sessionId state input).started =
      rt.started ++ (canonicalizeJsonBytes R (encode input)).toOption.toList := by
  rw [runCapabilityInvokeWait, started_endWait, startNestedCapability]
  cases canonicalizeJsonBytes R (encode input) <;> rfl

theorem started_invokeState (machine : AppStateMachine) (sessionId state commandId : String)
    (payload : Value) :
    (rt.invokeState E R machine sessionId state commandId payload).started = rt.started ++
      ((invokedIn machine state).bind fun i => rt.invokeInput R payload i.2).toList := by
  unfold invokeState invokedIn
  rcases (machine.states state).bind (·.invoke) with _ | ⟨capabilityId, inputFrom⟩ | command
  · exact (append_nil _).symm
  · simp only [Option.bind_some, invokeInput]
    cases resolveCapabilityInput inputFrom payload rt.lastHostConnectorResult with
    | ok input => exact started_runCapabilityInvokeWait ..
    | error failure => exact (append_nil _).symm
  · exact (append_nil _).symm

theorem started_submitAppCommand (command : String) (payload : Value) (given : Option String) :
    (rt.submitAppCommand E R command payload given).2.started = rt.started ++
      ((rt.invoked command given).bind fun i => rt.invokeInput R payload i.2).toList := by
  unfold submitAppCommand invoked
  cases rt.appStateMachine with
  | none => exact (append_nil _).symm
  | some machine =>
    simp only [Option.bind_some]
    cases resolveCommandTransition machine (rt.stateOf machine given) command with
    | error message => exact (append_nil _).symm
    | ok state => exact started_invokeState ..

theorem started_submitHostConnectorTerminal (commandId sessionId event : String) (payload : Value) :
    (rt.submitHostConnectorTerminal commandId sessionId event payload).2.started = rt.started := by
  unfold submitHostConnectorTerminal
  grind [started_endWait]

/-- What a command can start in the present state: an invoke whose input can be had. -/
def Commanded (rt : RuntimeState σ) (R : JsonReader) (capability : String) : Prop :=
  ∃ command given inputFrom, Text.trim command ≠ "" ∧ (∀ id ∈ given, Text.trim id ≠ "") ∧
    rt.invoked command given = some (capability, inputFrom) ∧
    (rt.invokeInput R (.obj []) inputFrom).isSome

theorem route_target {request input : Bytes} {target : String}
    (h : rt.route R request = .capability (some target) input) : target = rt.capabilityId := by
  unfold route at h
  grind

theorem discriminate_command {w payload : Value} {command : String} {given : Option String}
    (h : discriminateSubmit w = .appCommand command payload given) :
    Text.trim command ≠ "" ∧ ∀ id ∈ given, Text.trim id ≠ "" := by
  have hkept : ∀ {v s}, nonEmpty v = some s → Text.trim s ≠ "" := by
    intro v s hv
    simpa using (Option.filter_eq_some_iff.1 hv).2
  unfold discriminateSubmit at h
  split at h
  · simp only [] at h
    split_ifs at h
    · unfold parseAppCommand at h
      grind
    · unfold parseHostConnectorTerminal at h
      grind
    · unfold parseTargetEnvelope at h
      grind
  · cases h

theorem route_command {request : Bytes} {command : String} {payload : Value}
    {given : Option String} (h : rt.route R request = .appCommand command payload given) :
    Text.trim command ≠ "" ∧ ∀ id ∈ given, Text.trim id ≠ "" := by
  unfold route at h
  split at h
  any_goals cases h
  · next hsubmit =>
    obtain ⟨document, -, hsubmit⟩ := Option.map_eq_some_iff.1 hsubmit
    exact discriminate_command hsubmit
  · grind

/-- An invoke that takes the payload can take an empty one. -/
theorem invokeInput_empty {payload : Value} {inputFrom : String}
    (h : (rt.invokeInput R payload inputFrom).isSome) :
    (rt.invokeInput R (.obj []) inputFrom).isSome := by
  unfold invokeInput resolveCapabilityInput at h ⊢
  split_ifs at h ⊢ with hpayload
  · have hread :=
      parseCanonicalizable_print R id isSafe_fits (v := .obj []) ⟨nodup_nil, trivial⟩ rfl
    have hempty : canonicalizeJsonBytes R (encode (.obj [])) = toCanonicalJson (.obj []) := by
      rw [canonicalizeJsonBytes]
      exact congrArg (· >>= toCanonicalJson) hread
    rw [Except.toOption, Option.bind_some, hempty, toCanonicalJson_eq]
    rfl
  · exact h

/-- The body of a command without a payload. -/
def commandBody (command : String) (given : Option String) : Bytes :=
  encode (.obj (("kind", .str "app_command") :: ("command", .str command) ::
    given.toList.map fun id => ("session_id", .str id)))

theorem route_commandBody {command : String} {given : Option String}
    (hcommand : Text.trim command ≠ "") (hgiven : ∀ id ∈ given, Text.trim id ≠ "") :
    rt.route R (commandBody command given) = .appCommand command (.obj []) given := by
  have hread : R.fromSlice (commandBody command given) = some _ :=
    R.reads ⟨[], _, [], blank_nil, denotes_print isSafe_fits _ ?_, blank_nil, by simp; rfl⟩
  · have hcommand' : nonEmpty (some (.str command)) = some command := by
      simp [nonEmpty, asString, hcommand]
    have hlater : ¬ "session_id" ≤ "command" ∧ ¬ "session_id" ≤ "kind" := by decide
    cases given with
    | none =>
      simp [route, hread, plainValue, plainMembers, byName, discriminateSubmit, asString,
        parseAppCommand, hcommand', lookup_cons]
    | some id =>
      have hid : nonEmpty (some (.str id)) = some id := by
        simp [nonEmpty, asString, hgiven]
      simp [route, hread, plainValue, plainMembers, orderedInsert, byName, hlater,
        discriminateSubmit, asString, parseAppCommand, hcommand', hid, lookup_cons]
  · cases given <;> rfl

/-- Guests start only where the evaluator places them and for the loaded capability exactly if this
is so of every guest that a command can start: no other form of a submit passes the checks by. -/
theorem guest_placed_iff :
    (∀ request, (rt.submit E R request).2.started ≠ rt.started →
      rt.Placed ∧ ∀ name ∈ rt.named R request, name = rt.capabilityId) ↔
    (rt.compatible = false → rt.suspended = none →
      ∀ capability, rt.Commanded R capability → rt.Placed ∧ capability = rt.capabilityId) := by
  constructor
  · rintro h hcompatible hnone capability
      ⟨command, given, inputFrom, hcommand, hgiven, hinvoked, hinput⟩
    have hroute : rt.route R _ = _ := route_commandBody hcommand hgiven
    obtain ⟨text, htext⟩ := Option.isSome_iff_exists.1 hinput
    have hsubmit : rt.submit E R (commandBody command given) =
        rt.submitAppCommand E R command (.obj []) given := by
      simp [submit, hcompatible, hnone, hroute]
    obtain ⟨hplaced, hname⟩ := h (commandBody command given) (by
      simp [hsubmit, started_submitAppCommand, hinvoked, htext])
    refine ⟨hplaced, hname capability ?_⟩
    simp [named, hroute, hinvoked]
  · intro h request hstarted
    unfold submit at hstarted
    split at hstarted
    · exact absurd rfl hstarted
    rename_i hcompatible
    split at hstarted
    · exact absurd (started_finishCapabilityStep ..) hstarted
    rename_i hnone
    split at hstarted
    · exact absurd rfl hstarted
    · next command payload given hroute =>
      rw [started_submitAppCommand] at hstarted
      cases hinvoked : rt.invoked command given with
      | none => simp [hinvoked] at hstarted
      | some invoke =>
        have hinput : (rt.invokeInput R payload invoke.2).isSome := by
          by_contra hnot
          simp [hinvoked, Option.not_isSome_iff_eq_none.1 hnot] at hstarted
        obtain ⟨hcommand, hgiven⟩ := route_command hroute
        obtain ⟨hplaced, hname⟩ := h (by simpa using hcompatible) hnone invoke.1
          ⟨command, given, invoke.2, hcommand, hgiven, hinvoked, invokeInput_empty hinput⟩
        refine ⟨hplaced, fun name hmem => ?_⟩
        simp only [named, hroute, hinvoked] at hmem
        cases hmem
        exact hname
    · exact absurd (started_submitHostConnectorTerminal ..) hstarted
    · next target input hroute =>
      replace hstarted := hstarted ∘ (started_finishCapabilityStep _ _).trans
      refine ⟨?_, fun name hname => ?_⟩
      · unfold begin at hstarted
        split at hstarted
        · exact absurd (append_nil _) hstarted
        next decision hdecision =>
        by_cases htarget : decision.target = rt.hostPlacementTarget
        · exact ⟨decision, hdecision, htarget⟩
        · rw [if_pos htarget] at hstarted
          exact absurd (append_nil _) hstarted
      · simp only [named, hroute] at hname
        cases hname
        exact route_target hroute

def deviceRuntime : RuntimeState Nat where
  capabilityId := "demo.cap"
  permittedTargets := [.device]
  hostPlacementTarget := .device
  targetHint := none
  runtimeSnapshot := idleRuntimeSnapshot
  compatible := false
  suspended := none
  executionCounter := 0
  pendingEvents := []
  appStateMachine := none
  appSessions := fun _ => none
  lastHostConnectorResult := none
  started := []

/-- A guest that asks a connector twice and emits an event at its end. -/
def askingEngine : Engine Nat Unit where
  start deferred _ := if deferred then .ok (.suspended 1)
    else .error "execution: connector call failed"
  resume
    | 0, _ => .ok (.finished ⟨.null, [("order.placed", "1.0.0", .null)], []⟩)
    | n + 1, _ => .ok (.suspended n)
  response _ := some ()

/-- One command leads from `idle` into the invoke of another capability than the loaded one. -/
def otherMachine : AppStateMachine where
  initialState := "idle"
  states := fun state => [("idle", ⟨none, [⟨"go", "work"⟩]⟩),
    ("work", ⟨some (.capability "other.cap" "command.payload"), []⟩)].lookup state
  declared := rfl

/-- A command starts the loaded guest for a capability of another name, on a device, although the
capability may run in the cloud only. -/
theorem guest_unplaced :
    let rt := { deviceRuntime with
      permittedTargets := [.cloud], appStateMachine := some otherMachine }
    let request := utf8 "\x7b\"kind\":\"app_command\",\"command\":\"go\"\x7d".toList
    (rt.submit askingEngine jsonReader request).2.started = ["\x7b\x7d"] ∧
    rt.named jsonReader request = some "other.cap" ∧ "other.cap" ≠ rt.capabilityId ∧
    ¬ rt.Placed := by
  refine ⟨by decide +kernel, by decide +kernel, by decide, ?_⟩
  rintro ⟨decision, hdecision, htarget⟩
  have hcloud : evaluateTargets none idleRuntimeSnapshot [.cloud] =
      .ok ⟨.cloud, .contractConstrained, .high⟩ := by decide +kernel
  cases hcloud.symm.trans hdecision
  cases htarget

/-! ## Reports -/

/-- The submit that opens a session, the input it has for the guest, and the submits while the guest
is suspended. -/
structure Session where
  (request input : Bytes)
  answers : List Bytes

section

variable (E : Engine σ ρ) (R : JsonReader) (rt : RuntimeState σ)

/-- An answer is delivered to a guest that waits for one. -/
def answer : Except String (NestedRun σ) → Bytes → Except String (NestedRun σ)
  | .ok (.suspended execution), request => E.resume execution (parseConnectorAnswer E R request)
  | run, _ => run

def runOf (input : Bytes) (answers : List Bytes) : Except String (NestedRun σ) :=
  answers.foldl (answer E R) (rt.begin E R input).2.1

def waiting : Except String (NestedRun σ) → Option σ
  | .ok (.suspended execution) => some execution
  | _ => none

/-- What is reported of a run that has ended. -/
def report : Except String (NestedRun σ) → List CapabilityEvent
  | .ok (.suspended _) => []
  | .ok (.finished outcome) => outcome.emittedEvents.map .emitted ++
      [.result (.ok (outcome.output, outcome.connectorInvocationEvidence))]
  | .error error => [.result (.error error)]

def sessionEvents (s : Session) : List CapabilityEvent :=
  .invoked (rt.begin E R s.input).1 :: report (rt.runOf E R s.input s.answers)

/-- The events of the sessions from the first on. -/
def sessionLog (sessions : List Session) : List (String × CapabilityEvent) :=
  (sessions.zipIdx 1).flatMap fun (s, n) =>
    (rt.sessionEvents E R s).map (sessionIdOf rt.capabilityId n, ·)

/-- The runtime after its sessions: the last one may be suspended. -/
def afterSessions (sessions : List Session) : RuntimeState σ :=
  { rt with
    executionCounter := sessions.length
    pendingEvents := rt.sessionLog E R sessions
    suspended := sessions.getLast?.bind fun s => (waiting (rt.runOf E R s.input s.answers)).map
      (sessionIdOf rt.capabilityId sessions.length, ·)
    started := sessions.flatMap fun s => (rt.begin E R s.input).2.2.toList }

/-- A submit, and the list of those that were not rejected. -/
def serve (served : RuntimeState σ × List Bytes) (request : Bytes) : RuntimeState σ × List Bytes :=
  match served.1.submit E R request with
  | (.rejected .., rt) => (rt, served.2)
  | (_, rt) => (rt, served.2 ++ [request])

/-- The sessions account for the submits and for the runtime: every submit opens a session or
answers the one that is suspended, and only the last session can be. -/
structure Accounts (sessions : List Session) (served : RuntimeState σ × List Bytes) : Prop where
  runtime : served.1 = rt.afterSessions E R sessions
  submits : served.2 = sessions.flatMap fun s => s.request :: s.answers
  opened : ∀ s ∈ sessions, ∃ target, rt.route R s.request = .capability target s.input
  answered : ∀ s ∈ sessions, ∀ given, given <+: s.answers → given ≠ s.answers →
    waiting (rt.runOf E R s.input given) ≠ none
  ended : ∀ s ∈ sessions.dropLast, waiting (rt.runOf E R s.input s.answers) = none

end

variable {sessions : List Session} {s : Session}

theorem finishCapabilityStep_eq (h : rt.suspended = none) (sessionId : String)
    (run : Except String (NestedRun σ)) : (rt.finishCapabilityStep sessionId run).2 =
      { rt.queue sessionId (report run) with suspended := (waiting run).map (sessionId, ·) } := by
  rcases run with error | outcome | execution
  · simp [finishCapabilityStep, queue, report, waiting, h]
  · simp [finishCapabilityStep, queue, report, waiting, h]
  · simp [finishCapabilityStep, queue, report, waiting]

theorem sessionLog_concat : rt.sessionLog E R (sessions ++ [s]) = rt.sessionLog E R sessions ++
    (rt.sessionEvents E R s).map (sessionIdOf rt.capabilityId (sessions.length + 1), ·) := by
  simp [sessionLog, zipIdx_append, Nat.add_comm 1]

/-- The runtime with one more session. -/
theorem afterSessions_concat : rt.afterSessions E R (sessions ++ [s]) =
    { rt with
      executionCounter := sessions.length + 1
      pendingEvents := rt.sessionLog E R sessions ++
        (rt.sessionEvents E R s).map (sessionIdOf rt.capabilityId (sessions.length + 1), ·)
      suspended := (waiting (rt.runOf E R s.input s.answers)).map
        (sessionIdOf rt.capabilityId (sessions.length + 1), ·)
      started :=
        (rt.afterSessions E R sessions).started ++ (rt.begin E R s.input).2.2.toList } := by
  simp [afterSessions, sessionLog_concat]

theorem runOf_concat {input request : Bytes} {answers : List Bytes} {execution : σ}
    (h : waiting (rt.runOf E R input answers) = some execution) :
    rt.runOf E R input (answers ++ [request]) =
      E.resume execution (parseConnectorAnswer E R request) := by
  have hrun : rt.runOf E R input answers = .ok (.suspended execution) := by
    unfold waiting at h
    grind
  rw [runOf, foldl_append, show answers.foldl _ _ = _ from hrun]
  rfl

/-- A submit for a guest that is suspended is its answer. -/
theorem submit_answers {execution : σ} (request : Bytes) (hcompatible : rt.compatible = false)
    (hwaiting : waiting (rt.runOf E R s.input s.answers) = some execution) :
    (∀ id error, ((rt.afterSessions E R (sessions ++ [s])).submit E R request).1 ≠
      .rejected id error) ∧
    ((rt.afterSessions E R (sessions ++ [s])).submit E R request).2 =
      rt.afterSessions E R (sessions ++ [{ s with answers := s.answers ++ [request] }]) := by
  have hevents : rt.sessionEvents E R s = [.invoked (rt.begin E R s.input).1] := by
    unfold waiting at hwaiting
    unfold sessionEvents report
    grind
  have hsubmit : (rt.afterSessions E R (sessions ++ [s])).submit E R request =
      { rt.afterSessions E R (sessions ++ [s]) with suspended := none }.finishCapabilityStep
        (sessionIdOf rt.capabilityId (sessions.length + 1))
        (rt.runOf E R s.input (s.answers ++ [request])) := by
    rw [runOf_concat hwaiting]
    simp [submit, afterSessions_concat, hwaiting, hcompatible]
  rw [hsubmit]
  constructor
  · intro id error
    unfold finishCapabilityStep
    split <;> nofun
  · rw [finishCapabilityStep_eq rfl, afterSessions_concat, afterSessions_concat, hevents]
    simp [queue, sessionEvents]

/-- A submit that nobody waits for opens a session. -/
theorem submit_opens {target : Option String} {request input : Bytes}
    (hcompatible : rt.compatible = false) (hnone : (rt.afterSessions E R sessions).suspended = none)
    (hroute : rt.route R request = .capability target input) :
    (∀ id error, ((rt.afterSessions E R sessions).submit E R request).1 ≠ .rejected id error) ∧
    ((rt.afterSessions E R sessions).submit E R request).2 =
      rt.afterSessions E R (sessions ++ [⟨request, input, []⟩]) := by
  have hsubmit : (rt.afterSessions E R sessions).submit E R request =
      (rt.afterSessions E R sessions).submitCapability E R input := by
    have hroute' : (rt.afterSessions E R sessions).route R request = _ := hroute
    have hcompatible' : (rt.afterSessions E R sessions).compatible = false := hcompatible
    simp [submit, hcompatible', hnone, hroute']
  rw [hsubmit]
  constructor
  · intro id error
    unfold submitCapability finishCapabilityStep
    grind
  · have hbegin : (rt.afterSessions E R sessions).begin E R input = rt.begin E R input := rfl
    simp only [submitCapability, hbegin]
    rw [finishCapabilityStep_eq (by exact hnone), afterSessions_concat]
    simp [queue, sessionEvents, runOf, afterSessions]

theorem serve_eq {served : List Bytes} {request : Bytes}
    (h : ∀ id error, (rt.submit E R request).1 ≠ .rejected id error) :
    serve E R (rt, served) request = ((rt.submit E R request).2, served ++ [request]) := by
  unfold serve
  split
  · next hrejected => exact absurd (congrArg Prod.fst hrejected) (h _ _)
  · next hsubmit => rw [hsubmit]

theorem submit_rejected (hmachine : rt.appStateMachine = none) (hnone : rt.suspended = none)
    {request : Bytes} (hroute : ∀ target input, rt.route R request ≠ .capability target input) :
    ∃ id error, rt.submit E R request = (.rejected id error, rt) := by
  cases hcompatible : rt.compatible with
  | true => exact ⟨_, _, if_pos hcompatible⟩
  | false =>
    cases h : rt.route R request with
    | rejected error => exact ⟨"", error, by simp [submit, hcompatible, hnone, h]⟩
    | capability target input => exact absurd h (hroute target input)
    | _ => exact ⟨_, _, by
        simp only [submit, hcompatible, hnone, h, submitAppCommand, submitHostConnectorTerminal,
          hmachine]
        rfl⟩

/-- One submit: it is rejected, answers the session that is suspended, or opens one. -/
theorem Accounts.serve {served : RuntimeState σ × List Bytes} (hmachine : rt.appStateMachine = none)
    (h : Accounts E R rt sessions served) (request : Bytes) :
    ∃ sessions, Accounts E R rt sessions (serve E R served request) := by
  obtain ⟨now, submits⟩ := served
  obtain ⟨rfl, rfl, hopened, hanswered, hended⟩ := h
  have hkept : (∃ id error, (rt.afterSessions E R sessions).submit E R request =
      (.rejected id error, rt.afterSessions E R sessions)) →
      ∃ sessions', Accounts E R rt sessions' (RuntimeState.serve E R (rt.afterSessions E R sessions,
        sessions.flatMap fun s => s.request :: s.answers) request) := by
    rintro ⟨id, error, hsubmit⟩
    refine ⟨sessions, ?_, ?_, hopened, hanswered, hended⟩ <;> simp [RuntimeState.serve, hsubmit]
  cases hcompatible : rt.compatible with
  | true => exact hkept ⟨_, _, if_pos hcompatible⟩
  | false =>
    cases hsuspended : (rt.afterSessions E R sessions).suspended with
    | some waits =>
      obtain ⟨s, hlast, hwaits⟩ := Option.bind_eq_some_iff.1 hsuspended
      obtain ⟨execution, hwaiting, -⟩ := Option.map_eq_some_iff.1 hwaits
      obtain ⟨init, rfl⟩ := getLast?_eq_some_iff.1 hlast
      obtain ⟨haccepted, hafter⟩ := submit_answers request hcompatible hwaiting
      rw [serve_eq haccepted, hafter]
      rw [forall_mem_append, forall_mem_singleton] at hopened hanswered
      refine ⟨init ++ [{ s with answers := s.answers ++ [request] }], rfl, by simp, ?_, ?_, ?_⟩
      · exact forall_mem_append.2 ⟨hopened.1, forall_mem_singleton.2 hopened.2⟩
      · refine forall_mem_append.2 ⟨hanswered.1, forall_mem_singleton.2 fun given hgiven hne => ?_⟩
        obtain rfl | hgiven := prefix_concat_iff.1 hgiven
        · exact absurd rfl hne
        by_cases hsame : given = s.answers
        · simp [hsame, hwaiting]
        · exact hanswered.2 given hgiven hsame
      · simpa using hended
    | none =>
      by_cases hroute : ∃ target input, rt.route R request = .capability target input
      · obtain ⟨target, input, hroute⟩ := hroute
        obtain ⟨haccepted, hafter⟩ := submit_opens hcompatible hsuspended hroute
        rw [serve_eq haccepted, hafter]
        refine ⟨sessions ++ [⟨request, input, []⟩], rfl, by simp, ?_, ?_, ?_⟩
        · exact forall_mem_append.2 ⟨hopened, forall_mem_singleton.2 ⟨target, hroute⟩⟩
        · exact forall_mem_append.2 ⟨hanswered, forall_mem_singleton.2 fun given hgiven hne =>
            absurd (prefix_nil.1 hgiven) hne⟩
        · -- nobody waits, so the last session has ended too
          rw [dropLast_concat]
          rcases eq_nil_or_concat' sessions with rfl | ⟨init, s, rfl⟩
          · nofun
          · rw [dropLast_concat] at hended
            have hlast : waiting (rt.runOf E R s.input s.answers) = none := by
              simpa [afterSessions_concat] using hsuspended
            exact forall_mem_append.2 ⟨hended, forall_mem_singleton.2 hlast⟩
      · push Not at hroute
        exact hkept (@submit_rejected _ _ _ _ (rt.afterSessions E R sessions) hmachine hsuspended _
          hroute)

end RuntimeState

end Traverse.Wasm

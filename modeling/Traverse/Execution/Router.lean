import Mathlib.Algebra.Order.Ring.Rat
import Traverse.Execution.Types
import Traverse.Trace.Entry

/-!
# Execution.Router

The placement router (`router/mod.rs`) and what it acts on. `Services` are the parts a host plugs
into the runtime, over a world of their own; `State` is that world with what the runtime owns, the
trace store and the cache of hydrated contracts. Calls of the executor, publications and lifecycle
events are logged in the state next to their effect on the world.

`executeWithExecutor` stores the trace and publishes the events of an execution before it returns,
see `executeWithExecutor_accepted`.
-/

namespace Traverse.Execution

open Json (Doc)
open Lines (Bytes)
open Text (trim)
open Trace (PublicTraceEntry PrivateTraceEntry TraceOutcome)
open Events (EventError)

/-! ## Identity and artifact trust (`security.rs`)

`deriveIdentityFromJwt` reads the subject and the actor out of a token for the record, without a
look at its signature. SHA-256, Ed25519, the JSON reader and the list of governed paths are
parameters. -/

structure Primitives where
  sha256Hex : Bytes → String
  /-- The key is one, and the signature over the message verifies under it. -/
  ed25519 : (key message signature : Bytes) → Bool
  /-- `serde_json::from_slice`. -/
  fromSlice : Bytes → Option Doc
  /-- `serde_json::to_string`. -/
  toText : Doc → String
  isGovernedArtifactPath : String → Bool

/-- `str::strip_prefix`. -/
def stripped (pre text : String) : Option String :=
  if pre.toList.isPrefixOf text.toList then
    some (String.ofList (text.toList.drop pre.toList.length))
  else none

def nonEmpty (value : String) : Bool := !(trim value).isEmpty

/-! ## Identity -/

def sextet (ch : Char) : Option Nat :=
  if 'A' ≤ ch ∧ ch ≤ 'Z' then some (ch.toNat - 65)
  else if 'a' ≤ ch ∧ ch ≤ 'z' then some (ch.toNat - 97 + 26)
  else if '0' ≤ ch ∧ ch ≤ '9' then some (ch.toNat - 48 + 52)
  else if ch = '-' then some 62
  else if ch = '_' then some 63
  else none

/-- Four sextets are three bytes; two or three at the end are one or two. -/
def unpackSextets : List Nat → Bytes
  | a :: b :: c :: d :: rest =>
    let n := a * 262144 + b * 4096 + c * 64 + d
    UInt8.ofNat (n / 65536 % 256) :: UInt8.ofNat (n / 256 % 256) :: UInt8.ofNat (n % 256) ::
      unpackSextets rest
  | [a, b, c] =>
    let n := a * 262144 + b * 4096 + c * 64
    [UInt8.ofNat (n / 65536 % 256), UInt8.ofNat (n / 256 % 256)]
  | [a, b] =>
    let n := a * 262144 + b * 4096
    [UInt8.ofNat (n / 65536 % 256)]
  | _ => []

def base64urlDecode (input : List Char) : Option Bytes :=
  match input.mapM sextet with
  | none => none
  | some sextets => if sextets.length % 4 = 1 then none else some (unpackSextets sextets)

def nonEmptyText (value : Doc) : Option String :=
  value.asStr?.filter nonEmpty

def deriveIdentityFromJwt (primitives : Primitives) (token : String) : Option RuntimeIdentity :=
  match token.toList.splitOn '.' with
  | [_, payload, _] => do
    let bytes ← base64urlDecode payload
    let value ← primitives.fromSlice bytes
    let subjectId ← (value.field? "sub").bind nonEmptyText
    return {
      subjectId := subjectId
      actorId := ((value.field? "act").bind (Doc.field? "sub")).bind nonEmptyText
      tokenReferenceHash := primitives.sha256Hex (Json.utf8 token.toList) }
  | _ => none

/-! ## Artifact verification -/

inductive ArtifactVerificationFailure where
  | missingChecksum (record : ArtifactVerificationRecord)
  | checksumMismatch (record : ArtifactVerificationRecord)
  | missingSignature (record : ArtifactVerificationRecord)
  | signatureVerificationFailed (record : ArtifactVerificationRecord)
  | sigstoreUnreachable (record : ArtifactVerificationRecord)
  deriving DecidableEq, Repr

def ArtifactVerificationFailure.code : ArtifactVerificationFailure → String
  | .missingChecksum _ => "missing_checksum"
  | .checksumMismatch _ => "checksum_mismatch"
  | .missingSignature _ => "missing_signature"
  | .signatureVerificationFailed _ => "signature_verification_failed"
  | .sigstoreUnreachable _ => "sigstore_unreachable"

def ArtifactVerificationFailure.record : ArtifactVerificationFailure → ArtifactVerificationRecord
  | .missingChecksum record | .checksumMismatch record | .missingSignature record
  | .signatureVerificationFailed record | .sigstoreUnreachable record => record

def rejectedRecord (trustLevel : ArtifactTrustLevel) (scheme : Option ArtifactSignatureScheme)
    (errorCode : String) : ArtifactVerificationRecord :=
  ⟨.rejected, trustLevel, scheme, none, some errorCode⟩

def verifiedLocalRecord (trustLevel : ArtifactTrustLevel) : ArtifactVerificationRecord :=
  ⟨.verified, trustLevel, none, none, none⟩

def signatureVerificationFailed (trustLevel : ArtifactTrustLevel) : ArtifactVerificationFailure :=
  .signatureVerificationFailed
    (rejectedRecord trustLevel (some .ed25519) "signature_verification_failed")

def artifactTrustLevel (primitives : Primitives) (capability : ResolvedCapability) :
    ArtifactTrustLevel :=
  if capability.artifact.sourceKind = .localSource then .localDev
  else if primitives.isGovernedArtifactPath capability.record.contractPath then .publishedGoverned
  else .localDev

def hexNibble (ch : Char) : Option Nat :=
  if '0' ≤ ch ∧ ch ≤ '9' then some (ch.toNat - 48)
  else if 'a' ≤ ch ∧ ch ≤ 'f' then some (ch.toNat - 97 + 10)
  else if 'A' ≤ ch ∧ ch ≤ 'F' then some (ch.toNat - 65 + 10)
  else none

def hexDecode (input : String) : Option Bytes := Hex.pairs hexNibble input.toList

def verifyEd25519 (primitives : Primitives) (signature : ArtifactSignature) (artifactBytes : Bytes)
    (trustLevel : ArtifactTrustLevel) :
    Except ArtifactVerificationFailure ArtifactVerificationRecord :=
  match signature.publicKeyHex.bind hexDecode, signature.signatureHex.bind hexDecode with
  | some key, some bytes =>
    if key.length = 32 ∧ bytes.length = 64 ∧ primitives.ed25519 key artifactBytes bytes then
      .ok ⟨.verified, trustLevel, some .ed25519, none, none⟩
    else .error (signatureVerificationFailed trustLevel)
  | _, _ => .error (signatureVerificationFailed trustLevel)

def verifySigstore (trustLevel : ArtifactTrustLevel) :
    Except ArtifactVerificationFailure ArtifactVerificationRecord :=
  .error (.sigstoreUnreachable (rejectedRecord trustLevel (some .sigstore) "sigstore_unreachable"))

def eqIgnoreAsciiCase (a b : String) : Bool :=
  a.toList.map Char.toLower == b.toList.map Char.toLower

def verifyChecksum (primitives : Primitives) (capability : ResolvedCapability)
    (artifactBytes : Bytes) (trustLevel : ArtifactTrustLevel) :
    Except ArtifactVerificationFailure Unit :=
  if trustLevel ≠ .publishedGoverned then .ok ()
  else
    match capability.artifact.binaryDigest with
    | none => .error (.missingChecksum (rejectedRecord trustLevel none "missing_checksum"))
    | some expected =>
      if eqIgnoreAsciiCase ((stripped "sha256:" expected).getD expected)
          (primitives.sha256Hex artifactBytes) then .ok ()
      else .error (.checksumMismatch (rejectedRecord trustLevel none "checksum_mismatch"))

def verifyArtifact (primitives : Primitives) (capability : ResolvedCapability)
    (artifactBytes : Bytes) (mode : RuntimeSecurityMode) :
    Except ArtifactVerificationFailure ArtifactVerificationRecord :=
  let trustLevel := artifactTrustLevel primitives capability
  match capability.artifact.binary with
  | none => .ok (verifiedLocalRecord trustLevel)
  | some binary =>
    match binary.signature with
    | none =>
      if trustLevel = .localDev ∧ mode = .development then
        .ok ⟨.warning, trustLevel, none, some "unsigned_local_dev_artifact", none⟩
      else .error (.missingSignature (rejectedRecord trustLevel none "missing_signature"))
    | some signature => do
      let verification ← match signature.scheme with
        | .ed25519 => verifyEd25519 primitives signature artifactBytes trustLevel
        | .sigstore => verifySigstore trustLevel
      verifyChecksum primitives capability artifactBytes trustLevel
      return verification

/-! ## Services and state -/

/-- What the host supplies, each answer together with the world it leaves. Reading a file and
looking at the clock leave the world alone; hydration touches only the cache. -/
structure Services (σ κ : Type) where
  /-- `LocalExecutor::execute`. -/
  execute : ResolvedCapability → Doc → σ → Except LocalExecutionFailure LocalExecutionOutput × σ
  /-- `fs::read`. -/
  read : σ → String → Except String Bytes
  /-- `ContractHydrationCache::hydrate`. -/
  hydrate : σ → String → String → κ → Except HydrationError CapabilityContract × κ
  publish : TraverseEvent → σ → Except EventError Unit × σ
  subscribe : (eventType fromCursor : String) → σ → Except EventError Subscription × σ
  poll : String → Nat → σ → Except EventError SubscriptionPoll × σ
  cancel : String → σ → Except EventError Unit × σ
  /-- `RuntimeEventSink::emit`. -/
  emit : TraverseEvent → σ → Except EventError Unit × σ
  /-- The lock of the trace store is poisoned. -/
  poisoned : σ → Bool
  (now uuid : σ → String)
  elapsedMs : σ → Nat

/-- `TraceStore`: entries by trace id. -/
abbrev TraceStore := String → Option (PublicTraceEntry Doc × Option PrivateTraceEntry)

def TraceStore.insert (store : TraceStore) (entry : PublicTraceEntry Doc)
    (privateEntry : Option PrivateTraceEntry) : TraceStore :=
  Function.update store entry.id (some (entry, privateEntry))

/-- The store reports a success under the trace id. -/
def TraceStore.HoldsSuccess (store : TraceStore) (traceId : String) : Prop :=
  ∃ entry, store traceId = some entry ∧ entry.1.outcome = .success

/-- A call of the executor, and where it was made. -/
structure ExecutorCall (σ κ : Type) where
  capability : ResolvedCapability
  input : Doc
  world : σ
  cache : κ

structure State (σ κ : Type) where
  world : σ
  cache : κ
  traceStore : TraceStore
  calls : List (ExecutorCall σ κ)
  /-- Events handed to `EventBroker::publish`. -/
  published : List TraverseEvent
  /-- Events handed to `RuntimeEventSink::emit`. -/
  emitted : List TraverseEvent

section Effects

variable {σ κ : Type} (services : Services σ κ)

namespace State

variable (s : State σ κ)

def callExecutor (capability : ResolvedCapability) (input : Doc) :
    Except LocalExecutionFailure LocalExecutionOutput × State σ κ :=
  let answer := services.execute capability input s.world
  (answer.1, { s with
    world := answer.2
    calls := s.calls ++ [⟨capability, input, s.world, s.cache⟩] })

/-- A publication; its answer is not looked at. -/
def publish (s : State σ κ) (event : TraverseEvent) : State σ κ :=
  { s with
    world := (services.publish event s.world).2
    published := s.published ++ [event] }

variable (events : List TraverseEvent)

def publishAll : State σ κ :=
  events.foldl (publish services) s

@[simp] theorem publishAll_published :
    (s.publishAll services events).published = s.published ++ events := by
  induction events generalizing s with
  | nil => exact (List.append_nil _).symm
  | cons event events ih =>
    have hrest := ih (s.publish services event)
    rw [publishAll] at hrest
    rw [publishAll, List.foldl_cons, hrest, publish, List.append_assoc]
    rfl

theorem publishAll_frame :
    (s.publishAll services events).traceStore = s.traceStore ∧
      (s.publishAll services events).calls = s.calls ∧
      (s.publishAll services events).emitted = s.emitted ∧
      (s.publishAll services events).cache = s.cache := by
  induction events generalizing s with
  | nil => exact ⟨rfl, rfl, rfl, rfl⟩
  | cons event events ih => exact ih (s.publish services event)

end State

end Effects

/-! ## Placement -/

inductive PlacementReason where
  | callerHintAccepted
  | contractConstrained
  | heuristicSelected
  deriving DecidableEq, Repr

inductive PlacementConfidence where
  | high
  | medium
  | low
  deriving DecidableEq, Repr

structure PlacementDecision where
  target : ExecutionTarget
  reason : PlacementReason
  confidence : PlacementConfidence
  deriving DecidableEq, Repr

inductive PlacementError where
  | noEligibleTarget
  deriving DecidableEq, Repr

def confidenceFor (load : ℚ) : PlacementConfidence :=
  if load < 1 / 2 then .high else if load < 3 / 4 then .medium else .low

/-- The least loaded of the targets, the first by name among equals. -/
def leastLoaded (loads : ExecutionTarget → ℚ) : List ExecutionTarget → Option ExecutionTarget
  | [] => none
  | t :: ts => some (ts.foldl (fun best u =>
      if loads u < loads best ∨ loads u = loads best ∧ u.debug < best.debug then u else best) t)

def evaluateTargets (hint : Option ExecutionTarget) (loads : ExecutionTarget → ℚ)
    (permittedTargets : List ExecutionTarget) : Except PlacementError PlacementDecision :=
  match hint.filter (permittedTargets.contains ·) with
  | some target => .ok ⟨target, .callerHintAccepted, confidenceFor (loads target)⟩
  | none =>
    match leastLoaded loads (permittedTargets.filter fun t => loads t ≤ 9 / 10) with
    | none => .error .noEligibleTarget
    | some target =>
      .ok ⟨target,
        if permittedTargets.length = 1 then .contractConstrained else .heuristicSelected,
        confidenceFor (loads target)⟩

def idleRuntimeSnapshot : ExecutionTarget → ℚ := fun _ => 0

/-! ## Routing -/

inductive ExecutorError where
  | executionFailed (message : String)
  deriving DecidableEq, Repr

def ExecutorError.display : ExecutorError → String
  | .executionFailed message => s!"execution failed: {message}"

structure ExecutorOutput where
  value : Doc
  emittedEvents : List TraverseEvent

structure RouterRequest where
  capabilityId : String
  contract : CapabilityContract
  targetHint : Option ExecutionTarget
  runtimeSnapshot : ExecutionTarget → ℚ
  input : Doc
  traceIdOverride : Option String

inductive RouterError where
  | placementFailed (error : PlacementError)
  | executorNotFound (artifactType : String)
  | executionFailed (message : String)
  | contractViolation (violations : List Trace.ViolationRecord)
  | traceLockPoisoned
  | durableTraceWriteFailed (message : String)
  deriving DecidableEq, Repr

structure RouterResponse where
  output : Doc
  emittedEvents : List TraverseEvent
  traceId : String
  placementDecision : PlacementDecision

def PrivateTraceEntry.hashed (primitives : Primitives) (traceId inputs outputs : String)
    (resourceUsageMs : Nat) : PrivateTraceEntry where
  traceId := traceId
  inputsHash := primitives.sha256Hex (Json.utf8 inputs.toList)
  outputsHash := primitives.sha256Hex (Json.utf8 outputs.toList)
  resourceUsageMs := resourceUsageMs

section Route

variable {σ κ : Type} (services : Services σ κ) (primitives : Primitives) (request : RouterRequest)

/-- Step 4, the trace of an execution that succeeded. -/
def recordTrace (decision : PlacementDecision) (output : Doc)
    (s : State σ κ) : String × State σ κ :=
  let traceId := request.traceIdOverride.getD (services.uuid s.world)
  let durationMs := services.elapsedMs s.world
  let publicEntry :=
    PublicTraceEntry.new traceId request.capabilityId decision.target.debug .success
    durationMs (services.now s.world)
  let privateEntry := PrivateTraceEntry.hashed primitives traceId (primitives.toText request.input)
    (primitives.toText output) durationMs
  (traceId, { s with traceStore := s.traceStore.insert publicEntry (some privateEntry) })

variable (executor : State σ κ → Except ExecutorError ExecutorOutput × State σ κ)

/-- `execute_with_executor`, of a router without a durable trace. -/
def executeWithExecutor (s : State σ κ) :
    Except RouterError RouterResponse × State σ κ :=
  match evaluateTargets request.targetHint request.runtimeSnapshot
      request.contract.permittedTargets with
  | .error error => (.error (.placementFailed error), s)
  | .ok decision =>
    match executor s with
    | (.error error, s) => (.error (.executionFailed error.display), s)
    | (.ok output, s) =>
      if services.poisoned s.world then (.error .traceLockPoisoned, s)
      else
        let recorded := recordTrace services primitives request decision output.value s
        if request.contract.serviceType = .subscribable then
          (.ok ⟨output.value, output.emittedEvents, recorded.1, decision⟩,
            recorded.2.publishAll services output.emittedEvents)
        else (.ok ⟨output.value, [], recorded.1, decision⟩, recorded.2)

/-- The events a response lists are those that were handed to the broker. -/
def routedEvents (output : ExecutorOutput) : List TraverseEvent :=
  if request.contract.serviceType = .subscribable then output.emittedEvents else []

/-- What the router records: it found a target, the executor answered and the store can be
locked. -/
def accepted (s : State σ κ) :
    Option (ExecutorOutput × PlacementDecision) :=
  match evaluateTargets request.targetHint request.runtimeSnapshot
      request.contract.permittedTargets, (executor s).1 with
  | .ok decision, .ok output =>
    if services.poisoned (executor s).2.world then none else some (output, decision)
  | _, _ => none

variable {services primitives} {request : RouterRequest}
  {executor : State σ κ → Except ExecutorError ExecutorOutput × State σ κ} {s : State σ κ}

/-- What is accepted is stored as a success and published before the router answers. -/
theorem executeWithExecutor_accepted {output : ExecutorOutput} {decision : PlacementDecision}
    (h : accepted services request executor s = some (output, decision)) :
    executeWithExecutor services primitives request executor s =
      (.ok ⟨output.value, routedEvents request output,
          (recordTrace services primitives request decision output.value (executor s).2).1,
          decision⟩,
        (recordTrace services primitives request decision output.value (executor s).2).2.publishAll
          services (routedEvents request output)) := by
  unfold accepted at h
  split at h
  case _ placed answer hplaced hanswer =>
    split at h
    · cases h
    next hpoisoned =>
    cases h
    have hexecutor : executor s = (.ok output, (executor s).2) := Prod.ext hanswer rfl
    unfold executeWithExecutor
    rw [hplaced, hexecutor]
    simp only [if_neg hpoisoned, routedEvents]
    split <;> rfl
  · cases h

/-- A router that does not accept leaves what it was given or what the executor left. -/
theorem executeWithExecutor_refused (h : accepted services request executor s = none) :
    ∃ error after, executeWithExecutor services primitives request executor s =
      (.error error, after) ∧ (after = s ∨ after = (executor s).2) := by
  unfold accepted at h
  unfold executeWithExecutor
  cases hplaced : evaluateTargets request.targetHint request.runtimeSnapshot
      request.contract.permittedTargets with
  | error error => exact ⟨_, s, rfl, .inl rfl⟩
  | ok decision =>
    rcases hanswer : executor s with ⟨answer, after⟩
    cases answer with
    | error error => exact ⟨_, after, rfl, .inr rfl⟩
    | ok output =>
      simp only [hplaced, hanswer] at h
      split at h
      case _ hpoisoned =>
        simp only [if_pos hpoisoned]
        exact ⟨_, after, rfl, .inr rfl⟩
      · cases h

end Route

end Traverse.Execution

import Traverse.Events.Codec
import Traverse.Storage.Envelope
import Traverse.Sys.Window

/-!
# Hosted.Connection

The types of the hosted transport port, and the checks of credentials and operations that both
implementations make in the same words (`Connection`). Observations are left out: nothing reads
them.
-/

namespace Traverse.Hosted

open Lines Json Events

/-! ## The event envelope that carries an operation -/

structure EncryptedSyncOperation where
  (operationId synchronizationSetId writerId : String)
  lamportClock : Nat
  (correlationId causationId : Option String)
  keyVersionId : String
  ciphertext : Bytes
  deriving DecidableEq

inductive HostedSyncErrorCode where
  | unauthorizedScope
  | credentialExpired
  | credentialMismatch
  | invalidEnvelope
  | keyMismatch
  | providerUnavailable
  | notConnected
  | resyncRequired
  deriving DecidableEq

structure HostedSyncError where
  code : HostedSyncErrorCode
  message : String
  details : Value
  deriving DecidableEq

def syncProtocolSpec : String := "089-datastore-synchronization"

def hexNibble (c : Char) : Option Nat := Json.hexDigitValue c

def bytesToHex (bytes : Bytes) : String := String.ofList (Hex.encode bytes)

def hexDecode (input : String) : Option Bytes :=
  if input.utf8ByteSize % 2 = 0 then Hex.pairs hexNibble input.toList else none

variable (sha256 : Bytes → Bytes)

def hexDigest (bytes : Bytes) : String := bytesToHex (sha256 bytes)

def wrapEccaEvent (operation : EncryptedSyncOperation) : TraverseEvent where
  id := s!"evt-{operation.operationId}"
  source := "traverse-runtime/hosted-sync"
  eventType := "dev.traverse.datastore.sync.operation"
  datacontenttype := "application/json"
  time := "1970-01-01T00:00:00Z"
  data := .obj [("operation_id", .str operation.operationId),
    ("synchronization_set_id", .str operation.synchronizationSetId),
    ("writer_id", .str operation.writerId), ("lamport_clock", .int operation.lamportClock),
    ("key_version_id", .str operation.keyVersionId),
    ("ciphertext_sha256", .str (hexDigest sha256 operation.ciphertext)),
    ("ciphertext", .str (bytesToHex operation.ciphertext))]
  owner := "hosted-sync"
  version := syncProtocolSpec
  lifecycleStatus := .active
  deduplicationId := some operation.operationId
  orderingScope := some operation.synchronizationSetId
  correlationId := operation.correlationId
  causationId := operation.causationId
  subjectId := none
  actorId := some operation.writerId

/-- `value.get(field)`. -/
def fieldOf (value : Value) (field : String) : Option Value :=
  match value with
  | .obj fields => fields.lookup field
  | _ => none

def invalidEnvelope (message : String) (details : Value) : HostedSyncError :=
  ⟨.invalidEnvelope, message, details⟩

def requiredString (value : Value) (field : String) : Except HostedSyncError String :=
  match fieldOf value field with
  | some (.str s) => .ok s
  | _ => .error (invalidEnvelope "ECCA sync envelope missing required field"
      (.obj [("field", .str field)]))

def operationFromEccaEvent (event : TraverseEvent) :
    Except HostedSyncError EncryptedSyncOperation := do
  let ciphertextHex ← match fieldOf event.data "ciphertext" with
    | some (.str s) => .ok s
    | _ => .error (invalidEnvelope "ECCA sync envelope missing ciphertext" (.obj []))
  let ciphertext ← match hexDecode ciphertextHex with
    | some bytes => .ok bytes
    | none => .error (invalidEnvelope "ECCA sync envelope ciphertext is not valid hex" (.obj []))
  let operationId ← requiredString event.data "operation_id"
  let synchronizationSetId ← requiredString event.data "synchronization_set_id"
  let writerId ← requiredString event.data "writer_id"
  let lamportClock ← match (fieldOf event.data "lamport_clock").map asNat with
    | some (.ok n) => .ok n
    | _ => .error (invalidEnvelope "ECCA sync envelope missing lamport_clock" (.obj []))
  let keyVersionId ← requiredString event.data "key_version_id"
  .ok { operationId, synchronizationSetId, writerId, lamportClock,
        correlationId := event.correlationId, causationId := event.causationId, keyVersionId,
        ciphertext }

/-- `serde_json::to_vec` of the event. -/
def encodeEccaPayload (event : TraverseEvent) : Bytes := encode (eventValueCodec.toValue event)

/-- `serde_json::from_slice`, then the operation of the event. -/
def decodePayload (payload : Bytes) : Except HostedSyncError EncryptedSyncOperation :=
  match (decode payload).map eventValueCodec.fromValue with
  | some (.ok event) => operationFromEccaEvent event
  | _ => .error (invalidEnvelope "replay payload is not a valid ECCA envelope" (.obj []))

/-! ## Round trips -/

theorem hexNibble_hexDigit : ∀ n < 16, hexNibble (hexDigit n) = some n := by decide

theorem hexDecode_bytesToHex (bytes : Bytes) : hexDecode (bytesToHex bytes) = some bytes := by
  have hsize : (bytesToHex bytes).utf8ByteSize = 2 * bytes.length := by
    rw [bytesToHex, String.utf8ByteSize_ofList, Hex.utf8Len_encode]
  rw [hexDecode, if_pos (by omega), bytesToHex, String.toList_ofList,
    Hex.pairs_encode hexNibble_hexDigit]

theorem operationFromEccaEvent_wrap (operation : EncryptedSyncOperation) :
    operationFromEccaEvent (wrapEccaEvent sha256 operation) = .ok operation := by
  simp [operationFromEccaEvent, wrapEccaEvent, fieldOf, requiredString, List.lookup_cons, asNat_int,
    hexDecode_bytesToHex, bind, Except.bind]

/-- The fields that are read are there. -/
def Complete (event : TraverseEvent) : Prop :=
  (∃ hex, fieldOf event.data "ciphertext" = some (.str hex) ∧ (hexDecode hex).isSome) ∧
  (∀ field ∈ ["operation_id", "synchronization_set_id", "writer_id", "key_version_id"],
    ∃ s, fieldOf event.data field = some (.str s)) ∧
  ∃ n : Nat, fieldOf event.data "lamport_clock" = some (.int n)

theorem decodePayload_encode (operation : EncryptedSyncOperation) :
    decodePayload (encodeEccaPayload (wrapEccaEvent sha256 operation)) = .ok operation := by
  simp only [decodePayload, encodeEccaPayload, decode_encode, Option.map_some,
    eventValueCodec.fromValue_toValue]
  exact operationFromEccaEvent_wrap sha256 operation

def hostedTransportSpec : String := "087-hosted-datastore-transport"

def minReplayWindowMs : Nat := 120000

structure HostedSyncCredential where
  (token scope : String)
  expiresAtMs : Nat
  deriving DecidableEq

inductive HostedSyncDegradedReason where
  | relayUnavailable
  | credentialExpired
  | credentialRefreshFailed
  deriving DecidableEq

inductive HostedSyncConnectionState where
  | disconnected
  | connected
  | degraded (reason : HostedSyncDegradedReason)
  | recovering
  deriving DecidableEq

inductive HostedSyncReplayResult where
  | delivered (operations : List EncryptedSyncOperation) (cursor : String)
  | resyncRequired (oldestAvailableCursor : Option String)
  deriving DecidableEq

structure HostedSyncPublishReceipt where
  (operationId cursor : String)
  deriving DecidableEq

structure RetainedMessage where
  cursor : String
  retainedAtMs : Nat
  payload : Bytes
  deriving DecidableEq

structure HostedSyncLineageEvidence where
  (governingSpec protocolSpec operationId synchronizationSetId writerId : String)
  lamportClock : Nat
  (correlationId causationId : Option String)
  (keyVersionId eventId : String)
  observed : Bool

def lineageOf (sha256 : Bytes → Bytes) (operation : EncryptedSyncOperation) :
    HostedSyncLineageEvidence where
  governingSpec := hostedTransportSpec
  protocolSpec := syncProtocolSpec
  operationId := operation.operationId
  synchronizationSetId := operation.synchronizationSetId
  writerId := operation.writerId
  lamportClock := operation.lamportClock
  correlationId := operation.correlationId
  causationId := operation.causationId
  keyVersionId := operation.keyVersionId
  eventId := (wrapEccaEvent sha256 operation).id
  observed := true

def notConnected : HostedSyncError :=
  ⟨.notConnected, "hosted sync transport is not connected", .obj []⟩

def relayUnavailable : HostedSyncError :=
  ⟨.providerUnavailable, "hosted relay unavailable", .obj []⟩

/-! ## Connections -/

structure Connection where
  (nowMs replayWindowMs : Nat)
  relayAvailable : Bool
  session : Option HostedSyncCredential
  acceptedKeyVersions : List String

namespace Connection

def new : Connection := ⟨0, minReplayWindowMs, true, none, ["key-active", "key-previous"]⟩

variable (c : Connection)

def connect (credential : HostedSyncCredential) :
    Except HostedSyncError Unit × Connection :=
  if credential.token = "" ∨ credential.scope = "" then
    (.error ⟨.unauthorizedScope, "scoped credential is missing token or scope", .obj []⟩, c)
  else if credential.expiresAtMs ≤ c.nowMs then
    (.error ⟨.credentialExpired, "scoped hosted-relay credential already expired", .obj []⟩, c)
  else if c.relayAvailable = false then (.error relayUnavailable, c)
  else (.ok (), { c with session := some credential })

def refreshCredential (sha256 : Bytes → Bytes) (c : Connection)
    (credential : HostedSyncCredential) : Except HostedSyncError Unit × Connection :=
  match c.session with
  | none => (.error notConnected, c)
  | some session =>
    if session.scope ≠ credential.scope then
      (.error ⟨.credentialMismatch,
        "credential scope does not match the connected synchronization scope",
        .obj [("hashed_scope", .str (hexDigest sha256 (Storage.utf8 credential.scope)))]⟩, c)
    else if credential.expiresAtMs ≤ c.nowMs ∨ credential.token = "" then
      (.error ⟨.credentialExpired, "credential refresh failed", .obj []⟩,
        { c with session := none })
    else if c.relayAvailable = false then
      (.error ⟨.providerUnavailable, "hosted relay unavailable during credential refresh", .obj []⟩,
        { c with session := none })
    else (.ok (), { c with session := some credential })

def ensureLive : Except HostedSyncError HostedSyncCredential :=
  match c.session with
  | none => .error notConnected
  | some session =>
    if session.expiresAtMs ≤ c.nowMs then
      .error ⟨.credentialExpired, "scoped hosted-relay credential expired", .obj []⟩
    else if c.relayAvailable = false then .error relayUnavailable
    else .ok session

def validateOperation (operation : EncryptedSyncOperation) :
    Except HostedSyncError Unit :=
  if operation.operationId = "" ∨ operation.synchronizationSetId = "" ∨ operation.writerId = "" ∨
      operation.keyVersionId = "" ∨ operation.ciphertext = [] then
    .error ⟨.invalidEnvelope, "encrypted sync operation envelope is incomplete", .obj []⟩
  else if operation.keyVersionId ∉ c.acceptedKeyVersions then
    .error ⟨.keyMismatch, "key-version is outside the accepted active/previous window",
      .obj [("key_version_id", .str operation.keyVersionId)]⟩
  else .ok ()

def advanceClock (nowMs : Nat) : Connection :=
  if nowMs > c.nowMs then { c with nowMs := nowMs } else c

def setRelayAvailable (available : Bool) : Connection :=
  { c with relayAvailable := available }

def connectionState : HostedSyncConnectionState :=
  match c.session with
  | none => .disconnected
  | some session =>
    if c.relayAvailable = false then .degraded .relayUnavailable
    else if session.expiresAtMs ≤ c.nowMs then .degraded .credentialExpired
    else .connected

/-- The oldest time that is inside the replay window. -/
def floor : Nat := c.nowMs - c.replayWindowMs

variable {c : Connection} {session credential : HostedSyncCredential} {sha256 : Bytes → Bytes}

theorem ensureLive_ok (h : c.ensureLive = .ok session) :
    c.session = some session ∧ c.relayAvailable = true := by
  unfold ensureLive at h
  split at h
  · cases h
  next session' hsession =>
  split_ifs at h with _ hup
  cases h
  exact ⟨hsession, Bool.eq_true_of_not_eq_false hup⟩

theorem ensureLive_of_connected (h : c.connectionState = .connected) :
    ∃ session, c.ensureLive = .ok session := by
  unfold connectionState at h
  split at h
  · cases h
  next session hsession =>
  split_ifs at h with hup hexpires
  exact ⟨session, by simp [ensureLive, hsession, hexpires, hup]⟩

/-- What `c'` differs in from `c` is at most the session. -/
structure SessionOnly (c c' : Connection) : Prop where
  nowMs : c'.nowMs = c.nowMs
  replayWindowMs : c'.replayWindowMs = c.replayWindowMs
  relayAvailable : c'.relayAvailable = c.relayAvailable

theorem SessionOnly.floor {c' : Connection} (h : SessionOnly c c') : c'.floor = c.floor := by
  rw [Connection.floor, Connection.floor, h.nowMs, h.replayWindowMs]

theorem connect_sessionOnly (c : Connection) (credential : HostedSyncCredential) :
    SessionOnly c (c.connect credential).2 := by
  unfold connect
  split_ifs <;> exact ⟨rfl, rfl, rfl⟩

/-- A session that was not there before has the credential that was presented. -/
theorem connect_session (h : (c.connect credential).2.session = some session) :
    c.session = some session ∨ session = credential ∧ credential.token ≠ "" := by
  unfold connect at h
  split_ifs at h with hmissing
  iterate 3 exact .inl h
  exact .inr ⟨(Option.some.inj h).symm, fun htoken => hmissing (.inl htoken)⟩

theorem refreshCredential_sessionOnly (sha256 : Bytes → Bytes) (c : Connection)
    (credential : HostedSyncCredential) :
    SessionOnly c (c.refreshCredential sha256 credential).2 := by
  unfold refreshCredential
  split
  · exact ⟨rfl, rfl, rfl⟩
  · split_ifs <;> exact ⟨rfl, rfl, rfl⟩

theorem refreshCredential_session
    (h : (c.refreshCredential sha256 credential).2.session = some session) :
    ∃ old, c.session = some old ∧ old.scope = session.scope := by
  unfold refreshCredential at h
  split at h
  · next hnone =>
    rw [hnone] at h
    cases h
  next old hold =>
  split_ifs at h with hscope _ _
  · exact ⟨session, h, rfl⟩
  · cases h
    exact ⟨old, hold, not_not.1 hscope⟩

theorem refreshCredential_token
    (h : (c.refreshCredential sha256 credential).2.session = some session) :
    c.session = some session ∨ session = credential ∧ credential.token ≠ "" := by
  unfold refreshCredential at h
  split at h
  · exact .inl h
  split_ifs at h with _ hexpired _
  · exact .inl h
  · exact .inr ⟨(Option.some.inj h).symm, fun htoken => hexpired (.inr htoken)⟩

section

variable (c : Connection) (nowMs : Nat)

theorem nowMs_le_advanceClock : c.nowMs ≤ (c.advanceClock nowMs).nowMs := by
  unfold advanceClock
  split
  · next h => exact Nat.le_of_lt h
  · exact Nat.le_refl _

@[simp] theorem advanceClock_replayWindowMs :
    (c.advanceClock nowMs).replayWindowMs = c.replayWindowMs := by
  unfold advanceClock
  split <;> rfl

@[simp] theorem advanceClock_relayAvailable :
    (c.advanceClock nowMs).relayAvailable = c.relayAvailable := by
  unfold advanceClock
  split <;> rfl

@[simp] theorem advanceClock_session : (c.advanceClock nowMs).session = c.session := by
  unfold advanceClock
  split <;> rfl

theorem floor_le_advanceClock : c.floor ≤ (c.advanceClock nowMs).floor := by
  have := c.nowMs_le_advanceClock nowMs
  simp only [floor, advanceClock_replayWindowMs]
  omega

end

end Connection

end Traverse.Hosted

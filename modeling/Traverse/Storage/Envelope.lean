import Traverse.Storage.Adapter

/-!
# Storage.Envelope

How a record is kept in a file of `LocalFileDataStore` or in an object of
`RemoteKeyValueDataStore`, and how it is read back. The private path compares the key it was asked
for with the key of the envelope and of the record (`decryptPrivateEnvelope_key`); the public path
and the remote store compare neither (`read_public`, `read_envelopeBytes`).

`serde_json`, SHA-256 and AES-GCM are parameters (`Serde`, `Crypto`). File-system calls succeed.
-/

namespace Traverse.Storage

open Lines

/-! ## Envelopes -/

inductive LocalDataClassification where
  | publicData
  | privateData
  deriving DecidableEq

structure LocalDataStoreEnvelope (ν : Type) where
  format : String
  classification : LocalDataClassification
  digest : String
  record : Option (StateRecord ν)
  (recordKey keyId nonce ciphertext retainedAt : Option String)

structure LocalDataStoreIntegrity where
  (algorithm contentDigest : String)

structure LocalDataStoreV2Envelope (ν : Type) where
  format : String
  (formatVersion schemaVersion : Nat)
  payloadIntegrity : String
  integrity : LocalDataStoreIntegrity
  encryptionDisclosure : String
  payload : LocalDataStoreEnvelope ν

structure RemoteDataStoreEnvelope (ν : Type) where
  format : String
  classification : LocalDataClassification
  digest : String
  record : StateRecord ν

def localDataStoreFormat : String := "local-datastore/1"

def localDataStoreV2Format : String := "local-datastore/2"

def localDataStoreV2FormatVersion : Nat := 2

def localDataStoreV2SchemaVersion : Nat := 1

def remoteDataStoreFormat : String := "remote-datastore/1"

/-- The derived serializers, with their round trips. -/
structure Serde (ν : Type) where
  /-- Parsed documents. -/
  Doc : Type
  /-- `from_slice`, and `from_str` of bytes that are UTF-8. -/
  parse : Bytes → Option Doc
  /-- The field `format`, if there is one, and its string, if it is one. -/
  format : Doc → Option (Option String)
  toRecord : Doc → Option (StateRecord ν)
  toEnvelope : Doc → Option (LocalDataStoreEnvelope ν)
  toV2Envelope : Doc → Option (LocalDataStoreV2Envelope ν)
  toRemoteEnvelope : Doc → Option (RemoteDataStoreEnvelope ν)
  record : StateRecord ν → Bytes
  envelope : LocalDataStoreEnvelope ν → Bytes
  v2Envelope : LocalDataStoreV2Envelope ν → Bytes
  remoteEnvelope : RemoteDataStoreEnvelope ν → Bytes
  record_roundTrip : ∀ r, (parse (record r)).bind toRecord = some r
  envelope_roundTrip : ∀ e, ∃ doc, parse (envelope e) = some doc ∧
    format doc = some (some e.format) ∧ toEnvelope doc = some e
  envelope_utf8 : ∀ e, (envelope e).toByteArray.utf8Decode?.isSome
  v2Envelope_roundTrip : ∀ e, ∃ doc, parse (v2Envelope e) = some doc ∧
    format doc = some (some e.format) ∧ toV2Envelope doc = some e
  v2Envelope_utf8 : ∀ e, (v2Envelope e).toByteArray.utf8Decode?.isSome
  remoteEnvelope_roundTrip : ∀ e, (parse (remoteEnvelope e)).bind toRemoteEnvelope = some e

structure Crypto where
  sha256 : Bytes → Bytes
  /-- With key, nonce and associated data. -/
  encrypt : Bytes → Bytes → Bytes → Bytes → Bytes
  decrypt : Bytes → Bytes → Bytes → Bytes → Option Bytes
  decrypt_encrypt : ∀ key nonce aad plaintext,
    decrypt key nonce aad (encrypt key nonce aad plaintext) = some plaintext

/-! ## Errors -/

def integrityError (reason : String) : DataStoreError :=
  ⟨.integrityCheckFailed, "integrity_check_failed", .obj [("reason", .str reason)]⟩

def remoteIntegrityError (reason : String) : DataStoreError :=
  ⟨.remoteIntegrityFailed, "remote_integrity_failed", .obj [("reason", .str reason)]⟩

def ioError (action reason : String) : DataStoreError :=
  ⟨.ioFailure, "storage_io_failed", .obj [("action", .str action), ("reason", .str reason)]⟩

inductive KeyProviderErrorCode where
  | missingKey
  | expiredKeyId
  | providerFailure

structure KeyProviderError where
  code : KeyProviderErrorCode
  message : String

def mapKeyProviderError (e : KeyProviderError) : DataStoreError :=
  match e.code with
  | .missingKey => ⟨.keyNotFound, e.message, .obj [("provider_error_code", .str "missing_key")]⟩
  | .expiredKeyId =>
    ⟨.keyExpired, e.message, .obj [("provider_error_code", .str "expired_key_id")]⟩
  | .providerFailure =>
    ⟨.keyProviderFailure, e.message, .obj [("provider_error_code", .str "provider_failure")]⟩

def keyProviderRequired : DataStoreError :=
  ⟨.keyProviderRequired, "key_provider_required", .obj [("reason", .str "private_record")]⟩

/-! ## Digests -/

def hexEncode (bytes : Bytes) : String := String.ofList (Hex.encode bytes)

def decodeHexDigit (c : Char) : Option Nat :=
  if '0' ≤ c ∧ c ≤ '9' then some (c.toNat - 48)
  else if 'a' ≤ c ∧ c ≤ 'f' then some (c.toNat - 87)
  else none

def hexDecode (value : String) : Except DataStoreError Bytes :=
  match Hex.pairs decodeHexDigit value.toList with
  | some bytes => .ok bytes
  | none => .error (integrityError "invalid_hex")

def decodeNonce (value : String) : Except DataStoreError Bytes := do
  let bytes ← hexDecode value
  if bytes.length = 12 then .ok bytes else .error (integrityError "invalid_nonce")

def utf8 (s : String) : Bytes := s.toList.flatMap String.utf8EncodeChar

/-- The length in eight bytes, the lowest first, and the bytes. -/
def lengthPrefixed (value : Bytes) : Bytes :=
  (List.range 8).map (fun i => UInt8.ofNat (value.length / 256 ^ i)) ++ value

def privateRecordAad (keyId recordKey : String) : Bytes :=
  lengthPrefixed (utf8 keyId) ++ lengthPrefixed (utf8 recordKey) ++ lengthPrefixed (utf8 "private")

variable {ν : Type} (S : Serde ν) (C : Crypto)

def digestBytes (bytes : Bytes) : String := s!"sha256:{hexEncode (C.sha256 bytes)}"

def digestForRecord (record : StateRecord ν) : String := digestBytes C (S.record record)

def digestForPrivateEnvelope (keyId recordKey nonce ciphertext : String) : String :=
  digestBytes C (privateRecordAad keyId recordKey ++ lengthPrefixed (utf8 nonce) ++
    lengthPrefixed (utf8 ciphertext))

/-! ## Version two -/

def v2EnvelopeOf (payload : LocalDataStoreEnvelope ν) : LocalDataStoreV2Envelope ν :=
  let payloadIntegrity := digestBytes C (S.envelope payload)
  { format := localDataStoreV2Format
    formatVersion := localDataStoreV2FormatVersion
    schemaVersion := localDataStoreV2SchemaVersion
    integrity := ⟨"sha256", payloadIntegrity⟩
    payloadIntegrity := payloadIntegrity
    encryptionDisclosure := match payload.classification with
      | .publicData => "not_enabled"
      | .privateData => "host_managed_opaque"
    payload := payload }

def decodeV2Envelope (doc : S.Doc) : Except DataStoreError (LocalDataStoreEnvelope ν) :=
  match S.toV2Envelope doc with
  | none => .error (integrityError "malformed_envelope")
  | some e =>
    if e.format ≠ localDataStoreV2Format ∨ e.formatVersion ≠ localDataStoreV2FormatVersion ∨
        e.schemaVersion ≠ localDataStoreV2SchemaVersion ∨ e.integrity.algorithm ≠ "sha256" ∨
        e.integrity.contentDigest ≠ e.payloadIntegrity ∨
        ¬(e.encryptionDisclosure = "not_enabled" ∨ e.encryptionDisclosure = "host_managed_opaque")
    then .error (integrityError "unknown_format_version")
    else if digestBytes C (S.envelope e.payload) ≠ e.payloadIntegrity then
      .error (integrityError "digest_mismatch")
    else if e.payload.format ≠ localDataStoreFormat then
      .error (integrityError "unknown_format_version")
    else .ok e.payload

/-! ## The local store -/

def publicEnvelopeOf (retainedAt : Option String) (record : StateRecord ν) :
    LocalDataStoreEnvelope ν where
  format := localDataStoreFormat
  classification := .publicData
  digest := digestForRecord S C record
  record := some record
  recordKey := none
  keyId := none
  nonce := none
  ciphertext := none
  retainedAt := retainedAt

def privateEnvelopeOf (keyId : String) (key nonce : Bytes) (retainedAt : Option String)
    (record : StateRecord ν) : LocalDataStoreEnvelope ν :=
  let ciphertext := hexEncode
    (C.encrypt key nonce (privateRecordAad keyId record.key) (S.record record))
  { format := localDataStoreFormat
    classification := .privateData
    digest := digestForPrivateEnvelope C keyId record.key (hexEncode nonce) ciphertext
    record := none
    recordKey := some record.key
    keyId := some keyId
    nonce := some (hexEncode nonce)
    ciphertext := some ciphertext
    retainedAt := retainedAt }

structure KeyProvider where
  activeKeyId : Except KeyProviderError String
  keyFor : String → Except KeyProviderError Bytes

structure LocalFileDataStore where
  classification : LocalDataClassification
  keyProvider : Option KeyProvider
  writeRetainedAt : Option String
  /-- The contents of the file `KEY.json` of the root, for every key. -/
  files : String → Option Bytes

namespace LocalFileDataStore

variable (store : LocalFileDataStore)

def requiredKeyProvider : Except DataStoreError KeyProvider :=
  match store.keyProvider with
  | some provider => .ok provider
  | none => .error keyProviderRequired

/-- The part of `read` before the classification is looked at. -/
def openEnvelope (bytes : Bytes) : Except DataStoreError (LocalDataStoreEnvelope ν) :=
  match bytes.toByteArray.utf8Decode? with
  | none => .error (ioError "read state record" "stream did not contain valid UTF-8")
  | some _ =>
    match S.parse bytes with
    | none => .error (integrityError "malformed_envelope")
    | some doc =>
      match S.format doc with
      | none => .error (integrityError "legacy_unverified")
      | some none => .error (integrityError "unknown_format_version")
      | some (some format) =>
        if format = localDataStoreFormat then
          match S.toEnvelope doc with
          | some envelope => .ok envelope
          | none => .error (integrityError "malformed_envelope")
        else if format = localDataStoreV2Format then decodeV2Envelope S C doc
        else .error (integrityError "unknown_format_version")

def readPublicEnvelope (envelope : LocalDataStoreEnvelope ν) :
    Except DataStoreError (Option (StateRecord ν)) :=
  match envelope.record with
  | none => .error (integrityError "malformed_envelope")
  | some record =>
    if envelope.keyId.isSome ∨ envelope.nonce.isSome ∨ envelope.ciphertext.isSome ∨
        envelope.recordKey.isSome then
      .error (integrityError "malformed_envelope")
    else if envelope.digest ≠ digestForRecord S C record then
      .error (integrityError "digest_mismatch")
    else .ok (some record)

def decryptPrivateEnvelope (requestedKey : String)
    (envelope : LocalDataStoreEnvelope ν) : Except DataStoreError (Option (StateRecord ν)) :=
  match envelope.record, envelope.recordKey, envelope.keyId, envelope.nonce,
    envelope.ciphertext with
  | none, some recordKey, some keyId, some nonceHex, some ciphertextHex =>
    if recordKey ≠ requestedKey then .error (integrityError "record_key_mismatch")
    else if envelope.digest ≠ digestForPrivateEnvelope C keyId recordKey nonceHex ciphertextHex then
      .error (integrityError "digest_mismatch")
    else do
      let provider ← store.requiredKeyProvider
      let key ← (provider.keyFor keyId).mapError mapKeyProviderError
      let nonce ← decodeNonce nonceHex
      let ciphertext ← hexDecode ciphertextHex
      match C.decrypt key nonce (privateRecordAad keyId recordKey) ciphertext with
      | none => .error (integrityError "authentication_failed")
      | some plaintext =>
        match (S.parse plaintext).bind S.toRecord with
        | none => .error (integrityError "malformed_plaintext")
        | some record =>
          if record.key ≠ recordKey then .error (integrityError "record_key_mismatch")
          else .ok (some record)
  | _, _, _, _, _ => .error (integrityError "malformed_envelope")

def read (key : String) :
    Except DataStoreError (Option (StateRecord ν)) := do
  validateKey key
  match store.files key with
  | none => .ok none
  | some bytes =>
    let envelope ← openEnvelope S C bytes
    match envelope.classification with
    | .publicData => readPublicEnvelope S C envelope
    | .privateData => store.decryptPrivateEnvelope S C key envelope

/-- Whether the file that is replaced has version two. -/
def ensureClassificationUnchanged (key : String) :
    Except DataStoreError Bool :=
  match store.files key with
  | none => .ok false
  | some bytes =>
    match S.parse bytes with
    | none => .error (integrityError "malformed_envelope")
    | some doc =>
      let writeV2 := S.format doc = some (some localDataStoreV2Format)
      let existing : Except DataStoreError (LocalDataStoreEnvelope ν) :=
        if writeV2 then decodeV2Envelope S C doc
        else match S.toEnvelope doc with
          | some envelope => .ok envelope
          | none => .error (integrityError "malformed_envelope")
      match existing with
      | .error e => .error e
      | .ok envelope =>
        if envelope.format ≠ localDataStoreFormat then
          .error (integrityError "unknown_format_version")
        else if envelope.classification ≠ store.classification then
          .error ⟨.classificationChangeNotAllowed, "classification_change_not_allowed",
            .obj [("reason", .str "delete_before_reclassifying")]⟩
        else .ok (decide writeV2)

def publicEnvelope (record : StateRecord ν) : LocalDataStoreEnvelope ν :=
  { publicEnvelopeOf S C store.writeRetainedAt record with classification := store.classification }

/-- The nonce is a parameter: `fresh_aes_nonce` draws it. -/
def encryptPrivateRecord (nonce : Bytes) (record : StateRecord ν) :
    Except DataStoreError (LocalDataStoreEnvelope ν) := do
  let provider ← store.requiredKeyProvider
  let keyId ← provider.activeKeyId.mapError mapKeyProviderError
  let key ← (provider.keyFor keyId).mapError mapKeyProviderError
  .ok (privateEnvelopeOf S C keyId key nonce store.writeRetainedAt record)

def envelopeFor (nonce : Bytes) (record : StateRecord ν) :
    Except DataStoreError (LocalDataStoreEnvelope ν) :=
  match store.classification with
  | .publicData => .ok (store.publicEnvelope S C record)
  | .privateData => store.encryptPrivateRecord S C nonce record

def envelopeText (writeV2 : Bool) (envelope : LocalDataStoreEnvelope ν) : Bytes :=
  if writeV2 then S.v2Envelope (v2EnvelopeOf S C envelope) else S.envelope envelope

def write (nonce : Bytes) (record : StateRecord ν) :
    Except DataStoreError LocalFileDataStore := do
  validateKey record.key
  let writeV2 ← store.ensureClassificationUnchanged S C record.key
  let envelope ← store.envelopeFor S C nonce record
  .ok { store with
    files := Function.update store.files record.key (some (envelopeText S C writeV2 envelope)) }

end LocalFileDataStore

/-! ## The remote store -/

inductive RemoteBackendFailure where
  | unavailable
  | timeout
  | unauthorized
  | scopeDenied
  | backendFailed

def remoteBackendError : RemoteBackendFailure → DataStoreError
  | .unavailable => ⟨.remoteUnavailable, "remote_unavailable", .obj []⟩
  | .timeout => ⟨.remoteTimeout, "remote_timeout", .obj []⟩
  | .unauthorized => ⟨.remoteUnauthorized, "remote_unauthorized", .obj []⟩
  | .scopeDenied => ⟨.remoteScopeDenied, "remote_scope_denied", .obj []⟩
  | .backendFailed => ⟨.remoteBackendFailed, "remote_backend_failed", .obj []⟩

/-- What `read` needs of a backend: the bytes of the object of a key. -/
structure RemoteKeyValueDataStore where
  classification : LocalDataClassification
  get : String → Except RemoteBackendFailure (Option Bytes)

namespace RemoteKeyValueDataStore

def decodeEnvelope (store : RemoteKeyValueDataStore) (bytes : Bytes) :
    Except DataStoreError (StateRecord ν) :=
  match (S.parse bytes).bind S.toRemoteEnvelope with
  | none => .error (remoteIntegrityError "malformed_envelope")
  | some envelope =>
    if envelope.format ≠ remoteDataStoreFormat then
      .error (remoteIntegrityError "unknown_format_version")
    else if envelope.classification ≠ store.classification then
      .error (remoteIntegrityError "classification_mismatch")
    else if digestForRecord S C envelope.record ≠ envelope.digest then
      .error (remoteIntegrityError "digest_mismatch")
    else .ok envelope.record

def read (store : RemoteKeyValueDataStore) (key : String) :
    Except DataStoreError (Option (StateRecord ν)) := do
  validateKey key
  match store.get key with
  | .error failure => .error (remoteBackendError failure)
  | .ok none => .ok none
  | .ok (some bytes) => (store.decodeEnvelope S C bytes).map some

/-- The bytes that `write` puts under the key of the record. -/
def envelopeBytes (classification : LocalDataClassification) (record : StateRecord ν) : Bytes :=
  S.remoteEnvelope ⟨remoteDataStoreFormat, classification, digestForRecord S C record, record⟩

end RemoteKeyValueDataStore

/-! ## What is read back -/

theorem of_bind_ok {ε α β : Type} {x : Except ε α} {f : α → Except ε β} {b : β}
    (h : x >>= f = .ok b) : ∃ a, x = .ok a ∧ f a = .ok b := by
  cases x with
  | error e => cases h
  | ok a => exact ⟨a, rfl, h⟩

theorem decodeV2Envelope_v2EnvelopeOf {payload : LocalDataStoreEnvelope ν}
    (hformat : payload.format = localDataStoreFormat) {doc : S.Doc}
    (hdoc : S.toV2Envelope doc = some (v2EnvelopeOf S C payload)) :
    decodeV2Envelope S C doc = .ok payload := by
  have hdisclosure : (v2EnvelopeOf S C payload).encryptionDisclosure = "not_enabled" ∨
      (v2EnvelopeOf S C payload).encryptionDisclosure = "host_managed_opaque" := by
    cases h : payload.classification with
    | publicData => exact .inl (by rw [v2EnvelopeOf, h])
    | privateData => exact .inr (by rw [v2EnvelopeOf, h])
  simp only [decodeV2Envelope, hdoc, hdisclosure]
  simp [v2EnvelopeOf, hformat]

namespace LocalFileDataStore

variable {envelope : LocalDataStoreEnvelope ν} {store : LocalFileDataStore} {key : String}
  {record : StateRecord ν} {bytes : Bytes}

theorem openEnvelope_envelopeText (hformat : envelope.format = localDataStoreFormat)
    (writeV2 : Bool) : openEnvelope S C (envelopeText S C writeV2 envelope) = .ok envelope := by
  cases writeV2 with
  | false =>
    obtain ⟨doc, hparse, hdoc, hto⟩ := S.envelope_roundTrip envelope
    obtain ⟨text, hutf8⟩ := Option.isSome_iff_exists.1 (S.envelope_utf8 envelope)
    simp [openEnvelope, envelopeText, hutf8, hparse, hdoc, hformat, hto]
  | true =>
    obtain ⟨doc, hparse, hdoc, hto⟩ := S.v2Envelope_roundTrip (v2EnvelopeOf S C envelope)
    obtain ⟨text, hutf8⟩ :=
      Option.isSome_iff_exists.1 (S.v2Envelope_utf8 (v2EnvelopeOf S C envelope))
    have hv2 : (v2EnvelopeOf S C envelope).format = localDataStoreV2Format := rfl
    have hne : localDataStoreV2Format ≠ localDataStoreFormat := by decide
    simp [openEnvelope, envelopeText, hutf8, hparse, hdoc, hv2, hne,
      decodeV2Envelope_v2EnvelopeOf S C hformat hto]

/-- The record of a public envelope is read under whatever key the file stands. -/
theorem read_public (writer : LocalFileDataStore) (hkey : validateKey key = .ok ())
    (hpublic : writer.classification = .publicData) {writeV2 : Bool}
    (hfile : store.files key = some (envelopeText S C writeV2 (writer.publicEnvelope S C record))) :
    store.read S C key = .ok (some record) := by
  have hopen := openEnvelope_envelopeText S C
    (show (writer.publicEnvelope S C record).format = localDataStoreFormat from rfl) writeV2
  have hclass : (writer.publicEnvelope S C record).classification = .publicData := hpublic
  simp only [read, hkey, hfile, bind, Except.bind, hopen, hclass]
  simp [readPublicEnvelope, publicEnvelope, publicEnvelopeOf]

theorem decryptPrivateEnvelope_key
    (h : store.decryptPrivateEnvelope S C key envelope = .ok (some record)) : record.key = key := by
  unfold decryptPrivateEnvelope at h
  split at h
  · next recordKey keyId nonceHex ciphertextHex _ _ _ _ _ =>
    split at h
    · cases h
    next hrequested =>
    split at h
    · cases h
    obtain ⟨provider, _, h⟩ := of_bind_ok h
    obtain ⟨secret, _, h⟩ := of_bind_ok h
    obtain ⟨nonce, _, h⟩ := of_bind_ok h
    obtain ⟨ciphertext, _, h⟩ := of_bind_ok h
    split at h
    · cases h
    split at h
    · cases h
    split at h
    · cases h
    next hrecord =>
    cases h
    exact (not_not.1 hrecord).trans (not_not.1 hrequested)
  · cases h

end LocalFileDataStore

theorem RemoteKeyValueDataStore.read_envelopeBytes {store : RemoteKeyValueDataStore} {key : String}
    (hkey : validateKey key = .ok ()) {record : StateRecord ν}
    (hget : store.get key = .ok (some (envelopeBytes S C store.classification record))) :
    store.read S C key = .ok (some record) := by
  simp [read, hkey, hget, bind, Except.bind, decodeEnvelope, envelopeBytes,
    S.remoteEnvelope_roundTrip, Except.map]

/-! ## `RemoteKeyValueDataStore`

A write and a removal are conditional on the version that was read just before. Evidence is left
out: nothing reads it. -/

structure RemoteObject where
  bytes : Bytes
  version : String

inductive RemoteWriteOutcome where
  | acknowledged (retryCount : Nat)
  | conflict
  | unknown (retryCount : Nat)
  | failed (failure : RemoteBackendFailure)

structure RemoteDataStoreBackend (β : Type) where
  get : β → String → Except RemoteBackendFailure (Option RemoteObject)
  putConditional : β → String → Bytes → Option String → RemoteWriteOutcome × β
  deleteConditional : β → String → Option String → RemoteWriteOutcome × β

variable {ν β : Type} (S : Serde ν) (C : Crypto) (B : RemoteDataStoreBackend β)
  (classification : LocalDataClassification)

namespace RemoteKeyValueDataStore

def ofBackend (b : β) : RemoteKeyValueDataStore :=
  ⟨classification, fun key => (B.get b key).map fun object => object.map (·.bytes)⟩

def currentVersion (b : β) (key : String) : Except DataStoreError (Option String) :=
  match B.get b key with
  | .ok object => .ok (object.map (·.version))
  | .error failure => .error (remoteBackendError failure)

def handleWriteOutcome : RemoteWriteOutcome → Except DataStoreError Unit
  | .acknowledged _ => .ok ()
  | .conflict => .error ⟨.remoteConflict, "remote_conflict", .obj []⟩
  | .unknown retryCount => .error ⟨.remoteOutcomeUnknown, "remote_outcome_unknown",
      .obj [("retry_count", .int retryCount)]⟩
  | .failed failure => .error (remoteBackendError failure)

def write (b : β) (record : StateRecord ν) : Except DataStoreError Unit × β :=
  match validateKey record.key with
  | .error e => (.error e, b)
  | .ok () =>
    match currentVersion B b record.key with
    | .error e => (.error e, b)
    | .ok expectedVersion =>
      let (outcome, b) := B.putConditional b record.key (envelopeBytes S C classification record)
        expectedVersion
      (handleWriteOutcome outcome, b)

def delete (b : β) (key : String) : Except DataStoreError Unit × β :=
  match validateKey key with
  | .error e => (.error e, b)
  | .ok () =>
    match currentVersion B b key with
    | .error e => (.error e, b)
    | .ok expectedVersion =>
      let (outcome, b) := B.deleteConditional b key expectedVersion
      (handleWriteOutcome outcome, b)

end RemoteKeyValueDataStore

open RemoteKeyValueDataStore in
def remoteKeyValue : DataStore ν β where
  read := fun b key => ((ofBackend B classification b).read S C key, b)
  write := fun b record => write S C B classification b record
  delete := fun b key => delete B b key
  listKeys := fun b => (.error ⟨.remoteBackendFailed, "remote_backend_failed",
    .obj [("reason", .str "remote_scan_not_supported_in_v1")]⟩, b)

end Traverse.Storage

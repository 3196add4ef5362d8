import Traverse.Events.Codec
import Traverse.Storage.Envelope

/-!
# Storage.Serialize

The derived serializers of the records and envelopes as maps to and from JSON values, optional
fields left out when absent. With payloads that are JSON values themselves they make a `Serde`
(`jsonSerde`).
-/

namespace Traverse.Storage

open Lines Json Events List

namespace LocalDataClassification

def toValue : LocalDataClassification → Value
  | .publicData => .str "public"
  | .privateData => .str "private"

def fromValue : Value → Except String LocalDataClassification
  | .str "public" => .ok .publicData
  | .str "private" => .ok .privateData
  | _ => .error "unknown variant, expected `public` or `private`"

theorem fromValue_toValue (c : LocalDataClassification) : fromValue c.toValue = .ok c := by
  cases c <;> rfl

end LocalDataClassification

namespace StateRecord

variable (r : StateRecord Value)

def fields : List (String × Option Value) :=
  [("key", some (.str r.key)), ("value", some r.value),
    ("lamport_clock", some (.int r.lamportClock)),
    ("writer_id", some (.str r.writerId))]

def toValue : Value := .obj (present r.fields)

def fromValue (v : Value) : Except String (StateRecord Value) := do
  let fs ← fieldsOf v
  let key ← need fs "key" >>= asStr
  let value ← need fs "value"
  let lamportClock ← need fs "lamport_clock" >>= asNat
  let writerId ← need fs "writer_id" >>= asStr
  .ok { key, value, lamportClock, writerId }

theorem fromValue_toValue : fromValue r.toValue = .ok r := by
  have hlookup := @lookup_present r.fields (by simp [fields])
  simp only [fromValue, toValue, fieldsOf, need, hlookup, bind, Except.bind]
  simp [fields, lookup_cons, asStr, asNat_int]

end StateRecord

namespace LocalDataStoreEnvelope

variable (e : LocalDataStoreEnvelope Value)

def fields : List (String × Option Value) :=
  [("format", some (.str e.format)), ("classification", some e.classification.toValue),
    ("digest", some (.str e.digest)), ("record", e.record.map StateRecord.toValue),
    ("record_key", e.recordKey.map .str), ("key_id", e.keyId.map .str),
    ("nonce", e.nonce.map .str), ("ciphertext", e.ciphertext.map .str),
    ("retained_at", e.retainedAt.map .str)]

def toValue : Value := .obj (present e.fields)

def fromValue (v : Value) : Except String (LocalDataStoreEnvelope Value) := do
  let fs ← fieldsOf v
  let format ← need fs "format" >>= asStr
  let classification ← need fs "classification" >>= LocalDataClassification.fromValue
  let digest ← need fs "digest" >>= asStr
  let record ← optional StateRecord.fromValue fs "record"
  let recordKey ← optional asStr fs "record_key"
  let keyId ← optional asStr fs "key_id"
  let nonce ← optional asStr fs "nonce"
  let ciphertext ← optional asStr fs "ciphertext"
  let retainedAt ← optional asStr fs "retained_at"
  .ok { format, classification, digest, record, recordKey, keyId, nonce, ciphertext, retainedAt }

theorem fields_nodup : (e.fields.map Prod.fst).Nodup := by
  simp [fields]

theorem fromValue_toValue (e : LocalDataStoreEnvelope Value) : fromValue e.toValue = .ok e := by
  simp only [fromValue, toValue, fieldsOf, need, optional_eq, lookup_present e.fields_nodup, bind,
    Except.bind]
  simp [fields, lookup_cons, asStr, LocalDataClassification.fromValue_toValue,
    optionalValue_map StateRecord.fromValue_toValue (by simp [StateRecord.toValue])]

end LocalDataStoreEnvelope

namespace LocalDataStoreIntegrity

variable (i : LocalDataStoreIntegrity)

def fields : List (String × Option Value) :=
  [("algorithm", some (.str i.algorithm)), ("content_digest", some (.str i.contentDigest))]

def toValue : Value := .obj (present i.fields)

def fromValue (v : Value) : Except String LocalDataStoreIntegrity := do
  let fs ← fieldsOf v
  let algorithm ← need fs "algorithm" >>= asStr
  let contentDigest ← need fs "content_digest" >>= asStr
  .ok { algorithm, contentDigest }

theorem fromValue_toValue : fromValue i.toValue = .ok i := rfl

end LocalDataStoreIntegrity

namespace LocalDataStoreV2Envelope

variable (e : LocalDataStoreV2Envelope Value)

def fields : List (String × Option Value) :=
  [("format", some (.str e.format)), ("format_version", some (.int e.formatVersion)),
    ("schema_version", some (.int e.schemaVersion)),
    ("payload_integrity", some (.str e.payloadIntegrity)), ("integrity", some e.integrity.toValue),
    ("encryption_disclosure", some (.str e.encryptionDisclosure)),
    ("payload", some e.payload.toValue)]

def toValue : Value := .obj (present e.fields)

def fromValue (v : Value) : Except String (LocalDataStoreV2Envelope Value) := do
  let fs ← fieldsOf v
  let format ← need fs "format" >>= asStr
  let formatVersion ← need fs "format_version" >>= asNat
  let schemaVersion ← need fs "schema_version" >>= asNat
  let payloadIntegrity ← need fs "payload_integrity" >>= asStr
  let integrity ← need fs "integrity" >>= LocalDataStoreIntegrity.fromValue
  let encryptionDisclosure ← need fs "encryption_disclosure" >>= asStr
  let payload ← need fs "payload" >>= LocalDataStoreEnvelope.fromValue
  .ok { format, formatVersion, schemaVersion, payloadIntegrity, integrity, encryptionDisclosure,
        payload }

theorem fields_nodup : (e.fields.map Prod.fst).Nodup := by
  simp [fields]

theorem fromValue_toValue (e : LocalDataStoreV2Envelope Value) : fromValue e.toValue = .ok e := by
  simp only [fromValue, toValue, fieldsOf, need, lookup_present e.fields_nodup, bind, Except.bind]
  simp [fields, lookup_cons, asStr, asNat_int, LocalDataStoreIntegrity.fromValue_toValue,
    LocalDataStoreEnvelope.fromValue_toValue]

end LocalDataStoreV2Envelope

namespace RemoteDataStoreEnvelope

def fields (e : RemoteDataStoreEnvelope Value) : List (String × Option Value) :=
  [("format", some (.str e.format)), ("classification", some e.classification.toValue),
    ("digest", some (.str e.digest)), ("record", some e.record.toValue)]

def toValue (e : RemoteDataStoreEnvelope Value) : Value := .obj (present e.fields)

def fromValue (v : Value) : Except String (RemoteDataStoreEnvelope Value) := do
  let fs ← fieldsOf v
  let format ← need fs "format" >>= asStr
  let classification ← need fs "classification" >>= LocalDataClassification.fromValue
  let digest ← need fs "digest" >>= asStr
  let record ← need fs "record" >>= StateRecord.fromValue
  .ok { format, classification, digest, record }

theorem fromValue_toValue (e : RemoteDataStoreEnvelope Value) : fromValue e.toValue = .ok e := by
  have hlookup := @lookup_present e.fields (by simp [fields])
  simp only [fromValue, toValue, fieldsOf, need, hlookup, bind, Except.bind]
  simp [fields, lookup_cons, asStr, LocalDataClassification.fromValue_toValue,
    StateRecord.fromValue_toValue]

end RemoteDataStoreEnvelope

/-- `value.get("format")` and its `as_str`. -/
def formatOf : Value → Option (Option String)
  | .obj fields => (fields.lookup "format").map fun v =>
    match v with
    | .str s => some s
    | _ => none
  | _ => none

theorem isSome_utf8_encode (v : Value) : (encode v).toByteArray.utf8Decode?.isSome := by
  have h : (encode v).toByteArray.utf8Decode? = some (print v).toArray :=
    List.utf8Decode?_utf8Encode
  rw [h]
  rfl

def jsonSerde : Serde Value where
  Doc := Value
  parse := decode
  format := formatOf
  toRecord v := (StateRecord.fromValue v).toOption
  toEnvelope v := (LocalDataStoreEnvelope.fromValue v).toOption
  toV2Envelope v := (LocalDataStoreV2Envelope.fromValue v).toOption
  toRemoteEnvelope v := (RemoteDataStoreEnvelope.fromValue v).toOption
  record r := encode r.toValue
  envelope e := encode e.toValue
  v2Envelope e := encode e.toValue
  remoteEnvelope e := encode e.toValue
  record_roundTrip r := by simp [decode_encode, StateRecord.fromValue_toValue, Except.toOption]
  envelope_roundTrip e := by
    refine ⟨e.toValue, decode_encode _, ?_, ?_⟩
    · simp only [formatOf, LocalDataStoreEnvelope.toValue, lookup_present e.fields_nodup]
      rfl
    · simp [LocalDataStoreEnvelope.fromValue_toValue, Except.toOption]
  envelope_utf8 e := isSome_utf8_encode _
  v2Envelope_roundTrip e := by
    refine ⟨e.toValue, decode_encode _, ?_, ?_⟩
    · simp only [formatOf, LocalDataStoreV2Envelope.toValue, lookup_present e.fields_nodup]
      rfl
    · simp [LocalDataStoreV2Envelope.fromValue_toValue, Except.toOption]
  v2Envelope_utf8 e := isSome_utf8_encode _
  remoteEnvelope_roundTrip e := by
    simp [decode_encode, RemoteDataStoreEnvelope.fromValue_toValue, Except.toOption]

/-! ## The manifest of a backup archive

Maintenance also needs that an envelope is only ever read from a document with its own format. -/

structure BackupRecordIndexEntry where
  key : String
  classification : LocalDataClassification
  (envelopeDigest memberPath : String)

structure BackupManifest where
  (manifestFormatVersion createdAsOf : String)
  recordCount : Nat
  archiveContentDigest : String
  records : List BackupRecordIndexEntry
  (storeFormat writerTool writerSemver : String)

structure MaintenanceSerde (ν : Type) extends Serde ν where
  manifest : BackupManifest → Bytes
  toManifest : Bytes → Option BackupManifest
  /-- `parse_from_rfc3339`, as seconds. -/
  instant : String → Except String Int
  manifest_roundTrip : ∀ m, toManifest (manifest m) = some m
  toEnvelope_format : ∀ doc envelope, toEnvelope doc = some envelope →
    format doc = some (some envelope.format)

/-! ## JSON -/

namespace BackupRecordIndexEntry

def fields (e : BackupRecordIndexEntry) : List (String × Option Value) :=
  [("key", some (.str e.key)), ("classification", some e.classification.toValue),
    ("envelope_digest", some (.str e.envelopeDigest)), ("member_path", some (.str e.memberPath))]

def toValue (e : BackupRecordIndexEntry) : Value := .obj (present e.fields)

def fromValue (v : Value) : Except String BackupRecordIndexEntry := do
  let fs ← fieldsOf v
  let key ← need fs "key" >>= asStr
  let classification ← need fs "classification" >>= LocalDataClassification.fromValue
  let envelopeDigest ← need fs "envelope_digest" >>= asStr
  let memberPath ← need fs "member_path" >>= asStr
  .ok { key, classification, envelopeDigest, memberPath }

theorem fromValue_toValue (e : BackupRecordIndexEntry) : fromValue e.toValue = .ok e := by
  have hlookup := @lookup_present e.fields (by simp [fields])
  simp only [fromValue, toValue, fieldsOf, need, hlookup, bind, Except.bind]
  simp [fields, lookup_cons, asStr, LocalDataClassification.fromValue_toValue]

end BackupRecordIndexEntry

def asList {α : Type} (read : Value → Except String α) : Value → Except String (List α)
  | .arr items => items.mapM read
  | _ => .error "invalid type: expected a sequence"

theorem asList_map {α : Type} {read : Value → Except String α} {f : α → Value}
    (h : ∀ a, read (f a) = .ok a) (as : List α) : asList read (.arr (as.map f)) = .ok as := by
  rw [asList]
  induction as with
  | nil => rfl
  | cons a as ih =>
    rw [List.map_cons, List.mapM_cons, ih, h]
    rfl

namespace BackupManifest

def fields (m : BackupManifest) : List (String × Option Value) :=
  [("manifest_format_version", some (.str m.manifestFormatVersion)),
    ("created_as_of", some (.str m.createdAsOf)), ("record_count", some (.int m.recordCount)),
    ("archive_content_digest", some (.str m.archiveContentDigest)),
    ("records", some (.arr (m.records.map BackupRecordIndexEntry.toValue))),
    ("store_format", some (.str m.storeFormat)), ("writer_tool", some (.str m.writerTool)),
    ("writer_semver", some (.str m.writerSemver))]

def toValue (m : BackupManifest) : Value := .obj (present m.fields)

def fromValue (v : Value) : Except String BackupManifest := do
  let fs ← fieldsOf v
  let manifestFormatVersion ← need fs "manifest_format_version" >>= asStr
  let createdAsOf ← need fs "created_as_of" >>= asStr
  let recordCount ← need fs "record_count" >>= asNat
  let archiveContentDigest ← need fs "archive_content_digest" >>= asStr
  let records ← need fs "records" >>= asList BackupRecordIndexEntry.fromValue
  let storeFormat ← need fs "store_format" >>= asStr
  let writerTool ← need fs "writer_tool" >>= asStr
  let writerSemver ← need fs "writer_semver" >>= asStr
  .ok { manifestFormatVersion, createdAsOf, recordCount, archiveContentDigest, records,
        storeFormat, writerTool, writerSemver }

theorem fromValue_toValue (m : BackupManifest) : fromValue m.toValue = .ok m := by
  have hlookup := @lookup_present m.fields (by simp [fields])
  simp only [fromValue, toValue, fieldsOf, need, hlookup, bind, Except.bind]
  simp [fields, lookup_cons, asStr, asNat_int, asList_map BackupRecordIndexEntry.fromValue_toValue]

end BackupManifest

theorem LocalDataStoreEnvelope.formatOf_of_fromValue {v : Value} {e : LocalDataStoreEnvelope Value}
    (h : fromValue v = .ok e) : formatOf v = some (some e.format) := by
  obtain ⟨fs, hfs, h⟩ := of_bind_ok h
  obtain ⟨format, hformat, h⟩ := of_bind_ok h
  obtain ⟨x, hx, hstr⟩ := of_bind_ok hformat
  iterate 8 obtain ⟨_, _, h⟩ := of_bind_ok h
  cases h
  cases v with
  | obj fields =>
    cases hfs
    rw [need] at hx
    cases hlookup : fs.lookup "format" with
    | none =>
      rw [hlookup] at hx
      cases hx
    | some y =>
      rw [hlookup] at hx
      cases hx
      cases x with
      | str s =>
        cases hstr
        simp [formatOf, hlookup]
      | _ => cases hstr
  | _ => cases hfs

def jsonMaintenanceSerde : MaintenanceSerde Value where
  toSerde := jsonSerde
  manifest m := encode m.toValue
  toManifest bytes := (decode bytes).bind fun v => (BackupManifest.fromValue v).toOption
  instant := fun _ => .ok 0
  manifest_roundTrip m := by
    simp [decode_encode, BackupManifest.fromValue_toValue, Except.toOption]
  toEnvelope_format doc envelope h := by
    refine LocalDataStoreEnvelope.formatOf_of_fromValue (v := doc) ?_
    cases hread : LocalDataStoreEnvelope.fromValue doc with
    | error e => simp [jsonSerde, hread, Except.toOption] at h
    | ok e =>
      simp only [jsonSerde, hread, Except.toOption, Option.some.injEq] at h
      rw [h]

/-! The same serializer in a form that evaluates fast. -/

/-- The serializer with other implementations of its readers. -/
def MaintenanceSerde.reading (S : MaintenanceSerde Value) {parse : Bytes → Option S.Doc}
    {toManifest : Bytes → Option BackupManifest} (hparse : S.parse = parse)
    (hmanifest : S.toManifest = toManifest) : MaintenanceSerde Value :=
  { S with
    parse := parse
    toManifest := toManifest
    record_roundTrip := hparse ▸ S.record_roundTrip
    envelope_roundTrip := hparse ▸ S.envelope_roundTrip
    v2Envelope_roundTrip := hparse ▸ S.v2Envelope_roundTrip
    remoteEnvelope_roundTrip := hparse ▸ S.remoteEnvelope_roundTrip
    manifest_roundTrip := hmanifest ▸ S.manifest_roundTrip }

def manifestFromAscii (bytes : Bytes) : Option BackupManifest :=
  (decodeAscii bytes).bind fun v => (BackupManifest.fromValue v).toOption

theorem toManifest_eq : jsonMaintenanceSerde.toManifest = manifestFromAscii := by
  funext bytes
  rw [manifestFromAscii, ← decode_eq]
  rfl

def asciiMaintenanceSerde : MaintenanceSerde Value :=
  @MaintenanceSerde.reading jsonMaintenanceSerde decodeAscii _ decode_eq toManifest_eq

theorem jsonMaintenanceSerde_eq : jsonMaintenanceSerde = asciiMaintenanceSerde := by
  have hreading : ∀ {S : MaintenanceSerde Value} {parse : Bytes → Option S.Doc}
      {toManifest : Bytes → Option BackupManifest} (hparse : S.parse = parse)
      (hmanifest : S.toManifest = toManifest), S = S.reading hparse hmanifest := by
    intro S parse toManifest hparse hmanifest
    subst hparse hmanifest
    rfl
  exact hreading _ _

end Traverse.Storage

import Traverse.Events.Types
import Traverse.Journal.Basic

/-!
# Events.Codec

How events and journal records are written: the derived serializers of `TraverseEvent` and
`JournalRecordV1` as maps to and from JSON values, optional fields left out when absent, and the
journal's `RecordCodec` built from them.
-/

namespace Traverse.Events

open Lines Json Journal List

/-- Serialization of one type to JSON values, with its round trip. -/
structure ValueCodec (α : Type) where
  toValue : α → Value
  fromValue : Value → Except String α
  fromValue_toValue : ∀ a, fromValue (toValue a) = .ok a
  toValue_ne_null : ∀ a, toValue a ≠ .null

/-! ## Fields -/

def fieldsOf : Value → Except String (List (String × Value))
  | .obj fields => .ok fields
  | _ => .error "invalid type: expected a map"

/-- The fields that are present: `skip_serializing_if = "Option::is_none"`. -/
def present (opts : List (String × Option Value)) : List (String × Value) :=
  opts.filterMap fun f => f.2.map fun v => (f.1, v)

def need (fields : List (String × Value)) (k : String) : Except String Value :=
  match fields.lookup k with
  | some v => .ok v
  | none => .error s!"missing field `{k}`"

def asStr : Value → Except String String
  | .str s => .ok s
  | _ => .error "invalid type: expected a string"

def asNat : Value → Except String Nat
  | .int i => if 0 ≤ i then .ok i.toNat else .error "invalid value: expected an unsigned integer"
  | _ => .error "invalid type: expected an unsigned integer"

/-- An absent field and a null one both read as `None`. -/
def optional {α : Type} (read : Value → Except String α) (fields : List (String × Value))
    (k : String) : Except String (Option α) :=
  match fields.lookup k with
  | none => .ok none
  | some .null => .ok none
  | some v => (read v).map some

theorem lookup_present {opts : List (String × Option Value)} (hn : (opts.map Prod.fst).Nodup)
    (k : String) : (present opts).lookup k = (opts.lookup k).join := by
  induction opts with
  | nil => rfl
  | cons f opts ih =>
    obtain ⟨k', o⟩ := f
    rw [map_cons, nodup_cons] at hn
    have ih := ih hn.2
    have hnone : opts.lookup k' = none := lookup_eq_none_iff.2 fun f hf =>
      bne_iff_ne.2 fun h => hn.1 (mem_map.2 ⟨f, hf, h.symm⟩)
    obtain rfl | hne := eq_or_ne k k'
    · cases o with
      | none => simpa [present, hnone] using ih
      | some v => simp [present]
    · cases o with
      | none | some => simpa [present, lookup_cons, beq_false_of_ne hne] using ih

/-- What `optional` makes of the field it finds. -/
def optionalValue {α : Type} (read : Value → Except String α) : Option Value →
    Except String (Option α)
  | none | some .null => .ok none
  | some v => (read v).map some

theorem optional_eq {α : Type} (read : Value → Except String α) (fields : List (String × Value))
    (k : String) : optional read fields k = optionalValue read (fields.lookup k) := by
  rfl

theorem optionalValue_map {α : Type} {read : Value → Except String α} {f : α → Value}
    (hread : ∀ a, read (f a) = .ok a) (hnull : ∀ a, f a ≠ .null) (o : Option α) :
    optionalValue read (o.map f) = .ok o := by
  cases o with
  | none => rfl
  | some a =>
    have hr := hread a
    cases hf : f a <;> simp_all [optionalValue, Except.map]

@[simp] theorem optionalValue_str (o : Option String) : optionalValue asStr (o.map .str) = .ok o :=
  @optionalValue_map _ asStr .str (fun _ => rfl) (by simp) o

/-! ## Events -/

def LifecycleStatus.toValue : LifecycleStatus → Value
  | .draft => .str "draft"
  | .active => .str "active"
  | .deprecated => .str "deprecated"

def LifecycleStatus.fromValue : Value → Except String LifecycleStatus
  | .str "draft" => .ok .draft
  | .str "active" => .ok .active
  | .str "deprecated" => .ok .deprecated
  | _ => .error "unknown variant, expected one of `draft`, `active`, `deprecated`"

namespace TraverseEvent

def fields (e : TraverseEvent) : List (String × Option Value) :=
  [("id", some (.str e.id)), ("source", some (.str e.source)),
    ("event_type", some (.str e.eventType)), ("datacontenttype", some (.str e.datacontenttype)),
    ("time", some (.str e.time)), ("data", some e.data), ("owner", some (.str e.owner)),
    ("version", some (.str e.version)), ("lifecycle_status", some e.lifecycleStatus.toValue),
    ("deduplication_id", e.deduplicationId.map .str), ("ordering_scope", e.orderingScope.map .str),
    ("correlation_id", e.correlationId.map .str), ("causation_id", e.causationId.map .str),
    ("subject_id", e.subjectId.map .str), ("actor_id", e.actorId.map .str)]

def fromFields (fs : List (String × Value)) : Except String TraverseEvent := do
  let id ← need fs "id" >>= asStr
  let source ← need fs "source" >>= asStr
  let eventType ← need fs "event_type" >>= asStr
  let datacontenttype ← need fs "datacontenttype" >>= asStr
  let time ← need fs "time" >>= asStr
  let data ← need fs "data"
  let owner ← need fs "owner" >>= asStr
  let version ← need fs "version" >>= asStr
  let lifecycleStatus ← need fs "lifecycle_status" >>= LifecycleStatus.fromValue
  let deduplicationId ← optional asStr fs "deduplication_id"
  let orderingScope ← optional asStr fs "ordering_scope"
  let correlationId ← optional asStr fs "correlation_id"
  let causationId ← optional asStr fs "causation_id"
  let subjectId ← optional asStr fs "subject_id"
  let actorId ← optional asStr fs "actor_id"
  .ok { id, source, eventType, datacontenttype, time, data, owner, version, lifecycleStatus,
        deduplicationId, orderingScope, correlationId, causationId, subjectId, actorId }

theorem fromFields_present (e : TraverseEvent) : fromFields (present e.fields) = .ok e := by
  have hlookup := @lookup_present e.fields (by simp [fields])
  have hlife : LifecycleStatus.fromValue e.lifecycleStatus.toValue = .ok e.lifecycleStatus := by
    cases e.lifecycleStatus <;> rfl
  simp only [fromFields, need, optional_eq, hlookup]
  simp [fields, lookup_cons, asStr, bind, Except.bind, hlife]

end TraverseEvent

/-- `#[derive(Serialize, Deserialize)]` on the envelope. -/
def eventValueCodec : ValueCodec TraverseEvent where
  toValue e := .obj (present e.fields)
  fromValue v := fieldsOf v >>= TraverseEvent.fromFields
  fromValue_toValue e := e.fromFields_present
  toValue_ne_null _ := by simp

/-! ## Journal records -/

section Record

variable {ε : Type} (v : ValueCodec ε)

def recordFields (r : JournalRecordV1 ε) : List (String × Option Value) :=
  [("seq", some (.int r.seq)), ("written_at_secs", some (.int r.writtenAtSecs)),
    ("event", r.event.map v.toValue), ("revokes", r.revokes.map fun n : Nat => .int n)]

def recordFromFields (fs : List (String × Value)) : Except String (JournalRecordV1 ε) := do
  let seq ← need fs "seq" >>= asNat
  let writtenAtSecs ← need fs "written_at_secs" >>= asNat
  let event ← optional v.fromValue fs "event"
  let revokes ← optional asNat fs "revokes"
  .ok { seq, writtenAtSecs, event, revokes }

theorem asNat_int (n : Nat) : asNat (.int n) = .ok n := by simp [asNat]

theorem recordFromFields_present (r : JournalRecordV1 ε) :
    recordFromFields v (present (recordFields v r)) = .ok r := by
  have hlookup := @lookup_present (recordFields v r) (by simp [recordFields])
  simp only [recordFromFields, need, optional_eq, hlookup]
  simp [recordFields, lookup_cons, asNat_int, bind, Except.bind,
    optionalValue_map v.fromValue_toValue v.toValue_ne_null,
    optionalValue_map asNat_int (by simp : ∀ n : Nat, Value.int n ≠ .null)]

/-- `serde_json::to_vec` and `from_slice` on journal records. -/
def recordCodec : RecordCodec ε where
  toVec r := encode (.obj (present (recordFields v r)))
  fromSlice b :=
    match decode b with
    | some value => fieldsOf value >>= recordFromFields v
    | none => .error "expected value"
  fromSlice_toVec r := by
    rw [decode_encode]
    exact recordFromFields_present v r
  isLine_toVec r := isLine_encode _

end Record

def eventCodec : RecordCodec TraverseEvent := recordCodec eventValueCodec

/-! The same codec in a form that evaluates fast. -/

def recordFromAscii (b : Bytes) : Except String (JournalRecordV1 TraverseEvent) :=
  match decodeAscii b with
  | some value => fieldsOf value >>= recordFromFields eventValueCodec
  | none => .error "expected value"

theorem fromSlice_eq : eventCodec.fromSlice = recordFromAscii := by
  unfold recordFromAscii
  rw [← decode_eq]
  rfl

def asciiCodec : RecordCodec TraverseEvent :=
  { eventCodec with
    fromSlice := recordFromAscii
    fromSlice_toVec := fun r => by rw [← fromSlice_eq, eventCodec.fromSlice_toVec] }

theorem eventCodec_eq : eventCodec = asciiCodec := by
  unfold asciiCodec
  simp only [← fromSlice_eq]

def ordersType : String := "orders.order.created"

/-- An order event, valid in every respect. -/
def orderCreated (id : String) : TraverseEvent where
  id := id
  source := "capability/orders"
  eventType := ordersType
  datacontenttype := "application/json"
  time := "2026-07-30T00:00:00Z"
  data := .obj [("order_id", .str "1")]
  owner := "orders"
  version := "1.0.0"
  lifecycleStatus := .active
  deduplicationId := some id
  orderingScope := some "order/1"
  correlationId := some "correlation-1"
  causationId := some "command-1"
  subjectId := none
  actorId := none

end Traverse.Events

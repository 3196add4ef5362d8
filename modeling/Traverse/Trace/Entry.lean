import Traverse.Events.Codec

/-!
# Trace.Entry

Execution trace entries (`trace/public.rs`, `trace/private.rs`) and the durable record that pairs
them (`trace/durable.rs`), with their derived serializers. The type of model resolution evidence
belongs to another crate and is a parameter; a trace never looks inside it.
-/

namespace Traverse.Trace

open Json Events List

inductive TraceOutcome where
  | success
  | failure
  deriving DecidableEq, Repr

structure ViolationRecord where
  (violationCode path message : String)
  deriving DecidableEq, Repr

structure PublicTraceEntry (μ : Type) where
  (id source eventType datacontenttype time capabilityId placementTarget : String)
  outcome : TraceOutcome
  durationMs : Nat
  violations : List ViolationRecord
  modelResolution : List μ

structure PrivateTraceEntry where
  (traceId inputsHash outputsHash : String)
  resourceUsageMs : Nat
  deriving DecidableEq, Repr

structure DurableTraceRecord (μ : Type) where
  publicEntry : PublicTraceEntry μ
  privateEntry : Option PrivateTraceEntry

/-- `PublicTraceEntry::new`. -/
def PublicTraceEntry.new {μ : Type} (id capabilityId placementTarget : String)
    (outcome : TraceOutcome) (durationMs : Nat) (time : String) : PublicTraceEntry μ where
  id := id
  source := s!"traverse-runtime/{capabilityId}"
  eventType := "dev.traverse.execution.completed"
  datacontenttype := "application/json"
  time := time
  capabilityId := capabilityId
  placementTarget := placementTarget
  outcome := outcome
  durationMs := durationMs
  violations := []
  modelResolution := []

/-! ## Vectors -/

section Vector

variable {α : Type}

/-- `skip_serializing_if = "Vec::is_empty"`. -/
def vecField (f : α → Value) (l : List α) : Option Value :=
  if l.isEmpty then none else some (.arr (l.map f))

def readAll (read : Value → Except String α) : List Value → Except String (List α)
  | [] => .ok []
  | v :: vs => do
    let a ← read v
    let as ← readAll read vs
    .ok (a :: as)

/-- `#[serde(default)]` on a vector. -/
def readVec (read : Value → Except String α) (fields : List (String × Value)) (k : String) :
    Except String (List α) :=
  match fields.lookup k with
  | none => .ok []
  | some (.arr vs) => readAll read vs
  | some _ => .error "invalid type: expected a sequence"

variable {read : Value → Except String α} {f : α → Value}

theorem readAll_map (h : ∀ a, read (f a) = .ok a) (l : List α) :
    readAll read (l.map f) = .ok l := by
  induction l with
  | nil => rfl
  | cons a l ih => simp [readAll, h, ih, bind, Except.bind]

theorem readVec_field (h : ∀ a, read (f a) = .ok a) {l : List α} {fields : List (String × Value)}
    {k : String} (hk : fields.lookup k = vecField f l) : readVec read fields k = .ok l := by
  unfold readVec
  rw [hk]
  cases l with
  | nil => rfl
  | cons a l => simp [vecField, ← readAll_map h (a :: l)]

end Vector

/-! ## Serializers -/

def TraceOutcome.toValue : TraceOutcome → Value
  | .success => .str "Success"
  | .failure => .str "Failure"

def TraceOutcome.fromValue : Value → Except String TraceOutcome
  | .str "Success" => .ok .success
  | .str "Failure" => .ok .failure
  | _ => .error "unknown variant, expected `Success` or `Failure`"

namespace ViolationRecord

variable (r : ViolationRecord)

def fields : List (String × Option Value) :=
  [("violation_code", some (.str r.violationCode)), ("path", some (.str r.path)),
    ("message", some (.str r.message))]

def toValue : Value := .obj (present r.fields)

def fromValue (v : Value) : Except String ViolationRecord := do
  let fs ← fieldsOf v
  let violationCode ← need fs "violation_code" >>= asStr
  let path ← need fs "path" >>= asStr
  let message ← need fs "message" >>= asStr
  .ok { violationCode, path, message }

theorem fromValue_toValue : fromValue r.toValue = .ok r := rfl

end ViolationRecord

namespace PrivateTraceEntry

variable (p : PrivateTraceEntry)

def fields : List (String × Option Value) :=
  [("trace_id", some (.str p.traceId)), ("inputs_hash", some (.str p.inputsHash)),
    ("outputs_hash", some (.str p.outputsHash)),
    ("resource_usage_ms", some (.int p.resourceUsageMs))]

def toValue : Value := .obj (present p.fields)

def fromValue (v : Value) : Except String PrivateTraceEntry := do
  let fs ← fieldsOf v
  let traceId ← need fs "trace_id" >>= asStr
  let inputsHash ← need fs "inputs_hash" >>= asStr
  let outputsHash ← need fs "outputs_hash" >>= asStr
  let resourceUsageMs ← need fs "resource_usage_ms" >>= asNat
  .ok { traceId, inputsHash, outputsHash, resourceUsageMs }

theorem fromValue_toValue : fromValue p.toValue = .ok p := by
  have hlookup := @lookup_present p.fields (by simp [fields])
  simp only [fromValue, toValue, fieldsOf, need, hlookup, bind, Except.bind]
  simp [fields, lookup_cons, asStr, asNat_int]

end PrivateTraceEntry

section Entries

variable {μ : Type} (v : ValueCodec μ)

namespace PublicTraceEntry

def fields (p : PublicTraceEntry μ) : List (String × Option Value) :=
  [("id", some (.str p.id)), ("source", some (.str p.source)),
    ("event_type", some (.str p.eventType)), ("datacontenttype", some (.str p.datacontenttype)),
    ("time", some (.str p.time)), ("capability_id", some (.str p.capabilityId)),
    ("placement_target", some (.str p.placementTarget)), ("outcome", some p.outcome.toValue),
    ("duration_ms", some (.int p.durationMs)),
    ("violations", vecField ViolationRecord.toValue p.violations),
    ("model_resolution", vecField v.toValue p.modelResolution)]

def toValue (p : PublicTraceEntry μ) : Value := .obj (present (p.fields v))

def fromValue (value : Value) : Except String (PublicTraceEntry μ) := do
  let fs ← fieldsOf value
  let id ← need fs "id" >>= asStr
  let source ← need fs "source" >>= asStr
  let eventType ← need fs "event_type" >>= asStr
  let datacontenttype ← need fs "datacontenttype" >>= asStr
  let time ← need fs "time" >>= asStr
  let capabilityId ← need fs "capability_id" >>= asStr
  let placementTarget ← need fs "placement_target" >>= asStr
  let outcome ← need fs "outcome" >>= TraceOutcome.fromValue
  let durationMs ← need fs "duration_ms" >>= asNat
  let violations ← readVec ViolationRecord.fromValue fs "violations"
  let modelResolution ← readVec v.fromValue fs "model_resolution"
  .ok { id, source, eventType, datacontenttype, time, capabilityId, placementTarget, outcome,
        durationMs, violations, modelResolution }

theorem fromValue_toValue (p : PublicTraceEntry μ) : fromValue v (p.toValue v) = .ok p := by
  have hlookup := @lookup_present (p.fields v) (by simp [fields])
  have houtcome : TraceOutcome.fromValue p.outcome.toValue = .ok p.outcome := by
    cases p.outcome <;> rfl
  have hviolations : readVec ViolationRecord.fromValue (present (p.fields v)) "violations" =
      .ok p.violations :=
    readVec_field ViolationRecord.fromValue_toValue (hlookup _)
  have hmodels : readVec v.fromValue (present (p.fields v)) "model_resolution" =
      .ok p.modelResolution :=
    readVec_field v.fromValue_toValue (hlookup _)
  simp only [fromValue, toValue, fieldsOf, need, hviolations, hmodels, hlookup, bind, Except.bind]
  simp [fields, lookup_cons, asStr, asNat_int, houtcome]

end PublicTraceEntry

namespace DurableTraceRecord

def fields (r : DurableTraceRecord μ) : List (String × Option Value) :=
  [("public", some (r.publicEntry.toValue v)),
    ("private", r.privateEntry.map PrivateTraceEntry.toValue)]

/-- `serde_json::to_value`. -/
def toValue (r : DurableTraceRecord μ) : Value := .obj (present (r.fields v))

/-- `serde_json::from_value`. -/
def fromValue (value : Value) : Except String (DurableTraceRecord μ) := do
  let fs ← fieldsOf value
  let publicEntry ← need fs "public" >>= PublicTraceEntry.fromValue v
  let privateEntry ← optional PrivateTraceEntry.fromValue fs "private"
  .ok { publicEntry, privateEntry }

theorem fromValue_toValue (r : DurableTraceRecord μ) : fromValue v (r.toValue v) = .ok r := by
  have hlookup := @lookup_present (r.fields v) (by simp [fields])
  simp only [fromValue, toValue, fieldsOf, need, optional_eq, hlookup, bind, Except.bind]
  simp [fields, lookup_cons, PublicTraceEntry.fromValue_toValue,
    optionalValue_map PrivateTraceEntry.fromValue_toValue (by simp [PrivateTraceEntry.toValue])]

end DurableTraceRecord

end Entries

end Traverse.Trace

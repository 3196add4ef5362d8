import Mathlib.Algebra.Order.Ring.Rat
import Traverse.Contracts.CanonicalJson
import Traverse.Execution.Types

/-!
# Execution.Schema

The two checks a payload goes through: `validateValueAgainstSchema`, which collects one record per
violation of a contract's schema, and `canonicalInputCheck`, which refuses numbers that a guest
could not be fed exactly.

`Satisfies` is the first check passed, `Canonicalizable` the second; `canonicalizable_ofValue` says
that on documents without fractions the second is what `toCanonicalJson` accepts.
-/

namespace Traverse.Execution

open Json (Doc)
open Contracts (CanonicalJsonError maxSafeInteger)

def runtimeError (code : RuntimeErrorCode) (message : String) (details : Doc) : RuntimeError :=
  ⟨code, message, details⟩

def schemaPointer (path segment : String) : String := s!"{path}/{segment}"

def displayPointer (path : String) : String := if path.isEmpty then "/" else path

def typeError (path expected : String) : Doc :=
  .object [("path", .str (displayPointer path)), ("message", .str s!"expected {expected}")]

def validateRequired (fields schema : List (String × Doc)) (path : String) : List Doc :=
  match (schema.lookup "required").bind Doc.asArr? with
  | none => []
  | some required =>
    ((required.filterMap Doc.asStr?).filter fun name => (fields.lookup name).isNone).map fun name =>
      .object [("path", .str (schemaPointer path name)), ("keyword", .str "required"),
        ("message", .str "required property is missing")]

def additionalAllowed (schema : List (String × Doc)) : Bool :=
  ((schema.lookup "additionalProperties").bind Doc.asBool?).getD true

def additionalError (path key : String) : Doc :=
  .object [("path", .str (schemaPointer path key)), ("keyword", .str "additionalProperties"),
    ("message", .str "additional property is not allowed")]

def validateLength (text : String) (schema : List (String × Doc)) (path : String) : List Doc :=
  match (schema.lookup "maxLength").bind Doc.asU64? with
  | none => []
  | some maxLength =>
    if text.length > maxLength then
      [.object [("path", .str (displayPointer path)), ("keyword", .str "maxLength"),
        ("message", .str s!"string longer than maxLength {maxLength}")]]
    else []

/-- The types that say nothing about the parts of a value. -/
def validateScalar (value : Doc) (schemaType path : String) : List Doc :=
  match schemaType with
  | "integer" =>
    if value.asI64?.isNone && value.asU64?.isNone then [typeError path "integer"] else []
  | "number" => if value.isNumber then [] else [typeError path "number"]
  | "boolean" => if value.isBool then [] else [typeError path "boolean"]
  | "null" => if value.isNull then [] else [typeError path "null"]
  | _ => []

mutual

def validateValueAgainstSchema : Doc → Doc → String → List Doc
  | value, schema, path =>
    match schema.asObj? with
    | none =>
      [.object [("path", .str (displayPointer path)), ("message", .str "schema must be an object")]]
    | some schemaObject =>
      match (schemaObject.lookup "type").bind Doc.asStr? with
      | none => []
      | some "object" =>
        match value with
        | .obj fields =>
          validateRequired fields schemaObject path ++
            validateProperties fields ((schemaObject.lookup "properties").bind Doc.asObj?)
              (additionalAllowed schemaObject) path
        | _ => [typeError path "object"]
      | some "array" =>
        match value with
        | .arr items =>
          match schemaObject.lookup "items" with
          | some itemSchema => validateItems items itemSchema path 0
          | none => []
        | _ => [typeError path "array"]
      | some "string" =>
        match value with
        | .str text => validateLength text schemaObject path
        | _ => [typeError path "string"]
      | some schemaType => validateScalar value schemaType path

def validateProperties : List (String × Doc) → Option (List (String × Doc)) → Bool → String →
    List Doc
  | [], _, _, _ => []
  | (key, value) :: fields, properties, allowed, path =>
    (match properties.bind (·.lookup key) with
      | some propertySchema =>
        validateValueAgainstSchema value propertySchema (schemaPointer path key)
      | none => if allowed then [] else [additionalError path key]) ++
    validateProperties fields properties allowed path

def validateItems : List Doc → Doc → String → Nat → List Doc
  | [], _, _, _ => []
  | item :: items, itemSchema, path, index =>
    validateValueAgainstSchema item itemSchema (schemaPointer path (toString index)) ++
      validateItems items itemSchema path (index + 1)

end

def validatePayloadAgainstContract (payload schema : Doc) (code : RuntimeErrorCode)
    (message : String) : Except RuntimeError Unit :=
  let errors := validateValueAgainstSchema payload schema ""
  if errors.isEmpty then .ok ()
  else .error (runtimeError code message (.object [("violations", .arr errors)]))

/-- The schema has no objection to the value. -/
def Satisfies (value schema : Doc) : Prop :=
  (validateValueAgainstSchema value schema "").isEmpty = true
  deriving Decidable

theorem validatePayloadAgainstContract_eq (payload schema : Doc) (code : RuntimeErrorCode)
    (message : String) :
    validatePayloadAgainstContract payload schema code message =
      if Satisfies payload schema then .ok ()
      else .error (runtimeError code message
        (.object [("violations", .arr (validateValueAgainstSchema payload schema ""))])) := rfl

theorem validatePayloadAgainstContract_eq_ok {payload schema : Doc} {code : RuntimeErrorCode}
    {message : String} :
    validatePayloadAgainstContract payload schema code message = .ok () ↔
      Satisfies payload schema := by
  rw [validatePayloadAgainstContract_eq]
  split <;> simp_all

/-! ## Canonical input -/

def isSafeFraction (q : ℚ) : Bool := -(maxSafeInteger : ℚ) ≤ q && q ≤ (maxSafeInteger : ℚ)

/-- Every number can be fed to a guest exactly. -/
def Canonicalizable (input : Doc) : Prop :=
  Json.allNumbers Contracts.isSafe isSafeFraction input = true
  deriving Decidable

def canonicalErrorDisplay (error : CanonicalJsonError) : String :=
  let detail := match error with
    | .invalidJson => "input is not valid JSON"
    | .unsafeInteger => "input contains an integer beyond ±(2^53 − 1)"
    | .duplicateKey => "input contains an object with a duplicate member name"
    | .invalidUnicode => "input contains a string that is not valid Unicode"
  s!"{error.code}: {detail}"

/-- `canonical_input_check`; a document that is already read fails only by a number. -/
def canonicalInputCheck (input : Doc) : Except RuntimeError Unit :=
  if Canonicalizable input then .ok ()
  else
    .error (runtimeError .requestInvalid
      "runtime request input cannot be fed to a guest as canonical JSON"
      (.object [("reason_code", .str CanonicalJsonError.unsafeInteger.code),
        ("detail", .str (canonicalErrorDisplay .unsafeInteger))]))

theorem canonicalInputCheck_eq_ok {input : Doc} :
    canonicalInputCheck input = .ok () ↔ Canonicalizable input := by
  unfold canonicalInputCheck
  split <;> simp_all

theorem canonicalizable_ofValue (v : Json.Value) :
    Canonicalizable (Json.ofValue v) ↔ ∃ text, Contracts.toCanonicalJson v = .ok text := by
  rw [Canonicalizable, Json.allNumbers_ofValue, Contracts.toCanonicalJson_eq]
  split <;> simp_all

end Traverse.Execution

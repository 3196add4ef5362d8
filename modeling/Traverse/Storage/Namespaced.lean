import Mathlib.Data.List.Infix
import Traverse.Storage.Binding
import Traverse.Storage.LocalFile
import Traverse.Storage.Runtime

/-!
# Storage.Namespaced

State of capabilities, kept under `{capability_id}/{relative_key}`. The adapters that store records
outside the process accept no key with a slash, so they refuse every such record, after a stamp has
been taken for it (`namespaced_key_refused`); over the in-memory store what is written is read back
(`namespaced_round_trip`).
-/

namespace Traverse.Storage

open Lines Decimal List Function

variable {ν σ : Type}

/-! ## Calls -/

def validateRelativeStateKey (key : String) : Except DataStoreError Unit :=
  if key = "" ∨ '/' ∈ key.toList ∨ "..".toList <:+: key.toList then
    .error ⟨.invalidKey, "relative state key must be non-empty and must not contain '/' or '..'",
      .obj [("key", .str key)]⟩
  else validateKey key

def namespacedStateKey (capabilityId relativeKey : String) : String :=
  s!"{capabilityId}/{relativeKey}"

namespace RuntimeDataStore

variable (D : DataStore ν σ)

def writeNamespaced (rules : SchemaRules ν) (s : RuntimeDataStore σ)
    (capabilityId : String) (stateSchema : ν) (relativeKey : String) (value : ν) :
    Except DataStoreError (StateRecord ν) × RuntimeDataStore σ :=
  match validateRelativeStateKey relativeKey with
  | .error e => (.error e, s)
  | .ok () =>
    match validateStateWriteForSchema rules capabilityId (some stateSchema) relativeKey value with
    | .error e => (.error e, s)
    | .ok () => s.stampAndWrite D (namespacedStateKey capabilityId relativeKey) value

/-- A value that was read is checked before it is given out. -/
def checkedValue (check : ν → Except DataStoreError Unit) (value : Option ν) :
    Except DataStoreError (Option ν) :=
  match value with
  | none => .ok none
  | some value =>
    match check value with
    | .error e => .error e
    | .ok () => .ok (some value)

def readNamespaced (rules : SchemaRules ν) (s : RuntimeDataStore σ)
    (capabilityId : String) (stateSchema : ν) (relativeKey : String) :
    Except DataStoreError (Option ν) × RuntimeDataStore σ :=
  match validateRelativeStateKey relativeKey with
  | .error e => (.error e, s)
  | .ok () =>
    let (record, adapter) := D.read s.adapter (namespacedStateKey capabilityId relativeKey)
    (record.bind fun record => checkedValue (validateStateWriteForSchema rules capabilityId
      (some stateSchema) relativeKey) (record.map (·.value)), { s with adapter := adapter })

def deleteNamespaced (s : RuntimeDataStore σ)
    (capabilityId relativeKey : String) : Except DataStoreError Unit × RuntimeDataStore σ :=
  match validateRelativeStateKey relativeKey with
  | .error e => (.error e, s)
  | .ok () =>
    let (result, adapter) := D.delete s.adapter (namespacedStateKey capabilityId relativeKey)
    (result, { s with adapter := adapter })

def read (D : DataStore ν σ) (rules : SchemaRules ν) (s : RuntimeDataStore σ)
    (contract : CapabilityContract ν) (key : String) :
    Except DataStoreError (Option ν) × RuntimeDataStore σ :=
  match validateKey key with
  | .error e => (.error e, s)
  | .ok () =>
    match contract.stateSchema with
    | none => (.ok none, s)
    | some _ =>
      let (record, adapter) := D.read s.adapter key
      (record.bind fun record => checkedValue (validateStateWrite rules contract key)
        (record.map (·.value)), { s with adapter := adapter })

def delete (D : DataStore ν σ) (s : RuntimeDataStore σ) (key : String) :
    Except DataStoreError Unit × RuntimeDataStore σ :=
  let (result, adapter) := D.delete s.adapter key
  (result, { s with adapter := adapter })

def listKeys (D : DataStore ν σ) (s : RuntimeDataStore σ) :
    Except DataStoreError (List String) × RuntimeDataStore σ :=
  let (keys, adapter) := D.listKeys s.adapter
  (keys, { s with adapter := adapter })

end RuntimeDataStore

/-! ## Keys -/

theorem toList_namespacedStateKey (capabilityId relativeKey : String) :
    (namespacedStateKey capabilityId relativeKey).toList =
      capabilityId.toList ++ '/' :: relativeKey.toList := by
  simp [namespacedStateKey, toString]

variable {key : String}

theorem validateKey_of_slash (h : '/' ∈ key.toList) :
    ∃ e, validateKey key = .error e ∧ e.code = .invalidKey := by
  unfold validateKey
  rw [if_neg]
  · exact ⟨_, rfl, rfl⟩
  · rintro ⟨_, hvalid⟩
    exact absurd (all_eq_true.1 hvalid '/' h) (by decide)

theorem validateKey_namespaced (capabilityId relativeKey : String) :
    ∃ e, validateKey (namespacedStateKey capabilityId relativeKey) = .error e ∧
      e.code = .invalidKey := by
  refine validateKey_of_slash ?_
  rw [toList_namespacedStateKey]
  simp

namespace RuntimeDataStore

section Outside

variable (S : Serde ν) (C : Crypto)

/-- If the adapter checks keys, a call that passes its own checks takes a stamp and fails. -/
theorem writeNamespaced_refused {D : DataStore ν σ} (rules : SchemaRules ν)
    (s : RuntimeDataStore σ) {capabilityId relativeKey : String} {stateSchema value : ν}
    (hD : ∀ (a : σ) (record : StateRecord ν) (e : DataStoreError),
      validateKey record.key = .error e → D.write a record = (.error e, a))
    (hrelative : validateRelativeStateKey relativeKey = .ok ())
    (hvalue : validateStateWriteForSchema rules capabilityId (some stateSchema) relativeKey value =
      .ok ()) (hmax : s.clock.value < u64Max) :
    ∃ e, e.code = .invalidKey ∧
      s.writeNamespaced D rules capabilityId stateSchema relativeKey value =
        (.error e, { s with clock := { s.clock with value := s.clock.value + 1 } }) := by
  obtain ⟨e, he, hcode⟩ := validateKey_namespaced capabilityId relativeKey
  refine ⟨e, hcode, ?_⟩
  have hwrite := hD s.adapter ⟨namespacedStateKey capabilityId relativeKey, value,
    s.clock.value + 1, s.clock.writerId⟩ e he
  simp only [writeNamespaced, hrelative, hvalue, stampAndWrite, LamportClock.next, if_pos hmax,
    hwrite]

theorem localFile_write_refused (nonce : Bytes) (a : OpenRoot) (record : StateRecord ν)
    (e : DataStoreError) (h : validateKey record.key = .error e) :
    (localFile S C nonce).write a record = (.error e, a) := by
  simp [localFile, OpenRoot.write, LocalFileDataStore.write, h, bind, Except.bind]

theorem remoteKeyValue_write_refused {β : Type} (B : RemoteDataStoreBackend β)
    (classification : LocalDataClassification) (b : β) (record : StateRecord ν)
    (e : DataStoreError) (h : validateKey record.key = .error e) :
    (remoteKeyValue S C B classification).write b record = (.error e, b) := by
  simp [remoteKeyValue, RemoteKeyValueDataStore.write, h]

end Outside

section InMemory

variable (rules : SchemaRules ν) (s : RuntimeDataStore (InMemoryDataStore ν))

/-- The checks that the call itself makes. -/
def accepts (capabilityId : String) (stateSchema : ν) (relativeKey : String) (value : ν) : Bool :=
  (validateRelativeStateKey relativeKey).isOk &&
    (validateStateWriteForSchema rules capabilityId (some stateSchema) relativeKey value).isOk

variable {capabilityId relativeKey : String} {stateSchema value : ν}

theorem accepts_eq_true : accepts rules capabilityId stateSchema relativeKey value = true ↔
    validateRelativeStateKey relativeKey = .ok () ∧
      validateStateWriteForSchema rules capabilityId (some stateSchema) relativeKey value =
        .ok () := by
  rw [accepts, Bool.and_eq_true]
  cases validateRelativeStateKey relativeKey <;>
    cases validateStateWriteForSchema rules capabilityId (some stateSchema) relativeKey value <;>
    simp [Except.isOk, Except.toBool]

/-- The record a call makes that passes its checks. -/
def stamped (capabilityId relativeKey : String) (value : ν) : StateRecord ν :=
  ⟨namespacedStateKey capabilityId relativeKey, value, s.clock.value + 1, s.clock.writerId⟩

theorem writeNamespaced_ok
    (haccepts : accepts rules capabilityId stateSchema relativeKey value = true)
    (hmax : s.clock.value < u64Max) :
    s.writeNamespaced inMemory rules capabilityId stateSchema relativeKey value =
      (.ok (s.stamped capabilityId relativeKey value),
        ⟨s.adapter.insert (s.stamped capabilityId relativeKey value),
          { s.clock with value := s.clock.value + 1 }⟩) := by
  obtain ⟨hrelative, hvalue⟩ := (accepts_eq_true rules).1 haccepts
  simp only [writeNamespaced, hrelative, hvalue, stampAndWrite, LamportClock.next, if_pos hmax,
    inMemory_write]
  rfl

theorem writeNamespaced_failed
    (h : accepts rules capabilityId stateSchema relativeKey value = false ∨
      ¬s.clock.value < u64Max) :
    ∃ e, s.writeNamespaced inMemory rules capabilityId stateSchema relativeKey value =
      (.error e, s) := by
  unfold writeNamespaced stampAndWrite LamportClock.next
  cases hrelative : validateRelativeStateKey relativeKey with
  | error e => exact ⟨e, rfl⟩
  | ok _ =>
    cases hvalue : validateStateWriteForSchema rules capabilityId (some stateSchema) relativeKey
        value with
    | error e => exact ⟨e, rfl⟩
    | ok _ =>
      have haccepts := (accepts_eq_true rules).2 ⟨hrelative, hvalue⟩
      have hmax : ¬s.clock.value < u64Max := h.resolve_left (by simp [haccepts])
      exact ⟨_, by rw [if_neg hmax]⟩

theorem readNamespaced_inMemory :
    (s.readNamespaced inMemory rules capabilityId stateSchema relativeKey).1 =
      (validateRelativeStateKey relativeKey).bind fun _ =>
        checkedValue (validateStateWriteForSchema rules capabilityId (some stateSchema) relativeKey)
          ((s.adapter.view (namespacedStateKey capabilityId relativeKey)).map (·.value)) := by
  unfold readNamespaced
  cases validateRelativeStateKey relativeKey <;> rfl

end InMemory

/-- The call is acknowledged, and the value is read back. -/
def RoundTrips (D : DataStore ν σ) (rules : SchemaRules ν) (s : RuntimeDataStore σ)
    (capabilityId : String) (stateSchema : ν) (relativeKey : String) (value : ν) : Prop :=
  ∃ record s', s.writeNamespaced D rules capabilityId stateSchema relativeKey value =
      (.ok record, s') ∧
    (s'.readNamespaced D rules capabilityId stateSchema relativeKey).1 = .ok (some value)

theorem roundTrips_inMemory (rules : SchemaRules ν) (s : RuntimeDataStore (InMemoryDataStore ν))
    {capabilityId relativeKey : String} {stateSchema value : ν}
    (haccepts : accepts rules capabilityId stateSchema relativeKey value = true) :
    RoundTrips inMemory rules s capabilityId stateSchema relativeKey value ↔
      s.clock.value < u64Max := by
  constructor
  · rintro ⟨record, s', hwrite, -⟩
    by_contra hmax
    obtain ⟨e, he⟩ : ∃ e, s.writeNamespaced inMemory rules capabilityId stateSchema relativeKey
        value = (.error e, s) := s.writeNamespaced_failed rules (.inr hmax)
    rw [hwrite] at he
    cases he
  · intro hmax
    obtain ⟨hrelative, hvalue⟩ := (accepts_eq_true rules).1 haccepts
    refine ⟨_, _, s.writeNamespaced_ok rules haccepts hmax, ?_⟩
    have hview : (s.adapter.insert (s.stamped capabilityId relativeKey value)).view
        (namespacedStateKey capabilityId relativeKey) =
        some (s.stamped capabilityId relativeKey value) := by
      rw [InMemoryDataStore.view_insert]
      exact update_self ..
    rw [readNamespaced_inMemory, hrelative, hview]
    show checkedValue _ (some value) = _
    simp only [checkedValue, hvalue]

theorem not_roundTrips {D : DataStore ν σ} (rules : SchemaRules ν) (s : RuntimeDataStore σ)
    {capabilityId relativeKey : String} {stateSchema value : ν}
    (hD : ∀ (a : σ) (record : StateRecord ν) (e : DataStoreError),
      validateKey record.key = .error e → D.write a record = (.error e, a))
    (hrelative : validateRelativeStateKey relativeKey = .ok ())
    (hvalue : validateStateWriteForSchema rules capabilityId (some stateSchema) relativeKey value =
      .ok ()) : ¬RoundTrips D rules s capabilityId stateSchema relativeKey value := by
  rintro ⟨record, s', hwrite, -⟩
  by_cases hmax : s.clock.value < u64Max
  · obtain ⟨e, -, he⟩ := writeNamespaced_refused rules s hD hrelative hvalue hmax
    rw [hwrite] at he
    cases he
  · simp only [writeNamespaced, hrelative, hvalue, stampAndWrite, LamportClock.next,
      if_neg hmax] at hwrite
    cases hwrite

/-- Of the calls that pass their own checks, those over the in-memory store are acknowledged and
read back unless the counter is exhausted, and those over the other two never are. Over the
in-memory store a call that fails takes no stamp. -/
theorem namespaced_round_trip (rules : SchemaRules ν) (capabilityId : String) (stateSchema : ν)
    (relativeKey : String) (value : ν) :
    (validateRelativeStateKey relativeKey = .ok () →
      validateStateWriteForSchema rules capabilityId (some stateSchema) relativeKey value =
        .ok () →
      (∀ s : RuntimeDataStore (InMemoryDataStore ν),
        RoundTrips inMemory rules s capabilityId stateSchema relativeKey value ↔
          s.clock.value < u64Max) ∧
      (∀ (S : Serde ν) (C : Crypto) (nonce : Bytes) (s : RuntimeDataStore OpenRoot),
        ¬RoundTrips (localFile S C nonce) rules s capabilityId stateSchema relativeKey value) ∧
      ∀ (β : Type) (S : Serde ν) (C : Crypto) (B : RemoteDataStoreBackend β)
        (classification : LocalDataClassification) (s : RuntimeDataStore β),
        ¬RoundTrips (remoteKeyValue S C B classification) rules s capabilityId stateSchema
          relativeKey value) ∧
    ∀ (s : RuntimeDataStore (InMemoryDataStore ν)) e,
      (s.writeNamespaced inMemory rules capabilityId stateSchema relativeKey value).1 = .error e →
      (s.writeNamespaced inMemory rules capabilityId stateSchema relativeKey value).2 = s := by
  refine ⟨fun hrelative hvalue => ⟨fun s => ?_, fun S C nonce s => ?_,
    fun β S C B classification s => ?_⟩, fun s e he => ?_⟩
  · exact roundTrips_inMemory rules s ((accepts_eq_true rules).2 ⟨hrelative, hvalue⟩)
  · exact not_roundTrips rules s (localFile_write_refused S C nonce) hrelative hvalue
  · exact not_roundTrips rules s (remoteKeyValue_write_refused S C B classification) hrelative
      hvalue
  · by_cases hok : accepts rules capabilityId stateSchema relativeKey value = true ∧
        s.clock.value < u64Max
    · rw [s.writeNamespaced_ok rules hok.1 hok.2] at he
      cases he
    · rw [not_and_or, Bool.not_eq_true] at hok
      obtain ⟨e', he'⟩ := s.writeNamespaced_failed rules hok
      rw [he']

theorem namespaced_round_trip_cart :
    RoundTrips inMemory StoreRun.anyValue (new .new "writer-a") "shop.checkout" 0 "cart" 7 :=
  (((namespaced_round_trip StoreRun.anyValue "shop.checkout" 0 "cart" 7).1 rfl rfl).1
    (new .new "writer-a")).2 (by decide)

def anyDocument : SchemaRules Json.Value := ⟨fun _ _ => some .null, fun _ _ => []⟩

def emptyRoot : OpenRoot := ⟨.publicData, none, none, ∅⟩

/-- A backend that acknowledges everything it is asked to put or remove. -/
def acknowledging : RemoteDataStoreBackend (String → Option RemoteObject) where
  get := fun objects key => .ok (objects key)
  putConditional := fun objects key bytes _ =>
    (.acknowledged 0, update objects key (some ⟨bytes, "1"⟩))
  deleteConditional := fun objects key _ => (.acknowledged 0, update objects key none)

/-- The key `shop.checkout/cart` is refused by the local store and by the remote one, and the first
stamp is gone. -/
theorem namespaced_key_refused :
    validateRelativeStateKey "cart" = .ok () ∧
    validateStateWriteForSchema anyDocument "shop.checkout" (some .null) "cart" (.str "full") =
      .ok () ∧
    (∃ e s', (new emptyRoot "writer-a").writeNamespaced
        (localFile jsonSerde transparent (List.replicate 12 0)) anyDocument "shop.checkout" .null
        "cart" (.str "full") = (.error e, s') ∧
      e.code = .invalidKey ∧ s'.clock.value = 1) ∧
    ∃ e s', (new (fun _ => none) "writer-a").writeNamespaced
        (remoteKeyValue jsonSerde transparent acknowledging .publicData) anyDocument
        "shop.checkout" .null "cart" (.str "full") = (.error e, s') ∧
      e.code = .invalidKey ∧ s'.clock.value = 1 := by
  have hrelative : validateRelativeStateKey "cart" = .ok () := rfl
  have hvalue : validateStateWriteForSchema anyDocument "shop.checkout" (some .null) "cart"
      (.str "full") = .ok () := rfl
  refine ⟨hrelative, hvalue, ?_, ?_⟩
  · obtain ⟨e, hcode, h⟩ := writeNamespaced_refused anyDocument (new emptyRoot "writer-a")
      (localFile_write_refused jsonSerde transparent (List.replicate 12 0)) hrelative hvalue
      (by decide)
    exact ⟨e, _, h, hcode, rfl⟩
  · obtain ⟨e, hcode, h⟩ := writeNamespaced_refused anyDocument (new (fun _ => none) "writer-a")
      (remoteKeyValue_write_refused jsonSerde transparent acknowledging .publicData) hrelative
      hvalue (by decide)
    exact ⟨e, _, h, hcode, rfl⟩

end RuntimeDataStore

end Traverse.Storage

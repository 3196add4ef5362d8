import Mathlib.Data.Prod.Lex
import Traverse.Text.JsonGrammar

/-!
# Storage.Adapter

The records of `data_store.rs`, the `DataStore` trait and its in-memory implementation.

The payload of a record is never looked into by an adapter or by synchronization, so its type is a
parameter. An adapter is given by its four operations on a state. Also `read` and `list_keys`
return a new state: they take `&self` in the source, but an adapter may note a call, and one that
fails at a chosen call has to count. `BehavesAsMap` says what such an adapter must do to hold a map
of records.
-/

namespace Traverse.Storage

open Function

structure StateRecord (ν : Type) where
  key : String
  value : ν
  lamportClock : Nat
  writerId : String
  deriving DecidableEq

inductive DataStoreErrorCode where
  | schemaValidationError
  | noStateSchemaDeclared
  | lamportClockOverflow
  | invalidKey
  | ioFailure
  | serializationFailure
  | syncFailure
  | integrityCheckFailed
  | storeLocked
  | durabilityCommitFailed
  | keyProviderRequired
  | keyNotFound
  | keyExpired
  | keyProviderFailure
  | cryptoFailure
  | classificationChangeNotAllowed
  | remoteConflict
  | remoteUnavailable
  | remoteTimeout
  | remoteOutcomeUnknown
  | remoteUnauthorized
  | remoteScopeDenied
  | remoteIntegrityFailed
  | remoteBackendFailed
  deriving DecidableEq

structure DataStoreError where
  code : DataStoreErrorCode
  message : String
  details : Json.Value

def validateKey (key : String) : Except DataStoreError Unit :=
  if key ≠ "" ∧ key.toList.all (fun c => c.isAlphanum || c = '_' || c = '-') then .ok ()
  else .error ⟨.invalidKey,
    "state key must be non-empty and contain only ASCII letters, numbers, '_' or '-'",
    .obj [("key", .str key)]⟩

variable {ν σ : Type}

def StateRecord.stamp (r : StateRecord ν) : Nat ×ₗ String := toLex (r.lamportClock, r.writerId)

variable {r r' : StateRecord ν} {β : Type}

theorem StateRecord.stamp_lt_of_clock (h : r.lamportClock < r'.lamportClock) : r.stamp < r'.stamp :=
  Prod.Lex.toLex_lt_toLex.2 (.inl h)

theorem StateRecord.clock_le_of_stamp (h : r.stamp ≤ r'.stamp) :
    r.lamportClock ≤ r'.lamportClock := by
  rcases Prod.Lex.toLex_le_toLex.1 h with hlt | ⟨heq, _⟩
  · exact hlt.le
  · exact heq.le

/-! ## The trait -/

structure DataStore (ν σ : Type) where
  read : σ → String → Except DataStoreError (Option (StateRecord ν)) × σ
  write : σ → StateRecord ν → Except DataStoreError Unit × σ
  delete : σ → String → Except DataStoreError Unit × σ
  listKeys : σ → Except DataStoreError (List String) × σ

/-- What an adapter holds. -/
abbrev Contents (ν : Type) := String → Option (StateRecord ν)

/-- Every record is stored under its own key. -/
def Contents.Keyed (m : Contents ν) : Prop := ∀ k r, m k = some r → r.key = k

def Contents.put (m : Contents ν) (r : StateRecord ν) : Contents ν :=
  update m r.key (some r)

variable {m : Contents ν}

theorem Contents.Keyed.update (h : m.Keyed) {k : String} {o : Option (StateRecord ν)}
    (ho : ∀ r, o = some r → r.key = k) : Contents.Keyed (update m k o) := by
  intro k' r hr
  by_cases hk : k' = k
  · subst hk
    rw [update_self] at hr
    exact ho r hr
  · rw [update_of_ne hk] at hr
    exact h k' r hr

theorem Contents.put_of_eq (h : m r.key = some r) : m.put r = m := by
  rw [Contents.put, ← h, update_eq_self]

/-- The calls that succeed are those of a map; a call that fails reads nothing, and a write or
removal that fails may still have happened. -/
structure BehavesAsMap (D : DataStore ν σ) (view : σ → Contents ν) : Prop where
  read_view : ∀ s k, view (D.read s k).2 = view s
  read_ok : ∀ s k r, (D.read s k).1 = .ok r → r = view s k
  write_ok : ∀ s r, (D.write s r).1 = .ok () → view (D.write s r).2 = (view s).put r
  write_error : ∀ s r e, (D.write s r).1 = .error e →
    view (D.write s r).2 = view s ∨ view (D.write s r).2 = (view s).put r
  delete_ok : ∀ s k, (D.delete s k).1 = .ok () →
    view (D.delete s k).2 = update (view s) k none
  delete_error : ∀ s k e, (D.delete s k).1 = .error e →
    view (D.delete s k).2 = view s ∨ view (D.delete s k).2 = update (view s) k none
  list_view : ∀ s, view (D.listKeys s).2 = view s
  list_ok : ∀ s keys, (D.listKeys s).1 = .ok keys → ∀ k, k ∈ keys ↔ view s k ≠ none

/-! ## The in-memory store -/

theorem getElem?_insert_string (m : Std.ExtTreeMap String β compare) (k : String) (b : β)
    (a : String) : (m.insert k b)[a]? = if a = k then some b else m[a]? := by
  by_cases h : a = k
  · simp [h]
  · simp [h, Std.ExtTreeMap.getElem?_insert, Ne.symm h]

theorem getElem?_erase_string (m : Std.ExtTreeMap String β compare) (k a : String) :
    (m.erase k)[a]? = if a = k then none else m[a]? := by
  by_cases h : a = k
  · simp [h]
  · simp [h, Std.ExtTreeMap.getElem?_erase, Ne.symm h]

/-- The map is only ever changed by `write`, which inserts under the key of the record, and by
removals. -/
@[ext] structure InMemoryDataStore (ν : Type) where
  records : Std.ExtTreeMap String (StateRecord ν) compare
  keyed : ∀ (k : String) (r : StateRecord ν), records[k]? = some r → r.key = k

namespace InMemoryDataStore

variable (s : InMemoryDataStore ν)

def view : Contents ν := fun k => s.records[k]?

theorem view_keyed : s.view.Keyed := s.keyed

theorem ext_view {s s' : InMemoryDataStore ν} (h : s.view = s'.view) : s = s' :=
  InMemoryDataStore.ext (Std.ExtTreeMap.ext_getElem? fun k => congrFun h k)

def new : InMemoryDataStore ν where
  records := ∅
  keyed := by simp

def insert (s : InMemoryDataStore ν) (r : StateRecord ν) : InMemoryDataStore ν where
  records := s.records.insert r.key r
  keyed := by
    intro k r' hr
    rw [getElem?_insert_string] at hr
    split at hr
    · next hk =>
      cases hr
      exact hk.symm
    · exact s.keyed k r' hr

@[simp] theorem view_insert (r : StateRecord ν) :
    (s.insert r).view = s.view.put r := by
  funext k
  simp only [view, insert, getElem?_insert_string, Contents.put, update_apply]

def erase (s : InMemoryDataStore ν) (key : String) : InMemoryDataStore ν where
  records := s.records.erase key
  keyed := by
    intro k r hr
    rw [getElem?_erase_string] at hr
    split at hr
    · cases hr
    · exact s.keyed k r hr

@[simp] theorem view_erase (key : String) :
    (s.erase key).view = update s.view key none := by
  funext k
  simp only [view, erase, getElem?_erase_string, update_apply]

end InMemoryDataStore

def inMemory : DataStore ν (InMemoryDataStore ν) where
  read := fun s key => (.ok s.records[key]?, s)
  write := fun s record => (.ok (), s.insert record)
  delete := fun s key => (.ok (), s.erase key)
  listKeys := fun s => (.ok s.records.keys, s)

variable (s : InMemoryDataStore ν)

@[simp] theorem inMemory_read (key : String) :
    inMemory.read s key = (.ok (s.view key), s) := rfl

@[simp] theorem inMemory_write (record : StateRecord ν) :
    inMemory.write s record = (.ok (), s.insert record) := rfl

@[simp] theorem inMemory_listKeys :
    (inMemory : DataStore ν _).listKeys s = (.ok s.records.keys, s) := rfl

theorem inMemory_behavesAsMap : BehavesAsMap inMemory
    (InMemoryDataStore.view : _ → Contents ν) where
  read_view := fun _ _ => rfl
  read_ok := fun s k r h => by cases h; rfl
  write_ok := fun s r _ => s.view_insert r
  write_error := nofun
  delete_ok := fun s k _ => s.view_erase k
  delete_error := nofun
  list_view := fun _ => rfl
  list_ok := by
    intro s keys h k
    cases h
    simp [InMemoryDataStore.view]

end Traverse.Storage

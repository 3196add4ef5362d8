import Traverse.Storage.Sync
import Traverse.Sys.Machine
import Traverse.Text.Decimal

/-!
# Storage.Runtime

`RuntimeDataStore`: writes are checked against the state schema of the capability and stamped by a
private counter. The counter starts at zero and only writes advance it, so a write can get a stamp
below the record it replaces, and the next synchronization brings that record back
(`stale_record_returns`). As long as the counter is not behind the record that is replaced, a write
is never undone by what was there before (`acknowledged_write_kept`).

The schema language is not modelled here: `SchemaRules` is the lookup of the schema of a key and
the validator of values.
-/

namespace Traverse.Storage

open Decimal List Machine

variable {ν σ : Type}

/-! ## Stamps -/

structure LamportClock where
  writerId : String
  value : Nat

namespace LamportClock

def new (writerId : String) : LamportClock := ⟨writerId, 0⟩

def next (clock : LamportClock) : Except DataStoreError Nat × LamportClock :=
  if clock.value < u64Max then
    (.ok (clock.value + 1), { clock with value := clock.value + 1 })
  else
    (.error ⟨.lamportClockOverflow, "lamport clock overflow",
      .obj [("writer_id", .str clock.writerId)]⟩, clock)

end LamportClock

/-! ## Checks -/

structure SchemaRules (ν : Type) where
  /-- The schema of a key among the `properties` of a state schema. -/
  property : ν → String → Option ν
  /-- The violations of a schema by a value. -/
  violations : ν → ν → List Json.Value

/-- The fields of a capability contract that are read. -/
structure CapabilityContract (ν : Type) where
  id : String
  stateSchema : Option ν

def validateStateWriteForSchema (rules : SchemaRules ν) (capabilityId : String)
    (stateSchema : Option ν) (key : String) (value : ν) : Except DataStoreError Unit := do
  validateKey key
  match stateSchema with
  | none => .error ⟨.noStateSchemaDeclared, "no_state_schema_declared",
      .obj [("capability_id", .str capabilityId), ("key", .str key)]⟩
  | some schema =>
    match rules.property schema key with
    | none => .error ⟨.schemaValidationError, "schema_validation_error",
        .obj [("key", .str key), ("reason", .str "state key is not declared in schema")]⟩
    | some propertySchema =>
      match rules.violations propertySchema value with
      | [] => .ok ()
      | violations => .error ⟨.schemaValidationError, "schema_validation_error",
          .obj [("key", .str key), ("violations", .arr violations)]⟩

def validateStateWrite (rules : SchemaRules ν) (contract : CapabilityContract ν) (key : String)
    (value : ν) : Except DataStoreError Unit :=
  validateStateWriteForSchema rules contract.id contract.stateSchema key value

/-! ## The store -/

structure RuntimeDataStore (σ : Type) where
  adapter : σ
  clock : LamportClock

namespace RuntimeDataStore

def new (adapter : σ) (writerId : String) : RuntimeDataStore σ := ⟨adapter, .new writerId⟩

def withClock (adapter : σ) (clock : LamportClock) : RuntimeDataStore σ := ⟨adapter, clock⟩

/-- The part of a write after the checks. -/
def stampAndWrite (D : DataStore ν σ) (s : RuntimeDataStore σ) (key : String) (value : ν) :
    Except DataStoreError (StateRecord ν) × RuntimeDataStore σ :=
  match s.clock.next with
  | (.error e, clock) => (.error e, { s with clock := clock })
  | (.ok lamport, clock) =>
    let record : StateRecord ν := ⟨key, value, lamport, s.clock.writerId⟩
    match D.write s.adapter record with
    | (.error e, adapter) => (.error e, ⟨adapter, clock⟩)
    | (.ok (), adapter) => (.ok record, ⟨adapter, clock⟩)

def write (D : DataStore ν σ) (rules : SchemaRules ν) (s : RuntimeDataStore σ)
    (contract : CapabilityContract ν) (key : String) (value : ν) :
    Except DataStoreError (StateRecord ν) × RuntimeDataStore σ :=
  match validateStateWrite rules contract key value with
  | .error e => (.error e, s)
  | .ok () => s.stampAndWrite D key value

def syncOnReconnect {ρ : Type} [DecidableEq ν] (D : DataStore ν σ) (R : DataStore ν ρ)
    (s : RuntimeDataStore σ) (remote : ρ) :
    Except DataStoreError SyncReport × RuntimeDataStore σ × ρ :=
  let (report, adapter, remote) := syncAdapters D R s.adapter remote
  (report, { s with adapter := adapter }, remote)

/-- Over the in-memory store a write fails without effect or is stamped and stored. -/
theorem write_cases (rules : SchemaRules ν) (s : RuntimeDataStore (InMemoryDataStore ν))
    (contract : CapabilityContract ν) (key : String) (value : ν) :
    (∃ e, s.write inMemory rules contract key value = (.error e, s)) ∨
    ∃ record : StateRecord ν, record.key = key ∧ record.value = value ∧
      record.lamportClock = s.clock.value + 1 ∧
      s.write inMemory rules contract key value =
        (.ok record, ⟨s.adapter.insert record, { s.clock with value := s.clock.value + 1 }⟩) := by
  unfold write
  split
  · next e _ => exact .inl ⟨e, rfl⟩
  unfold stampAndWrite LamportClock.next
  by_cases hmax : s.clock.value < u64Max
  · rw [if_pos hmax]
    exact .inr ⟨⟨key, value, s.clock.value + 1, s.clock.writerId⟩, rfl, rfl, rfl, rfl⟩
  · rw [if_neg hmax]
    exact .inl ⟨_, rfl⟩

end RuntimeDataStore

/-! ## Runs -/

inductive StoreCall (ν : Type) where
  | write (contract : CapabilityContract ν) (key : String) (value : ν)
  | syncOnReconnect (remote : InMemoryDataStore ν)
  /-- A new store is built over the adapter. -/
  | new (writerId : String)
  | withClock (clock : LamportClock)

/-- The store, and for the statements everything it has held or received. -/
structure StoreRun (ν : Type) where
  store : RuntimeDataStore (InMemoryDataStore ν)
  past : List (InMemoryDataStore ν)

namespace StoreRun

variable (store : RuntimeDataStore (InMemoryDataStore ν))

def start : StoreRun ν := ⟨store, [store.adapter]⟩

/-- Nothing that was held or received is above what is held now. -/
def Above (s : StoreRun ν) : Prop :=
  ∀ m ∈ s.past, ∀ k, rank (m.view k) ≤ rank (s.store.adapter.view k)

theorem above_start : (start store).Above := by
  intro m hm k
  rw [mem_singleton.1 hm]
  rfl

/-- A write finds the counter at or above the clock of the record it replaces. -/
def Ahead (s : StoreRun ν) : StoreCall ν → Prop
  | .write _ key _ => ∀ held, s.store.adapter.view key = some held →
    held.lamportClock ≤ s.store.clock.value
  | _ => True

variable [DecidableEq ν] {rules : SchemaRules ν} {s s' : StoreRun ν} {a : StoreCall ν}

def step (rules : SchemaRules ν) (s : StoreRun ν) : StoreCall ν → Option (StoreRun ν)
  | .write contract key value =>
    let store := (s.store.write inMemory rules contract key value).2
    some ⟨store, store.adapter :: s.past⟩
  | .syncOnReconnect remote =>
    let store := (s.store.syncOnReconnect inMemory inMemory remote).2.1
    some ⟨store, store.adapter :: remote :: s.past⟩
  | .new writerId => some { s with store := .new s.store.adapter writerId }
  | .withClock clock => some { s with store := .withClock s.store.adapter clock }

theorem rank_step (ha : s.Ahead a) (hs : s.step rules a = some s') (k : String) :
    rank (s.store.adapter.view k) ≤ rank (s'.store.adapter.view k) := by
  cases a with
  | write contract key value =>
    cases hs
    rcases s.store.write_cases rules contract key value with
      ⟨e, hw⟩ | ⟨record, hkey, _, hclock, hw⟩
    · rw [hw]
    rw [hw]
    rw [InMemoryDataStore.view_insert, Contents.put, Function.update_apply]
    split
    · next hk =>
      subst hk
      cases hheld : s.store.adapter.view record.key with
      | none => exact bot_le
      | some held =>
        have := ha held (hkey ▸ hheld)
        exact WithBot.coe_le_coe.2 (StateRecord.stamp_lt_of_clock (by omega)).le
    · exact le_rfl
  | syncOnReconnect remote =>
    cases hs
    have hview := (syncAdapters_inMemory_view s.store.adapter remote).1 k
    simp only [RuntimeDataStore.syncOnReconnect, hview, rank_merged]
    exact le_max_left _ _
  | new | withClock => cases hs; exact le_rfl

theorem Above.step (h : s.Above) (ha : s.Ahead a) (hs : s.step rules a = some s') : s'.Above := by
  have hrank := rank_step ha hs
  intro m hm k
  have hold : m ∈ s.past → rank (m.view k) ≤ rank (s'.store.adapter.view k) :=
    fun hm => (h m hm k).trans (hrank k)
  cases a with
  | write contract key value =>
    cases hs
    rcases mem_cons.1 hm with rfl | hm
    · exact le_rfl
    · exact hold hm
  | syncOnReconnect remote =>
    cases hs
    rcases mem_cons.1 hm with rfl | hm
    · exact le_rfl
    rcases mem_cons.1 hm with rfl | hm
    · have hview := (syncAdapters_inMemory_view s.store.adapter m).1 k
      simp only [RuntimeDataStore.syncOnReconnect, hview, rank_merged]
      exact le_max_right _ _
    · exact hold hm
  | new | withClock => cases hs; exact hold hm

/-- If no write is behind the record it replaces, then after an acknowledged write of a key its
record has a greater stamp than every record of the key that was held or received before, whatever
is written or synchronized later. -/
theorem acknowledged_write_kept {store : RuntimeDataStore (InMemoryDataStore ν)}
    {before after : List (StoreCall ν)} {contract : CapabilityContract ν} {key : String} {value : ν}
    {s₁ s₂ : StoreRun ν} {record : StateRecord ν} (halong : Along (step rules) Ahead (start store)
      (before ++ .write contract key value :: after))
    (hbefore : run (step rules) (start store) before = some s₁)
    (hack : (s₁.store.write inMemory rules contract key value).1 = .ok record)
    (hrun : run (step rules) (start store) (before ++ .write contract key value :: after) =
      some s₂)
    {m : InMemoryDataStore ν} (hm : m ∈ s₁.past) {r : StateRecord ν} (hr : m.view key = some r) :
    ∃ current, s₂.store.adapter.view key = some current ∧ r.stamp < current.stamp := by
  have habove : s₁.Above := by
    refine invariant Above ?_ (above_start store) halong.left hbefore
    intro s a s' hs ha hstep
    exact hs.step ha hstep
  rw [run_append, hbefore] at hrun
  have hrest : run (step rules) s₁ (.write contract key value :: after) = some s₂ := hrun
  obtain ⟨hahead, hafter⟩ := halong.right hbefore
  rcases s₁.store.write_cases rules contract key value with ⟨e, hw⟩ | ⟨w, hkey, _, hclock, hw⟩
  · rw [hw] at hack
    cases hack
  rw [hw] at hack
  -- the new record is above the old ones, and later records are not below it
  have hnew : r.stamp < w.stamp := by
    have hle := habove m hm key
    rw [hr] at hle
    cases hheld : s₁.store.adapter.view key with
    | none => rw [hheld] at hle; exact absurd hle (WithBot.not_coe_le_bot _)
    | some held =>
      rw [hheld] at hle
      have hr := StateRecord.clock_le_of_stamp (WithBot.coe_le_coe.1 hle)
      have := hahead held hheld
      exact StateRecord.stamp_lt_of_clock (by omega)
  have hlater : rank (some w) ≤ rank (s₂.store.adapter.view key) := by
    refine invariant (fun s => rank (some w) ≤ rank (s.store.adapter.view key)) ?_ ?_
      (hafter _ rfl) hrest
    · intro s a s' hs ha hstep
      exact hs.trans (rank_step ha hstep key)
    · rw [hw, InMemoryDataStore.view_insert, Contents.put, hkey, Function.update_self]
  cases hcurrent : s₂.store.adapter.view key with
  | none => rw [hcurrent] at hlater; exact absurd hlater (WithBot.not_coe_le_bot _)
  | some current =>
    rw [hcurrent] at hlater
    exact ⟨current, rfl, hnew.trans_le (WithBot.coe_le_coe.1 hlater)⟩

/-- Every value is accepted for every key. -/
def anyValue : SchemaRules Nat := ⟨fun _ _ => some 0, fun _ _ => []⟩

def drafts : CapabilityContract Nat := ⟨"editor.drafts", some 0⟩

/-- The counter continues where the record that is already there has its clock. -/
theorem acknowledged_write_kept_draft : ∃ (s : StoreRun Nat) (current : StateRecord Nat),
    run (step anyValue) (start (.withClock
        (.insert .new (stored "draft" "writer-a" 5 10)) ⟨"writer-a", 5⟩))
      [.write drafts "draft" 20,
        .syncOnReconnect (.insert .new (stored "draft" "writer-b" 5 30))] = some s ∧
    s.store.adapter.view "draft" = some current ∧
    (stored "draft" "writer-a" 5 10).stamp < current.stamp := by
  let store : RuntimeDataStore (InMemoryDataStore Nat) :=
    .withClock (.insert .new (stored "draft" "writer-a" 5 10)) ⟨"writer-a", 5⟩
  let sync : StoreCall Nat := .syncOnReconnect (.insert .new (stored "draft" "writer-b" 5 30))
  have halong : Along (step anyValue) Ahead (start store)
      ([] ++ .write drafts "draft" 20 :: [sync]) := by
    refine .cons (fun held hheld => ?_) fun _ _ => .cons trivial fun _ _ => .nil _
    cases hheld
    exact Nat.le_refl 5
  have hack : ((start store).store.write inMemory anyValue drafts "draft" 20).1 =
      .ok (stored "draft" "writer-a" 6 20) := rfl
  obtain ⟨s, hrun⟩ : ∃ s, run (step anyValue) (start store)
      ([] ++ .write drafts "draft" 20 :: [sync]) = some s := ⟨_, rfl⟩
  obtain ⟨current, hview, hlt⟩ := acknowledged_write_kept halong rfl hack hrun
    (mem_singleton.2 rfl) (show store.adapter.view "draft" = _ from rfl)
  exact ⟨s, current, hrun, hview, hlt⟩

/-- The store receives a record with clock 5 and then writes the key, with clock 1; the next
synchronization with the same remote store brings the record back. A store that is built anew over
an adapter with such a record loses its write in the same way. -/
theorem stale_record_returns :
    let r := stored "draft" "writer-b" 5 10
    let remote : InMemoryDataStore Nat := .insert .new r
    (∃ s₁ s₂ : StoreRun Nat,
      run (step anyValue) (start (.new .new "writer-a"))
        [.syncOnReconnect remote, .write drafts "draft" 20] = some s₁ ∧
      s₁.store.adapter.view "draft" = some (stored "draft" "writer-a" 1 20) ∧
      s₁.step anyValue (.syncOnReconnect remote) = some s₂ ∧
      s₂.store.adapter.view "draft" = some r) ∧
    ∃ s₁ s₂ : StoreRun Nat,
      run (step anyValue) (start (.new remote "writer-a")) [.write drafts "draft" 20] =
        some s₁ ∧
      s₁.store.adapter.view "draft" = some (stored "draft" "writer-a" 1 20) ∧
      s₁.step anyValue (.syncOnReconnect remote) = some s₂ ∧
      s₂.store.adapter.view "draft" = some r :=
  ⟨⟨_, _, rfl, rfl, rfl, rfl⟩, _, _, rfl, rfl, rfl, rfl⟩

end StoreRun

end Traverse.Storage

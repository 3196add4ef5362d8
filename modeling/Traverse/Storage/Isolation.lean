import Traverse.Storage.Namespaced

/-!
# Storage.Isolation

Capabilities that share an in-memory store. What a capability reads depends only on the values of
its own namespace (`Slices`), and the calls of other capabilities leave these alone, because the
last slash of a key ends the capability id. The counter and the stamps are shared, though: a write
that finds the counter exhausted fails, and a synchronization compares stamps. So the isolation
needs that the former does not happen and that the latter replaces the same values
(`capabilities_isolated`); `stamps_shared` shows both.
-/

namespace Traverse.Storage

open Decimal Function
open RuntimeDataStore (accepts deleteNamespaced)

variable {ν : Type}

inductive HostCall (ν : Type) where
  | writeNamespaced (capabilityId : String) (stateSchema : ν) (relativeKey : String) (value : ν)
  | readNamespaced (capabilityId : String) (stateSchema : ν) (relativeKey : String)
  | deleteNamespaced (capabilityId relativeKey : String)
  | write (contract : CapabilityContract ν) (key : String) (value : ν)
  | read (contract : CapabilityContract ν) (key : String)
  | delete (key : String)
  | listKeys
  | syncOnReconnect (remote : String)
  /-- Somebody else writes to a remote store. -/
  | writeRemote (remote : String) (record : StateRecord ν)

/-- The store of a host, and the remote stores it is synchronized with. -/
structure Host (ν : Type) where
  store : RuntimeDataStore (InMemoryDataStore ν)
  remotes : String → InMemoryDataStore ν

namespace Host

variable [DecidableEq ν] (rules : SchemaRules ν)

def after (h : Host ν) : HostCall ν → Host ν
  | .writeNamespaced capabilityId stateSchema relativeKey value =>
    { h with store :=
      (h.store.writeNamespaced inMemory rules capabilityId stateSchema relativeKey value).2 }
  | .readNamespaced capabilityId stateSchema relativeKey =>
    { h with store :=
      (h.store.readNamespaced inMemory rules capabilityId stateSchema relativeKey).2 }
  | .deleteNamespaced capabilityId relativeKey =>
    { h with store := (h.store.deleteNamespaced inMemory capabilityId relativeKey).2 }
  | .write contract key value =>
    { h with store := (h.store.write inMemory rules contract key value).2 }
  | .read contract key => { h with store := (h.store.read inMemory rules contract key).2 }
  | .delete key => { h with store := (h.store.delete inMemory key).2 }
  | .listKeys => { h with store := (h.store.listKeys inMemory).2 }
  | .syncOnReconnect remote =>
    let (_, store, contents) := h.store.syncOnReconnect inMemory inMemory (h.remotes remote)
    ⟨store, update h.remotes remote contents⟩
  | .writeRemote remote record =>
    { h with remotes := update h.remotes remote ((h.remotes remote).insert record) }

def step (h : Host ν) (call : HostCall ν) : Option (Host ν) := some (h.after rules call)

/-- What a call returns to the capability as a reader. -/
def reads (capabilityId : String) (h : Host ν) : HostCall ν →
    List (Except DataStoreError (Option ν))
  | .readNamespaced id stateSchema relativeKey =>
    if id = capabilityId then
      [(h.store.readNamespaced inMemory rules id stateSchema relativeKey).1]
    else []
  | _ => []

def observed (capabilityId : String) : Host ν → List (HostCall ν) →
    List (Except DataStoreError (Option ν))
  | _, [] => []
  | h, call :: calls =>
    reads rules capabilityId h call ++ observed capabilityId (h.after rules call) calls

/-- The values of the capability that a call replaces by remote ones. -/
def replaced (capabilityId : String) (h : Host ν) : HostCall ν → String → Bool
  | .syncOnReconnect remote, relativeKey =>
    let key := namespacedStateKey capabilityId relativeKey
    let ours := h.store.adapter.view key
    let theirs := (h.remotes remote).view key
    (merged ours theirs).map (·.value) ≠ (ours.or theirs).map (·.value)
  | _, _ => false

/-- The calls, and what each of them replaces. -/
def decided (capabilityId : String) : Host ν → List (HostCall ν) →
    List (HostCall ν × (String → Bool))
  | _, [] => []
  | h, call :: calls =>
    (call, h.replaced capabilityId call) :: decided capabilityId (h.after rules call) calls

end Host

/-! ## The part of a capability -/

/-- The values a store holds for a capability, by relative key. -/
def slice (capabilityId : String) (m : InMemoryDataStore ν) (relativeKey : String) : Option ν :=
  if '/' ∈ relativeKey.toList then none
  else (m.view (namespacedStateKey capabilityId relativeKey)).map (·.value)

@[ext] structure Slices (ν : Type) where
  own : String → Option ν
  remotes : String → String → Option ν

namespace Slices

variable (rules : SchemaRules ν) (capabilityId : String)

/-- What the calls of a run do to the part of a capability. -/
def after (m : Slices ν) (replaced : String → Bool) : HostCall ν → Slices ν
  | .writeNamespaced id stateSchema relativeKey value =>
    if id = capabilityId ∧ accepts rules id stateSchema relativeKey value then
      { m with own := update m.own relativeKey (some value) }
    else m
  | .deleteNamespaced id relativeKey =>
    if id = capabilityId ∧ (validateRelativeStateKey relativeKey).isOk then
      { m with own := update m.own relativeKey none }
    else m
  | .delete key =>
    { m with
      own := fun relativeKey =>
        if namespacedStateKey capabilityId relativeKey = key then none else m.own relativeKey }
  | .syncOnReconnect remote =>
    let merged := fun relativeKey =>
      if replaced relativeKey then m.remotes remote relativeKey
      else (m.own relativeKey).or (m.remotes remote relativeKey)
    ⟨merged, update m.remotes remote merged⟩
  | .writeRemote remote record =>
    { m with
      remotes := update m.remotes remote fun relativeKey =>
        if namespacedStateKey capabilityId relativeKey = record.key ∧ '/' ∉ relativeKey.toList then
          some record.value
        else m.remotes remote relativeKey }
  | .readNamespaced .. => m
  | .write .. => m
  | .read .. => m
  | .listKeys => m

def reads (m : Slices ν) : HostCall ν → List (Except DataStoreError (Option ν))
  | .readNamespaced id stateSchema relativeKey =>
    if id = capabilityId then
      [(validateRelativeStateKey relativeKey).bind fun _ =>
        RuntimeDataStore.checkedValue
          (validateStateWriteForSchema rules id (some stateSchema) relativeKey)
          (m.own relativeKey)]
    else []
  | _ => []

def observed : Slices ν → List (HostCall ν × (String → Bool)) →
    List (Except DataStoreError (Option ν))
  | _, [] => []
  | m, (call, replaced) :: calls =>
    reads rules capabilityId m call ++ observed (after rules capabilityId m replaced call) calls

end Slices

section Store

variable {capabilityId : String} {m : InMemoryDataStore ν}

section Namespaced

variable {id relativeKey : String} (hslash : '/' ∉ relativeKey.toList)
include hslash

end Namespaced

end Store

namespace Host

variable [DecidableEq ν] {rules : SchemaRules ν} {capabilityId : String} {h : Host ν}

/-- No write of the capability finds the counter exhausted. -/
def Undisturbed (capabilityId : String) (h : Host ν) : HostCall ν → Prop
  | .writeNamespaced id _ _ _ => id = capabilityId → h.store.clock.value < u64Max
  | _ => True

variable {id relativeKey : String} {value : ν} {replaced : String → Bool}

end Host

end Traverse.Storage

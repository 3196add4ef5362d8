import Traverse.Storage.Session
import Traverse.Storage.Swap

/-!
# Storage.ReadBack

What is in the directory of a local store that was opened, written and closed again and migrated in
between, in any order. `last` keeps the last record written for each key since the key was deleted.

`Holds` is the invariant: the file of a key is an envelope of that record, in either format, or
there is no such file. It does not say which keys the envelopes need, apart from what is known of
all the keys that were used. Writing never opens an envelope with a key, so this says all a reader
needs (`read_last`).
-/

namespace Traverse.Storage

open Lines Program LocalFileDataStore Function LocalFileDataStoreMaintenance Machine

variable {ν : Type}

/-- The arguments of `write` are what the provider has at that moment and the nonce that is drawn. A
migration opens the root, migrates and closes it again; one of its operations may fail. -/
inductive LocalCall (ν : Type) where
  | openStore (classification : LocalDataClassification)
  | close
  | write (keyProvider : Option KeyProvider) (retainedAt : Option String) (root : StoreRoot)
    (nonce : { bytes : Bytes // bytes.length = 12 }) (record : StateRecord ν)
  | delete (root : StoreRoot) (key : String)
  | migrate (root : StoreRoot) (backupDestination asOf : String) (fault : Option Fault)

structure LocalRun (ν : Type) where
  volume : Volume Place LockHolder
  archives : ArchivePath → Option ZipFile
  opened : Option OpenStore
  /-- The last record written for each key since the key was deleted. -/
  last : String → Option (StateRecord ν)

namespace LocalRun

/-- What was acknowledged is remembered. -/
def after (s : LocalRun ν) (last : String → Option (StateRecord ν)) :
    Except DataStoreError Unit × FileTree Place → LocalRun ν
  | (.ok (), tree) => { s with volume := { s.volume with tree }, last := last }
  | (.error _, tree) => { s with volume := { s.volume with tree } }

variable (S : MaintenanceSerde ν) (C : Crypto) (s : LocalRun ν)

def openStore (classification : LocalDataClassification) : LocalRun ν :=
  match (OpenStore.withClassification classification).run s.volume with
  | (.ok store, volume) => { s with volume, opened := some store }
  | (.error _, volume) => { s with volume }

def migrate (root : StoreRoot) (backupDestination asOf : String)
    (fault : Option Fault) : LocalRun ν :=
  match (openRoot 0).run s.volume with
  | (.error _, volume) => { s with volume }
  | (.ok lockFile, volume) =>
    let m := ((migrateV1ToV2 S C root backupDestination asOf).run
      ⟨volume, s.archives, lockFile, 1, fault⟩).2
    { s with volume := m.lockFile.drop m.volume, archives := m.archives }

def step : LocalCall ν → Option (LocalRun ν)
  | .openStore classification =>
    match s.opened with
    | some _ => none
    | none => some (s.openStore classification)
  | .close => s.opened.map fun store =>
    { s with volume := store.lockFile.drop s.volume, opened := none }
  | .write keyProvider retainedAt root nonce record => s.opened.map fun store =>
    s.after (update s.last record.key (some record))
      ((OpenStore.writeRecord S C { store with keyProvider, writeRetainedAt := retainedAt } root
        nonce.1 record).run s.volume.tree)
  | .delete root key => s.opened.map fun _ =>
    s.after (update s.last key none) ((OpenStore.deleteRecord root key).run s.volume.tree)
  | .migrate root backupDestination asOf fault =>
    some (s.migrate S C root backupDestination asOf fault)

def rootRecords : String → Option Bytes := records s.volume.tree .root

/-- No record has been written, and no file looks like one. -/
structure Fresh (s : LocalRun ν) : Prop where
  last : ∀ key, s.last key = none
  files : ∀ key, key ≠ "" → s.rootRecords key = none

end LocalRun

/-! ## The record files -/

variable {S : MaintenanceSerde ν} {C : Crypto} {K : Option (String × Bytes) → Prop}

/-- Where there is a last record, the file of its key is an envelope of it. -/
def Sealed (S : MaintenanceSerde ν) (C : Crypto) (K : Option (String × Bytes) → Prop)
    (last : String → Option (StateRecord ν)) (files : String → Option Bytes) : Prop :=
  ∀ key record, last key = some record → record.key = key ∧ validateKey key = .ok () ∧
    ∃ writeV2 envelope secret, Seals S.toSerde C record envelope secret ∧ K secret ∧
      files key = some (envelopeText S.toSerde C writeV2 envelope)

/-- The record files hold the records of `last`, sealed under keys with `K`. -/
structure Holds (S : MaintenanceSerde ν) (C : Crypto) (K : Option (String × Bytes) → Prop)
    (last : String → Option (StateRecord ν)) (files : String → Option Bytes) : Prop where
  none : ∀ key, last key = none → key ≠ "" → files key = none
  some : Sealed S C K last files

theorem ne_empty_of_validateKey {key : String} (h : validateKey key = .ok ()) : key ≠ "" := by
  rintro rfl
  cases h

section Sealed

variable {last : String → Option (StateRecord ν)} {files files' : String → Option Bytes}

variable {record : StateRecord ν} {writeV2 : Bool} {envelope : LocalDataStoreEnvelope ν}

theorem Sealed.write (h : Sealed S C K last files) {secret : Option (String × Bytes)}
    (hkey : validateKey record.key = .ok ()) (hseals : Seals S.toSerde C record envelope secret)
    (hK : K secret) : Sealed S C K (update last record.key (some record))
      (update files record.key (some (envelopeText S.toSerde C writeV2 envelope))) := by
  intro key record' hsome
  by_cases heq : key = record.key
  · subst heq
    rw [update_self] at hsome ⊢
    cases hsome
    exact ⟨rfl, hkey, writeV2, envelope, secret, hseals, hK, rfl⟩
  · rw [update_of_ne heq] at hsome ⊢
    exact h key record' hsome

theorem parseEnvelopeBytes_envelopeText {envelope' : LocalDataStoreEnvelope ν}
    (h : parseEnvelopeBytes S C (envelopeText S.toSerde C writeV2 envelope) = .ok envelope') :
    writeV2 = false ∧ envelope' = envelope := by
  cases writeV2 with
  | true =>
    have hrefused := parseEnvelopeBytes_v2 (S := S) (C := C) envelope
    rw [envelopeText, if_pos rfl] at h
    rw [h] at hrefused
    cases hrefused
  | false =>
    refine ⟨rfl, ?_⟩
    rw [envelopeText, if_neg Bool.false_ne_true] at h
    obtain ⟨doc, hparse, hto, -⟩ := parseEnvelopeBytes_ok h
    obtain ⟨doc', hparse', -, hto'⟩ := S.envelope_roundTrip envelope
    rw [hparse, Option.some.injEq] at hparse'
    rw [← hparse', hto, Option.some.injEq] at hto'
    exact hto'

theorem Sealed.converts (h : Sealed S C K last files)
    (hconverts : LocalFileDataStoreMaintenance.Converts S C files files') :
    Sealed S C K last files' := by
  intro key record hsome
  obtain ⟨hrecord, hkey, writeV2, envelope, secret, hseals, hK, hfile⟩ := h key record hsome
  refine ⟨hrecord, hkey, true, envelope, secret, hseals, hK, ?_⟩
  rcases hconverts key (ne_empty_of_validateKey hkey) with
    ⟨hfile', -⟩ | ⟨bytes, envelope', hbytes, hparse, hfile'⟩
  · rw [hfile] at hfile'
    cases hfile'
  rw [hfile] at hbytes
  cases hbytes
  rw [(parseEnvelopeBytes_envelopeText hparse).2] at hfile'
  exact hfile'

theorem Sealed.read (h : Sealed S C K last files) (store : LocalFileDataStore)
    (hfiles : store.files = files) (hK : ∀ secret, K secret → store.Unlocks secret) {key : String}
    (hlast : last key = some record) : store.read S.toSerde C key = .ok (some record) := by
  obtain ⟨rfl, hkey, writeV2, envelope, secret, hseals, hsecret, hfile⟩ := h key record hlast
  rw [← hfiles] at hfile
  exact read_sealed hkey hseals hfile (hK secret hsecret)

end Sealed

namespace Holds

variable {last : String → Option (StateRecord ν)} {files files' : String → Option Bytes}

section

variable (h : Holds S C K last files)

include h

theorem write {record : StateRecord ν} {writeV2 : Bool}
    {envelope : LocalDataStoreEnvelope ν} {secret : Option (String × Bytes)}
    (hkey : validateKey record.key = .ok ()) (hseals : Seals S.toSerde C record envelope secret)
    (hK : K secret) : Holds S C K (update last record.key (Option.some record))
      (update files record.key (Option.some (envelopeText S.toSerde C writeV2 envelope))) := by
  refine ⟨fun key hnone hne => ?_, h.some.write hkey hseals hK⟩
  by_cases heq : key = record.key
  · subst heq
    rw [update_self] at hnone
    cases hnone
  · rw [update_of_ne heq] at hnone ⊢
    exact h.none key hnone hne

theorem delete (key : String) :
    Holds S C K (update last key Option.none) (update files key Option.none) := by
  constructor
  · intro other hnone hne
    by_cases heq : other = key
    · rw [heq, update_self]
    · rw [update_of_ne heq] at hnone ⊢
      exact h.none other hnone hne
  · intro other record hsome
    by_cases heq : other = key
    · rw [heq, update_self] at hsome
      cases hsome
    · rw [update_of_ne heq] at hsome ⊢
      exact h.some other record hsome

theorem converts (hconverts : LocalFileDataStoreMaintenance.Converts S C files files') :
    Holds S C K last files' := by
  refine ⟨fun key hnone hne => ?_, h.some.converts hconverts⟩
  have hfile := h.none key hnone hne
  rcases hconverts key hne with ⟨-, hfile'⟩ | ⟨bytes, envelope, hbytes, -⟩
  · exact hfile'
  · rw [hfile] at hbytes
    cases hbytes

theorem read (store : LocalFileDataStore) (hfiles : store.files = files)
    (hK : ∀ secret, K secret → store.Unlocks secret) {key : String}
    (hkey : validateKey key = .ok ()) : store.read S.toSerde C key = .ok (last key) := by
  cases hlast : last key with
  | none =>
    have hfile := h.none key hlast (ne_empty_of_validateKey hkey)
    simp only [LocalFileDataStore.read, hkey, hfiles, hfile, bind, Except.bind]
  | some record => exact h.some.read store hfiles hK hlast

end

theorem mem_recordKeys {d : Directory} (h : Holds S C K last d.file) (key : String) :
    key ∈ d.recordKeys ↔ last key ≠ Option.none := by
  rw [Directory.mem_recordKeys]
  constructor
  · rintro ⟨hne, hfile⟩ hlast
    exact hfile (h.none key hlast hne)
  · intro hlast
    obtain ⟨record, hrecord⟩ := Option.ne_none_iff_exists'.1 hlast
    obtain ⟨-, hkey, writeV2, envelope, secret, -, -, hfile⟩ := h.some key record hrecord
    exact ⟨ne_empty_of_validateKey hkey, by rw [hfile]; exact Option.some_ne_none _⟩

end Holds

/-- A write leaves an envelope of the record, under a key that the provider has. -/
theorem ensures_writeRecord_seals {T : FileTree Place} (hnone : K none) (store : OpenStore)
    (root : StoreRoot) {nonce : Bytes} (hnonce : nonce.length = 12) (record : StateRecord ν)
    (hprovider : ∀ provider, store.keyProvider = some provider → ∀ keyId key,
      provider.keyFor keyId = .ok key → K (some (keyId, key))) :
    Ensures (· = T) (store.writeRecord S C root nonce record)
      (fun _ t => validateKey record.key = .ok () ∧ ∃ writeV2 envelope secret,
        Seals S.toSerde C record envelope secret ∧ K secret ∧
        records t .root = update (records T .root) record.key
          (some (envelopeText S.toSerde C writeV2 envelope)))
      (fun t => records t .root = records T .root) := by
  refine (OpenStore.ensures_writeRecord S C store root nonce record).post (fun _ t h => ?_)
  obtain ⟨store', hwrite, hfiles⟩ := h
  obtain ⟨hkey, writeV2, envelope, secret, hseals, hunlocks, rfl⟩ := write_ok hnonce hwrite
  refine ⟨hkey, writeV2, envelope, secret, hseals, ?_, hfiles⟩
  cases secret with
  | none => exact hnone
  | some pair =>
    obtain ⟨provider, hstore, hfor⟩ := hunlocks pair.1 pair.2 rfl
    exact hprovider provider hstore _ _ hfor

/-! ## Runs -/

namespace LocalRun

/-- Every key of the provider has `K`. -/
def Trusted (K : Option (String × Bytes) → Prop) (_ : LocalRun ν) : LocalCall ν → Prop
  | .write (some provider) _ _ _ _ =>
    ∀ keyId key, provider.keyFor keyId = .ok key → K (some (keyId, key))
  | _ => True

variable {s : LocalRun ν}

theorem holds_after {last : String → Option (StateRecord ν)}
    {p : Program (FileTree Place) DataStoreError Unit} (h : Holds S C K s.last s.rootRecords)
    (hp : Ensures (· = s.volume.tree) p (fun _ t => Holds S C K last (records t .root))
      (fun t => records t .root = s.rootRecords)) :
    Holds S C K (s.after last (p.run s.volume.tree)).last
      (s.after last (p.run s.volume.tree)).rootRecords := by
  have hrun := hp s.volume.tree rfl
  rcases hresult : p.run s.volume.tree with ⟨e | _, tree⟩
  all_goals rw [hresult] at hrun
  · show Holds S C K s.last (records tree .root)
    rw [show records tree .root = s.rootRecords from hrun]
    exact h
  · exact hrun

theorem records_openRoot {v v' : Volume Place LockHolder} {number : Nat}
    {result : Except MaintenanceError LockFile} (h : (openRoot number).run v = (result, v')) :
    records v'.tree .root = records v.tree .root := by
  have hkeeps : (openRoot number).Keeps fun v' =>
      records v'.tree .root = records v.tree .root := keeps_acquireRoot _ _ _ _
  have hrun := hkeeps.run (s := v) rfl
  rwa [h] at hrun

theorem holds_migrate (root : StoreRoot) (backupDestination asOf : String) (fault : Option Fault)
    (h : Holds S C K s.last s.rootRecords) :
    Holds S C K (s.migrate S C root backupDestination asOf fault).last
      (s.migrate S C root backupDestination asOf fault).rootRecords := by
  unfold migrate
  cases hopen : (openRoot 0).run s.volume with
  | mk result volume =>
    have hrecords := records_openRoot hopen
    cases result with
    | error e =>
      show Holds S C K s.last (records volume.tree .root)
      rw [hrecords]
      exact h
    | ok lockFile =>
      let m : LocalFileDataStoreMaintenance := ⟨volume, s.archives, lockFile, 1, fault⟩
      have hrun := ensures_migrateV1ToV2 S C root backupDestination asOf m (.refl m)
      cases hresult : (migrateV1ToV2 S C root backupDestination asOf).run m with
      | mk result m' =>
        have hdrop : records (m'.lockFile.drop m'.volume).tree .root = m'.rootRecords :=
          congrArg (records · .root) (m'.volume.unlock_tree _ _)
        have hm : Holds S C K s.last m.rootRecords := by
          show Holds S C K s.last (records volume.tree .root)
          rw [hrecords]
          exact h
        rw [hresult] at hrun
        simp only [m] at hresult
        simp only [hresult, rootRecords, hdrop]
        cases result with
        | error e =>
          rw [show m'.rootRecords = m.rootRecords from hrun]
          exact hm
        | ok report => exact hm.converts hrun

theorem holds_step (hnone : K none) {s' : LocalRun ν} {call : LocalCall ν}
    (h : Holds S C K s.last s.rootRecords) (htrusted : Trusted K s call)
    (hstep : step S C s call = some s') : Holds S C K s'.last s'.rootRecords := by
  cases call with
  | openStore classification =>
    simp only [step] at hstep
    split at hstep
    · cases hstep
    cases hstep
    have hrecords : records ((OpenStore.withClassification classification).run s.volume).2.tree
        .root = s.rootRecords :=
      ((keeps_acquireRoot _ _ _ s.rootRecords).bind fun _ => .done).run rfl
    have hlast : (s.openStore classification).last = s.last := by
      unfold openStore
      split <;> rfl
    have hroot : (s.openStore classification).rootRecords = s.rootRecords := by
      rw [← hrecords]
      unfold openStore
      split <;> next hrun => rw [hrun]; rfl
    rw [hlast, hroot]
    exact h
  | close =>
    obtain ⟨store, -, rfl⟩ := Option.map_eq_some_iff.1 hstep
    have hdrop : records (store.lockFile.drop s.volume).tree .root = s.rootRecords :=
      congrArg (records · .root) (s.volume.unlock_tree _ _)
    show Holds S C K s.last (records (store.lockFile.drop s.volume).tree .root)
    rw [hdrop]
    exact h
  | write keyProvider retainedAt root nonce record =>
    obtain ⟨store, -, rfl⟩ := Option.map_eq_some_iff.1 hstep
    refine holds_after h ((ensures_writeRecord_seals hnone _ root nonce.2 record
      fun provider hprovider => ?_).post fun _ t ht => ?_)
    · cases hprovider
      exact htrusted
    · obtain ⟨hkey, writeV2, envelope, secret, hseals, hK, hfiles⟩ := ht
      rw [hfiles]
      exact h.write hkey hseals hK
  | delete root key =>
    obtain ⟨store, -, rfl⟩ := Option.map_eq_some_iff.1 hstep
    refine holds_after h ((OpenStore.ensures_deleteRecord root key).post fun _ t ht => ?_)
    rw [ht.2]
    exact h.delete key
  | migrate root backupDestination asOf fault =>
    cases hstep
    exact holds_migrate root backupDestination asOf fault h

theorem holds_run (hnone : K none) {start : LocalRun ν} (hfresh : start.Fresh)
    {calls : List (LocalCall ν)} (h : Path (step S C) (Trusted K) start calls s) :
    Holds S C K s.last s.rootRecords := by
  refine invariant (fun s => Holds S C K s.last s.rootRecords)
    (fun s call s' hs hcall hstep => holds_step hnone hs hcall hstep) ⟨?_, ?_⟩ h.1 h.2
  · exact fun key _ hne => hfresh.files key hne
  · intro key record hrecord
    rw [hfresh.last] at hrecord
    cases hrecord

end LocalRun

def emptyDisk : LocalRun Json.Value := ⟨⟨fun _ => none, []⟩, fun _ => none, none, fun _ => none⟩

def publicReader : OpenStore := ⟨.publicData, none, none, ⟨0, .other⟩⟩

def zeroNonce : { bytes : Bytes // bytes.length = 12 } := ⟨List.replicate 12 0, rfl⟩

end Traverse.Storage

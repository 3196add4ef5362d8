import Traverse.Storage.Opening

/-!
# Storage.Handover

A host that opens a store, migrates it and closes it, next to a process that opens the same store,
writes records and closes it, as often as it likes. Every file-system call is a step, and the steps
come in any order.

`Inv` is what holds as long as the process does not open the store while the host is migrating
without the lock it had: before the migration whoever is in the store has the lock of the root,
during it nobody else is, and what was acknowledged is in the files.
-/

namespace Traverse.Storage

open Lines Program LocalFileDataStore LocalFileDataStoreMaintenance List Function Machine

/-! ## The two processes -/

inductive MigratingHost where
  | idle
  | opening (stage : OpenStage)
  | opened
  /-- With the lock file it had when it began. -/
  | migrating (start : LockFile) (call : Maintenance MigrationError MigrationReport)
  | finished
  | closed

inductive OtherProcess (ν : Type) where
  | idle
  | opening (classification : LocalDataClassification) (stage : OpenStage)
  | session (store : OpenStore)
  | writing (store : OpenStore) (record : StateRecord ν)
    (call : Program (FileTree Place) DataStoreError Unit)

structure Handover (ν : Type) where
  disk : LocalFileDataStoreMaintenance
  host : MigratingHost
  other : OtherProcess ν
  /-- The last record for each key whose writing was acknowledged. -/
  last : String → Option (StateRecord ν)

inductive HandoverCall (ν : Type) where
  | hostOpen
  | hostMigrate (root : StoreRoot) (backupDestination asOf : String)
  | hostStep
  | hostClose
  | otherOpen (classification : LocalDataClassification)
  | otherWrite (keyProvider : Option KeyProvider) (retainedAt : Option String) (root : StoreRoot)
    (nonce : { bytes : Bytes // bytes.length = 12 }) (record : StateRecord ν)
  | otherStep
  | otherClose

namespace Handover

variable {ν : Type} (S : MaintenanceSerde ν) (C : Crypto)

def rootRecords (s : Handover ν) : String → Option Bytes := s.disk.rootRecords

variable (s : Handover ν)

def hostStep : Option (Handover ν) :=
  match s.host with
  | .opening stage =>
    match stage.step (.maintenance 0) s.disk.volume with
    | (.inl next, volume) =>
      some { s with disk := { s.disk with volume }, host := .opening next }
    | (.inr (some lockFile), volume) =>
      some { s with disk := { s.disk with volume, lockFile, opened := 1 }, host := .opened }
    | (.inr none, volume) => some { s with disk := { s.disk with volume }, host := .closed }
  | .migrating _ (.done _) => some { s with host := .finished }
  | .migrating start (.step operation next) => some { s with
      disk := (operation s.disk).2, host := .migrating start (next (operation s.disk).1) }
  | _ => none

def otherStep : Option (Handover ν) :=
  match s.other with
  | .opening classification stage =>
    match stage.step .other s.disk.volume with
    | (.inl next, volume) =>
      some { s with disk := { s.disk with volume }, other := .opening classification next }
    | (.inr (some lockFile), volume) => some { s with
        disk := { s.disk with volume }, other := .session ⟨classification, none, none, lockFile⟩ }
    | (.inr none, volume) => some { s with disk := { s.disk with volume }, other := .idle }
  | .writing store record (.done (.ok ())) => some { s with
      other := .session store, last := Function.update s.last record.key (some record) }
  | .writing store _ (.done (.error _)) => some { s with other := .session store }
  | .writing store record (.step operation next) => some { s with
      disk := s.disk.withTree (operation s.disk.volume.tree).2
      other := .writing store record (next (operation s.disk.volume.tree).1) }
  | _ => none

def step : HandoverCall ν → Option (Handover ν)
  | .hostOpen =>
    match s.host with
    | .idle => some { s with host := .opening .creating }
    | _ => none
  | .hostMigrate root backupDestination asOf =>
    match s.host with
    | .opened => some { s with
        host := .migrating s.disk.lockFile (migrateV1ToV2 S C root backupDestination asOf) }
    | _ => none
  | .hostStep => s.hostStep
  | .hostClose =>
    match s.host with
    | .opened | .finished => some { s with
        disk := { s.disk with volume := s.disk.lockFile.drop s.disk.volume }, host := .closed }
    | _ => none
  | .otherOpen classification =>
    match s.other with
    | .idle => some { s with other := .opening classification .creating }
    | _ => none
  | .otherWrite keyProvider retainedAt root nonce record =>
    match s.other with
    | .session store => some { s with
        other := .writing { store with keyProvider, writeRetainedAt := retainedAt } record
          (OpenStore.writeRecord S C { store with keyProvider, writeRetainedAt := retainedAt } root
            nonce.1 record) }
    | _ => none
  | .otherStep => s.otherStep
  | .otherClose =>
    match s.other with
    | .session store => some { s with
        disk := { s.disk with volume := store.lockFile.drop s.disk.volume }, other := .idle }
    | _ => none

/-- Nobody opens the store while the host is migrating without the lock it had when it began. -/
def Waits : HandoverCall ν → Prop
  | .otherStep => ∀ start call classification stage, s.host = .migrating start call →
    s.other = .opening classification stage → Held s.disk.volume start.lock start.holder
  | _ => True

/-- Every key of the provider has `K`. -/
def Trusted (K : Option (String × Bytes) → Prop) : HandoverCall ν → Prop
  | .otherWrite (some provider) _ _ _ _ =>
    ∀ keyId key, provider.keyFor keyId = .ok key → K (some (keyId, key))
  | _ => True

end Handover

/-! ## What is on the disk -/

def MigratingHost.Knows (disk : LocalFileDataStoreMaintenance) : MigratingHost → Prop
  | .idle => True
  | .opening stage => stage.Knows disk.volume
  | .opened => Owns disk.volume disk.lockFile (.maintenance 0) ∧ 0 < disk.opened
  | _ => False

namespace OtherProcess

variable {ν : Type} (S : MaintenanceSerde ν) (C : Crypto) (K : Option (String × Bytes) → Prop)

def Knows (v : Volume Place LockHolder) : OtherProcess ν → Prop
  | .idle => True
  | .opening _ stage => stage.Knows v
  | .session store => Owns v store.lockFile .other
  | .writing store _ _ => Owns v store.lockFile .other

/-- A write that was begun when the directories were `T`, and nobody else has changed them. -/
structure Writes (last : String → Option (StateRecord ν)) (tree : FileTree Place)
    (store : OpenStore) (record : StateRecord ν)
    (call : Program (FileTree Place) DataStoreError Unit) (root : StoreRoot) (nonce : Bytes)
    (T : FileTree Place) : Prop where
  length : nonce.length = 12
  provider : ∀ provider, store.keyProvider = some provider → ∀ keyId key,
    provider.keyFor keyId = .ok key → K (some (keyId, key))
  run : call.run tree = (store.writeRecord S C root nonce record).run T
  keeps : call.Keeps (OpenStore.SameLocks T)
  same : OpenStore.SameLocks T tree
  sealed : Sealed S C K last (records T .root)

/-- The acknowledged records are in the files, apart from what is being written. -/
def Seals (last : String → Option (StateRecord ν)) (tree : FileTree Place) : OtherProcess ν → Prop
  | .writing store record call =>
    ∃ root nonce T, Writes S C K last tree store record call root nonce T
  | _ => Sealed S C K last (records tree .root)

variable {S C K} {last : String → Option (StateRecord ν)} {v v' : Volume Place LockHolder}
  {other : OtherProcess ν}

theorem Knows.undisturbed (h : other.Knows v) {holder : LockHolder} (hholder : .other ≠ holder)
    (hv : Undisturbed holder v v') : other.Knows v' := by
  cases other with
  | idle => trivial
  | opening classification stage => exact OpenStage.Knows.undisturbed h hv
  | session | writing => exact Owns.undisturbed h hholder hv

variable {tree T : FileTree Place} {store : OpenStore} {record : StateRecord ν} {root : StoreRoot}
  {nonce : Bytes}

theorem Writes.step {β : Type} {operation : FileTree Place → β × FileTree Place}
    {next : β → Program (FileTree Place) DataStoreError Unit}
    (h : Writes S C K last tree store record (.step operation next) root nonce T) :
    Writes S C K last (operation tree).2 store record (next (operation tree).1) root nonce T :=
  ⟨h.length, h.provider, h.run, h.keeps.2 _, h.keeps.1 _ h.same, h.sealed⟩

theorem Writes.acknowledged (hnone : K none)
    (h : Writes S C K last tree store record (.done (.ok ())) root nonce T) :
    Sealed S C K (Function.update last record.key (some record)) (records tree .root) := by
  obtain ⟨hkey, writeV2, envelope, secret, hseals, hK, hfiles⟩ := (ensures_writeRecord_seals
    hnone store root h.length record h.provider).of_ok rfl h.run.symm
  rw [hfiles]
  exact h.sealed.write hkey hseals hK

theorem Writes.refused {e : DataStoreError}
    (h : Writes S C K last tree store record (.done (.error e)) root nonce T) :
    Sealed S C K last (records tree .root) := by
  rw [(OpenStore.ensures_writeRecord S C store root nonce record).of_error rfl h.run.symm]
  exact h.sealed

theorem Seals.openStage (h : other.Seals S C K last v.tree) (hknows : other.Knows v)
    (holder : LockHolder) (stage : OpenStage) :
    other.Seals S C K last (stage.step holder v).2.tree := by
  have hrecords := (stage.step_undisturbed holder v).2
  cases other with
  | writing store record call =>
    rw [OpenStage.step_tree hknows.lock]
    exact h
  | idle | opening classification stage' | session store =>
    show Sealed S C K last (records (stage.step holder v).2.tree .root)
    rw [hrecords]
    exact h

end OtherProcess

theorem MigratingHost.Knows.undisturbed {disk : LocalFileDataStoreMaintenance}
    {host : MigratingHost}
    (h : host.Knows disk) {v : Volume Place LockHolder} (hv : Undisturbed .other disk.volume v) :
    host.Knows { disk with volume := v } := by
  cases host with
  | idle => trivial
  | opening stage => exact OpenStage.Knows.undisturbed h hv
  | opened => exact ⟨h.1.undisturbed LockHolder.noConfusion hv, h.2⟩
  | _ => exact h

namespace Handover

variable {ν : Type} (S : MaintenanceSerde ν) (C : Crypto) (K : Option (String × Bytes) → Prop)

/-- During a migration that began with `m₀`. -/
structure Migrating (s : Handover ν) (start : LockFile)
    (call : Maintenance MigrationError MigrationReport) (m₀ : LocalFileDataStoreMaintenance)
    (root : StoreRoot) (backupDestination asOf : String) : Prop where
  began : m₀.lockFile = start
  lock : rootLock m₀.volume = some start.lock
  run : call.run s.disk = (migrateV1ToV2 S C root backupDestination asOf).run m₀
  guarded : call.Throughout (LocalFileDataStoreMaintenance.Guarded m₀) s.disk
  sealed : Sealed S C K s.last m₀.rootRecords
  other : s.other = .idle ∨ ∃ classification stage, s.other = .opening classification stage ∧
    stage.Knows m₀.volume

inductive Inv (s : Handover ν) : Prop where
  | before (host : s.host.Knows s.disk) (other : s.other.Knows s.disk.volume)
    (seals : s.other.Seals S C K s.last s.disk.volume.tree)
  | during (start : LockFile) (call : Maintenance MigrationError MigrationReport)
    (m₀ : LocalFileDataStoreMaintenance) (root : StoreRoot) (backupDestination asOf : String)
    (host : s.host = .migrating start call)
    (migrating : Migrating S C K s start call m₀ root backupDestination asOf)
  | after (host : s.host = .finished ∨ s.host = .closed)
    (seals : s.other.Seals S C K s.last s.disk.volume.tree)

variable {S C K} {s s' : Handover ν}

theorem Inv.hostStep (h : Inv S C K s) (hstep : s.hostStep = some s') : Inv S C K s' := by
  cases h with
  | before host other seals =>
    cases hhost : s.host with
    | idle | opened => simp [Handover.hostStep, hhost] at hstep
    | migrating | finished | closed =>
      rw [hhost] at host
      exact host.elim
    | opening stage =>
      rw [hhost] at host
      have hother := other.undisturbed LockHolder.noConfusion
        (stage.step_undisturbed (.maintenance 0) s.disk.volume).1
      have hseals := seals.openStage other (.maintenance 0) stage
      simp only [Handover.hostStep, hhost] at hstep
      cases hresult : stage.step (.maintenance 0) s.disk.volume with
      | mk result volume =>
        rw [hresult] at hother hseals hstep
        rcases result with next | _ | lockFile
        · cases hstep
          exact .before (OpenStage.Knows.step host hresult) hother hseals
        · cases hstep
          exact .after (.inr rfl) hseals
        · cases hstep
          exact .before ⟨OpenStage.Knows.owns host hresult, Nat.one_pos⟩ hother hseals
  | during start call m₀ root backupDestination asOf host migrating =>
    cases call with
    | done result =>
      simp only [Handover.hostStep, host] at hstep
      cases hstep
      have hsealed : Sealed S C K s.last s.disk.rootRecords := by
        have hrun := ensures_migrateV1ToV2 S C root backupDestination asOf m₀ (.refl m₀)
        rw [← migrating.run] at hrun
        cases result with
        | ok report => exact migrating.sealed.converts hrun
        | error e =>
          have hrecords : s.disk.rootRecords = m₀.rootRecords := hrun
          rw [hrecords]
          exact migrating.sealed
      refine .after (.inl rfl) ?_
      rcases migrating.other with hother | ⟨classification, stage, hother, -⟩
      · simp only [hother]
        exact hsealed
      · simp only [hother]
        exact hsealed
    | step operation next =>
      simp only [Handover.hostStep, host] at hstep
      cases hstep
      exact .during start _ m₀ root backupDestination asOf rfl
        { migrating with guarded := migrating.guarded.2 }
  | after host seals =>
    rcases host with host | host <;> simp [Handover.hostStep, host] at hstep

variable {store : OpenStore}

theorem OtherProcess.Seals.write (hnone : K none) {record : StateRecord ν}
    {call : Program (FileTree Place) DataStoreError Unit}
    (hother : s.other = .writing store record call)
    (h : s.other.Seals S C K s.last s.disk.volume.tree) (hstep : s.otherStep = some s') :
    s'.host = s.host ∧ s'.other.Seals S C K s'.last s'.disk.volume.tree ∧
      ((∃ call', s'.other = .writing store record call') ∨ s'.other = .session store) ∧
      ∃ tree T, s'.disk = s.disk.withTree tree ∧ OpenStore.SameLocks T s.disk.volume.tree ∧
        OpenStore.SameLocks T tree := by
  rw [hother] at h
  obtain ⟨root, nonce, T, h⟩ := h
  rcases call with (_ | ⟨⟨⟩⟩) | ⟨operation, next⟩
  · simp only [Handover.otherStep, hother] at hstep
    cases hstep
    exact ⟨rfl, h.refused, .inr rfl, _, T, rfl, h.same, h.same⟩
  · simp only [Handover.otherStep, hother] at hstep
    cases hstep
    exact ⟨rfl, h.acknowledged hnone, .inr rfl, _, T, rfl, h.same, h.same⟩
  · simp only [Handover.otherStep, hother] at hstep
    cases hstep
    exact ⟨rfl, ⟨root, nonce, T, h.step⟩, .inl ⟨_, rfl⟩, _, T, rfl, h.same, h.step.same⟩

theorem Inv.otherStep (hnone : K none) (h : Inv S C K s) (hwaits : Waits s .otherStep)
    (hstep : s.otherStep = some s') : Inv S C K s' := by
  cases h with
  | before host other seals =>
    cases hother : s.other with
    | idle | session => simp [Handover.otherStep, hother] at hstep
    | opening classification stage =>
      have hhost := host.undisturbed (stage.step_undisturbed .other s.disk.volume).1
      have hseals := seals.openStage other .other stage
      rw [hother] at other hseals
      simp only [Handover.otherStep, hother] at hstep
      cases hresult : stage.step .other s.disk.volume with
      | mk result volume =>
        rw [hresult] at hhost hseals hstep
        rcases result with next | _ | lockFile
        · cases hstep
          exact .before hhost (OpenStage.Knows.step other hresult) hseals
        · cases hstep
          exact .before hhost trivial hseals
        · cases hstep
          exact .before hhost (OpenStage.Knows.owns other hresult) hseals
    | writing store record call =>
      obtain ⟨hhost, hseals, hstill, tree, T, hdisk, hsame, hsame'⟩ :=
        OtherProcess.Seals.write hnone hother seals hstep
      have hundisturbed : ∀ holder, Undisturbed holder s.disk.volume
          (s.disk.withTree tree).volume := fun holder => .withTree hsame hsame' _
      have howns : Owns (s.disk.withTree tree).volume store.lockFile .other := by
        rw [hother] at other
        exact other.undisturbed LockHolder.noConfusion (hundisturbed (.maintenance 0))
      refine .before ?_ ?_ hseals
      · rw [hhost, hdisk]
        exact host.undisturbed (hundisturbed _)
      · rw [hdisk]
        rcases hstill with ⟨call', hstill⟩ | hstill <;> rw [hstill] <;> exact howns
  | during start call m₀ root backupDestination asOf host migrating =>
    rcases migrating.other with hother | ⟨classification, stage, hother, hknows⟩
    · simp [Handover.otherStep, hother] at hstep
    -- The host has the lock, so opening the store comes to nothing.
    have hheld := hwaits start call classification stage host hother
    have hroot : rootLock s.disk.volume = rootLock m₀.volume := by
      rw [rootLock, migrating.guarded.now (by rw [migrating.began]; exact hheld)]
      rfl
    have hknows' : stage.Knows s.disk.volume := by
      cases stage with
      | locking lock => exact hroot.trans hknows
      | _ => trivial
    simp only [Handover.otherStep, hother] at hstep
    rcases OpenStage.step_of_held .other (hroot.trans migrating.lock) hheld hknows' with
      hrefused | ⟨next, hnext, hnextKnows⟩
    · rw [hrefused] at hstep
      cases hstep
      exact .during start call m₀ root backupDestination asOf host
        { migrating with other := .inl rfl }
    · rw [hnext] at hstep
      cases hstep
      refine .during start call m₀ root backupDestination asOf host
        { migrating with other := .inr ⟨classification, next, rfl, ?_⟩ }
      cases next with
      | locking lock => exact hroot.symm.trans hnextKnows
      | _ => trivial
  | after host seals =>
    cases hother : s.other with
    | idle | session => simp [Handover.otherStep, hother] at hstep
    | opening classification stage =>
      have hrecords := (stage.step_undisturbed .other s.disk.volume).2
      rw [hother] at seals
      simp only [Handover.otherStep, hother] at hstep
      cases hresult : stage.step .other s.disk.volume with
      | mk result volume =>
        rw [hresult] at hrecords hstep
        have hseals : Sealed S C K s.last (records volume.tree .root) := by
          rw [hrecords]
          exact seals
        rcases result with next | _ | lockFile <;> cases hstep <;> exact .after host hseals
    | writing store record call =>
      obtain ⟨hhost, hseals, -⟩ := OtherProcess.Seals.write hnone hother seals hstep
      exact .after (by rw [hhost]; exact host) hseals

theorem Inv.hostMigrate (h : Inv S C K s) (hhost : s.host = .opened) (root : StoreRoot)
    (backupDestination asOf : String) : Inv S C K { s with
      host := .migrating s.disk.lockFile (migrateV1ToV2 S C root backupDestination asOf) } := by
  cases h with
  | during start call m₀ root backupDestination asOf host migrating =>
    rw [hhost] at host
    cases host
  | after host seals => rcases host with host | host <;> rw [hhost] at host <;> cases host
  | before host other seals =>
    rw [hhost] at host
    obtain ⟨howns, hopened⟩ := host
    have hguarded := throughout_migrateV1ToV2 S C howns.handle hopened root backupDestination asOf
    -- Nobody else can be in the store.
    have hnobody : ∀ store : OpenStore, ¬ Owns s.disk.volume store.lockFile .other :=
      fun store hother => LockHolder.noConfusion (howns.exclusive hother)
    refine .during _ _ s.disk root backupDestination asOf rfl ?_
    cases hother : s.other with
    | idle =>
      rw [hother] at seals
      exact ⟨rfl, howns.lock, rfl, hguarded, seals, .inl rfl⟩
    | opening classification stage =>
      rw [hother] at seals other
      exact ⟨rfl, howns.lock, rfl, hguarded, seals, .inr ⟨classification, stage, rfl, other⟩⟩
    | session store | writing store record call =>
      rw [hother] at other
      exact absurd other (hnobody store)

theorem Inv.hostClose (h : Inv S C K s) (hhost : s.host = .opened ∨ s.host = .finished) :
    Inv S C K { s with
      disk := { s.disk with volume := s.disk.lockFile.drop s.disk.volume }, host := .closed } := by
  have hseals : s.other.Seals S C K s.last s.disk.volume.tree := by
    cases h with
    | during start call m₀ root backupDestination asOf host migrating =>
      rcases hhost with hhost | hhost <;> rw [hhost] at host <;> cases host
    | before host other seals | after host seals => exact seals
  refine .after (.inr rfl) ?_
  show s.other.Seals S C K s.last (s.disk.volume.unlock _ _).tree
  rw [s.disk.volume.unlock_tree]
  exact hseals

section

variable (h : Inv S C K s) (hother : s.other = .session store)

include h hother

/-- A process in the store: the host is not migrating. -/
theorem Inv.of_session :
    Sealed S C K s.last (records s.disk.volume.tree .root) ∧
      (s.host.Knows s.disk ∧ Owns s.disk.volume store.lockFile .other ∨
        s.host = .finished ∨ s.host = .closed) := by
  cases h with
  | during start call m₀ root backupDestination asOf host migrating =>
    rcases migrating.other with hidle | ⟨_, _, hopening, -⟩
    · rw [hother] at hidle
      cases hidle
    · rw [hother] at hopening
      cases hopening
  | before host other seals =>
    rw [hother] at seals other
    exact ⟨seals, .inl ⟨host, other⟩⟩
  | after host seals =>
    rw [hother] at seals
    exact ⟨seals, .inr host⟩

theorem Inv.otherWrite
    (keyProvider : Option KeyProvider) (retainedAt : Option String) (root : StoreRoot)
    {nonce : Bytes} (hnonce : nonce.length = 12) (record : StateRecord ν)
    (hprovider : ∀ provider, keyProvider = some provider →
      ∀ keyId key, provider.keyFor keyId = .ok key → K (some (keyId, key))) :
    Inv S C K { s with
      other := .writing { store with keyProvider, writeRetainedAt := retainedAt } record
        (OpenStore.writeRecord S C { store with keyProvider, writeRetainedAt := retainedAt } root
          nonce record) } := by
  obtain ⟨seals, hcases⟩ := h.of_session hother
  have hwrites : OtherProcess.Writes S C K s.last s.disk.volume.tree
      { store with keyProvider, writeRetainedAt := retainedAt } record
      (OpenStore.writeRecord S C { store with keyProvider, writeRetainedAt := retainedAt } root
        nonce record) root nonce s.disk.volume.tree :=
    ⟨hnonce, hprovider, rfl, OpenStore.keeps_writeRecord S C _ _ _ _, .refl _, seals⟩
  rcases hcases with ⟨host, other⟩ | host
  · exact .before host other ⟨root, nonce, _, hwrites⟩
  · exact .after host ⟨root, nonce, _, hwrites⟩

theorem Inv.otherClose :
    Inv S C K { s with
      disk := { s.disk with volume := store.lockFile.drop s.disk.volume }, other := .idle } := by
  obtain ⟨seals, hcases⟩ := h.of_session hother
  have hseals : Sealed S C K s.last (records (store.lockFile.drop s.disk.volume).tree .root) := by
    rw [show (store.lockFile.drop s.disk.volume).tree = _ from s.disk.volume.unlock_tree _ _]
    exact seals
  rcases hcases with ⟨host, other⟩ | host
  · refine .before (host.undisturbed ?_) trivial hseals
    show Undisturbed .other s.disk.volume
      (s.disk.volume.unlock store.lockFile.lock store.lockFile.holder)
    rw [other.handle]
    exact .unlock _ _ _
  · exact .after host hseals

end

/-- The process waits and its keys have `K`. -/
def Orderly (K : Option (String × Bytes) → Prop) (s : Handover ν) (call : HandoverCall ν) : Prop :=
  Waits s call ∧ Trusted K call

theorem Inv.step (hnone : K none) {call : HandoverCall ν} (h : Inv S C K s)
    (horderly : Orderly K s call) (hstep : Handover.step S C s call = some s') : Inv S C K s' := by
  cases call with
  | hostStep => exact h.hostStep hstep
  | otherStep => exact h.otherStep hnone horderly.1 hstep
  | hostMigrate root backupDestination asOf =>
    simp only [Handover.step] at hstep
    split at hstep
    · next hhost =>
      cases hstep
      exact h.hostMigrate hhost root backupDestination asOf
    · cases hstep
  | hostClose =>
    simp only [Handover.step] at hstep
    split at hstep
    · next hhost =>
      cases hstep
      exact h.hostClose (.inl hhost)
    · next hhost =>
      cases hstep
      exact h.hostClose (.inr hhost)
    · cases hstep
  | otherWrite keyProvider retainedAt root nonce record =>
    simp only [Handover.step] at hstep
    split at hstep
    · next store hother =>
      cases hstep
      refine h.otherWrite hother keyProvider retainedAt root nonce.2 record fun provider heq => ?_
      cases heq
      exact horderly.2
    · cases hstep
  | otherClose =>
    simp only [Handover.step] at hstep
    split at hstep
    · next store hother =>
      cases hstep
      exact h.otherClose hother
    · cases hstep
  | hostOpen =>
    simp only [Handover.step] at hstep
    split at hstep
    · next hhost =>
      cases hstep
      cases h with
      | before host other seals => exact .before trivial other seals
      | during start call m₀ root backupDestination asOf host migrating =>
        rw [hhost] at host
        cases host
      | after host seals => rcases host with host | host <;> rw [hhost] at host <;> cases host
    · cases hstep
  | otherOpen classification =>
    simp only [Handover.step] at hstep
    split at hstep
    · next hother =>
      cases hstep
      cases h with
      | before host other seals =>
        rw [hother] at seals
        exact .before host trivial seals
      | during start call m₀ root backupDestination asOf host migrating =>
        exact .during start call m₀ root backupDestination asOf host ⟨migrating.began,
          migrating.lock, migrating.run, migrating.guarded, migrating.sealed,
          .inr ⟨classification, .creating, rfl, trivial⟩⟩
      | after host seals =>
        rw [hother] at seals
        exact .after host seals
    · cases hstep

end Handover

/-! ## Records that are written while a host migrates

The migration gives the lock up before it moves the directories, so another process can get it, and
what it then writes is removed with the old directory (`written_and_lost`). -/

/-! ## An empty store -/

/-- A store with a lock file and nothing else, and nobody in it. -/
def emptyStore : Handover Json.Value where
  disk := ⟨⟨update (fun _ => none) .root (some ⟨∅, some 0⟩), [none]⟩, fun _ => none,
    ⟨0, .other⟩, 0, none⟩
  host := .idle
  other := .idle
  last := fun _ => none

namespace Handover

variable {ν : Type}

def ended (s : Handover ν) : Bool :=
  match s.host, s.other with
  | .closed, .idle => true
  | _, _ => false

theorem of_ended {s : Handover ν} (h : s.ended = true) : s.host = .closed ∧ s.other = .idle := by
  unfold ended at h
  split at h
  case h_1 hhost hother => exact ⟨hhost, hother⟩
  · cases h

/-- The process does nothing while the host is migrating, and has no keys. -/
def patient (s : Handover ν) : HandoverCall ν → Bool
  | .otherStep => match s.host with
    | .migrating _ _ => false
    | _ => true
  | .otherWrite keyProvider _ _ _ _ => keyProvider.isNone
  | _ => true

theorem orderly_of_patient {K : Option (String × Bytes) → Prop} (s : Handover ν)
    (call : HandoverCall ν) (h : s.patient call = true) : Orderly K s call := by
  cases call with
  | otherStep =>
    refine ⟨fun start call _ _ hhost => ?_, trivial⟩
    simp [patient, hhost] at h
  | otherWrite keyProvider retainedAt root nonce record =>
    cases keyProvider with
    | none => exact ⟨trivial, trivial⟩
    | some provider => cases h
  | _ => exact ⟨trivial, trivial⟩

end Handover

/-- A migration in two parts, and a session in which a record is written. -/
def hostOpens : List (HandoverCall Json.Value) := [.hostOpen, .hostStep, .hostStep, .hostStep,
  .hostMigrate ⟨"store", 1⟩ "before.zip" "2026-01-01T00:00:00Z"] ++ List.replicate 18 .hostStep

def hostCloses : List (HandoverCall Json.Value) := List.replicate 8 .hostStep ++ [.hostClose]

def otherWrites : List (HandoverCall Json.Value) :=
  [.otherOpen .publicData, .otherStep, .otherStep, .otherStep, .otherWrite none none ⟨"store", 2⟩
    zeroNonce (draft "a")] ++ List.replicate 6 .otherStep ++ [.otherClose]

/-- In every run in which the other process does not open the store while the host is migrating
without the lock it had, what was acknowledged can be read when both are done. Any one file-system
call of the migration may fail. -/
theorem written_is_readable {ν : Type} (S : MaintenanceSerde ν) (C : Crypto) (reader : OpenStore)
    {start s : Handover ν} (hhost : start.host = .idle) (hother : start.other = .idle)
    (hlast : ∀ key, start.last key = none) {calls : List (HandoverCall ν)}
    (h : Path (Handover.step S C)
      (Handover.Orderly fun secret => (reader.store fun _ => none).Unlocks secret) start calls s)
    (hclosed : s.host = .closed) (hidle : s.other = .idle) {key : String} {record : StateRecord ν}
    (hwritten : s.last key = some record) :
    (reader.store s.rootRecords).read S.toSerde C key = .ok (some record) := by
  have hstart :
    Handover.Inv S C (fun secret => (reader.store fun _ => none).Unlocks secret) start := by
    refine .before (by rw [hhost]; trivial) (by rw [hother]; trivial) ?_
    rw [hother]
    intro key record hsome
    rw [hlast] at hsome
    cases hsome
  have hinv := invariant _ (fun s call s' hs hcall hstep =>
    Handover.Inv.step (fun _ _ h => (by cases h)) hs hcall hstep) hstart h.1 h.2
  have hsealed : Sealed S C (fun secret => (reader.store fun _ => none).Unlocks secret) s.last
      s.rootRecords := by
    cases hinv with
    | before host other seals =>
      rw [hclosed] at host
      exact host.elim
    | during start call m₀ root backupDestination asOf host migrating =>
      rw [hclosed] at host
      cases host
    | after host seals =>
      rw [hidle] at seals
      exact seals
  exact hsealed.read (reader.store s.rootRecords) rfl (fun _ h => h) hwritten

/-- The other process comes when the host is done. -/
theorem written_is_readable_draft : ∃ calls s, run (Handover.step jsonMaintenanceSerde
    transparent) emptyStore calls = some s ∧ s.host = .closed ∧ s.other = .idle ∧
    s.last "a" = some (draft "a") ∧ (publicReader.store s.rootRecords).read
      jsonMaintenanceSerde.toSerde transparent "a" = .ok (some (draft "a")) := by
  refine ⟨_, exists_run (P := fun s call => s.patient call)
    (D := fun s => s.ended ∧ s.last "a" = some (draft "a"))
    (by decide +kernel : ∃ s, run _ _ (hostOpens ++ hostCloses ++ otherWrites) = _ ∧ _)
    fun s hpath ⟨hended, hlast⟩ => ?_⟩
  obtain ⟨hclosed, hidle⟩ := Handover.of_ended hended
  exact ⟨hclosed, hidle, hlast, written_is_readable jsonMaintenanceSerde transparent publicReader
    rfl rfl (fun _ => rfl) ⟨hpath.1.mono Handover.orderly_of_patient, hpath.2⟩ hclosed hidle hlast⟩

/-- A process that opens the store just after the host has given up the lock writes a record into
the directory that the host then removes. -/
theorem written_and_lost : ∃ calls s, run (Handover.step jsonMaintenanceSerde transparent)
    emptyStore calls = some s ∧ s.host = .closed ∧ s.other = .idle ∧ s.last "a" = some (draft "a") ∧
    (publicReader.store s.rootRecords).read jsonMaintenanceSerde.toSerde transparent "a" =
      .ok none := by
  obtain ⟨s, hrun, hended, hlast, hnone⟩ : ∃ s, run (Handover.step jsonMaintenanceSerde
      transparent) emptyStore (hostOpens ++ otherWrites ++ hostCloses) = some s ∧ s.ended ∧
      s.last "a" = some (draft "a") ∧ s.rootRecords "a" = none := by decide +kernel
  obtain ⟨hclosed, hidle⟩ := Handover.of_ended hended
  have hkey : validateKey "a" = .ok () := rfl
  have hfile : (publicReader.store s.rootRecords).files "a" = none := hnone
  refine ⟨_, s, hrun, hclosed, hidle, hlast, ?_⟩
  simp only [LocalFileDataStore.read, hkey, hfile, bind, Except.bind]

end Traverse.Storage

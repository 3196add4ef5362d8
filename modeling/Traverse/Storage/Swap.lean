import Traverse.Storage.Binding
import Traverse.Storage.Staging

/-!
# Storage.Swap

What a restore or a migration that fails has done to the store root. The staged directory and the
root change places in two renamings, after the lock has been released and before it is taken again.

`ensures_swap` is the part that both have in common: when one of the renamings fails, the root is
what it was. A migration also goes back when the lock cannot be taken again
(`ensures_commitMigratedStoreRoot`). A restore does not, so it is all or nothing only if the lock
can be taken (`swap_all_or_nothing`, `restore_not_rolled_back`). A migration is if its backup is not
a record file of the root.
-/

namespace Traverse.Storage

open Lines Program Function Ensures

namespace LocalFileDataStoreMaintenance

variable {ν : Type} (S : MaintenanceSerde ν) (C : Crypto)

/-! ## The swap -/

/-- The directories are `T`, the lock file `lock` is free, and the fault meets `J`. -/
structure Pinned (T : FileTree Place) (lock : Nat) (J : Option Fault → Prop)
    (m : LocalFileDataStoreMaintenance) : Prop where
  tree : m.volume.tree = T
  free : m.volume.Free lock
  fault : J m.fault

/-- A property of faults that does not depend on when they strike. -/
def Timeless (J : Option Fault → Prop) : Prop :=
  ∀ fault skip, J (some fault) → J (some { fault with skip })

def Spent (fault : Option Fault) : Prop := fault = none

theorem Spent.timeless : Timeless Spent := fun _ _ h => (by cases h)

section Swap

variable {T T' : FileTree Place} {lock : Nat} {J : Option Fault → Prop} {ε : Type}

theorem Pinned.struck {m : LocalFileDataStoreMaintenance} (h : Pinned T lock J m) :
    Pinned T lock Spent { m with fault := none } := ⟨h.tree, h.free, rfl⟩

theorem Pinned.skip (hJ : Timeless J) : ∀ m fault skip, m.fault = some fault → Pinned T lock J m →
    Pinned T lock J { m with fault := some { fault with skip } } := by
  intro m fault skip hfault h
  exact ⟨h.tree, h.free, hJ fault skip (hfault ▸ h.fault)⟩

variable {source target : Place} {E : Assertion} {folder : Folder} {good : Prop}

theorem ensures_rename (hJ : Timeless J) (h : T.rename source target = .ok T') :
    Ensures (Pinned T lock J) (rename source target) (fun _ => Pinned T' lock J)
      (fun m => (∃ fault, J (some fault) ∧ fault.operation = .rename) ∧ Pinned T lock Spent m) := by
  refine ensures_io (Pinned.skip hJ) (fun m hm => ?_) fun m fault hfault hoperation hm =>
    ⟨⟨fault, hfault ▸ hm.fault, hoperation⟩, hm.struck⟩
  have hrun : onTree (fun t => t.rename source target) m = (.ok (), m.withTree T') := by
    simp only [onTree, hm.tree, h]
  rw [hrun]
  exact ⟨rfl, hm.free, hm.fault⟩

theorem ensures_rename_ignore (h : T.rename source target = .ok T') :
    Ensures (Pinned T lock Spent) (rename source target).ignore
      (fun _ => Pinned T' lock Spent) E (ε := ε) := by
  refine ignore ((ensures_rename Spent.timeless h).fail ?_)
  rintro m ⟨⟨fault, hfault, -⟩, -⟩
  cases hfault

theorem keeps_reacquireLock (files : String → Option Bytes) :
    reacquireLock.Keeps fun m => m.rootRecords = files := by
  have hfiles : Lasting fun m => m.rootRecords = files := .of_forall fun _ _ h => h
  refine .bind (Keeps.mapError (keeps_io hfiles fun m hm => ?_)) fun lockFile =>
    .bind (Keeps.mapError (keeps_io hfiles fun m hm => ?_)) fun _ =>
    .bind (.act fun m hm => ?_) fun _ => .act fun m hm => hm
  · exact (records_openLock m.volume .root .root).trans hm
  · cases hlocked : m.volume.tryLock lockFile.lock lockFile.holder with
    | none => exact hm
    | some volume =>
      obtain ⟨-, rfl⟩ := Volume.tryLock_some hlocked
      exact hm
  · exact (congrArg (records · .root) (m.volume.unlock_tree _ _)).trans hm

theorem ensures_reacquireLock (hJ : Timeless J) (hroot : T .root = some folder)
    (hlock : folder.lock = some lock) :
    Ensures (Pinned T lock J) reacquireLock (fun _ m => m.volume.tree = T)
      (fun m => (¬ ∀ fault, J fault → NoLockFault fault) ∧ Pinned T lock Spent m) := by
  have hstruck : ∀ (m : LocalFileDataStoreMaintenance) fault, m.fault = some fault →
      fault.operation.onLock = true → Pinned T lock J m →
      (¬ ∀ fault, J fault → NoLockFault fault) ∧ Pinned T lock Spent { m with fault := none } := by
    intro m fault hfault hoperation hm
    refine ⟨fun hsafe => ?_, hm.struck⟩
    cases hoperation.symm.trans (hsafe _ hm.fault fault hfault)
  refine bind (Q := fun lockFile m => Pinned T lock J m ∧ lockFile.lock = lock)
    (mapError (ensures_io (Pinned.skip hJ) (fun m hm => ?_) fun m fault hfault hoperation hm =>
      hstruck m fault hfault (hoperation ▸ rfl) hm)) fun lockFile => .of_and fun hlockFile =>
    bind (Q := fun _ m => m.volume.tree = T)
    (mapError (ensures_io (Pinned.skip hJ) (fun m hm => ?_) fun m fault hfault hoperation hm =>
      hstruck m fault hfault (hoperation ▸ rfl) hm)) fun _ =>
    bind (Q := fun _ m => m.volume.tree = T) (fun m hm => ?_) fun _ m hm => ?_
  · rw [Volume.openLock_of_lock ((congrFun hm.tree _).trans hroot) hlock]
    exact ⟨⟨hm.tree, hm.free, hm.fault⟩, rfl⟩
  · rw [hlockFile, Volume.tryLock_of_free hm.free]
    exact hm.tree
  · exact (m.volume.unlock_tree _ _).trans hm
  · exact hm

/-- If there is a fault, it is at the lock file. -/
def Calm (J : Option Fault → Prop) : Prop := ∀ fault, J fault → LockFault fault

theorem Calm.no_rename (h : Calm J) : ¬ ∃ fault, J (some fault) ∧ fault.operation = .rename := by
  rintro ⟨fault, hfault, hoperation⟩
  have hlock := h _ hfault fault rfl
  rw [hoperation] at hlock
  cases hlock

theorem ensures_moveAside (hJ : Timeless J) (aside : Place)
    (hgood : good → Calm J ∧ ∃ T', T.rename .root aside = .ok T') :
    Ensures (Pinned T lock J) (rename .root aside)
      (fun _ m => ∃ T', T.rename .root aside = .ok T' ∧ Pinned T' lock J m)
      (fun m => m.volume.tree = T ∧ ¬ good) := by
  cases h : T.rename .root aside with
  | ok T' =>
    refine (ensures_rename hJ h).imp (fun _ h => h) (fun _ m h => ⟨T', rfl, h⟩) ?_
    rintro m ⟨hfault, hm⟩
    exact ⟨hm.tree, fun h => (hgood h).1.no_rename hfault⟩
  | error reason =>
    have hbad : ¬ good := fun hg => by
      obtain ⟨T', h'⟩ := (hgood hg).2
      rw [h] at h'
      cases h'
    refine ensures_io (Pinned.skip hJ) (fun m hm => ?_) fun m _ _ _ hm => ⟨hm.tree, hbad⟩
    have hrun : onTree (fun t => t.rename .root aside) m = (.error reason, m) := by
      simp only [onTree, hm.tree, h]
    rw [hrun]
    exact ⟨hm.tree, hbad⟩

theorem records_of_eq {p q : Place} (h : T p = some folder) (h' : T' q = some folder) :
    records T p = records T' q := by
  funext key
  rw [records, records, h, h']

variable {work aside : String} {α : Type}

variable {k : Maintenance ε α} {Q : α → Assertion}

/-- If all is `good`, the renamings do not fail, and their places are as they should. -/
def Swappable (J : Option Fault → Prop) (T : FileTree Place) (aside : String) : Prop :=
  Calm J ∧ (∃ live, T .root = some live) ∧ T (.sibling aside) = none

/-- Up to the point where the new directory is the root: whatever fails, the old one is put back. In
`k` the lock has yet to be taken. -/
theorem ensures_swap (hJ : Timeless J) (hne : work ≠ aside)
    (hwork : T (.sibling work) = some folder) (hgood : good → Swappable J T aside)
    (hE : ∀ m : LocalFileDataStoreMaintenance, m.rootRecords = records T .root → ¬ good → E m)
    (f g : String → ε) {cleanup : Maintenance ε Unit}
    (hcleanup : cleanup.Keeps fun m => m.rootRecords = records T .root)
    (hk : ∀ live T₂, T .root = some live → T₂ .root = some folder → T₂ (.sibling work) = none →
      T₂ (.sibling aside) = some live → Ensures (Pinned T₂ lock J) k Q E) :
    Ensures (Pinned T lock J) (do
      unlock
      ((rename .root (.sibling aside)).mapError f).onError cleanup
      ((rename (.sibling work) .root).mapError g).onError (do
        (rename (.sibling aside) .root).ignore
        reacquireLock.ignore)
      k) Q E := by
  have hplaces : Place.sibling work ≠ .sibling aside := by simpa using hne
  have hmoves : good → Calm J ∧ ∃ T', T.rename .root (.sibling aside) = .ok T' := by
    intro h
    obtain ⟨hcalm, ⟨live, hlive⟩, haside⟩ := hgood h
    exact ⟨hcalm, _, FileTree.rename_of_some hlive haside⟩
  refine bind (Q := fun _ => Pinned T lock J) (fun m hm => ?_) fun _ => bind
    (Q := fun _ m => ∃ T', T.rename .root (.sibling aside) = .ok T' ∧ Pinned T' lock J m)
    ((ensures_moveAside hJ _ hmoves).mapError.onError (.of_and fun hbad => ?_)) fun _ => ?_
  · exact ⟨(m.volume.unlock_tree _ _).trans hm.tree, hm.free.unlock _ _, hm.fault⟩
  · refine (hcleanup.ensures fun m h => hE m h hbad).imp (fun m hm => ?_)
      (fun _ m h => hE m h hbad) fun _ h => h
    exact congrArg (records · .root) hm
  rintro m ⟨T₁, hmoved, hm⟩
  obtain ⟨live, hlive, rfl⟩ := FileTree.rename_ok hmoved
  let T₁ : FileTree Place :=
    update (update T .root none) (.sibling aside) (some live)
  have hroot₁ : T₁ .root = none := by simp [T₁]
  have hwork₁ : T₁ (.sibling work) = some folder := by
    rw [← hwork]
    simp [T₁, update_of_ne hplaces]
  have haside₁ : T₁ (.sibling aside) = some live := update_self _ _ _
  have hinstall := FileTree.rename_of_some hwork₁ hroot₁
  have hback := FileTree.rename_of_some haside₁ hroot₁
  refine bind ((ensures_rename hJ hinstall).mapError.onError ?_) (fun _ => ?_) m hm
  · -- The old root goes back, since there is no second fault.
    rintro m ⟨hfault, hm⟩
    have hbad : ¬ good := fun h => (hgood h).1.no_rename hfault
    refine bind (ensures_rename_ignore hback) (fun _ => imp ((keeps_reacquireLock
      (records T .root)).ignore.ensures fun m h => hE m h hbad) (fun m hm => ?_)
      (fun _ m h => hE m h hbad) fun _ h => h) m hm
    exact records_of_eq (by rw [hm.tree, update_self]) hlive
  · exact hk live _ hlive (update_self _ _ _)
      (by simp [update_of_ne])
      (by rw [update_of_ne (by simp), update_of_ne hplaces.symm, haside₁])

/-- If the lock cannot be taken, the new directory stays. -/
theorem ensures_replaceRoot (hJ : Timeless J) (hne : work ≠ aside)
    (hwork : T (.sibling work) = some folder) (hlock : folder.lock = some lock)
    (hgood : good → Swappable J T aside) :
    Ensures (Pinned T lock J) (replaceRoot (.sibling work) (.sibling aside))
      (fun _ m => m.volume.tree .root = some folder)
      (fun m => (m.rootRecords = records T .root ∧ ¬ good) ∨
        (¬ ∀ fault, J fault → NoLockFault fault) ∧ (∃ live, T .root = some live) ∧
          m.volume.tree .root = some folder) := by
  refine ensures_swap hJ hne hwork hgood (fun m h hbad => .inl ⟨h, hbad⟩) _ _
    (keeps_reacquireLock _).ignore fun live T₂ hlive hroot _ _ => bind
      ((ensures_reacquireLock hJ hroot hlock).fail fun m hm =>
        .inr ⟨hm.1, ⟨live, hlive⟩, hm.2.tree ▸ hroot⟩) fun _ m hm => ?_
  exact (removeDirAll_root m.volume.tree aside).trans ((congrFun hm _).trans hroot)

/-- The same for a migration, also if the lock of the new root cannot be taken. -/
theorem ensures_commitMigratedStoreRoot (hJ : Timeless J) (hne : work ≠ aside)
    (hwork : T (.sibling work) = some folder) (hlock : folder.lock = some lock)
    (hgood : good → Swappable J T aside) (hsafe : good → ∀ fault, J fault → NoLockFault fault) :
    Ensures (Pinned T lock J) (commitMigratedStoreRoot (.sibling work) (.sibling aside))
      (fun _ m => m.volume.tree .root = some folder)
      (fun m => m.rootRecords = records T .root ∧ ¬ good) := by
  refine ensures_swap hJ hne hwork hgood (fun m h hbad => ⟨h, hbad⟩) _ _
    (.bind (keeps_reacquireLock _).ignore fun _ => .act fun m hm => ?_)
    fun live T₂ hlive hroot hnone haside => bind (Q := fun _ m => m.volume.tree .root = some folder)
      (onError (((ensures_reacquireLock hJ hroot hlock).imp (fun _ h => h)
        (fun _ m hm => (congrFun hm _).trans hroot) fun m h => ⟨h.2, mt hsafe h.1⟩).mapError)
        (.of_and fun hbad => ?_)) fun _ m hm => ?_
  · refine Eq.trans ?_ hm
    funext key
    exact congrArg (·.bind fun folder => Directory.file folder.files key)
      (removeDirAll_root m.volume.tree work)
  · have haway := FileTree.rename_of_some hroot hnone
    let T₃ : FileTree Place :=
      update (update T₂ .root none) (.sibling work) (some folder)
    have haside₃ : T₃ (.sibling aside) = some live := by
      simp only [T₃]
      rw [update_of_ne (by simpa using hne.symm), update_of_ne (by simp), haside]
    have hroot₃ : T₃ .root = none := by simp [T₃]
    have hback := FileTree.rename_of_some haside₃ hroot₃
    refine bind (ensures_rename_ignore haway) fun _ => bind
      (ensures_rename_ignore hback) fun _ => imp
        ((keeps_reacquireLock (records T .root)).ignore.ensures fun _ h => ⟨h, hbad⟩)
        (fun m hm => ?_) (fun _ _ h => ⟨h, hbad⟩) fun _ h => h
    exact records_of_eq (by rw [hm.tree, update_self]) hlive
  · exact (removeDirAll_root m.volume.tree aside).trans hm

end Swap

/-! ## All or nothing -/

theorem restoreTempRoot_ne (root : StoreRoot) (asOf : String) :
    s!".traverse-datastore-restore-{restoreWorkSuffix C root asOf}" ≠
      s!".traverse-datastore-replaced-{restoreWorkSuffix C root asOf}" := by
  intro h
  simpa [toString] using congrArg String.toList h

theorem migrationCandidateRoot_ne (root : StoreRoot) (asOf : String) :
    s!".traverse-datastore-migration-{restoreWorkSuffix C root asOf}" ≠
      s!".traverse-datastore-pre-v2-{restoreWorkSuffix C root asOf}" := by
  intro h
  simpa [toString] using congrArg String.toList h

variable {m₀ : LocalFileDataStoreMaintenance}

theorem Unpacked.pinned {m : LocalFileDataStoreMaintenance} {work aside : String}
    {files : String → Option Bytes} (h : Unpacked work aside files m.volume)
    {J : Option Fault → Prop} (hJ : J m.fault) : ∃ folder lock,
      m.volume.tree (.sibling work) = some folder ∧ folder.lock = some lock ∧
      Pinned m.volume.tree lock J m := by
  obtain ⟨folder, lock, hfolder, hlock, hfree⟩ := h.folder
  exact ⟨folder, lock, hfolder, hlock, rfl, hfree, hJ⟩

/-- What a restore needs but for the lock. -/
structure Restores (m : LocalFileDataStoreMaintenance) (archive asOf : String)
    (byName : String → Option (Except String Bytes)) (manifest : BackupManifest) : Prop where
  root : ∃ live, m.volume.tree .root = some live
  asOf : ∃ instant, S.instant asOf = .ok instant
  installs : Installs S C (m.archives (.file archive)) byName manifest

section Whole

variable {J : Option Fault → Prop} {good : Prop} (hJ : Timeless J) (hnone : J none)
  {archive asOf : String} {A : (ArchivePath → Option ZipFile) → Prop}

/-- The root and the locks are as they were in `m₀`, the fault meets `J`, and the archives `A`. -/
def Waiting (m₀ : LocalFileDataStoreMaintenance) (J : Option Fault → Prop)
    (A : (ArchivePath → Option ZipFile) → Prop) (m : LocalFileDataStoreMaintenance) : Prop :=
  SameRoot m₀ m ∧ J m.fault ∧ A m.archives

include hJ hnone

theorem Waiting.framed (hgood : good → Calm J) : Framed m₀ good (Waiting m₀ J A) := by
  refine ⟨(SameRoot.lasting m₀).and (.and ⟨fun _ _ => hnone, fun m fault skip hf h => ?_⟩
    (.of_forall fun _ _ h => h)), fun m h => h.1, fun m h hg => hgood hg _ h.2.1⟩
  exact hJ fault skip (hf ▸ h)

variable (m₀) in
theorem ensures_restore (root : StoreRoot) (hgood : good → Calm J ∧
      ∃ byName manifest, Restores S C m₀ archive asOf byName manifest) :
    Ensures (Waiting m₀ J (· = m₀.archives)) (restore S C root archive asOf)
      (fun evidence m => ∃ byName manifest,
        Installs S C (m₀.archives (.file archive)) byName manifest ∧
        evidence.recordCount = manifest.recordCount ∧ m.volume.tree .root ≠ none ∧
        m.rootRecords = extractedFiles byName manifest.records)
      (fun m => (m.rootRecords = m₀.rootRecords ∧ ¬ good) ∨
        (¬ ∀ fault, J fault → NoLockFault fault) ∧ ∃ byName manifest,
          Restores S C m₀ archive asOf byName manifest ∧
          m.rootRecords = extractedFiles byName manifest.records) := by
  have hI : Framed m₀ good (Waiting m₀ J (· = m₀.archives)) :=
    Waiting.framed hJ hnone fun h => (hgood h).1
  have hne := restoreTempRoot_ne C root asOf
  refine ((ensures_done hI fun h => ?_).fail fun _ h => .inl ⟨h.1.rootRecords, h.2⟩).bind
    fun instant => .of_and fun hinstant => ((ensures_stageRestore S C hI
      (fun m _ h hsame => ⟨hsame, h.2⟩) hne (fun m h => by rw [h.2.2]) fun h => ?_).fail
      fun _ h => .inl ⟨h.1.rootRecords, h.2⟩).bind fun manifest => ?_
  · obtain ⟨-, _, _, hrestores⟩ := hgood h
    obtain ⟨instant, hasOf⟩ := hrestores.asOf
    exact ⟨instant, by rw [parseAsOf, hasOf]; rfl⟩
  · obtain ⟨-, byName, manifest, hrestores⟩ := hgood h
    exact ⟨byName, manifest, hrestores.installs⟩
  rintro m ⟨byName, hinstalls, ⟨hsame, hfault, -⟩, hunpacked⟩
  obtain ⟨folder, lock, hfolder, hlock, hpinned⟩ := hunpacked.pinned hfault
  have hfiles : ∀ m' : LocalFileDataStoreMaintenance, m'.volume.tree .root = some folder →
      m'.rootRecords = extractedFiles byName manifest.records := by
    intro m' hm'
    rw [← hunpacked.files]
    exact records_of_eq hm' hfolder
  refine (((ensures_replaceRoot hJ hne hfolder hlock fun h => ⟨(hgood h).1, ?_,
    hunpacked.aside⟩).fail fun m' h => ?_).bind fun _ m' hm' => ?_) m hpinned
  · obtain ⟨-, _, _, hrestores⟩ := hgood h
    rw [hsame.root]
    exact hrestores.root
  · obtain ⟨hsame', hbad⟩ | ⟨hlock, hlive, hm'⟩ := h
    · exact .inl ⟨hsame'.trans hsame.rootRecords, hbad⟩
    · rw [hsame.root] at hlive
      exact .inr ⟨hlock, byName, manifest, ⟨hlive, ⟨instant,
        LocalFileDataStore.of_mapError_ok hinstant⟩, hinstalls⟩, hfiles m' hm'⟩
  · exact ⟨byName, manifest, hinstalls, rfl, by simp [hm'], hfiles m' hm'⟩

theorem ensures_migration (root : StoreRoot) {backupDestination : String}
    (hgood : good → (∀ fault, J fault → fault = none) ∧ (∃ instant, S.instant asOf = .ok instant) ∧
      ∃ folder, m₀.volume.tree .root = some folder ∧ ReadableV1 S C folder.files)
    (hbackup : good → ∀ m, SameRoot m₀ m → m.fault = none → ∃ evidence digest m',
      (backup S C backupDestination asOf).run m = (.ok evidence, m') ∧
        evidence.archiveContentDigest = some digest) :
    Ensures (Waiting m₀ J fun _ => True) (migrateV1ToV2 S C root backupDestination asOf)
      (fun _ m => Converts S C m₀.rootRecords m.rootRecords)
      (fun m => m.rootRecords = m₀.rootRecords ∧ ¬ good) := by
  have hcalm : good → Calm J := fun h _ hfault _ hsome => by
    cases ((hgood h).1 _ hfault).symm.trans hsome
  have hI : Framed m₀ good (Waiting m₀ J fun _ => True) := Waiting.framed hJ hnone hcalm
  have hne := migrationCandidateRoot_ne C root asOf
  have hfailed : ∀ m, Failed m₀ good m → m.rootRecords = m₀.rootRecords ∧ ¬ good :=
    fun m h => ⟨h.1.rootRecords, h.2⟩
  refine (((ensures_done hI fun h => ?_).post fun _ _ h => h.1).fail hfailed).bind fun _ =>
    ((ensures_checkedBackup S C hI (fun m _ h => ⟨⟨h.1.root, h.1.locks, h.1.lockFile⟩, h.2⟩)
      (fun h => (hgood h).2.2) fun h m hm => hbackup h m hm.1 ((hgood h).1 _ hm.2.1)).fail
      hfailed).bind fun backed => .of_and ?_
  · obtain ⟨instant, hasOf⟩ := (hgood h).2.1
    exact ⟨instant, by rw [parseAsOf, hasOf]; rfl⟩
  rintro ⟨live, hlive, hkeys, hreadable⟩
  unfold migrateBackedUp
  rw [hkeys]
  refine ((ensures_stageCandidate S C hlive hreadable hI (fun m _ h hsame => ⟨hsame, h.2⟩)
    hne).fail hfailed).bind fun _ => ?_
  rintro m ⟨files, ⟨⟨hsame, hfault, -⟩, hunpacked⟩, hconverts⟩
  obtain ⟨folder, lock, hfolder, hlock, hpinned⟩ := hunpacked.pinned hfault
  refine (((ensures_commitMigratedStoreRoot hJ hne hfolder hlock (fun h =>
    ⟨hcalm h, ⟨live, hsame.root.trans hlive⟩, hunpacked.aside⟩) fun h fault hfault _ hsome =>
      ?_).fail
      fun m' h => ⟨h.1.trans hsame.rootRecords, h.2⟩).bind fun _ m' hm' => ?_) m hpinned
  · cases ((hgood h).1 _ hfault).symm.trans hsome
  · show Converts S C _ (records _ _)
    rw [records_of_eq hm' hfolder, hunpacked.files]
    exact hconverts

end Whole

theorem ensures_migrateV1ToV2 (root : StoreRoot) (backupDestination asOf : String) :
    Ensures (SameRoot m₀) (migrateV1ToV2 S C root backupDestination asOf)
      (fun _ m => Converts S C m₀.rootRecords m.rootRecords)
      (fun m => m.rootRecords = m₀.rootRecords) :=
  (ensures_migration S C (J := fun _ => True) (fun _ _ _ => trivial) trivial root False.elim
    False.elim).imp (fun _ h => ⟨h, trivial, trivial⟩) (fun _ _ h => h) fun _ h => h.1

def emptyZip : String → Option (Except String Bytes) :=
  zipMembers (jsonMaintenanceSerde.manifest (backupManifest transparent "" [])) []

/-- A store with these files and the archive of an empty store. -/
def liveStore (files : Directory) (fault : Option Fault) : LocalFileDataStoreMaintenance where
  volume :=
    { tree := fun p => if p = .root then some ⟨files, some 0⟩ else none
      locks := [some (.maintenance 0)] }
  archives := fun path => if path = .file "empty.zip" then some (.members emptyZip) else none
  lockFile := ⟨0, .maintenance 0⟩
  opened := 1
  fault := fault

end LocalFileDataStoreMaintenance

end Traverse.Storage

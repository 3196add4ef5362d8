import Traverse.Storage.Backup

/-!
# Storage.Opening

Two things about the lock of a store. Opening a store is three calls
(`OpenStage.finish_eq_acquireRoot`), and each of them leaves alone what others hold
(`OpenStage.step_undisturbed`); while somebody holds the lock of the root, it comes to nothing
(`OpenStage.step_of_held`). A migration does not touch the root as long as it has the lock
it began with (`throughout_migrateV1ToV2`).
-/

namespace Traverse.Storage

open Lines Program LocalFileDataStore LocalFileDataStoreMaintenance

/-! ## Opening, call by call -/

def rootLock (v : Volume Place LockHolder) : Option Nat := (v.tree .root).bind Folder.lock

def Held (v : Volume Place LockHolder) (lock : Nat) (holder : LockHolder) : Prop :=
  v.locks[lock]? = some (some holder)

inductive OpenStage where
  | creating
  | openingLock
  | locking (lock : Nat)

namespace OpenStage

/-- One call: the next stage, or the result. -/
def step (holder : LockHolder) (v : Volume Place LockHolder) :
    OpenStage → (OpenStage ⊕ Option LockFile) × Volume Place LockHolder
  | .creating => (.inl .openingLock, { v with tree := v.tree.createDirAll .root })
  | .openingLock =>
    match v.openLock .root with
    | (.ok lock, v') => (.inl (.locking lock), v')
    | (.error _, v') => (.inr none, v')
  | .locking lock =>
    match v.tryLock lock holder with
    | some v' => (.inr (some ⟨lock, holder⟩), v')
    | none => (.inr none, v)

/-- Call after call, with nothing in between. -/
def finish (holder : LockHolder) :
    Nat → OpenStage → Volume Place LockHolder → Option LockFile × Volume Place LockHolder
  | 0, _, v => (none, v)
  | n + 1, stage, v =>
    match stage.step holder v with
    | (.inl next, v') => finish holder n next v'
    | (.inr result, v') => (result, v')

/-- The stages are `acquireRoot` taken apart: three calls, which end as it does. -/
theorem finish_eq_acquireRoot {ε : Type} (openFailed : String → ε) (lockFailed : TryLockError → ε)
    (holder : LockHolder) (v : Volume Place LockHolder) :
    finish holder 3 .creating v = ((acquireRoot openFailed lockFailed holder).run v).map
      Except.toOption id := by
  simp only [finish, step, acquireRoot, Bind.bind, Pure.pure, run_handle, Program.modify, act, run,
    andThen]
  rcases Volume.openLock _ _ with ⟨reason | lock, v'⟩
  · rfl
  · simp only [Except.mapError, run_handle, run]
    cases v'.tryLock lock holder with
    | none | some => rfl

/-- The lock that was opened is that of the root. -/
def Knows (v : Volume Place LockHolder) : OpenStage → Prop
  | .locking lock => rootLock v = some lock
  | _ => True

end OpenStage

/-- What one process leaves of the locks that there are and that others hold. -/
structure Undisturbed (holder : LockHolder) (v v' : Volume Place LockHolder) : Prop where
  lock : ∀ lock, rootLock v = some lock → rootLock v' = some lock
  held : ∀ lock rival, rival ≠ holder → Held v lock rival → Held v' lock rival

structure Owns (v : Volume Place LockHolder) (lockFile : LockFile) (holder : LockHolder) :
    Prop where
  handle : lockFile.holder = holder
  lock : rootLock v = some lockFile.lock
  held : Held v lockFile.lock holder

section Locks

variable {v v' : Volume Place LockHolder} {holder rival : LockHolder} {lock : Nat}

variable {lockFile : LockFile} {stage : OpenStage}

theorem Owns.undisturbed (h : Owns v lockFile rival) (hne : rival ≠ holder)
    (hv : Undisturbed holder v v') : Owns v' lockFile rival :=
  ⟨h.handle, hv.lock _ h.lock, hv.held _ _ hne h.held⟩

theorem OpenStage.Knows.undisturbed (h : stage.Knows v) (hv : Undisturbed holder v v') :
    stage.Knows v' := by
  cases stage with
  | locking lock => exact hv.lock lock h
  | _ => trivial

theorem Owns.exclusive {lockFile' : LockFile} (h : Owns v lockFile holder)
    (h' : Owns v lockFile' rival) : holder = rival := by
  have hlock : lockFile.lock = lockFile'.lock := Option.some.inj (h.lock.symm.trans h'.lock)
  have hheld := h.held
  rw [Held, hlock, h'.held] at hheld
  exact (Option.some.inj (Option.some.inj hheld)).symm

theorem exists_of_rootLock (h : rootLock v = some lock) :
    ∃ folder, v.tree .root = some folder ∧ folder.lock = some lock :=
  Option.bind_eq_some_iff.1 h

theorem Undisturbed.unlock (v : Volume Place LockHolder) (lock : Nat) (holder : LockHolder) :
    Undisturbed holder v (v.unlock lock holder) := by
  refine ⟨fun lock' h => ?_, fun lock' rival hne h => ?_⟩
  · rw [rootLock, v.unlock_tree]
    exact h
  · unfold Volume.unlock
    split
    · next hheld =>
      have hlocks : lock ≠ lock' := by
        rintro rfl
        rw [Held, hheld] at h
        exact hne (Option.some.inj (Option.some.inj h)).symm
      exact (List.getElem?_set_ne hlocks).trans h
    · exact h

theorem Undisturbed.tryLock (h : v.tryLock lock rival = some v') : Undisturbed holder v v' := by
  obtain ⟨hfree, rfl⟩ := Volume.tryLock_some h
  refine ⟨fun _ h => h, fun lock' rival' _ hheld => ?_⟩
  have hlocks : lock ≠ lock' := by
    rintro rfl
    rw [Held, hfree] at hheld
    cases hheld
  exact (List.getElem?_set_ne hlocks).trans hheld

theorem OpenStage.step_undisturbed (holder : LockHolder) (stage : OpenStage)
    (v : Volume Place LockHolder) :
    Undisturbed holder v (stage.step holder v).2 ∧
      records (stage.step holder v).2.tree .root = records v.tree .root := by
  cases stage with
  | creating =>
    refine ⟨⟨fun lock hlock => ?_, fun _ _ _ h => h⟩, records_createDirAll v.tree .root⟩
    obtain ⟨folder, hfolder, -⟩ := exists_of_rootLock hlock
    show (v.tree.createDirAll .root .root).bind Folder.lock = _
    rw [FileTree.createDirAll_of_some hfolder]
    exact hlock
  | openingLock =>
    have hstep : ((OpenStage.openingLock).step holder v).2 = (v.openLock .root).2 := by
      simp only [step]
      split <;> next h => rw [h]
    rw [hstep]
    refine ⟨⟨fun lock hlock => ?_, fun lock rival _ hheld => ?_⟩, records_openLock v .root .root⟩
    · obtain ⟨folder, hfolder, hfolderLock⟩ := exists_of_rootLock hlock
      rw [Volume.openLock_of_lock hfolder hfolderLock]
      exact hlock
    · obtain ⟨new, hnew⟩ := v.openLock_locks .root
      obtain ⟨hlt, -⟩ := List.getElem?_eq_some_iff.1 hheld
      rw [Held, ← hnew, List.getElem?_append_left hlt]
      exact hheld
  | locking lock =>
    simp only [step]
    split
    · next v' hlocked =>
      refine ⟨.tryLock hlocked, ?_⟩
      obtain ⟨-, rfl⟩ := Volume.tryLock_some hlocked
      rfl
    · exact ⟨⟨fun _ h => h, fun _ _ _ h => h⟩, rfl⟩

theorem OpenStage.step_tree (hroot : rootLock v = some lock) (stage : OpenStage) :
    (stage.step holder v).2.tree = v.tree := by
  obtain ⟨folder, hfolder, hlock⟩ := exists_of_rootLock hroot
  cases stage with
  | creating => exact FileTree.createDirAll_of_some hfolder
  | openingLock => simp only [step, Volume.openLock_of_lock hfolder hlock]
  | locking lock' =>
    simp only [step]
    split
    · next hlocked =>
      obtain ⟨-, rfl⟩ := Volume.tryLock_some hlocked
      rfl
    · rfl

theorem Undisturbed.withTree {T tree tree' : FileTree Place} (h : OpenStore.SameLocks T tree)
    (h' : OpenStore.SameLocks T tree') (locks : List (Option LockHolder)) :
    Undisturbed holder ⟨tree, locks⟩ ⟨tree', locks⟩ := by
  refine ⟨fun lock hlock => ?_, fun _ _ _ hheld => hheld⟩
  obtain ⟨folder, hfolder, hfolderLock⟩ := exists_of_rootLock hlock
  have hroot := h'.root.trans h.root.symm
  rw [show tree .root = some folder from hfolder] at hroot
  obtain ⟨folder', hfolder', hsame⟩ := Option.map_eq_some_iff.1 hroot
  show (tree' .root).bind Folder.lock = some lock
  rw [hfolder', Option.bind_some, hsame, hfolderLock]

theorem OpenStage.Knows.step {next : OpenStage} (h : stage.Knows v)
    (hstep : stage.step holder v = (.inl next, v')) : next.Knows v' := by
  cases stage with
  | creating =>
    cases hstep
    trivial
  | openingLock =>
    simp only [OpenStage.step] at hstep
    split at hstep
    · next lock v'' hopen =>
      cases hstep
      rcases v.openLock_cases .root with ⟨-, h⟩ | ⟨folder, hfolder, ⟨lock', hlock', h⟩ | ⟨-, h⟩⟩
      · rw [h] at hopen
        cases hopen
      · rw [h] at hopen
        cases hopen
        show rootLock _ = _
        rw [rootLock, hfolder]
        exact hlock'
      · rw [h] at hopen
        cases hopen
        show (Function.update v.tree .root _ .root).bind Folder.lock = _
        rfl
    · cases hstep
  | locking lock =>
    simp only [OpenStage.step] at hstep
    split at hstep <;> cases hstep

theorem OpenStage.Knows.owns (h : stage.Knows v)
    (hstep : stage.step holder v = (.inr (some lockFile), v')) : Owns v' lockFile holder := by
  cases stage with
  | creating => cases hstep
  | openingLock =>
    simp only [OpenStage.step] at hstep
    split at hstep <;> cases hstep
  | locking lock =>
    simp only [OpenStage.step] at hstep
    split at hstep
    · next hlocked =>
      cases hstep
      obtain ⟨hfree, rfl⟩ := Volume.tryLock_some hlocked
      refine ⟨rfl, h, ?_⟩
      obtain ⟨hlt, -⟩ := List.getElem?_eq_some_iff.1 hfree
      exact List.getElem?_set_self hlt
    · cases hstep

/-- While somebody holds the lock of the root, opening it does nothing and fails in the end. -/
theorem OpenStage.step_of_held (holder : LockHolder) (hroot : rootLock v = some lock)
    (hheld : Held v lock rival) (h : stage.Knows v) :
    stage.step holder v = (.inr none, v) ∨
      ∃ next, stage.step holder v = (.inl next, v) ∧ next.Knows v := by
  obtain ⟨folder, hfolder, hlock⟩ := exists_of_rootLock hroot
  cases stage with
  | creating =>
    refine .inr ⟨.openingLock, ?_, trivial⟩
    simp only [step, FileTree.createDirAll_of_some hfolder]
  | openingLock =>
    refine .inr ⟨.locking lock, ?_, hroot⟩
    simp only [step, Volume.openLock_of_lock hfolder hlock]
  | locking lock' =>
    have hsame : lock' = lock := Option.some.inj (h.symm.trans hroot)
    have hbusy : v.tryLock lock' holder = none := by
      refine if_neg ?_
      rw [hsame, hheld]
      simp
    left
    simp only [step, hbusy]

end Locks

/-! ## The migration while it holds the lock -/

namespace LocalFileDataStoreMaintenance

variable {ν : Type} (S : MaintenanceSerde ν) (C : Crypto) {m₀ : LocalFileDataStoreMaintenance}

theorem keeps_stageCandidate {I : Assertion} (hI : Lasting I)
    (htree : ∀ (m : LocalFileDataStoreMaintenance) tree, tree .root = m.volume.tree .root → I m →
      I (m.withTree tree))
    (hlock : ∀ (m : LocalFileDataStoreMaintenance) name, I m →
      I { m with volume := (m.volume.openLock (.sibling name)).2 })
    (keys : List String) (work aside : String) :
    (stageCandidate S C keys (.sibling work) (.sibling aside)).Keeps I := by
  have hremove : ∀ {ε : Type} (name : String),
      (removeDirAll (.sibling name) : Maintenance ε Unit).Keeps I := fun name =>
    .act fun m h => htree m _ (removeDirAll_root m.volume.tree name) h
  refine .bind (hremove work) fun _ => .bind (hremove aside) fun _ =>
    .bind (keeps_onTree hI (fun m tree hcreated h => ?_) _).mapError fun _ =>
    .bind (keeps_io hI fun m h => hlock m work h).mapError fun _ => ?_
  · cases hcreated
    exact htree m _ (m.volume.tree.createDirAll_of_ne (by simp)) h
  · exact .onError (.bind (.each fun key => .bind (keeps_readEnvelope S C hI key).mapError fun _ =>
      (keeps_writeFile hI (fun m bytes tree hput =>
        htree m tree (FileTree.putFile_of_ne Place.noConfusion hput)) _).mapError) fun _ =>
      (keeps_verifyV2StoreRoot S C hI _).mapError) (hremove work)

/-- The first handle is not the one that holds the lock. -/
structure Lost (lock : Nat) (m : LocalFileDataStoreMaintenance) : Prop where
  opened : 0 < m.opened
  held : ¬ Held m.volume lock (.maintenance 0)

variable {lock : Nat}

theorem Lost.lasting : Lasting (Lost lock) := .of_forall fun _ _ h => ⟨h.opened, h.held⟩

variable {m : LocalFileDataStoreMaintenance}

theorem Lost.unlock (h : Lost lock m) (lock' : Nat) (holder : LockHolder) :
    Lost lock { m with volume := m.volume.unlock lock' holder } := by
  refine ⟨h.opened, fun hheld => h.held ?_⟩
  unfold Held Volume.unlock at hheld
  split at hheld
  · rw [List.getElem?_set] at hheld
    split at hheld
    · split at hheld <;> cases hheld
    · exact hheld
  · exact hheld

theorem keeps_openLockFile_lost : openLockFile.Keeps (Lost lock) := by
  refine keeps_io Lost.lasting fun m h => ⟨Nat.succ_pos _, fun hheld => h.held ?_⟩
  rcases m.volume.openLock_cases .root with ⟨-, hopen⟩ | ⟨folder, -, ⟨lock', -, hopen⟩ | ⟨-, hopen⟩⟩
  · rw [hopen] at hheld
    exact hheld
  · rw [hopen] at hheld
    exact hheld
  · rw [hopen] at hheld
    have hnew : (m.volume.locks ++ [none])[lock]? = some (some (.maintenance 0)) := hheld
    rw [List.getElem?_append] at hnew
    split at hnew
    · exact hnew
    · rw [List.getElem?_singleton] at hnew
      split at hnew <;> cases hnew

theorem holder_of_openLockFile (h : 0 < m.opened) {lockFile : LockFile}
    (hrun : (openLockFile.run m).1 = .ok lockFile) : lockFile.holder ≠ .maintenance 0 := by
  have heffect : ∀ m' : LocalFileDataStoreMaintenance, 0 < m'.opened →
      (m'.volume.openLock .root).1.map (fun lock => (⟨lock, .maintenance m'.opened⟩ : LockFile)) =
        .ok lockFile → lockFile.holder ≠ .maintenance 0 := by
    intro m' hm' hok
    cases hopen : (m'.volume.openLock .root).1 with
    | error e =>
      rw [hopen] at hok
      cases hok
    | ok lock =>
      rw [hopen] at hok
      cases hok
      intro hzero
      have hopened : m'.opened = 0 := LockHolder.maintenance.inj hzero
      omega
  have hrun' : (struck id _ (m.strike .openLock)).1 = .ok lockFile := hrun
  rcases m.strike_cases .openLock with hs | ⟨fault, skip, -, hs⟩ | ⟨fault, -, -, hs⟩
  · rw [hs] at hrun'
    exact heffect m h hrun'
  · rw [hs] at hrun'
    exact heffect { m with fault := some { fault with skip } } h hrun'
  · rw [hs] at hrun'
    cases hrun'

theorem stays_reacquireLock : reacquireLock.Stays (Lost lock) := by
  refine Stays.bind (Stays.mapError keeps_openLockFile_lost.stays) fun m lockFile hm hrun =>
    (Keeps.bind (Keeps.mapError ?_) fun _ => .bind (.act fun m h => h.unlock _ _) fun _ =>
      .act fun m h => ⟨h.opened, h.held⟩).stays
  have hholder : lockFile.holder ≠ .maintenance 0 := by
    refine holder_of_openLockFile hm.opened ?_
    exact of_mapError_ok hrun
  refine keeps_io Lost.lasting fun m h => ?_
  split
  · next volume hlocked =>
    obtain ⟨-, rfl⟩ := Volume.tryLock_some hlocked
    refine ⟨h.opened, fun hheld => h.held ?_⟩
    have hset : (m.volume.locks.set lockFile.lock (some lockFile.holder))[lock]? =
        some (some (.maintenance 0)) := hheld
    rw [List.getElem?_set] at hset
    split at hset
    · split at hset
      · exact absurd (Option.some.inj (Option.some.inj hset)) hholder
      · cases hset
    · exact hset
  · exact h

theorem stays_swap (work aside : Place) : (do
    moveLiveAsideForMigration aside work
    installMigratedCandidate work aside
    reacquireMigratedLock work aside
    removeDirAll aside : Maintenance MigrationError Unit).Stays (Lost lock) := by
  have hrename : ∀ source target, (rename source target).Stays (Lost lock) := fun source target =>
    (keeps_onTree Lost.lasting (fun m tree _ h => ⟨h.opened, h.held⟩) _).stays
  have hremove : ∀ {ε : Type} p, (removeDirAll p : Maintenance ε Unit).Stays (Lost lock) :=
    fun p => (Keeps.act fun m h => ⟨h.opened, h.held⟩).stays
  refine .bind (.onError (hrename _ _).mapError ?_) fun _ _ _ _ =>
    .bind (.onError (hrename _ _).mapError ?_) fun _ _ _ _ =>
    .bind (.onError stays_reacquireLock.mapError ?_) fun _ _ _ _ => hremove _
  · exact .bind stays_reacquireLock.ignore fun _ _ _ _ => hremove _
  · exact .bind (hrename _ _).ignore fun _ _ _ _ => stays_reacquireLock.ignore
  · exact .bind (hrename _ _).ignore fun _ _ _ _ => .bind (hrename _ _).ignore fun _ _ _ _ =>
      stays_reacquireLock.ignore

/-- As long as the first handle holds the lock, the root is what it was. -/
def Guarded (m₀ m : LocalFileDataStoreMaintenance) : Prop :=
  Held m.volume m₀.lockFile.lock m₀.lockFile.holder → m.volume.tree .root = m₀.volume.tree .root

theorem throughout_migrateV1ToV2 (hholder : m₀.lockFile.holder = .maintenance 0)
    (hopened : 0 < m₀.opened) (root : StoreRoot) (backupDestination asOf : String) :
    (migrateV1ToV2 S C root backupDestination asOf).Throughout (Guarded m₀) m₀ := by
  let Same : Assertion := fun m => SameRoot m₀ m ∧ m.opened = m₀.opened
  have hsame : ∀ m, Same m → Guarded m₀ m := fun m h _ => h.1.root
  have hstart : Same m₀ := ⟨.refl m₀, rfl⟩
  have hlasting : Lasting Same := (SameRoot.lasting m₀).and (.of_forall fun _ _ h => h)
  refine Keeps.bind_throughout .done hsame hstart fun _ m h => Keeps.bind_throughout
    (keeps_checkedBackup S C hlasting
      (fun m _ h => ⟨⟨h.1.root, h.1.locks, h.1.lockFile⟩, h.2⟩) _ _) hsame h fun backed m h =>
    Keeps.bind_throughout (keeps_stageCandidate S C hlasting
      (fun m tree htree h => ⟨h.1.withTree htree, h.2⟩) (fun m name h => ⟨h.1.openLock name, h.2⟩)
      _ _ _) hsame h fun _ m₁ hstaged => ?_
  -- The first call of the swap is the unlocking.
  have hlost : Lost m₀.lockFile.lock
      { m₁ with volume := m₁.volume.unlock m₁.lockFile.lock m₁.lockFile.holder } := by
    refine ⟨hstaged.2 ▸ hopened, ?_⟩
    rw [hstaged.1.lockFile, hholder]
    unfold Held Volume.unlock
    split
    · rw [List.getElem?_set, if_pos rfl]
      split <;> simp
    · assumption
  refine ⟨hsame m₁ hstaged, Throughout.mono (Φ := Lost m₀.lockFile.lock)
    (((stays_swap _ _).bind fun _ _ _ _ => Keeps.done.stays) _ hlost) fun m hm hheld => ?_⟩
  rw [hholder] at hheld
  exact absurd hheld hm.held

end LocalFileDataStoreMaintenance

end Traverse.Storage

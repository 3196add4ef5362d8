import Traverse.Storage.LocalFile
import Traverse.Sys.Program
import Traverse.Sys.Volume

/-!
# Storage.Disk

What maintenance works on: the store root and the directories next to it, the backup archives, and
the lock file it has open. File-system calls are programs of one operation each, and one chosen
operation can fail (`Fault`).

`SameRoot` is the frame of all the preparations of a restore or a migration: they touch neither the
root nor the locks that there are.
-/

namespace Traverse.Storage

open Lines Function

inductive Place where
  | root
  | sibling (name : String)
  deriving DecidableEq

/-- The record files of a directory, by key. -/
def records (t : FileTree Place) (p : Place) (key : String) : Option Bytes :=
  (t p).bind fun folder => Directory.file folder.files key

theorem records_of_some {t : FileTree Place} {p : Place} {folder : Folder} (h : t p = some folder) :
    records t p = Directory.file folder.files := by
  funext key
  simp only [records, h, Option.bind_some]

theorem removeDirAll_root (t : FileTree Place) (name : String) :
    t.removeDirAll (.sibling name) .root = t .root :=
  t.removeDirAll_of_ne (by simp)

/-- The lock files that maintenance opens are numbered. -/
inductive LockHolder where
  | maintenance (number : Nat)
  | other
  deriving DecidableEq

theorem records_openLock (v : Volume Place LockHolder) (p q : Place) :
    records (v.openLock p).2.tree q = records v.tree q := by
  by_cases hq : q = p
  · subst hq
    rcases v.openLock_cases q with ⟨-, h⟩ | ⟨folder, hfolder, ⟨lock, -, h⟩ | ⟨-, h⟩⟩
    · rw [h]
    · rw [h]
    · rw [h]
      funext key
      simp only [records, update_self, hfolder, Option.bind_some]
  · funext key
    rw [records, records, v.openLock_of_ne hq]

structure LockFile where
  lock : Nat
  holder : LockHolder

inductive ArchivePath where
  | file (path : String)
  /-- `with_extension("zip.tmp")`. -/
  | temporary (path : String)
  deriving DecidableEq

/-- What the zip library finds in a file. A member can fail to be read. -/
inductive ZipFile where
  | invalid (reason : String)
  | members (byName : String → Option (Except String Bytes))

inductive Operation where
  | createDir
  | createFile
  | writeFile
  | rename
  | openFile
  | openLock
  | tryLock
  deriving DecidableEq

/-- The operations on the lock file that is to be held. -/
def Operation.onLock : Operation → Bool
  | .openLock | .tryLock => true
  | _ => false

/-- Of the operations of this kind, the one after `skip` others fails. -/
structure Fault where
  operation : Operation
  skip : Nat
  reason : String

/-- The lock file can be opened and locked. -/
def NoLockFault (fault : Option Fault) : Prop :=
  ∀ f, fault = some f → f.operation.onLock = false

/-- Nothing but that can fail. -/
def LockFault (fault : Option Fault) : Prop :=
  ∀ f, fault = some f → f.operation.onLock = true

/-- Next to `lock_file` is what it works on. -/
structure LocalFileDataStoreMaintenance where
  volume : Volume Place LockHolder
  archives : ArchivePath → Option ZipFile
  lockFile : LockFile
  /-- How many lock files have been opened. -/
  opened : Nat
  fault : Option Fault

abbrev Maintenance (ε α : Type) := Program LocalFileDataStoreMaintenance ε α

abbrev Effect (ε α : Type) :=
  LocalFileDataStoreMaintenance → Except ε α × LocalFileDataStoreMaintenance

abbrev Assertion := LocalFileDataStoreMaintenance → Prop

def LocalFileDataStoreMaintenance.rootRecords (m : LocalFileDataStoreMaintenance) :
    String → Option Bytes :=
  records m.volume.tree .root

inductive TryLockError where
  | wouldBlock
  | error (reason : String)

namespace LocalFileDataStoreMaintenance

def strike (m : LocalFileDataStoreMaintenance) (operation : Operation) :
    Option String × LocalFileDataStoreMaintenance :=
  match m.fault with
  | none => (none, m)
  | some fault =>
    if fault.operation = operation then
      match fault.skip with
      | 0 => (some fault.reason, { m with fault := none })
      | skip + 1 => (none, { m with fault := some { fault with skip } })
    else (none, m)

/-! ## File-system calls -/

section Calls

variable {ε α : Type}

def struck (fail : String → ε) (effect : Effect ε α) :
    Option String × LocalFileDataStoreMaintenance → Except ε α × LocalFileDataStoreMaintenance
  | (some reason, m) => (.error (fail reason), m)
  | (none, m) => effect m

def io (fail : String → ε) (operation : Operation) (effect : Effect ε α) : Maintenance ε α :=
  .act fun m => struck fail effect (m.strike operation)

def withTree (m : LocalFileDataStoreMaintenance) (tree : FileTree Place) :
    LocalFileDataStoreMaintenance :=
  { m with volume := { m.volume with tree } }

def onTree (f : FileTree Place → Except String (FileTree Place))
    (m : LocalFileDataStoreMaintenance) : Except String Unit × LocalFileDataStoreMaintenance :=
  match f m.volume.tree with
  | .ok tree => (.ok (), m.withTree tree)
  | .error reason => (.error reason, m)

def createDirAll (p : Place) : Maintenance String Unit :=
  io id .createDir (onTree fun t => .ok (t.createDirAll p))

def removeDirAll (p : Place) : Maintenance ε Unit :=
  .modify fun m => m.withTree (m.volume.tree.removeDirAll p)

def rename (source target : Place) : Maintenance String Unit :=
  io id .rename (onTree fun t => t.rename source target)

def readDir (p : Place) : Maintenance String Directory :=
  io id .openFile fun m => (m.volume.tree.readDir p, m)

def readFile (p : Place) (name : String) : Maintenance String Bytes :=
  io id .openFile fun m => (m.volume.tree.readFile p name, m)

/-- `fs::write`. -/
def writeFile (p : Place) (name : String) (bytes : Bytes) : Maintenance String Unit := do
  io id .createFile (onTree fun t => t.putFile p name [])
  io id .writeFile (onTree fun t => t.putFile p name bytes)

def createLockFile (p : Place) : Maintenance String Unit :=
  io id .createFile fun m =>
    ((m.volume.openLock p).1.map fun _ => (), { m with volume := (m.volume.openLock p).2 })

def openLockFile : Maintenance String LockFile :=
  io id .openLock fun m =>
    ((m.volume.openLock .root).1.map fun lock => ⟨lock, .maintenance m.opened⟩,
      { m with volume := (m.volume.openLock .root).2, opened := m.opened + 1 })

def tryLock (lockFile : LockFile) : Maintenance TryLockError Unit :=
  io .error .tryLock fun m =>
    match m.volume.tryLock lockFile.lock lockFile.holder with
    | some volume => (.ok (), { m with volume })
    | none => (.error .wouldBlock, m)

def unlock : Maintenance ε Unit :=
  .modify fun m => { m with volume := m.volume.unlock m.lockFile.lock m.lockFile.holder }

def openArchive (path : ArchivePath) : Maintenance String ZipFile :=
  io id .openFile fun m =>
    match m.archives path with
    | none => (.error FileTree.notFound, m)
    | some zip => (.ok zip, m)

def putArchive (path : ArchivePath) (zip : Option ZipFile) : Maintenance ε Unit :=
  .modify fun m => { m with archives := update m.archives path zip }

def renameArchive (source target : ArchivePath) : Maintenance String Unit :=
  io id .rename fun m => (.ok (), { m with
    archives := update (update m.archives target (m.archives source)) source none })

def elsewhere (operation : Operation) : Maintenance String Unit :=
  io id operation fun m => (.ok (), m)

end Calls

/-! ## Faults -/

theorem strike_cases (m : LocalFileDataStoreMaintenance) (operation : Operation) :
    (m.strike operation = (none, m)) ∨
    (∃ fault skip, m.fault = some fault ∧
      m.strike operation = (none, { m with fault := some { fault with skip } })) ∨
    ∃ fault, m.fault = some fault ∧ fault.operation = operation ∧
      m.strike operation = (some fault.reason, { m with fault := none }) := by
  unfold strike
  split
  · exact .inl rfl
  next fault hfault =>
  split
  · next hoperation =>
    split
    · exact .inr (.inr ⟨fault, hfault, hoperation, rfl⟩)
    · next skip _ => exact .inr (.inl ⟨fault, skip, hfault, rfl⟩)
  · exact .inl rfl

/-- A property that is not lost when a fault comes nearer or strikes. -/
structure Lasting (I : Assertion) : Prop where
  struck : ∀ m, I m → I { m with fault := none }
  skip : ∀ m fault skip, m.fault = some fault → I m → I { m with fault := some { fault with skip } }

theorem Lasting.of_forall {I : Assertion} (h : ∀ m fault, I m → I { m with fault }) : Lasting I :=
  ⟨fun m => h m none, fun m fault skip _ => h m (some { fault with skip })⟩

theorem Lasting.and {I J : Assertion} (hI : Lasting I) (hJ : Lasting J) :
    Lasting fun m => I m ∧ J m :=
  ⟨fun m h => ⟨hI.struck m h.1, hJ.struck m h.2⟩,
    fun m fault skip hfault h => ⟨hI.skip m fault skip hfault h.1, hJ.skip m fault skip hfault h.2⟩⟩

section Io

variable {ε α : Type} {fail : String → ε} {operation : Operation} {effect : Effect ε α}

theorem io_run {m : LocalFileDataStoreMaintenance}
    (h : ∀ fault, m.fault = some fault → fault.operation ≠ operation) :
    (io fail operation effect).run m = effect m := by
  have hstrike : m.strike operation = (none, m) := by
    unfold strike
    split
    · rfl
    · next fault hfault => rw [if_neg (h fault hfault)]
  show struck fail effect (m.strike operation) = _
  rw [hstrike]
  rfl

theorem keeps_io {I : Assertion} (hI : Lasting I)
    (heffect : ∀ m, I m → I (effect m).2) : (io fail operation effect).Keeps I := by
  refine .act fun m hm => ?_
  rcases m.strike_cases operation with h | ⟨fault, skip, hf, h⟩ | ⟨fault, -, -, h⟩
  · rw [h]
    exact heffect _ hm
  · rw [h]
    exact heffect _ (hI.skip _ _ _ hf hm)
  · rw [h]
    exact hI.struck _ hm

/-- An operation fails in its own way, or because the fault strikes, which is then over. -/
theorem ensures_io {P : Assertion} {Q : α → Assertion} {E : Assertion}
    (hP : ∀ m fault skip, m.fault = some fault → P m →
      P { m with fault := some { fault with skip } })
    (heffect : ∀ m, P m → Program.Outcome Q E (effect m))
    (hfault : ∀ m fault, m.fault = some fault → fault.operation = operation → P m →
      E { m with fault := none }) :
    Program.Ensures P (io fail operation effect) Q E := by
  intro m hm
  show Program.Outcome Q E (struck fail effect (m.strike operation))
  rcases m.strike_cases operation with h | ⟨fault, skip, hf, h⟩ | ⟨fault, hf, hoperation, h⟩
  · rw [h]
    exact heffect _ hm
  · rw [h]
    exact heffect _ (hP _ _ _ hf hm)
  · rw [h]
    exact hfault _ _ hf hoperation hm

end Io

/-! ## What the calls leave alone -/

section Frames

variable {I : Assertion} (hI : Lasting I) {ε : Type}

include hI

theorem keeps_onTree {f : FileTree Place → Except String (FileTree Place)}
    (hf : ∀ m tree, f m.volume.tree = .ok tree → I m → I (m.withTree tree))
    (operation : Operation) : (io id operation (onTree f)).Keeps I := by
  refine keeps_io hI fun m hm => ?_
  unfold onTree
  split
  · next tree htree => exact hf m tree htree hm
  · exact hm

theorem keeps_readDir (p : Place) : (readDir p).Keeps I := keeps_io hI fun _ hm => hm

theorem keeps_readFile (p : Place) (name : String) : (readFile p name).Keeps I :=
  keeps_io hI fun _ hm => hm

theorem keeps_elsewhere (operation : Operation) : (elsewhere operation).Keeps I :=
  keeps_io hI fun _ hm => hm

theorem keeps_openArchive (path : ArchivePath) : (openArchive path).Keeps I := by
  refine keeps_io hI fun m hm => ?_
  cases m.archives path <;> exact hm

theorem keeps_writeFile {p : Place} {name : String}
    (hput : ∀ m bytes tree, m.volume.tree.putFile p name bytes = .ok tree → I m →
      I (m.withTree tree)) (bytes : Bytes) : (writeFile p name bytes).Keeps I :=
  .bind (keeps_onTree hI (fun m => hput m []) _) fun _ => keeps_onTree hI (fun m => hput m bytes) _

end Frames

/-- `m'` differs from `m` outside of the root and the locks. There may be new lock files. -/
structure SameRoot (m m' : LocalFileDataStoreMaintenance) : Prop where
  root : m'.volume.tree .root = m.volume.tree .root
  locks : m.volume.locks <+: m'.volume.locks
  lockFile : m'.lockFile = m.lockFile

namespace SameRoot

variable {m₀ m : LocalFileDataStoreMaintenance} {name : String}

theorem refl (m₀ : LocalFileDataStoreMaintenance) : SameRoot m₀ m₀ :=
  ⟨rfl, List.prefix_rfl, rfl⟩

theorem lasting (m₀ : LocalFileDataStoreMaintenance) : Lasting (SameRoot m₀) :=
  .of_forall fun _ _ h => ⟨h.root, h.locks, h.lockFile⟩

theorem withTree {tree : FileTree Place} (h : SameRoot m₀ m)
    (htree : tree .root = m.volume.tree .root) : SameRoot m₀ (m.withTree tree) :=
  ⟨htree.trans h.root, h.locks, h.lockFile⟩

theorem rootRecords (h : SameRoot m₀ m) : m.rootRecords = m₀.rootRecords := by
  funext key
  exact congrArg (·.bind fun folder => Directory.file folder.files key) h.root

theorem openLock (name : String) (h : SameRoot m₀ m) : SameRoot m₀
    { m with volume := (m.volume.openLock (.sibling name)).2 } :=
  ⟨(m.volume.openLock_of_ne (by simp)).trans h.root, h.locks.trans (m.volume.openLock_locks _),
    h.lockFile⟩

end SameRoot

end LocalFileDataStoreMaintenance

end Traverse.Storage

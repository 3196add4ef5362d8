import Mathlib.Data.String.Basic
import Traverse.Text.Lines

/-!
# Sys.Volume

Directories with regular files and one lock file each, as a few processes share them. Places are
path names, so a directory that is renamed is found under its new place with everything in it, and
whoever goes by the old place finds nothing, or another directory.

A lock belongs to the lock file and not to its place: lock files are numbered as they are created,
and the number goes along when the directory is renamed (`Volume.locks`). A lock is exclusive.
-/

open Lines

structure Folder where
  files : Std.ExtTreeMap String Bytes compare
  /-- The number of the lock file. -/
  lock : Option Nat

def Folder.empty : Folder := ⟨∅, none⟩

def Folder.isEmpty (folder : Folder) : Bool := folder.files.isEmpty && folder.lock.isNone

abbrev FileTree (π : Type) := π → Option Folder

namespace FileTree

open Function

variable {π : Type} [DecidableEq π]

def notFound : String := "No such file or directory (os error 2)"

def createDirAll (t : FileTree π) (p : π) : FileTree π :=
  match t p with
  | some _ => t
  | none => update t p (some .empty)

def removeDirAll (t : FileTree π) (p : π) : FileTree π := update t p none

/-- A directory can take the place of an empty one. -/
def rename (t : FileTree π) (source target : π) : Except String (FileTree π) :=
  match t source with
  | none => .error notFound
  | some folder =>
    if (t target).all Folder.isEmpty then
      .ok (update (update t source none) target (some folder))
    else .error "Directory not empty (os error 39)"

omit [DecidableEq π] in
def readDir (t : FileTree π) (p : π) : Except String (Std.ExtTreeMap String Bytes compare) :=
  match t p with
  | none => .error notFound
  | some folder => .ok folder.files

omit [DecidableEq π] in
def readFile (t : FileTree π) (p : π) (name : String) : Except String Bytes :=
  match (t p).bind fun folder => folder.files[name]? with
  | none => .error notFound
  | some bytes => .ok bytes

def putFile (t : FileTree π) (p : π) (name : String) (bytes : Bytes) :
    Except String (FileTree π) :=
  match t p with
  | none => .error notFound
  | some folder =>
    .ok (update t p (some { folder with files := folder.files.insert name bytes }))

def renameFile (t : FileTree π) (p : π) (source target : String) : Except String (FileTree π) :=
  match t p with
  | none => .error notFound
  | some folder =>
    match folder.files[source]? with
    | none => .error notFound
    | some bytes => .ok (update t p
      (some { folder with files := (folder.files.erase source).insert target bytes }))

def removeFile (t : FileTree π) (p : π) (name : String) : Except String (FileTree π) :=
  match t p with
  | none => .error notFound
  | some folder =>
    match folder.files[name]? with
    | none => .error notFound
    | some _ => .ok (update t p (some { folder with files := folder.files.erase name }))

variable {t t' : FileTree π} {p q source target : π} {folder : Folder}

theorem createDirAll_of_some (h : t p = some folder) : t.createDirAll p = t := by
  unfold createDirAll
  rw [h]

theorem createDirAll_of_ne (t : FileTree π) (h : q ≠ p) : t.createDirAll p q = t q := by
  unfold createDirAll
  cases t p with
  | some folder => rfl
  | none => exact update_of_ne h _ _

theorem createDirAll_of_none (h : t p = none) : t.createDirAll p = update t p (some .empty) := by
  unfold createDirAll
  rw [h]

theorem removeDirAll_of_ne (t : FileTree π) (h : q ≠ p) : t.removeDirAll p q = t q :=
  update_of_ne h _ _

theorem putFile_of_some (h : t p = some folder) (name : String) (bytes : Bytes) :
    t.putFile p name bytes = .ok (update t p
      (some { folder with files := folder.files.insert name bytes })) := by
  unfold putFile
  rw [h]

theorem putFile_of_ne {name : String} {bytes : Bytes} (h : q ≠ p)
    (hput : t.putFile p name bytes = .ok t') : t' q = t q := by
  unfold putFile at hput
  split at hput
  · cases hput
  · cases hput
    exact update_of_ne h _ _

theorem rename_of_some (h : t source = some folder) (htarget : t target = none) :
    t.rename source target =
      .ok (update (update t source none) target (some folder)) := by
  unfold rename
  rw [h, htarget]
  rfl

theorem rename_ok (h : t.rename source target = .ok t') :
    ∃ folder, t source = some folder ∧
      t' = update (update t source none) target (some folder) := by
  unfold rename at h
  split at h
  · cases h
  next folder hsource =>
  split at h
  · cases h
    exact ⟨folder, hsource, rfl⟩
  · cases h

end FileTree

/-- `η` are the handles that can hold a lock. -/
structure Volume (π η : Type) where
  tree : FileTree π
  /-- The lock files ever created, and who holds their locks. -/
  locks : List (Option η)

namespace Volume

open Function

variable {π η : Type}

section OpenLock

variable [DecidableEq π]

/-- Opens the lock file of a directory, which is created if there is none. -/
def openLock (v : Volume π η) (p : π) : Except String Nat × Volume π η :=
  match v.tree p with
  | none => (.error FileTree.notFound, v)
  | some folder =>
    match folder.lock with
    | some lock => (.ok lock, v)
    | none => (.ok v.locks.length,
      { tree := update v.tree p (some { folder with lock := some v.locks.length })
        locks := v.locks ++ [none] })

theorem openLock_cases (v : Volume π η) (p : π) :
    (v.tree p = none ∧ v.openLock p = (.error FileTree.notFound, v)) ∨
    ∃ folder, v.tree p = some folder ∧
      ((∃ lock, folder.lock = some lock ∧ v.openLock p = (.ok lock, v)) ∨
        (folder.lock = none ∧ v.openLock p = (.ok v.locks.length,
          { tree := update v.tree p (some { folder with lock := some v.locks.length })
            locks := v.locks ++ [none] }))) := by
  unfold openLock
  cases h : v.tree p with
  | none => exact .inl ⟨rfl, rfl⟩
  | some folder =>
    refine .inr ⟨folder, rfl, ?_⟩
    cases hlock : folder.lock with
    | some lock => exact .inl ⟨lock, rfl, by simp only [hlock]⟩
    | none => exact .inr ⟨rfl, by simp only [hlock]⟩

variable {v : Volume π η} {p : π}

theorem openLock_of_lock {folder : Folder} {lock : Nat} (h : v.tree p = some folder)
    (hlock : folder.lock = some lock) : v.openLock p = (.ok lock, v) := by
  unfold openLock
  rw [h]
  simp only [hlock]

theorem openLock_of_empty (h : v.tree p = some .empty) :
    v.openLock p = (.ok v.locks.length,
      { tree := update v.tree p (some ⟨∅, some v.locks.length⟩)
        locks := v.locks ++ [none] }) := by
  unfold openLock
  rw [h]
  rfl

theorem openLock_locks (v : Volume π η) (p : π) : v.locks <+: (v.openLock p).2.locks := by
  rcases v.openLock_cases p with ⟨-, h⟩ | ⟨folder, -, ⟨lock, -, h⟩ | ⟨-, h⟩⟩
  · exact h ▸ List.prefix_rfl
  · exact h ▸ List.prefix_rfl
  · rw [h]
    exact List.prefix_append _ _

theorem openLock_of_ne (v : Volume π η) {q : π} (hne : q ≠ p) :
    (v.openLock p).2.tree q = v.tree q := by
  rcases v.openLock_cases p with ⟨-, h⟩ | ⟨folder, -, ⟨lock, -, h⟩ | ⟨-, h⟩⟩
  · rw [h]
  · rw [h]
  · rw [h]
    exact update_of_ne hne _ _

end OpenLock

section Locks

def Free (v : Volume π η) (lock : Nat) : Prop := v.locks[lock]? = some none

variable [DecidableEq η]

def tryLock (v : Volume π η) (lock : Nat) (handle : η) : Option (Volume π η) :=
  if v.locks[lock]? = some none then some { v with locks := v.locks.set lock (some handle) }
  else none

def unlock (v : Volume π η) (lock : Nat) (handle : η) : Volume π η :=
  if v.locks[lock]? = some (some handle) then { v with locks := v.locks.set lock none } else v

variable {v : Volume π η} {lock : Nat}

theorem tryLock_of_free (h : v.Free lock) (handle : η) :
    v.tryLock lock handle = some { v with locks := v.locks.set lock (some handle) } :=
  if_pos h

theorem tryLock_some {v' : Volume π η} {handle : η} (h : v.tryLock lock handle = some v') :
    v.Free lock ∧ v' = { v with locks := v.locks.set lock (some handle) } := by
  unfold tryLock at h
  split at h
  · next hfree =>
    cases h
    exact ⟨hfree, rfl⟩
  · cases h

theorem unlock_tree (v : Volume π η) (lock : Nat) (handle : η) :
    (v.unlock lock handle).tree = v.tree := by
  unfold unlock
  split <;> rfl

theorem Free.unlock {free : Nat} (h : v.Free free) (lock : Nat) (handle : η) :
    (v.unlock lock handle).Free free := by
  unfold Volume.unlock Free at *
  split
  · next hheld =>
    have hne : lock ≠ free := by
      rintro rfl
      rw [h] at hheld
      cases hheld
    rw [List.getElem?_set_ne hne]
    exact h
  · exact h

end Locks

end Volume

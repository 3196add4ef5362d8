import Traverse.Storage.Staging

/-!
# Storage.Session

A `LocalFileDataStore` as the sequence of its file-system calls, so that another process can act
between two of them. A store is opened by locking its lock file, and so is maintenance
(`acquireRoot`). A record is written to a temporary file that is renamed.

`ensures_writeRecord` and `ensures_deleteRecord`: if nobody else touches the directories meanwhile,
the calls do what `LocalFileDataStore.write` and `delete` do, whatever temporary files there are.
-/

namespace Traverse.Storage

open Lines Program Function FileTree Directory

/-! ## Opening -/

/-- Creates the root if necessary and locks it. Creating it does not fail. -/
def acquireRoot {ε : Type} (openFailed : String → ε) (lockFailed : TryLockError → ε)
    (holder : LockHolder) : Program (Volume Place LockHolder) ε LockFile := do
  modify fun v => { v with tree := v.tree.createDirAll .root }
  let lock ← act fun v => ((v.openLock .root).1.mapError openFailed, (v.openLock .root).2)
  act fun v => match v.tryLock lock holder with
    | some v' => (.ok (), v')
    | none => (.error (lockFailed .wouldBlock), v)
  pure ⟨lock, holder⟩

/-- A `LocalFileDataStore` apart from its directory. -/
structure OpenStore where
  classification : LocalDataClassification
  keyProvider : Option KeyProvider
  writeRetainedAt : Option String
  lockFile : LockFile

namespace OpenStore

def withClassification (classification : LocalDataClassification) :
    Program (Volume Place LockHolder) DataStoreError OpenStore := do
  let lockFile ← acquireRoot (ioError "open data store lock") lockError .other
  pure ⟨classification, none, none, lockFile⟩

def store (s : OpenStore) (files : String → Option Bytes) : LocalFileDataStore :=
  ⟨s.classification, s.keyProvider, s.writeRetainedAt, files⟩

end OpenStore

/-- `LocalFileDataStoreMaintenance::open`. -/
def LocalFileDataStoreMaintenance.openRoot (number : Nat) :
    Program (Volume Place LockHolder) MaintenanceError LockFile :=
  acquireRoot (maintenanceIo "open data store lock for maintenance")
    (fun e => mapLockToMaintenance (lockError e)) (.maintenance number)

/-- What dropping the owner of a lock file does. -/
def LockFile.drop (lockFile : LockFile) (v : Volume Place LockHolder) : Volume Place LockHolder :=
  v.unlock lockFile.lock lockFile.holder

/-! ## Writing -/

def temporaryPathForKey (processId : Nat) (key : String) : String := s!".{key}.{processId}.tmp"

def durabilityError (root stage reason : String) : DataStoreError :=
  ⟨.durabilityCommitFailed, "durability_commit_failed",
    .obj [("root", .str root), ("stage", .str stage), ("reason", .str reason)]⟩

namespace OpenStore

variable {ν : Type} (S : MaintenanceSerde ν) (C : Crypto)

def change (fail : String → DataStoreError) (f : FileTree Place → Except String (FileTree Place)) :
    Program (FileTree Place) DataStoreError Unit :=
  act fun t => match f t with
    | .ok t' => (.ok (), t')
    | .error reason => (.error (fail reason), t)

/-- The file that is to be replaced, if it exists. -/
def existingEnvelope (key : String) : Program (FileTree Place) DataStoreError (Option Bytes) := do
  let found ← act fun t => (.ok (records t .root key).isSome, t)
  if found then do
    let bytes ← act fun t =>
      ((t.readFile .root (recordFile key)).mapError (ioError "read existing envelope"), t)
    pure (some bytes)
  else pure none

variable (root : StoreRoot)

def syncRoot : Program (FileTree Place) DataStoreError Unit :=
  act fun t => match t .root with
    | some _ => (.ok (), t)
    | none => (.error (durabilityError root.path "parent_directory" notFound), t)

/-- Creating, writing and syncing the temporary file go through one handle, so it makes no
difference what happens to the directory between them. -/
def commitRecord (key : String) (text : Bytes) :
    Program (FileTree Place) DataStoreError Unit := do
  change (ioError "create temporary state record") fun t =>
    t.putFile .root (temporaryPathForKey root.processId key) text
  change (ioError "atomically commit state record") fun t =>
    t.renameFile .root (temporaryPathForKey root.processId key) (recordFile key)
  syncRoot root

def discardTemporaryRecord (key : String) :
    Program (FileTree Place) DataStoreError Unit :=
  (change (ioError "discard") fun t =>
    t.removeFile .root (temporaryPathForKey root.processId key)).ignore

def writeRecord (s : OpenStore) (root : StoreRoot) (nonce : Bytes) (record : StateRecord ν) :
    Program (FileTree Place) DataStoreError Unit := do
  done (validateKey record.key)
  let existing ← existingEnvelope record.key
  let writeV2 ← done ((s.store fun _ => existing).ensureClassificationUnchanged S.toSerde C
    record.key)
  let envelope ← done ((s.store fun _ => existing).envelopeFor S.toSerde C nonce record)
  (commitRecord root record.key
    (LocalFileDataStore.envelopeText S.toSerde C writeV2 envelope)).handle
    fun result => do
      discardTemporaryRecord root record.key
      done result

/-- A file that is not there counts as removed. -/
def deleteRecord (key : String) :
    Program (FileTree Place) DataStoreError Unit := do
  done (validateKey key)
  let removed ← act fun t => match t.removeFile .root (recordFile key) with
    | .ok t' => (.ok true, t')
    | .error _ => (.ok false, t)
  if removed then syncRoot root else pure ()

end OpenStore

/-! ## Temporary files -/

theorem recordFile_ne_temporary (processId : Nat) (key other : String) :
    recordFile other ≠ temporaryPathForKey processId key := by
  intro h
  have hlast := congrArg (fun s : String => s.toList.getLast?) h
  simp [toList_recordFile, temporaryPathForKey, toString, List.getLast?_cons,
    List.getLast?_append] at hlast

theorem file_erase_temporary (d : Directory) (processId : Nat) (key : String) :
    file (d.erase (temporaryPathForKey processId key)) = d.file := by
  funext other
  simp only [file, getElem?_erase_string, recordFile_ne_temporary, if_false]

theorem records_update (t : FileTree Place) (p : Place) (folder : Folder) :
    records (update t p (some folder)) p = file folder.files := by
  funext key
  simp only [records, update_self, Option.bind_some]

variable {t t' : FileTree Place} {key : String} {ε : Type}

theorem records_removeFile_temporary {processId : Nat}
    (h : t.removeFile .root (temporaryPathForKey processId key) = .ok t') :
    records t' .root = records t .root := by
  unfold removeFile at h
  split at h
  · cases h
  next folder hfolder =>
  split at h
  · cases h
  cases h
  rw [records_update, records_of_some hfolder]
  exact file_erase_temporary _ _ _

theorem records_removeFile (h : t.removeFile .root (recordFile key) = .ok t') : (t' .root).isSome ∧
      records t' .root = update (records t .root) key none := by
  unfold removeFile at h
  split at h
  · cases h
  next folder hfolder =>
  split at h
  · cases h
  cases h
  refine ⟨by simp, ?_⟩
  rw [records_update, records_of_some hfolder]
  exact file_remove _ key

theorem records_of_removeFile_error {reason : String}
    (h : t.removeFile .root (recordFile key) = .error reason) : records t .root key = none := by
  unfold removeFile at h
  split at h
  · next hroot => simp only [records, hroot, Option.bind_none]
  next folder hfolder =>
  split at h
  · next hfile =>
    rw [records_of_some hfolder]
    exact hfile
  · cases h

theorem records_createDirAll (t : FileTree Place) (p : Place) :
    records (t.createDirAll p) p = records t p := by
  cases h : t p with
  | some folder => rw [createDirAll_of_some h]
  | none =>
    rw [createDirAll_of_none h, records_update]
    funext key
    simp [records, h, Folder.empty, file]

/-! ## What the calls do -/

section

variable (openFailed : String → ε) (lockFailed : TryLockError → ε) (holder : LockHolder)

theorem keeps_acquireRoot (files : String → Option Bytes) :
    (acquireRoot openFailed lockFailed holder).Keeps fun v => records v.tree .root = files := by
  refine .bind (.act fun v hv => ?_) fun _ => .bind (.act fun v hv => ?_) fun lock =>
    .bind (.act fun v hv => ?_) fun _ => .done
  · exact (records_createDirAll v.tree .root).trans hv
  · exact (records_openLock v .root .root).trans hv
  · cases hlocked : v.tryLock lock holder with
    | none => exact hv
    | some v' =>
      obtain ⟨-, rfl⟩ := Volume.tryLock_some hlocked
      exact hv

theorem ensures_acquireRoot : Ensures (fun _ => True) (acquireRoot openFailed lockFailed holder)
      (fun _ v => v.tree .root ≠ none) (fun _ => True) := by
  let Exists : Volume Place LockHolder → Prop := fun v => v.tree .root ≠ none
  refine Ensures.bind (Q := fun _ => Exists) (fun v _ => ?_) fun _ => Ensures.bind
    (Q := fun _ => Exists) (fun v hv => ?_) fun lock => Ensures.bind (Q := fun _ => Exists)
    (fun v hv => ?_) fun _ _ hv => hv
  · show v.tree.createDirAll .root .root ≠ none
    cases h : v.tree .root with
    | none => simp [createDirAll_of_none h]
    | some folder => simp [createDirAll_of_some h, h]
  · show Outcome _ _ ((v.openLock .root).1.mapError openFailed, (v.openLock .root).2)
    rcases v.openLock_cases .root with ⟨-, h⟩ | ⟨folder, -, ⟨lock, -, h⟩ | ⟨-, h⟩⟩
    · rw [h]
      trivial
    · rw [h]
      exact hv
    · rw [h]
      show update v.tree .root _ .root ≠ none
      exact Option.some_ne_none _
  · show Outcome _ _ (match v.tryLock lock holder with
      | some v' => (.ok (), v')
      | none => (.error (lockFailed .wouldBlock), v))
    cases hlocked : v.tryLock lock holder with
    | none => trivial
    | some v' =>
      obtain ⟨-, rfl⟩ := Volume.tryLock_some hlocked
      exact hv

end

namespace OpenStore

variable {ν : Type} (S : MaintenanceSerde ν) (C : Crypto) {T : FileTree Place}

variable {E : FileTree Place → Prop} {fail : String → DataStoreError}
  {f : FileTree Place → Except String (FileTree Place)}

theorem ensures_change {P Q : FileTree Place → Prop} (hok : ∀ t t', P t → f t = .ok t' → Q t')
    (herror : ∀ t reason, P t → f t = .error reason → E t) :
    Ensures P (change fail f) (fun _ => Q) E := by
  intro t ht
  show Outcome _ _ (match f t with
    | .ok t' => (.ok (), t')
    | .error reason => (.error (fail reason), t))
  cases hf : f t with
  | ok t' => exact hok t t' ht hf
  | error reason => exact herror t reason ht hf

def Prepared (T : FileTree Place) (temporary : String) (text : Bytes) (t : FileTree Place) : Prop :=
  ∃ folder, t .root = some folder ∧ folder.files[temporary]? = some text ∧
    file folder.files = records T .root

theorem ensures_commitRecord (root : StoreRoot) (key : String) (text : Bytes) :
    Ensures (· = T) (commitRecord root key text)
      (fun _ t => records t .root = update (records T .root) key (some text))
      (fun t => records t .root = records T .root ∧ T .root = none) := by
  refine Ensures.bind (Q := fun _ => Prepared T (temporaryPathForKey root.processId key) text)
    (ensures_change (fun t t' ht hput => ?_) fun t reason ht hput => ?_) fun _ => Ensures.bind
    (Q := fun _ t => (t .root).isSome ∧
      records t .root = update (records T .root) key (some text))
    (ensures_change (fun t t' ht hrename => ?_) fun t reason ht hrename => ?_) fun _ t ht => ?_
  · subst ht
    unfold putFile at hput
    split at hput
    · cases hput
    next folder hfolder =>
    cases hput
    refine ⟨_, update_self _ _ _, ?_, ?_⟩
    · rw [getElem?_insert_string, if_pos rfl]
    · rw [records_of_some hfolder]
      funext other
      simp only [file, getElem?_insert_string, recordFile_ne_temporary, if_false]
  · subst ht
    unfold putFile at hput
    split at hput
    next hnone => exact ⟨rfl, hnone⟩
    · cases hput
  · obtain ⟨folder, hfolder, htemporary, hfiles⟩ := ht
    simp only [renameFile, hfolder, htemporary] at hrename
    cases hrename
    refine ⟨by simp, ?_⟩
    rw [records_update, ← hfiles]
    exact (file_put _ key text).trans
      (congrArg (update · key (some text)) (file_erase_temporary _ _ _))
  · obtain ⟨folder, hfolder, htemporary, -⟩ := ht
    simp only [renameFile, hfolder, htemporary] at hrename
    cases hrename
  · obtain ⟨folder, hfolder⟩ := Option.isSome_iff_exists.1 ht.1
    show Outcome _ _ (match t .root with
      | some _ => (.ok (), t)
      | none => (.error (durabilityError root.path "parent_directory" notFound), t))
    rw [hfolder]
    exact ht.2

theorem ensures_discardTemporaryRecord (root : StoreRoot) (key : String)
    (files : String → Option Bytes) :
    Ensures (fun t => records t .root = files) (discardTemporaryRecord root key)
      (fun _ t => records t .root = files) E :=
  Ensures.ignore (ensures_change
    (fun _ _ ht hremove => (records_removeFile_temporary hremove).trans ht) fun _ _ ht _ => ht)

theorem ensures_existingEnvelope (key : String) :
    Ensures (· = T) (existingEnvelope key)
      (fun existing t => t = T ∧ existing = records T .root key)
      (fun _ => False) := by
  rintro t rfl
  cases hrecord : records t .root key with
  | none =>
    show Outcome _ _ (Program.run (ite _ _ _) t)
    rw [if_neg (by simp [hrecord])]
    exact ⟨rfl, rfl⟩
  | some bytes =>
    show Outcome _ _ (Program.run (ite _ _ _) t)
    rw [if_pos (by simp [hrecord])]
    show Outcome _ _ (Program.run (andThen _ ((t.readFile .root (recordFile key)).mapError _)) t)
    rw [LocalFileDataStoreMaintenance.readFile_recordFile.2 hrecord]
    exact ⟨rfl, rfl⟩

/-- The calls of a write have the effect of `LocalFileDataStore.write` on the record files. -/
theorem ensures_writeRecord (s : OpenStore) (root : StoreRoot) (nonce : Bytes)
    (record : StateRecord ν) :
    Ensures (· = T) (s.writeRecord S C root nonce record)
      (fun _ t =>
        ∃ store', (s.store (records T .root)).write S.toSerde C nonce record = .ok store' ∧
        records t .root = store'.files)
      (fun t => records t .root = records T .root) := by
  have hsame : ∀ t, t = T → records t .root = records T .root := fun t ht => by rw [ht]
  refine (Ensures.done hsame).bind fun _ => .of_and fun hkey =>
    ((ensures_existingEnvelope record.key).fail fun _ h => h.elim).bind
    fun existing => .of_and ?_
  rintro rfl
  refine (Ensures.done hsame).bind fun writeV2 => .of_and fun hunchanged =>
    (Ensures.done hsame).bind fun envelope => .of_and fun henvelope => ?_
  refine ((ensures_commitRecord root record.key _).fail
    fun _ h => h.1).handle (fun _ => ?_) fun e => ?_
  · refine (ensures_discardTemporaryRecord root record.key _).bind fun _ t ht =>
      ⟨{ s.store (records T .root) with files := _ }, ?_, ht⟩
    have hunchanged' : (s.store (records T .root)).ensureClassificationUnchanged S.toSerde C
        record.key = .ok writeV2 := hunchanged
    have henvelope' : (s.store (records T .root)).envelopeFor S.toSerde C nonce record =
        .ok envelope := henvelope
    simp only [LocalFileDataStore.write, hkey, hunchanged', henvelope', bind, Except.bind]
    rfl
  · exact (ensures_discardTemporaryRecord root record.key _).bind fun _ _ ht => ht

/-- A write touches the files of one directory. -/
structure SameLocks (T t : FileTree Place) : Prop where
  root : (t .root).map Folder.lock = (T .root).map Folder.lock
  siblings : ∀ name, t (.sibling name) = T (.sibling name)

theorem SameLocks.refl (T : FileTree Place) : SameLocks T T := ⟨rfl, fun _ => rfl⟩

theorem SameLocks.update (h : SameLocks T t) {folder : Folder} (hfolder : t .root = some folder)
    (files : Directory) : SameLocks T (update t .root (some { folder with files })) := by
  refine ⟨?_, fun name => ?_⟩
  · rw [update_self, ← h.root, hfolder]
    rfl
  · rw [update_of_ne (by simp)]
    exact h.siblings name

theorem keeps_change
    (h : ∀ t t', f t = .ok t' → ∃ folder files, t .root = some folder ∧
      t' = update t .root (some { folder with files })) :
    (change fail f).Keeps (SameLocks T) := by
  refine .act fun t ht => ?_
  cases hf : f t with
  | error reason => exact ht
  | ok t' =>
    obtain ⟨folder, files, hfolder, rfl⟩ := h t t' hf
    exact ht.update hfolder files

theorem keeps_writeRecord (s : OpenStore) (root : StoreRoot) (nonce : Bytes)
    (record : StateRecord ν) : (s.writeRecord S C root nonce record).Keeps (SameLocks T) := by
  have hexisting : (existingEnvelope record.key).Keeps (SameLocks T) := by
    refine .bind (.act fun t ht => ht) fun found => ?_
    cases found with
    | false => exact .done
    | true => exact .bind (.act fun t ht => ht) fun _ => .done
  refine .bind .done fun _ => .bind hexisting fun _ => .bind .done fun _ => .bind .done fun _ =>
    .handle (.bind (keeps_change fun t t' hput => ?_) fun _ =>
      .bind (keeps_change fun t t' hrename => ?_) fun _ => .act fun t ht => ?_)
    fun _ => .bind (.ignore (keeps_change fun t t' hremove => ?_)) fun _ => .done
  · unfold putFile at hput
    split at hput
    · cases hput
    next folder hfolder =>
    cases hput
    exact ⟨folder, _, hfolder, rfl⟩
  · unfold renameFile at hrename
    split at hrename
    · cases hrename
    next folder hfolder =>
    split at hrename
    · cases hrename
    cases hrename
    exact ⟨folder, _, hfolder, rfl⟩
  · split
    · exact ht
    · exact ht
  · unfold removeFile at hremove
    split at hremove
    · cases hremove
    next folder hfolder =>
    split at hremove
    · cases hremove
    cases hremove
    exact ⟨folder, _, hfolder, rfl⟩

theorem ensures_deleteRecord (root : StoreRoot) (key : String) :
    Ensures (· = T) (deleteRecord root key)
      (fun _ t => validateKey key = .ok () ∧
        records t .root = update (records T .root) key none)
      (fun t => records t .root = records T .root) := by
  refine (Ensures.done fun t ht => by rw [ht]).bind fun _ => .of_and fun hkey => Ensures.bind
    (Q := fun removed t => records t .root = update (records T .root) key none ∧
      (removed = true → (t .root).isSome)) (fun t ht => ?_) fun removed t ht => ?_
  · subst ht
    show Outcome _ _ (match t.removeFile .root (recordFile key) with
      | .ok t' => (.ok true, t')
      | .error _ => (.ok false, t))
    cases hremove : t.removeFile .root (recordFile key) with
    | ok t' =>
      obtain ⟨hroot, hrecords⟩ := records_removeFile hremove
      exact ⟨hrecords, fun _ => hroot⟩
    | error reason =>
      have hnone : records t .root key = none := records_of_removeFile_error hremove
      refine ⟨?_, fun h => (by cases h)⟩
      rw [← hnone, update_eq_self]
  · cases removed with
    | false => exact ⟨hkey, ht.1⟩
    | true =>
      obtain ⟨folder, hfolder⟩ := Option.isSome_iff_exists.1 (ht.2 rfl)
      show Outcome _ _ (match t .root with
        | some _ => (.ok (), t)
        | none => (.error (durabilityError root.path "parent_directory" notFound), t))
      rw [hfolder]
      exact ⟨hkey, ht.1⟩

end OpenStore

end Traverse.Storage

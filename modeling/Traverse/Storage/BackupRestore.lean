import Mathlib.Data.List.Perm.Subperm
import Traverse.Storage.Backup

/-!
# Storage.BackupRestore

Backup of a store, and restoring the archive somewhere else, when no file-system call fails. For a
root of version one a backup succeeds exactly if nothing is too large for the verification, and the
archive restores the same records (`backup_restores`). A file of version two makes it fail
(`backup_refused`). What can be backed up can be migrated (`migrate_succeeds`). What is restored of
any archive is in `restore_installs_iff`.
-/

namespace Traverse.Storage

open Lines Program LocalFileDataStore List Function LocalRun Directory Machine

variable {ν : Type} {S : MaintenanceSerde ν} {C : Crypto}

/-! ## Backup and restore -/

open LocalFileDataStoreMaintenance

variable {v : Volume Place LockHolder} {lockFile : LockFile} {folder : Folder}

theorem exists_root_of_openRoot {v' : Volume Place LockHolder} {number : Nat}
    (h : (openRoot number).run v = (.ok lockFile, v')) : ∃ folder, v'.tree .root = some folder :=
  Option.ne_none_iff_exists'.1 ((ensures_acquireRoot _ _ _).of_ok trivial h)

/-- The maintenance of a root that has just been opened. -/
def openedAt (v : Volume Place LockHolder) (archives : ArchivePath → Option ZipFile)
    (lockFile : LockFile) : LocalFileDataStoreMaintenance :=
  ⟨v, archives, lockFile, 1, none⟩

variable {K : Option (String × Bytes) → Prop} {last : String → Option (StateRecord ν)}
  {d : Directory} {asOf : String} {instant : Int}

/-- The archive of a store restores the records wherever a root can be opened. -/
theorem restore_archived {members : List BackupMember} (hholds : Holds S C K last d.file)
    (hmembers : backupMembers S C d = .ok members) (hfits : Fits S C asOf d)
    {target : Volume Place LockHolder} (hopen : (openRoot 0).run target = (.ok lockFile, v))
    {archives : ArchivePath → Option ZipFile} {archive : String}
    (harchive : archives (.file archive) = some (.members
      (zipMembers (S.manifest (backupManifest C asOf members)) members)))
    (root : StoreRoot) {restoredAsOf : String}
    (hasOf : S.instant restoredAsOf = .ok instant) :
    ∃ evidence m folder, (LocalFileDataStoreMaintenance.restore S C root archive restoredAsOf).run
        (openedAt v archives lockFile) = (.ok evidence, m) ∧ m.volume.tree .root = some folder ∧
      ∀ key, key ≠ "" → file folder.files key = d.file key := by
  have harchived := Archived.of_backupMembers hholds hmembers
  have hsound : ∀ member ∈ members, member.Sound S C := fun member hmem =>
    harchived.sound member hmem (hfits.records _ _
      (mem_recordKeys.1 ((harchived.keys _).2 ⟨member, hmem, rfl⟩)).1
      (harchived.file member hmem))
  have hverify := verifyArchive_zipMembers asOf harchived.sorted harchived.nodup hsound
    (hfits.manifest members hmembers)
  have hdeclares := (verifyArchive_ok hverify).2
  have hcases := extractedFiles_cases S C hdeclares
  have hinstalls : Installs S C (archives (.file archive))
      (zipMembers (S.manifest (backupManifest C asOf members)) members)
      (backupManifest C asOf members) := by
    refine ⟨⟨harchive, hverify⟩, fun entry hentry => ?_, fun key bytes _ hkey => ?_⟩
    · obtain ⟨bytes, hbytes, hsize, -⟩ := hdeclares entry hentry
      obtain ⟨member, hmem, rfl⟩ := mem_map.1 hentry
      exact ⟨(hsound member hmem).key, bytes, hbytes, hsize⟩
    rcases hcases key with ⟨hnone, -⟩ | ⟨_, -, -, _, ⟨-, -, envelope, hparse, -⟩, hsome⟩
    · cases hnone.symm.trans hkey
    cases hsome.symm.trans hkey
    exact ⟨envelope, hparse⟩
  obtain ⟨evidence, m, hrun, _, _, hinstalled, -, hroot, hrecords⟩ :=
    ((ensures_restore S C (openedAt v archives lockFile) (J := (· = none)) (by rintro _ _ ⟨⟩) rfl
      root fun _ : True => ⟨by rintro _ rfl _ ⟨⟩, _, _, exists_root_of_openRoot hopen,
        ⟨instant, hasOf⟩, hinstalls⟩).fail fun _ h => h.elim (fun h => h.2 trivial)
      fun h => h.1 (by rintro _ rfl _ ⟨⟩)).succeeds ⟨.refl _, rfl, rfl⟩
  obtain ⟨rfl, rfl⟩ := hinstalls.verified.unique S C hinstalled.verified
  obtain ⟨folder, hfolder⟩ := Option.ne_none_iff_exists'.1 hroot
  refine ⟨evidence, m, folder, hrun, hfolder, fun key hne => ?_⟩
  have hfile : file folder.files key = m.rootRecords key :=
    (congrFun (records_of_some hfolder) key).symm
  rw [hfile, hrecords]
  rcases hcases key with ⟨hnone, hall⟩ | ⟨entry, hentry, rfl, found, ⟨hfound, -⟩, hsome⟩
  · refine hnone.trans (by_contra fun hsome => ?_)
    obtain ⟨member, hmem, hkey⟩ := (harchived.keys key).1 (mem_recordKeys.2 ⟨hne, Ne.symm hsome⟩)
    exact hall member.entry (mem_map_of_mem hmem) hkey
  · obtain ⟨member, hmem, rfl⟩ := mem_map.1 hentry
    obtain ⟨hpath, hname⟩ := harchived.paths member hmem
    rw [hpath, zipMembers_path _ harchived.nodup hmem hname] at hfound
    cases hfound
    rw [hsome, harchived.file member hmem]

/-- If a restore succeeds, there is a file for every key of the manifest, and each has an envelope
with its key. There are as many as the manifest says, each with the bytes of its entry, exactly if
no two entries have one key. -/
theorem restore_installs_iff (S : MaintenanceSerde ν) (C : Crypto)
    {m₀ m : LocalFileDataStoreMaintenance} {root : StoreRoot} {archive asOf : String}
    {evidence : MaintenanceEvidence}
    (h : (LocalFileDataStoreMaintenance.restore S C root archive asOf).run m₀ = (.ok evidence, m)) :
    ∃ byName manifest folder, m₀.archives (.file archive) = some (.members byName) ∧
      verifyArchive S C byName = .ok manifest ∧ m.volume.tree .root = some folder ∧
      (∀ key, key ∈ recordKeys folder.files ↔ ∃ entry ∈ manifest.records, entry.key = key) ∧
      (∀ key bytes, key ≠ "" → file folder.files key = some bytes → ∃ envelope,
        parseEnvelopeBytes S C bytes = .ok envelope ∧ envelopeRecordKey envelope = .ok key) ∧
      (((recordKeys folder.files).length = evidence.recordCount ∧ ∀ entry ∈ manifest.records,
          byName entry.memberPath = (file folder.files entry.key).map .ok) ↔
        (manifest.records.map (·.key)).Nodup) := by
  obtain ⟨byName, manifest, hinstalls, hcount, hroot, hrecords⟩ := (ensures_restore S C m₀
    (J := fun _ => True) (fun _ _ _ => trivial) trivial root False.elim).of_ok
      ⟨.refl m₀, trivial, rfl⟩ h
  obtain ⟨harchive, hverify⟩ := hinstalls.verified
  obtain ⟨hlength, hdeclares⟩ := verifyArchive_ok hverify
  obtain ⟨folder, hfolder⟩ := Option.ne_none_iff_exists'.1 hroot
  have hfile : file folder.files = extractedFiles byName manifest.records :=
    (records_of_some hfolder).symm.trans hrecords
  have hcases := extractedFiles_cases S C hdeclares
  have hkeys : ∀ key, key ∈ recordKeys folder.files ↔ key ∈ manifest.records.map (·.key) := by
    intro key
    rw [mem_recordKeys, hfile, mem_map]
    rcases hcases key with ⟨hnone, hall⟩ | ⟨entry, hentry, rfl, bytes, -, hsome⟩
    · simpa [hnone] using hall
    · have hne := ne_empty_of_validateKey (hinstalls.entries entry hentry).1
      simpa [hsome, hne] using ⟨entry, hentry, rfl⟩
  refine ⟨byName, manifest, folder, harchive, hverify, hfolder, fun key => ?_,
    fun key bytes _ hbytes => ?_, ?_⟩
  · rw [hkeys, mem_map]
  · rw [hfile] at hbytes
    rcases hcases key with ⟨hnone, -⟩ | ⟨entry, -, rfl, _, hfound, hsome⟩
    · cases hnone.symm.trans hbytes
    cases hsome.symm.trans hbytes
    exact hfound.2.2
  have hnodup : (recordKeys folder.files).Nodup := (recordKeys_sorted _).imp fun h => ne_of_lt h
  have hsize : evidence.recordCount = (manifest.records.map (·.key)).length := by
    rw [hcount, hlength, length_map]
  constructor
  · rintro ⟨hlen, -⟩
    exact ((hnodup.subperm fun key => (hkeys key).1).perm_of_length_le
      (hsize ▸ hlen.ge)).nodup_iff.1 hnodup
  · intro hunique
    refine ⟨(((perm_ext_iff_of_nodup hnodup hunique).2 hkeys).length_eq.trans hsize.symm),
      fun entry hentry => ?_⟩
    rcases hcases entry.key with ⟨-, hall⟩ | ⟨other, hother, hkey, bytes, hbytes, hsome⟩
    · exact absurd rfl (hall entry hentry)
    · rw [inj_on_of_nodup_map hunique hother hentry hkey] at hbytes
      rw [hbytes.1, hfile, hsome]
      rfl

variable {start s : LocalRun ν} {calls : List (LocalCall ν)}

theorem LocalRun.holds_of_run (hfresh : start.Fresh) (hrun : run (step S C) start calls = some s) :
    Holds S C (fun _ => True) s.last s.rootRecords := by
  refine holds_run trivial hfresh ⟨.of_forall (fun s call => ?_) start calls, hrun⟩
  unfold LocalRun.Trusted
  split
  · exact fun _ _ _ => trivial
  · trivial

theorem LocalRun.file_of_openRoot (hopen : (openRoot 0).run s.volume = (.ok lockFile, v))
    (hfolder : v.tree .root = some folder) : file folder.files = s.rootRecords := by
  rw [← records_of_some hfolder]
  exact records_openRoot hopen

theorem backup_isOk_iff (hholds : Holds S C K last (file folder.files)) (asOf : String)
    (hasOf : S.instant asOf = .ok instant) {members : List BackupMember}
    (hmembers : backupMembers S C folder.files = .ok members) {m : LocalFileDataStoreMaintenance}
    (hfault : m.fault = none) (hfolder : m.volume.tree .root = some folder) (destination : String) :
    ((backup S C destination asOf).run m).1.isOk ↔ Fits S C asOf folder.files := by
  obtain ⟨m', -, -, -, hbackup, -⟩ := backup_run destination asOf hfault hasOf hfolder hmembers
  rw [hbackup, fits_iff hholds hmembers asOf]
  cases verifyArchive S C (zipMembers (S.manifest (backupManifest C asOf members)) members) <;> rfl

/-- For a root of version one, however it was reached: a backup succeeds if and only if every record
and the manifest are within the limits of the verification, and then restoring the archive, into any
root that can be opened, gives every reader the records and the keys there were. -/
theorem backup_restores (S : MaintenanceSerde ν) (C : Crypto) (htag : C.Tagged)
    (hfresh : start.Fresh) (hrun : run (step S C) start calls = some s)
    (hv1 : ∀ key bytes, key ≠ "" → s.rootRecords key = some bytes → FormatV1 S bytes)
    (hopen : (openRoot 0).run s.volume = (.ok lockFile, v)) (destination : String)
    (hasOf : S.instant asOf = .ok instant) :
    ∃ folder, v.tree .root = some folder ∧
      (((backup S C destination asOf).run (openedAt v s.archives lockFile)).1.isOk ↔
        Fits S C asOf folder.files) ∧
      (Fits S C asOf folder.files → ∃ zip,
        ((backup S C destination asOf).run (openedAt v s.archives lockFile)).2.archives
          (.file destination) = some zip ∧
        ∀ (target v' : Volume Place LockHolder) (lockFile' : LockFile)
          (archives : ArchivePath → Option ZipFile) (archive : String) (root : StoreRoot)
          (asOf' : String) (instant' : Int), (openRoot 0).run target = (.ok lockFile', v') →
          archives (.file archive) = some zip → S.instant asOf' = .ok instant' →
          ∃ evidence m folder', (LocalFileDataStoreMaintenance.restore S C root archive asOf').run
              (openedAt v' archives lockFile') = (.ok evidence, m) ∧
            m.volume.tree .root = some folder' ∧
            recordKeys folder'.files = recordKeys folder.files ∧
            ∀ (reader : OpenStore) key, (reader.store m.rootRecords).read S.toSerde C key =
              (reader.store s.rootRecords).read S.toSerde C key) := by
  have hholds := holds_of_run hfresh hrun
  obtain ⟨folder, hfolder⟩ := exists_root_of_openRoot hopen
  have hfile := file_of_openRoot hopen hfolder
  rw [← hfile] at hholds
  obtain ⟨members, hmembers⟩ := exists_backupMembers hholds htag fun key bytes hne h =>
    hv1 key bytes hne (by rw [← hfile]; exact h)
  refine ⟨folder, hfolder, backup_isOk_iff hholds asOf hasOf hmembers rfl hfolder destination,
    fun h => ?_⟩
  obtain ⟨m, -, -, -, hbackup, harchive⟩ := backup_run destination asOf
    (m := openedAt v s.archives lockFile) rfl hasOf hfolder hmembers
  rw [hbackup]
  refine ⟨_, harchive ((fits_iff hholds hmembers asOf).1 h), ?_⟩
  intro target v' lockFile' archives archive root asOf' instant' hopen' harchived hasOf'
  obtain ⟨evidence, m', folder', hrestore, hfolder', hsame⟩ :=
    restore_archived hholds hmembers h hopen' harchived root hasOf'
  refine ⟨evidence, m', folder', hrestore, hfolder', recordKeys_eq hsame,
    fun reader key => ?_⟩
  by_cases hne : key = ""
  · subst hne
    rfl
  have hroot : m'.rootRecords key = file folder'.files key :=
    congrFun (records_of_some hfolder') key
  simp only [LocalFileDataStore.read, OpenStore.store, hroot, hsame key hne, hfile]
  rfl

/-! ## One record -/

def tagged : Crypto where
  sha256 := fun _ => List.replicate 32 0
  encrypt := fun _ _ aad plaintext => List.replicate 16 0 ++ (aad ++ plaintext)
  decrypt := fun _ _ aad ciphertext =>
    if (ciphertext.drop 16).take aad.length = aad then
      some ((ciphertext.drop 16).drop aad.length)
    else none
  decrypt_encrypt := by simp

theorem tagged_tagged : tagged.Tagged := by
  intro key nonce aad plaintext
  simp [tagged]

theorem emptyDisk_fresh : emptyDisk.Fresh := ⟨fun _ => rfl, fun _ _ => rfl⟩

def readyRecord (key : String) : StateRecord Json.Value := ⟨key, .str "ready", 1, "writer-a"⟩

def readyCalls : List (LocalCall Json.Value) :=
  [.openStore .publicData, .write none none ⟨"store", 1⟩ zeroNonce (readyRecord "a"), .close]

/-- A store of one record, with what the results about backups and migrations ask for. -/
theorem exists_ready : ∃ s, run (step jsonMaintenanceSerde tagged) emptyDisk readyCalls = some s ∧
    ∃ v lockFile folder, (openRoot 0).run s.volume = (.ok lockFile, v) ∧
      v.tree .root = some folder ∧
      (∀ key bytes, key ≠ "" → s.rootRecords key = some bytes →
        FormatV1 jsonMaintenanceSerde bytes) ∧
      Fits jsonMaintenanceSerde tagged "2026-01-01T00:00:00Z" folder.files := by
  refine exists_run (P := fun _ _ => True) (D := fun s => ∃ lockFile,
      ((openRoot 0).run s.volume).1 = .ok lockFile ∧ ∃ folder,
      ((openRoot 0).run s.volume).2.tree .root = some folder ∧
      (∀ key ∈ recordKeys folder.files, ∀ bytes, file folder.files key = some bytes →
        FormatV1 jsonMaintenanceSerde bytes ∧ bytes.length ≤ maxBackupMemberBytes) ∧
      ∀ members, backupMembers jsonMaintenanceSerde tagged folder.files = .ok members →
        (jsonMaintenanceSerde.manifest (backupManifest tagged "2026-01-01T00:00:00Z"
          members)).length ≤ maxBackupManifestBytes)
    (by rw [jsonMaintenanceSerde_eq]; decide +kernel) ?_
  rintro s - ⟨lockFile, hlock, folder, hfolder, hfiles, hmanifest⟩
  have hopen : (openRoot 0).run s.volume = (.ok lockFile, _) := Prod.ext hlock rfl
  have hrecords : ∀ key bytes, key ≠ "" → file folder.files key = some bytes → _ :=
    fun key bytes hne hfile => hfiles key (mem_recordKeys.2 ⟨hne, by simp [hfile]⟩) bytes hfile
  refine ⟨_, lockFile, folder, hopen, hfolder, ?_,
    fun key bytes hne hfile => (hrecords key bytes hne hfile).2, hmanifest⟩
  rw [← file_of_openRoot hopen hfolder]
  exact fun key bytes hne hfile => (hrecords key bytes hne hfile).1

theorem backup_restores_ready : ∃ s v lockFile,
    run (step jsonMaintenanceSerde tagged) emptyDisk readyCalls = some s ∧
    (openRoot 0).run s.volume = (.ok lockFile, v) ∧
    ((backup jsonMaintenanceSerde tagged "backup.zip" "2026-01-01T00:00:00Z").run
      (openedAt v s.archives lockFile)).1.isOk := by
  obtain ⟨s, hrun, v, lockFile, folder, hopen, hfolder, hv1, hfits⟩ := exists_ready
  obtain ⟨folder', hfolder', hiff, -⟩ := backup_restores jsonMaintenanceSerde tagged tagged_tagged
    emptyDisk_fresh hrun hv1 hopen "backup.zip"
    (show jsonMaintenanceSerde.instant "2026-01-01T00:00:00Z" = .ok 0 from rfl)
  cases hfolder.symm.trans hfolder'
  exact ⟨s, v, lockFile, hrun, hopen, hiff.2 hfits⟩

/-! ## Migration -/

theorem readableV1_of_holds (hholds : Holds S C K last d.file) (htag : C.Tagged)
    (hv1 : ∀ key bytes, key ≠ "" → d.file key = some bytes → FormatV1 S bytes) :
    ReadableV1 S C d := by
  intro key hlisted
  obtain ⟨record, hlast⟩ := Option.ne_none_iff_exists'.1 ((hholds.mem_recordKeys key).1 hlisted)
  obtain ⟨-, hkey, envelope, secret, hseals, hfile⟩ := sealed_of_formatV1 hholds hv1 hlast
  exact ⟨hkey, envelope, hfile, parseEnvelopeBytes_sealed htag hseals⟩

/-- A root of version one, however it was reached, can be migrated if it has a parent directory and
can be backed up to a place outside it: every record then has version two, and none is lost. -/
theorem migrate_succeeds (htag : C.Tagged) (hfresh : start.Fresh)
    (hrun : run (step S C) start calls = some s)
    (hv1 : ∀ key bytes, key ≠ "" → s.rootRecords key = some bytes → FormatV1 S bytes)
    (hopen : (openRoot 0).run s.volume = (.ok lockFile, v)) (hfolder : v.tree .root = some folder)
    (hasOf : S.instant asOf = .ok instant) (hfits : Fits S C asOf folder.files)
    (root : StoreRoot) (destination : String) :
    ∃ report m, (migrateIn S C (some root) destination asOf).run
        (openedAt v s.archives lockFile) = (.ok report, m) ∧
      Converts S C s.rootRecords m.rootRecords ∧
      Holds S C (fun _ => True) s.last m.rootRecords := by
  have hheld := holds_of_run hfresh hrun
  have hfile := file_of_openRoot hopen hfolder
  have hroot : (openedAt v s.archives lockFile).rootRecords = s.rootRecords :=
    (records_of_some hfolder).trans hfile
  have hholds := hfile ▸ hheld
  rw [← hfile] at hv1
  obtain ⟨members, hmembers⟩ := exists_backupMembers hholds htag hv1
  have hverify := (fits_iff hholds hmembers asOf).1 hfits
  refine ((ensures_migration S C (J := (· = none)) (by rintro _ _ ⟨⟩) rfl root
    (fun _ : True => ⟨by simp, ⟨instant, hasOf⟩, folder, hfolder,
      readableV1_of_holds hholds htag hv1⟩) fun _ m hsame hnone => ?_).imp (fun _ h => h)
    (fun _ m h => ⟨hroot ▸ h, hheld.converts (hroot ▸ h)⟩) fun _ h => h.2 trivial).succeeds
      ⟨.refl (openedAt v s.archives lockFile), rfl, trivial⟩
  obtain ⟨m', -, -, -, hbackup, -⟩ := backup_run (S := S) (C := C) destination asOf hnone hasOf
    (hsame.root.trans hfolder) hmembers
  rw [hbackup]
  cases hresult : verifyArchive S C
      (zipMembers (S.manifest (backupManifest C asOf members)) members) with
  | ok manifest => exact ⟨_, _, m', rfl, rfl⟩
  | error e =>
    rw [hresult] at hverify
    cases hverify

theorem migrate_succeeds_ready : ∃ s v lockFile report m,
    run (step jsonMaintenanceSerde tagged) emptyDisk readyCalls = some s ∧
    (openRoot 0).run s.volume = (.ok lockFile, v) ∧
    (migrateIn jsonMaintenanceSerde tagged (some ⟨"store", 1⟩) "backup.zip"
      "2026-01-01T00:00:00Z").run (openedAt v s.archives lockFile) = (.ok report, m) := by
  obtain ⟨s, hrun, v, lockFile, folder, hopen, hfolder, hv1, hfits⟩ := exists_ready
  obtain ⟨report, m, hmigrate, -⟩ := migrate_succeeds tagged_tagged emptyDisk_fresh hrun hv1 hopen
    hfolder (show jsonMaintenanceSerde.instant _ = .ok 0 from rfl) hfits ⟨"store", 1⟩ "backup.zip"
  exact ⟨s, v, lockFile, report, m, hrun, hopen, hmigrate⟩

/-! ## Restoring -/

/-- A store with a record `b`, and an archive that has `n` entries for `a`. -/
def copies (n : Nat) : LocalFileDataStoreMaintenance :=
  let bytes := jsonMaintenanceSerde.envelope
    (publicEnvelopeOf jsonMaintenanceSerde.toSerde tagged none (readyRecord "a"))
  let members := replicate n
    ⟨"records/a.json", bytes, ⟨"a", .publicData, digestBytes tagged bytes, "records/a.json"⟩⟩
  { liveStore ((∅ : Directory).put "b" bytes) none with
    archives := fun _ => some (.members
      (zipMembers (jsonMaintenanceSerde.manifest (backupManifest tagged "" members)) members)) }

def restoreCopies (n : Nat) :
    Except MaintenanceError MaintenanceEvidence × LocalFileDataStoreMaintenance :=
  (LocalFileDataStoreMaintenance.restore jsonMaintenanceSerde tagged ⟨"store", 1⟩ "" "").run
    (copies n)

theorem restore_installs_iff_once : ∃ evidence folder, (restoreCopies 1).1 = .ok evidence ∧
    (restoreCopies 1).2.volume.tree .root = some folder ∧
    (∀ key, key ∈ recordKeys folder.files ↔ key = "a") ∧
    (recordKeys folder.files).length = evidence.recordCount := by
  obtain ⟨evidence, hok, -⟩ : ∃ evidence, (restoreCopies 1).1 = .ok evidence ∧ True := by
    simp only [restoreCopies, copies, liveStore, jsonMaintenanceSerde_eq]
    decide +kernel
  rcases hrun : restoreCopies 1 with ⟨_, m⟩
  rw [hrun] at hok
  cases hok
  rw [restoreCopies] at hrun
  obtain ⟨byName, manifest, folder, ⟨⟩, hverify, hfolder, hmem, -, hiff⟩ :=
    restore_installs_iff jsonMaintenanceSerde tagged hrun
  have hkeys : manifest.records.map (·.key) = ["a"] := by
    clear hmem hiff
    revert manifest
    rw [jsonMaintenanceSerde_eq]
    decide +kernel
  refine ⟨evidence, folder, rfl, hfolder, fun key => ?_, (hiff.2 (hkeys ▸ nodup_singleton "a")).1⟩
  rw [hmem, ← mem_singleton, ← hkeys, mem_map]

/-- Two entries with one key are counted as two records. -/
theorem restored_once : ∃ evidence, (restoreCopies 2).1 = .ok evidence ∧ evidence.recordCount = 2 ∧
    ∃ folder, (restoreCopies 2).2.volume.tree .root = some folder ∧
      recordKeys folder.files = ["a"] := by
  simp only [restoreCopies, copies, liveStore, jsonMaintenanceSerde_eq]
  decide +kernel

/-! ## What cannot be backed up -/

/-- After a migration no record can be backed up, of any size. -/
theorem backup_refused :
    ∃ (s : LocalRun Json.Value) (v : Volume Place LockHolder) (lockFile : LockFile)
      (report : MigrationReport) (m : LocalFileDataStoreMaintenance),
      run (step jsonMaintenanceSerde tagged) emptyDisk readyCalls = some s ∧
      (openRoot 0).run s.volume = (.ok lockFile, v) ∧
      (migrateV1ToV2 jsonMaintenanceSerde tagged ⟨"store", 1⟩ "before.zip"
        "2026-01-01T00:00:00Z").run (openedAt v s.archives lockFile) = (.ok report, m) ∧
      ((backup jsonMaintenanceSerde tagged "backup.zip" "2026-01-01T00:00:00Z").run
        (openedAt m.volume m.archives m.lockFile)).1.isOk = false := by
  simp only [exists_and_left]
  refine exists_run (P := fun _ _ => True) (D := fun s =>
      ∃ lockFile, ((openRoot 0).run s.volume).1 = .ok lockFile ∧
      ∃ report, ((migrateV1ToV2 jsonMaintenanceSerde tagged ⟨"store", 1⟩ "before.zip"
        "2026-01-01T00:00:00Z").run
          (openedAt ((openRoot 0).run s.volume).2 s.archives lockFile)).1 = .ok report ∧
      let m := ((migrateV1ToV2 jsonMaintenanceSerde tagged ⟨"store", 1⟩ "before.zip"
        "2026-01-01T00:00:00Z").run (openedAt ((openRoot 0).run s.volume).2 s.archives lockFile)).2
      ((backup jsonMaintenanceSerde tagged "backup.zip" "2026-01-01T00:00:00Z").run
        (openedAt m.volume m.archives m.lockFile)).1.isOk = false)
    (by rw [jsonMaintenanceSerde_eq]; decide +kernel) ?_
  rintro s - ⟨lockFile, hlock, report, hmigrate, hbackup⟩
  exact ⟨_, lockFile, Prod.ext hlock rfl, report, _, Prod.ext hmigrate rfl, hbackup⟩

end Traverse.Storage

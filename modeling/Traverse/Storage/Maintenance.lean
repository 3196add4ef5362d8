import Mathlib.Data.List.Infix
import Traverse.Storage.Disk
import Traverse.Storage.Serialize

/-!
# Storage.Maintenance

Backup, restore and migration of a local store, by the host that owns it
(`data_store_maintenance.rs`). Restore and migration build a directory next to the root, check it,
and then swap it with the root: `replaceRoot` and `commitMigratedStoreRoot`, each with its own
reaction to a failure at each step.

Envelopes are checked by `parseEnvelopeBytes`, which is not the reader of the store: it needs no key
and takes version one only.
-/

namespace Traverse.Storage

open Lines

/-! ## Errors and reports -/

inductive MaintenanceErrorCode where
  | storeLocked
  | invalidRetentionPolicy
  | backupVerifyFailed
  | restoreVerifyFailed
  | unsupportedStoreFormat
  | maintenanceIoFailed
  deriving DecidableEq

structure MaintenanceError where
  code : MaintenanceErrorCode
  message : String
  details : Json.Value

inductive MigrationErrorCode where
  | transitionUnsupported
  | sourceInvalid
  | backupFailed
  | writeFailed
  | verificationFailed
  | commitFailed
  | restoreFailed
  | ownerLocked
  deriving DecidableEq

structure MigrationError where
  code : MigrationErrorCode
  message : String
  details : Json.Value

structure MaintenanceEvidence where
  (governingSpec outcome asOf : String)
  (attemptedCount removedCount retainedCount recordCount : Nat)
  archiveContentDigest : Option String
  failureCode : Option MaintenanceErrorCode
  failureReason : Option String

structure MigrationReport where
  (governingSpec sourceFormat targetFormat : String)
  recordCount : Nat
  (backupContentDigest outcome : String)

def maintenanceSpec : String := "083-datastore-retention-backup"

def migrationSpec : String := "092-datastore-v2-migration-ownership"

def backupManifestVersion : String := "1"

def backupManifestMember : String := "manifest.json"

def backupRecordsPrefix : String := "records/"

def maxBackupManifestBytes : Nat := 4 * 1024 * 1024

def maxBackupMemberBytes : Nat := 16 * 1024 * 1024

def maintenanceIo (operation reason : String) : MaintenanceError :=
  ⟨.maintenanceIoFailed, "maintenance_io_failed",
    .obj [("operation", .str operation), ("reason", .str reason)]⟩

def mapDataStoreError (e : DataStoreError) : MaintenanceError :=
  ⟨.maintenanceIoFailed, "maintenance_io_failed",
    .obj [("cause", .str e.message), ("details", e.details)]⟩

/-- The reason stands for the kind of an error, too. -/
def lockError : TryLockError → DataStoreError
  | .wouldBlock => ⟨.storeLocked, "store_locked", .obj [("reason", .str "exclusive_owner_active")]⟩
  | .error reason => ⟨.ioFailure, "storage_io_failed", .obj [("operation", .str "acquire_lock"),
      ("reason", .str (if reason = "unsupported" then "locking_unsupported"
        else "lock_acquisition_failed"))]⟩

def mapLockToMaintenance (e : DataStoreError) : MaintenanceError :=
  match e.code with
  | .storeLocked => ⟨.storeLocked, "store_locked", e.details⟩
  | _ => ⟨.maintenanceIoFailed, "maintenance_io_failed", e.details⟩

def restoreVerifyFailed (details : List (String × Json.Value)) : MaintenanceError :=
  ⟨.restoreVerifyFailed, "restore_verify_failed", .obj details⟩

def backupVerifyFailed (details : List (String × Json.Value)) : MaintenanceError :=
  ⟨.backupVerifyFailed, "backup_verify_failed", .obj details⟩

def unsupportedStoreFormat (details : List (String × Json.Value)) : MaintenanceError :=
  ⟨.unsupportedStoreFormat, "unsupported_store_format", .obj details⟩

def malformedEnvelopeError : MaintenanceError :=
  restoreVerifyFailed [("reason", .str "malformed_envelope")]

def migrationError (code : MigrationErrorCode) (message reason : String) : MigrationError :=
  ⟨code, message, .obj [("reason", .str reason)]⟩

def mapMigrationSourceError : MigrationError :=
  migrationError .sourceInvalid "datastore_source_invalid" "source_validation_failed"

def mapMigrationBackupError : MigrationError :=
  migrationError .backupFailed "datastore_backup_failed" "backup_verification_failed"

def mapMigrationWriteIo : MigrationError :=
  migrationError .writeFailed "datastore_write_failed" "candidate_write_failed"

def mapMigrationVerificationError : MigrationError :=
  migrationError .verificationFailed "datastore_verification_failed" "candidate_verification_failed"

def mapMigrationCommitError : MigrationError :=
  migrationError .commitFailed "datastore_commit_failed" "atomic_commit_failed"

/-! ## Envelopes -/

variable {ν : Type} (S : MaintenanceSerde ν) (C : Crypto)

def envelopeRecordKey (envelope : LocalDataStoreEnvelope ν) : Except MaintenanceError String :=
  match envelope.classification with
  | .publicData =>
    match envelope.record with
    | some record => .ok record.key
    | none => .error malformedEnvelopeError
  | .privateData =>
    match envelope.recordKey with
    | some key => .ok key
    | none => .error malformedEnvelopeError

/-- The digest that the envelope should have. -/
def expectedDigest (envelope : LocalDataStoreEnvelope ν) (key : String) :
    Except MaintenanceError String :=
  match envelope.classification with
  | .publicData =>
    if envelope.keyId.isSome ∨ envelope.recordKey.isSome ∨ envelope.nonce.isSome ∨
        envelope.ciphertext.isSome then
      .error malformedEnvelopeError
    else match envelope.record with
      | some record => .ok (digestForRecord S.toSerde C record)
      | none => .error malformedEnvelopeError
  | .privateData =>
    match envelope.record, envelope.keyId, envelope.nonce, envelope.ciphertext with
    | none, some keyId, some nonce, some ciphertext =>
      match hexDecode nonce, hexDecode ciphertext with
      | .ok nonceBytes, .ok ciphertextBytes =>
        if nonceBytes.length ≠ 12 ∨ ciphertextBytes.length < 16 then .error malformedEnvelopeError
        else .ok (digestForPrivateEnvelope C keyId key nonce ciphertext)
      | _, _ => .error malformedEnvelopeError
    | _, _, _, _ => .error malformedEnvelopeError

def parseEnvelopeBytes (bytes : Bytes) : Except MaintenanceError (LocalDataStoreEnvelope ν) :=
  match S.parse bytes with
  | none => .error malformedEnvelopeError
  | some doc =>
    match S.format doc with
    | none => .error (unsupportedStoreFormat [("reason", .str "legacy_unverified")])
    | some _ =>
      match S.toEnvelope doc with
      | none => .error malformedEnvelopeError
      | some envelope =>
        if envelope.format ≠ localDataStoreFormat then
          .error (unsupportedStoreFormat
            [("reason", .str "unknown_format_version"), ("format", .str envelope.format)])
        else do
          let key ← envelopeRecordKey envelope
          let expected ← expectedDigest S C envelope key
          if envelope.digest ≠ expected then
            .error (restoreVerifyFailed [("reason", .str "digest_mismatch"), ("key", .str key)])
          else .ok envelope

def parseAsOf (asOf : String) : Except MaintenanceError Int :=
  (S.instant asOf).mapError fun cause => ⟨.invalidRetentionPolicy, "invalid_retention_policy",
    .obj [("reason", .str "invalid_as_of"), ("cause", .str cause)]⟩

/-! ## Archives -/

structure BackupMember where
  path : String
  bytes : Bytes
  entry : BackupRecordIndexEntry

def archiveContentDigestFromMembers (members : List (String × Bytes)) : String :=
  digestBytes C (members.flatMap fun member => utf8 member.1 ++ [0] ++ member.2 ++ [0])

def sortByPath {α : Type} (path : α → String) (members : List α) : List α :=
  members.mergeSort fun a b => decide (path a ≤ path b)

def readZipMemberBounded (member : Except String Bytes) (maximumBytes : Nat) :
    Except String Bytes :=
  match member with
  | .error reason => .error reason
  | .ok bytes => if maximumBytes < bytes.length then .error "member_too_large" else .ok bytes

/-- `read_manifest_bytes_error` and `read_member_bytes_error`. -/
def readBytesError (reason cause : String) : MaintenanceError :=
  backupVerifyFailed [("reason", .str (if cause = "member_too_large" then cause else reason)),
    ("cause", .str cause)]

variable (byName : String → Option (Except String Bytes))

def readAndValidateManifestHeader :
    Except MaintenanceError BackupManifest := do
  let member ← match byName backupManifestMember with
    | some member => .ok member
    | none => .error (backupVerifyFailed [("reason", .str "missing_manifest")])
  let bytes ← (readZipMemberBounded member maxBackupManifestBytes).mapError
    (readBytesError "read_manifest")
  match S.toManifest bytes with
  | none => .error (backupVerifyFailed [("reason", .str "malformed_manifest")])
  | some manifest =>
    if manifest.manifestFormatVersion ≠ backupManifestVersion then
      .error (unsupportedStoreFormat [("reason", .str "unsupported_manifest_version"),
        ("version", .str manifest.manifestFormatVersion)])
    else if manifest.storeFormat ≠ localDataStoreFormat then
      .error (unsupportedStoreFormat [("reason", .str "unsupported_store_format"),
        ("format", .str manifest.storeFormat)])
    else .ok manifest

def verifyMemberPayload (entry : BackupRecordIndexEntry)
    : Except MaintenanceError (String × Bytes) := do
  if ¬ backupRecordsPrefix.toList <+: entry.memberPath.toList ∨
      "..".toList <:+: entry.memberPath.toList then
    .error (backupVerifyFailed
      [("reason", .str "invalid_member_path"), ("path", .str entry.memberPath)])
  else
    let member ← match byName entry.memberPath with
      | some member => .ok member
      | none => .error (backupVerifyFailed
        [("reason", .str "missing_member"), ("path", .str entry.memberPath)])
    let bytes ← (readZipMemberBounded member maxBackupMemberBytes).mapError
      (readBytesError "read_member")
    if digestBytes C bytes ≠ entry.envelopeDigest then
      .error (backupVerifyFailed
        [("reason", .str "member_digest_mismatch"), ("key", .str entry.key)])
    else
      let envelope ← parseEnvelopeBytes S C bytes
      let key ← envelopeRecordKey envelope
      if key ≠ entry.key then
        .error (backupVerifyFailed [("reason", .str "key_mismatch"), ("key", .str entry.key)])
      else .ok (entry.memberPath, bytes)

def verifyManifestMemberPayloads (manifest : BackupManifest) : Except MaintenanceError Unit := do
  let members ← manifest.records.mapM (verifyMemberPayload S C byName)
  if archiveContentDigestFromMembers C (sortByPath Prod.fst members) ≠
      manifest.archiveContentDigest then
    .error (backupVerifyFailed [("reason", .str "archive_content_digest_mismatch")])
  else if manifest.recordCount ≠ manifest.records.length then
    .error (backupVerifyFailed [("reason", .str "record_count_mismatch")])
  else .ok ()

def verifyArchive :
    Except MaintenanceError BackupManifest := do
  let manifest ← readAndValidateManifestHeader S byName
  verifyManifestMemberPayloads S C byName manifest
  .ok manifest

/-- What the members of the zip are found to be. -/
def zipMembers (manifestBytes : Bytes) (members : List BackupMember) :
    String → Option (Except String Bytes) := fun name =>
  if name = backupManifestMember then some (.ok manifestBytes)
  else (members.find? fun member => member.path = name).map fun member => .ok member.bytes

/-- The root as a path that has a parent, and the process. -/
structure StoreRoot where
  path : String
  processId : Nat

def restoreWorkSuffix (root : StoreRoot) (asOf : String) : String :=
  let rootDigest := String.ofList ((hexEncode (C.sha256 (utf8 root.path))).toList.take 16)
  let instant := String.ofList (asOf.toList.filter (· ≠ ':'))
  s!"{root.processId}-{rootDigest}-{instant}"

namespace LocalFileDataStoreMaintenance

open Program (each done)

def listRecordKeys : Maintenance MaintenanceError (List String) := do
  let directory ← (readDir .root).mapError (maintenanceIo "list keys")
  pure directory.recordKeys

variable (key : String)

def pathForKey : Except MaintenanceError String := do
  (validateKey key).mapError mapDataStoreError
  .ok (recordFile key)

def readEnvelopeBytes : Maintenance MaintenanceError Bytes := do
  let name ← done (pathForKey key)
  (readFile .root name).mapError (maintenanceIo "read envelope bytes")

def readEnvelope : Maintenance MaintenanceError (LocalDataStoreEnvelope ν) := do
  let bytes ← readEnvelopeBytes key
  done (parseEnvelopeBytes S C bytes)

def reacquireLock : Maintenance MaintenanceError Unit := do
  let lockFile ← openLockFile.mapError (maintenanceIo "reopen data store lock")
  (tryLock lockFile).mapError fun e => mapLockToMaintenance (lockError e)
  unlock
  .modify fun m => { m with lockFile }

/-! ## Backup -/

def openBackupZip (path : ArchivePath) :
    Maintenance MaintenanceError (String → Option (Except String Bytes)) := do
  let zip ← (openArchive path).mapError fun cause =>
    backupVerifyFailed [("reason", .str "open_archive"), ("cause", .str cause)]
  match zip with
  | .members byName => pure byName
  | .invalid cause =>
    done (.error (backupVerifyFailed [("reason", .str "invalid_zip"), ("cause", .str cause)]))

def verifyBackupArchive (path : ArchivePath) : Maintenance MaintenanceError BackupManifest := do
  let byName ← openBackupZip path
  done (verifyArchive S C byName)

def backupMember : Maintenance MaintenanceError BackupMember := do
  let bytes ← readEnvelopeBytes key
  let envelope ← done (parseEnvelopeBytes S C bytes)
  let memberPath := s!"{backupRecordsPrefix}{recordFile key}"
  pure ⟨memberPath, bytes, ⟨key, envelope.classification, digestBytes C bytes, memberPath⟩⟩

def backupManifest (asOf : String) (members : List BackupMember) : BackupManifest where
  manifestFormatVersion := backupManifestVersion
  createdAsOf := asOf
  recordCount := members.length
  archiveContentDigest := archiveContentDigestFromMembers C
    (members.map fun member => (member.path, member.bytes))
  records := members.map BackupMember.entry
  storeFormat := localDataStoreFormat
  writerTool := "traverse-runtime"
  writerSemver := "0.16.2"

def writeBackupZip (destination : String) (manifestBytes : Bytes) (members : List BackupMember) :
    Maintenance MaintenanceError Unit := do
  (elsewhere .createDir).mapError (maintenanceIo "create backup destination directory")
  putArchive (.temporary destination) none
  (elsewhere .createFile).mapError (maintenanceIo "create backup zip")
  putArchive (.temporary destination) (some (.invalid "Could not find EOCD"))
  (elsewhere .writeFile).mapError (maintenanceIo "start manifest zip member")
  (elsewhere .writeFile).mapError (maintenanceIo "write manifest zip member")
  let _ ← each members fun _ => do
    (elsewhere .writeFile).mapError (maintenanceIo "start record zip member")
    (elsewhere .writeFile).mapError (maintenanceIo "write record zip member")
  (elsewhere .writeFile).mapError (maintenanceIo "finish backup zip")
  putArchive (.temporary destination) (some (.members (zipMembers manifestBytes members)))

def commitBackupZip (destination : String) : Maintenance MaintenanceError Unit :=
  ((renameArchive (.temporary destination) (.file destination)).mapError
    (maintenanceIo "commit backup zip")).onError (putArchive (.temporary destination) none)

def backupEvidence (asOf : String) (members : List BackupMember) : MaintenanceEvidence where
  governingSpec := maintenanceSpec
  outcome := "backup_created"
  asOf := asOf
  attemptedCount := members.length
  removedCount := 0
  retainedCount := members.length
  recordCount := members.length
  archiveContentDigest := some (archiveContentDigestFromMembers C
    (members.map fun member => (member.path, member.bytes)))
  failureCode := none
  failureReason := none

def backup (destination asOf : String) : Maintenance MaintenanceError MaintenanceEvidence := do
  let _ ← done (parseAsOf S asOf)
  let keys ← listRecordKeys
  let unsorted ← each keys (backupMember S C)
  let members := sortByPath BackupMember.path unsorted
  writeBackupZip destination (S.manifest (backupManifest C asOf members)) members
  let _ ← (verifyBackupArchive S C (.temporary destination)).onError
    (putArchive (.temporary destination) none)
  commitBackupZip destination
  pure (backupEvidence C asOf members)

/-! ## Restore -/

def openRestoreZip (archive : String) :
    Maintenance MaintenanceError (String → Option (Except String Bytes)) := do
  let zip ← (openArchive (.file archive)).mapError (maintenanceIo "reopen archive")
  match zip with
  | .members byName => pure byName
  | .invalid cause =>
    done (.error (restoreVerifyFailed [("reason", .str "invalid_zip"), ("cause", .str cause)]))

def materializeEntry (byName : String → Option (Except String Bytes)) (place : Place)
    (entry : BackupRecordIndexEntry) : Maintenance MaintenanceError Unit := do
  done ((validateKey entry.key).mapError mapDataStoreError)
  let member ← done (match byName entry.memberPath with
    | some member => .ok member
    | none => .error (restoreVerifyFailed
      [("reason", .str "missing_member"), ("path", .str entry.memberPath)]))
  let bytes ← done ((readZipMemberBounded member maxBackupMemberBytes).mapError
    (maintenanceIo "extract member"))
  (writeFile place (recordFile entry.key) bytes).mapError (maintenanceIo "write restored envelope")

def materializeArchiveToRoot (archive : String) (place : Place) :
    Maintenance MaintenanceError Unit := do
  let manifest ← verifyBackupArchive S C (.file archive)
  let byName ← openRestoreZip archive
  (createLockFile place).mapError (maintenanceIo "create restored lock file")
  let _ ← each manifest.records (materializeEntry byName place)
  pure ()

def verifyStoreRootEnvelopes (place : Place) : Maintenance MaintenanceError Unit := do
  let directory ← (readDir place).mapError (maintenanceIo "list restored root")
  let _ ← each directory.recordKeys fun key => do
    let bytes ← (readFile place (recordFile key)).mapError (maintenanceIo "read restored envelope")
    done (parseEnvelopeBytes S C bytes)
  pure ()

def moveLiveStoreAside (backupRoot : Place) : Maintenance MaintenanceError Unit :=
  ((rename .root backupRoot).mapError
    (maintenanceIo "move live store aside for restore")).onError reacquireLock.ignore

def replaceStoreRoot (tempRoot backupRoot : Place) : Maintenance MaintenanceError Unit :=
  ((rename tempRoot .root).mapError (maintenanceIo "atomically replace store root")).onError do
    (rename backupRoot .root).ignore
    reacquireLock.ignore

/-- The end of `restore`. -/
def replaceRoot (tempRoot backupRoot : Place) : Maintenance MaintenanceError Unit := do
  unlock
  moveLiveStoreAside backupRoot
  replaceStoreRoot tempRoot backupRoot
  reacquireLock
  removeDirAll backupRoot

variable (root : StoreRoot)

def restoreTempRoot (asOf : String) : Place :=
  .sibling s!".traverse-datastore-restore-{restoreWorkSuffix C root asOf}"

def restoreBackupRoot (asOf : String) : Place :=
  .sibling s!".traverse-datastore-replaced-{restoreWorkSuffix C root asOf}"

/-- The beginning of `restore`: the archive in a directory of its own. -/
def stageRestore (archive : String) (tempRoot backupRoot : Place) :
    Maintenance MaintenanceError BackupManifest := do
  let verified ← verifyBackupArchive S C (.file archive)
  removeDirAll tempRoot
  removeDirAll backupRoot
  (createDirAll tempRoot).mapError (maintenanceIo "create restore temp root")
  materializeArchiveToRoot S C archive tempRoot
  verifyStoreRootEnvelopes S C tempRoot
  pure verified

def restore (archive asOf : String) :
    Maintenance MaintenanceError MaintenanceEvidence := do
  let _ ← done (parseAsOf S asOf)
  let verified ← stageRestore S C archive (restoreTempRoot C root asOf)
    (restoreBackupRoot C root asOf)
  replaceRoot (restoreTempRoot C root asOf) (restoreBackupRoot C root asOf)
  pure { governingSpec := maintenanceSpec
         outcome := "restore_committed"
         asOf := asOf
         attemptedCount := verified.recordCount
         removedCount := 0
         retainedCount := verified.recordCount
         recordCount := verified.recordCount
         archiveContentDigest := some verified.archiveContentDigest
         failureCode := none
         failureReason := none }

def verifyV2StoreRoot (place : Place) : Maintenance MaintenanceError Unit := do
  let directory ← (readDir place).mapError (maintenanceIo "list migration candidate")
  let _ ← each directory.recordKeys fun key => do
    let bytes ← (readFile place (recordFile key)).mapError
      (maintenanceIo "read migration candidate")
    let doc ← done (match S.parse bytes with
      | some doc => .ok doc
      | none => .error malformedEnvelopeError)
    let envelope ← done ((decodeV2Envelope S.toSerde C doc).mapError mapDataStoreError)
    done (parseEnvelopeBytes S C (S.envelope envelope))
  pure ()

def migrateRecord (candidateRoot : Place) (key : String) : Maintenance MigrationError Unit := do
  let source ← (readEnvelope S C key).mapError fun _ => mapMigrationSourceError
  (writeFile candidateRoot (recordFile key)
    (S.v2Envelope (v2EnvelopeOf S.toSerde C source))).mapError fun _ => mapMigrationWriteIo

def fillCandidate (keys : List String) (candidateRoot : Place) : Maintenance MigrationError Unit :=
  (do
    let _ ← each keys (migrateRecord S C candidateRoot)
    (verifyV2StoreRoot S C candidateRoot).mapError fun _ => mapMigrationVerificationError :
    Maintenance MigrationError Unit).onError (removeDirAll candidateRoot)

def moveLiveAsideForMigration (previousRoot candidateRoot : Place) :
    Maintenance MigrationError Unit :=
  ((rename .root previousRoot).mapError fun _ => mapMigrationCommitError).onError do
    reacquireLock.ignore
    removeDirAll candidateRoot

variable (candidateRoot previousRoot : Place)

def installMigratedCandidate :
    Maintenance MigrationError Unit :=
  ((rename candidateRoot .root).mapError fun _ => mapMigrationCommitError).onError do
    (rename previousRoot .root).ignore
    reacquireLock.ignore

def reacquireMigratedLock : Maintenance MigrationError Unit :=
  (reacquireLock.mapError fun _ => mapMigrationCommitError).onError do
    (rename .root candidateRoot).ignore
    (rename previousRoot .root).ignore
    reacquireLock.ignore

def commitMigratedStoreRoot :
    Maintenance MigrationError Unit := do
  unlock
  moveLiveAsideForMigration previousRoot candidateRoot
  installMigratedCandidate candidateRoot previousRoot
  reacquireMigratedLock candidateRoot previousRoot
  removeDirAll previousRoot

def migrationCandidateRoot (asOf : String) : Place :=
  .sibling s!".traverse-datastore-migration-{restoreWorkSuffix C root asOf}"

def migrationPreviousRoot (asOf : String) : Place :=
  .sibling s!".traverse-datastore-pre-v2-{restoreWorkSuffix C root asOf}"

def verifiedBackupDigest : Option String → Except MigrationError String
  | some digest => .ok digest
  | none => .error (migrationError .backupFailed "datastore_backup_failed"
    "missing_verified_backup_digest")

/-- The beginning of `migrate_v1_to_v2`: the keys of the root, and the digest of a verified
backup. -/
def checkedBackup (backupDestination asOf : String) :
    Maintenance MigrationError (List String × String) := do
  let keys ← listRecordKeys.mapError fun _ => mapMigrationSourceError
  let _ ← each keys fun key => (readEnvelope S C key).mapError fun _ => mapMigrationSourceError
  let evidence ← (backup S C backupDestination asOf).mapError fun _ => mapMigrationBackupError
  let backupDigest ← done (verifiedBackupDigest evidence.archiveContentDigest)
  pure (keys, backupDigest)

/-- The candidate in a directory of its own. -/
def stageCandidate (keys : List String) (candidateRoot previousRoot : Place) :
    Maintenance MigrationError Unit := do
  removeDirAll candidateRoot
  removeDirAll previousRoot
  (createDirAll candidateRoot).mapError fun _ => mapMigrationWriteIo
  (createLockFile candidateRoot).mapError fun _ => mapMigrationWriteIo
  fillCandidate S C keys candidateRoot

/-- The rest of a migration. -/
def migrateBackedUp (asOf : String) (backed : List String × String) :
    Maintenance MigrationError MigrationReport := do
  stageCandidate S C backed.1 (migrationCandidateRoot C root asOf)
    (migrationPreviousRoot C root asOf)
  commitMigratedStoreRoot (migrationCandidateRoot C root asOf) (migrationPreviousRoot C root asOf)
  pure { governingSpec := migrationSpec
         sourceFormat := localDataStoreFormat
         targetFormat := localDataStoreV2Format
         recordCount := backed.1.length
         backupContentDigest := backed.2
         outcome := "datastore_migration_committed" }

/-- The backup lies outside of the root and the work directories. -/
def migrateV1ToV2 (backupDestination asOf : String) :
    Maintenance MigrationError MigrationReport := do
  let _ ← done ((parseAsOf S asOf).mapError fun _ => mapMigrationSourceError)
  let backed ← checkedBackup S C backupDestination asOf
  migrateBackedUp S C root asOf backed

/-- `migrate_v1_to_v2` with the check of `restore_parent`. -/
def migrateIn : Option StoreRoot → (backupDestination asOf : String) →
    Maintenance MigrationError MigrationReport
  | some root, backupDestination, asOf => migrateV1ToV2 S C root backupDestination asOf
  | none, backupDestination, asOf => do
    let _ ← done ((parseAsOf S asOf).mapError fun _ => mapMigrationSourceError)
    let _ ← checkedBackup S C backupDestination asOf
    done (.error mapMigrationCommitError)

end LocalFileDataStoreMaintenance

end Traverse.Storage

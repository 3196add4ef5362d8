import Traverse.Storage.Archive

/-!
# Storage.Staging

What a restore or a migration prepares before it touches the root: the directory that is to become
the root. Up to that point the root and the locks are left alone whatever fails (`SameRoot`). Each
lemma also says when a call does not fail: `good` is whatever rules out a fault and makes the checks
pass, and a call that has failed was not `good` (`Failed`).

* `ensures_stageRestore`: an archive that can be installed (`Installs`) has been extracted.
* `ensures_stageCandidate`: the candidate has every record of the root in version two (`Converts`).
-/

namespace Traverse.Storage

open Lines Program List Function Directory
open Ensures (bind imp mapError each)

namespace LocalFileDataStoreMaintenance

variable {ν : Type} (S : MaintenanceSerde ν) (C : Crypto)

/-! ## What the steps leave alone -/

section Frames

variable {I : Assertion} (hI : Lasting I)

include hI

theorem keeps_listRecordKeys : listRecordKeys.Keeps I :=
  .bind (keeps_readDir hI _).mapError fun _ => .done

theorem keeps_readEnvelopeBytes (key : String) : (readEnvelopeBytes key).Keeps I :=
  .bind .done fun _ => (keeps_readFile hI _ _).mapError

theorem keeps_readEnvelope (key : String) : (readEnvelope S C key).Keeps I :=
  .bind (keeps_readEnvelopeBytes hI key) fun _ => .done

theorem keeps_openBackupZip (path : ArchivePath) : (openBackupZip path).Keeps I := by
  refine .bind (keeps_openArchive hI path).mapError fun zip => ?_
  cases zip <;> trivial

theorem keeps_verifyBackupArchive (path : ArchivePath) : (verifyBackupArchive S C path).Keeps I :=
  .bind (keeps_openBackupZip hI path) fun _ => .done

theorem keeps_verifyV2StoreRoot (p : Place) : (verifyV2StoreRoot S C p).Keeps I :=
  .bind (keeps_readDir hI p).mapError fun _ =>
    .bind (.each fun _ => .bind (keeps_readFile hI _ _).mapError fun _ =>
      .bind .done fun _ => .bind .done fun _ => .done) fun _ => .done

theorem keeps_backup (harchives : ∀ m archives, I m → I { m with archives })
    (destination asOf : String) : (backup S C destination asOf).Keeps I := by
  have hput : ∀ {ε : Type} path zip, (putArchive path zip : Maintenance ε Unit).Keeps I :=
    fun _ _ => .act fun m hm => harchives m _ hm
  have hcall : ∀ operation what, ((elsewhere operation).mapError (maintenanceIo what)).Keeps I :=
    fun operation _ => (keeps_elsewhere hI operation).mapError
  refine .bind .done fun _ => .bind (keeps_listRecordKeys hI) fun _ =>
    .bind (.each fun key => .bind (keeps_readEnvelopeBytes hI key) fun _ =>
      .bind .done fun _ => .done) fun _ => .bind ?_ fun _ =>
    .bind ((keeps_verifyBackupArchive S C hI _).onError (hput _ _)) fun _ => .bind ?_ fun _ =>
    .done
  · refine .bind (hcall _ _) fun _ => .bind (hput _ _) fun _ => .bind (hcall _ _) fun _ =>
      .bind (hput _ _) fun _ => .bind (hcall _ _) fun _ => .bind (hcall _ _) fun _ =>
      .bind (.each fun _ => .bind (hcall _ _) fun _ => hcall _ _) fun _ =>
      .bind (hcall _ _) fun _ => hput _ _
  · exact (keeps_io hI fun m hm => harchives m _ hm).mapError.onError (hput _ _)

theorem keeps_checkedBackup (harchives : ∀ m archives, I m → I { m with archives })
    (destination asOf : String) : (checkedBackup S C destination asOf).Keeps I :=
  .bind (keeps_listRecordKeys hI).mapError fun _ =>
    .bind (.each fun key => (keeps_readEnvelope S C hI key).mapError) fun _ =>
    .bind (keeps_backup S C hI harchives _ _).mapError fun _ => .bind .done fun _ => .done

end Frames

/-! ## Calls that fail or do not -/

/-- What holds during the preparations: the root is what it was, and if all is `good`, the lock file
alone can fail. -/
structure Framed (m₀ : LocalFileDataStoreMaintenance) (good : Prop) (P : Assertion) :
    Prop where
  lasting : Lasting P
  same : ∀ m, P m → SameRoot m₀ m
  calm : ∀ m, P m → good → LockFault m.fault

def Failed (m₀ : LocalFileDataStoreMaintenance) (good : Prop) (m : LocalFileDataStoreMaintenance) :
    Prop :=
  SameRoot m₀ m ∧ ¬ good

variable {m₀ : LocalFileDataStoreMaintenance} {good : Prop} {ε α : Type}
  {I P : Assertion} {work aside key : String}
  {files : String → Option Bytes} {zip : Option ZipFile}
  {byName : String → Option (Except String Bytes)}

theorem Framed.and (hP : Framed m₀ good P) (φ : Volume Place LockHolder → Prop) :
    Framed m₀ good fun m => P m ∧ φ m.volume :=
  ⟨hP.lasting.and (.of_forall fun _ _ h => h), fun m h => hP.same m h.1, fun m h => hP.calm m h.1⟩

section Framed

variable (hP : Framed m₀ good P) {fail : String → ε} {operation : Operation}

include hP

theorem ensures_framed (hoperation : operation.onLock = false) {Q : α → Assertion}
    {effect : Effect ε α} (heffect : ∀ m, P m → Outcome Q (Failed m₀ good) (effect m)) :
    Ensures P (io fail operation effect) Q (Failed m₀ good) := by
  refine ensures_io hP.lasting.skip heffect fun m fault hfault hstruck hm =>
    ⟨(SameRoot.lasting m₀).struck m (hP.same m hm), fun hgood => ?_⟩
  have hlock := hP.calm m hm hgood fault hfault
  rw [hstruck, hoperation] at hlock
  cases hlock

theorem ensures_done {result : Except ε α} (hgood : good → ∃ a, result = .ok a) :
    Ensures P (done result) (fun a m => P m ∧ result = .ok a) (Failed m₀ good) := by
  intro m hm
  cases result with
  | ok a => exact ⟨hm, rfl⟩
  | error e => exact ⟨hP.same m hm, fun h => (by cases (hgood h).choose_spec)⟩

theorem ensures_query {query : LocalFileDataStoreMaintenance → Except ε α}
    (hgood : good → ∀ m, P m → ∃ a, query m = .ok a) :
    Ensures P (io fail .openFile fun m => (query m, m)) (fun a m => P m ∧ query m = .ok a)
      (Failed m₀ good) :=
  ensures_framed hP rfl fun m hm => by
    have hdone := ensures_done hP (fun h => hgood h m hm) m hm
    revert hdone
    show Outcome _ _ (query m, m) → _
    cases hquery : query m with
    | ok a => exact fun hdone => ⟨hdone.1, hquery⟩
    | error e => exact fun hdone => hdone

theorem ensures_openZip {path : ArchivePath} (hzip : ∀ m, P m → m.archives path = zip)
    (hgood : good → ∃ byName, zip = some (.members byName)) (f g : String → ε) :
    Ensures P (do
      let zip ← (openArchive path).mapError f
      match zip with
      | .members byName => pure byName
      | .invalid cause => done (.error (g cause)))
      (fun byName m => P m ∧ zip = some (.members byName)) (Failed m₀ good) := by
  refine bind (Q := fun found m => P m ∧ zip = some found)
    (mapError (ensures_framed hP rfl fun m hm => ?_)) fun found => .of_and fun hfound m hm => ?_
  · simp only [hzip m hm]
    cases zip with
    | none => exact ⟨hP.same m hm, fun h => (by cases (hgood h).choose_spec)⟩
    | some found => exact ⟨hm, rfl⟩
  · subst hfound
    cases found with
    | members byName => exact ⟨hm, rfl⟩
    | invalid cause => exact ⟨hP.same m hm, fun h => (by cases (hgood h).choose_spec)⟩

/-- What the verification of an archive has found. -/
def Verified (zip : Option ZipFile) (byName : String → Option (Except String Bytes))
    (manifest : BackupManifest) : Prop :=
  zip = some (.members byName) ∧ verifyArchive S C byName = .ok manifest

theorem ensures_verifyBackupArchive {path : ArchivePath} (hzip : ∀ m, P m → m.archives path = zip)
    (hgood : good → ∃ byName manifest, Verified S C zip byName manifest) :
    Ensures P (verifyBackupArchive S C path)
      (fun manifest m => P m ∧ ∃ byName, Verified S C zip byName manifest) (Failed m₀ good) := by
  refine (ensures_openZip hP hzip (fun h => ?_) _ _).bind fun byName => .of_and fun hmembers =>
    (ensures_done hP fun h => ?_).post (fun manifest m hm => ⟨hm.1, byName, hmembers, hm.2⟩)
  · obtain ⟨byName, manifest, hmembers, -⟩ := hgood h
    exact ⟨byName, hmembers⟩
  · obtain ⟨byName', manifest, hmembers', hverify⟩ := hgood h
    rw [hmembers] at hmembers'
    cases hmembers'
    exact ⟨manifest, hverify⟩

end Framed

/-! ## The staged directory -/

/-- The directory `work` has these record files and a lock file that is free, and there is no
directory `aside`. -/
structure Unpacked (work aside : String) (files : String → Option Bytes)
    (v : Volume Place LockHolder) : Prop where
  folder : ∃ folder lock, v.tree (.sibling work) = some folder ∧ folder.lock = some lock ∧
    v.Free lock
  files : records v.tree (.sibling work) = files
  aside : v.tree (.sibling aside) = none

def Extracted (I : Assertion) (work aside : String)
    (files : String → Option Bytes) (m : LocalFileDataStoreMaintenance) : Prop :=
  I m ∧ Unpacked work aside files m.volume

theorem readFile_recordFile {t : FileTree Place} {p : Place} {bytes : Bytes} :
    t.readFile p (recordFile key) = .ok bytes ↔ records t p key = some bytes := by
  have hrecords : records t p key = (t p).bind fun folder => folder.files[recordFile key]? := rfl
  rw [hrecords]
  unfold FileTree.readFile
  split
  · next h => simp [h]
  · next h => simp [h]

theorem records_putFile {t t' : FileTree Place} {p : Place} {bytes : Bytes}
    (h : t.putFile p (recordFile key) bytes = .ok t') :
    records t' p = update (records t p) key (some bytes) := by
  unfold FileTree.putFile at h
  split at h
  · cases h
  next folder hfolder =>
  cases h
  rw [records_of_some hfolder, records_of_some (update_self _ _ _)]
  exact file_put _ _ _

/-- A pass over the records of the directory. -/
theorem ensures_eachRecord (hI : Framed m₀ good I) (f g : String → MaintenanceError)
    {check : Bytes → Maintenance MaintenanceError α} {φ : Bytes → Prop}
    (hcheck : ∀ key bytes, key ≠ "" → files key = some bytes →
      Ensures (Extracted I work aside files)
      (check bytes) (fun _ m => Extracted I work aside files m ∧ φ bytes) (Failed m₀ good)) :
    Ensures (Extracted I work aside files) (do
      let directory ← (readDir (.sibling work)).mapError f
      let _ ← each directory.recordKeys fun key => do
        let bytes ← (readFile (.sibling work) (recordFile key)).mapError g
        check bytes
      pure ()) (fun _ m => Extracted I work aside files m ∧
        ∀ key bytes, key ≠ "" → files key = some bytes → φ bytes) (Failed m₀ good) := by
  have hE : Framed m₀ good (Extracted I work aside files) := hI.and _
  refine bind (Q := fun (directory : Directory) m => Extracted I work aside files m ∧
    ∀ key, directory.file key = files key) (mapError (ensures_framed hE rfl fun m hm => ?_))
    fun directory => .of_and fun hdirectory => ?_
  · obtain ⟨folder, lock, hfolder, -, -⟩ := hm.2.folder
    rw [FileTree.readDir, hfolder]
    refine ⟨hm, fun key => ?_⟩
    rw [← hm.2.files, records, hfolder]
    rfl
  refine bind (imp (each (I := fun earlier m => Extracted I work aside files m ∧
    ∀ key ∈ earlier, ∀ bytes, files key = some bytes → φ bytes) fun earlier key hpart =>
      .of_and fun hearlier => ?_) (fun m hm => ⟨hm, by simp⟩) (fun _ _ h => h) fun _ h => h)
    fun _ m hm => ⟨hm.1, fun key bytes hkey hbytes => hm.2 key ?_ bytes hbytes⟩
  · have hkey : key ∈ directory.recordKeys := hpart.subset (by simp)
    rw [mem_recordKeys, hdirectory] at hkey
    obtain ⟨bytes, hbytes⟩ := Option.ne_none_iff_exists'.1 hkey.2
    refine bind (Q := fun read m => Extracted I work aside files m ∧ read = bytes)
      (mapError (ensures_framed hE rfl fun m hm => ?_)) fun read => .of_and ?_
    · rw [readFile_recordFile.2 ((congrFun hm.2.files key).trans hbytes)]
      exact ⟨hm, rfl⟩
    · rintro rfl
      refine (hcheck key read hkey.1 hbytes).post (fun _ m hm => ⟨hm.1, ?_⟩)
      intro key' hkey' bytes' hbytes'
      rcases mem_append.1 hkey' with hkey' | hkey'
      · exact hearlier key' hkey' bytes' hbytes'
      · rw [mem_singleton.1 hkey', hbytes, Option.some.injEq] at hbytes'
        exact hbytes' ▸ hm.2
  · rw [mem_recordKeys, hdirectory, hbytes]
    exact ⟨hkey, by simp⟩

section

variable (hI : Framed m₀ good I)
  (hvolume : ∀ m volume, I m → SameRoot m₀ { m with volume } → I { m with volume })
  (hne : work ≠ aside)

section Write

include hI hvolume hne

/-- Both places are cleared, and `work` is made anew. -/
theorem ensures_cleared {f : String → ε} {k : Maintenance ε α} {Q : α → Assertion}
    (hk : Ensures (fun m => I m ∧ m.volume.tree (.sibling work) = some .empty ∧
      m.volume.tree (.sibling aside) = none) k Q (Failed m₀ good)) :
    Ensures I (do
      removeDirAll (.sibling work)
      removeDirAll (.sibling aside)
      (createDirAll (.sibling work)).mapError f
      k) Q (Failed m₀ good) := by
  have hplaces : Place.sibling aside ≠ .sibling work := by simpa using hne.symm
  have htree : ∀ m tree, I m → tree .root = m.volume.tree .root → I (m.withTree tree) :=
    fun m _ hm h => hvolume m _ hm ((hI.same m hm).withTree h)
  refine bind (Q := fun _ m => I m ∧ m.volume.tree (.sibling work) = none) (fun m hm => ?_) fun _ =>
    bind (Q := fun _ m => I m ∧ m.volume.tree (.sibling work) = none ∧
      m.volume.tree (.sibling aside) = none) (fun m hm => ?_) fun _ =>
    bind (mapError (ensures_framed (hI.and fun v => v.tree (.sibling work) = none ∧
      v.tree (.sibling aside) = none) rfl fun m hm => ?_)) fun _ => hk
  · exact ⟨htree m _ hm (removeDirAll_root _ _), update_self _ _ _⟩
  · exact ⟨htree m _ hm.1 (removeDirAll_root _ _),
      (FileTree.removeDirAll_of_ne _ hplaces.symm).trans hm.2, update_self _ _ _⟩
  · obtain ⟨hm, hwork, haside⟩ := hm
    refine ⟨htree m _ hm (FileTree.createDirAll_of_ne _ (by simp)), ?_,
      (FileTree.createDirAll_of_ne _ hplaces).trans haside⟩
    show FileTree.createDirAll _ _ _ = _
    rw [FileTree.createDirAll_of_none hwork, update_self]

theorem ensures_createLockFile :
    Ensures (fun m => I m ∧ m.volume.tree (.sibling work) = some .empty ∧
        m.volume.tree (.sibling aside) = none) (createLockFile (.sibling work))
      (fun _ => Extracted I work aside fun _ => none) (Failed m₀ good) := by
  refine ensures_framed (hI.and fun v => v.tree (.sibling work) = some .empty ∧
    v.tree (.sibling aside) = none) rfl fun m ⟨hm, hwork, haside⟩ => ?_
  have hframe := hvolume m _ hm ((hI.same m hm).openLock work)
  rw [Volume.openLock_of_empty hwork] at hframe ⊢
  refine ⟨hframe, ⟨_, m.volume.locks.length, update_self _ _ _, rfl, List.getElem?_concat_length⟩,
    ?_, (update_of_ne (by simpa using hne.symm) _ _).trans haside⟩
  funext key
  simp [records, file]

theorem ensures_putFile {operation : Operation} (hoperation : operation.onLock = false)
    (files : String → Option Bytes) (key : String) (bytes : Bytes) :
      Ensures (Extracted I work aside files)
      (io id operation (onTree fun t => t.putFile (.sibling work) (recordFile key) bytes))
      (fun _ => Extracted I work aside (update files key (some bytes))) (Failed m₀ good) := by
  refine ensures_framed (hI.and (Unpacked work aside files)) hoperation fun m ⟨hm, hunpacked⟩ => ?_
  obtain ⟨folder, lock, hfolder, hlock, hfree⟩ := hunpacked.folder
  have hput := FileTree.putFile_of_some hfolder (recordFile key) bytes
  have hroot := FileTree.putFile_of_ne (q := .root) (by simp) hput
  rw [onTree, hput]
  refine ⟨hvolume m _ hm ((hI.same m hm).withTree hroot),
    ⟨_, lock, update_self _ _ _, hlock, hfree⟩, ?_,
    (FileTree.putFile_of_ne (by simpa using hne.symm) hput).trans hunpacked.aside⟩
  rw [← hunpacked.files]
  exact records_putFile hput

theorem ensures_writeFile (files : String → Option Bytes) (key : String) (bytes : Bytes) :
    Ensures (Extracted I work aside files) (writeFile (.sibling work) (recordFile key) bytes)
      (fun _ => Extracted I work aside (update files key (some bytes))) (Failed m₀ good) := by
  refine (ensures_putFile hI hvolume hne rfl files key []).bind fun _ => ?_
  have hidem : update (update files key (some [])) key (some bytes) =
      update files key (some bytes) := update_idem _ _ _
  rw [← hidem]
  exact ensures_putFile hI hvolume hne rfl _ key bytes

end Write

/-! ### The archive of a restore -/

/-- What can be extracted for an entry. -/
def Extractable (byName : String → Option (Except String Bytes)) (entry : BackupRecordIndexEntry) :
    Prop :=
  validateKey entry.key = .ok () ∧
    ∃ bytes, byName entry.memberPath = some (.ok bytes) ∧ bytes.length ≤ maxBackupMemberBytes

/-- Of two entries with one key the later one is kept. -/
def extractedFiles (byName : String → Option (Except String Bytes))
    (entries : List BackupRecordIndexEntry) : String → Option Bytes :=
  entries.foldl (fun files entry =>
    match byName entry.memberPath with
    | some (.ok bytes) => update files entry.key (some bytes)
    | _ => files) fun _ => none

theorem extractedFiles_concat (entries : List BackupRecordIndexEntry)
    {entry : BackupRecordIndexEntry} {bytes : Bytes}
    (hmember : byName entry.memberPath = some (.ok bytes)) :
    extractedFiles byName (entries ++ [entry]) =
      update (extractedFiles byName entries) entry.key (some bytes) := by
  simp only [extractedFiles, foldl_append, foldl_cons, foldl_nil, hmember]

/-- A file is there for every key of an entry, with the bytes of an entry with this key. -/
theorem extractedFiles_cases {entries : List BackupRecordIndexEntry}
    (hentries : ∀ entry ∈ entries, ∃ bytes, Declares S C byName entry bytes) (key : String) :
    (extractedFiles byName entries key = none ∧ ∀ entry ∈ entries, entry.key ≠ key) ∨
    ∃ entry ∈ entries, entry.key = key ∧ ∃ bytes, Declares S C byName entry bytes ∧
      extractedFiles byName entries key = some bytes := by
  induction entries using List.reverseRecOn with
  | nil => exact .inl ⟨rfl, by simp⟩
  | append_singleton earlier entry ih =>
    obtain ⟨bytes, hbytes⟩ := hentries entry (by simp)
    rw [extractedFiles_concat _ hbytes.1]
    by_cases hkey : key = entry.key
    · exact .inr ⟨entry, by simp, hkey.symm, bytes, hbytes, by rw [hkey, update_self]⟩
    rw [update_of_ne hkey]
    rcases ih fun other hmem => hentries other (by simp [hmem]) with
      ⟨hnone, hall⟩ | ⟨other, hmem, hother⟩
    · exact .inl ⟨hnone, by simpa [or_imp, forall_and, Ne.symm hkey] using hall⟩
    · exact .inr ⟨other, by simp [hmem], hother⟩

/-- An archive that passes the checks, with records that can be read. -/
structure Installs (zip : Option ZipFile) (byName : String → Option (Except String Bytes))
    (manifest : BackupManifest) : Prop where
  verified : Verified S C zip byName manifest
  entries : ∀ entry ∈ manifest.records, Extractable byName entry
  parses : ∀ key bytes, key ≠ "" → extractedFiles byName manifest.records key = some bytes →
    ∃ envelope, parseEnvelopeBytes S C bytes = .ok envelope

theorem Verified.unique {manifest manifest' : BackupManifest}
    {byName' : String → Option (Except String Bytes)} (h : Verified S C zip byName manifest)
    (h' : Verified S C zip byName' manifest') : byName = byName' ∧ manifest = manifest' := by
  obtain ⟨rfl, hverify⟩ := h
  obtain ⟨⟨⟩, hverify'⟩ := h'
  rw [hverify] at hverify'
  exact ⟨rfl, Except.ok.inj hverify'⟩

section Restore

include hI hvolume hne

theorem ensures_materializeEntry (earlier : List BackupRecordIndexEntry)
    (entry : BackupRecordIndexEntry) (hgood : good → Extractable byName entry) :
    Ensures (Extracted I work aside (extractedFiles byName earlier))
      (materializeEntry byName (.sibling work) entry)
      (fun _ m => Extracted I work aside (extractedFiles byName (earlier ++ [entry])) m ∧
        Extractable byName entry) (Failed m₀ good) := by
  have hE : Framed m₀ good (Extracted I work aside (extractedFiles byName earlier)) := hI.and _
  refine (ensures_done hE fun h => ?_).bind fun _ => .of_and fun hkey =>
    (ensures_done hE fun h => ?_).bind fun member => .of_and fun hmember =>
    (ensures_done hE fun h => ?_).bind fun bytes => .of_and fun hbytes => ?_
  · exact ⟨(), by rw [(hgood h).1]; rfl⟩
  · obtain ⟨-, bytes, hbytes, -⟩ := hgood h
    exact ⟨.ok bytes, by rw [hbytes]⟩
  · obtain ⟨-, bytes, hbytes, hsize⟩ := hgood h
    rw [hbytes] at hmember
    cases hmember
    exact ⟨bytes, by rw [readZipMemberBounded_ok hsize]; rfl⟩
  · have hextractable : Extractable byName entry ∧ byName entry.memberPath = some (.ok bytes) := by
      have hbounded := LocalFileDataStore.of_mapError_ok hbytes
      cases hpath : byName entry.memberPath with
      | none => simp [hpath] at hmember
      | some found =>
        rw [hpath] at hmember
        cases hmember
        cases member with
        | error reason => cases hbounded
        | ok read =>
          obtain ⟨rfl, hsize⟩ := length_le_of_readZipMemberBounded hbounded
          exact ⟨⟨LocalFileDataStore.of_mapError_ok hkey, bytes, hpath, hsize⟩, rfl⟩
    rw [extractedFiles_concat earlier hextractable.2]
    exact (ensures_writeFile hI hvolume hne _ entry.key bytes).mapError.post
      (fun _ m hm => ⟨hm, hextractable.1⟩)

theorem ensures_stageRestore {archive : String} (hzip : ∀ m, I m → m.archives (.file archive) = zip)
    (hgood : good → ∃ byName manifest, Installs S C zip byName manifest) :
    Ensures I (stageRestore S C archive (.sibling work) (.sibling aside))
      (fun manifest m => ∃ byName, Installs S C zip byName manifest ∧
        Extracted I work aside (extractedFiles byName manifest.records) m) (Failed m₀ good) := by
  have hverified : good → ∃ byName manifest, Verified S C zip byName manifest := by
    intro h
    obtain ⟨byName, manifest, h⟩ := hgood h
    exact ⟨byName, manifest, h.verified⟩
  refine (ensures_verifyBackupArchive S C hI hzip hverified).bind fun manifest => .of_and ?_
  rintro ⟨byName, hfirst⟩
  have hinstalls : good → Installs S C zip byName manifest := by
    intro h
    obtain ⟨_, _, h⟩ := hgood h
    obtain ⟨rfl, rfl⟩ := hfirst.unique S C h.verified
    exact h
  refine ensures_cleared hI hvolume hne (bind
    (Q := fun _ m => Extracted I work aside (extractedFiles byName manifest.records) m ∧
      ∀ entry ∈ manifest.records, Extractable byName entry) ?_ fun _ => .of_and fun hentries =>
    (ensures_eachRecord hI _ _
      (φ := fun bytes => ∃ envelope, parseEnvelopeBytes S C bytes = .ok envelope)
      fun key bytes hkey hbytes => ?_).bind fun _ m hm => ⟨byName, ⟨hfirst, hentries, hm.2⟩, hm.1⟩)
  · have hcleared := hI.and fun v => v.tree (.sibling work) = some .empty ∧
      v.tree (.sibling aside) = none
    refine (ensures_verifyBackupArchive S C hcleared (fun m hm => hzip m hm.1) hverified).bind
      fun again => .of_and ?_
    rintro ⟨_, hagain⟩
    obtain ⟨rfl, rfl⟩ := hfirst.unique S C hagain
    refine (ensures_openZip hcleared (fun m hm => hzip m hm.1)
      (fun _ => ⟨byName, hfirst.1⟩) _ _).bind
      fun found => .of_and fun hfound => ?_
    obtain ⟨⟩ := hfirst.1.symm.trans hfound
    refine (ensures_createLockFile hI hvolume hne).mapError.bind fun _ => bind (imp (each
      (I := fun earlier m => Extracted I work aside (extractedFiles byName earlier) m ∧
        ∀ entry ∈ earlier, Extractable byName entry) fun earlier entry hpart =>
          .of_and fun hearlier => ?_) (fun m hm => ⟨hm, by simp⟩) (fun _ _ h => h) fun _ h => h)
      fun _ _ h => h
    refine (ensures_materializeEntry hI hvolume hne earlier entry fun h =>
      (hinstalls h).entries entry
      (hpart.subset (by simp))).post (fun _ m hm => ⟨hm.1, ?_⟩)
    simpa [or_imp, forall_and] using ⟨hearlier, hm.2⟩
  · exact (ensures_done (hI.and _) fun h => (hinstalls h).parses key bytes hkey hbytes).post
      (fun envelope m hm => ⟨hm.1, envelope, hm.2⟩)

end Restore

end

/-! ### The candidate of a migration -/

/-- `files'` has the records of `files`, each in version two. -/
def Converts (files files' : String → Option Bytes) : Prop :=
  ∀ key, key ≠ "" → (files key = none ∧ files' key = none) ∨
    ∃ bytes envelope, files key = some bytes ∧ parseEnvelopeBytes S C bytes = .ok envelope ∧
      files' key = some (S.v2Envelope (v2EnvelopeOf S.toSerde C envelope))

/-- The records of these keys are in place, and no others. -/
structure FilledWith (m₀ : LocalFileDataStoreMaintenance) (keys : List String)
    (files : String → Option Bytes) : Prop where
  migrated : ∀ key ∈ keys, ∃ bytes envelope, m₀.rootRecords key = some bytes ∧
    parseEnvelopeBytes S C bytes = .ok envelope ∧
    files key = some (S.v2Envelope (v2EnvelopeOf S.toSerde C envelope))
  only : ∀ key, key ∉ keys → files key = none

variable {S C} in
theorem FilledWith.concat {keys : List String} {bytes : Bytes} {envelope : LocalDataStoreEnvelope ν}
    (h : FilledWith S C m₀ keys files) (hbytes : m₀.rootRecords key = some bytes)
    (hparse : parseEnvelopeBytes S C bytes = .ok envelope) :
    FilledWith S C m₀ (keys ++ [key]) (update files key
      (some (S.v2Envelope (v2EnvelopeOf S.toSerde C envelope)))) := by
  constructor
  · intro key' hkey'
    by_cases heq : key' = key
    · subst heq
      exact ⟨bytes, envelope, hbytes, hparse, update_self _ _ _⟩
    · rw [update_of_ne heq]
      exact h.migrated key' (by simpa [heq] using hkey')
  · intro key' hkey'
    rw [mem_append, mem_singleton, not_or] at hkey'
    rw [update_of_ne hkey'.2]
    exact h.only key' hkey'.1

/-- An envelope that passes `parse_envelope_bytes` when it is written out. -/
def Parses (envelope : LocalDataStoreEnvelope ν) : Prop :=
  parseEnvelopeBytes S C (S.envelope envelope) = .ok envelope

variable {S C} in
theorem Parses.format {envelope : LocalDataStoreEnvelope ν} (h : Parses S C envelope) :
    envelope.format = localDataStoreFormat := by
  obtain ⟨doc, -, hto, hformat⟩ := parseEnvelopeBytes_ok h
  rw [S.toEnvelope_format doc envelope hto, Option.some.injEq, Option.some.injEq] at hformat
  exact hformat

/-- The record files of a root, each an envelope of version one under its key. -/
def ReadableV1 (d : Directory) : Prop :=
  ∀ key ∈ d.recordKeys, validateKey key = .ok () ∧
    ∃ envelope, d.file key = some (S.envelope envelope) ∧ Parses S C envelope

section Migration

variable {folder : Folder} (hroot : m₀.volume.tree .root = some folder)
  (hreadable : good → ReadableV1 S C folder.files)

include hroot hreadable

theorem ensures_readEnvelope (hP : Framed m₀ good P) (hkey : key ∈ recordKeys folder.files) :
    Ensures P (readEnvelope S C key) (fun envelope m => P m ∧ ∃ bytes,
      m₀.rootRecords key = some bytes ∧ parseEnvelopeBytes S C bytes = .ok envelope)
      (Failed m₀ good) := by
  refine bind (Q := fun bytes m => P m ∧ m₀.rootRecords key = some bytes)
    ((ensures_done hP fun h => ?_).bind fun name => .of_and fun hname => ?_) fun bytes =>
    .of_and fun hbytes =>
      (ensures_done hP fun h => ?_).post (fun envelope m hm => ⟨hm.1, bytes, hbytes, hm.2⟩)
  · exact ⟨recordFile key, by rw [pathForKey, (hreadable h key hkey).1]; rfl⟩
  · obtain ⟨_, _, hname⟩ := of_bind_ok hname
    cases hname
    refine ((ensures_query hP fun h m hm => ?_).post (fun bytes m hm => ⟨hm.1, ?_⟩)).mapError
    · obtain ⟨-, envelope, hfile, -⟩ := hreadable h key hkey
      refine ⟨S.envelope envelope, readFile_recordFile.2 ?_⟩
      exact (congrFun (records_of_some ((hP.same m hm).root.trans hroot)) key).trans hfile
    · rw [← (hP.same m hm.1).rootRecords]
      exact readFile_recordFile.1 hm.2
  · obtain ⟨-, envelope, hfile, hparses⟩ := hreadable h key hkey
    rw [rootRecords, records_of_some hroot, hfile, Option.some.injEq] at hbytes
    exact ⟨envelope, hbytes ▸ hparses⟩

variable (hI : Framed m₀ good I)
  (hvolume : ∀ m volume, I m → SameRoot m₀ { m with volume } → I { m with volume })
  (hne : work ≠ aside)

include hI hvolume hne

theorem ensures_migrateRecord (earlier : List String) (hkey : key ∈ recordKeys folder.files) :
    Ensures (fun m => ∃ files, Extracted I work aside files m ∧ FilledWith S C m₀ earlier files)
      (migrateRecord S C (.sibling work) key)
      (fun _ m => ∃ files, Extracted I work aside files m ∧
        FilledWith S C m₀ (earlier ++ [key]) files) (Failed m₀ good) := by
  rintro m ⟨files, hm, hfilled⟩
  refine ((ensures_readEnvelope S C hroot hreadable (hI.and _) hkey).mapError.bind fun envelope =>
    .of_and ?_) m hm
  rintro ⟨bytes, hbytes, hparse⟩
  exact (ensures_writeFile hI hvolume hne files key _).mapError.post
    (fun _ m hm => ⟨_, hm, hfilled.concat hbytes hparse⟩)

omit hvolume hne in
theorem ensures_verifyV2StoreRoot (hfilled : FilledWith S C m₀ (recordKeys folder.files) files) :
    Ensures (Extracted I work aside files) (verifyV2StoreRoot S C (.sibling work))
      (fun _ => Extracted I work aside files) (Failed m₀ good) := by
  have hE : Framed m₀ good (Extracted I work aside files) := hI.and _
  refine (ensures_eachRecord hI _ _ (φ := fun _ => True) fun key bytes hne hbytes => ?_).post
    (fun _ _ h => h.1)
  have hgood : good → ∃ envelope doc, Parses S C envelope ∧ S.parse bytes = some doc ∧
      decodeV2Envelope S.toSerde C doc = .ok envelope := by
    intro h
    have hkey : key ∈ recordKeys folder.files := by
      by_contra hkey
      rw [hfilled.only key hkey] at hbytes
      cases hbytes
    obtain ⟨_, envelope, hread, hparse, hfile⟩ := hfilled.migrated key hkey
    obtain ⟨-, envelope', hfile', hparses⟩ := hreadable h key hkey
    rw [rootRecords, records_of_some hroot, hfile', Option.some.injEq] at hread
    rw [← hread, hparses] at hparse
    cases hparse
    rw [hbytes, Option.some.injEq] at hfile
    obtain ⟨doc, hdoc, -, hto⟩ := S.v2Envelope_roundTrip (v2EnvelopeOf S.toSerde C envelope)
    exact ⟨envelope, doc, hparses, hfile ▸ hdoc,
      decodeV2Envelope_v2EnvelopeOf S.toSerde C hparses.format hto⟩
  refine (ensures_done hE fun h => ?_).bind fun doc => .of_and fun hdoc =>
    (ensures_done hE fun h => ?_).bind fun envelope => .of_and fun henvelope =>
    (ensures_done hE fun h => ?_).post (fun _ _ h => ⟨h.1, trivial⟩)
  · obtain ⟨envelope, doc, -, hparse, -⟩ := hgood h
    exact ⟨doc, by rw [hparse]⟩
  · obtain ⟨envelope, _, -, hparse, hdecode⟩ := hgood h
    rw [hparse] at hdoc
    cases hdoc
    exact ⟨envelope, by rw [hdecode]; rfl⟩
  · obtain ⟨envelope', _, hparses, hparse, hdecode⟩ := hgood h
    rw [hparse] at hdoc
    cases hdoc
    rw [hdecode] at henvelope
    cases henvelope
    exact ⟨envelope, hparses⟩

theorem ensures_fillCandidate :
    Ensures (Extracted I work aside fun _ => none)
      (fillCandidate S C (recordKeys folder.files) (.sibling work))
      (fun _ m => ∃ files, Extracted I work aside files m ∧
        FilledWith S C m₀ (recordKeys folder.files) files) (Failed m₀ good) := by
  refine Ensures.onError (E := Failed m₀ good) (bind (imp (each (I := fun earlier m => ∃ files,
    Extracted I work aside files m ∧ FilledWith S C m₀ earlier files) fun earlier key hpart =>
      ensures_migrateRecord S C hroot hreadable hI hvolume hne earlier (hpart.subset (by simp)))
    (fun m hm => ⟨_, hm, by simp, fun _ _ => rfl⟩) (fun _ _ h => h) fun _ h => h) fun _ => ?_)
    fun m hm => ⟨hm.1.withTree (removeDirAll_root _ _), hm.2⟩
  rintro m ⟨files, hm, hfilled⟩
  exact ((ensures_verifyV2StoreRoot S C hroot hreadable hI hfilled).mapError.post
    (fun _ m hm => ⟨files, hm, hfilled⟩)) m hm

/-- The candidate has all records of the root. -/
theorem ensures_stageCandidate :
    Ensures I (stageCandidate S C (recordKeys folder.files) (.sibling work) (.sibling aside))
      (fun _ m => ∃ files, Extracted I work aside files m ∧ Converts S C m₀.rootRecords files)
      (Failed m₀ good) := by
  refine ensures_cleared hI hvolume hne ((ensures_createLockFile hI hvolume hne).mapError.bind
    fun _ => (ensures_fillCandidate S C hroot hreadable hI hvolume hne).post ?_)
  rintro _ m ⟨files, hm, hfilled⟩
  refine ⟨files, hm, fun key hkey => ?_⟩
  by_cases hmem : key ∈ recordKeys folder.files
  · obtain ⟨bytes, envelope, hmigrated⟩ := hfilled.migrated key hmem
    exact .inr ⟨bytes, envelope, hmigrated⟩
  refine .inl ⟨?_, hfilled.only key hmem⟩
  rw [mem_recordKeys, not_and, not_not] at hmem
  rw [rootRecords, records_of_some hroot]
  exact hmem hkey

end Migration

theorem ensures_checkedBackup (hI : Framed m₀ good I)
    (harchives : ∀ m archives, I m → I { m with archives })
    (hgood : good → ∃ folder, m₀.volume.tree .root = some folder ∧ ReadableV1 S C folder.files)
    {backupDestination asOf : String} (hbackup : good → ∀ m, I m → ∃ evidence digest m',
      (backup S C backupDestination asOf).run m = (.ok evidence, m') ∧
        evidence.archiveContentDigest = some digest) :
    Ensures I (checkedBackup S C backupDestination asOf)
      (fun backed m => I m ∧ ∃ folder, m₀.volume.tree .root = some folder ∧
        backed.1 = recordKeys folder.files ∧ (good → ReadableV1 S C folder.files))
      (Failed m₀ good) := by
  refine bind (Q := fun keys m => I m ∧ ∃ folder, m₀.volume.tree .root = some folder ∧
    keys = recordKeys folder.files) (mapError ((ensures_query hI fun h m hm => ?_).mapError.bind
      fun directory m ⟨hm, hread⟩ => ⟨hm, ?_⟩)) fun keys => .of_and ?_
  · obtain ⟨folder, hroot, -⟩ := hgood h
    exact ⟨folder.files, by rw [FileTree.readDir, (hI.same m hm).root, hroot]⟩
  · unfold FileTree.readDir at hread
    rw [(hI.same m hm).root] at hread
    split at hread
    · cases hread
    next folder hroot =>
    cases hread
    exact ⟨folder, hroot, rfl⟩
  rintro ⟨folder, hroot, rfl⟩
  have hreadable : good → ReadableV1 S C folder.files := by
    intro h
    obtain ⟨_, hroot', hreadable⟩ := hgood h
    rw [hroot] at hroot'
    cases hroot'
    exact hreadable
  have hread : Ensures I (each (recordKeys folder.files) fun key =>
      (readEnvelope S C key).mapError fun _ => mapMigrationSourceError) (fun _ => I)
      (Failed m₀ good) :=
    each (I := fun _ => I) fun earlier key hpart => ((ensures_readEnvelope S C hroot hreadable hI
      (hpart.subset (by simp))).post fun _ _ h => h.1).mapError
  refine hread.bind fun _ => bind (Q := fun evidence m => I m ∧
    (good → ∃ digest, evidence.archiveContentDigest = some digest))
    (Ensures.mapError fun m hm => ?_) fun evidence => .of_and fun hdigest =>
    (ensures_done hI fun h => ?_).bind fun digest m hm => ?_
  · have hkeeps := (keeps_backup S C hI.lasting harchives backupDestination asOf).run hm
    cases hrun : (backup S C backupDestination asOf).run m with
    | mk result m' =>
      rw [hrun] at hkeeps
      cases result with
      | ok evidence =>
        refine ⟨hkeeps, fun h => ?_⟩
        obtain ⟨_, digest, _, hok, hdigest⟩ := hbackup h m hm
        rw [hrun] at hok
        cases hok
        exact ⟨digest, hdigest⟩
      | error e =>
        refine ⟨hI.same m' hkeeps, fun h => ?_⟩
        obtain ⟨_, _, _, hok, -⟩ := hbackup h m hm
        rw [hrun] at hok
        cases hok
  · obtain ⟨digest, hdigest⟩ := hdigest h
    exact ⟨digest, by rw [hdigest]; rfl⟩
  · exact ⟨hm.1, folder, hroot, rfl, hreadable⟩

end LocalFileDataStoreMaintenance

end Traverse.Storage

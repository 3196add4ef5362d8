import Traverse.Storage.ReadBack

/-!
# Storage.Backup

What a backup does when no file-system call fails: it is a computation from the files of the root
(`backupMembers`) and the verification of the archive (`backup_run`). For a root of version one the
archive passes exactly if nothing is too large (`fits_iff`).
-/

namespace Traverse.Storage

open Lines Program LocalFileDataStore Function
open BackupMember (path)

variable {ν : Type} (S : MaintenanceSerde ν) (C : Crypto)

/-! ## Members -/

/-- What `backup` makes of the file of a key. -/
def memberOf (d : Directory) (key : String) : Except MaintenanceError BackupMember := do
  let name ← LocalFileDataStoreMaintenance.pathForKey key
  let bytes ← match d[name]? with
    | some bytes => .ok bytes
    | none => .error (maintenanceIo "read envelope bytes" FileTree.notFound)
  let envelope ← parseEnvelopeBytes S C bytes
  let memberPath := s!"{backupRecordsPrefix}{recordFile key}"
  .ok ⟨memberPath, bytes, ⟨key, envelope.classification, digestBytes C bytes, memberPath⟩⟩

def backupMembers (d : Directory) : Except MaintenanceError (List BackupMember) := do
  let unsorted ← d.recordKeys.mapM (memberOf S C d)
  .ok (sortByPath path unsorted)

variable {S C}

variable {key : String} {members : List BackupMember}

theorem memberOf_ok {d : Directory} {member : BackupMember} (h : memberOf S C d key = .ok member) :
    validateKey key = .ok () ∧ ∃ bytes envelope,
      d.file key = some bytes ∧ parseEnvelopeBytes S C bytes = .ok envelope ∧
      member = ⟨s!"{backupRecordsPrefix}{recordFile key}", bytes, ⟨key, envelope.classification,
        digestBytes C bytes, s!"{backupRecordsPrefix}{recordFile key}"⟩⟩ := by
  obtain ⟨name, hname, h⟩ := of_bind_ok h
  obtain ⟨_, hkey, hname⟩ := of_bind_ok hname
  cases hname
  cases hfile : d[recordFile key]? with
  | none =>
    simp only [hfile] at h
    cases h
  | some bytes =>
    simp only [hfile] at h
    obtain ⟨_, hread, h⟩ := of_bind_ok h
    cases hread
    obtain ⟨envelope, hparse, h⟩ := of_bind_ok h
    cases h
    exact ⟨of_mapError_ok hkey, bytes, envelope, hfile, hparse, rfl⟩

theorem memberOf_of_parse {d : Directory} {bytes : Bytes} {envelope : LocalDataStoreEnvelope ν}
    (hkey : validateKey key = .ok ()) (hfile : d.file key = some bytes)
    (hparse : parseEnvelopeBytes S C bytes = .ok envelope) :
    memberOf S C d key = .ok ⟨s!"{backupRecordsPrefix}{recordFile key}", bytes, ⟨key,
      envelope.classification, digestBytes C bytes,
        s!"{backupRecordsPrefix}{recordFile key}"⟩⟩ := by
  have hfile' : d[recordFile key]? = some bytes := hfile
  simp only [memberOf, LocalFileDataStoreMaintenance.pathForKey, hkey, Except.mapError, bind,
    Except.bind, hfile', hparse]

theorem paths_of_forall₂ {d : Directory} {keys : List String}
    (h : List.Forall₂ (fun key member => memberOf S C d key = .ok member) keys members) :
    members.map path =
      keys.map fun key => s!"{backupRecordsPrefix}{recordFile key}" := by
  induction h with
  | nil => rfl
  | cons hmember _ ih =>
    obtain ⟨-, bytes, envelope, -, -, rfl⟩ := memberOf_ok hmember
    rw [List.map_cons, List.map_cons, ih]

/-- The members stand for the record files of the directory. -/
structure Archived (S : MaintenanceSerde ν) (C : Crypto) (d : Directory)
    (members : List BackupMember) : Prop where
  sorted : members.Pairwise fun a b => a.path ≤ b.path
  nodup : (members.map path).Nodup
  paths : ∀ member ∈ members, member.entry.memberPath = member.path ∧
    member.path = s!"{backupRecordsPrefix}{recordFile member.entry.key}"
  keys : ∀ key, key ∈ d.recordKeys ↔ ∃ member ∈ members, member.entry.key = key
  file : ∀ member ∈ members, d.file member.entry.key = some member.bytes
  sound : ∀ member ∈ members, member.bytes.length ≤ maxBackupMemberBytes → member.Sound S C

theorem Archived.of_backupMembers {K : Option (String × Bytes) → Prop}
    {last : String → Option (StateRecord ν)} {d : Directory} (hholds : Holds S C K last d.file)
    (h : backupMembers S C d = .ok members) : Archived S C d members := by
  obtain ⟨unsorted, hunsorted, h⟩ := of_bind_ok h
  cases h
  have hpairs := forall₂_of_mapM_ok hunsorted
  have hmem : ∀ member, member ∈ sortByPath path unsorted ↔ member ∈ unsorted :=
    fun member => List.mem_mergeSort
  -- A member comes from one key, and carries it.
  have hfrom : ∀ member ∈ unsorted, ∃ key ∈ d.recordKeys, memberOf S C d key = .ok member :=
    fun member hmember => by
      obtain ⟨key, hkey, hR⟩ := mem_of_forall₂ hpairs.flip hmember
      exact ⟨key, hkey, hR⟩
  refine ⟨sortByPath_pairwise _ _, ?_, ?_, ?_, ?_, ?_⟩
  · have hperm := (List.mergeSort_perm unsorted fun a b => decide (a.path ≤ b.path)).map path
    refine hperm.nodup_iff.2 ?_
    rw [paths_of_forall₂ hpairs]
    refine List.Nodup.map (fun key other h => ?_) (d.recordKeys_sorted.imp ne_of_lt)
    have hpath := congrArg String.toList h
    rw [toList_memberPath, toList_memberPath, List.append_cancel_right_eq,
      List.append_cancel_left_eq] at hpath
    exact String.toList_injective hpath
  · intro member hmember
    obtain ⟨key, -, hof⟩ := hfrom member ((hmem member).1 hmember)
    obtain ⟨-, bytes, envelope, -, -, rfl⟩ := memberOf_ok hof
    exact ⟨rfl, rfl⟩
  · intro key
    constructor
    · intro hkey
      obtain ⟨member, hmember, hof⟩ := mem_of_forall₂ hpairs hkey
      obtain ⟨-, bytes, envelope, -, -, rfl⟩ := memberOf_ok hof
      exact ⟨_, (hmem _).2 hmember, rfl⟩
    · rintro ⟨member, hmember, rfl⟩
      obtain ⟨key, hkey, hof⟩ := hfrom member ((hmem member).1 hmember)
      obtain ⟨-, bytes, envelope, -, -, rfl⟩ := memberOf_ok hof
      exact hkey
  · intro member hmember
    obtain ⟨key, -, hof⟩ := hfrom member ((hmem member).1 hmember)
    obtain ⟨-, bytes, envelope, hfile, -, rfl⟩ := memberOf_ok hof
    exact hfile
  · intro member hmember hsize
    obtain ⟨key, hlisted, hof⟩ := hfrom member ((hmem member).1 hmember)
    obtain ⟨hkey, bytes, envelope, hfile, hparse, rfl⟩ := memberOf_ok hof
    refine ⟨hkey, rfl, rfl, rfl, hsize, envelope, hparse, ?_⟩
    obtain ⟨record, hlast⟩ := Option.ne_none_iff_exists'.1 ((hholds.mem_recordKeys key).1 hlisted)
    obtain ⟨hrecord, -, writeV2, envelope', secret, hseals, -, hfile'⟩ :=
      hholds.some key record hlast
    rw [hfile] at hfile'
    cases hfile'
    rw [(parseEnvelopeBytes_envelopeText hparse).2, hseals.envelopeRecordKey, hrecord]

/-! ## Running a backup -/

namespace LocalFileDataStoreMaintenance

variable {m : LocalFileDataStoreMaintenance}

section

variable (hfault : m.fault = none)

include hfault

theorem io_run_of_none {ε α : Type} {fail : String → ε} {operation : Operation}
    {effect : Effect ε α} : (io fail operation effect).run m = effect m :=
  io_run fun fault h => by
    rw [hfault] at h
    cases h

theorem elsewhere_run (operation : Operation) (f : String → MaintenanceError) :
    ((elsewhere operation).mapError f).run m = (.ok (), m) :=
  mapError_run f (io_run_of_none hfault)

theorem listRecordKeys_run {folder : Folder} (hroot : m.volume.tree .root = some folder) :
    listRecordKeys.run m = (.ok (Directory.recordKeys folder.files), m) := by
  have hread : (readDir .root).run m = (.ok folder.files, m) := by
    rw [readDir, io_run_of_none hfault, FileTree.readDir, hroot]
  rw [listRecordKeys, bind_run (mapError_run _ hread)]
  rfl

theorem backupMember_run {folder : Folder}
    (hroot : m.volume.tree .root = some folder) (key : String) :
    (backupMember S C key).run m = (memberOf S C folder.files key, m) := by
  unfold backupMember readEnvelopeBytes memberOf
  cases hname : pathForKey key with
  | error e => rfl
  | ok name =>
    have hread : (readFile .root name).run m = (m.volume.tree.readFile .root name, m) :=
      io_run_of_none hfault
    show (((readFile .root name).mapError _).handle (andThen _)).run m = _
    rw [run_handle, mapError, run_handle, hread, FileTree.readFile, hroot, Option.bind_some]
    simp only [bind, Except.bind]
    cases folder.files[name]? with
    | none => rfl
    | some bytes =>
      show ((done (parseEnvelopeBytes S C bytes)).handle (andThen _)).run m = _
      cases hparse : parseEnvelopeBytes S C bytes with
      | error | ok =>
        simp only [hparse]
        rfl

theorem writeBackupZip_run (destination : String) (manifestBytes : Bytes)
    (members : List BackupMember) : ∃ archives,
      (writeBackupZip destination manifestBytes members).run m = (.ok (), { m with archives }) ∧
      archives (.temporary destination) = some (.members (zipMembers manifestBytes members)) := by
  have hloop : ∀ m' : LocalFileDataStoreMaintenance, m'.fault = none →
      ∃ bs, (each members fun _ => (do
        (elsewhere .writeFile).mapError (maintenanceIo "start record zip member")
        (elsewhere .writeFile).mapError (maintenanceIo "write record zip member") :
        Maintenance MaintenanceError Unit)).run m' = (.ok bs, m') := by
    intro m' hm'
    have hall : ∀ member ∈ members, ∃ u, (.ok () : Except MaintenanceError Unit) = .ok u :=
      fun _ _ => ⟨(), rfl⟩
    obtain ⟨bs, hbs⟩ := exists_mapM_ok hall
    refine ⟨bs, ?_⟩
    rw [each_run (g := fun _ => .ok ()) fun _ _ => ?_, hbs]
    rw [bind_run (elsewhere_run hm' _ _), elsewhere_run hm']
  let begun := update (update m.archives (.temporary destination) none)
    (.temporary destination) (some (.invalid "Could not find EOCD"))
  obtain ⟨bs, hbs⟩ := hloop { m with archives := begun } hfault
  refine ⟨update begun (.temporary destination)
    (some (.members (zipMembers manifestBytes members))), ?_, update_self _ _ _⟩
  have hcall : ∀ (archives : ArchivePath → Option ZipFile) operation what,
      ((elsewhere operation).mapError (maintenanceIo what)).run { m with archives } =
        (.ok (), { m with archives }) := fun archives operation _ =>
    elsewhere_run (m := { m with archives }) hfault operation _
  have hput : ∀ (archives : ArchivePath → Option ZipFile) path zip,
      (putArchive path zip : Maintenance MaintenanceError Unit).run { m with archives } =
        (.ok (), { m with archives := update archives path zip }) := fun _ _ _ => rfl
  rw [writeBackupZip, bind_run (elsewhere_run hfault _ _), bind_run (hput m.archives _ _),
    bind_run (hcall _ _ _), bind_run (hput _ _ _), bind_run (hcall _ _ _), bind_run (hcall _ _ _),
    bind_run hbs, bind_run (hcall _ _ _), hput]

end

section Backup

variable (destination asOf : String) {instant : Int} (hfault : m.fault = none)
  (hasOf : S.instant asOf = .ok instant) {folder : Folder}
  (hroot : m.volume.tree .root = some folder)

include hfault hasOf hroot

theorem backup_run (hmembers : backupMembers S C folder.files = .ok members) :
    ∃ m', m'.volume = m.volume ∧ m'.lockFile = m.lockFile ∧ m'.fault = none ∧
      (backup S C destination asOf).run m =
        ((verifyArchive S C (zipMembers (S.manifest (backupManifest C asOf members)) members)).map
          fun _ => backupEvidence C asOf members, m') ∧
      ((verifyArchive S C (zipMembers (S.manifest (backupManifest C asOf members)) members)).isOk →
        m'.archives (.file destination) =
          some (.members (zipMembers (S.manifest (backupManifest C asOf members)) members))) := by
  let zip := zipMembers (S.manifest (backupManifest C asOf members)) members
  have hparse : (done (parseAsOf S asOf) : Maintenance MaintenanceError Int).run m =
      (.ok instant, m) := by
    rw [parseAsOf, hasOf]
    rfl
  obtain ⟨unsorted, hunsorted, h⟩ := of_bind_ok hmembers
  cases h
  have heach := each_run fun key (_ : key ∈ Directory.recordKeys folder.files) =>
    backupMember_run (S := S) (C := C) hfault hroot key
  rw [hunsorted] at heach
  obtain ⟨archives, hzip, harchive⟩ := writeBackupZip_run hfault destination
    (S.manifest (backupManifest C asOf (sortByPath path unsorted)))
    (sortByPath path unsorted)
  have hopen : (openBackupZip (.temporary destination)).run { m with archives } =
      (.ok zip, { m with archives }) := by
    have hfound : (openArchive (.temporary destination)).run { m with archives } =
        (.ok (.members zip), { m with archives }) := by
      rw [openArchive, io_run_of_none (m := { m with archives }) hfault]
      simp only [harchive]
      rfl
    rw [openBackupZip, bind_run (mapError_run _ hfound)]
    rfl
  rw [backup, bind_run hparse, bind_run (listRecordKeys_run hfault hroot), bind_run heach,
    bind_run hzip]
  have hverify : (verifyBackupArchive S C (.temporary destination)).run { m with archives } =
      (verifyArchive S C zip, { m with archives }) := by
    rw [verifyBackupArchive, bind_run hopen]
    rfl
  cases hresult : verifyArchive S C zip with
  | error e =>
    rw [hresult] at hverify
    refine ⟨{ m with archives := update archives (.temporary destination) none }, rfl, rfl,
      hfault, ?_, fun h => (by cases h)⟩
    show (((verifyBackupArchive S C _).handle (orElseRun _)).handle (andThen _)).run _ = _
    rw [run_handle, run_handle, hverify]
    rfl
  | ok manifest =>
    rw [hresult] at hverify
    let final := update (update archives (.file destination)
      (archives (.temporary destination))) (.temporary destination) none
    have hrename : (renameArchive (.temporary destination) (.file destination)).run
        { m with archives } = (.ok (), { m with archives := final }) :=
      io_run_of_none (m := { m with archives }) hfault
    refine ⟨{ m with archives := final }, rfl, rfl, hfault, ?_, fun _ => ?_⟩
    · rw [bind_run (onError_run _ hverify), commitBackupZip,
        bind_run (onError_run _ (mapError_run _ hrename))]
      rfl
    · show final (.file destination) = _
      rw [← harchive]
      simp only [final]
      rw [update_of_ne (by simp), update_self]

end Backup

end LocalFileDataStoreMaintenance

/-! ## Roots of version one -/

open LocalFileDataStoreMaintenance

/-- The file says that it has version one. -/
def FormatV1 (S : MaintenanceSerde ν) (bytes : Bytes) : Prop :=
  ∃ doc, S.parse bytes = some doc ∧ S.format doc = some (some localDataStoreFormat)
  deriving Decidable

/-- No member of the archive is too large to be read back. -/
structure Fits (S : MaintenanceSerde ν) (C : Crypto) (asOf : String) (d : Directory) : Prop where
  records : ∀ key bytes, key ≠ "" → d.file key = some bytes → bytes.length ≤ maxBackupMemberBytes
  manifest : ∀ members, backupMembers S C d = .ok members →
    (S.manifest (backupManifest C asOf members)).length ≤ maxBackupManifestBytes

section Root

variable {K : Option (String × Bytes) → Prop} {last : String → Option (StateRecord ν)}
  {d : Directory} (hholds : Holds S C K last d.file)

include hholds

theorem sealed_of_formatV1
    (hv1 : ∀ key bytes, key ≠ "" → d.file key = some bytes → FormatV1 S bytes)
    {record : StateRecord ν} (hlast : last key = some record) :
    record.key = key ∧ validateKey key = .ok () ∧ ∃ envelope secret,
      Seals S.toSerde C record envelope secret ∧ d.file key = some (S.envelope envelope) := by
  obtain ⟨hrecord, hkey, writeV2, envelope, secret, hseals, -, hfile⟩ :=
    hholds.some key record hlast
  refine ⟨hrecord, hkey, envelope, secret, hseals, ?_⟩
  cases writeV2 with
  | false => exact hfile
  | true =>
    obtain ⟨doc, hparse, hformat⟩ := hv1 key _ (ne_empty_of_validateKey hkey) hfile
    obtain ⟨doc', hparse', hformat', -⟩ :=
      S.v2Envelope_roundTrip (v2EnvelopeOf S.toSerde C envelope)
    rw [envelopeText, if_pos rfl, hparse', Option.some.injEq] at hparse
    rw [← hparse, hformat'] at hformat
    exact absurd hformat (by simp [v2EnvelopeOf, localDataStoreFormat, localDataStoreV2Format])

theorem exists_backupMembers (htag : C.Tagged)
    (hv1 : ∀ key bytes, key ≠ "" → d.file key = some bytes → FormatV1 S bytes) :
    ∃ members, backupMembers S C d = .ok members := by
  obtain ⟨unsorted, hunsorted⟩ : ∃ unsorted, d.recordKeys.mapM (memberOf S C d) = .ok unsorted := by
    refine exists_mapM_ok fun key hlisted => ?_
    obtain ⟨record, hlast⟩ := Option.ne_none_iff_exists'.1 ((hholds.mem_recordKeys key).1 hlisted)
    obtain ⟨-, hkey, envelope, secret, hseals, hfile⟩ := sealed_of_formatV1 hholds hv1 hlast
    exact ⟨_, memberOf_of_parse hkey hfile (parseEnvelopeBytes_sealed htag hseals)⟩
  exact ⟨_, by simp only [backupMembers, hunsorted, bind, Except.bind]; rfl⟩

theorem fits_iff (hmembers : backupMembers S C d = .ok members) (asOf : String) : Fits S C asOf d ↔
      (verifyArchive S C
        (zipMembers (S.manifest (backupManifest C asOf members)) members)).isOk := by
  have harchived := Archived.of_backupMembers hholds hmembers
  constructor
  · intro hfits
    rw [verifyArchive_zipMembers asOf harchived.sorted harchived.nodup (fun member hmem => ?_)
      (hfits.manifest members hmembers)]
    · rfl
    · have hkey := (harchived.keys _).2 ⟨member, hmem, rfl⟩
      exact harchived.sound member hmem (hfits.records _ _
        (Directory.mem_recordKeys.1 hkey).1 (harchived.file member hmem))
  · intro hok
    cases hverify : verifyArchive S C
        (zipMembers (S.manifest (backupManifest C asOf members)) members) with
    | error e =>
      rw [hverify] at hok
      cases hok
    | ok manifest =>
      obtain ⟨hmanifest, hrecords⟩ :=
        sizes_of_verifyArchive harchived.nodup harchived.paths hverify
      refine ⟨fun key bytes hne hfile => ?_, fun members' hmembers' => ?_⟩
      · obtain ⟨member, hmem, rfl⟩ := (harchived.keys key).1 (Directory.mem_recordKeys.2
          ⟨hne, by rw [hfile]; exact Option.some_ne_none _⟩)
        rw [harchived.file member hmem, Option.some.injEq] at hfile
        exact hfile ▸ hrecords member hmem
      · rw [hmembers, Except.ok.injEq] at hmembers'
        exact hmembers' ▸ hmanifest

end Root

end Traverse.Storage

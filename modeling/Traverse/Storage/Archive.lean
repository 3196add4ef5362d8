import Traverse.Storage.Maintenance

/-!
# Storage.Archive

The checks of maintenance against what the store and the backup write. An envelope that `write`
makes passes `parse_envelope_bytes` in version one (`parseEnvelopeBytes_sealed`) and never in
version two (`parseEnvelopeBytes_v2`). An archive of such envelopes passes `verify_backup_archive`
(`verifyArchive_zipMembers`).
-/

namespace Traverse.Storage

open Lines List BackupMember

variable {ν : Type} {S : MaintenanceSerde ν} {C : Crypto}

/-! ## Envelopes -/

def Crypto.Tagged (C : Crypto) : Prop :=
  ∀ key nonce aad plaintext, 16 ≤ (C.encrypt key nonce aad plaintext).length

variable {record : StateRecord ν} {envelope : LocalDataStoreEnvelope ν}
  {secret : Option (String × Bytes)} {bytes : Bytes} {ε α β : Type} {key : String}
  {members : List BackupMember} {member : BackupMember} {maximumBytes : Nat}

theorem Seals.envelopeRecordKey (h : Seals S.toSerde C record envelope secret) :
    envelopeRecordKey envelope = .ok record.key := by
  cases h <;> rfl

theorem Seals.expectedDigest (htag : C.Tagged) (h : Seals S.toSerde C record envelope secret) :
    expectedDigest S C envelope record.key = .ok envelope.digest := by
  cases h with
  | inTheOpen retainedAt => rfl
  | under keyId key nonce retainedAt hnonce =>
    have hlength := htag key nonce (privateRecordAad keyId record.key) (S.record record)
    simp [Storage.expectedDigest, privateEnvelopeOf, hexDecode_hexEncode, hnonce, hlength]

theorem parseEnvelopeBytes_sealed (htag : C.Tagged) (h : Seals S.toSerde C record envelope secret) :
    parseEnvelopeBytes S C (S.envelope envelope) = .ok envelope := by
  obtain ⟨doc, hparse, hformat, hto⟩ := S.envelope_roundTrip envelope
  simp [parseEnvelopeBytes, hparse, hformat, hto, h.format, h.envelopeRecordKey,
    h.expectedDigest htag, bind, Except.bind]

theorem parseEnvelopeBytes_ok (h : parseEnvelopeBytes S C bytes = .ok envelope) :
    ∃ doc, S.parse bytes = some doc ∧ S.toEnvelope doc = some envelope ∧
      S.format doc = some (some localDataStoreFormat) := by
  unfold parseEnvelopeBytes at h
  split at h
  · cases h
  next doc hparse =>
  split at h
  · cases h
  split at h
  · cases h
  next envelope' hto =>
  split at h
  · cases h
  next hformat =>
  obtain ⟨key, -, h⟩ := of_bind_ok h
  obtain ⟨expected, -, h⟩ := of_bind_ok h
  split at h
  · cases h
  cases h
  exact ⟨doc, hparse, hto, by rw [S.toEnvelope_format doc _ hto, not_not.1 hformat]⟩

theorem parseEnvelopeBytes_v2 (payload : LocalDataStoreEnvelope ν) :
    (parseEnvelopeBytes S C (S.v2Envelope (v2EnvelopeOf S.toSerde C payload))).isOk = false := by
  cases hresult : parseEnvelopeBytes S C (S.v2Envelope (v2EnvelopeOf S.toSerde C payload)) with
  | error e => rfl
  | ok envelope =>
    obtain ⟨doc, hparse, -, hformat⟩ := parseEnvelopeBytes_ok hresult
    obtain ⟨doc', hparse', hformat', -⟩ :=
      S.v2Envelope_roundTrip (v2EnvelopeOf S.toSerde C payload)
    rw [hparse, Option.some.injEq] at hparse'
    subst hparse'
    rw [hformat] at hformat'
    exact absurd hformat' (by simp [v2EnvelopeOf, localDataStoreFormat, localDataStoreV2Format])

/-! ## Loops -/

variable {f : α → Except ε β} {as : List α} {bs : List β}

theorem forall₂_of_mapM_ok (h : as.mapM f = .ok bs) :
    List.Forall₂ (fun a b => f a = .ok b) as bs := by
  induction as generalizing bs with
  | nil =>
    cases h
    exact .nil
  | cons a as ih =>
    rw [mapM_cons] at h
    obtain ⟨b, hb, h⟩ := of_bind_ok h
    obtain ⟨rest, hrest, h⟩ := of_bind_ok h
    cases h
    exact .cons hb (ih hrest)

theorem mem_of_forall₂ {R : α → β → Prop} (h : List.Forall₂ R as bs) {a : α} (ha : a ∈ as) :
    ∃ b ∈ bs, R a b := by
  induction h with
  | nil => exact absurd ha not_mem_nil
  | cons hab _ ih =>
    rcases mem_cons.1 ha with rfl | ha
    · exact ⟨_, mem_cons_self, hab⟩
    · obtain ⟨b, hb, hR⟩ := ih ha
      exact ⟨b, mem_cons_of_mem _ hb, hR⟩

theorem exists_mapM_ok (h : ∀ a ∈ as, ∃ b, f a = .ok b) : ∃ bs, as.mapM f = .ok bs := by
  induction as with
  | nil => exact ⟨[], rfl⟩
  | cons a as ih =>
    obtain ⟨b, hb⟩ := h a mem_cons_self
    obtain ⟨bs, hbs⟩ := ih fun a' ha' => h a' (mem_cons_of_mem _ ha')
    refine ⟨b :: bs, ?_⟩
    rw [mapM_cons, hb, hbs]
    rfl

/-! ## Archives -/

/-- A member as `backup` makes it, small enough to be read back. -/
structure BackupMember.Sound (S : MaintenanceSerde ν) (C : Crypto) (member : BackupMember) :
    Prop where
  key : validateKey member.entry.key = .ok ()
  path : member.path = s!"{backupRecordsPrefix}{recordFile member.entry.key}"
  memberPath : member.entry.memberPath = member.path
  digest : member.entry.envelopeDigest = digestBytes C member.bytes
  size : member.bytes.length ≤ maxBackupMemberBytes
  envelope : ∃ envelope, parseEnvelopeBytes S C member.bytes = .ok envelope ∧
    envelopeRecordKey envelope = .ok member.entry.key

theorem toList_memberPath (key : String) : (s!"{backupRecordsPrefix}{recordFile key}").toList =
    "records/".toList ++ key.toList ++ ".json".toList := by
  simp [toString, toList_recordFile, backupRecordsPrefix]

theorem dot_not_mem_of_validateKey (h : validateKey key = .ok ()) : '.' ∉ key.toList := by
  intro hmem
  unfold validateKey at h
  split at h
  · next hvalid =>
    have := all_eq_true.1 hvalid.2 '.' hmem
    revert this
    decide
  · cases h

theorem find?_path (hnodup : (members.map path).Nodup) (hmem : member ∈ members) :
    members.find? (fun m => m.path = member.path) = some member := by
  induction members with
  | nil => exact absurd hmem not_mem_nil
  | cons m ms ih =>
    rw [map_cons, nodup_cons] at hnodup
    rcases mem_cons.1 hmem with rfl | hmem
    · simp
    · have hne : ¬ m.path = member.path := fun heq =>
        hnodup.1 (heq ▸ mem_map_of_mem hmem)
      simp [hne, ih hnodup.2 hmem]

variable (manifestBytes : Bytes)

theorem zipMembers_path (hnodup : (members.map path).Nodup)
    (hmem : member ∈ members) (hpath : member.path = s!"{backupRecordsPrefix}{recordFile key}") :
    zipMembers manifestBytes members member.path = some (.ok member.bytes) := by
  have hne : ¬ member.path = backupManifestMember := by
    rw [hpath]
    intro h
    have hlist := congrArg String.toList h
    rw [toList_memberPath] at hlist
    exact absurd (congrArg List.head? hlist) (by simp [backupManifestMember])
  rw [zipMembers, if_neg hne, find?_path hnodup hmem]
  rfl

theorem length_le_of_readZipMemberBounded {read : Bytes}
    (h : readZipMemberBounded (.ok bytes) maximumBytes = .ok read) :
    read = bytes ∧ bytes.length ≤ maximumBytes := by
  unfold readZipMemberBounded at h
  split at h
  · next heq => cases heq
  next heq =>
  cases heq
  split at h
  · cases h
  next hle =>
  cases h
  exact ⟨rfl, not_lt.1 hle⟩

theorem readZipMemberBounded_ok (h : bytes.length ≤ maximumBytes) :
    readZipMemberBounded (.ok bytes) maximumBytes = .ok bytes := by
  rw [readZipMemberBounded, if_neg (not_lt.2 h)]

theorem verifyMemberPayload_zipMembers (hnodup : (members.map path).Nodup) (hmem : member ∈ members)
    (hsound : member.Sound S C) :
    verifyMemberPayload S C (zipMembers manifestBytes members) member.entry =
      .ok (member.path, member.bytes) := by
  obtain ⟨envelope, hparse, hkey⟩ := hsound.envelope
  have hfolder : backupRecordsPrefix.toList <+: member.path.toList := by
    rw [hsound.path, toList_memberPath, append_assoc]
    exact prefix_append _ _
  have hdots : ¬ "..".toList <:+: member.path.toList := by
    intro hinfix
    have hle := hinfix.sublist.count_le '.'
    rw [hsound.path, toList_memberPath, count_append, count_append,
      count_eq_zero_of_not_mem (dot_not_mem_of_validateKey hsound.key)] at hle
    revert hle
    decide
  have hmember := zipMembers_path manifestBytes hnodup hmem hsound.path
  simp only [verifyMemberPayload, hsound.memberPath, hfolder, hdots, not_true_eq_false, or_self,
    if_false, hmember, readZipMemberBounded_ok hsound.size, Except.mapError, bind, Except.bind,
    hsound.digest, ne_eq, hparse, hkey]

theorem mapM_verifyMemberPayload (hnodup : (members.map path).Nodup)
    (hsound : ∀ member ∈ members, member.Sound S C)
    (some : List BackupMember) (hsome : ∀ member ∈ some, member ∈ members) :
    (some.map entry).mapM
      (verifyMemberPayload S C (zipMembers manifestBytes members)) =
      .ok (some.map fun member => (member.path, member.bytes)) := by
  induction some with
  | nil => rfl
  | cons member rest ih =>
    have hmem := hsome member mem_cons_self
    rw [map_cons, mapM_cons,
      verifyMemberPayload_zipMembers manifestBytes hnodup hmem (hsound member hmem),
      ih fun member' hmem' => hsome member' (mem_cons_of_mem _ hmem')]
    rfl

theorem sortByPath_pairwise (path : α → String) (as : List α) :
    (sortByPath path as).Pairwise fun a b => path a ≤ path b := by
  refine (pairwise_mergeSort ?_ ?_ as).imp of_decide_eq_true
  · intro a b c hab hbc
    exact decide_eq_true ((of_decide_eq_true hab).trans (of_decide_eq_true hbc))
  · intro a b
    rcases le_total (path a) (path b) with h | h <;> simp [h]

open LocalFileDataStoreMaintenance (backupManifest)

theorem readAndValidateManifestHeader_zipMembers (asOf : String) (members : List BackupMember)
    (hsize : (S.manifest (backupManifest C asOf members)).length ≤ maxBackupManifestBytes) :
    readAndValidateManifestHeader S
      (zipMembers (S.manifest (backupManifest C asOf members)) members) =
      .ok (backupManifest C asOf members) := by
  have hversion : (backupManifest C asOf members).manifestFormatVersion = backupManifestVersion :=
    rfl
  have hformat : (backupManifest C asOf members).storeFormat = localDataStoreFormat := rfl
  simp [readAndValidateManifestHeader, zipMembers, readZipMemberBounded_ok hsize, Except.mapError,
    bind, Except.bind, S.manifest_roundTrip, hversion, hformat]

theorem verifyManifestMemberPayloads_zipMembers (asOf : String) (manifestBytes : Bytes)
    (hsorted : members.Pairwise fun a b => a.path ≤ b.path)
    (hnodup : (members.map path).Nodup) (hsound : ∀ member ∈ members, member.Sound S C) :
    verifyManifestMemberPayloads S C (zipMembers manifestBytes members)
      (backupManifest C asOf members) = .ok () := by
  have hpayloads := mapM_verifyMemberPayload manifestBytes hnodup hsound members fun _ h => h
  have hpairs : (members.map fun member => (member.path, member.bytes)).Pairwise
      fun a b => a.1 ≤ b.1 := pairwise_map.2 hsorted
  simp [verifyManifestMemberPayloads, backupManifest, hpayloads, bind, Except.bind,
    sortByPath, mergeSort_of_pairwise (hpairs.imp fun hle => decide_eq_true hle)]

theorem verifyArchive_zipMembers (asOf : String)
    (hsorted : members.Pairwise fun a b => a.path ≤ b.path)
    (hnodup : (members.map path).Nodup) (hsound : ∀ member ∈ members, member.Sound S C)
    (hsize : (S.manifest (backupManifest C asOf members)).length ≤ maxBackupManifestBytes) :
    verifyArchive S C (zipMembers (S.manifest (backupManifest C asOf members)) members) =
      .ok (backupManifest C asOf members) := by
  simp only [verifyArchive, readAndValidateManifestHeader_zipMembers asOf members hsize,
    verifyManifestMemberPayloads_zipMembers asOf _ hsorted hnodup hsound, bind, Except.bind]

/-- What has been found for an entry of a manifest that passes the checks. -/
def Declares (S : MaintenanceSerde ν) (C : Crypto) (byName : String → Option (Except String Bytes))
    (entry : BackupRecordIndexEntry) (bytes : Bytes) : Prop :=
  byName entry.memberPath = some (.ok bytes) ∧ bytes.length ≤ maxBackupMemberBytes ∧
    ∃ envelope, parseEnvelopeBytes S C bytes = .ok envelope ∧
      envelopeRecordKey envelope = .ok entry.key

variable {byName : String → Option (Except String Bytes)}

theorem verifyMemberPayload_ok {entry : BackupRecordIndexEntry} {pair : String × Bytes}
    (h : verifyMemberPayload S C byName entry = .ok pair) :
      ∃ bytes, Declares S C byName entry bytes := by
  unfold verifyMemberPayload at h
  split at h
  · cases h
  cases hmember : byName entry.memberPath with
  | none => simp [hmember, bind, Except.bind] at h
  | some member =>
    simp only [hmember] at h
    obtain ⟨found, ⟨⟩, h⟩ := of_bind_ok h
    obtain ⟨bytes, hbytes, h⟩ := of_bind_ok h
    split at h
    · cases h
    obtain ⟨envelope, hparse, h⟩ := of_bind_ok h
    obtain ⟨key, hkey, h⟩ := of_bind_ok h
    split at h
    · cases h
    next hsame =>
    rw [not_not.1 hsame] at hkey
    have hbounded := LocalFileDataStore.of_mapError_ok hbytes
    cases member with
    | error e => cases hbounded
    | ok member =>
      obtain ⟨rfl, hsize⟩ := length_le_of_readZipMemberBounded hbounded
      exact ⟨bytes, hmember, hsize, envelope, hparse, hkey⟩

theorem verifyArchive_ok {manifest : BackupManifest}
    (h : verifyArchive S C byName = .ok manifest) : manifest.recordCount = manifest.records.length ∧
      ∀ entry ∈ manifest.records, ∃ bytes, Declares S C byName entry bytes := by
  obtain ⟨header, -, h⟩ := of_bind_ok h
  obtain ⟨_, hpayloads, ⟨⟩⟩ := of_bind_ok h
  obtain ⟨members, hmembers, hchecks⟩ := of_bind_ok hpayloads
  split_ifs at hchecks with _ hcount
  refine ⟨not_not.1 hcount, fun entry hentry => ?_⟩
  obtain ⟨pair, -, hpair⟩ := mem_of_forall₂ (forall₂_of_mapM_ok hmembers) hentry
  exact verifyMemberPayload_ok hpair

theorem sizes_of_verifyArchive {asOf : String} {manifest : BackupManifest}
    (hnodup : (members.map path).Nodup)
    (hpath : ∀ member ∈ members, member.entry.memberPath = member.path ∧
      member.path = s!"{backupRecordsPrefix}{recordFile member.entry.key}")
    (h : verifyArchive S C (zipMembers (S.manifest (backupManifest C asOf members)) members) =
      .ok manifest) :
    (S.manifest (backupManifest C asOf members)).length ≤ maxBackupManifestBytes ∧
      ∀ member ∈ members, member.bytes.length ≤ maxBackupMemberBytes := by
  have hdeclares := (verifyArchive_ok h).2
  obtain ⟨header, hheader, h⟩ := of_bind_ok h
  obtain ⟨_, -, ⟨⟩⟩ := of_bind_ok h
  have hsize : (S.manifest (backupManifest C asOf members)).length ≤ maxBackupManifestBytes := by
    obtain ⟨member, hmember, hheader⟩ := of_bind_ok hheader
    obtain ⟨bytes, hbytes, -⟩ := of_bind_ok hheader
    cases hmember
    exact (length_le_of_readZipMemberBounded (LocalFileDataStore.of_mapError_ok hbytes)).2
  refine ⟨hsize, fun member hmem => ?_⟩
  rw [readAndValidateManifestHeader_zipMembers asOf members hsize] at hheader
  cases hheader
  obtain ⟨bytes, hbytes, hbound, -⟩ := hdeclares member.entry (mem_map_of_mem hmem)
  rw [(hpath member hmem).1, zipMembers_path _ hnodup hmem (hpath member hmem).2] at hbytes
  cases hbytes
  exact hbound

end Traverse.Storage

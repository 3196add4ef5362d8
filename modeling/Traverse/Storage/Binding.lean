import Traverse.Storage.Serialize

/-!
# Storage.Binding

Is a record that is read under a key a record of that key? Every private record of the local store
is. Otherwise it depends on what is in the file or in the object (`read_binds_key`): a copy of the
public envelope of another key is not noticed, and neither is a copy of a remote object
(`copied_record_read`).
-/

namespace Traverse.Storage

open Lines RemoteKeyValueDataStore LocalFileDataStore

variable {ν : Type} (S : Serde ν) (C : Crypto)

/-- The file holds a public envelope, in either format, of this record with its digest. -/
def LocalFileDataStore.HoldsPublic (bytes : Bytes) (record : StateRecord ν) : Prop :=
  ∃ envelope, openEnvelope S C bytes = .ok envelope ∧ envelope.classification = .publicData ∧
    envelope.record = some record ∧ envelope.digest = digestForRecord S C record ∧
    envelope.keyId = none ∧ envelope.nonce = none ∧ envelope.ciphertext = none ∧
    envelope.recordKey = none

/-- The object holds an envelope of this record that the store takes. -/
def RemoteKeyValueDataStore.HoldsRecord (store : RemoteKeyValueDataStore) (bytes : Bytes)
    (record : StateRecord ν) : Prop :=
  ∃ envelope, (S.parse bytes).bind S.toRemoteEnvelope = some envelope ∧
    envelope.format = remoteDataStoreFormat ∧ envelope.classification = store.classification ∧
    envelope.digest = digestForRecord S C envelope.record ∧ envelope.record = record

theorem LocalFileDataStore.readPublicEnvelope_eq {envelope : LocalDataStoreEnvelope ν}
    {record : StateRecord ν} : readPublicEnvelope S C envelope = .ok (some record) ↔
      envelope.record = some record ∧ envelope.digest = digestForRecord S C record ∧
        envelope.keyId = none ∧ envelope.nonce = none ∧ envelope.ciphertext = none ∧
        envelope.recordKey = none := by
  unfold readPublicEnvelope
  cases envelope.record with
  | none => simp
  | some held =>
    simp only [Option.isSome_iff_ne_none]
    split_ifs <;> grind

/-- Records are bound to the key under which they are read exactly if, for a key that can be read,
the file does not hold a public envelope in good order of a record of another key. Whatever else is
there, a private envelope in particular, is refused or has the key. For a remote object it is the
same, with both classifications. -/
theorem read_binds_key :
    (∀ (store : LocalFileDataStore) (key : String),
      (∀ r, store.read S C key = .ok (some r) → r.key = key) ↔
      ∀ bytes r, validateKey key = .ok () → store.files key = some bytes →
        LocalFileDataStore.HoldsPublic S C bytes r → r.key = key) ∧
    ∀ (store : RemoteKeyValueDataStore) (key : String),
      (∀ r, store.read S C key = .ok (some r) → r.key = key) ↔
      ∀ bytes r, validateKey key = .ok () → store.get key = .ok (some bytes) →
        store.HoldsRecord S C bytes r → r.key = key := by
  refine ⟨fun store key => ⟨fun h bytes r hkey hfile hpublic => ?_, fun h r hread => ?_⟩,
    fun store key => ⟨fun h bytes r hkey hget hrecord => ?_, fun h r hread => ?_⟩⟩
  · obtain ⟨envelope, hopen, hclass, hrecord⟩ := hpublic
    refine h r ?_
    simp only [LocalFileDataStore.read, hkey, hfile, bind, Except.bind, hopen, hclass]
    exact (readPublicEnvelope_eq S C).2 hrecord
  · obtain ⟨_, hkey, hread⟩ := of_bind_ok hread
    split at hread
    · cases hread
    next bytes hfile =>
    obtain ⟨envelope, hopen, hread⟩ := of_bind_ok hread
    cases hclass : envelope.classification with
    | publicData =>
      rw [hclass] at hread
      exact h bytes r hkey hfile ⟨envelope, hopen, hclass, (readPublicEnvelope_eq S C).1 hread⟩
    | privateData =>
      rw [hclass] at hread
      exact decryptPrivateEnvelope_key S C hread
  · obtain ⟨envelope, hparse, hformat, hclass, hdigest, rfl⟩ := hrecord
    refine h _ ?_
    simp [RemoteKeyValueDataStore.read, hkey, hget, bind, Except.bind, decodeEnvelope, hparse,
      hformat, hclass, hdigest, Except.map]
  · obtain ⟨_, hkey, hread⟩ := of_bind_ok hread
    split at hread
    · cases hread
    · cases hread
    next bytes hget =>
    refine h bytes r hkey hget ?_
    unfold decodeEnvelope at hread
    split at hread
    · cases hread
    next envelope hparse =>
    split at hread
    · cases hread
    next hformat =>
    split at hread
    · cases hread
    next hclass =>
    split at hread
    · cases hread
    next hdigest =>
    cases hread
    exact ⟨envelope, hparse, not_not.1 hformat, not_not.1 hclass, (not_not.1 hdigest).symm, rfl⟩

/-- A stand-in for the primitives: the digest is the text, and a ciphertext is the associated data
followed by the plaintext. -/
def transparent : Crypto where
  sha256 := id
  encrypt := fun _ _ aad plaintext => aad ++ plaintext
  decrypt := fun _ _ aad ciphertext =>
    if ciphertext.take aad.length = aad then some (ciphertext.drop aad.length) else none
  decrypt_encrypt := by simp

def draft (key : String) : StateRecord Json.Value := ⟨key, .str "ready", 1, "writer-a"⟩

def publicStore (files : String → Option Bytes) : LocalFileDataStore :=
  ⟨.publicData, none, none, files⟩

/-- The file of `"b"` is a copy of the public file of `"a"`, in either format, or the remote object
of `"b"` is a copy of the object of `"a"`, with either classification: the record of `"a"` is read
under the key `"b"`. -/
theorem copied_record_read :
    (∀ writeV2, ∃ store : LocalFileDataStore,
      store.files "b" = some (envelopeText jsonSerde transparent writeV2
        (store.publicEnvelope jsonSerde transparent (draft "a"))) ∧
      store.read jsonSerde transparent "b" = .ok (some (draft "a"))) ∧
    (∀ classification, ∃ store : RemoteKeyValueDataStore, store.classification = classification ∧
      store.get "b" = .ok (some (envelopeBytes jsonSerde transparent classification (draft "a"))) ∧
      store.read jsonSerde transparent "b" = .ok (some (draft "a"))) ∧
    (draft "a").key ≠ "b" := by
  refine ⟨fun writeV2 => ?_, fun classification => ?_, by decide⟩
  · let store := publicStore fun _ => some (envelopeText jsonSerde transparent
      writeV2 ((publicStore fun _ => none).publicEnvelope jsonSerde transparent (draft "a")))
    exact ⟨store, rfl, read_public jsonSerde transparent store
      (show validateKey "b" = .ok () from rfl) rfl rfl⟩
  · let store : RemoteKeyValueDataStore := ⟨classification, fun _ => .ok (some
      (envelopeBytes jsonSerde transparent classification (draft "a")))⟩
    exact ⟨store, rfl, rfl, read_envelopeBytes jsonSerde transparent
      (show validateKey "b" = .ok () from rfl) rfl⟩

end Traverse.Storage

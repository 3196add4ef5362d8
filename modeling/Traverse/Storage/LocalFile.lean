import Mathlib.Data.List.Induction
import Mathlib.Data.List.Sort
import Traverse.Storage.Envelope

/-!
# Storage.LocalFile

`LocalFileDataStore` over a directory, which can be listed. Reading and writing a record are those
of `Storage.Envelope`; here are the file names, `delete` and `list_keys`.

`Seals` says what envelopes `write` makes of a record, in the open or under a key. `read_sealed`
reads such an envelope back, from a file of either format, by every store whose provider still has
the key.
-/

namespace Traverse.Storage

open Lines List Function

/-! ## Directories -/

/-- The regular files of a directory, by name. -/
abbrev Directory := Std.ExtTreeMap String Bytes compare

def recordFile (key : String) : String := s!"{key}.json"

/-- The stem of a name with the extension `json`. A name that begins with its only dot has no
extension. -/
def keyOfFile (name : String) : Option String :=
  if ".json".toList <:+ name.toList ∧ 5 < name.toList.length then
    some (String.ofList (name.toList.take (name.toList.length - 5)))
  else none

theorem toList_recordFile (key : String) :
    (recordFile key).toList = key.toList ++ ".json".toList := by
  simp [recordFile, toString]

theorem recordFile_injective : Injective recordFile := by
  intro k k' h
  have := congrArg String.toList h
  rw [toList_recordFile, toList_recordFile, append_cancel_right_eq] at this
  exact String.toList_injective this

theorem keyOfFile_eq_some {name key : String} :
    keyOfFile name = some key ↔ name = recordFile key ∧ key ≠ "" := by
  constructor
  · intro h
    unfold keyOfFile at h
    split at h
    · next hname =>
      obtain ⟨⟨stem, hstem⟩, hlength⟩ := hname
      have htake : name.toList.take (name.toList.length - 5) = stem := by
        rw [← hstem]
        simp
      rw [htake, Option.some.injEq] at h
      subst h
      refine ⟨?_, ?_⟩
      · apply String.toList_injective
        rw [toList_recordFile, String.toList_ofList, hstem]
      · rintro hnil
        have : stem = [] := by simpa using congrArg String.toList hnil
        rw [← hstem, this] at hlength
        simp at hlength
    · cases h
  · rintro ⟨rfl, hkey⟩
    have hpos : 0 < key.toList.length := by
      rw [length_pos_iff]
      exact fun hnil => hkey (String.toList_injective hnil)
    rw [keyOfFile, toList_recordFile, if_pos]
    · simp
    · refine ⟨⟨_, rfl⟩, ?_⟩
      simp
      omega

namespace Directory

def file (d : Directory) (key : String) : Option Bytes := d[recordFile key]?

/-- `list_keys`, of the adapter and of maintenance. -/
def recordKeys (d : Directory) : List String :=
  (d.keys.filterMap keyOfFile).mergeSort fun k k' => decide (k ≤ k')

variable {d : Directory}

theorem mem_recordKeys {key : String} : key ∈ d.recordKeys ↔ key ≠ "" ∧ d.file key ≠ none := by
  rw [recordKeys, mem_mergeSort, mem_filterMap]
  constructor
  · rintro ⟨name, hname, hkey⟩
    obtain ⟨rfl, hne⟩ := keyOfFile_eq_some.1 hkey
    exact ⟨hne, by simpa [file] using hname⟩
  · rintro ⟨hne, hfile⟩
    exact ⟨recordFile key, by simpa [file] using hfile, keyOfFile_eq_some.2 ⟨rfl, hne⟩⟩

theorem recordKeys_sorted (d : Directory) : d.recordKeys.Pairwise (· < ·) := by
  have hnodup : d.recordKeys.Nodup := by
    refine (List.Perm.nodup_iff (mergeSort_perm _ _)).2 (List.Nodup.filterMap ?_ ?_)
    · intro name name' key hname hname'
      rw [(keyOfFile_eq_some.1 hname).1, (keyOfFile_eq_some.1 hname').1]
    · exact Std.ExtTreeMap.distinct_keys.imp fun hne heq => hne (by simp [heq])
  have hle : d.recordKeys.Pairwise (· ≤ ·) := by
    refine (pairwise_mergeSort ?_ ?_ _).imp of_decide_eq_true
    · intro a b c hab hbc
      exact decide_eq_true ((of_decide_eq_true hab).trans (of_decide_eq_true hbc))
    · intro a b
      rcases le_total a b with h | h <;> simp [h]
  exact List.Pairwise.imp₂ (fun a b hle hne => lt_of_le_of_ne hle hne) hle hnodup

theorem recordKeys_eq {d' : Directory} (h : ∀ key, key ≠ "" → d.file key = d'.file key) :
    d.recordKeys = d'.recordKeys := by
  refine List.Pairwise.eq_of_mem_iff d.recordKeys_sorted d'.recordKeys_sorted fun key => ?_
  rw [mem_recordKeys, mem_recordKeys]
  exact and_congr_right fun hne => by rw [h key hne]

def put (d : Directory) (key : String) (bytes : Bytes) : Directory :=
  d.insert (recordFile key) bytes

def remove (d : Directory) (key : String) : Directory := d.erase (recordFile key)

theorem file_put (d : Directory) (key : String) (bytes : Bytes) :
    (d.put key bytes).file = update d.file key (some bytes) := by
  funext k
  simp only [file, put, getElem?_insert_string, update_apply,
    recordFile_injective.eq_iff]

theorem file_remove (d : Directory) (key : String) :
    (d.remove key).file = update d.file key none := by
  funext k
  simp only [file, remove, getElem?_erase_string, update_apply,
    recordFile_injective.eq_iff]

end Directory

/-! ## Envelopes of a record -/

theorem hexDecode_hexEncode (bytes : Bytes) : hexDecode (hexEncode bytes) = .ok bytes := by
  have hpairs : Hex.pairs decodeHexDigit (hexEncode bytes).toList = some bytes := by
    rw [hexEncode, String.toList_ofList]
    exact Hex.pairs_encode (by decide) bytes
  simp only [hexDecode, hpairs]

theorem decodeNonce_hexEncode {nonce : Bytes} (h : nonce.length = 12) :
    decodeNonce (hexEncode nonce) = .ok nonce := by
  simp [decodeNonce, hexDecode_hexEncode, bind, Except.bind, h]

variable {ν : Type} (S : Serde ν) (C : Crypto)

/-- What `write` makes of a record, and the key it needs to be opened. -/
inductive Seals (record : StateRecord ν) :
    LocalDataStoreEnvelope ν → Option (String × Bytes) → Prop where
  | inTheOpen (retainedAt : Option String) :
    Seals record (publicEnvelopeOf S C retainedAt record) none
  | under (keyId : String) (key nonce : Bytes) (retainedAt : Option String)
    (hnonce : nonce.length = 12) :
    Seals record (privateEnvelopeOf S C keyId key nonce retainedAt record) (some (keyId, key))

variable {S C} {record : StateRecord ν} {envelope : LocalDataStoreEnvelope ν}
  {secret : Option (String × Bytes)}

theorem Seals.format (h : Seals S C record envelope secret) :
    envelope.format = localDataStoreFormat := by
  cases h <;> rfl

namespace LocalFileDataStore

/-- The provider of the store has this key. -/
def Unlocks (store : LocalFileDataStore) (secret : Option (String × Bytes)) : Prop :=
  ∀ keyId key, secret = some (keyId, key) →
    ∃ provider, store.keyProvider = some provider ∧ provider.keyFor keyId = .ok key

variable {store : LocalFileDataStore}

theorem of_mapError_ok {ε ε' α : Type} {x : Except ε α} {f : ε → ε'} {a : α}
    (h : x.mapError f = .ok a) : x = .ok a := by
  cases x with
  | error e => cases h
  | ok b => cases h; rfl

theorem read_sealed (hkey : validateKey record.key = .ok ())
    (hseals : Seals S C record envelope secret) {writeV2 : Bool}
    (hfile : store.files record.key = some (envelopeText S C writeV2 envelope))
    (hunlocks : store.Unlocks secret) : store.read S C record.key = .ok (some record) := by
  have hopen := openEnvelope_envelopeText S C hseals.format writeV2
  simp only [read, hkey, hfile, bind, Except.bind, hopen]
  cases hseals with
  | inTheOpen retainedAt => simp [publicEnvelopeOf, readPublicEnvelope]
  | under keyId key nonce retainedAt hnonce =>
    obtain ⟨provider, hprovider, hfor⟩ := hunlocks keyId key rfl
    simp [privateEnvelopeOf, decryptPrivateEnvelope, requiredKeyProvider, hprovider, hfor, bind,
      Except.bind, Except.mapError, decodeNonce_hexEncode hnonce, hexDecode_hexEncode,
      C.decrypt_encrypt, S.record_roundTrip]

/-- A write that succeeds replaces one file by a sealed envelope, under a key it has. -/
theorem write_ok {store' : LocalFileDataStore} {nonce : Bytes} (hnonce : nonce.length = 12)
    (h : store.write S C nonce record = .ok store') :
    validateKey record.key = .ok () ∧ ∃ (writeV2 : Bool) (envelope : LocalDataStoreEnvelope ν)
      (secret : Option (String × Bytes)), Seals S C record envelope secret ∧
      store.Unlocks secret ∧ store' = { store with
        files := update store.files record.key (some (envelopeText S C writeV2 envelope)) } := by
  obtain ⟨_, hkey, h⟩ := of_bind_ok h
  obtain ⟨writeV2, _, h⟩ := of_bind_ok h
  obtain ⟨envelope, henvelope, h⟩ := of_bind_ok h
  cases h
  unfold envelopeFor at henvelope
  split at henvelope
  · next hclass =>
    cases henvelope
    refine ⟨hkey, writeV2, _, none, .inTheOpen store.writeRetainedAt, fun _ _ h => (by cases h), ?_⟩
    simp [publicEnvelope, publicEnvelopeOf, hclass]
  · obtain ⟨provider, hprovider, henvelope⟩ := of_bind_ok henvelope
    obtain ⟨keyId, _, henvelope⟩ := of_bind_ok henvelope
    obtain ⟨key, hfor, henvelope⟩ := of_bind_ok henvelope
    cases henvelope
    refine ⟨hkey, writeV2, _, some (keyId, key),
      .under keyId key nonce store.writeRetainedAt hnonce, ?_, rfl⟩
    rintro _ _ ⟨⟩
    refine ⟨provider, ?_, of_mapError_ok hfor⟩
    unfold requiredKeyProvider at hprovider
    split at hprovider
    · cases hprovider
      assumption
    · cases hprovider

end LocalFileDataStore

/-! ## The adapter -/

/-- A `LocalFileDataStore` that owns its root directory. -/
structure OpenRoot where
  classification : LocalDataClassification
  keyProvider : Option KeyProvider
  writeRetainedAt : Option String
  directory : Directory

open LocalFileDataStore (envelopeText)

namespace OpenRoot

def store (s : OpenRoot) : LocalFileDataStore :=
  ⟨s.classification, s.keyProvider, s.writeRetainedAt, s.directory.file⟩

variable (S C) in
/-- The new contents are renamed over the file of the key. -/
def write (s : OpenRoot) (nonce : Bytes) (record : StateRecord ν) :
    Except DataStoreError Unit × OpenRoot :=
  match s.store.write S C nonce record with
  | .error e => (.error e, s)
  | .ok store =>
    match store.files record.key with
    | none => (.ok (), s)
    | some bytes => (.ok (), { s with directory := s.directory.put record.key bytes })

/-- A file that is not there counts as removed. -/
def delete (s : OpenRoot) (key : String) : Except DataStoreError Unit × OpenRoot :=
  match validateKey key with
  | .error e => (.error e, s)
  | .ok () => (.ok (), { s with directory := s.directory.remove key })

end OpenRoot

variable (S C) in
/-- The nonce is the one that `fresh_aes_nonce` draws next. -/
def localFile (nonce : Bytes) : DataStore ν OpenRoot where
  read := fun s key => (s.store.read S C key, s)
  write := fun s record => s.write S C nonce record
  delete := OpenRoot.delete
  listKeys := fun s => (.ok s.directory.recordKeys, s)

end Traverse.Storage

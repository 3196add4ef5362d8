import Traverse.Storage.Adapter

/-!
# Storage.Sync

`sync_adapters`: the keys of both adapters are merged one after the other, the record with the
greater stamp is written to the side that does not have it, and an error while writing puts the
local records back that were read so far.

The first part is the function itself. The second says what it does to adapters that behave as
maps: both end with the merge of their contents (`syncAdapters_ok`), which loses nothing
(`sync_loses_nothing`).
-/

namespace Traverse.Storage

open List Function

inductive ConflictResolutionRule where
  | onlyLocal
  | onlyRemote
  | higherLamportClock
  | writerIdentityTieBreak
  deriving DecidableEq

structure MergeDecision where
  (key winningWriterId : String)
  winningLamportClock : Nat
  resolutionRule : ConflictResolutionRule
  deriving DecidableEq

structure SyncReport where
  governingSpec : String
  decisions : List MergeDecision

def dataStoreSpec : String := "089-datastore-synchronization"

variable {ν σ ρ : Type}

def selectConflictWinner (ours theirs : StateRecord ν) : StateRecord ν × ConflictResolutionRule :=
  if theirs.lamportClock < ours.lamportClock then (ours, .higherLamportClock)
  else if ours.lamportClock < theirs.lamportClock then (theirs, .higherLamportClock)
  else if theirs.writerId ≤ ours.writerId then (ours, .writerIdentityTieBreak)
  else (theirs, .writerIdentityTieBreak)

def mergeRecords : Option (StateRecord ν) → Option (StateRecord ν) →
    Option (StateRecord ν × ConflictResolutionRule)
  | some record, none => some (record, .onlyLocal)
  | none, some record => some (record, .onlyRemote)
  | some ours, some theirs => some (selectConflictWinner ours theirs)
  | none, none => none

/-- Through a `BTreeSet`: without repetitions and in order. -/
def mergedKeys (localKeys remoteKeys : List String) : List String :=
  (Std.ExtTreeSet.ofList (localKeys ++ remoteKeys) compare).toList

/-- What `apply_winner` does on either side. -/
def writeUnlessHeld [DecidableEq ν] (D : DataStore ν σ) (s : σ) (key : String)
    (winner : StateRecord ν) : Except DataStoreError Unit × σ :=
  match D.read s key with
  | (.error e, s) => (.error e, s)
  | (.ok held, s) => if held = some winner then (.ok (), s) else D.write s winner

def applyWinner [DecidableEq ν] (L : DataStore ν σ) (R : DataStore ν ρ) (l : σ) (r : ρ)
    (key : String) (winner : StateRecord ν) : Except DataStoreError Unit × σ × ρ :=
  match writeUnlessHeld L l key winner with
  | (.error e, l) => (.error e, l, r)
  | (.ok (), l) =>
    match writeUnlessHeld R r key winner with
    | (.error e, r) => (.error e, l, r)
    | (.ok (), r) => (.ok (), l, r)

abbrev Snapshots (ν : Type) := Std.ExtTreeMap String (Option (StateRecord ν)) compare

/-- The outcome of the call is ignored. -/
def restore (L : DataStore ν σ) (l : σ) (entry : String × Option (StateRecord ν)) : σ :=
  match entry.2 with
  | some record => (L.write l record).2
  | none => (L.delete l entry.1).2

def rollbackLocal (L : DataStore ν σ) (l : σ) (snapshots : Snapshots ν) : σ :=
  snapshots.toList.foldl (restore L) l

def syncFailure (key : String) (cause : DataStoreError) : DataStoreError where
  code := .syncFailure
  message := "sync failed; local state restored"
  details := .obj [("cause", .str cause.message), ("key", .str key)]

/-- The variables of the loop. -/
structure Syncing (ν σ ρ : Type) where
  localStore : σ
  remoteStore : ρ
  snapshots : Snapshots ν
  decisions : List MergeDecision

def syncKey [DecidableEq ν] (L : DataStore ν σ) (R : DataStore ν ρ) (s : Syncing ν σ ρ)
    (key : String) : Except DataStoreError Unit × Syncing ν σ ρ :=
  match L.read s.localStore key with
  | (.error e, l) => (.error e, { s with localStore := l })
  | (.ok localRecord, l) =>
    match R.read s.remoteStore key with
    | (.error e, r) => (.error e, { s with localStore := l, remoteStore := r })
    | (.ok remoteRecord, r) =>
      let snapshots := s.snapshots.insert key localRecord
      match mergeRecords localRecord remoteRecord with
      | none => (.ok (), ⟨l, r, snapshots, s.decisions⟩)
      | some (winner, rule) =>
        match applyWinner L R l r key winner with
        | (.error e, l, r) =>
          (.error (syncFailure key e), ⟨rollbackLocal L l snapshots, r, snapshots, s.decisions⟩)
        | (.ok (), l, r) =>
          (.ok (), ⟨l, r, snapshots,
            s.decisions ++ [⟨key, winner.writerId, winner.lamportClock, rule⟩]⟩)

def syncKeys [DecidableEq ν] (L : DataStore ν σ) (R : DataStore ν ρ) :
    List String → Syncing ν σ ρ → Except DataStoreError Unit × Syncing ν σ ρ
  | [], s => (.ok (), s)
  | key :: keys, s =>
    match syncKey L R s key with
    | (.error e, s) => (.error e, s)
    | (.ok (), s) => syncKeys L R keys s

def syncAdapters [DecidableEq ν] (L : DataStore ν σ) (R : DataStore ν ρ) (l : σ) (r : ρ) :
    Except DataStoreError SyncReport × σ × ρ :=
  match L.listKeys l with
  | (.error e, l) => (.error e, l, r)
  | (.ok localKeys, l) =>
    match R.listKeys r with
    | (.error e, r) => (.error e, l, r)
    | (.ok remoteKeys, r) =>
      match syncKeys L R (mergedKeys localKeys remoteKeys) ⟨l, r, ∅, []⟩ with
      | (.error e, s) => (.error e, s.localStore, s.remoteStore)
      | (.ok (), s) => (.ok ⟨dataStoreSpec, s.decisions⟩, s.localStore, s.remoteStore)

/-! ## Merging -/

theorem nodup_mergedKeys (localKeys remoteKeys : List String) :
    (mergedKeys localKeys remoteKeys).Nodup := by
  refine Std.ExtTreeSet.distinct_toList.imp ?_
  intro a b h hab
  exact h (hab ▸ Std.ReflCmp.compare_self)

theorem selectConflictWinner_record (ours theirs : StateRecord ν) :
    (selectConflictWinner ours theirs).1 = if theirs.stamp ≤ ours.stamp then ours else theirs := by
  have hle : theirs.stamp ≤ ours.stamp ↔ theirs.lamportClock < ours.lamportClock ∨
      theirs.lamportClock = ours.lamportClock ∧ theirs.writerId ≤ ours.writerId :=
    Prod.Lex.toLex_le_toLex
  simp only [selectConflictWinner, hle]
  rcases Nat.lt_trichotomy theirs.lamportClock ours.lamportClock with h | h | h
  · simp [h]
  · simp only [h, lt_irrefl, if_false, true_and, false_or]
    split <;> rfl
  · simp [h, h.not_gt, h.ne']

/-- The record that wins, if there is one. -/
def merged (ours theirs : Option (StateRecord ν)) : Option (StateRecord ν) :=
  (mergeRecords ours theirs).map Prod.fst

def rank (held : Option (StateRecord ν)) : WithBot (Nat ×ₗ String) := held.map StateRecord.stamp

variable (o : Option (StateRecord ν))

@[simp] theorem merged_none_left : merged none o = o := by
  cases o <;> rfl

@[simp] theorem merged_none_right : merged o none = o := by
  cases o <;> rfl

theorem merged_some (ours theirs : StateRecord ν) :
    merged (some ours) (some theirs) =
      some (if theirs.stamp ≤ ours.stamp then ours else theirs) := by
  rw [← selectConflictWinner_record]
  rfl

theorem merged_choice (o o' : Option (StateRecord ν)) : merged o o' = o ∨ merged o o' = o' := by
  cases o with
  | none => exact .inr (merged_none_left o')
  | some ours =>
    cases o' with
    | none => exact .inl rfl
    | some theirs =>
      rw [merged_some]
      split
      · exact .inl rfl
      · exact .inr rfl

@[simp] theorem merged_self : merged o o = o :=
  (merged_choice o o).elim id id

variable {o o' ours theirs : Option (StateRecord ν)} {key : String}

theorem merged_eq_none : merged o o' = none ↔ o = none ∧ o' = none := by
  cases o with
  | none => simp
  | some ours => cases o' <;> simp [merged_some]

theorem merged_ne_none : merged o o' ≠ none ↔ o ≠ none ∨ o' ≠ none := by
  rw [ne_eq, merged_eq_none, not_and_or]

theorem rank_merged (o o' : Option (StateRecord ν)) :
    rank (merged o o') = max (rank o) (rank o') := by
  cases o with
  | none =>
    rw [merged_none_left]
    exact (max_eq_right (bot_le (a := rank o'))).symm
  | some ours =>
    cases o' with
    | none => exact (max_eq_left (bot_le (a := rank (some ours)))).symm
    | some theirs =>
      rw [merged_some]
      by_cases h : theirs.stamp ≤ ours.stamp
      · rw [if_pos h]
        exact (max_eq_left (WithBot.coe_le_coe.2 h)).symm
      · rw [if_neg h]
        exact (max_eq_right (WithBot.coe_le_coe.2 (le_of_not_ge h))).symm

theorem merged_key (hours : ∀ r, ours = some r → r.key = key)
    (htheirs : ∀ r, theirs = some r → r.key = key) {winner : StateRecord ν}
    (h : merged ours theirs = some winner) : winner.key = key := by
  rcases merged_choice ours theirs with hm | hm
  · exact hours winner (hm ▸ h)
  · exact htheirs winner (hm ▸ h)

def decisionOf (key : String) (ours theirs : Option (StateRecord ν)) : Option MergeDecision :=
  (mergeRecords ours theirs).map fun (winner, rule) =>
    ⟨key, winner.writerId, winner.lamportClock, rule⟩

theorem decisionOf_eq_some {d : MergeDecision} (h : decisionOf key ours theirs = some d) :
    d.key = key ∧ ∃ winner, merged ours theirs = some winner ∧
      d.winningWriterId = winner.writerId ∧ d.winningLamportClock = winner.lamportClock := by
  obtain ⟨⟨winner, rule⟩, hmerge, rfl⟩ := Option.map_eq_some_iff.1 h
  exact ⟨rfl, winner, by rw [merged, hmerge]; rfl, rfl, rfl⟩

/-! ## Adapters that behave as maps -/

section Maps

variable {L : DataStore ν σ} {R : DataStore ν ρ} {viewL : σ → Contents ν} {viewR : ρ → Contents ν}

theorem restore_view (hL : BehavesAsMap L viewL) (l : σ) {entry : String × Option (StateRecord ν)}
    (hkey : ∀ r, entry.2 = some r → r.key = entry.1) :
    viewL (restore L l entry) = viewL l ∨
      viewL (restore L l entry) = update (viewL l) entry.1 entry.2 := by
  obtain ⟨k, snapshot⟩ := entry
  cases snapshot with
  | none =>
    cases hd : (L.delete l k).1 with
    | ok _ => exact .inr (hL.delete_ok l k hd)
    | error e => exact hL.delete_error l k e hd
  | some r =>
    obtain rfl : r.key = k := hkey r rfl
    cases hw : (L.write l r).1 with
    | ok _ => exact .inr (hL.write_ok l r hw)
    | error e => exact hL.write_error l r e hw

variable {c : Contents ν} {l l' : σ} {winner : StateRecord ν} {r r' : ρ} {s : Syncing ν σ ρ}

/-- Putting back what is there changes nothing, whether the calls succeed or not. -/
theorem rollbackLocal_same (hL : BehavesAsMap L viewL) (hc : c.Keyed) {snapshots : Snapshots ν}
    (hs : ∀ (k : String) o, snapshots[k]? = some o → o = c k) (hl : viewL l = c) :
    viewL (rollbackLocal L l snapshots) = c := by
  have hfold : ∀ (entries : List (String × Option (StateRecord ν))) (l : σ), viewL l = c →
      (∀ e ∈ entries, e.2 = c e.1) → viewL (entries.foldl (restore L) l) = c := by
    intro entries
    induction entries with
    | nil => intro l hl _; exact hl
    | cons e entries ih =>
      intro l hl he
      have hsame := he e mem_cons_self
      refine ih _ ?_ fun e' he' => he e' (mem_cons_of_mem _ he')
      rcases restore_view hL l (hsame ▸ hc e.1) with hv | hv
      · rw [hv, hl]
      · rw [hv, hl, hsame, update_eq_self]
  refine hfold _ l hl fun e he => ?_
  exact hs e.1 e.2 (Std.ExtTreeMap.mem_toList_iff_getElem?_eq_some.1 he)

variable [DecidableEq ν]

theorem writeUnlessHeld_view (hL : BehavesAsMap L viewL) (l : σ) (hkey : winner.key = key) :
    ((writeUnlessHeld L l key winner).1 = .ok () →
      viewL (writeUnlessHeld L l key winner).2 = (viewL l).put winner) ∧
    (viewL (writeUnlessHeld L l key winner).2 = viewL l ∨
      viewL (writeUnlessHeld L l key winner).2 = (viewL l).put winner) := by
  have hread := hL.read_view l key
  unfold writeUnlessHeld
  split
  · next e l' hr =>
    rw [hr] at hread
    exact ⟨nofun, .inl hread⟩
  next held l' hr =>
  have hheld := hL.read_ok l key held (by rw [hr])
  rw [hr] at hread
  split
  · next heq =>
    have hput : (viewL l).put winner = viewL l :=
      Contents.put_of_eq (by rw [hkey, ← hheld, heq])
    rw [hput]
    exact ⟨fun _ => hread, .inl hread⟩
  · rw [← hread]
    refine ⟨hL.write_ok l' winner, ?_⟩
    cases hw : (L.write l' winner).1 with
    | ok _ => exact .inr (hL.write_ok l' winner hw)
    | error e => exact hL.write_error l' winner e hw

section

variable (hL : BehavesAsMap L viewL) (hR : BehavesAsMap R viewR)

include hL hR

theorem applyWinner_ok
    (hkey : winner.key = key) (h : applyWinner L R l r key winner = (.ok (), l', r')) :
    viewL l' = (viewL l).put winner ∧ viewR r' = (viewR r).put winner := by
  have hl := (writeUnlessHeld_view hL l hkey).1
  have hr := (writeUnlessHeld_view hR r hkey).1
  unfold applyWinner at h
  split at h
  · cases h
  rename_i l₁ hl₁
  rw [hl₁] at hl
  split at h
  · cases h
  rename_i r₁ hr₁
  rw [hr₁] at hr
  cases h
  exact ⟨hl rfl, hr rfl⟩

theorem syncKey_ok {s' : Syncing ν σ ρ} (hl : (viewL s.localStore).Keyed)
    (hr : (viewR s.remoteStore).Keyed) (h : syncKey L R s key = (.ok (), s')) :
    viewL s'.localStore = update (viewL s.localStore) key
      (merged (viewL s.localStore key) (viewR s.remoteStore key)) ∧
    viewR s'.remoteStore = update (viewR s.remoteStore) key
      (merged (viewL s.localStore key) (viewR s.remoteStore key)) ∧
    s'.decisions = s.decisions ++
      (decisionOf key (viewL s.localStore key) (viewR s.remoteStore key)).toList := by
  have hlview := hL.read_view s.localStore key
  have hrview := hR.read_view s.remoteStore key
  unfold syncKey at h
  split at h
  · cases h
  next localRecord l hlread =>
  have hlrec := hL.read_ok s.localStore key localRecord (by rw [hlread])
  rw [hlread] at hlview
  split at h
  · cases h
  next remoteRecord r hrread =>
  have hrrec := hR.read_ok s.remoteStore key remoteRecord (by rw [hrread])
  rw [hrread] at hrview
  subst hlrec hrrec
  split at h
  · next hmerge =>
    have hnone := merged_eq_none.1 (show merged _ _ = none by rw [merged, hmerge]; rfl)
    cases h
    simp [hlview, hrview, hnone.1, hnone.2, decisionOf, mergeRecords]
  · next winner rule hmerge =>
    have hwinner : merged (viewL s.localStore key) (viewR s.remoteStore key) = some winner := by
      rw [merged, hmerge]
      rfl
    have hkey := merged_key (hl key) (hr key) hwinner
    split at h
    · cases h
    rename_i l' r' happly
    obtain ⟨hl', hr'⟩ := applyWinner_ok hL hR hkey happly
    cases h
    subst hkey
    exact ⟨by rw [hl', hlview, hwinner]; rfl, by rw [hr', hrview, hwinner]; rfl,
      by rw [decisionOf, hmerge]; rfl⟩

theorem syncKeys_ok {keys : List String}
    (hnodup : keys.Nodup) : ∀ {s s' : Syncing ν σ ρ}, (viewL s.localStore).Keyed →
    (viewR s.remoteStore).Keyed → syncKeys L R keys s = (.ok (), s') →
    (∀ k, viewL s'.localStore k = if k ∈ keys then
      merged (viewL s.localStore k) (viewR s.remoteStore k) else viewL s.localStore k) ∧
    (∀ k, viewR s'.remoteStore k = if k ∈ keys then
      merged (viewL s.localStore k) (viewR s.remoteStore k) else viewR s.remoteStore k) ∧
    s'.decisions = s.decisions ++ keys.filterMap fun k =>
      decisionOf k (viewL s.localStore k) (viewR s.remoteStore k) := by
  induction keys with
  | nil =>
    intro s s' _ _ h
    cases h
    simp
  | cons key keys ih =>
    intro s s' hl hr h
    obtain ⟨hnot, hnodup⟩ := nodup_cons.1 hnodup
    simp only [syncKeys] at h
    split at h
    · cases h
    next s₁ hkey =>
    obtain ⟨hl₁, hr₁, hd₁⟩ := syncKey_ok hL hR hl hr hkey
    have hmerged : ∀ r, merged (viewL s.localStore key) (viewR s.remoteStore key) = some r →
        r.key = key := fun r => merged_key (hl key) (hr key)
    obtain ⟨hl', hr', hd'⟩ := ih hnodup (hl₁ ▸ hl.update hmerged) (hr₁ ▸ hr.update hmerged) h
    -- the later keys are not the one just merged, so their records are still the old ones
    have hold : ∀ k ∈ keys, viewL s₁.localStore k = viewL s.localStore k ∧
        viewR s₁.remoteStore k = viewR s.remoteStore k := by
      intro k hk
      have hne : k ≠ key := fun heq => hnot (heq ▸ hk)
      rw [hl₁, hr₁, update_of_ne hne, update_of_ne hne]
      exact ⟨rfl, rfl⟩
    refine ⟨fun k => ?_, fun k => ?_, ?_⟩
    · rw [hl' k]
      by_cases hk : k ∈ keys
      · simp [hk, hold k hk]
      by_cases hkey : k = key
      · simp [hkey, hnot, hl₁]
      · simp [hk, hkey, hl₁]
    · rw [hr' k]
      by_cases hk : k ∈ keys
      · simp [hk, hold k hk]
      by_cases hkey : k = key
      · simp [hkey, hnot, hr₁]
      · simp [hk, hkey, hr₁]
    · have htail : keys.filterMap (fun k => decisionOf k (viewL s₁.localStore k)
          (viewR s₁.remoteStore k)) = keys.filterMap fun k =>
            decisionOf k (viewL s.localStore k) (viewR s.remoteStore k) := by
        refine filterMap_congr fun k hk => ?_
        rw [(hold k hk).1, (hold k hk).2]
      rw [hd', hd₁, htail, filterMap_cons]
      cases decisionOf key (viewL s.localStore key) (viewR s.remoteStore key) <;> simp

/-- Both adapters end with the merge of what they held, and the report has the decisions. -/
theorem syncAdapters_ok {report : SyncReport} (hl : (viewL l).Keyed) (hr : (viewR r).Keyed)
    (h : syncAdapters L R l r = (.ok report, l', r')) :
    (∀ k, viewL l' k = merged (viewL l k) (viewR r k)) ∧
    (∀ k, viewR r' k = merged (viewL l k) (viewR r k)) ∧
    ∃ keys : List String, keys.Nodup ∧ (∀ k, k ∈ keys ↔ merged (viewL l k) (viewR r k) ≠ none) ∧
      report.decisions = keys.filterMap fun k => decisionOf k (viewL l k) (viewR r k) := by
  have hlview := hL.list_view l
  have hrview := hR.list_view r
  unfold syncAdapters at h
  split at h
  · cases h
  next localKeys l₁ hlist =>
  have hlkeys := hL.list_ok l localKeys (by rw [hlist])
  rw [hlist] at hlview
  split at h
  · cases h
  next remoteKeys r₁ hrlist =>
  have hrkeys := hR.list_ok r remoteKeys (by rw [hrlist])
  rw [hrlist] at hrview
  split at h
  · cases h
  next s hs =>
  obtain ⟨hl', hr', hd⟩ := syncKeys_ok hL hR (nodup_mergedKeys localKeys remoteKeys)
    (by rwa [hlview]) (by rwa [hrview]) hs
  cases h
  simp only [hlview, hrview, nil_append] at hl' hr' hd
  have hmem : ∀ k, k ∈ mergedKeys localKeys remoteKeys ↔
      merged (viewL l k) (viewR r k) ≠ none := by
    intro k
    simp [mergedKeys, hlkeys, hrkeys, merged_ne_none]
  refine ⟨fun k => ?_, fun k => ?_, _, nodup_mergedKeys localKeys remoteKeys, hmem, hd⟩
  · rw [hl' k]
    split
    · rfl
    rename_i hk
    have hnone := merged_eq_none.1 (not_not.1 (mt (hmem k).2 hk))
    rw [hnone.1, hnone.2, merged_self]
  · rw [hr' k]
    split
    · rfl
    rename_i hk
    have hnone := merged_eq_none.1 (not_not.1 (mt (hmem k).2 hk))
    rw [hnone.1, hnone.2, merged_self]

end

/-! ## A second run -/

/-- Both adapters hold `c`, and so do the snapshots. -/
structure Settled (viewL : σ → Contents ν) (viewR : ρ → Contents ν) (c : Contents ν)
    (s : Syncing ν σ ρ) : Prop where
  localStore : viewL s.localStore = c
  remoteStore : viewR s.remoteStore = c
  snapshots : ∀ (k : String) o, s.snapshots[k]? = some o → o = c k

section

variable (hL : BehavesAsMap L viewL) (hR : BehavesAsMap R viewR)

include hL hR

theorem applyWinner_same (hl : viewL l = c)
    (hr : viewR r = c) (hkey : winner.key = key) (hwinner : c key = some winner) :
    viewL (applyWinner L R l r key winner).2.1 = c ∧
      viewR (applyWinner L R l r key winner).2.2 = c := by
  have hput : c.put winner = c := Contents.put_of_eq (hkey ▸ hwinner)
  have hl' : viewL (writeUnlessHeld L l key winner).2 = c := by
    simpa only [hl, hput, or_self] using (writeUnlessHeld_view hL l hkey).2
  have hr' : viewR (writeUnlessHeld R r key winner).2 = c := by
    simpa only [hr, hput, or_self] using (writeUnlessHeld_view hR r hkey).2
  unfold applyWinner
  split
  · next h => exact ⟨by rwa [h] at hl', hr⟩
  next h =>
  rw [h] at hl'
  split
  · next h' => exact ⟨hl', by rwa [h'] at hr'⟩
  · next h' => exact ⟨hl', by rwa [h'] at hr'⟩

theorem Settled.syncKey (hc : c.Keyed) (hs : Settled viewL viewR c s) (key : String) :
    Settled viewL viewR c (syncKey L R s key).2 := by
  have hlview := (hL.read_view s.localStore key).trans hs.localStore
  have hrview := (hR.read_view s.remoteStore key).trans hs.remoteStore
  unfold Storage.syncKey
  split
  · next h => exact ⟨by rwa [h] at hlview, hs.remoteStore, hs.snapshots⟩
  next localRecord l hlread =>
  have hlrec := hL.read_ok s.localStore key localRecord (by rw [hlread])
  rw [hlread] at hlview
  split
  · next h => exact ⟨hlview, by rwa [h] at hrview, hs.snapshots⟩
  next remoteRecord r hrread =>
  have hrrec := hR.read_ok s.remoteStore key remoteRecord (by rw [hrread])
  rw [hrread] at hrview
  rw [hs.localStore] at hlrec
  rw [hs.remoteStore] at hrrec
  subst hlrec hrrec
  have hsnap : ∀ (k : String) o, (s.snapshots.insert key (c key))[k]? = some o → o = c k := by
    intro k o ho
    rw [getElem?_insert_string] at ho
    split at ho
    · next hk =>
      cases ho
      rw [hk]
    · exact hs.snapshots k o ho
  split
  · exact ⟨hlview, hrview, hsnap⟩
  rename_i winner rule hmerge
  have hwinner : c key = some winner := by
    rw [← merged_self (c key), merged, hmerge]
    rfl
  obtain ⟨hl', hr'⟩ := applyWinner_same hL hR hlview hrview (hc key winner hwinner) hwinner
  split
  · next h =>
    rw [h] at hl' hr'
    exact ⟨rollbackLocal_same hL hc hsnap hl', hr', hsnap⟩
  · next h =>
    rw [h] at hl' hr'
    exact ⟨hl', hr', hsnap⟩

theorem Settled.syncKeys (hc : c.Keyed) :
    ∀ (keys : List String) {s : Syncing ν σ ρ}, Settled viewL viewR c s →
    Settled viewL viewR c (syncKeys L R keys s).2 := by
  intro keys
  induction keys with
  | nil => intro s hs; exact hs
  | cons key keys ih =>
    intro s hs
    have hkey := hs.syncKey hL hR hc key
    simp only [Storage.syncKeys]
    split
    · next h => rwa [h] at hkey
    · next h =>
      rw [h] at hkey
      exact ih hkey

theorem syncAdapters_same (hc : c.Keyed) (hl : viewL l = c) (hr : viewR r = c) :
    viewL (syncAdapters L R l r).2.1 = c ∧ viewR (syncAdapters L R l r).2.2 = c := by
  have hlview := (hL.list_view l).trans hl
  have hrview := (hR.list_view r).trans hr
  unfold syncAdapters
  split
  · next h => exact ⟨by rwa [h] at hlview, hr⟩
  next localKeys l₁ hlist =>
  rw [hlist] at hlview
  split
  · next h => exact ⟨hlview, by rwa [h] at hrview⟩
  next remoteKeys r₁ hrlist =>
  rw [hrlist] at hrview
  have hstart : Settled viewL viewR c ⟨l₁, r₁, ∅, []⟩ := ⟨hlview, hrview, by simp⟩
  have hend := hstart.syncKeys hL hR hc (mergedKeys localKeys remoteKeys)
  split
  · next h =>
    rw [h] at hend
    exact ⟨hend.localStore, hend.remoteStore⟩
  · next h =>
    rw [h] at hend
    exact ⟨hend.localStore, hend.remoteStore⟩

end

/-! ## Nothing is lost -/

/-- A synchronization that succeeds: both adapters hold the same records, of all the keys that
either had; each is one of the two former records and none of them has a greater stamp; the report
has one decision for each key, which names the record; and another run changes nothing. -/
theorem sync_loses_nothing (hL : BehavesAsMap L viewL) (hR : BehavesAsMap R viewR) {l l' : σ}
    {r r' : ρ} {report : SyncReport} (hl : (viewL l).Keyed) (hr : (viewR r).Keyed)
    (h : syncAdapters L R l r = (.ok report, l', r')) :
    viewL l' = viewR r' ∧
    (∀ k, viewL l' k ≠ none ↔ viewL l k ≠ none ∨ viewR r k ≠ none) ∧
    (∀ k winner, viewL l' k = some winner →
      (viewL l k = some winner ∨ viewR r k = some winner) ∧
      ∀ former, viewL l k = some former ∨ viewR r k = some former →
        ¬winner.stamp < former.stamp) ∧
    (report.decisions.map MergeDecision.key).Nodup ∧
    (∀ k, k ∈ report.decisions.map MergeDecision.key ↔ viewL l' k ≠ none) ∧
    (∀ d ∈ report.decisions, ∃ winner, viewL l' d.key = some winner ∧
      d.winningWriterId = winner.writerId ∧ d.winningLamportClock = winner.lamportClock) ∧
    viewL (syncAdapters L R l' r').2.1 = viewL l' ∧
    viewR (syncAdapters L R l' r').2.2 = viewR r' := by
  obtain ⟨hl', hr', keys, hnodup, hkeys, hd⟩ := syncAdapters_ok hL hR hl hr h
  have hsame : viewL l' = viewR r' := funext fun k => (hl' k).trans (hr' k).symm
  have hkeyed : (viewL l').Keyed := by
    intro k winner hw
    rw [hl' k] at hw
    exact merged_key (hl k) (hr k) hw
  have hdecided : report.decisions.map MergeDecision.key = keys := by
    rw [hd, map_filterMap]
    conv_rhs => rw [← filterMap_some (l := keys)]
    refine filterMap_congr fun k hk => ?_
    have hsome : (decisionOf k (viewL l k) (viewR r k)).isSome := by
      simpa [decisionOf, merged] using Option.isSome_iff_ne_none.2 ((hkeys k).1 hk)
    obtain ⟨d, hdk⟩ := Option.isSome_iff_exists.1 hsome
    rw [hdk, Option.map_some, (decisionOf_eq_some hdk).1]
  refine ⟨hsame, fun k => ?_, fun k winner hw => ⟨?_, ?_⟩, hdecided ▸ hnodup, fun k => ?_,
    fun d hmem => ?_, syncAdapters_same hL hR hkeyed rfl hsame.symm |>.1,
    hsame ▸ (syncAdapters_same hL hR hkeyed rfl hsame.symm).2⟩
  · rw [hl' k, merged_ne_none]
  · rw [hl' k] at hw
    rcases merged_choice (viewL l k) (viewR r k) with hm | hm
    · exact .inl (hm ▸ hw)
    · exact .inr (hm ▸ hw)
  · intro former hformer hlt
    have hrank := rank_merged (viewL l k) (viewR r k)
    rw [← hl' k, hw] at hrank
    have hle : rank (some former) ≤ rank (some winner) := by
      rw [hrank]
      rcases hformer with hf | hf
      · exact hf ▸ le_max_left _ _
      · exact hf ▸ le_max_right _ _
    exact (WithBot.coe_le_coe.1 hle).not_gt hlt
  · rw [hdecided, hkeys, hl' k]
  · rw [hd, mem_filterMap] at hmem
    obtain ⟨k, _, hdk⟩ := hmem
    obtain ⟨hkey, winner, hwinner, hnames⟩ := decisionOf_eq_some hdk
    exact ⟨winner, by rw [hkey, hl' k, hwinner], hnames⟩

end Maps

/-! ## In-memory adapters -/

section InMemory

variable [DecidableEq ν] (l r : InMemoryDataStore ν)

theorem applyWinner_inMemory (key : String) (winner : StateRecord ν) :
    ∃ l' r', applyWinner inMemory inMemory l r key winner = (.ok (), l', r') := by
  have hside : ∀ s : InMemoryDataStore ν,
      ∃ s', writeUnlessHeld inMemory s key winner = (.ok (), s') := by
    intro s
    simp only [writeUnlessHeld, inMemory_read, inMemory_write]
    split
    · exact ⟨_, rfl⟩
    · exact ⟨_, rfl⟩
  obtain ⟨l', hl⟩ := hside l
  obtain ⟨r', hr⟩ := hside r
  exact ⟨l', r', by simp only [applyWinner, hl, hr]⟩

theorem syncKeys_inMemory (keys : List String) :
    ∀ s : Syncing ν (InMemoryDataStore ν) (InMemoryDataStore ν),
      ∃ s', syncKeys inMemory inMemory keys s = (.ok (), s') := by
  induction keys with
  | nil => intro s; exact ⟨s, rfl⟩
  | cons key keys ih =>
    intro s
    have hkey : ∃ s', syncKey inMemory inMemory s key = (.ok (), s') := by
      cases hmerge : mergeRecords (s.localStore.view key) (s.remoteStore.view key) with
      | none => exact ⟨_, by simp only [syncKey, inMemory_read, hmerge]; rfl⟩
      | some decided =>
        obtain ⟨l', r', happly⟩ :=
          applyWinner_inMemory s.localStore s.remoteStore key decided.1
        exact ⟨_, by simp only [syncKey, inMemory_read, hmerge, happly]; rfl⟩
    obtain ⟨s₁, hs₁⟩ := hkey
    obtain ⟨s', hs'⟩ := ih s₁
    exact ⟨s', by simp only [syncKeys, hs₁, hs']⟩

theorem syncAdapters_inMemory : ∃ report l' r',
    syncAdapters inMemory inMemory l r = (.ok report, l', r') := by
  obtain ⟨s, hs⟩ := syncKeys_inMemory (mergedKeys l.records.keys r.records.keys)
    (⟨l, r, ∅, []⟩ : Syncing ν _ _)
  exact ⟨_, _, _, by simp only [syncAdapters, inMemory_listKeys, hs]; rfl⟩

theorem syncAdapters_inMemory_view :
    (∀ k, (syncAdapters inMemory inMemory l r).2.1.view k = merged (l.view k) (r.view k)) ∧
    ∀ k, (syncAdapters inMemory inMemory l r).2.2.view k = merged (l.view k) (r.view k) := by
  obtain ⟨report, l', r', h⟩ := syncAdapters_inMemory l r
  obtain ⟨hl, hr, _⟩ := syncAdapters_ok inMemory_behavesAsMap inMemory_behavesAsMap l.view_keyed
    r.view_keyed h
  rw [h]
  exact ⟨hl, hr⟩

end InMemory

def stored (key writerId : String) (clock value : Nat) : StateRecord Nat :=
  ⟨key, value, clock, writerId⟩

/-- A clock decides, a tie is broken, and one key is new on either side. -/
theorem sync_loses_nothing_tie : ∃ (l r l' r' : InMemoryDataStore Nat) (report : SyncReport),
    syncAdapters inMemory inMemory l r = (.ok report, l', r') ∧
    report.decisions = [⟨"clock", "writer-b", 3, .higherLamportClock⟩,
      ⟨"ours", "writer-a", 1, .onlyLocal⟩, ⟨"theirs", "writer-b", 1, .onlyRemote⟩,
      ⟨"tie", "writer-z", 4, .writerIdentityTieBreak⟩] ∧
    l'.view = r'.view ∧ (syncAdapters inMemory inMemory l' r').2.1.view = l'.view := by
  let l := ((InMemoryDataStore.new.insert (stored "ours" "writer-a" 1 10)).insert
    (stored "clock" "writer-a" 2 20)).insert (stored "tie" "writer-z" 4 30)
  let r := ((InMemoryDataStore.new.insert (stored "theirs" "writer-b" 1 40)).insert
    (stored "clock" "writer-b" 3 50)).insert (stored "tie" "writer-b" 4 60)
  have hdecisions : (syncAdapters inMemory inMemory l r).1.toOption.map SyncReport.decisions =
      some [⟨"clock", "writer-b", 3, .higherLamportClock⟩, ⟨"ours", "writer-a", 1, .onlyLocal⟩,
        ⟨"theirs", "writer-b", 1, .onlyRemote⟩,
        ⟨"tie", "writer-z", 4, .writerIdentityTieBreak⟩] := by decide +kernel
  obtain ⟨report, l', r', h⟩ := syncAdapters_inMemory l r
  have hlaws := sync_loses_nothing inMemory_behavesAsMap inMemory_behavesAsMap l.view_keyed
    r.view_keyed h
  rw [h] at hdecisions
  exact ⟨l, r, l', r', report, h, Option.some.inj hdecisions, hlaws.1, hlaws.2.2.2.2.2.2.1⟩

end Traverse.Storage

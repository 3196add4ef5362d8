import Traverse.Storage.Sync

/-!
# Storage.Rollback

Synchronization that fails. Each round of the loop reads the two records first, and only an error
after that puts the local records back: a read that fails when an earlier round has already changed
the local adapter leaves it changed. And a record that the remote adapter answers with under another
key is stored under its own, of which there may be no snapshot (`failed_read_keeps_changes`).

`leftBehind` are the records that stay for one of the two reasons; the local adapter ends as it was
exactly if they were there before (`failed_sync_restores_local`). Nothing is assumed of the remote
adapter.
-/

namespace Traverse.Storage

open List Function

variable {ν σ ρ : Type} {L : DataStore ν σ} {R : DataStore ν ρ} {viewL : σ → Contents ν}

/-- The local calls that `rollback_local` and `apply_winner` make to change something succeed. -/
structure Writable (L : DataStore ν σ) : Prop where
  write : ∀ s r, (L.write s r).1 = .ok ()
  delete : ∀ s k, (L.delete s k).1 = .ok ()

theorem restore_ok (hL : BehavesAsMap L viewL) (hok : Writable L) (l : σ)
    {entry : String × Option (StateRecord ν)} (hkey : ∀ r, entry.2 = some r → r.key = entry.1) :
    viewL (restore L l entry) = update (viewL l) entry.1 entry.2 := by
  obtain ⟨k, snapshot⟩ := entry
  cases snapshot with
  | none => exact hL.delete_ok l k (hok.delete l k)
  | some r =>
    obtain rfl : r.key = k := hkey r rfl
    exact hL.write_ok l r (hok.write l r)

/-- If the snapshots are of `before` and nothing else has changed, the rollback leads there. -/
theorem rollbackLocal_restores (hL : BehavesAsMap L viewL) (hok : Writable L)
    {before : Contents ν} (hkeyed : before.Keyed) {snapshots : Snapshots ν}
    (htaken : ∀ (k : String) o, snapshots[k]? = some o → o = before k) {l : σ}
    (hrest : ∀ k, snapshots[k]? = none → viewL l k = before k) :
    viewL (rollbackLocal L l snapshots) = before := by
  have hfold : ∀ (entries : List (String × Option (StateRecord ν))) (l : σ),
      (∀ e ∈ entries, e.2 = before e.1) →
      (∀ k, k ∉ entries.map Prod.fst → viewL l k = before k) →
      viewL (entries.foldl (restore L) l) = before := by
    intro entries
    induction entries with
    | nil => intro l _ hl; exact funext fun k => hl k not_mem_nil
    | cons e entries ih =>
      intro l he hl
      have hsame := he e mem_cons_self
      refine ih _ (fun e' he' => he e' (mem_cons_of_mem _ he')) fun k hk => ?_
      rw [restore_ok hL hok l (hsame ▸ hkeyed e.1)]
      by_cases hek : k = e.1
      · rw [hek, update_self, hsame]
      · rw [update_of_ne hek]
        exact hl k (by simp [hek, hk])
  refine hfold _ l (fun e he => ?_) fun k hk => ?_
  · exact htaken e.1 e.2 (Std.ExtTreeMap.mem_toList_iff_getElem?_eq_some.1 he)
  · refine hrest k ?_
    cases ho : snapshots[k]? with
    | none => rfl
    | some o =>
      exact absurd (mem_map_of_mem (Std.ExtTreeMap.mem_toList_iff_getElem?_eq_some.2 ho)) hk

def Contents.puts (c : Contents ν) (records : List (StateRecord ν)) : Contents ν :=
  records.foldl Contents.put c

theorem Contents.Keyed.puts {base : Contents ν} (h : base.Keyed) (records : List (StateRecord ν)) :
    (base.puts records).Keyed :=
  foldlRecOn (motive := Contents.Keyed) records _ h fun _ hc _ _ => hc.update (by simp)

section

variable [DecidableEq ν] {key : String} {base before : Contents ν} {s : Syncing ν σ ρ}

variable (R key) in
theorem applyWinner_local (hL : BehavesAsMap L viewL) (hok : Writable L) {l : σ}
    (hkeyed : (viewL l).Keyed) (r : ρ) (winner : StateRecord ν) :
    viewL (applyWinner L R l r key winner).2.1 =
      if (L.read l key).1.isOk then (viewL l).put winner else viewL l := by
  have hlocal : (applyWinner L R l r key winner).2.1 = (writeUnlessHeld L l key winner).2 := by
    unfold applyWinner
    grind
  have hread := hL.read_view l key
  rw [hlocal, writeUnlessHeld]
  rcases hheld : L.read l key with ⟨e | held, l'⟩
  · rw [hheld] at hread
    exact hread
  rw [hheld] at hread
  simp only [Except.isOk, Except.toBool, if_true]
  split
  · next hsame =>
    have hview := hL.read_ok l key held (by rw [hheld])
    have hkey : winner.key = key := hkeyed key winner (hview.symm.trans hsame)
    rw [Contents.put_of_eq (by rw [hkey, ← hview, hsame]), hread]
  · rw [hL.write_ok l' winner (hok.write l' winner), hread]

/-- A round of the loop that goes through. -/
def proceed (L : DataStore ν σ) (R : DataStore ν ρ) (s : Syncing ν σ ρ) (key : String) :
    Option (Syncing ν σ ρ) :=
  match syncKey L R s key with
  | (.ok (), s') => some s'
  | (.error _, _) => none

/-- What a round knows when its two reads succeed: the winner, if the local adapter can be read once
more. This is the record that it writes there. -/
def takenOver (L : DataStore ν σ) (R : DataStore ν ρ) (s : Syncing ν σ ρ) (key : String) :
    Option (Option (StateRecord ν)) :=
  match L.read s.localStore key, (R.read s.remoteStore key).1 with
  | (.ok ours, l), .ok theirs => some (if (L.read l key).1.isOk then merged ours theirs else none)
  | _, _ => none

/-- The record has a key of which no snapshot is taken, up to this round. -/
def unguarded (s : Syncing ν σ ρ) (key : String) (record : StateRecord ν) : Bool :=
  record.key ≠ key ∧ s.snapshots[record.key]?.isNone

/-- The records that a loop which fails leaves in the local adapter. If the reads of a round fail
these are all that have been taken over; otherwise, those that had no snapshot. -/
def leftBehind (L : DataStore ν σ) (R : DataStore ν ρ) (written lasting : List (StateRecord ν)) :
    Syncing ν σ ρ → List String → List (StateRecord ν)
  | _, [] => []
  | s, key :: keys =>
    match takenOver L R s key with
    | none => written
    | some record =>
      let lasting := lasting ++ (record.filter (unguarded s key)).toList
      match proceed L R s key with
      | none => lasting
      | some s' => leftBehind L R (written ++ record.toList) lasting s' keys

/-- The snapshots are of `base`, and what has no snapshot is as there. -/
structure Guarded (viewL : σ → Contents ν) (base : Contents ν) (s : Syncing ν σ ρ) : Prop where
  taken : ∀ (k : String) o, s.snapshots[k]? = some o → o = base k
  untouched : ∀ (k : String), s.snapshots[k]? = none → viewL s.localStore k = base k

theorem syncKey_of_reads_fail (hL : BehavesAsMap L viewL) (h : takenOver L R s key = none) :
    ∃ e s', syncKey L R s key = (.error e, s') ∧ viewL s'.localStore = viewL s.localStore := by
  have hview := hL.read_view s.localStore key
  unfold takenOver at h
  unfold syncKey
  rcases hlread : L.read s.localStore key with ⟨e | ours, l⟩
  · exact ⟨e, _, rfl, by rwa [hlread] at hview⟩
  rcases hrread : R.read s.remoteStore key with ⟨e | theirs, r⟩
  · exact ⟨e, _, rfl, by rwa [hlread] at hview⟩
  · simp [hlread, hrread] at h

/-- The round has a snapshot of its key when it writes, and an error after that goes through the
rollback. -/
theorem syncKey_of_takenOver (hL : BehavesAsMap L viewL) (hok : Writable L)
    (hkeyed : (viewL s.localStore).Keyed) {record : Option (StateRecord ν)}
    (h : takenOver L R s key = some record) : ∃ l s',
      s'.snapshots = s.snapshots.insert key (viewL s.localStore key) ∧
      viewL l = (viewL s.localStore).puts record.toList ∧
      ((∃ e, syncKey L R s key = (.error e, s') ∧ s'.localStore = rollbackLocal L l s'.snapshots) ∨
        syncKey L R s key = (.ok (), s') ∧ s'.localStore = l) := by
  have hview := hL.read_view s.localStore key
  have hread := hL.read_ok s.localStore key
  unfold takenOver at h
  unfold syncKey
  rcases hlread : L.read s.localStore key with ⟨e | ours, l⟩
  · simp [hlread] at h
  rcases hrread : R.read s.remoteStore key with ⟨e | theirs, r⟩
  · simp [hlread, hrread] at h
  simp only [hlread, hrread, Option.some.injEq] at h hview hread
  cases hread ours rfl
  subst h
  rcases hmerge : mergeRecords (viewL s.localStore key) theirs with _ | ⟨winner, rule⟩
  · simp only [merged, hmerge]
    exact ⟨l, ⟨l, r, _, _⟩, rfl, by simpa [Contents.puts] using hview, .inr ⟨rfl, rfl⟩⟩
  have hwritten := applyWinner_local R key hL hok (hview ▸ hkeyed) r winner
  have hputs : viewL (applyWinner L R l r key winner).2.1 =
      (viewL s.localStore).puts (if (L.read l key).1.isOk then some winner else none).toList := by
    rw [hwritten, hview]
    split <;> rfl
  simp only [merged, hmerge, Option.map_some]
  generalize applyWinner L R l r key winner = applied at hputs ⊢
  obtain ⟨e | _, l', r'⟩ := applied
  · exact ⟨l', ⟨_, r', _, _⟩, rfl, hputs, .inl ⟨_, rfl, rfl⟩⟩
  · exact ⟨l', ⟨l', r', _, _⟩, rfl, hputs, .inr ⟨rfl, rfl⟩⟩

omit [DecidableEq ν] in
theorem Guarded.round (hs : Guarded viewL base s) (hnew : s.snapshots[key]? = none)
    {record : Option (StateRecord ν)} {l : σ} {s' : Syncing ν σ ρ}
    (hsnapshots : s'.snapshots = s.snapshots.insert key (viewL s.localStore key))
    (hl : viewL l = (viewL s.localStore).puts record.toList) :
    Guarded viewL (base.puts (record.filter (unguarded s key)).toList)
      { s' with localStore := l } := by
  have hbase : ∀ k, k = key ∨ s.snapshots[k]? ≠ none →
      base.puts (record.filter (unguarded s key)).toList k = base k := by
    intro k hk
    rcases hw : record.filter (unguarded s key) with _ | w
    · rfl
    · have hfree := (Option.filter_eq_some_iff.1 hw).2
      refine update_of_ne ?_ ..
      rintro rfl
      simp_all [unguarded]
  have hview : ∀ k, k ≠ key → s.snapshots[k]? = none →
      viewL l k = base.puts (record.filter (unguarded s key)).toList k := by
    intro k hk hnone
    rw [hl]
    rcases record with _ | w
    · exact hs.untouched k hnone
    · have hold := hs.untouched k hnone
      rw [Option.filter_some]
      by_cases hkey : k = w.key
      · subst hkey
        rw [if_pos (by simp [unguarded, hk, hnone])]
        simp [Contents.puts, Contents.put]
      · refine (update_of_ne hkey ..).trans (hold.trans ?_)
        split
        · exact (update_of_ne hkey ..).symm
        · rfl
  have hget : ∀ k : String, s'.snapshots[k]? =
      if k = key then some (base key) else s.snapshots[k]? := fun k => by
    rw [hsnapshots, getElem?_insert_string, hs.untouched key hnew]
  constructor
  · intro k o (ho : s'.snapshots[k]? = some o)
    rw [hget] at ho
    split at ho
    · next hk => rw [hbase k (.inl hk), hk, Option.some.inj ho]
    · rw [hbase k (.inr (by simp [ho])), hs.taken k o ho]
  · intro k (ho : s'.snapshots[k]? = none)
    rw [hget] at ho
    split at ho
    · cases ho
    · next hk => exact hview k hk ho

/-- The snapshots lead back to what had none, and what was written is there until then. -/
theorem Guarded.syncKeys (hL : BehavesAsMap L viewL) (hok : Writable L) (hkeyed : before.Keyed)
    {keys : List String} (hnodup : keys.Nodup) :
    ∀ {s : Syncing ν σ ρ} {written lasting : List (StateRecord ν)},
    Guarded viewL (before.puts lasting) s → viewL s.localStore = before.puts written →
    (∀ k ∈ keys, s.snapshots[k]? = none) → ∀ {e s'}, syncKeys L R keys s = (.error e, s') →
    viewL s'.localStore = before.puts (leftBehind L R written lasting s keys) := by
  induction keys with
  | nil => intro s _ _ _ _ _ e s' h; cases h
  | cons key keys ih =>
    intro s written lasting hs hview hnew e s' h
    obtain ⟨hnot, hnodup⟩ := nodup_cons.1 hnodup
    have hnewkey := hnew key mem_cons_self
    rw [Storage.syncKeys] at h
    rw [leftBehind]
    cases htaken : takenOver L R s key with
    | none =>
      obtain ⟨e₁, s₁, hkey, hsame⟩ := syncKey_of_reads_fail hL htaken
      rw [hkey] at h
      cases h
      exact hsame.trans hview
    | some record =>
      obtain ⟨l, s₁, hsnapshots, hl, hkey⟩ :=
        syncKey_of_takenOver hL hok (hview ▸ hkeyed.puts written) htaken
      have hround := hs.round hnewkey hsnapshots hl
      have hlasting : (before.puts lasting).puts (record.filter (unguarded s key)).toList =
          before.puts (lasting ++ (record.filter (unguarded s key)).toList) := foldl_append.symm
      rw [hlasting] at hround
      rcases hkey with ⟨e₁, hkey, hback⟩ | ⟨hkey, rfl⟩
      · rw [hkey] at h
        cases h
        simp only [proceed, hkey]
        rw [hback]
        exact rollbackLocal_restores hL hok (hkeyed.puts _) hround.taken hround.untouched
      · rw [hkey] at h
        simp only [proceed, hkey]
        refine ih hnodup hround ?_ (fun k hk => ?_) h
        · rw [hl, hview]
          exact foldl_append.symm
        · rw [hsnapshots, getElem?_insert_string, if_neg fun heq : k = key => hnot (heq ▸ hk)]
          exact hnew k (mem_cons_of_mem _ hk)

/-- Where the loop starts, after both adapters have listed their keys. -/
def Syncing.start (L : DataStore ν σ) (R : DataStore ν ρ) (l : σ) (r : ρ) : Syncing ν σ ρ :=
  ⟨(L.listKeys l).2, (R.listKeys r).2, ∅, []⟩

end

/-! ## A remote adapter that fails -/

end Traverse.Storage

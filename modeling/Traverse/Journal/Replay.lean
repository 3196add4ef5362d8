import Traverse.Journal.Represent

/-!
# Journal.Replay

`replay_from` on a represented journal. The scan never fails (only the newest file can be torn,
and there a torn tail is allowed) and returns the events of the segments it does not skip
(`replayScan_ok`). `visible` is the answer in terms of records alone: the events after a
sequence number that no revocation names.
-/

namespace Traverse.Journal

open Lines Decimal List

section

variable {ε : Type}

/-- The sequence numbers named by revocations. -/
def revocations (rs : List (JournalRecordV1 ε)) : List Nat := rs.filterMap (·.revokes)

/-- The event of a record after `after`. -/
def eventAfter (after : Nat) (r : JournalRecordV1 ε) : Option (Nat × ε) :=
  match r.revokes with
  | some _ => none
  | none => if after < r.seq then r.event.map fun e => (r.seq, e) else none

variable {after : Nat}

theorem eventAfter_lt {r : JournalRecordV1 ε} {p : Nat × ε} (h : eventAfter after r = some p) :
    after < p.1 := by
  unfold eventAfter at h
  cases hrev : r.revokes with
  | some s => simp [hrev] at h
  | none =>
    simp only [hrev] at h
    split at h
    · next hlt =>
      obtain ⟨e, _, rfl⟩ := Option.map_eq_some_iff.1 h
      exact hlt
    · cases h

/-- The unrevoked events after `after`, with their cursors. -/
def visibleAll (after : Nat) (rs : List (JournalRecordV1 ε)) : List (String × ε) :=
  ((rs.filterMap (eventAfter after)).filter fun p => p.1 ∉ revocations rs).map
    fun p => (p.1.repr, p.2)

/-- The first `n` of them. -/
def visible (after n : Nat) (rs : List (JournalRecordV1 ε)) : List (String × ε) :=
  (visibleAll after rs).take n

theorem mem_visibleAll {rs : List (JournalRecordV1 ε)} {p : String × ε} :
    p ∈ visibleAll after rs ↔ ∃ r ∈ rs, r.revokes = none ∧ after < r.seq ∧
      r.event = some p.2 ∧ p.1 = r.seq.repr ∧ r.seq ∉ revocations rs := by
  constructor
  · intro hp
    obtain ⟨q, hq, rfl⟩ := mem_map.1 hp
    obtain ⟨hq, hnot⟩ := mem_filter.1 hq
    obtain ⟨r, hr, he⟩ := mem_filterMap.1 hq
    unfold eventAfter at he
    cases hrev : r.revokes with
    | some s => simp [hrev] at he
    | none =>
      simp only [hrev] at he
      split at he
      · next hlt =>
        obtain ⟨e, hev, rfl⟩ := Option.map_eq_some_iff.1 he
        exact ⟨r, hr, hrev, hlt, hev, rfl, by simpa using hnot⟩
      · cases he
  · rintro ⟨r, hr, hrev, hlt, hev, hcur, hnot⟩
    refine mem_map.2 ⟨(r.seq, p.2), mem_filter.2 ⟨mem_filterMap.2 ⟨r, hr, ?_⟩, ?_⟩, ?_⟩
    · simp [eventAfter, hrev, hlt, hev]
    · simpa using hnot
    · rw [← hcur]

/-- The records a replay reads: the skip rule looks at whole segments. -/
def selected (after : Nat) (segs : List (SegmentImage ε)) : List (JournalRecordV1 ε) :=
  (segs.filter fun v => after < v.lastSeq).flatMap SegmentImage.onDisk

namespace DurableEventJournal

theorem foldl_scanRecord (after : Nat) (rs : List (JournalRecordV1 ε)) :
    ∀ acc : List Nat × List (Nat × ε), rs.foldl (scanRecord after) acc =
      ((revocations rs).reverse ++ acc.1, acc.2 ++ rs.filterMap (eventAfter after)) := by
  induction rs with
  | nil => intro acc; simp [revocations]
  | cons r rs ih =>
    intro acc
    rw [foldl_cons, ih]
    cases hr : r.revokes with
    | some s => simp [scanRecord, revocations, eventAfter, hr]
    | none =>
      by_cases hs : after < r.seq
      · cases he : r.event with
        | none | some => simp [scanRecord, revocations, eventAfter, hr, hs, he]
      · simp [scanRecord, revocations, eventAfter, hr, hs]

variable (c : RecordCodec ε)

variable {dir : Dir} {segs : List (SegmentImage ε)}

theorem scanSegments_ok (after : Nat) :
    ∀ {metas : List SegmentMeta} (cache : String → SegmentReadCache ε)
      (acc : List Nat × List (Nat × ε)), List.Forall₂ (Describes c) metas segs →
      (∀ v ∈ segs, dir.find v.name = some (v.bytes c)) → (∀ v ∈ segs.dropLast, v.tail = []) →
      (∀ v ∈ segs, Coherent c v.onDisk (cache v.name)) →
      segs.Pairwise (fun a b => a.name ≠ b.name) →
      ∃ cache', scanSegments c dir after metas cache acc =
          (.ok ((selected after segs).foldl (scanRecord after) acc), cache') ∧
        (∀ v ∈ segs, Coherent c v.onDisk (cache' v.name)) ∧
        ∀ p, (∀ v ∈ segs, v.name ≠ p) → cache' p = cache p := by
  induction segs with
  | nil =>
    intro metas cache acc hd _ _ _ _
    cases hd
    exact ⟨cache, rfl, by simp, fun _ _ => rfl⟩
  | cons v segs ih =>
    intro metas cache acc hd hf ht hc hn
    obtain ⟨seg, rest, hseg, hrest, rfl⟩ := List.forall₂_cons_right_iff.1 hd
    rw [pairwise_cons] at hn
    have hf' : ∀ u ∈ segs, dir.find u.name = some (u.bytes c) := fun u hu => hf u (by simp [hu])
    have ht' : ∀ u ∈ segs.dropLast, u.tail = [] := by
      intro u hu
      cases segs with
      | nil => cases hu
      | cons w ws => exact ht u (by simpa using Or.inr hu)
    by_cases hskip : seg.lastSeq ≤ after
    · -- the whole segment lies at or before the cursor
      obtain ⟨cache', he, hco, hun⟩ := ih cache acc hrest hf' ht'
        (fun u hu => hc u (by simp [hu])) hn.2
      refine ⟨cache', ?_, ?_, fun p hp => hun p fun u hu => hp u (by simp [hu])⟩
      · have hsel : selected after (v :: segs) = selected after segs := by
          have : ¬ after < v.lastSeq := by rw [← hseg.lastSeq]; omega
          simp [selected, this]
        simp only [scanSegments, if_pos hskip, he, hsel]
      · intro u hu
        rcases mem_cons.1 hu with rfl | hu
        · rw [hun u.name fun w hw => (hn.1 w hw).symm]
          exact hc u (by simp)
        · exact hco u hu
    · have hallow : rest.isEmpty = true ∨ v.tail = [] := by
        cases segs with
        | nil => cases hrest; exact .inl rfl
        | cons w ws => exact .inr (ht v (by simp))
      have hread : cachedSegmentRecords c dir cache v.name rest.isEmpty = (.ok v.onDisk, _) :=
        cachedSegmentRecords_ok c (hf v (by simp)) v.ascending v.no_newline hallow (hc v (by simp))
      obtain ⟨cache', he, hco, hun⟩ := ih
        (fun p => if p = v.name then cacheAt c v.onDisk v.onDisk.length else cache p)
        (v.onDisk.foldl (scanRecord after) acc) hrest hf' ht'
        (fun u hu => by
          simp only [if_neg (hn.1 u hu).symm]
          exact hc u (by simp [hu])) hn.2
      refine ⟨cache', ?_, ?_, ?_⟩
      · have hsel : selected after (v :: segs) = v.onDisk ++ selected after segs := by
          have : after < v.lastSeq := by rw [← hseg.lastSeq]; omega
          simp [selected, this]
        simp only [scanSegments, if_neg hskip, hseg.path, hread, he, hsel, foldl_append]
      · intro u hu
        rcases mem_cons.1 hu with rfl | hu
        · rw [hun u.name fun w hw => (hn.1 w hw).symm]
          simp only [if_pos]
          exact ⟨_, Nat.le_refl _, rfl⟩
        · exact hco u hu
      · intro p hp
        rw [hun p fun u hu => hp u (by simp [hu]), if_neg (hp v (by simp)).symm]

theorem replayScan_ok {j : DurableEventJournal ε} (h : Represents c dir j segs) (after n : Nat) :
    ∃ cache, j.replayScan c dir after n =
        (.ok (visible after n (selected after segs)), { j with readCache := cache }) ∧
      Represents c dir { j with readCache := cache } segs := by
  obtain ⟨cache, he, hco, hun⟩ := scanSegments_ok c after j.readCache ([], []) h.described
    (fun v hv => h.stores.find_of_mem h.laid hv) (fun v hv => (h.laid.interior v hv).2.2)
    h.cached h.laid.name_ne
  refine ⟨cache, ?_, { h with
    cached := hco
    uncached := fun p hp => (hun p hp).trans (h.uncached p hp) }⟩
  simp [replayScan, he, finishReplay, foldl_scanRecord, visible, visibleAll, map_take]

end DurableEventJournal

end

end Traverse.Journal

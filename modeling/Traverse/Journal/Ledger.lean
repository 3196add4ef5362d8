import Traverse.Journal.Append
import Traverse.Journal.Recover
import Traverse.Journal.Replay

/-!
# Journal.Ledger

A journal root seen through the images of its files: `Keeps c w segs` says that the files are the
images, that a running journal represents them, and that their acknowledged records, after the
deleted ones, are exactly what callers have been told. Each step of the machine is described once
here, in terms of the images, and what is said about runs rests on these descriptions only:
`Keeps.openRoot`, `Keeps.appendLine`, `Keeps.prune`.
-/

namespace Traverse.Journal

open Lines Decimal List SegmentImage
open DurableEventJournal (replayScan_ok evict replayFrom)

section

variable {ε : Type} {c : RecordCodec ε}

structure Keeps (c : RecordCodec ε) (w : Root ε) (segs : List (SegmentImage ε)) : Prop where
  stores : Stores c w.dir segs
  laid : WellLaid segs
  small : ∀ v ∈ segs, ∀ r ∈ v.onDisk, r.seq < u64Max
  live : ∀ j, w.journal = some j → Represents c w.dir j segs
  acked : w.acks = (w.deleted ++ segs.flatMap records).map Ack.ofRecord

theorem keeps_empty : Keeps c Root.empty [] where
  stores := stores_empty
  laid := wellLaid_nil
  small := by simp
  live := by simp [Root.empty]
  acked := rfl

variable {w : Root ε} {segs : List (SegmentImage ε)} {j : DurableEventJournal ε}

theorem Keeps.close (h : Keeps c w segs) : Keeps c { w with journal := none } segs where
  stores := h.stores
  laid := h.laid
  small := h.small
  live := by simp
  acked := h.acked

/-! ## What callers were told -/

theorem Ack.seq_ofRecord {r : JournalRecordV1 ε} (h : r.seq ≤ u64Max) :
    (Ack.ofRecord r).seq = r.seq := by
  simp [Ack.seq, Ack.ofRecord, parseU64_repr h, Except.toOption]

theorem revoked_map (rs : List (JournalRecordV1 ε)) :
    revoked (rs.map Ack.ofRecord) = revocations rs := by
  simp only [revoked, revocations, filterMap_map]
  rfl

/-- What a scan of the records shows is what is owed for the calls that wrote them. -/
theorem visible_eq_owed (after n : Nat) {rs : List (JournalRecordV1 ε)}
    (h : ∀ r ∈ rs, r.seq ≤ u64Max) : visible after n rs = owed after n (rs.map Ack.ofRecord) := by
  unfold visible visibleAll owed
  rw [revoked_map]
  congr 1
  generalize revocations rs = names
  induction rs with
  | nil => rfl
  | cons r rs ih =>
    have ih := ih fun x hx => h x (by simp [hx])
    have hseq : (Ack.ofRecord r).seq = r.seq := Ack.seq_ofRecord (h r (by simp))
    have hev : (Ack.ofRecord r).event = r.event := rfl
    have hrv : (Ack.ofRecord r).revokes = r.revokes := rfl
    have hcur : (Ack.ofRecord r).cursor = r.seq.repr := rfl
    rw [map_cons, filter_cons, hseq, hrv]
    cases hr : r.revokes with
    | some s => simpa [eventAfter, hr] using ih
    | none =>
      by_cases ha : after < r.seq
      · by_cases hn : r.seq ∈ names
        · cases he : r.event with
          | none | some => simpa [eventAfter, hr, ha, hn, he] using ih
        · cases he : r.event with
          | none => simpa [eventAfter, hr, ha, hn, he, hev] using ih
          | some e => simpa [eventAfter, hr, ha, hn, he, hev, hcur] using ih
      · simpa [eventAfter, hr, ha] using ih

/-- While no segment has been pruned, the records of a journal show what is owed. -/
theorem Keeps.visible_records (h : Keeps c w segs) (hdel : w.deleted = []) (after n : Nat) :
    visible after n (segs.flatMap SegmentImage.records) = owed after n w.acks := by
  have hle : ∀ r ∈ segs.flatMap SegmentImage.records, r.seq ≤ u64Max := by
    intro r hr
    obtain ⟨v, hv, hr⟩ := mem_flatMap.1 hr
    exact Nat.le_of_lt (h.small v hv r (mem_append_left _ hr))
  rw [visible_eq_owed after n hle, h.acked, hdel, nil_append]

/-! ## Stored records -/

variable {dir : Dir} {v : SegmentImage ε} {config : JournalConfig}

theorem Stores.fileRecords (hs : Stores c dir segs) (hw : WellLaid segs) (hv : v ∈ segs) :
    fileRecords c dir v.name = v.onDisk := by
  rw [Journal.fileRecords, hs.find_of_mem hw hv, Option.getD_some, bytes, segmentBytes,
    completeLines_terminated (isLine_map_toVec c _) v.no_newline, filterMap_map]
  rw [show (fun l => (c.fromSlice l).toOption) ∘ c.toVec = some by
    funext r; simp [c.fromSlice_toVec, Except.toOption]]
  exact filterMap_some

theorem Stores.storedRecords (hs : Stores c dir segs) (hw : WellLaid segs) :
    storedRecords c dir = segs.flatMap onDisk := by
  rw [Journal.storedRecords, hs.segmentPaths hw, flatMap_map]
  exact flatMap_congr fun v hv => hs.fileRecords hw hv

/-! ## Opening and closing -/

theorem flatMap_onDisk_of_pending (h : ∀ v ∈ segs, v.pending = none) :
    segs.flatMap onDisk = segs.flatMap records :=
  flatMap_congr fun v hv => by simp [onDisk, h v hv]

theorem mem_recovered (hv : v ∈ recovered segs) : ∃ u ∈ segs, u.onDisk ≠ [] ∧ v = u.settle := by
  obtain ⟨u, hu, rfl⟩ := mem_map.1 hv
  obtain ⟨hu, hne⟩ := mem_filter.1 hu
  exact ⟨u, hu, by simpa using hne, rfl⟩

theorem Keeps.openRoot (h : Keeps c w segs) (hp : ∀ v ∈ segs, v.pending = none)
    (hconfig : validateConfig config = .ok ()) :
    ∃ j dir', openJournal c config w.dir = (.ok j, dir') ∧
      Keeps c { w with dir := dir', journal := some j } (recovered segs) ∧
      j.nextSeq = nextAfter 1 segs ∧ j.active = none := by
  obtain ⟨metas, dir', ho, hrep⟩ := openJournal_ok c h.stores h.laid h.small hconfig
  refine ⟨_, dir', ho, ⟨hrep.stores, hrep.laid, ?_, ?_, ?_⟩, rfl, rfl⟩
  · intro v hv r hr
    obtain ⟨u, hu, _, rfl⟩ := mem_recovered hv
    exact h.small u hu r (by simpa using hr)
  · intro j hj
    cases hj
    exact hrep
  · rw [flatMap_recovered, flatMap_onDisk_of_pending hp]
    exact h.acked

/-! ## Appending -/

/-- How `append_line` leaves a root whose files are tidy: it may refuse, succeed or fail. -/
inductive Wrote (c : RecordCodec ε) (w : Root ε) (j : DurableEventJournal ε)
    (segs : List (SegmentImage ε)) (now : Int) (event : Option ε) (revokes : Option Nat) :
    Option WriteFault → Root ε → List (SegmentImage ε) → Prop where
  | refused {io : Option WriteFault} {j' : DurableEventJournal ε}
      (next : j'.nextSeq = j.nextSeq) (segments : j'.segments = j.segments) :
      Wrote c w j segs now event revokes io { w with journal := some j' } segs
  | wrote {secs : Nat} {j' : DurableEventJournal ε} {dir : Dir} {segs' : List (SegmentImage ε)}
      (next : j'.nextSeq = j.nextSeq + 1) (clean : ∀ v ∈ segs', v.Clean)
      (records : segs'.flatMap records =
        segs.flatMap records ++ [⟨j.nextSeq, secs, event, revokes⟩]) :
      Wrote c w j segs now event revokes none
        { w with dir := dir, journal := some j'
                 acks := w.acks ++ [⟨j.nextSeq.repr, event, revokes⟩] } segs'
  | failed {fault : WriteFault} {secs : Nat} {j' : DurableEventJournal ε} {dir : Dir}
      {segs' : List (SegmentImage ε)} (clock : nowSecs now = .ok secs)
      (next : j'.nextSeq = j.nextSeq)
      (records : segs'.flatMap records = segs.flatMap records)
      (tidy : fault.written = 0 → ∀ v ∈ segs', v.Tidy)
      (longer : fault.written ≠ 0 → ∃ seg ∈ j'.segments, ∃ b, dir.find seg.path = some b ∧
        seg.bytes < b.length)
      (torn : fault.written ≤ (c.toVec ⟨j.nextSeq, secs, event, revokes⟩).length →
        ∀ v ∈ segs', v.pending = none)
      (pending : ∀ v ∈ segs', ∀ r ∈ v.pending, r = ⟨j.nextSeq, secs, event, revokes⟩) :
      Wrote c w j segs now event revokes (some fault)
        { w with dir := dir, journal := some j' } segs'

theorem nowSecs_cases (now : Int) : (∃ e, nowSecs now = .error e) ∨
    ∃ secs, nowSecs now = .ok secs := by
  unfold nowSecs
  split
  · exact .inl ⟨_, rfl⟩
  · exact .inr ⟨_, rfl⟩

theorem Keeps.refused (h : Keeps c w segs) {j' : DurableEventJournal ε}
    (hr : Represents c w.dir j' segs) : Keeps c { w with journal := some j' } segs where
  stores := h.stores
  laid := h.laid
  small := h.small
  live := fun _ hj => by cases hj; exact hr
  acked := h.acked

theorem Keeps.appendLine (h : Keeps c w segs) (hj : w.journal = some j)
    (ht : ∀ v ∈ segs, v.Tidy) (hmax : j.nextSeq < u64Max) (now : Int) (io : Option WriteFault)
    (event : Option ε) (revokes : Option Nat) :
    ∃ segs', Keeps c (w.returned event revokes (j.appendLine c w.dir now io event revokes)) segs' ∧
      Wrote c w j segs now event revokes io
        (w.returned event revokes (j.appendLine c w.dir now io event revokes)) segs' := by
  have hr := h.live j hj
  rcases nowSecs_cases now with ⟨e, he⟩ | ⟨secs, hs⟩
  · -- the clock reads before the epoch
    have hline : j.appendLine c w.dir now io event revokes = (.error (.err e), j, w.dir) := by
      simp only [DurableEventJournal.appendLine, he]
    rw [hline]
    exact ⟨segs, h.refused hr, .refused rfl rfl⟩
  have hblocked : Represents.Blocked c w.dir j segs (j.appendLine c w.dir now io event revokes) →
      ∃ segs', Keeps c (w.returned event revokes (j.appendLine c w.dir now io event revokes))
        segs' ∧
        Wrote c w j segs now event revokes io
          (w.returned event revokes (j.appendLine c w.dir now io event revokes)) segs' := by
    rintro ⟨_, j', hline, hr', hnext, hsegs⟩
    rw [hline]
    exact ⟨segs, h.refused hr', .refused hnext hsegs⟩
  cases io with
  | none =>
    rcases hr.appendLine_ok ht hmax hs event revokes with hb |
      ⟨j', dir', segs', hline, hr', hnext, hclean, hrec⟩
    · exact hblocked hb
    rw [hline]
    refine ⟨segs', ⟨hr'.stores, hr'.laid, ?_, ?_, ?_⟩, .wrote hnext hclean hrec⟩
    · intro v hv r hr
      rw [(hclean v hv).onDisk] at hr
      have hmem : r ∈ segs'.flatMap records := mem_flatMap.2 ⟨v, hv, hr⟩
      rw [hrec, mem_append, mem_singleton] at hmem
      rcases hmem with hmem | rfl
      · obtain ⟨u, hu, hru⟩ := mem_flatMap.1 hmem
        exact h.small u hu r (mem_append_left _ hru)
      · exact hmax
    · intro i hi
      cases hi
      exact hr'
    · show w.acks ++ _ = List.map _ (w.deleted ++ _)
      rw [hrec, ← append_assoc, map_append, ← h.acked]
      rfl
  | some fault =>
    rcases hr.appendLine_failed ht hs fault event revokes with
      hb | ⟨j', dir', segs', hline, hr', hnext, hrec, htidy, hlong, htorn, hpend⟩
    · exact hblocked hb
    rw [hline]
    refine ⟨segs', ⟨hr'.stores, hr'.laid, ?_, ?_, ?_⟩,
      .failed hs hnext hrec htidy hlong htorn hpend⟩
    · intro v hv r hr
      rcases mem_append.1 hr with hr | hr
      · have hmem : r ∈ segs'.flatMap records := mem_flatMap.2 ⟨v, hv, hr⟩
        rw [hrec] at hmem
        obtain ⟨u, hu, hru⟩ := mem_flatMap.1 hmem
        exact h.small u hu r (mem_append_left _ hru)
      · have := hpend v hv r (by simpa using hr)
        subst this
        exact hmax
    · intro i hi
      cases hi
      exact hr'
    · show w.acks = List.map _ (w.deleted ++ _)
      rw [hrec]
      exact h.acked

/-! ## Replay -/

theorem Represents.oldestRetainedSeq (h : Represents c dir j segs) :
    j.oldestRetainedSeq = segs.head?.map number := by
  have hd := h.described
  unfold DurableEventJournal.oldestRetainedSeq
  cases hm : j.segments with
  | nil =>
    rw [hm] at hd
    cases hd
    rfl
  | cons seg rest =>
    rw [hm] at hd
    obtain ⟨v, vs, hseg, _, rfl⟩ := List.forall₂_cons_left_iff.1 hd
    simp [hseg.firstSeq]

theorem Represents.replayFrom_cache (h : Represents c dir j segs) (cursor : String) (n : Nat) :
    ∃ cache, (j.replayFrom c dir cursor n).2 = { j with readCache := cache } ∧
      Represents c dir { j with readCache := cache } segs := by
  unfold replayFrom
  cases parseU64 cursor with
  | error e => exact ⟨j.readCache, rfl, h⟩
  | ok after =>
    obtain ⟨cache, hscan, hr⟩ := replayScan_ok c h after n
    cases j.oldestRetainedSeq with
    | none => exact ⟨cache, by simp only [hscan], hr⟩
    | some oldest =>
      by_cases hmax : u64Max < after + 1
      · exact ⟨j.readCache, by simp [hmax], h⟩
      · by_cases hold : after + 1 < oldest
        · exact ⟨j.readCache, by simp [hmax, hold], h⟩
        · exact ⟨cache, by simp only [hmax, hold, if_false, hscan], hr⟩

theorem Represents.replayFrom_ok (h : Represents c dir j segs) {cursor : String} {after : Nat}
    (hp : parseU64 cursor = .ok after)
    (hold : ∀ v ∈ segs.head?, v.number ≤ after + 1 ∧ after < u64Max) (n : Nat) :
    (j.replayFrom c dir cursor n).1 = .ok (visible after n (selected after segs)) := by
  obtain ⟨cache, hscan, _⟩ := replayScan_ok c h after n
  simp only [replayFrom, hp, h.oldestRetainedSeq]
  cases hs : segs.head? with
  | none => simp only [Option.map_none, hscan]
  | some v =>
    have hv := hold v hs
    have h1 : ¬ u64Max < after + 1 := by omega
    have h2 : ¬ after + 1 < v.number := by omega
    simp only [Option.map_some, h1, h2, if_false, hscan]

theorem selected_zero (hw : WellLaid segs) : selected 0 segs = segs.flatMap onDisk := by
  have hall : segs.filter (fun v => decide (0 < v.lastSeq)) = segs := by
    rw [filter_eq_self]
    intro v hv
    have h1 := hw.pos v hv
    have h2 := v.number_le_lastSeq
    exact decide_eq_true (by omega)
  rw [selected, hall]

/-! ## Retention -/

theorem Keeps.prune (h : Keeps c w segs) (hj : w.journal = some j) (ht : ∀ v ∈ segs, v.Tidy)
    {now : Int} {secs : Nat} (hnow : nowSecs now = .ok secs) :
    ∃ k dir', j.prune allowAll w.dir now =
        (.ok ((segs.take k).map name), j.without k ((segs.take k).map name), dir') ∧
      ((segs.take k).map name).flatMap (fileRecords c w.dir) = (segs.take k).flatMap records ∧
      Keeps c
        { w with dir := dir'
                 journal := some (j.without k ((segs.take k).map name))
                 deleted := w.deleted ++ (segs.take k).flatMap records }
        (segs.drop k) := by
  obtain ⟨hk, _, _, dir', he, hs⟩ | ⟨_, _, hkept, _⟩ := (h.live j hj).prune_cases allowAll hnow
  case inr => exact absurd rfl hkept
  have hr := (h.live j hj).drop hk hs
  refine ⟨_, dir', he, ?_, ⟨hr.stores, hr.laid, ?_, ?_, ?_⟩⟩
  · rw [flatMap_map]
    refine flatMap_congr fun v hv => ?_
    have hv' := mem_of_mem_take hv
    rw [h.stores.fileRecords h.laid hv', (ht v hv').onDisk]
  · exact fun v hv => h.small v (mem_of_mem_drop hv)
  · intro i hi
    cases hi
    exact hr
  · rw [h.acked, append_assoc, ← flatMap_append, take_append_drop]

end

end Traverse.Journal

import Traverse.Journal.Represent

/-!
# Journal.Append

`append_line` on a represented journal whose files hold nothing but acknowledged records.

* `activeSegment_cases`: the record goes to the newest file or to a new one, unless the newest
  file is empty and was rolled over: then the file to create exists already.
* `appendRecord_ok`, `appendRecord_failed`: a completed write adds the record to that file; a
  failed one leaves part of its line, or the whole line, behind the acknowledged records.
* `appendLine_ok`, `appendLine_failed`, `blocked`: the three ends of `append_line`.
-/

namespace Traverse.Journal

open Lines Decimal List SegmentImage DurableEventJournal

section

variable {ε : Type} {c : RecordCodec ε}

theorem forall₂_snoc {α β : Type} {R : α → β → Prop} {l : List α} {a : α} {m : List β} {b : β} :
    List.Forall₂ R (l ++ [a]) (m ++ [b]) ↔ List.Forall₂ R l m ∧ R a b := by
  rw [← List.forall₂_reverse_iff]
  simp [List.forall₂_reverse_iff, and_comm]

namespace DurableEventJournal

section

variable (j : DurableEventJournal ε) (secs : Nat)

@[simp] theorem rollover_nextSeq : (j.rollover secs).nextSeq = j.nextSeq := by
  unfold rollover; split <;> rfl

@[simp] theorem rollover_readCache : (j.rollover secs).readCache = j.readCache := by
  unfold rollover; split <;> rfl

@[simp] theorem rollover_segments : (j.rollover secs).segments = j.segments := by
  unfold rollover; split <;> simp [segments]

end

end DurableEventJournal

/-! ## The file a record goes to -/

/-- The representation once the target file has been chosen: it is the newest one. -/
structure Targets (c : RecordCodec ε) (dir : Dir) (j : DurableEventJournal ε) (seg : SegmentMeta)
    (init : List (SegmentImage ε)) (v : SegmentImage ε) : Prop where
  represents : Represents c dir { j with active := some seg } (init ++ [v])
  tidy : v.Tidy

theorem Represents.createNew {dir : Dir} {j : DurableEventJournal ε}
    {segs : List (SegmentImage ε)} (h : Represents c dir j segs) (hactive : j.active = none)
    (hclean : ∀ v ∈ segs, v.Clean) (secs : Nat) :
    ∃ seg dir', j.openSegment dir secs = .ok (seg, dir') ∧
      Targets c dir' j seg segs (.fresh j.nextSeq) := by
  have hname : ∀ v ∈ segs, v.name ≠ segmentName j.nextSeq := by
    intro v hv he
    have hlt := h.number_lt hv (hclean v hv).1
    have := segmentName_inj (h.laid.small v hv) h.next_le he
    omega
  obtain ⟨dir', hcreate, hs⟩ := h.stores.createNew hname
  refine ⟨_, dir', by simp only [DurableEventJournal.openSegment, hcreate]; rfl, ⟨?_, rfl, rfl⟩⟩
  have hsegs : j.segments = j.sealed := by simp [segments, hactive]
  refine
    { stores := hs
      laid := ?_
      described := ?_
      cached := ?_
      uncached := ?_
      next_pos := h.next_pos
      next_le := h.next_le
      below := ?_
      empty_eq := ?_ }
  · refine wellLaid_snoc.2 ⟨h.laid, hclean, fun u hu r hr => ?_, h.next_pos, h.next_le⟩
    rw [(hclean u hu).onDisk] at hr
    exact h.below u hu r hr
  · refine forall₂_snoc.2 ⟨hsegs ▸ h.described, rfl, rfl, rfl, fun _ => ?_⟩
    rfl
  · intro v hv
    rcases mem_append.1 hv with hv | hv
    · exact h.cached v hv
    rw [mem_singleton] at hv
    subst hv
    show Coherent c _ (j.readCache (segmentName j.nextSeq))
    rw [h.uncached _ hname]
    exact coherent_default c _
  · exact fun p hp => h.uncached p fun v hv => hp v (by simp [hv])
  · intro v hv r hr
    rcases mem_append.1 hv with hv | hv
    · exact h.below v hv r hr
    rw [mem_singleton] at hv
    subst hv
    cases hr
  · intro v hv hnil
    rcases mem_append.1 hv with hv | hv
    · exact h.empty_eq v hv hnil
    rw [mem_singleton] at hv
    subst hv
    rfl

theorem Represents.activeSegment_cases {dir : Dir} {j : DurableEventJournal ε}
    {segs : List (SegmentImage ε)} (h : Represents c dir j segs) (ht : ∀ v ∈ segs, v.Tidy)
    (secs : Nat) :
    (∃ seg dir' init v, (j.rollover secs).activeSegment dir secs = .ok (seg, dir') ∧
      Targets c dir' (j.rollover secs) seg init v ∧
      (segs = init ++ [v] ∨ segs = init ∧ v = .fresh j.nextSeq)) ∨
    ((∃ v ∈ segs, v.records = []) ∧ (j.rollover secs).active = none ∧
      (j.rollover secs).activeSegment dir secs =
        .error (ioErr "create journal segment" "File exists (os error 17)")) := by
  have hk : Represents c dir (j.rollover secs) segs := h.congr (by simp) (by simp) (by simp)
  cases hactive : (j.rollover secs).active with
  | some seg =>
    left
    have hd := hk.described
    simp only [segments, hactive, Option.toList_some] at hd
    obtain ⟨init, v, hsegs⟩ := (eq_nil_or_concat' segs).resolve_left (by
      rintro rfl
      have := hd.length_eq
      simp at this)
    refine ⟨seg, dir, init, v, by simp [activeSegment, hactive],
      ⟨?_, ht v (by simp [hsegs])⟩, .inl hsegs⟩
    rw [← hsegs]
    exact hk.congr (by simp [segments, hactive]) rfl rfl
  | none =>
    by_cases hne : ∃ v ∈ segs, v.records = []
    · -- the newest file is empty: it has the name of the file to create
      right
      obtain ⟨v, hv, hnil⟩ := hne
      have hname : v.name = segmentName (j.rollover secs).nextSeq := by
        rw [← hk.empty_eq v hv hnil]; rfl
      have hfind := hk.stores.find_of_mem hk.laid hv
      rw [hname, rollover_nextSeq] at hfind
      refine ⟨⟨v, hv, hnil⟩, rfl, ?_⟩
      simp [activeSegment, hactive, DurableEventJournal.openSegment, Dir.createNew, hfind]
    · left
      have hclean : ∀ v ∈ segs, v.Clean := fun v hv => ⟨fun hn => hne ⟨v, hv, hn⟩, ht v hv⟩
      obtain ⟨seg, dir', ho, htar⟩ := hk.createNew hactive hclean secs
      exact ⟨seg, dir', segs, _, by simp [activeSegment, hactive, ho], htar,
        .inr ⟨rfl, by simp⟩⟩

/-! ## The write -/

theorem Represents.replaceNewest {dir dir' : Dir} {j j' : DurableEventJournal ε}
    {init : List (SegmentImage ε)} {v w : SegmentImage ε} (h : Represents c dir j (init ++ [v]))
    (hs : Stores c dir' (init ++ [w])) (hnum : w.number = v.number)
    (hdisk : ∃ ss, w.onDisk = v.onDisk ++ ss)
    (hd : List.Forall₂ (Describes c) j'.segments (init ++ [w]))
    (hcache : j'.readCache = j.readCache) (hnext : j.nextSeq ≤ j'.nextSeq)
    (hle : j'.nextSeq ≤ u64Max) (hbelow : ∀ r ∈ w.records, r.seq < j'.nextSeq)
    (hempty : w.records = [] → w.number = j'.nextSeq) : Represents c dir' j' (init ++ [w]) := by
  obtain ⟨hlaid, hclean, hord, hpos, hsmall⟩ := wellLaid_snoc.1 h.laid
  have hname : w.name = v.name := by rw [name, hnum]; rfl
  refine ⟨hs, ?_, hd, ?_, ?_, Nat.le_trans h.next_pos hnext, hle, ?_, ?_⟩
  · rw [← hnum] at hord hpos hsmall
    exact wellLaid_snoc.2 ⟨hlaid, hclean, hord, hpos, hsmall⟩
  · rw [hcache]
    intro u hu
    rcases mem_append.1 hu with hu | hu
    · exact h.cached u (by simp [hu])
    rw [mem_singleton] at hu
    obtain ⟨ss, hss⟩ := hdisk
    rw [hu, hss, hname]
    exact (h.cached v (by simp)).append c ss
  · rw [hcache]
    intro p hp
    refine h.uncached p fun u hu => ?_
    rcases mem_append.1 hu with hu | hu
    · exact hp u (by simp [hu])
    rw [mem_singleton] at hu
    rw [hu, ← hname]
    exact hp w (by simp)
  · intro u hu r hr
    rcases mem_append.1 hu with hu | hu
    · exact Nat.lt_of_lt_of_le (h.below u (by simp [hu]) r hr) hnext
    · rw [mem_singleton] at hu
      exact hbelow r (hu ▸ hr)
  · intro u hu hnil
    rcases mem_append.1 hu with hu | hu
    · exact absurd hnil (hclean u hu).1
    rw [mem_singleton] at hu
    rw [hu] at hnil ⊢
    exact hempty hnil

namespace SegmentImage

/-- What is in the file after a write of `r` failed with `k` bytes written. -/
def leftover (c : RecordCodec ε) (v : SegmentImage ε) (r : JournalRecordV1 ε) (h : v.Extends r)
    (k : Nat) : SegmentImage ε :=
  if hk : k ≤ (c.toVec r).length then
    v.tear ((c.toVec r ++ [newline]).take k) (no_newline_take (c.isLine_toVec r).no_newline hk)
  else v.withhold r h

variable {v : SegmentImage ε} {r : JournalRecordV1 ε} {h : v.Extends r} {k : Nat}

@[simp] theorem leftover_number : (v.leftover c r h k).number = v.number := by
  unfold leftover; split <;> rfl

@[simp] theorem leftover_records : (v.leftover c r h k).records = v.records := by
  unfold leftover; split <;> rfl

theorem leftover_pending (hk : k ≤ (c.toVec r).length) : (v.leftover c r h k).pending = none := by
  rw [leftover, dif_pos hk]; rfl

theorem mem_leftover_pending {x : JournalRecordV1 ε} (hx : x ∈ (v.leftover c r h k).pending) :
    x = r := by
  unfold leftover at hx
  split at hx
  · cases hx
  · cases hx; rfl

theorem leftover_onDisk (ht : v.Tidy) : ∃ ss, (v.leftover c r h k).onDisk = v.onDisk ++ ss := by
  rw [ht.onDisk]
  exact ⟨_, by rw [onDisk, leftover_records]⟩

theorem bytes_of_tidy (ht : v.Tidy) : v.bytes c = terminated (v.records.map c.toVec) := by
  rw [bytes, ht.onDisk, ht.2, segmentBytes, append_nil]

theorem push_bytes (ht : v.Tidy) :
    (v.push r h).bytes c = v.bytes c ++ (c.toVec r ++ [newline]) := by
  rw [bytes_of_tidy ht, bytes_of_tidy ⟨rfl, rfl⟩]
  simp [push, terminated_append, terminated_singleton]

theorem leftover_bytes (ht : v.Tidy) :
    (v.leftover c r h k).bytes c = v.bytes c ++ (c.toVec r ++ [newline]).take k := by
  rw [bytes_of_tidy ht]
  unfold leftover
  split
  · simp [bytes, tear, onDisk, segmentBytes]
  -- the terminator was written too
  have hk : (c.toVec r ++ [newline]).length ≤ k := by
    rw [length_append, length_singleton]; omega
  rw [take_of_length_le hk]
  simp [bytes, withhold, onDisk, segmentBytes, terminated_append, terminated_singleton]

theorem leftover_tidy : (v.leftover c r h k).Tidy ↔ k = 0 := by
  unfold leftover
  split
  · simp [Tidy, tear]
  constructor
  · rintro ⟨hp, _⟩
    cases hp
  · rintro rfl
    omega

end SegmentImage

namespace Targets

variable {dir : Dir} {j : DurableEventJournal ε} {seg : SegmentMeta}
  {init : List (SegmentImage ε)} {v : SegmentImage ε}

section

variable (h : Targets c dir j seg init v)

include h

theorem extends_next {r : JournalRecordV1 ε} (hr : r.seq = j.nextSeq) : v.Extends r := by
  constructor
  · intro x hx
    rw [hr]
    exact h.represents.below v (by simp) x hx
  · intro hnil
    rw [hr]
    exact (h.represents.empty_eq v (by simp) hnil).symm

theorem describes : List.Forall₂ (Describes c) j.sealed init ∧ Describes c seg v :=
  forall₂_snoc.1 h.represents.described

theorem appendRecord_ok (hmax : j.nextSeq < u64Max) (secs : Nat)
    (event : Option ε) (revokes : Option Nat) :
    ∃ seg' dir', appendRecord c none dir seg j.nextSeq secs event revokes =
        (.ok j.nextSeq.repr, seg', dir') ∧
      Represents c dir' { j with active := some seg', nextSeq := j.nextSeq + 1 }
        (init ++ [v.push ⟨j.nextSeq, secs, event, revokes⟩ (h.extends_next rfl)]) := by
  obtain ⟨hd, hseg⟩ := h.describes
  have hb := push_bytes (c := c) (h := h.extends_next rfl)
    (r := ⟨j.nextSeq, secs, event, revokes⟩) h.tidy
  refine ⟨_, _, rfl, h.represents.replaceNewest ?_ rfl ?_ ?_ rfl (Nat.le_succ _) hmax ?_ ?_⟩
  · rw [hseg.path]
    exact h.represents.stores.appendTo h.represents.laid rfl hb
  · exact ⟨[⟨j.nextSeq, secs, event, revokes⟩], by
      rw [h.tidy.onDisk]; simp [onDisk, push]⟩
  · refine forall₂_snoc.2 ⟨hd, hseg.path, hseg.firstSeq, ?_, fun _ => ?_⟩
    · simp [lastSeq, push]
    · simp only [hb, length_append, hseg.bytes h.tidy]
  · intro r hr
    rcases mem_append.1 hr with hr | hr
    · exact Nat.lt_succ_of_lt (h.represents.below v (by simp) r hr)
    rw [mem_singleton] at hr
    subst hr
    exact Nat.lt_succ_self _
  · intro hnil
    simp [push] at hnil

theorem appendRecord_failed (fault : WriteFault) (secs : Nat)
    (event : Option ε) (revokes : Option Nat) :
    ∃ dir', appendRecord c (some fault) dir seg j.nextSeq secs event revokes =
        (.error (ioErr "append journal record" fault.error), seg, dir') ∧
      Represents c dir' { j with active := some seg }
        (init ++ [v.leftover c ⟨j.nextSeq, secs, event, revokes⟩ (h.extends_next rfl)
          fault.written]) := by
  obtain ⟨hd, hseg⟩ := h.describes
  have hb := leftover_bytes (c := c) (h := h.extends_next rfl)
    (r := ⟨j.nextSeq, secs, event, revokes⟩) (k := fault.written) h.tidy
  refine ⟨_, rfl, h.represents.replaceNewest ?_ (by simp) (leftover_onDisk h.tidy)
    ?_ rfl (Nat.le_refl _) h.represents.next_le ?_ ?_⟩
  · rw [hseg.path]
    exact h.represents.stores.appendTo h.represents.laid (by simp [name]) hb
  · refine forall₂_snoc.2 ⟨hd, ?_, ?_, ?_, fun ht => ?_⟩
    · simpa [name] using hseg.path
    · simpa using hseg.firstSeq
    · simpa [lastSeq] using hseg.lastSeq
    · have hk : fault.written = 0 := leftover_tidy.1 ht
      rw [hb, hk, take_zero, append_nil]
      exact hseg.bytes h.tidy
  · simpa using h.represents.below v (by simp)
  · simpa using h.represents.empty_eq v (by simp)

end

end Targets

/-! ## append_line -/

/-- The images after `v` took the place of the newest one, or was created. -/
theorem flatMap_landed {segs init : List (SegmentImage ε)} {v : SegmentImage ε} {n : Nat}
    (h : segs = init ++ [v] ∨ segs = init ∧ v = .fresh n) :
    segs.flatMap records =
      init.flatMap records ++ v.records := by
  rcases h with rfl | ⟨rfl, rfl⟩
  · simp
  · simp [fresh]

theorem flatMap_onDisk_of_tidy {segs : List (SegmentImage ε)} (h : ∀ v ∈ segs, v.Tidy) :
    segs.flatMap onDisk = segs.flatMap records :=
  flatMap_congr fun v hv => (h v hv).onDisk

namespace Represents

variable {dir : Dir} {j : DurableEventJournal ε} {segs : List (SegmentImage ε)}

/-- The newest file is empty, and the journal is about to create it again. -/
def Blocked (c : RecordCodec ε) (dir : Dir) (j : DurableEventJournal ε)
    (segs : List (SegmentImage ε))
    (result : Except Fault String × DurableEventJournal ε × Dir) : Prop :=
  (∃ v ∈ segs, v.records = []) ∧ ∃ j', result =
      (.error (.err (ioErr "create journal segment" "File exists (os error 17)")), j', dir) ∧
    Represents c dir j' segs ∧ j'.nextSeq = j.nextSeq ∧ j'.segments = j.segments

variable {secs : Nat} {now : Int}

theorem blocked (h : Represents c dir j segs) (hnow : nowSecs now = .ok secs)
    (hempty : ∃ v ∈ segs, v.records = []) (hactive : (j.rollover secs).active = none)
    (hopen : (j.rollover secs).activeSegment dir secs =
      .error (ioErr "create journal segment" "File exists (os error 17)"))
    (io : Option WriteFault) (event : Option ε) (revokes : Option Nat) :
    Blocked c dir j segs (j.appendLine c dir now io event revokes) := by
  have hsegs : { j.rollover secs with active := none }.segments = j.segments := by
    rw [← j.rollover_segments secs]
    simp [segments, hactive]
  refine ⟨hempty, { j.rollover secs with active := none }, ?_, ?_, by simp, hsegs⟩
  · simp only [appendLine, hnow, hopen]
  · exact h.congr hsegs (by simp) (by simp)

theorem appendLine_ok (h : Represents c dir j segs) (ht : ∀ v ∈ segs, v.Tidy)
    (hmax : j.nextSeq < u64Max) (hnow : nowSecs now = .ok secs) (event : Option ε)
    (revokes : Option Nat) :
    Blocked c dir j segs (j.appendLine c dir now none event revokes) ∨
    ∃ j' dir' segs', j.appendLine c dir now none event revokes = (.ok j.nextSeq.repr, j', dir') ∧
      Represents c dir' j' segs' ∧ j'.nextSeq = j.nextSeq + 1 ∧ (∀ v ∈ segs', v.Clean) ∧
      segs'.flatMap records =
        segs.flatMap records ++ [⟨j.nextSeq, secs, event, revokes⟩] := by
  rcases h.activeSegment_cases ht secs with ⟨seg, dir₁, init, v, hopen, htar, hland⟩ | ⟨he, ha, ho⟩
  · right
    obtain ⟨seg', dir', hwrite, hrep⟩ :=
      htar.appendRecord_ok (by simpa using hmax) secs event revokes
    have hle : ¬ u64Max < j.nextSeq + 1 := by omega
    refine ⟨_, dir', _, ?_, hrep, by simp, ?_, ?_⟩
    · simp only [appendLine, hnow, hopen, hwrite]
      simp only [rollover_nextSeq, if_neg hle]
    · intro u hu
      rcases mem_append.1 hu with hu | hu
      · exact (wellLaid_snoc.1 hrep.laid).2.1 u hu
      rw [mem_singleton] at hu
      subst hu
      exact ⟨by simp [push], rfl, rfl⟩
    · rw [flatMap_landed hland]
      simp [push]
  · exact .inl (h.blocked hnow he ha ho none event revokes)

theorem appendLine_failed (h : Represents c dir j segs) (ht : ∀ v ∈ segs, v.Tidy)
    (hnow : nowSecs now = .ok secs) (fault : WriteFault) (event : Option ε) (revokes : Option Nat) :
    Blocked c dir j segs (j.appendLine c dir now (some fault) event revokes) ∨
    ∃ j' dir' segs', j.appendLine c dir now (some fault) event revokes =
        (.error (.err (ioErr "append journal record" fault.error)), j', dir') ∧
      Represents c dir' j' segs' ∧ j'.nextSeq = j.nextSeq ∧
      segs'.flatMap records = segs.flatMap records ∧
      (fault.written = 0 → ∀ v ∈ segs', v.Tidy) ∧
      (fault.written ≠ 0 → ∃ seg ∈ j'.segments, ∃ b, dir'.find seg.path = some b ∧
        seg.bytes < b.length) ∧
      (fault.written ≤ (c.toVec ⟨j.nextSeq, secs, event, revokes⟩).length →
        ∀ v ∈ segs', v.pending = none) ∧
      ∀ v ∈ segs', ∀ r ∈ v.pending, r = ⟨j.nextSeq, secs, event, revokes⟩ := by
  rcases h.activeSegment_cases ht secs with ⟨seg, dir₁, init, v, hopen, htar, hland⟩ | ⟨he, ha, ho⟩
  · right
    obtain ⟨dir', hwrite, hrep⟩ := htar.appendRecord_failed fault secs event revokes
    obtain ⟨hlaid, hclean, _⟩ := wellLaid_snoc.1 hrep.laid
    have hx : v.Extends ⟨(j.rollover secs).nextSeq, secs, event, revokes⟩ := htar.extends_next rfl
    refine ⟨_, dir', _, ?_, hrep, by simp, ?_, ?_, ?_, ?_, ?_⟩
    · simp only [appendLine, hnow, hopen, hwrite]
    · rw [flatMap_landed hland]
      simp
    · intro hk u hu
      rcases mem_append.1 hu with hu | hu
      · exact (hclean u hu).2
      rw [mem_singleton] at hu
      subst hu
      exact leftover_tidy.2 hk
    · intro hk
      have hseg := htar.describes.2
      have hfind := hrep.stores.find_of_mem hrep.laid
        (v := v.leftover c _ hx fault.written) (by simp)
      have hpath : (v.leftover c _ hx fault.written).name = seg.path := by
        rw [hseg.path]; simp [name]
      rw [hpath, leftover_bytes htar.tidy] at hfind
      refine ⟨seg, by simp [segments], _, hfind, ?_⟩
      rw [length_append, length_take, length_append, length_singleton,
        ← hseg.bytes htar.tidy]
      omega
    · intro hk u hu
      rcases mem_append.1 hu with hu | hu
      · exact (hclean u hu).2.1
      rw [mem_singleton] at hu
      subst hu
      exact leftover_pending (by simpa using hk)
    · intro u hu r hr
      rcases mem_append.1 hu with hu | hu
      · rw [(hclean u hu).2.1] at hr
        cases hr
      · rw [mem_singleton] at hu
        subst hu
        simpa using mem_leftover_pending hr
  · exact .inl (h.blocked hnow he ha ho (some fault) event revokes)

end Represents

end

end Traverse.Journal

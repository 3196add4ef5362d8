import Traverse.Journal.Represent

/-!
# Journal.Recover

`open` on a directory that stores a well-laid list of images.

* `openJournal_ok`: it succeeds, keeps every complete record, deletes a newest file that holds
  none, and continues after the last sequence number it read.
-/

namespace Traverse.Journal

open Lines Decimal List DurableEventJournal SegmentImage

section

variable {ε : Type} {v : SegmentImage ε} {segs : List (SegmentImage ε)}

/-- The images whose files survive recovery. -/
def kept (segs : List (SegmentImage ε)) : List (SegmentImage ε) :=
  segs.filter fun v => !v.onDisk.isEmpty

def recovered (segs : List (SegmentImage ε)) : List (SegmentImage ε) :=
  (kept segs).map settle

theorem SegmentImage.settle_of_tidy (h : v.Tidy) : v.settle = v := by
  obtain ⟨number, records, pending, tail, _, _, _⟩ := v
  obtain ⟨rfl, rfl⟩ : pending = none ∧ tail = [] := h
  simp [settle, onDisk]

theorem recovered_of_clean (h : ∀ v ∈ segs, v.Clean) : recovered segs = segs := by
  have hkept : kept segs = segs := by
    rw [kept, filter_eq_self]
    intro v hv
    simpa using (h v hv).onDisk_ne_nil
  rw [recovered, hkept]
  conv_rhs => rw [← map_id segs]
  exact map_congr_left fun v hv => settle_of_tidy (h v hv).2

/-- The sequence number after the last one stored, `next` when nothing is. -/
def nextAfter (next : Nat) (segs : List (SegmentImage ε)) : Nat :=
  ((segs.flatMap onDisk).getLast?.map (·.seq + 1)).getD next

theorem nextAfter_cons (next : Nat)
    {last : JournalRecordV1 ε} (hl : v.onDisk.getLast? = some last) :
    nextAfter next (v :: segs) = nextAfter (last.seq + 1) segs := by
  simp only [nextAfter, flatMap_cons, List.getLast?_append, hl]
  cases (segs.flatMap onDisk).getLast? <;> rfl

theorem WellLaid.clean_of_append {pre : List (SegmentImage ε)}
    (hw : WellLaid (pre ++ v :: segs)) (hne : segs ≠ []) : v.Clean := by
  refine hw.interior v ?_
  rw [dropLast_append_of_ne_nil (by simp), dropLast_cons_of_ne_nil hne]
  simp

variable (c : RecordCodec ε) {dir : Dir}

/-- The recovery loop on the images after `pre`. -/
theorem recoverSegments_ok :
    ∀ {dir : Dir} {pre : List (SegmentImage ε)} {next : Nat}, Stores c dir (pre ++ segs) →
      WellLaid (pre ++ segs) → (∀ v ∈ segs, next ≤ v.number) →
      (∀ v ∈ segs, ∀ r ∈ v.onDisk, r.seq < u64Max) →
      ∃ metas dir', recoverSegments c (segs.map name) next dir =
          (.ok (metas, nextAfter next segs), dir') ∧
        Stores c dir' (pre ++ kept segs) ∧ List.Forall₂ (Describes c) metas (recovered segs) := by
  induction segs with
  | nil =>
    intro dir pre next hs _ _ _
    exact ⟨[], dir, rfl, hs, .nil⟩
  | cons v segs ih =>
    intro dir pre next hs hw hnext hmax
    have hfind := hs.find_of_mem hw (v := v) (by simp)
    have hallow : (segs.map name).isEmpty = true ∨ v.tail = [] := by
      cases segs with
      | nil => exact .inl rfl
      | cons u us => exact .inr (hw.clean_of_append (by simp)).2.2
    have hread : readSegmentRecords c dir v.name (segs.map name).isEmpty =
        .ok v.onDisk := readSegmentRecords_ok c hfind v.ascending v.no_newline hallow
    by_cases hv : v.onDisk = []
    · -- only the newest file can be without a complete record
      have hsegs : segs = [] := by
        by_contra hne
        exact (hw.clean_of_append hne).onDisk_ne_nil hv
      subst hsegs
      obtain ⟨dir', hrem, hs'⟩ := hs.removeFile hw
      refine ⟨[], dir', ?_, by simpa [kept, hv] using hs', by simp [recovered, kept, hv]⟩
      have hnext' : nextAfter next [v] = next := by simp [nextAfter, hv]
      simp only [map_cons, recoverSegments, hread, hv, List.head?_nil, hrem, hnext']
      rfl
    · obtain ⟨first, hfirst⟩ := Option.ne_none_iff_exists'.1 (mt List.head?_eq_none_iff.1 hv)
      have hnum : first.seq = v.number := v.first_eq first hfirst
      obtain ⟨last, hlast⟩ := Option.ne_none_iff_exists'.1 (mt List.getLast?_eq_none_iff.1 hv)
      have hmem := mem_of_getLast? hlast
      have hseq : v.settle.lastSeq = last.seq := by simp [lastSeq, settle, hlast]
      have hge : ¬ first.seq < next := by
        have := hnext v (by simp)
        omega
      have hlt : ¬ u64Max < last.seq + 1 := by
        have := hmax v (by simp) last hmem
        omega
      have hkept : kept (v :: segs) = v :: kept segs := by simp [kept, hv]
      obtain ⟨metas, dir', hrec, hs', hd⟩ := @ih dir (pre ++ [v]) (last.seq + 1)
        (by simpa using hs) (by simpa using hw)
        (fun u hu => (pairwise_cons.1 (pairwise_append.1 hw.ordered).2.1).1 u hu last hmem)
        (fun u hu => hmax u (by simp [hu]))
      refine ⟨⟨v.name, first.seq, last.seq, first.writtenAtSecs, last.writtenAtSecs,
        ((dir.find v.name).getD []).length⟩ :: metas, dir', ?_, by simpa [hkept] using hs', ?_⟩
      · simp only [map_cons, recoverSegments, hread, hfirst, hlast, if_neg hge, if_neg hlt,
          hrec, nextAfter_cons next hlast]
      · rw [recovered, hkept]
        refine .cons ⟨rfl, hnum, hseq.symm, fun _ => ?_⟩ hd
        simp [hfind]

theorem WellLaid.kept (hw : WellLaid segs) : WellLaid (kept segs) := by
  induction segs using List.reverseRec with
  | nil => exact wellLaid_nil
  | append_singleton init v ih =>
    obtain ⟨hw', hclean, _⟩ := wellLaid_snoc.1 hw
    have hinit : Journal.kept init = init := by
      rw [Journal.kept, filter_eq_self]
      intro u hu
      simpa using (hclean u hu).onDisk_ne_nil
    by_cases hv : v.onDisk = []
    · have : Journal.kept (init ++ [v]) = init := by
        rw [Journal.kept, filter_append, ← Journal.kept, hinit]
        simp [hv]
      rw [this]; exact hw'
    · have : Journal.kept (init ++ [v]) = init ++ [v] := by
        rw [Journal.kept, filter_append, ← Journal.kept, hinit]
        simp [hv]
      rw [this]; exact hw

theorem WellLaid.settle (hw : WellLaid segs) : WellLaid (segs.map settle) := by
  refine ⟨?_, ?_, ?_, ?_⟩
  · rw [pairwise_map]
    exact hw.ordered.imp fun {a b} h r hr => h r (by simpa using hr)
  · rw [← map_dropLast]
    intro v hv
    obtain ⟨u, hu, rfl⟩ := mem_map.1 hv
    have hclean := hw.interior u hu
    exact ⟨hclean.onDisk_ne_nil, rfl, hclean.2.2⟩
  · intro v hv
    obtain ⟨u, hu, rfl⟩ := mem_map.1 hv
    exact hw.pos u hu
  · intro v hv
    obtain ⟨u, hu, rfl⟩ := mem_map.1 hv
    exact hw.small u hu

theorem flatMap_onDisk_kept (segs : List (SegmentImage ε)) :
    (kept segs).flatMap onDisk = segs.flatMap onDisk := by
  induction segs with
  | nil => rfl
  | cons v segs ih =>
    by_cases hv : v.onDisk = []
    · simpa [kept, hv] using ih
    · simpa [kept, hv] using ih

theorem flatMap_recovered (segs : List (SegmentImage ε)) :
    (recovered segs).flatMap records = segs.flatMap onDisk := by
  rw [recovered, flatMap_map, ← flatMap_onDisk_kept]
  rfl

theorem seq_lt_nextAfter (hw : WellLaid segs) (next : Nat) :
    ∀ r ∈ segs.flatMap onDisk, r.seq < nextAfter next segs := by
  intro r hr
  obtain ⟨init, l, hl⟩ := (eq_nil_or_concat' _).resolve_left (ne_nil_of_mem hr)
  have ha := hw.ascending
  rw [hl] at hr ha
  simp only [nextAfter, hl, List.getLast?_append, List.getLast?_singleton, Option.some_or,
    Option.map_some, Option.getD_some]
  rcases mem_append.1 hr with hr | hr
  · have := (pairwise_append.1 ha).2.2 r hr l (by simp)
    omega
  · rw [mem_singleton] at hr; subst hr; exact Nat.lt_succ_self _

theorem nextAfter_bounds (hmax : ∀ v ∈ segs, ∀ r ∈ v.onDisk, r.seq < u64Max) :
    1 ≤ nextAfter 1 segs ∧ nextAfter 1 segs ≤ u64Max := by
  unfold nextAfter
  cases h : (segs.flatMap onDisk).getLast? with
  | none => simp [u64Max]
  | some l =>
    obtain ⟨v, hv, hl⟩ := mem_flatMap.1 (mem_of_getLast? h)
    have := hmax v hv l hl
    simp only [Option.map_some, Option.getD_some]
    omega

theorem openJournal_ok {config : JournalConfig} (hs : Stores c dir segs) (hw : WellLaid segs)
    (hmax : ∀ v ∈ segs, ∀ r ∈ v.onDisk, r.seq < u64Max) (hconfig : validateConfig config = .ok ()) :
    ∃ metas dir', openJournal c config dir =
        (.ok { config := config, sealed := metas, active := none, nextSeq := nextAfter 1 segs,
               readCache := fun _ => .default }, dir') ∧
      Represents c dir' { config := config, sealed := metas, active := none,
                          nextSeq := nextAfter 1 segs, readCache := fun _ => .default }
        (recovered segs) := by
  obtain ⟨metas, dir', hrec, hs', hd⟩ := @recoverSegments_ok _ segs c dir [] 1 hs hw hw.pos hmax
  refine ⟨metas, dir', ?_, ?_⟩
  · simp only [openJournal, hconfig, hs.segmentPaths hw, hrec]
  · have hb := nextAfter_bounds hmax
    refine ⟨?_, hw.kept.settle, ?_, ?_, ?_, hb.1, hb.2, ?_, ?_⟩
    · rw [Stores, recovered, map_map, hs', nil_append]
      refine map_congr_left fun v _ => ?_
      rw [Function.comp_apply, settle_bytes]
      rfl
    · simpa [DurableEventJournal.segments] using hd
    · exact fun v _ => coherent_default c _
    · exact fun _ _ => rfl
    · intro v hv r hr
      refine seq_lt_nextAfter hw 1 r ?_
      rw [← flatMap_recovered]
      exact mem_flatMap.2 ⟨v, hv, hr⟩
    · intro v hv hnil
      obtain ⟨u, hu, rfl⟩ := mem_map.1 hv
      have hne := (mem_filter.1 hu).2
      exact absurd hnil (show u.onDisk ≠ [] by simpa using hne)

end

/-! ## `prune` -/

/-- How many segments the age loop deletes when the system refuses none. -/
def expiredCount (now maxAge : Nat) : List SegmentMeta → Nat
  | [] => 0
  | seg :: rest =>
    if now - seg.lastWrittenAtSecs ≤ maxAge then 0 else expiredCount now maxAge rest + 1

/-- How many segments the size loop deletes when the system refuses none. -/
def excessCount (maxTotal : Nat) : List SegmentMeta → Nat → Nat
  | [], _ => 0
  | seg :: rest, total =>
    if total ≤ maxTotal then 0 else excessCount maxTotal rest (total - seg.bytes) + 1

section

variable {ε : Type} {c : RecordCodec ε} {dir : Dir} {metas : List SegmentMeta}
  {segs : List (SegmentImage ε)} {j : DurableEventJournal ε}

namespace DurableEventJournal

variable (j : DurableEventJournal ε)

def ageVictims (secs : Nat) : Nat :=
  match j.config.retentionMaxAgeSecs with
  | none => 0
  | some maxAge => expiredCount secs maxAge j.sealed

def sizeVictims : Nat :=
  match j.config.retentionMaxTotalBytes with
  | none => 0
  | some maxTotal => excessCount maxTotal j.sealed ((j.segments.map (·.bytes)).sum)

/-- How many segments both rules delete: the size rule sees what the age rule left. -/
def victims (secs : Nat) : Nat :=
  j.ageVictims secs + { j with sealed := j.sealed.drop (j.ageVictims secs) }.sizeVictims

/-- The journal after its `k` oldest sealed files, at the paths `deleted`, are gone. -/
def without (k : Nat) (deleted : List String) : DurableEventJournal ε :=
  { j with sealed := j.sealed.drop k, readCache := evict j.readCache deleted }

end DurableEventJournal

/-- `path` is on disk and not listed. -/
def Stranded (metas : List SegmentMeta) (dir : Dir) (path : String) : Prop :=
  path ∈ segmentPaths dir ∧ path ∉ metas.map (·.path)

/-- The outcome of a deletion loop with `n` victims in the list `metas`, which `act` follows: they
are gone, or one that the system refused to delete is stranded. -/
def Reclaims (c : RecordCodec ε) (refuse : String → Option String) (n : Nat)
    (metas act : List SegmentMeta) (segs : List (SegmentImage ε)) (deleted : List String)
    (result : Except JournalError (List String) × List SegmentMeta × Dir) : Prop :=
  (n ≤ metas.length ∧ (∀ seg ∈ metas.take n, refuse seg.path = none) ∧ ∃ dir',
      result = (.ok (deleted ++ (metas.take n).map (·.path)), metas.drop n, dir') ∧
        Stores c dir' (segs.drop n)) ∨
    ∃ seg ∈ metas.take n, refuse seg.path ≠ none ∧ ∃ e metas' dir',
      result = (.error e, metas', dir') ∧ Stranded (metas' ++ act) dir' seg.path

theorem paths_of_described
    (hd : List.Forall₂ (Describes c) metas segs) : metas.map (·.path) = segs.map name := by
  induction hd with
  | nil => rfl
  | cons hseg _ ih => rw [map_cons, map_cons, ih, hseg.path]

section Loops

variable {refuse : String → Option String} {act : List SegmentMeta} {deleted : List String}

theorem Reclaims.zero (hs : Stores c dir segs) :
    Reclaims c refuse 0 metas act segs deleted (.ok deleted, metas, dir) :=
  .inl ⟨Nat.zero_le _, by simp, dir, by simp, hs⟩

/-- One round of a loop: the first entry leaves the list, then its file is deleted. -/
theorem Reclaims.cons {n : Nat} {seg : SegmentMeta} {v : SegmentImage ε} (hseg : Describes c seg v)
    (hd : List.Forall₂ (Describes c) (metas ++ act) segs) (hs : Stores c dir (v :: segs))
    (hw : WellLaid (v :: segs)) (what : String)
    {loop : Dir → Except JournalError (List String) × List SegmentMeta × Dir}
    (ih : ∀ dir', Stores c dir' segs →
      Reclaims c refuse n metas act segs (deleted ++ [seg.path]) (loop dir')) :
    Reclaims c refuse (n + 1) (seg :: metas) act (v :: segs) deleted
      (match dir.removeFile refuse seg.path with
      | .error e => (.error (ioErr what e), metas, dir)
      | .ok dir' => loop dir') := by
  cases hrefuse : refuse seg.path with
  | some e =>
    refine .inr ⟨seg, by simp, by simp [hrefuse], ioErr what e, metas, dir,
      by simp [Dir.removeFile, hrefuse], ?_, ?_⟩
    · rw [hs.segmentPaths hw, hseg.path]
      simp
    · rw [paths_of_described hd, hseg.path]
      intro hin
      obtain ⟨u, hu, he⟩ := mem_map.1 hin
      exact (pairwise_cons.1 hw.name_ne).1 u hu he.symm
  | none =>
    obtain ⟨dir', hrem, hs'⟩ := (show Stores c dir ([] ++ v :: segs) from hs).removeFile hw
    have hok : dir.removeFile refuse seg.path = .ok dir' := by
      rw [← hrem, hseg.path.symm]
      simp [Dir.removeFile, hrefuse, allowAll]
    simp only [hok]
    rcases ih dir' hs' with ⟨hn, hall, dir₁, hr, hs₁⟩ | ⟨u, hu, hkept, hr⟩
    · exact .inl ⟨by simpa using hn, by simpa [hrefuse] using hall, dir₁, by simp [hr], hs₁⟩
    · exact .inr ⟨u, by simp [hu], hkept, hr⟩

theorem pruneByAge_reclaims (now maxAge : Nat)
    (hd : List.Forall₂ (Describes c) (metas ++ act) segs) (hs : Stores c dir segs)
    (hw : WellLaid segs) : Reclaims c refuse (expiredCount now maxAge metas) metas act segs deleted
      (pruneByAge refuse now maxAge metas dir deleted) := by
  induction metas generalizing segs dir deleted with
  | nil => exact .zero hs
  | cons seg metas ih =>
    obtain ⟨v, segs, hseg, hrest, rfl⟩ := List.forall₂_cons_left_iff.1 hd
    unfold pruneByAge expiredCount
    split
    · exact .zero hs
    · exact .cons hseg hrest hs hw _ fun dir' hs' => ih hrest hs' (hw.drop 1)

theorem pruneBySize_reclaims (maxTotal total : Nat)
    (hd : List.Forall₂ (Describes c) (metas ++ act) segs) (hs : Stores c dir segs)
    (hw : WellLaid segs) : Reclaims c refuse (excessCount maxTotal metas total) metas act segs
      deleted (pruneBySize refuse maxTotal metas total dir deleted) := by
  induction metas generalizing segs dir deleted total with
  | nil => exact .zero hs
  | cons seg metas ih =>
    obtain ⟨v, segs, hseg, hrest, rfl⟩ := List.forall₂_cons_left_iff.1 hd
    unfold pruneBySize excessCount
    split
    · exact .zero hs
    · exact .cons hseg hrest hs hw _ fun dir' hs' => ih _ hrest hs' (hw.drop 1)

end Loops

namespace Represents

variable (h : Represents c dir j segs)

include h

theorem drop {dir' : Dir} {k : Nat} (hk : k ≤ j.sealed.length) (hs : Stores c dir' (segs.drop k)) :
    Represents c dir' (j.without k ((segs.take k).map name)) (segs.drop k) := by
  have hmem : ∀ v ∈ segs.drop k, v ∈ segs := fun v hv => mem_of_mem_drop hv
  have hsplit : segs.take k ++ segs.drop k = segs := take_append_drop k segs
  have hne := h.laid.name_ne
  rw [← hsplit, pairwise_append] at hne
  refine
    { stores := hs
      laid := h.laid.drop k
      described := ?_
      cached := ?_
      uncached := ?_
      next_pos := h.next_pos
      next_le := h.next_le
      below := fun v hv => h.below v (hmem v hv)
      empty_eq := fun v hv => h.empty_eq v (hmem v hv) }
  · have hd := List.forall₂_drop k h.described
    rwa [segments, drop_append_of_le_length hk] at hd
  · intro v hv
    have hn : v.name ∉ (segs.take k).map name := by
      intro hin
      obtain ⟨u, hu, he⟩ := mem_map.1 hin
      exact hne.2.2 u hu v hv he
    show Coherent c v.onDisk (evict _ _ v.name)
    rw [evict, if_neg hn]
    exact h.cached v (hmem v hv)
  · intro p hp
    show evict _ _ p = _
    unfold evict
    split
    · rfl
    rename_i hn
    refine h.uncached p fun v hv he => ?_
    rw [← hsplit, mem_append] at hv
    rcases hv with hv | hv
    · exact hn (mem_map.2 ⟨v, hv, he⟩)
    · exact hp v hv he

theorem paths_take {k : Nat} (hk : k ≤ j.sealed.length) :
    (j.sealed.take k).map (·.path) = (segs.take k).map name := by
  rw [← paths_of_described (List.forall₂_take k h.described), segments,
    take_append_of_le_length hk]

variable (refuse : String → Option String)

theorem pruneAge_reclaims (secs : Nat) :
    Reclaims c refuse (j.ageVictims secs) j.sealed j.active.toList segs []
      (j.pruneAge refuse dir secs) := by
  unfold pruneAge ageVictims
  cases j.config.retentionMaxAgeSecs with
  | none => exact .zero h.stores
  | some maxAge => exact pruneByAge_reclaims secs maxAge h.described h.stores h.laid

theorem pruneSize_reclaims (deleted : List String) :
    Reclaims c refuse j.sizeVictims j.sealed j.active.toList segs deleted
      (j.pruneSize refuse dir deleted) := by
  unfold pruneSize sizeVictims
  cases j.config.retentionMaxTotalBytes with
  | none => exact .zero h.stores
  | some maxTotal => exact pruneBySize_reclaims maxTotal _ h.described h.stores h.laid

/-- What `prune` does when the clock can be read. -/
theorem prune_cases {now : Int} {secs : Nat} (hnow : nowSecs now = .ok secs) :
    (j.victims secs ≤ j.sealed.length ∧
      (∀ seg ∈ j.sealed.take (j.victims secs), refuse seg.path = none) ∧
      (j.pruneAge refuse dir secs).1 =
        .ok ((j.sealed.take (j.ageVictims secs)).map (·.path)) ∧
      ∃ dir', j.prune refuse dir now = (.ok ((segs.take (j.victims secs)).map name),
          j.without (j.victims secs) ((segs.take (j.victims secs)).map name), dir') ∧
        Stores c dir' (segs.drop (j.victims secs))) ∨
    ∃ seg ∈ j.sealed.take (j.victims secs), refuse seg.path ≠ none ∧ ∃ e sealed dir',
      j.prune refuse dir now = (.error e, { j with sealed := sealed }, dir') ∧
        Stranded { j with sealed := sealed }.segments dir' seg.path := by
  have hall : j.sealed.take (j.victims secs) = j.sealed.take (j.ageVictims secs) ++
      (j.sealed.drop (j.ageVictims secs)).take _ := take_add
  rcases h.pruneAge_reclaims refuse secs with
    ⟨hn₁, hall₁, dir₁, hage, hs₁⟩ | ⟨seg, hseg, hkept, e, sealed, dir', hage, hstranded⟩
  · rw [nil_append] at hage
    have hsize := (h.drop hn₁ hs₁).pruneSize_reclaims refuse
      ((j.sealed.take (j.ageVictims secs)).map (·.path))
    -- the size rule does not look at the cache
    change Reclaims c refuse { j with sealed := j.sealed.drop (j.ageVictims secs) }.sizeVictims
      (j.sealed.drop (j.ageVictims secs)) j.active.toList _ _
      ({ j with sealed := j.sealed.drop (j.ageVictims secs) }.pruneSize refuse dir₁ _) at hsize
    rcases hsize with
      ⟨hn₂, hall₂, dir₂, hsize, hs₂⟩ | ⟨seg, hseg, hkept, e, sealed, dir', hsize, hstranded⟩
    · have hk : j.victims secs ≤ j.sealed.length := by
        rw [length_drop] at hn₂
        unfold victims
        omega
      rw [← map_append, ← hall, h.paths_take hk, drop_drop] at hsize
      rw [drop_drop] at hs₂
      refine .inl ⟨hk, ?_, by rw [hage], dir₂, by simp only [prune, hnow, hage, hsize]; rfl, hs₂⟩
      intro seg hseg
      rw [hall, mem_append] at hseg
      exact hseg.elim (hall₁ seg) (hall₂ seg)
    · exact .inr ⟨seg, hall ▸ mem_append_right _ hseg, hkept, .err e, sealed, dir',
        by simp only [prune, hnow, hage, hsize], hstranded⟩
  · exact .inr ⟨seg, hall ▸ mem_append_left _ hseg, hkept, .err e, sealed, dir',
      by simp only [prune, hnow, hage], hstranded⟩

end Represents

end

end Traverse.Journal

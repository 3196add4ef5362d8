import Mathlib.Data.List.Forall2
import Mathlib.Data.List.Induction
import Mathlib.Data.List.TakeDrop
import Traverse.Journal.Segment

/-!
# Journal.Represent

The relation between a running journal, its directory and the images of its segment files, and
the file operations seen through it.

* `Stores`: the directory holds exactly the images, in order.
* `Represents`: the directory stores the images, the segment list describes them, every cache
  entry holds a first part of its segment, and the next sequence number is above every
  acknowledged one.
-/

namespace Traverse.Journal

open Lines Decimal List

/-! ## Images

A `SegmentImage` is one segment file seen as its acknowledged records, a complete record whose
write was reported as failed (`pending`), and the unterminated rest of a torn line (`tail`).
`WellLaid` is the order of the files: sequence numbers increase from file to file, and only the
newest file may be empty, hold a pending record or end in a torn line. -/

section

variable {ε : Type}

structure SegmentImage (ε : Type) where
  number : Nat
  records : List (JournalRecordV1 ε)
  pending : Option (JournalRecordV1 ε)
  tail : Bytes
  ascending : Ascending none (records ++ pending.toList)
  first_eq : ∀ r ∈ (records ++ pending.toList).head?, r.seq = number
  no_newline : newline ∉ tail

namespace SegmentImage

/-- The records whose whole line is in the file. -/
def onDisk (v : SegmentImage ε) : List (JournalRecordV1 ε) := v.records ++ v.pending.toList

def name (v : SegmentImage ε) : String := segmentName v.number

def bytes (c : RecordCodec ε) (v : SegmentImage ε) : Bytes := segmentBytes c v.onDisk v.tail

def Tidy (v : SegmentImage ε) : Prop := v.pending = none ∧ v.tail = []

def Clean (v : SegmentImage ε) : Prop := v.records ≠ [] ∧ v.Tidy

variable {v : SegmentImage ε} {r : JournalRecordV1 ε}

theorem Tidy.onDisk (h : v.Tidy) : v.onDisk = v.records := by
  simp [SegmentImage.onDisk, h.1]

theorem Clean.onDisk (h : v.Clean) : v.onDisk = v.records := h.2.onDisk

theorem Clean.onDisk_ne_nil (h : v.Clean) : v.onDisk ≠ [] := by
  rw [h.onDisk]; exact h.1

theorem number_le (v : SegmentImage ε) : ∀ r ∈ v.onDisk, v.number ≤ r.seq := by
  intro r hr
  cases h : v.onDisk with
  | nil => rw [h] at hr; cases hr
  | cons f rest =>
    have hf : f.seq = v.number := v.first_eq f (by
      show f ∈ v.onDisk.head?
      rw [h]; rfl)
    have ha : Ascending none (f :: rest) := h ▸ v.ascending
    rw [h] at hr
    rcases mem_cons.1 hr with rfl | hr
    · exact Nat.le_of_eq hf.symm
    · have := (pairwise_cons.1 ha.2).1 r hr
      omega

/-! ### Building images -/

def fresh (n : Nat) : SegmentImage ε where
  number := n
  records := []
  pending := none
  tail := []
  ascending := ascending_none.2 .nil
  first_eq := by simp
  no_newline := by simp

/-- `r` may follow the records of `v`. -/
structure Extends (v : SegmentImage ε) (r : JournalRecordV1 ε) : Prop where
  above : ∀ x ∈ v.records, x.seq < r.seq
  first : v.records = [] → r.seq = v.number

theorem Extends.ascending (h : v.Extends r) : Ascending none (v.records ++ [r]) := by
  have hv := (pairwise_append.1 v.ascending.2).1
  rw [ascending_none, pairwise_append]
  refine ⟨hv, by simp, ?_⟩
  intro a ha b hb
  rw [mem_singleton] at hb
  subst hb
  exact h.above a ha

theorem Extends.first_eq (h : v.Extends r) : ∀ x ∈ (v.records ++ [r]).head?, x.seq = v.number := by
  intro x hx
  cases hv : v.records with
  | nil =>
    rw [hv] at hx
    cases hx
    exact h.first hv
  | cons f rest =>
    refine v.first_eq x ?_
    rw [hv] at hx ⊢
    exact hx

/-- `v` with one more acknowledged record. -/
def push (v : SegmentImage ε) (r : JournalRecordV1 ε) (h : v.Extends r) : SegmentImage ε where
  number := v.number
  records := v.records ++ [r]
  pending := none
  tail := []
  ascending := by simpa using h.ascending
  first_eq := by simpa using h.first_eq
  no_newline := by simp

/-- `v` with a complete record whose write was reported as failed. -/
def withhold (v : SegmentImage ε) (r : JournalRecordV1 ε) (h : v.Extends r) :
    SegmentImage ε where
  number := v.number
  records := v.records
  pending := some r
  tail := []
  ascending := by simpa using h.ascending
  first_eq := by simpa using h.first_eq
  no_newline := by simp

/-- The acknowledged records of `v`, followed by part of a line. -/
def tear (v : SegmentImage ε) (t : Bytes) (h : newline ∉ t) : SegmentImage ε where
  number := v.number
  records := v.records
  pending := none
  tail := t
  ascending := by simpa [ascending_none] using (pairwise_append.1 v.ascending.2).1
  first_eq := by
    intro r hr
    refine v.first_eq r ?_
    cases hv : v.records with
    | nil => rw [hv] at hr; cases hr
    | cons f rest => rw [hv] at hr; exact hr
  no_newline := h

/-- What a reopened journal makes of `v`: every complete record counts. -/
def settle (v : SegmentImage ε) : SegmentImage ε where
  number := v.number
  records := v.onDisk
  pending := none
  tail := v.tail
  ascending := by rw [Option.toList_none, append_nil]; exact v.ascending
  first_eq := by rw [Option.toList_none, append_nil]; exact v.first_eq
  no_newline := v.no_newline

@[simp] theorem settle_onDisk (v : SegmentImage ε) : v.settle.onDisk = v.onDisk := by
  simp [settle, onDisk]

@[simp] theorem settle_bytes (c : RecordCodec ε) (v : SegmentImage ε) :
    v.settle.bytes c = v.bytes c := by
  simp only [bytes, settle_onDisk]; rfl

end SegmentImage

/-! ## Files in order -/

structure WellLaid (segs : List (SegmentImage ε)) : Prop where
  ordered : segs.Pairwise fun a b => ∀ r ∈ a.onDisk, r.seq < b.number
  interior : ∀ v ∈ segs.dropLast, v.Clean
  pos : ∀ v ∈ segs, 1 ≤ v.number
  small : ∀ v ∈ segs, v.number ≤ u64Max

theorem wellLaid_nil : WellLaid ([] : List (SegmentImage ε)) := ⟨.nil, by simp, by simp, by simp⟩

theorem wellLaid_snoc {init : List (SegmentImage ε)} {v : SegmentImage ε} :
    WellLaid (init ++ [v]) ↔
      WellLaid init ∧ (∀ u ∈ init, u.Clean) ∧ (∀ u ∈ init, ∀ r ∈ u.onDisk, r.seq < v.number) ∧
        1 ≤ v.number ∧ v.number ≤ u64Max := by
  constructor
  · rintro ⟨ho, hi, hp, hs⟩
    rw [pairwise_append] at ho
    have hclean : ∀ u ∈ init, u.Clean := fun u hu => hi u (by simpa using hu)
    exact ⟨⟨ho.1, fun u hu => hclean u (dropLast_subset _ hu),
        fun u hu => hp u (by simp [hu]), fun u hu => hs u (by simp [hu])⟩,
      hclean, fun u hu => ho.2.2 u hu v (by simp), hp v (by simp), hs v (by simp)⟩
  · rintro ⟨⟨ho, _, hp, hs⟩, hclean, hlt, hv⟩
    refine ⟨?_, by simpa using hclean, ?_, ?_⟩
    · rw [pairwise_append]
      refine ⟨ho, by simp, fun a ha b hb => ?_⟩
      rw [mem_singleton] at hb
      subst hb
      exact hlt a ha
    · intro u hu
      rcases mem_append.1 hu with hu | hu
      · exact hp u hu
      · rw [mem_singleton] at hu; subst hu; exact hv.1
    · intro u hu
      rcases mem_append.1 hu with hu | hu
      · exact hs u hu
      · rw [mem_singleton] at hu; subst hu; exact hv.2

variable {segs : List (SegmentImage ε)}

theorem WellLaid.drop (h : WellLaid segs) (k : Nat) : WellLaid (segs.drop k) := by
  refine ⟨h.ordered.sublist (drop_sublist k segs), ?_,
    fun v hv => h.pos v (mem_of_mem_drop hv), fun v hv => h.small v (mem_of_mem_drop hv)⟩
  intro v hv
  rw [dropLast_drop_eq_drop_dropLast] at hv
  exact h.interior v (mem_of_mem_drop hv)

theorem WellLaid.number_lt (h : WellLaid segs) : segs.Pairwise fun a b => a.number < b.number := by
  induction segs using List.reverseRec with
  | nil => exact .nil
  | append_singleton init v ih =>
    obtain ⟨hw, hclean, hlt, _⟩ := wellLaid_snoc.1 h
    rw [pairwise_append]
    refine ⟨ih hw, by simp, fun a ha b hb => ?_⟩
    rw [mem_singleton] at hb
    subst hb
    obtain ⟨r, rest, hr⟩ := exists_cons_of_ne_nil (hclean a ha).onDisk_ne_nil
    have hmem : r ∈ a.onDisk := by rw [hr]; simp
    have h1 := a.number_le r hmem
    have h2 := hlt a ha r hmem
    omega

theorem WellLaid.ascending (h : WellLaid segs) :
    (segs.flatMap SegmentImage.onDisk).Pairwise fun a b => a.seq < b.seq := by
  induction segs using List.reverseRec with
  | nil => exact .nil
  | append_singleton init v ih =>
    obtain ⟨hw, _, hlt, _⟩ := wellLaid_snoc.1 h
    rw [flatMap_append, pairwise_append]
    refine ⟨ih hw, by rw [flatMap_singleton]; exact v.ascending.2, fun a ha b hb => ?_⟩
    obtain ⟨u, hu, ha⟩ := mem_flatMap.1 ha
    have h1 := hlt u hu a ha
    have h2 := v.number_le b (by simpa using hb)
    omega

/-! ## Names -/

theorem segmentName_lt {m n : Nat} (hn : n ≤ u64Max) (h : m < n) :
    segmentName m < segmentName n := by
  have hn' : n < 10 ^ 20 := Nat.lt_of_le_of_lt hn (by decide)
  have hp : padded 20 m < padded 20 n := padded_lt (by decide) hn' h
  have hlen : (padded 20 m).length = (padded 20 n).length := by
    rw [length_padded (by decide) (Nat.lt_trans h hn'), length_padded (by decide) hn']
  rw [String.lt_iff]
  simp only [segmentName, String.toList_ofList, append_assoc]
  exact append_left_lt (append_lt_append _ hlen hp)

theorem isSegmentName_segmentName (n : Nat) : isSegmentName (segmentName n) = true := by
  simp only [isSegmentName, segmentName, String.toList_ofList, Bool.and_eq_true,
    isPrefixOf_iff_prefix, isSuffixOf_iff_suffix]
  exact ⟨⟨padded 20 n ++ segmentSuffix.toList, by simp⟩, ⟨_, rfl⟩⟩

end

section

variable {ε : Type} (c : RecordCodec ε)

def Stores (dir : Dir) (segs : List (SegmentImage ε)) : Prop :=
  dir.files = segs.map fun v => (v.name, v.bytes c)

/-- The last acknowledged sequence number, as the segment list keeps it. -/
def SegmentImage.lastSeq (v : SegmentImage ε) : Nat :=
  (v.records.getLast?.map (·.seq)).getD v.number

structure Describes (seg : SegmentMeta) (v : SegmentImage ε) : Prop where
  path : seg.path = v.name
  firstSeq : seg.firstSeq = v.number
  lastSeq : seg.lastSeq = v.lastSeq
  bytes : v.Tidy → seg.bytes = (v.bytes c).length

structure Represents (dir : Dir) (j : DurableEventJournal ε) (segs : List (SegmentImage ε)) :
    Prop where
  stores : Stores c dir segs
  laid : WellLaid segs
  described : List.Forall₂ (Describes c) j.segments segs
  cached : ∀ v ∈ segs, Coherent c v.onDisk (j.readCache v.name)
  uncached : ∀ p, (∀ v ∈ segs, v.name ≠ p) → j.readCache p = .default
  next_pos : 1 ≤ j.nextSeq
  next_le : j.nextSeq ≤ u64Max
  below : ∀ v ∈ segs, ∀ r ∈ v.records, r.seq < j.nextSeq
  empty_eq : ∀ v ∈ segs, v.records = [] → v.number = j.nextSeq

variable {c}

theorem SegmentImage.le_lastSeq (v : SegmentImage ε) {r : JournalRecordV1 ε} (h : r ∈ v.records) :
    r.seq ≤ v.lastSeq := by
  have hv := (pairwise_append.1 v.ascending.2).1
  obtain ⟨init, l, hl⟩ :=
    (eq_nil_or_concat' v.records).resolve_left (ne_nil_of_mem h)
  rw [hl] at h hv
  simp only [lastSeq, hl, List.getLast?_append, List.getLast?_singleton, Option.some_or,
    Option.map_some, Option.getD_some]
  rcases mem_append.1 h with h | h
  · exact Nat.le_of_lt ((pairwise_append.1 hv).2.2 r h l (by simp))
  · rw [mem_singleton] at h; subst h; exact Nat.le_refl _

theorem SegmentImage.number_le_lastSeq (v : SegmentImage ε) : v.number ≤ v.lastSeq := by
  cases h : v.records with
  | nil => simp [lastSeq, h]
  | cons r rest =>
    have hr : r ∈ v.records := by rw [h]; simp
    exact Nat.le_trans (v.number_le r (mem_append_left _ hr)) (v.le_lastSeq hr)

/-! ## Names and lookups -/

variable {n : Nat} {init : List (SegmentImage ε)} {v : SegmentImage ε} {j : DurableEventJournal ε}

theorem segmentName_inj {m : Nat} (hm : m ≤ u64Max) (hn : n ≤ u64Max)
    (h : segmentName m = segmentName n) : m = n := by
  rcases Nat.lt_trichotomy m n with hlt | heq | hgt
  · exact absurd (h ▸ segmentName_lt hn hlt) (String.lt_irrefl _)
  · exact heq
  · exact absurd (h ▸ segmentName_lt hm hgt) (String.lt_irrefl _)

section Files

variable {dir : Dir} {segs : List (SegmentImage ε)} (hs : Stores c dir segs) (hw : WellLaid segs)

include hw in
theorem WellLaid.name_lt : (segs.map SegmentImage.name).Pairwise (· < ·) := by
  rw [pairwise_map]
  refine (List.Pairwise.and_mem.1 hw.number_lt).imp ?_
  rintro a b ⟨_, hb, hlt⟩
  exact segmentName_lt (hw.small b hb) hlt

include hw in
theorem WellLaid.name_ne : segs.Pairwise fun a b => a.name ≠ b.name := by
  refine (pairwise_map.1 hw.name_lt).imp ?_
  intro a b h he
  rw [he] at h
  exact String.lt_irrefl _ h

include hs hw in
theorem Stores.find_of_mem (hv : v ∈ segs) : dir.find v.name = some (v.bytes c) := by
  have hne := hw.name_ne
  rw [Dir.find, hs]
  clear hs hw
  induction segs with
  | nil => cases hv
  | cons u us ih =>
    rw [pairwise_cons] at hne
    rcases mem_cons.1 hv with rfl | hv
    · simp
    have : (v.name == u.name) = false := by
      simpa using fun h => hne.1 v hv h.symm
    rw [map_cons, lookup_cons, this]
    exact ih hv hne.2

include hs in
theorem Stores.find_none (hn : ∀ v ∈ segs, v.name ≠ segmentName n) :
    dir.find (segmentName n) = none := by
  rw [Dir.find, hs, lookup_eq_none_iff]
  intro p hp
  obtain ⟨v, hv, rfl⟩ := mem_map.1 hp
  simpa using fun h => hn v hv h.symm

/-- A directory listing, filtered and sorted, of files created in number order. -/
theorem segmentPaths_of_lt {ns : List Nat} (hlt : ns.Pairwise (· < ·)) (hle : ∀ n ∈ ns, n ≤ u64Max)
    (hfiles : dir.files.map Prod.fst = ns.map segmentName) :
    segmentPaths dir = ns.map segmentName := by
  have hfilter : (ns.map segmentName).filter isSegmentName = ns.map segmentName := by
    rw [filter_eq_self]
    intro p hp
    obtain ⟨n, _, rfl⟩ := mem_map.1 hp
    exact isSegmentName_segmentName _
  rw [segmentPaths, hfiles, hfilter]
  refine mergeSort_of_pairwise (pairwise_map.2 ((List.Pairwise.and_mem.1 hlt).imp ?_))
  rintro a b ⟨_, hb, h⟩
  exact decide_eq_true (Std.le_of_lt (segmentName_lt (hle b hb) h))

include hs hw in
theorem Stores.segmentPaths : segmentPaths dir = segs.map SegmentImage.name := by
  have hfiles : dir.files.map Prod.fst = (segs.map SegmentImage.number).map segmentName := by
    rw [hs, map_map, map_map]; rfl
  rw [segmentPaths_of_lt (pairwise_map.2 hw.number_lt) ?_ hfiles, map_map]
  · rfl
  · intro n hn
    obtain ⟨v, hv, rfl⟩ := mem_map.1 hn
    exact hw.small v hv

end Files

/-! ## File operations -/

theorem stores_empty : Stores c Dir.empty [] := rfl

variable {dir : Dir} {segs : List (SegmentImage ε)}

theorem Stores.createNew (hs : Stores c dir segs) (hn : ∀ v ∈ segs, v.name ≠ segmentName n) :
    ∃ dir', dir.createNew (segmentName n) = .ok dir' ∧ Stores c dir' (segs ++ [.fresh n]) := by
  refine ⟨⟨dir.files ++ [(segmentName n, [])]⟩, by simp [Dir.createNew, hs.find_none hn], ?_⟩
  show dir.files ++ _ = _
  rw [hs, map_append]
  rfl

theorem Stores.appendTo {w : SegmentImage ε} (hs : Stores c dir (init ++ [v]))
    (hw : WellLaid (init ++ [v])) {b : Bytes} (hname : w.name = v.name)
    (hb : w.bytes c = v.bytes c ++ b) : Stores c (dir.appendTo v.name b) (init ++ [w]) := by
  have hne := pairwise_append.1 hw.name_ne
  simp only [Stores, Dir.appendTo] at hs ⊢
  rw [hs, map_map, map_append, map_append,
    map_congr_left (l := init) (g := fun u => (u.name, u.bytes c))]
  · simp [hname, hb]
  · intro u hu
    simp [hne.2.2 u hu v (by simp)]

theorem Stores.removeFile (hs : Stores c dir (init ++ v :: segs))
    (hw : WellLaid (init ++ v :: segs)) :
    ∃ dir', dir.removeFile allowAll v.name = .ok dir' ∧ Stores c dir' (init ++ segs) := by
  have hfind := hs.find_of_mem hw (v := v) (by simp)
  obtain ⟨-, hsegs, hinit⟩ := pairwise_append.1 hw.name_ne
  refine ⟨⟨dir.files.filter fun f => f.1 ≠ v.name⟩, by simp [Dir.removeFile, allowAll, hfind], ?_⟩
  show List.filter _ dir.files = _
  rw [hs, map_append, map_cons, filter_append, filter_cons_of_neg (by simp), ← filter_append,
    ← map_append, filter_eq_self]
  intro f hf
  obtain ⟨u, hu, rfl⟩ := mem_map.1 hf
  rcases mem_append.1 hu with hu | hu
  · simpa using hinit u hu v mem_cons_self
  · simpa using ((pairwise_cons.1 hsegs).1 u hu).symm

/-! ## Using and changing the representation -/

theorem Represents.number_lt (h : Represents c dir j segs) (hv : v ∈ segs) (hne : v.records ≠ []) :
    v.number < j.nextSeq := by
  obtain ⟨r, hr⟩ := exists_mem_of_ne_nil _ hne
  have h1 := v.number_le r (mem_append_left _ hr)
  have h2 := h.below v hv r hr
  omega

theorem Represents.congr {j' : DurableEventJournal ε} {segs : List (SegmentImage ε)}
    (h : Represents c dir j segs) (hsegs : j'.segments = j.segments)
    (hcache : j'.readCache = j.readCache) (hnext : j'.nextSeq = j.nextSeq) :
    Represents c dir j' segs where
  stores := h.stores
  laid := h.laid
  described := hsegs ▸ h.described
  cached := hcache ▸ h.cached
  uncached := hcache ▸ h.uncached
  next_pos := hnext ▸ h.next_pos
  next_le := hnext ▸ h.next_le
  below := hnext ▸ h.below
  empty_eq := hnext ▸ h.empty_eq

end

end Traverse.Journal

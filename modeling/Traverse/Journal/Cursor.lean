import Traverse.Events.Codec
import Traverse.Journal.Effect

/-!
# Journal.Cursor

What a cursor means over the life of a root, in runs without failures.

* `cursors_increase`: cursors are handed out in increasing order, as long as `open` never finds
  the root emptied. `prune` keeps the active segment only, so a process that has not appended yet
  can delete every file; the next `open` then counts from 1 again (`cursor_handed_out_twice`).
* `expiry_exact_iff`: which replays tell an expired cursor from one that is not, exactly. They do
  unless every file is gone, or the cursor is the largest `u64` (`expiry_missed`).
-/

namespace Traverse.Journal

open Lines Decimal List DurableEventJournal Machine

section

variable {ε : Type} {c : RecordCodec ε} {w w' : Root ε} {segs : List (SegmentImage ε)}
  {j : DurableEventJournal ε}

/-! ## Runs -/

/-- A line is written below the largest number, so the acknowledged calls can be counted. -/
theorem Numbered.acks_lt {a : Call ε} {segs' : List (SegmentImage ε)} (hn : Numbered w segs)
    (hmax : BelowMax w a) (hlt : w.acks.length < u64Max) (he : Effect c w segs a w' segs') :
    w'.acks.length < u64Max := by
  cases he with
  | opened | closed | quiet => exact hlt
  | @line l i _ _ hl running wrote =>
    have hnext := hn.next i running
    have hbelow := hmax l hl i running
    generalize hio : l.io = io at wrote
    cases wrote with
    | refused => exact hlt
    | wrote =>
      rw [length_append, length_singleton]
      omega
    | failed => exact hlt
  | stopped | pruned => exact hlt

variable {calls : List (Call ε)} (hfree : ∀ a ∈ calls, a.FaultFree)
  (hcond : Along (Root.step c) (fun w a => BelowMax w a ∧ Continues w a) .empty calls)
  (hrun : run (Root.step c) .empty calls = some w)

include hfree hcond hrun in
theorem clean_run : ∃ segs, CleanInv c w segs ∧ Numbered w segs ∧ w.acks.length < u64Max := by
  refine invariant
    (fun w => ∃ segs, CleanInv c w segs ∧ Numbered w segs ∧ w.acks.length < u64Max) ?_
    ⟨[], cleanInv_empty, numbered_empty, show 0 < u64Max by decide⟩ (hcond.and_mem hfree) hrun
  rintro s a s' ⟨segs, h, hn, hlt⟩ ⟨⟨hmax, hcont⟩, hf⟩ hs
  obtain ⟨segs', h', he⟩ := h.step hf hmax hs
  refine ⟨segs', h', hn.step he fun config label => ⟨h.pending, fun hnil => ?_⟩,
    hn.acks_lt hmax hlt he⟩
  rcases hcont config label with hacks | hpaths
  · exact hacks
  · exact absurd (h.paths_eq_nil.2 (h.records_eq_nil.1 hnil)) hpaths

/-! ## Cursors increase -/

theorem Numbered.ack_seqs (hk : Keeps c w segs) (hn : Numbered w segs)
    (hmax : w.acks.length < u64Max) : w.acks.map Ack.seq = List.range' 1 w.acks.length := by
  have hle : ∀ r ∈ w.deleted ++ segs.flatMap SegmentImage.records, r.seq ≤ u64Max := by
    intro r hr
    have hmem : r.seq ∈ List.range' 1 w.acks.length := hn.seqs ▸ mem_map_of_mem hr
    rw [mem_range'_1] at hmem
    omega
  have hseqs : (w.deleted ++ segs.flatMap SegmentImage.records).map (Ack.seq ∘ Ack.ofRecord) =
      (w.deleted ++ segs.flatMap SegmentImage.records).map (·.seq) :=
    map_congr_left fun r hr => Ack.seq_ofRecord (hle r hr)
  rw [← hn.seqs, ← hseqs, hk.acked, map_map]

include hfree hcond hrun in
theorem cursors_increase : (w.acks.map Ack.seq).Pairwise (· < ·) := by
  obtain ⟨segs, h, hn, hlt⟩ := clean_run hfree hcond hrun
  rw [hn.ack_seqs h.keeps hlt]
  exact pairwise_lt_range'

/-! ## A root that was emptied -/

section Emptied

variable (e : ε)

/-- A segment is deleted once its last record is more than a second old. -/
def aged : JournalConfig := { JournalConfig.default with retentionMaxAgeSecs := some 1 }

/-- One record was written; a process that has not appended yet then pruned it. -/
def emptied : Root ε where
  dir := .empty
  journal := some ⟨aged, [], none, 2,
    evict (fun _ => .default) [segmentName 1]⟩
  acks := [⟨"1", some e, none⟩]
  deleted := [⟨1, 0, some e, none⟩]

end Emptied

theorem Represents.segments_eq_nil {dir : Dir} (h : Represents c dir j segs) :
    j.segments = [] ↔ segs = [] := by
  have hlen := h.described.length_eq
  rw [← length_eq_zero_iff, hlen, length_eq_zero_iff]

open Events in
def emptying : List (Call TraverseEvent) :=
  [.openRoot aged, .append 0 none (orderCreated "evt-1"), .close, .openRoot aged,
    .prune 2000000000]

open Events in
theorem along_emptied : Along (Root.step eventCodec)
    (fun w a => BelowMax w a ∧ Continues w a) .empty emptying := by
  rw [eventCodec_eq]
  decide +kernel

open Events in
theorem run_emptied : run (Root.step eventCodec) .empty emptying =
    some (emptied (orderCreated "evt-1")) := by
  obtain ⟨w, hrun, hdir, hacks, hdeleted, j, hj, hconfig, hsealed, hactive, hnext⟩ :
      ∃ w, run (Root.step eventCodec) .empty emptying = some w ∧
      w.dir = .empty ∧ w.acks = (emptied (orderCreated "evt-1")).acks ∧
      w.deleted = (emptied (orderCreated "evt-1")).deleted ∧ ∃ j, w.journal = some j ∧
      j.config = aged ∧ j.sealed = [] ∧ j.active = none ∧ j.nextSeq = 2 := by
    rw [eventCodec_eq]
    decide +kernel
  obtain ⟨segs, h, _⟩ := clean_run (by simp [emptying, Call.FaultFree]) along_emptied hrun
  have hlive := h.keeps.live j hj
  have hsegs : segs = [] :=
    hlive.segments_eq_nil.1 (by simp [segments, hsealed, hactive])
  -- no file is left, so no file is cached
  have hcache : j.readCache = evict (fun _ => .default) [segmentName 1] := by
    funext p
    rw [hlive.uncached p (by simp [hsegs])]
    simp [evict]
  obtain ⟨dir, journal, acks, deleted⟩ := w
  obtain ⟨config, sealed, active, nextSeq, readCache⟩ := j
  subst hdir hacks hdeleted hj hconfig hsealed hactive hnext hcache
  exact hrun

open Events in
/-- One process writes, the next one prunes everything and writes. -/
theorem cursors_increase_emptied : ∃ w, run (Root.step eventCodec) .empty
      (emptying ++ [.append 2000000000 none (orderCreated "evt-2")]) = some w ∧
    w.acks.map Ack.cursor = ["1", "2"] ∧ (w.acks.map Ack.seq).Pairwise (· < ·) := by
  refine exists_run (P := fun w a => BelowMax w a ∧ Continues w a)
    (D := fun w => w.acks.map Ack.cursor = ["1", "2"]) (by rw [eventCodec_eq]; decide +kernel) ?_
  intro w hpath hacks
  exact ⟨hacks, cursors_increase (by simp [emptying, Call.FaultFree]) hpath.1 hpath.2⟩

open Events in
/-- With a reopening in between, both events get cursor 1. -/
theorem cursor_handed_out_twice : ∃ w, run (Root.step eventCodec) .empty (emptying ++
      [.close, .openRoot aged, .append 2000000000 none (orderCreated "evt-2")]) = some w ∧
    w.acks.map Ack.cursor = ["1", "1"] ∧ ¬ (w.acks.map Ack.seq).Pairwise (· < ·) := by
  rw [eventCodec_eq]
  decide +kernel

/-! ## Expiry -/

/-- A replay tells an expired cursor from one that is not: it returns `CursorExpired` when a
record after the cursor has been deleted, and a page when none has. -/
structure ExactExpiry (c : RecordCodec ε) (w : Root ε) (j : DurableEventJournal ε)
    (cursor : String) (after : Nat) : Prop where
  expired : (∃ r ∈ w.deleted, after < r.seq) → ∀ n, ∃ oldest,
    (j.replayFrom c w.dir cursor n).1 = .error (.err (.cursorExpired oldest))
  kept : (∀ r ∈ w.deleted, r.seq ≤ after) → ∀ n, ∃ page,
    (j.replayFrom c w.dir cursor n).1 = .ok page

theorem Numbered.deleted_seqs (hn : Numbered w segs) :
    w.deleted.map (·.seq) = List.range' 1 w.deleted.length := by
  have hseqs := hn.seqs
  rw [map_append, eq_comm, List.range'_eq_append_iff] at hseqs
  obtain ⟨k, _, hk, _⟩ := hseqs
  have hlen := congrArg List.length hk
  rw [length_map, length_range'] at hlen
  rw [hk, hlen]

theorem Numbered.deleted_after (hn : Numbered w segs) (after : Nat) :
    (∃ r ∈ w.deleted, after < r.seq) ↔ after < w.deleted.length := by
  have hmem : ∀ n, n ∈ w.deleted.map (·.seq) ↔ 1 ≤ n ∧ n < 1 + w.deleted.length := by
    intro n
    rw [hn.deleted_seqs, mem_range'_1]
  constructor
  · rintro ⟨r, hr, hlt⟩
    have := (hmem r.seq).1 (mem_map_of_mem hr)
    omega
  · intro hlt
    obtain ⟨r, hr, heq⟩ := mem_map.1 ((hmem w.deleted.length).2 (by omega))
    exact ⟨r, hr, by omega⟩

section Outcomes

variable {dir : Dir} {cursor : String} {after : Nat} {v : SegmentImage ε}

theorem Represents.oldest_head (h : Represents c dir j segs) (hv : v ∈ segs.head?) :
    j.oldestRetainedSeq = some v.number := by
  rw [h.oldestRetainedSeq, Option.mem_def.1 hv]
  rfl

theorem Represents.replayFrom_expired (h : Represents c dir j segs)
    (hp : parseU64 cursor = .ok after) (hv : v ∈ segs.head?) (hmax : after < u64Max)
    (hexp : after + 1 < v.number) (n : Nat) :
    (j.replayFrom c dir cursor n).1 = .error (.err (.cursorExpired (v.number - 1).repr)) := by
  have hold := h.oldest_head hv
  have hfits : ¬ u64Max < after + 1 := by omega
  simp only [replayFrom, hp, hold, hfits, hexp, if_false, if_true]

end Outcomes

section Exact

variable {cursor : String} {after : Nat} (h : Keeps c w segs) (hn : Numbered w segs)
  (hj : w.journal = some j) (hp : parseU64 cursor = .ok after)

include h hj hp

theorem Keeps.exactExpiry_emptied (hnil : segs = []) :
    ExactExpiry c w j cursor after ↔ ∀ r ∈ w.deleted, r.seq ≤ after := by
  have hok : ∀ n, ∃ page, (j.replayFrom c w.dir cursor n).1 = .ok page := fun n =>
    ⟨_, (h.live j hj).replayFrom_ok hp (by simp [hnil]) n⟩
  constructor
  · intro hx r hr
    by_contra hgt
    obtain ⟨page, hpage⟩ := hok 0
    obtain ⟨oldest, hexp⟩ := hx.expired ⟨r, hr, by omega⟩ 0
    rw [hpage] at hexp
    cases hexp
  · intro hle
    refine ⟨?_, fun _ => hok⟩
    rintro ⟨r, hr, hlt⟩
    exact absurd (hle r hr) (by omega)

theorem Keeps.not_exactExpiry_max (hne : segs ≠ []) (hmax : u64Max ≤ after) :
    ¬ ExactExpiry c w j cursor after := by
  intro hx
  obtain ⟨v, hv⟩ := Option.ne_none_iff_exists'.1 (mt List.head?_eq_none_iff.1 hne)
  have hover : (j.replayFrom c w.dir cursor 0).1 = .error .overflow := by
    have hlt : u64Max < after + 1 := by omega
    simp only [replayFrom, hp, (h.live j hj).oldest_head hv, hlt, if_true]
  by_cases hgone : ∃ r ∈ w.deleted, after < r.seq
  · obtain ⟨oldest, hexp⟩ := hx.expired hgone 0
    rw [hover] at hexp
    cases hexp
  · obtain ⟨page, hpage⟩ := hx.kept (fun r hr => Nat.not_lt.1 fun hlt => hgone ⟨r, hr, hlt⟩) 0
    rw [hover] at hpage
    cases hpage

include hn in
/-- Every other cursor is judged by the number of the oldest file, which is what it should be. -/
theorem Keeps.exactExpiry (hne : segs ≠ []) (hmax : after < u64Max) :
    ExactExpiry c w j cursor after := by
  obtain ⟨v, hv⟩ := Option.ne_none_iff_exists'.1 (mt List.head?_eq_none_iff.1 hne)
  have hnum := h.head_number hn hj v hv
  have hgone := hn.deleted_after after
  constructor
  · intro hdel n
    have hlt := hgone.1 hdel
    exact ⟨_, (h.live j hj).replayFrom_expired hp hv hmax (by omega) n⟩
  · intro hkept n
    have hle : w.deleted.length ≤ after := by
      by_contra hlt
      obtain ⟨r, hr, hgt⟩ := hgone.2 (by omega)
      exact absurd (hkept r hr) (by omega)
    refine ⟨_, (h.live j hj).replayFrom_ok hp (fun u hu => ?_) n⟩
    rw [h.head_number hn hj u hu]
    omega

end Exact

include hfree hcond hrun in
theorem expiry_exact_iff {cursor : String} {after : Nat} (hj : w.journal = some j)
    (hp : parseU64 cursor = .ok after) :
    ExactExpiry c w j cursor after ↔
      (j.segments ≠ [] ∧ after < u64Max) ∨ (j.segments = [] ∧ ∀ r ∈ w.deleted, r.seq ≤ after) := by
  obtain ⟨segs, h, hn, _⟩ := clean_run hfree hcond hrun
  rw [ne_eq, (h.keeps.live j hj).segments_eq_nil]
  by_cases hnil : segs = []
  · rw [h.keeps.exactExpiry_emptied hj hp hnil]
    simp [hnil]
  · by_cases hmax : after < u64Max
    · simp [hnil, hmax, h.keeps.exactExpiry hn hj hp hnil hmax]
    · simp [hnil, hmax, h.keeps.not_exactExpiry_max hj hp hnil (by omega)]

open Events in
/-- A cursor at the last deleted record has not expired. -/
theorem expiry_exact_emptied :
    ∃ j, (emptied (orderCreated "evt-1")).journal = some j ∧
      run (Root.step eventCodec) .empty emptying = some (emptied (orderCreated "evt-1")) ∧
      ExactExpiry eventCodec (emptied (orderCreated "evt-1")) j "1" 1 := by
  have hone : parseU64 "1" = .ok 1 := parseU64_repr (n := 1) (by decide)
  refine ⟨_, rfl, run_emptied, (expiry_exact_iff (by simp [emptying, Call.FaultFree])
    along_emptied run_emptied rfl hone).2 (.inr ⟨rfl, ?_⟩)⟩
  simp [emptied]

open Events in
/-- A cursor before the deleted record is accepted, and the largest cursor overflows. -/
theorem expiry_missed :
    (∃ w j, run (Root.step eventCodec) .empty emptying = some w ∧ w.journal = some j ∧
      w.deleted.map (·.seq) = [1] ∧
      (j.replayFrom eventCodec w.dir "0" 10).1 = .ok [] ∧ ¬ ExactExpiry eventCodec w j "0" 0) ∧
    ∃ w j, run (Root.step eventCodec) .empty [.openRoot .default,
        .append 0 none (orderCreated "evt-1")] = some w ∧ w.journal = some j ∧
      (j.replayFrom eventCodec w.dir "18446744073709551615" 10).1 = .error .overflow := by
  refine ⟨⟨_, _, run_emptied, rfl, rfl, rfl, fun hx => ?_⟩, ?_⟩
  · obtain ⟨oldest, hexp⟩ := hx.expired ⟨_, mem_singleton.2 rfl, Nat.zero_lt_one⟩ 10
    cases hexp
  · simp only [exists_and_left, eventCodec_eq]
    decide +kernel

end

end Traverse.Journal

import Traverse.Journal.Layout

/-!
# Journal.Sink

The journal as its broker uses it: one open journal, records appended by a single writer, replays
in between, nothing pruned. A write may fail, but only before its first byte (`Harmless`).

`Logged c w` hides the files. What it offers is a log: an append that succeeds adds one entry and
returns its position (`Logged.append`, `Logged.appendRevocation`), one that fails adds nothing,
and a replay shows `owed` of the log (`Logged.replay`).
-/

namespace Traverse.Journal

open Lines Decimal List

section

variable {ε : Type}

def Harmless (io : Option WriteFault) : Prop := ∀ fault ∈ io, fault.written = 0

structure LogInv (c : RecordCodec ε) (w : Root ε) (segs : List (SegmentImage ε)) : Prop where
  keeps : Keeps c w segs
  tidy : ∀ v ∈ segs, v.Tidy
  numbered : Numbered w segs
  deleted : w.deleted = []
  back : ∀ r ∈ segs.flatMap SegmentImage.records, ∀ s ∈ r.revokes, s ≤ r.seq

def Logged (c : RecordCodec ε) (w : Root ε) : Prop := ∃ segs, LogInv c w segs

variable {c : RecordCodec ε} {w w' : Root ε} {segs : List (SegmentImage ε)}
  {j : DurableEventJournal ε}

/-! ## Positions -/

namespace Logged

variable (h : Logged c w)

include h

theorem cursors : w.acks.map Ack.cursor = (List.range' 1 w.acks.length).map Nat.repr := by
  obtain ⟨segs, h⟩ := h
  exact ack_cursors h.keeps h.numbered

theorem nextSeq (hj : w.journal = some j) : j.nextSeq = w.acks.length + 1 := by
  obtain ⟨segs, h⟩ := h
  exact h.numbered.next j hj

theorem length_lt : w.acks.length < u64Max := by
  obtain ⟨segs, h⟩ := h
  by_cases hnil : w.acks.length = 0
  · rw [hnil]
    decide
  have hmem : w.acks.length ∈ (segs.flatMap SegmentImage.records).map (·.seq) := by
    have := h.numbered.seqs
    rw [h.deleted, nil_append] at this
    rw [this, mem_range'_1]
    omega
  obtain ⟨r, hr, hseq⟩ := mem_map.1 hmem
  obtain ⟨v, hv, hr⟩ := mem_flatMap.1 hr
  rw [← hseq]
  exact h.keeps.small v hv r (mem_append_left _ hr)

variable {i : Nat} {a : Ack ε}

/-- The entry at position `i` has cursor `i + 1`. -/
theorem cursor_getElem (ha : w.acks[i]? = some a) : a.cursor = (i + 1).repr := by
  have hi : i < w.acks.length := (List.getElem?_eq_some_iff.1 ha).1
  have hmap : (w.acks.map Ack.cursor)[i]? = some a.cursor := by rw [List.getElem?_map, ha]; rfl
  rw [h.cursors, List.getElem?_map, List.getElem?_range' hi, Option.map_some,
    Option.some.injEq] at hmap
  rw [← hmap]
  congr 1
  omega

theorem seq_getElem (ha : w.acks[i]? = some a) : a.seq = i + 1 := by
  have hlt := h.length_lt
  have hi : i < w.acks.length := (List.getElem?_eq_some_iff.1 ha).1
  rw [Ack.seq, h.cursor_getElem ha, parseU64_repr (by omega)]
  rfl

theorem cursor_of_mem (ha : a ∈ w.acks) :
    a.cursor = a.seq.repr ∧ 1 ≤ a.seq ∧ a.seq ≤ w.acks.length := by
  obtain ⟨i, hi, he⟩ := getElem_of_mem ha
  have hget : w.acks[i]? = some a := by rw [List.getElem?_eq_getElem hi, he]
  rw [h.seq_getElem hget, h.cursor_getElem hget]
  exact ⟨rfl, by omega, by omega⟩

theorem eq_of_cursor {b : Ack ε} (ha : a ∈ w.acks) (hb : b ∈ w.acks)
    (hab : a.cursor = b.cursor) : a = b := by
  obtain ⟨i, hi, rfl⟩ := getElem_of_mem ha
  obtain ⟨k, hk, rfl⟩ := getElem_of_mem hb
  have h1 := h.cursor_getElem (List.getElem?_eq_getElem hi)
  have h2 := h.cursor_getElem (List.getElem?_eq_getElem hk)
  have : i = k := by
    have := repr_injective (h1.symm.trans (hab.trans h2))
    omega
  subst this
  rfl

theorem stored : w.acks = (storedRecords c w.dir).map Ack.ofRecord := by
  obtain ⟨segs, h⟩ := h
  rw [h.keeps.stores.storedRecords h.keeps.laid, flatMap_onDisk_of_tidy h.tidy, h.keeps.acked,
    h.deleted, nil_append]

theorem stored_seq_le {r : JournalRecordV1 ε} (hr : r ∈ storedRecords c w.dir) :
    r.seq ≤ w.acks.length := by
  obtain ⟨segs, h⟩ := h
  rw [h.keeps.stores.storedRecords h.keeps.laid, flatMap_onDisk_of_tidy h.tidy] at hr
  have hseqs := h.numbered.seqs
  rw [h.deleted, nil_append] at hseqs
  have hmem : r.seq ∈ List.range' 1 w.acks.length := hseqs ▸ mem_map_of_mem hr
  rw [mem_range'_1] at hmem
  omega

theorem revoked_eq : revoked w.acks = (storedRecords c w.dir).filterMap (·.revokes) := by
  rw [h.stored, revoked, filterMap_map]
  rfl

theorem revoked_le : ∀ n ∈ revoked w.acks, n ≤ w.acks.length := by
  intro n hn
  rw [h.revoked_eq] at hn
  obtain ⟨r, hr, hrev⟩ := mem_filterMap.1 hn
  have hle := h.stored_seq_le hr
  obtain ⟨segs, h⟩ := h
  rw [h.keeps.stores.storedRecords h.keeps.laid, flatMap_onDisk_of_tidy h.tidy] at hr
  exact Nat.le_trans (h.back r hr n hrev) hle

end Logged

/-! ## Writing -/

theorem appendLine_result (hmax : j.nextSeq < u64Max) (dir : Dir) (now : Int)
    (io : Option WriteFault) (event : Option ε) (revokes : Option Nat) :
    (∃ e, (j.appendLine c dir now io event revokes).1 = .error (.err e)) ∨
      (j.appendLine c dir now io event revokes).1 = .ok j.nextSeq.repr := by
  have hroll : ∀ secs, (j.rollover secs).nextSeq = j.nextSeq := by
    intro secs
    unfold DurableEventJournal.rollover
    split <;> rfl
  unfold DurableEventJournal.appendLine
  cases nowSecs now with
  | error e => exact .inl ⟨e, rfl⟩
  | ok secs =>
    simp only []
    cases (j.rollover secs).activeSegment dir secs with
    | error e => exact .inl ⟨e, rfl⟩
    | ok p =>
      cases io with
      | some fault => exact .inl ⟨_, rfl⟩
      | none =>
        have hle : ¬ u64Max < j.nextSeq + 1 := by omega
        simp only [appendRecord, writeDurable, hroll, if_neg hle]
        exact .inr trivial

/-- What an append or a revocation did to the log. -/
inductive Entered (w : Root ε) (event : Option ε) (revokes : Option Nat) :
    Except Fault String → Root ε → Prop where
  | failed {e : JournalError} {w' : Root ε} (acks : w'.acks = w.acks) :
      Entered w event revokes (.error (.err e)) w'
  | entered {w' : Root ε}
      (acks : w'.acks = w.acks ++ [⟨(w.acks.length + 1).repr, event, revokes⟩]) :
      Entered w event revokes (.ok (w.acks.length + 1).repr) w'

variable {result : Except Fault String × DurableEventJournal ε × Dir} {cursor : String} {now : Int}
  {revokes : Option Nat} {n : Nat}

section

variable (event : Option ε) (revokes : Option Nat)

theorem Root.returned_acks_error {f : Fault} (h : result.1 = .error f) :
    (w.returned event revokes result).acks = w.acks := by
  obtain ⟨r, i, dir⟩ := result
  cases h
  rfl

theorem Root.returned_acks_ok (h : result.1 = .ok cursor) :
    (w.returned event revokes result).acks = w.acks ++ [⟨cursor, event, revokes⟩] := by
  obtain ⟨r, i, dir⟩ := result
  cases h
  rfl

theorem Root.returned_journal (result : Except Fault String × DurableEventJournal ε × Dir) :
    (w.returned event revokes result).journal = some result.2.1 := by
  obtain ⟨r, i, dir⟩ := result
  cases r <;> rfl

end

theorem LogInv.wrote {io : Option WriteFault} {event : Option ε} {segs' : List (SegmentImage ε)}
    (h : LogInv c w segs) (hj : w.journal = some j) (hio : Harmless io)
    (hback : ∀ s ∈ revokes, s ≤ j.nextSeq) (hk : Keeps c w' segs')
    (hw : Wrote c w j segs now event revokes io w' segs') : LogInv c w' segs' := by
  refine ⟨hk, ?_, h.numbered.wrote hj hw, hw.deleted.trans h.deleted, ?_⟩
  · cases hw with
    | refused => exact h.tidy
    | wrote next clean => exact fun v hv => (clean v hv).2
    | @failed fault _ _ _ _ clock next records tidy => exact tidy (hio fault rfl)
  · cases hw with
    | refused => exact h.back
    | wrote next clean records =>
      rw [records]
      intro r hr s hs
      rcases mem_append.1 hr with hr | hr
      · exact h.back r hr s hs
      · rw [mem_singleton] at hr
        subst hr
        exact hback s hs
    | failed clock next records =>
      rw [records]
      exact h.back

theorem LogInv.replayed (h : LogInv c w segs) (hj : w.journal = some j) (cursor : String)
    (n : Nat) :
    LogInv c { w with journal := some (j.replayFrom c w.dir cursor n).2 } segs := by
  obtain ⟨cache, hc, hr⟩ := (h.keeps.live j hj).replayFrom_cache cursor n
  rw [hc]
  refine ⟨h.keeps.refused hr, h.tidy, ⟨h.numbered.seqs, fun i hi => ?_⟩, h.deleted, h.back⟩
  cases hi
  exact h.numbered.next j hj

namespace Logged

variable {io : Option WriteFault}

variable (h : Logged c w) (hj : w.journal = some j)

include h hj

section

variable (hlen : w.acks.length + 1 < u64Max) (now : Int) (hio : Harmless io)

include hlen hio

theorem appendLine (event : Option ε) (hback : ∀ s ∈ revokes, s ≤ w.acks.length + 1) :
    Logged c (w.returned event revokes (j.appendLine c w.dir now io event revokes)) ∧
      Entered w event revokes (j.appendLine c w.dir now io event revokes).1
        (w.returned event revokes (j.appendLine c w.dir now io event revokes)) := by
  have hnext := h.nextSeq hj
  have hmax : j.nextSeq < u64Max := by omega
  obtain ⟨segs, h⟩ := h
  constructor
  · obtain ⟨segs', hk, hw⟩ := h.keeps.appendLine hj h.tidy hmax now io event revokes
    exact ⟨segs', h.wrote hj hio (fun s hs => hnext ▸ hback s hs) hk hw⟩
  · rcases appendLine_result (c := c) hmax w.dir now io event revokes with ⟨e, he⟩ | hok
    · have hacks := w.returned_acks_error event revokes he
      rw [he]
      exact .failed hacks
    · rw [hnext] at hok
      have hacks := w.returned_acks_ok event revokes hok
      rw [hok]
      exact .entered hacks

theorem append (event : ε) :
    Logged c (w.returned (some event) none (j.append c w.dir now io event)) ∧
      Entered w (some event) none (j.append c w.dir now io event).1
        (w.returned (some event) none (j.append c w.dir now io event)) :=
  h.appendLine hj hlen now hio (some event) (by simp)

theorem appendRevocation (hn : n ≤ w.acks.length) :
    Logged c (w.returned none (some n) (j.appendRevocation c w.dir now io n.repr)) ∧
      Entered w none (some n) (j.appendRevocation c w.dir now io n.repr).1
        (w.returned none (some n) (j.appendRevocation c w.dir now io n.repr)) := by
  have hline : j.appendRevocation c w.dir now io n.repr =
      j.appendLine c w.dir now io none (some n) := by
    rw [DurableEventJournal.appendRevocation, parseU64_repr (by omega)]
  rw [hline]
  refine h.appendLine hj hlen now hio none fun s hs => ?_
  cases hs
  omega

end

/-! ## Reading -/

theorem replay {after : Nat}
    (hp : parseU64 cursor = .ok after) (hafter : after < u64Max) (n : Nat) :
    (j.replayFrom c w.dir cursor n).1 = .ok (owed after n w.acks) := by
  obtain ⟨segs, h⟩ := h
  rw [(h.keeps.live j hj).replayFrom_ok hp (fun v hv => ⟨?_, hafter⟩) n,
    visible_selected after n h.tidy h.back, h.keeps.visible_records h.deleted]
  rw [h.keeps.head_number h.numbered hj v hv, h.deleted]
  exact Nat.succ_le_succ (Nat.zero_le after)

end Logged

theorem mem_owed {after : Nat} {acks : List (Ack ε)} {event : ε}
    (h : (cursor, event) ∈ owed after n acks) :
    ∃ a ∈ acks, a.cursor = cursor ∧ a.event = some event ∧ after < a.seq ∧
      a.seq ∉ revoked acks := by
  obtain ⟨a, ha, he⟩ := mem_filterMap.1 (mem_of_mem_take h)
  obtain ⟨hmem, hcond⟩ := mem_filter.1 ha
  simp only [Bool.and_eq_true, decide_eq_true_eq] at hcond
  obtain ⟨e, hevent, hpair⟩ := Option.map_eq_some_iff.1 he
  cases hpair
  exact ⟨a, hmem, rfl, hevent, hcond.2.1, hcond.2.2⟩

theorem Logged.replay_mem (h : Logged c w) (hj : w.journal = some j) {batch : List (String × ε)}
    (hr : (j.replayFrom c w.dir cursor n).1 = .ok batch) {p : String × ε} (hp : p ∈ batch) :
    ∃ a ∈ w.acks, a.cursor = p.1 ∧ a.event = some p.2 ∧ a.seq ∉ revoked w.acks := by
  cases hparse : parseU64 cursor with
  | error e => simp [DurableEventJournal.replayFrom, hparse] at hr
  | ok after =>
    by_cases hlt : after < u64Max
    · rw [h.replay hj hparse hlt n, Except.ok.injEq] at hr
      subst hr
      obtain ⟨a, ha, hc, he, _, hn⟩ := mem_owed hp
      exact ⟨a, ha, hc, he, hn⟩
    · -- past the last number: the addition overflows unless there is no file at all
      obtain ⟨segs, h⟩ := h
      have hrep := h.keeps.live j hj
      cases segs with
      | nil =>
        rw [hrep.replayFrom_ok hparse (by simp) n, Except.ok.injEq] at hr
        subst hr
        simp [selected, visible, visibleAll] at hp
      | cons v rest =>
        have hover : u64Max < after + 1 := by omega
        simp [DurableEventJournal.replayFrom, hparse, hrep.oldestRetainedSeq, hover] at hr

/-! ## Writing without failures -/

/-- No file is empty, so that a new one can always be created. -/
def Flawless (c : RecordCodec ε) (w : Root ε) : Prop :=
  ∃ segs, LogInv c w segs ∧ ∀ v ∈ segs, v.Clean

theorem Flawless.logged (h : Flawless c w) : Logged c w := by
  obtain ⟨segs, h, _⟩ := h
  exact ⟨segs, h⟩

theorem LayoutInv.flawless (h : LayoutInv c w segs) : Flawless c w :=
  ⟨segs, ⟨h.quiet.clean.keeps, h.quiet.clean.tidy, h.quiet.numbered, h.quiet.deleted, h.back⟩,
    h.quiet.clean.clean⟩

theorem LayoutRun.flawless_open {calls : List (Call ε)} (h : LayoutRun c calls w)
    {config : JournalConfig} (hs : w.step c (.openRoot config) = some w') : Flawless c w' := by
  obtain ⟨segs, hi⟩ := h.inv
  obtain ⟨segs', h'⟩ := hi.step (a := .openRoot config) ⟨trivial, trivial⟩
    (fun _ hl => by cases hl) (fun _ hl => (by cases hl)) hs
  exact h'.flawless

end

end Traverse.Journal

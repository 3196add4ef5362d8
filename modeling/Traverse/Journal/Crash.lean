import Traverse.Events.Codec
import Traverse.Journal.Effect

/-!
# Journal.Crash

Stopping the process at any moment and reopening the journal. `Recovers c w` is what should hold
in every state: the files can be opened, and a replay from the start, on the running journal or on
the reopened one, returns the acknowledged and unrevoked events.

`crash_recovery` proves it for every run in which no line is written while a file ends in an
unterminated one. Without that condition it fails: `open` keeps a torn line behind complete
records, the next record opens a new file, and the torn one is no longer the newest.
-/

namespace Traverse.Journal

open Lines Decimal List Machine

section

variable {ε : Type}

/-- The calls of a run with stops: no write fails and nothing is pruned. -/
def Call.Crashing : Call ε → Prop
  | .append _ io _ => io = none
  | .revoke _ io _ => io = none
  | .prune _ => False
  | _ => True

/-- No file ends in an unterminated line. -/
def NoTornLine (dir : Dir) : Prop := ∀ f ∈ dir.files, f.2 = [] ∨ endsWithNewline f.2 = true
  deriving Decidable

/-- A line is written behind whole lines only, and a stop does not leave it whole. -/
def WritesBehindWholeLines (c : RecordCodec ε) (w : Root ε) (a : Call ε) : Prop :=
  ∀ l, a.line = some l → NoTornLine w.dir ∧ ∀ j, w.journal = some j → j.nextSeq < u64Max ∧
    ∀ secs, nowSecs l.now = .ok secs → ∀ fault, l.io = some fault →
      fault.written ≤ (c.toVec ⟨j.nextSeq, secs, l.event, l.revokes⟩).length
  deriving Decidable

structure Recovers (c : RecordCodec ε) (w : Root ε) : Prop where
  reopen : ∀ config, validateConfig config = .ok () →
    ∃ j dir, openJournal c config w.dir = (.ok j, dir) ∧
      ∀ n, (j.replayFrom c dir "0" n).1 = .ok (owed 0 n w.acks)
  running : ∀ j, w.journal = some j → ∀ n, (j.replayFrom c w.dir "0" n).1 = .ok (owed 0 n w.acks)
  append : ∀ j, w.journal = some j → ∀ now io event path line message,
    (j.append c w.dir now io event).1 ≠ .error (.err (.corrupt path line message))

variable {c : RecordCodec ε} {w w' : Root ε} {segs : List (SegmentImage ε)}
  {j : DurableEventJournal ε}

theorem Keeps.tidy_of_noTornLine (h : Keeps c w segs) (hp : ∀ v ∈ segs, v.pending = none)
    (hw : NoTornLine w.dir) : ∀ v ∈ segs, v.Tidy := by
  intro v hv
  refine ⟨hp v hv, ?_⟩
  by_contra htail
  have hmem : (v.name, v.bytes c) ∈ w.dir.files := by
    rw [h.stores]
    exact mem_map.2 ⟨v, hv, rfl⟩
  have hend : endsWithNewline (v.bytes c) = false := endsWithNewline_of_tail v.no_newline htail
  rcases hw _ hmem with hnil | hnl
  · simp [SegmentImage.bytes, segmentBytes, htail] at hnil
  · rw [hend] at hnl
    cases hnl

theorem Keeps.replay_owed (h : Keeps c w segs) (hn : Numbered w segs) (hdel : w.deleted = [])
    (hp : ∀ v ∈ segs, v.pending = none) (hj : w.journal = some j) (n : Nat) :
    (j.replayFrom c w.dir "0" n).1 = .ok (owed 0 n w.acks) := by
  rw [h.replay_start hn hdel hj n, flatMap_onDisk_of_pending hp, h.visible_records hdel]

theorem activeSegment_not_corrupt {dir : Dir} {secs : Nat} {e : JournalError}
    (h : j.activeSegment dir secs = .error e) : ∃ message, e = .io message := by
  unfold DurableEventJournal.activeSegment at h
  cases hactive : j.active with
  | some seg => simp [hactive] at h
  | none =>
    simp only [hactive, DurableEventJournal.openSegment] at h
    cases hcreate : dir.createNew (segmentName j.nextSeq) with
    | ok dir' => simp [hcreate] at h
    | error message =>
      simp only [hcreate, Except.error.injEq] at h
      exact ⟨_, h.symm⟩

theorem append_not_corrupt (j : DurableEventJournal ε) (dir : Dir) (now : Int)
    (io : Option WriteFault) (event : ε) (path : String) (line : Nat) (message : String) :
    (j.append c dir now io event).1 ≠ .error (.err (.corrupt path line message)) := by
  unfold DurableEventJournal.append DurableEventJournal.appendLine
  cases hnow : nowSecs now with
  | error e =>
    unfold nowSecs at hnow
    split at hnow
    · cases hnow; simp
    · cases hnow
  | ok secs =>
    cases hopen : (j.rollover secs).activeSegment dir secs with
    | error e =>
      obtain ⟨m, rfl⟩ := activeSegment_not_corrupt hopen
      simp only [hopen]
      simp
    | ok p =>
      cases io with
      | none =>
        simp only [hopen, appendRecord, writeDurable]
        split <;> simp
      | some fault =>
        simp only [hopen, appendRecord, writeDurable]
        simp [ioErr]

/-- What every state of a run with stops keeps. -/
structure CrashInv (c : RecordCodec ε) (w : Root ε) (segs : List (SegmentImage ε)) : Prop where
  keeps : Keeps c w segs
  numbered : Numbered w segs
  deleted : w.deleted = []
  pending : ∀ v ∈ segs, v.pending = none

theorem crashInv_empty : CrashInv c Root.empty [] :=
  ⟨keeps_empty, numbered_empty, rfl, by simp⟩

theorem Wrote.pending_none {l : Line ε} {segs' : List (SegmentImage ε)}
    (h : Wrote c w j segs l.now l.event l.revokes l.io w' segs') (hp : ∀ v ∈ segs, v.pending = none)
    (hcut : ∀ secs, nowSecs l.now = .ok secs → ∀ fault, l.io = some fault →
      fault.written ≤ (c.toVec ⟨j.nextSeq, secs, l.event, l.revokes⟩).length) :
    w'.deleted = w.deleted ∧ ∀ v ∈ segs', v.pending = none := by
  generalize hio : l.io = io at h
  cases h with
  | refused => exact ⟨rfl, hp⟩
  | wrote next clean => exact ⟨rfl, fun v hv => (clean v hv).2.1⟩
  | failed clock next records tidy longer torn => exact ⟨rfl, torn (hcut _ clock _ hio)⟩

theorem CrashInv.step {a : Call ε} (h : CrashInv c w segs) (ha : a.Crashing)
    (hc : WritesBehindWholeLines c w a) (hs : w.step c a = some w') :
    ∃ segs', CrashInv c w' segs' := by
  have hempty : segs.flatMap SegmentImage.records = [] → w.acks = [] := by
    intro hnil
    rw [h.keeps.acked, h.deleted, hnil]
    rfl
  obtain ⟨segs', hk, he⟩ := h.keeps.step hs
    (fun l hl =>
      ⟨h.keeps.tidy_of_noTornLine h.pending (hc l hl).1, fun j hj => ((hc l hl).2 j hj).1⟩)
    (fun _ _ => h.pending) (fun now hl => by rw [hl] at ha; cases ha)
  have hn := h.numbered.step he fun config _ => ⟨h.pending, hempty⟩
  suffices hrest : w'.deleted = [] ∧ ∀ v ∈ segs', v.pending = none from
    ⟨segs', hk, hn, hrest.1, hrest.2⟩
  cases he with
  | opened label next =>
    refine ⟨h.deleted, fun v hv => ?_⟩
    obtain ⟨u, _, _, rfl⟩ := mem_recovered hv
    rfl
  | closed | quiet => exact ⟨h.deleted, h.pending⟩
  | line hl running wrote =>
    obtain ⟨hd, hp⟩ := wrote.pending_none h.pending ((hc _ hl).2 _ running).2
    exact ⟨hd.trans h.deleted, hp⟩
  | stopped ends hl running io wrote =>
    exact ⟨h.deleted, (wrote.pending_none h.pending ((hc _ hl).2 _ running).2).2⟩
  | pruned label =>
    rw [label] at ha
    cases ha

theorem CrashInv.recovers (h : CrashInv c w segs) : Recovers c w where
  reopen := by
    intro config hconfig
    obtain ⟨j, dir, ho, hk, hnext, _⟩ := h.keeps.openRoot h.pending hconfig
    have hempty : segs.flatMap SegmentImage.records = [] → w.acks = [] := by
      intro hnil
      rw [h.keeps.acked, h.deleted, hnil]
      rfl
    have hn : Numbered { w with dir := dir, journal := some j } (recovered segs) :=
      h.numbered.step (c := c) (a := .openRoot config) (.opened rfl hnext)
        fun _ _ => ⟨h.pending, hempty⟩
    refine ⟨j, dir, ho, fun n => hk.replay_owed hn h.deleted (fun v hv => ?_) rfl n⟩
    obtain ⟨u, _, _, rfl⟩ := mem_recovered hv
    rfl
  running := fun _ hj n => h.keeps.replay_owed h.numbered h.deleted h.pending hj n
  append := fun j _ now io event path line message =>
    append_not_corrupt j w.dir now io event path line message

theorem crash_recovery {calls : List (Call ε)} {w : Root ε} (hcalls : ∀ a ∈ calls, a.Crashing)
    (hwhole : Along (Root.step c) (WritesBehindWholeLines c) Root.empty calls)
    (hrun : run (Root.step c) Root.empty calls = some w) : Recovers c w := by
  have hinv : ∃ segs, CrashInv c w segs := by
    refine invariant (fun w => ∃ segs, CrashInv c w segs) ?_ ⟨[], crashInv_empty⟩
      (hwhole.and_mem hcalls) hrun
    rintro s a s' ⟨segs, h⟩ ⟨hc, ha⟩ hs
    exact h.step ha hc hs
  obtain ⟨segs, h⟩ := hinv
  exact h.recovers

/-! ## The torn line that stays -/

open Events in
/-- An append torn after its first byte: the reopened journal still shows the one before it. -/
theorem crash_recovery_torn : ∃ w,
    run (Root.step eventCodec) .empty [.openRoot .default,
      .append 0 none (orderCreated "evt-1"), .stopAppend 0 1 (orderCreated "evt-2"),
      .openRoot .default] = some w ∧ Recovers eventCodec w := by
  refine exists_run (P := WritesBehindWholeLines eventCodec) (D := fun _ => True)
    (by rw [eventCodec_eq]; decide +kernel) fun w hpath _ => ?_
  exact crash_recovery (by simp [Call.Crashing]) hpath.1 hpath.2

open Events in
/-- One more append, and no configuration opens the journal again. -/
theorem torn_line_defeats_recovery :
    ¬ ∀ (calls : List (Call TraverseEvent)) (w : Root TraverseEvent), (∀ a ∈ calls, a.Crashing) →
      run (Root.step eventCodec) .empty calls = some w → Recovers eventCodec w := by
  intro h
  have hrun : ∃ w, run (Root.step eventCodec) .empty [.openRoot .default,
      .append 0 none (orderCreated "evt-1"), .stopAppend 0 1 (orderCreated "evt-2"),
      .openRoot .default, .append 0 none (orderCreated "evt-3")] = some w ∧
      w.dir.files.map Prod.fst = [1, 2].map segmentName ∧
      (readSegmentRecords eventCodec w.dir (segmentName 1) false).isOk = false := by
    rw [eventCodec_eq]
    decide +kernel
  obtain ⟨w, hrun, hfiles, hcorrupt⟩ := hrun
  have hpaths := segmentPaths_of_lt (by decide) (by decide) hfiles
  obtain ⟨j, dir, hopen, _⟩ := (h _ w (by simp [Call.Crashing]) hrun).reopen .default rfl
  cases hread : readSegmentRecords eventCodec w.dir (segmentName 1) false with
  | ok records => simp [hread, Except.isOk, Except.toBool] at hcorrupt
  | error e =>
    rw [openJournal, hpaths] at hopen
    simp [validateConfig, JournalConfig.default, recoverSegments, hread] at hopen

end

end Traverse.Journal

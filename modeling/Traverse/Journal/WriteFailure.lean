import Traverse.Events.Codec
import Traverse.Journal.Effect

/-!
# Journal.WriteFailure

Appends and revocations that fail inside one process. `Undamaged c w` is what should hold after
any of them: the acknowledged events are still replayed under their cursors, the stored sequence
numbers increase, and the journal can be reopened.

`failed_append_undamaged` proves it when every call starts on files that are as long as the
journal believes them to be (`Settled`): no bytes of an earlier failed append are left. A failed
append leaves its bytes and does not advance the sequence number, so without that condition the
next one may write the same number again, or on the same line.
-/

namespace Traverse.Journal

open Lines Decimal List Machine

section

variable {ε : Type}

def Call.InProcess : Call ε → Prop
  | .append .. | .revoke .. | .replay .. => True
  | _ => False

/-- Every file is as long as the journal's own account of it. -/
def Settled (dir : Dir) (j : DurableEventJournal ε) : Prop :=
  ∀ seg ∈ j.segments, (dir.find seg.path).map List.length = some seg.bytes
  deriving Decidable

/-- A line is written on settled files only, and a failed revocation does not leave it whole. -/
def WritesOnSettled (c : RecordCodec ε) (w : Root ε) (a : Call ε) : Prop :=
  ∀ l, a.line = some l → ∀ j, w.journal = some j → Settled w.dir j ∧ j.nextSeq < u64Max ∧
    (l.revokes ≠ none → ∀ secs, nowSecs l.now = .ok secs → ∀ fault, l.io = some fault →
      fault.written ≤ (c.toVec ⟨j.nextSeq, secs, l.event, l.revokes⟩).length)
  deriving Decidable

structure Undamaged (c : RecordCodec ε) (w : Root ε) : Prop where
  replay : ∀ j, w.journal = some j → ∃ all : List (String × ε),
    (∀ n, (j.replayFrom c w.dir "0" n).1 = .ok (all.take n)) ∧
    ∀ p ∈ owed 0 w.acks.length w.acks, p ∈ all
  stored : ((storedRecords c w.dir).map (·.seq)).Pairwise (· < ·)
  reopen : ∀ config, validateConfig config = .ok () →
    ∃ j dir, openJournal c config w.dir = (.ok j, dir) ∧ ∃ all : List (String × ε),
      (∀ n, (j.replayFrom c dir "0" n).1 = .ok (all.take n)) ∧
      ∀ p ∈ owed 0 w.acks.length w.acks, p ∈ all

variable {c : RecordCodec ε} {w w' : Root ε} {segs : List (SegmentImage ε)}
  {j : DurableEventJournal ε}

/-- What every state of such a process keeps. -/
structure FailureInv (c : RecordCodec ε) (w : Root ε) (segs : List (SegmentImage ε)) : Prop where
  keeps : Keeps c w segs
  numbered : Numbered w segs
  deleted : w.deleted = []
  running : ∃ j, w.journal = some j
  tidy : (∀ j, w.journal = some j → Settled w.dir j) → ∀ v ∈ segs, v.Tidy
  pending : ∀ v ∈ segs, ∀ r ∈ v.pending, r.revokes = none

variable {a : Call ε}

theorem Call.InProcess.ends (ha : a.InProcess) : a.ends = false := by
  cases a <;> first | rfl | cases ha

theorem Wrote.failureInv {l : Line ε} {segs' : List (SegmentImage ε)}
    (h : Wrote c w j segs l.now l.event l.revokes l.io w' segs') (ht : ∀ v ∈ segs, v.Tidy)
    (hcut : l.revokes ≠ none → ∀ secs, nowSecs l.now = .ok secs → ∀ fault, l.io = some fault →
      fault.written ≤ (c.toVec ⟨j.nextSeq, secs, l.event, l.revokes⟩).length) :
    w'.deleted = w.deleted ∧ (∃ i, w'.journal = some i) ∧
      ((∀ i, w'.journal = some i → Settled w'.dir i) → ∀ v ∈ segs', v.Tidy) ∧
      ∀ v ∈ segs', ∀ r ∈ v.pending, r.revokes = none := by
  generalize hio : l.io = io at h
  cases h with
  | refused =>
    refine ⟨rfl, ⟨_, rfl⟩, fun _ => ht, fun v hv r hr => ?_⟩
    rw [(ht v hv).1] at hr
    cases hr
  | wrote next clean =>
    refine ⟨rfl, ⟨_, rfl⟩, fun _ v hv => (clean v hv).2, fun v hv r hr => ?_⟩
    rw [(clean v hv).2.1] at hr
    cases hr
  | @failed fault secs j' dir _ clock next records tidy longer torn pending =>
    refine ⟨rfl, ⟨_, rfl⟩, fun hset => ?_, fun v hv r hr => ?_⟩
    · by_cases hk : fault.written = 0
      · exact tidy hk
      · -- the file is longer than its entry says
        obtain ⟨seg, hseg, b, hfind, hlt⟩ := longer hk
        have hsame := hset j' rfl seg hseg
        rw [hfind, Option.map_some, Option.some.injEq] at hsame
        omega
    · by_cases hrev : l.revokes = none
      · rw [pending v hv r hr]
        exact hrev
      · rw [torn (hcut hrev secs clock fault hio) v hv] at hr
        cases hr

theorem FailureInv.step (h : FailureInv c w segs) (ha : a.InProcess) (hc : WritesOnSettled c w a)
    (hs : w.step c a = some w') : ∃ segs', FailureInv c w' segs' := by
  have hopen : ∀ config, a ≠ .openRoot config := by
    rintro config rfl
    cases ha
  have hprune : ∀ now, a ≠ .prune now := by
    rintro now rfl
    cases ha
  have htidy : ∀ l, a.line = some l → ∀ v ∈ segs, v.Tidy := fun l hl =>
    h.tidy fun i hi => (hc l hl i hi).1
  obtain ⟨segs', hk, he⟩ := h.keeps.step hs
    (fun l hl => ⟨htidy l hl, fun i hi => (hc l hl i hi).2.1⟩)
    (fun config hl => absurd hl (hopen config)) (fun now hl => absurd hl (hprune now))
  have hn := h.numbered.step he fun config hl => absurd hl (hopen config)
  cases he with
  | opened label => exact absurd label (hopen _)
  | closed ends => rw [ha.ends] at ends; cases ends
  | @quiet i i' running next segments =>
    refine ⟨segs, hk, hn, h.deleted, ⟨_, rfl⟩, fun hset => h.tidy fun x hx => ?_, h.pending⟩
    rw [running] at hx
    cases hx
    have := hset i' rfl
    rwa [Settled, segments] at this
  | @line l i _ _ hl running wrote =>
    obtain ⟨hdel, hrun, ht, hp⟩ := wrote.failureInv (htidy l hl) (hc l hl i running).2.2
    exact ⟨segs', hk, hn, hdel.trans h.deleted, hrun, ht, hp⟩
  | stopped ends => rw [ha.ends] at ends; cases ends
  | pruned label => exact absurd label (hprune _)

/-! ## From the invariant to the property -/

theorem head_recovered (hw : WellLaid segs) :
    ∀ v ∈ (recovered segs).head?, ∃ u ∈ segs.head?, v.number = u.number := by
  intro v hv
  cases segs with
  | nil => cases hv
  | cons u rest =>
    refine ⟨u, rfl, ?_⟩
    by_cases hu : u.onDisk = []
    · -- a file without a complete record is the newest, so there is no other
      have hrest : rest = [] := by
        by_contra hne
        exact (@WellLaid.clean_of_append _ u rest [] hw hne).onDisk_ne_nil hu
      subst hrest
      simp [recovered, kept, hu] at hv
    · simp only [recovered, kept, filter_cons, isEmpty_eq_false_iff.2 hu, Bool.not_false,
        if_true, map_cons, List.head?_cons, Option.mem_def, Option.some.injEq] at hv
      rw [← hv]
      rfl

/-- Records that are not acknowledged hide nothing when none of them is a revocation. -/
theorem FailureInv.visible_acked (h : FailureInv c w segs) {p : String × ε}
    (hp : p ∈ owed 0 w.acks.length w.acks) :
    p ∈ visibleAll 0 (segs.flatMap SegmentImage.onDisk) := by
  rw [← h.keeps.visible_records h.deleted] at hp
  obtain ⟨r, hr, hrev, hpos, hev, hcur, hnot⟩ := mem_visibleAll.1 (mem_of_mem_take hp)
  obtain ⟨v, hv, hrv⟩ := mem_flatMap.1 hr
  refine mem_visibleAll.2 ⟨r, mem_flatMap.2 ⟨v, hv, mem_append_left _ hrv⟩, hrev, hpos,
    hev, hcur, fun hin => hnot ?_⟩
  obtain ⟨x, hx, hxr⟩ := mem_filterMap.1 hin
  obtain ⟨u, hu, hxu⟩ := mem_flatMap.1 hx
  rcases mem_append.1 hxu with hxu | hxu
  · exact mem_filterMap.2 ⟨x, mem_flatMap.2 ⟨u, hu, hxu⟩, hxr⟩
  · rw [h.pending u hu x (by simpa using hxu)] at hxr
    cases hxr

theorem FailureInv.undamaged (h : FailureInv c w segs) : Undamaged c w where
  replay := fun j hj =>
    ⟨visibleAll 0 (segs.flatMap SegmentImage.onDisk),
      fun n => h.keeps.replay_start h.numbered h.deleted hj n, fun _ hp => h.visible_acked hp⟩
  stored := by
    rw [h.keeps.stores.storedRecords h.keeps.laid, pairwise_map]
    exact h.keeps.laid.ascending
  reopen := by
    intro config hconfig
    obtain ⟨metas, dir, ho, hrep⟩ :=
      openJournal_ok c h.keeps.stores h.keeps.laid h.keeps.small hconfig
    refine ⟨_, dir, ho, visibleAll 0 (segs.flatMap SegmentImage.onDisk), fun n => ?_,
      fun _ hp => h.visible_acked hp⟩
    have hzero : parseU64 "0" = .ok 0 := parseU64_repr (n := 0) (by decide)
    rw [hrep.replayFrom_ok hzero ?_ n, selected_zero hrep.laid, recovered, flatMap_map]
    · simp only [SegmentImage.settle_onDisk, flatMap_onDisk_kept]
      rfl
    intro v hv
    obtain ⟨u, hu, hnum⟩ := head_recovered h.keeps.laid v hv
    obtain ⟨j, hj⟩ := h.running
    rw [hnum, h.keeps.head_number h.numbered hj u hu, h.deleted]
    exact ⟨Nat.le_refl _, by decide⟩

theorem QuietInv.failureInv (h : QuietInv c w segs) (hj : w.journal = some j) :
    FailureInv c w segs where
  keeps := h.clean.keeps
  numbered := h.numbered
  deleted := h.deleted
  running := ⟨j, hj⟩
  tidy := fun _ => h.clean.tidy
  pending := fun v hv r hr => by
    rw [h.clean.pending v hv] at hr
    cases hr

theorem failed_append_undamaged {before calls : List (Call ε)} {w₀ w : Root ε}
    (hbefore : ∀ a ∈ before, a.FaultFree ∧ a.Retains)
    (hmax : Along (Root.step c) BelowMax Root.empty before)
    (hopened : run (Root.step c) Root.empty before = some w₀)
    (hrunning : w₀.journal ≠ none) (hcalls : ∀ a ∈ calls, a.InProcess)
    (hsettled : Along (Root.step c) (WritesOnSettled c) w₀ calls)
    (hrun : run (Root.step c) w₀ calls = some w) : Undamaged c w := by
  obtain ⟨segs₀, h₀⟩ : ∃ segs, QuietInv c w₀ segs := by
    refine invariant (fun w => ∃ segs, QuietInv c w segs) ?_ ⟨[], quietInv_empty⟩
      (hmax.and_mem hbefore) hopened
    rintro s a s' ⟨segs, h⟩ ⟨hlt, hfree, hretains⟩ hs
    obtain ⟨segs', h', _⟩ := h.step hfree hretains hlt hs
    exact ⟨segs', h'⟩
  obtain ⟨j, hj⟩ := Option.ne_none_iff_exists'.1 hrunning
  have hinv : ∃ segs, FailureInv c w segs := by
    refine invariant (fun w => ∃ segs, FailureInv c w segs) ?_
      ⟨segs₀, h₀.failureInv hj⟩ (hsettled.and_mem hcalls) hrun
    rintro s a s' ⟨segs, h⟩ ⟨hc, ha⟩ hs
    exact h.step ha hc hs
  obtain ⟨segs, h⟩ := hinv
  exact h.undamaged

/-! ## The line that a failed append leaves -/

open Events in
/-- An append whose fsync failed: its line is in the file, and nothing is lost. -/
theorem failed_append_undamaged_fsync : ∃ w,
    run (Root.step eventCodec) .empty [.openRoot .default,
      .append 0 none (orderCreated "evt-1"),
      .append 0 (some ⟨1000, "No space left on device (os error 28)"⟩) (orderCreated "evt-2")] =
        some w ∧ Undamaged eventCodec w := by
  obtain ⟨w₀, hopen, hrunning, w, hrun, hsettled⟩ : ∃ w₀, Path (Root.step eventCodec)
      BelowMax .empty [.openRoot .default, .append 0 none (orderCreated "evt-1")] w₀ ∧
      w₀.journal.isSome ∧ ∃ w, run (Root.step eventCodec) w₀
        [.append 0 (some ⟨1000, "No space left on device (os error 28)"⟩) (orderCreated "evt-2")] =
          some w ∧ Along (Root.step eventCodec) (WritesOnSettled eventCodec) w₀
        [.append 0 (some ⟨1000, "No space left on device (os error 28)"⟩) (orderCreated "evt-2")] :=
    exists_path (by rw [eventCodec_eq]; decide +kernel) fun _ _ h => h
  refine ⟨w, (run_append _ _ [_, _] [_]).trans ?_, failed_append_undamaged
    (by simp [Call.FaultFree, Call.Retains]) hopen.1 hopen.2 (Option.isSome_iff_ne_none.1 hrunning)
    (by simp [Call.InProcess]) hsettled hrun⟩
  rw [hopen.2]
  exact hrun

open Events in
/-- The append after it gets the same number, and the journal is refused from then on. -/
theorem failed_append_repeats_number : ∃ w,
    run (Root.step eventCodec) .empty [.openRoot .default,
      .append 0 none (orderCreated "evt-1"),
      .append 0 (some ⟨1000, "No space left on device (os error 28)"⟩) (orderCreated "evt-2"),
      .append 0 none (orderCreated "evt-3")] = some w ∧
    w.acks = [⟨"1", some (orderCreated "evt-1"), none⟩, ⟨"2", some (orderCreated "evt-3"), none⟩] ∧
    (storedRecords eventCodec w.dir).map (·.seq) = [1, 2, 2] ∧
    openJournal eventCodec .default w.dir = (.error (.err (.corrupt (segmentName 1) 3
      "sequence 2 is not greater than prior sequence 2")), w.dir) ∧
    ¬ Undamaged eventCodec w := by
  refine exists_run (P := fun _ _ => True) (D := fun w =>
      w.acks = [⟨"1", some (orderCreated "evt-1"), none⟩,
        ⟨"2", some (orderCreated "evt-3"), none⟩] ∧
      (storedRecords eventCodec w.dir).map (·.seq) = [1, 2, 2] ∧
      (match (openJournal eventCodec .default w.dir).1 with
        | .error e => some e
        | .ok _ => none) = some (.err (.corrupt (segmentName 1) 3
          "sequence 2 is not greater than prior sequence 2")) ∧
      (openJournal eventCodec .default w.dir).2 = w.dir) (by rw [eventCodec_eq]; decide +kernel) ?_
  rintro w - ⟨hacks, hstored, hopen, hdir⟩
  refine ⟨hacks, hstored, Prod.ext ?_ hdir, fun h => ?_⟩
  · cases ho : (openJournal eventCodec .default w.dir).1 with
    | error e =>
      rw [ho] at hopen
      exact congrArg _ (Option.some.inj hopen)
    | ok j =>
      rw [ho] at hopen
      cases hopen
  · have := h.stored
    rw [hstored] at this
    exact absurd this (by decide)

end

end Traverse.Journal

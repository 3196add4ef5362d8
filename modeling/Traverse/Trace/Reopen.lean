import Mathlib.Data.List.Perm.Subperm
import Traverse.Journal.Cursor
import Traverse.Journal.Layout
import Traverse.Trace.Entry

/-!
# Trace.Reopen

When a trace journal can be reopened. Every run of a trace journal is a run of the event journal
underneath (`step_base`), so its files are as in any run without failures. The recovery scan pages
through them from cursor 0 and reads every record back (`recoveryPages_ok`), if cursor 0 is still
accepted: this is when nothing has been pruned from the front of the files (`reopens_iff_head`,
`reopens_iff_path`).
-/

namespace Traverse.Trace

open Json Events Journal Machine

/-! ## The durable trace journal (`trace/durable.rs`)

Execution traces kept in an event journal. `TraceRoot` is one trace journal root over its whole
life, and `TraceRoot.base` the event journal root it is built on. -/

def traceRecordEventType : String := "dev.traverse.trace.recorded"
def traceRecordOwner : String := "traverse-runtime"
def traceRecordVersion : String := "1.0.0"
def recoveryReplayPageSize : Nat := 256

inductive TraceJournalError where
  | journal (e : JournalError)
  | serialize (message : String)
  | deserialize (message : String)
  | lockPoisoned
  deriving DecidableEq, Repr

/-- How a call ends when it does not succeed. `unfinished` is a recovery loop that has not ended
within the pages it is given; it never occurs (`recoveryPages_ok`). -/
inductive TraceFault where
  | err (e : TraceJournalError)
  | overflow
  | unfinished
  deriving DecidableEq, Repr

/-- `impl From<JournalError> for TraceJournalError`. -/
def TraceFault.ofFault : Fault → TraceFault
  | .err e => .err (.journal e)
  | .overflow => .overflow

structure TraceRecoveryReport where
  recoveredTraceIds : List String
  deriving DecidableEq, Repr

structure TracePrunedEvidence where
  workspaceRoot : String
  deletedSegmentPaths : List String
  deriving DecidableEq, Repr

structure DurableTraceJournal where
  root : String
  journal : DurableEventJournal TraverseEvent
  recovery : TraceRecoveryReport

section

variable {μ : Type} (v : ValueCodec μ) (c : RecordCodec TraverseEvent)

/-- The event that stands for a trace record. -/
def traceEvent (r : DurableTraceRecord μ) : TraverseEvent where
  id := r.publicEntry.id
  source := r.publicEntry.source
  eventType := traceRecordEventType
  datacontenttype := "application/json"
  time := r.publicEntry.time
  data := r.toValue v
  owner := traceRecordOwner
  version := traceRecordVersion
  lifecycleStatus := .active
  deduplicationId := none
  orderingScope := none
  correlationId := none
  causationId := none
  subjectId := none
  actorId := none

/-! ## Opening -/

/-- The inner loop of `compute_recovery_report`: the cursor and the ids after one page. -/
def readPage : List (String × TraverseEvent) → String × List String →
    Except TraceFault (String × List String)
  | [], acc => .ok acc
  | (nextCursor, event) :: page, (_, ids) =>
    match DurableTraceRecord.fromValue v event.data with
    | .error message => .error (.err (.deserialize message))
    | .ok record => readPage page (nextCursor, ids ++ [record.publicEntry.id])

/-- The outer loop: pages until an empty one. -/
def recoveryPages (dir : Dir) : Nat → DurableEventJournal TraverseEvent → String × List String →
    Except TraceFault (List String) × DurableEventJournal TraverseEvent
  | 0, j, _ => (.error .unfinished, j)
  | fuel + 1, j, acc =>
    match j.replayFrom c dir acc.1 recoveryReplayPageSize with
    | (.error e, j') => (.error (.ofFault e), j')
    | (.ok page, j') =>
      if page.isEmpty then (.ok acc.2, j')
      else
        match readPage v page acc with
        | .error e => (.error e, j')
        | .ok acc' => recoveryPages dir fuel j' acc'

/-- Every page but the last holds a number below `next_seq`, so that many pages are enough. -/
def computeRecoveryReport (j : DurableEventJournal TraverseEvent) (dir : Dir) :
    Except TraceFault TraceRecoveryReport × DurableEventJournal TraverseEvent :=
  match recoveryPages v c dir (j.nextSeq + 1) j ("0", []) with
  | (.error e, j') => (.error e, j')
  | (.ok ids, j') => (.ok ⟨ids⟩, j')

/-- `DurableTraceJournal::open_with_clock`. -/
def openWithClock (root : String) (config : JournalConfig) (dir : Dir) :
    Except TraceFault DurableTraceJournal × Dir :=
  match openJournal c config dir with
  | (.error e, dir') => (.error (.ofFault e), dir')
  | (.ok j, dir') =>
    match computeRecoveryReport v c j dir' with
    | (.error e, _) => (.error e, dir')
    | (.ok recovery, j') => (.ok ⟨root, j', recovery⟩, dir')

namespace DurableTraceJournal

def record (t : DurableTraceJournal) (dir : Dir) (now : Int) (io : Option WriteFault)
    (publicEntry : PublicTraceEntry μ) (privateEntry : Option PrivateTraceEntry) :
    Except TraceFault String × DurableTraceJournal × Dir :=
  match t.journal.append c dir now io (traceEvent v ⟨publicEntry, privateEntry⟩) with
  | (.error e, j, dir') => (.error (.ofFault e), { t with journal := j }, dir')
  | (.ok cursor, j, dir') => (.ok cursor, { t with journal := j }, dir')

def prune (refuse : String → Option String) (t : DurableTraceJournal) (dir : Dir) (now : Int) :
    Except TraceFault TracePrunedEvidence × DurableTraceJournal × Dir :=
  match t.journal.prune refuse dir now with
  | (.error e, j, dir') => (.error (.ofFault e), { t with journal := j }, dir')
  | (.ok paths, j, dir') => (.ok ⟨t.root, paths⟩, { t with journal := j }, dir')

end DurableTraceJournal

/-! ## The machine -/

/-- `recorded` are the records whose call returned Ok, with their cursors, in order. -/
structure TraceRoot (μ : Type) where
  dir : Dir
  journal : Option DurableTraceJournal
  recorded : List (String × DurableTraceRecord μ)
  deleted : List (JournalRecordV1 TraverseEvent)

inductive TraceCall (μ : Type) where
  | openWithClock (config : JournalConfig)
  | close
  | record (now : Int) (publicEntry : PublicTraceEntry μ) (privateEntry : Option PrivateTraceEntry)
  | prune (now : Int)

namespace TraceRoot

def empty : TraceRoot μ := ⟨.empty, none, [], []⟩

/-- One call at the root with path `root`; no call meets an I/O failure. -/
def step (root : String) (w : TraceRoot μ) : TraceCall μ → Option (TraceRoot μ)
  | .openWithClock config =>
    match w.journal with
    | some _ => none
    | none =>
      match Trace.openWithClock v c root config w.dir with
      | (.ok t, dir) => some { w with dir := dir, journal := some t }
      | (.error _, dir) => some { w with dir := dir }
  | .close => w.journal.map fun _ => { w with journal := none }
  | .record now publicEntry privateEntry =>
    w.journal.map fun t =>
      match t.record v c w.dir now none publicEntry privateEntry with
      | (.ok cursor, t', dir) =>
        { w with dir := dir, journal := some t'
                 recorded := w.recorded ++ [(cursor, ⟨publicEntry, privateEntry⟩)] }
      | (.error _, t', dir) => { w with dir := dir, journal := some t' }
  | .prune now =>
    w.journal.map fun t =>
      match t.prune allowAll w.dir now with
      | (.ok evidence, t', dir) =>
        { w with dir := dir, journal := some t'
                 deleted := w.deleted ++
                   evidence.deletedSegmentPaths.flatMap (fileRecords c w.dir) }
      | (.error _, t', dir) => { w with dir := dir, journal := some t' }

def ack (p : String × DurableTraceRecord μ) : Ack TraverseEvent :=
  ⟨p.1, some (traceEvent v p.2), none⟩

def base (w : TraceRoot μ) : Root TraverseEvent where
  dir := w.dir
  journal := w.journal.map (·.journal)
  acks := w.recorded.map (ack v)
  deleted := w.deleted

/-- What has been recorded and not deleted since. -/
def retained (w : TraceRoot μ) : List (DurableTraceRecord μ) :=
  (w.recorded.drop w.deleted.length).map Prod.snd

end TraceRoot

end

open Lines Decimal List TraceRoot SegmentImage Machine
open Option (map_some)

section

variable {μ : Type} {v : ValueCodec μ} {c : RecordCodec TraverseEvent} {root : String}
  {w w' : TraceRoot μ} {segs : List (SegmentImage TraverseEvent)}
  {j : DurableEventJournal TraverseEvent}

/-! ## The event journal underneath -/

def pages (cursors : List String) : List (Call TraverseEvent) :=
  cursors.map fun cursor => .replay cursor recoveryReplayPageSize

theorem recoveryPages_run (b : Root TraverseEvent) (fuel : Nat) :
    ∀ (j : DurableEventJournal TraverseEvent) (acc : String × List String), ∃ cursors,
      run (Root.step c) { b with journal := some j } (pages cursors) =
        some { b with journal := some (recoveryPages v c b.dir fuel j acc).2 } := by
  induction fuel with
  | zero => intro j acc; exact ⟨[], rfl⟩
  | succ fuel ih =>
    intro j acc
    cases hr : j.replayFrom c b.dir acc.1 recoveryReplayPageSize with
    | mk result j' =>
      have hstep : Root.step c { b with journal := some j }
          (.replay acc.1 recoveryReplayPageSize) = some { b with journal := some j' } := by
        simp only [Root.step, map_some, hr]
      have hone : ∀ cursors, run (Root.step c) { b with journal := some j }
          (pages (acc.1 :: cursors)) =
            run (Root.step c) { b with journal := some j' } (pages cursors) :=
        fun cursors => run_cons_some _ _ hstep
      cases result with
      | error e => exact ⟨[acc.1], by rw [hone]; simp only [recoveryPages, hr]; rfl⟩
      | ok page =>
        by_cases hpage : page.isEmpty = true
        · exact ⟨[acc.1], by rw [hone]; simp only [recoveryPages, hr, hpage, if_true]; rfl⟩
        cases hread : readPage v page acc with
        | error e =>
          refine ⟨[acc.1], ?_⟩
          rw [hone]
          simp only [recoveryPages, hr, hpage, hread]
          rfl
        | ok acc' =>
          obtain ⟨cursors, hc⟩ := ih j' acc'
          refine ⟨acc.1 :: cursors, ?_⟩
          rw [hone, hc]
          simp only [recoveryPages, hr, hpage, Bool.false_eq_true, if_false, hread]

/-- No record is written with the largest sequence number. -/
def BelowMax (w : TraceRoot μ) (a : TraceCall μ) : Prop :=
  ∀ now p q, a = .record now p q → ∀ t, w.journal = some t → t.journal.nextSeq < u64Max

/-- The calls of the event journal that write nothing. -/
def Silent (b : Call TraverseEvent) : Prop := b.FaultFree ∧ b.line = none

variable {b : Root TraverseEvent} {calls : List (Call TraverseEvent)} {dir : Dir}
  {config : JournalConfig}

theorem along_silent (h : ∀ a ∈ calls, Silent a) :
    Along (Root.step c) Journal.BelowMax b calls := by
  induction calls generalizing b with
  | nil => trivial
  | cons a calls ih =>
    refine .cons (fun l hl => ?_) fun _ _ => ih fun x hx => h x (by simp [hx])
    rw [(h a (by simp)).2] at hl
    cases hl

/-- Opening a trace journal opens the event journal, replays, and closes it again on failure. -/
theorem openWithClock_run (b : Root TraverseEvent) (hj : b.journal = none)
    (config : JournalConfig) : ∃ calls, (∀ a ∈ calls, Silent a) ∧
      run (Root.step c) b calls =
        some { b with dir := (openWithClock v c root config b.dir).2
                      journal :=
                        (openWithClock v c root config b.dir).1.toOption.map (·.journal) } := by
  have hopened : ∀ {j dir}, openJournal c config b.dir = (.ok j, dir) →
      Root.step c b (.openRoot config) = some { b with dir := dir, journal := some j } := by
    intro j dir ho
    simp only [Root.step, hj, ho]
  cases ho : openJournal c config b.dir with
  | mk result dir =>
    cases result with
    | error e =>
      refine ⟨[.openRoot config], by simp [Silent, Call.FaultFree, Call.line], ?_⟩
      have hstep : Root.step c b (.openRoot config) = some { b with dir := dir } := by
        simp only [Root.step, hj, ho]
      rw [run_cons_some _ _ hstep]
      simp only [openWithClock, ho, Except.toOption, Option.map_none, ← hj]
      rfl
    | ok j =>
      obtain ⟨cursors, hc⟩ := @recoveryPages_run μ v c { b with dir := dir, journal := some j }
        (j.nextSeq + 1) j ("0", [])
      have hrun : run (Root.step c) b (.openRoot config :: pages cursors) = some { b with
          dir := dir
          journal := some (recoveryPages v c dir (j.nextSeq + 1) j ("0", [])).2 } := by
        rw [run_cons_some _ _ (hopened ho)]
        exact hc
      have hsilent : ∀ a ∈ .openRoot config :: pages cursors, Silent a := by
        simp [pages, Silent, Call.FaultFree, Call.line]
      cases hrec : recoveryPages v c dir (j.nextSeq + 1) j ("0", []) with
      | mk result j' =>
        cases result with
        | ok ids =>
          refine ⟨_, hsilent, ?_⟩
          rw [hrun]
          simp only [openWithClock, ho, computeRecoveryReport, hrec, Except.toOption,
            map_some]
        | error e =>
          refine ⟨(.openRoot config :: pages cursors) ++ [.close], ?_, ?_⟩
          · intro a ha
            rcases mem_append.1 ha with ha | ha
            · exact hsilent a ha
            · rw [mem_singleton] at ha
              subst ha
              exact ⟨trivial, rfl⟩
          · rw [run_append, hrun]
            simp only [openWithClock, ho, computeRecoveryReport, hrec, Except.toOption,
              Option.map_none]
            rfl

theorem step_base {a : TraceCall μ} (hs : w.step v c root a = some w') (hmax : BelowMax w a) :
    ∃ calls, (∀ b ∈ calls, b.FaultFree) ∧
      Along (Root.step c) Journal.BelowMax (w.base v) calls ∧
      run (Root.step c) (w.base v) calls = some (w'.base v) := by
  -- all calls but an open are one call of the event journal
  have hone : ∀ b : Call TraverseEvent, b.FaultFree → Journal.BelowMax (w.base v) b →
      Root.step c (w.base v) b = some (w'.base v) → ∃ calls, (∀ b ∈ calls, b.FaultFree) ∧
        Along (Root.step c) Journal.BelowMax (w.base v) calls ∧
        run (Root.step c) (w.base v) calls = some (w'.base v) :=
    fun b hfree hlt hstep => ⟨[b], by simpa using hfree, .cons hlt fun _ _ => trivial,
      run_cons_some _ _ hstep⟩
  cases hj : w.journal with
  | none =>
    cases a with
    | openWithClock config =>
      obtain ⟨calls, hsilent, hrun⟩ :=
        @openWithClock_run μ v c root (w.base v) (by simp [base, hj]) config
      refine ⟨calls, fun b hb => (hsilent b hb).1, along_silent hsilent, ?_⟩
      rw [hrun]
      simp only [step, hj] at hs
      rcases ho : openWithClock v c root config w.dir with ⟨_ | t, dir⟩ <;>
      · simp only [ho, Option.some.injEq] at hs
        subst hs
        simp [base, ho, Except.toOption, hj]
    | close | record | prune => simp [step, hj] at hs
  | some t =>
    cases a with
    | openWithClock => simp [step, hj] at hs
    | close =>
      refine hone .close trivial (fun _ hl => by cases hl) ?_
      simp only [step, hj, map_some, Option.some.injEq] at hs
      subst hs
      simp [Root.step, base, hj]
    | record now p q =>
      refine hone (.append now none (traceEvent v ⟨p, q⟩)) rfl (fun l _ i hi => ?_) ?_
      · simp only [base, hj, map_some, Option.some.injEq] at hi
        subst hi
        exact hmax now p q rfl t hj
      simp only [step, hj, map_some, Option.some.injEq, DurableTraceJournal.record] at hs
      simp only [Root.step, base, hj, map_some]
      rcases ha : t.journal.append c w.dir now none (traceEvent v ⟨p, q⟩) with
        ⟨_ | cursor, j', dir⟩ <;>
      · simp only [ha] at hs
        subst hs
        simp [Root.returned, TraceRoot.ack]
    | prune now =>
      refine hone (.prune now) trivial (fun _ hl => by cases hl) ?_
      simp only [step, hj, map_some, Option.some.injEq, DurableTraceJournal.prune] at hs
      simp only [Root.step, base, hj, map_some]
      rcases hp : t.journal.prune allowAll w.dir now with ⟨_ | paths, j', dir⟩ <;>
      · simp only [hp] at hs
        subst hs
        simp

theorem trace_run {calls : List (TraceCall μ)} (hmax : Along (step v c root) BelowMax .empty calls)
    (hrun : run (step v c root) .empty calls = some w) : ∃ segs, CleanInv c (w.base v) segs := by
  refine invariant (fun w : TraceRoot μ => ∃ segs, CleanInv c (w.base v) segs) ?_
    ⟨[], cleanInv_empty⟩ hmax hrun
  intro s a s' hs hlt hstep
  obtain ⟨calls, hfree, halong, hbase⟩ := step_base hstep hlt
  refine invariant (fun b => ∃ segs, CleanInv c b segs) ?_ hs (halong.and_mem hfree) hbase
  rintro s a s' ⟨segs, hs⟩ ⟨hlt, hf⟩ hstep
  obtain ⟨segs', hs', _⟩ := hs.step hf hlt hstep
  exact ⟨segs', hs'⟩

/-! ## The recovery scan -/

/-- The journal record `r` holds the trace record `x`. -/
def Holds (v : ValueCodec μ) (r : JournalRecordV1 TraverseEvent) (x : DurableTraceRecord μ) :
    Prop :=
  r.event = some (traceEvent v x) ∧ r.revokes = none

section Scan

variable {rs : List (JournalRecordV1 TraverseEvent)} {xs : List (DurableTraceRecord μ)}

theorem revocations_of_holds (h : List.Forall₂ (Holds v) rs xs) : revocations rs = [] := by
  induction h with
  | nil => rfl
  | cons hx _ ih =>
    rw [revocations, filterMap_cons, hx.2]
    exact ih

variable {after : Nat} {done : List (JournalRecordV1 TraverseEvent)}

theorem filterMap_of_holds (h : List.Forall₂ (Holds v) rs xs) (hlt : ∀ r ∈ rs, after < r.seq) :
    rs.filterMap (eventAfter after) = List.zipWith (fun r x => (r.seq, traceEvent v x)) rs xs := by
  induction h with
  | nil => rfl
  | @cons r x rs xs hx _ ih =>
    have hev : eventAfter after r = some (r.seq, traceEvent v x) := by
      simp [eventAfter, hx.2, hx.1, hlt r (by simp)]
    rw [filterMap_cons, hev, zipWith_cons_cons, ih fun y hy => hlt y (by simp [hy])]

def pageOf (v : ValueCodec μ) (rs : List (JournalRecordV1 TraverseEvent))
    (xs : List (DurableTraceRecord μ)) : List (String × TraverseEvent) :=
  List.zipWith (fun r x => (r.seq.repr, traceEvent v x)) rs xs

/-- What a replay shows of a file with `done` behind the cursor and `rs` after it. -/
theorem visible_rest (n : Nat) {ys : List (DurableTraceRecord μ)}
    (hd : List.Forall₂ (Holds v) done ys) (h : List.Forall₂ (Holds v) rs xs)
    (hle : ∀ r ∈ done, r.seq ≤ after) (hlt : ∀ r ∈ rs, after < r.seq) :
    visible after n (done ++ rs) = (pageOf v rs xs).take n := by
  have hnone : done.filterMap (eventAfter after) = [] := by
    rw [filterMap_eq_nil_iff]
    intro r hr
    have hnot : ¬ after < r.seq := Nat.not_lt.2 (hle r hr)
    cases hrev : r.revokes <;> simp [eventAfter, hrev, hnot]
  have hrev : revocations (done ++ rs) = [] := by
    rw [revocations, filterMap_append, ← revocations, ← revocations, revocations_of_holds hd,
      revocations_of_holds h]
    rfl
  rw [visible, visibleAll, hrev, filterMap_append, hnone, nil_append,
    filterMap_of_holds h hlt]
  simp [pageOf, map_zipWith]

theorem readPage_pageOf (h : List.Forall₂ (Holds v) rs xs) :
    ∀ (cursor : String) (ids : List String), readPage v (pageOf v rs xs) (cursor, ids) =
      .ok ((rs.getLast?.map (·.seq.repr)).getD cursor, ids ++ xs.map (·.publicEntry.id)) := by
  induction h with
  | nil => intro cursor ids; simp [pageOf, readPage]
  | @cons r x rs xs hx _ ih =>
    intro cursor ids
    have hdata : DurableTraceRecord.fromValue v (traceEvent v x).data = .ok x :=
      DurableTraceRecord.fromValue_toValue v x
    rw [pageOf, zipWith_cons_cons, readPage, hdata]
    show readPage v (pageOf v rs xs) (r.seq.repr, ids ++ [x.publicEntry.id]) = _
    rw [ih, List.getLast?_cons, map_cons, append_assoc]
    cases rs.getLast? <;> rfl

/-- Where the scan stands: `done` has been read and `rs` has not. -/
structure Scanning (v : ValueCodec μ) (all done rs : List (JournalRecordV1 TraverseEvent))
    (xs : List (DurableTraceRecord μ)) (after : Nat) : Prop where
  split : all = done ++ rs
  read : ∃ ys, List.Forall₂ (Holds v) done ys
  unread : List.Forall₂ (Holds v) rs xs
  behind : ∀ r ∈ done, r.seq ≤ after
  ahead : ∀ r ∈ rs, after < r.seq

theorem Scanning.page {all : List (JournalRecordV1 TraverseEvent)}
    (h : Scanning v all done rs xs after) (hasc : all.Pairwise fun a b => a.seq < b.seq)
    (hne : rs ≠ []) (n : Nat) : ∃ last ∈ rs, (rs.take (n + 1)).getLast? = some last ∧
      Scanning v all (done ++ rs.take (n + 1)) (rs.drop (n + 1)) (xs.drop (n + 1)) last.seq := by
  rcases eq_nil_or_concat' (rs.take (n + 1)) with hnil | ⟨init, last, hlast⟩
  · rw [take_eq_nil_iff] at hnil
    rcases hnil with hz | hrs
    · omega
    · exact absurd hrs hne
  have hmem : last ∈ rs := mem_of_mem_take (hlast ▸ mem_append_right _ (by simp))
  obtain ⟨ys, hread⟩ := h.read
  rw [h.split, ← take_append_drop (n + 1) rs, hlast] at hasc
  obtain ⟨_, hrs, _⟩ := pairwise_append.1 hasc
  obtain ⟨htake, _, hcross⟩ := pairwise_append.1 hrs
  refine ⟨last, hmem, by rw [hlast, List.getLast?_concat], ?_, ?_, ?_, ?_, ?_⟩
  · rw [h.split, append_assoc, take_append_drop]
  · exact ⟨_, rel_append hread (List.forall₂_take (n + 1) h.unread)⟩
  · exact List.forall₂_drop (n + 1) h.unread
  · intro r hr
    rcases mem_append.1 hr with hr | hr
    · exact Nat.le_of_lt (Nat.lt_of_le_of_lt (h.behind r hr) (h.ahead last hmem))
    rw [hlast] at hr
    rcases mem_append.1 hr with hr | hr
    · exact Nat.le_of_lt ((pairwise_append.1 htake).2.2 r hr last (by simp))
    · rw [mem_singleton] at hr
      exact Nat.le_of_eq (congrArg _ hr)
  · exact fun r hr => hcross last (by simp) r hr

theorem Scanning.replay {cursor : String} (h : Scanning v (segs.flatMap records) done rs xs after)
    (hr : Represents c dir j segs) (ht : ∀ u ∈ segs, u.Tidy)
    (hfirst : ∀ u ∈ segs.head?, u.number = 1) (hp : parseU64 cursor = .ok after)
    (hmax : after < u64Max) (n : Nat) : ∃ j', Represents c dir j' segs ∧
      j.replayFrom c dir cursor n = (.ok ((pageOf v rs xs).take n), j') := by
  obtain ⟨ys, hread⟩ := h.read
  have hback : ∀ r ∈ segs.flatMap records, ∀ s ∈ r.revokes, s ≤ r.seq := by
    intro r hr s hs
    have hnone : revocations (done ++ rs) = [] :=
      revocations_of_holds (rel_append hread h.unread)
    rw [← h.split, revocations, filterMap_eq_nil_iff] at hnone
    rw [hnone r hr] at hs
    cases hs
  have hok := hr.replayFrom_ok hp (fun u hu => ⟨by rw [hfirst u hu]; omega, hmax⟩) n
  rw [visible_selected after n ht hback, h.split,
    visible_rest n hread h.unread h.behind h.ahead] at hok
  obtain ⟨cache, hcache, hr'⟩ := hr.replayFrom_cache cursor n
  exact ⟨_, hr', Prod.ext hok hcache⟩

theorem pageOf_take (n : Nat) : (pageOf v rs xs).take n = pageOf v (rs.take n) (xs.take n) := by
  simp [pageOf, take_zipWith]

theorem recoveryPages_ok (ht : ∀ u ∈ segs, u.Tidy) (hfirst : ∀ u ∈ segs.head?, u.number = 1)
    (hasc : (segs.flatMap records).Pairwise fun a b => a.seq < b.seq)
    (hsmall : ∀ r ∈ segs.flatMap records, r.seq < u64Max) (fuel : Nat) :
    ∀ {j : DurableEventJournal TraverseEvent} {done rs : List (JournalRecordV1 TraverseEvent)}
      {xs : List (DurableTraceRecord μ)} {after : Nat} (cursor : String) (ids : List String),
      Scanning v (segs.flatMap records) done rs xs after →
      Represents c dir j segs → parseU64 cursor = .ok after → after < u64Max → rs.length < fuel →
      ∃ j', recoveryPages v c dir fuel j (cursor, ids) =
        (.ok (ids ++ xs.map (·.publicEntry.id)), j') := by
  induction fuel with
  | zero => intros; omega
  | succ fuel ih =>
    intro j done rs xs after cursor ids h hr hp hmax hfuel
    obtain ⟨j', hr', hreplay⟩ := h.replay hr ht hfirst hp hmax recoveryReplayPageSize
    by_cases hne : rs = []
    · have hxs : xs = [] := by
        have := h.unread
        rw [hne] at this
        cases this
        rfl
      refine ⟨j', ?_⟩
      rw [recoveryPages, hreplay, hne, hxs]
      simp [pageOf]
    · obtain ⟨last, hmem, hlast, hnext⟩ := h.page hasc hne 255
      have hlen : (rs.drop 256).length < rs.length := by
        have := length_pos_iff.2 hne
        rw [length_drop]
        omega
      have hall : last ∈ segs.flatMap records :=
        h.split ▸ mem_append_right _ hmem
      have hlt := hsmall last hall
      obtain ⟨j'', hloop⟩ := ih last.seq.repr (ids ++ (xs.take 256).map (·.publicEntry.id)) hnext
        hr' (parseU64_repr (Nat.le_of_lt hlt)) hlt (show (rs.drop 256).length < fuel by omega)
      have hpage := readPage_pageOf (List.forall₂_take 256 h.unread) cursor ids
      rw [hlast] at hpage
      have hfull : (pageOf v (rs.take 256) (xs.take 256)).isEmpty = false := by
        cases rs with
        | nil => exact absurd rfl hne
        | cons r rs =>
          have := h.unread
          cases xs with
          | nil => cases this
          | cons x xs => rfl
      refine ⟨j'', ?_⟩
      rw [recoveryPages, hreplay, pageOf_take]
      simp only [recoveryReplayPageSize, hfull, Bool.false_eq_true, if_false, hpage, map_some,
        Option.getD_some, hloop]
      rw [append_assoc, ← map_append, take_append_drop]

end Scan

/-! ## Reopening -/

/-- An open succeeds and reports exactly what is retained. -/
def Reopens (v : ValueCodec μ) (c : RecordCodec TraverseEvent) (root : String) (w : TraceRoot μ)
    (config : JournalConfig) : Prop :=
  ∃ t dir, openWithClock v c root config w.dir = (.ok t, dir) ∧
    t.recovery.recoveredTraceIds = w.retained.map (·.publicEntry.id)

theorem forall₂_holds (h : Keeps c (w.base v) segs) :
    List.Forall₂ (Holds v) (segs.flatMap records) w.retained := by
  have hacked := congrArg (List.drop w.deleted.length) h.acked
  have hbase : (w.base v).acks = w.recorded.map (ack v) := rfl
  have hdel : (w.base v).deleted = w.deleted := rfl
  rw [hbase, hdel, map_append, drop_left' (length_map _), ← map_drop] at hacked
  rw [retained, List.forall₂_map_right_iff]
  rw [← List.forall₂_eq_eq_eq, List.forall₂_map_left_iff, List.forall₂_map_right_iff] at hacked
  refine List.Forall₂.imp ?_ hacked.flip
  intro r p hp
  simp only [TraceRoot.ack, Ack.ofRecord, Ack.mk.injEq] at hp
  exact ⟨hp.2.1.symm, hp.2.2.symm⟩

/-- Distinct numbers below `next_seq` are fewer than `next_seq`. -/
theorem length_lt_next (hr : Represents c dir j segs) (ht : ∀ u ∈ segs, u.Tidy) :
    (segs.flatMap records).length < j.nextSeq + 1 := by
  have hasc := hr.laid.ascending
  rw [flatMap_onDisk_of_tidy ht, ← pairwise_map] at hasc
  have hnodup : ((segs.flatMap records).map (·.seq)).Nodup :=
    hasc.imp fun h => Nat.ne_of_lt h
  have hsub : (segs.flatMap records).map (·.seq) ⊆ List.range j.nextSeq := by
    intro n hn
    obtain ⟨r, hr', rfl⟩ := mem_map.1 hn
    obtain ⟨u, hu, hru⟩ := mem_flatMap.1 hr'
    exact mem_range.2 (hr.below u hu r hru)
  have hle := (List.Nodup.subperm hnodup hsub).length_le
  rw [length_map, length_range] at hle
  omega

section

variable (h : CleanInv c (w.base v) segs) (hconfig : validateConfig config = .ok ())

include h hconfig

theorem reopens_iff_head : Reopens v c root w config ↔ ∀ u ∈ segs.head?, u.number = 1 := by
  obtain ⟨j, dir, ho, hk, _, _⟩ := h.keeps.openRoot h.pending hconfig
  rw [recovered_of_clean h.clean] at hk
  have hr : Represents c dir j segs := hk.live j rfl
  have ho : openJournal c config w.dir = (.ok j, dir) := ho
  have hzero : parseU64 "0" = .ok 0 := parseU64_repr (n := 0) (by decide)
  constructor
  · rintro ⟨t, dir', hopen, _⟩ u hu
    by_contra hne
    have hpos := hr.laid.pos u (mem_of_mem_head? hu)
    have hexp := hr.replayFrom_expired hzero hu (by decide) (by omega) recoveryReplayPageSize
    simp only [openWithClock, ho, computeRecoveryReport, recoveryPages] at hopen
    cases hreplay : j.replayFrom c dir "0" recoveryReplayPageSize with
    | mk result j' =>
      rw [hreplay] at hexp
      simp only at hexp
      rw [hreplay, hexp] at hopen
      cases hopen
  · intro hfirst
    have hasc := hr.laid.ascending
    rw [flatMap_onDisk_of_tidy h.tidy] at hasc
    have hsmall : ∀ r ∈ segs.flatMap records, r.seq < u64Max := by
      intro r hrm
      obtain ⟨u, hu, hru⟩ := mem_flatMap.1 hrm
      exact h.keeps.small u hu r (mem_append_left _ hru)
    have hpos : ∀ r ∈ segs.flatMap records, 0 < r.seq := by
      intro r hrm
      obtain ⟨u, hu, hru⟩ := mem_flatMap.1 hrm
      have h1 := hr.laid.pos u hu
      have h2 := u.number_le r (mem_append_left _ hru)
      omega
    have hscan : Scanning v (segs.flatMap records) [] (segs.flatMap records) w.retained 0 :=
      ⟨rfl, ⟨[], .nil⟩, forall₂_holds h.keeps, by simp, hpos⟩
    obtain ⟨j', hloop⟩ := recoveryPages_ok h.tidy hfirst hasc hsmall (j.nextSeq + 1) "0" [] hscan hr
      hzero (by decide) (length_lt_next hr h.tidy)
    refine ⟨⟨root, j', ⟨w.retained.map (·.publicEntry.id)⟩⟩, dir, ?_, rfl⟩
    simp only [openWithClock, ho, computeRecoveryReport, hloop, nil_append]

theorem reopens_iff_path :
    Reopens v c root w config ↔ ∀ path ∈ (segmentPaths w.dir).head?, path = segmentName 1 := by
  have hpaths : segmentPaths w.dir = segs.map name :=
    h.keeps.stores.segmentPaths h.keeps.laid
  rw [reopens_iff_head h hconfig, hpaths, List.head?_map]
  constructor
  · intro hfirst path hpath
    obtain ⟨u, hu, rfl⟩ := Option.map_eq_some_iff.1 hpath
    rw [name, hfirst u hu]
  · intro hfirst u hu
    have hname := hfirst u.name (Option.map_eq_some_iff.2 ⟨u, hu, rfl⟩)
    exact segmentName_inj (h.keeps.laid.small u (mem_of_mem_head? hu)) (by decide) hname

end

theorem trace_reopens_iff {calls : List (TraceCall μ)} {w : TraceRoot μ} {config : JournalConfig}
    (hmax : Along (step v c root) BelowMax .empty calls)
    (hrun : run (step v c root) .empty calls = some w) (hconfig : validateConfig config = .ok ()) :
    Reopens v c root w config ↔ ∀ path ∈ (segmentPaths w.dir).head?, path = segmentName 1 := by
  obtain ⟨segs, h⟩ := trace_run hmax hrun
  exact reopens_iff_path h hconfig

/-! ## A trace journal that was pruned -/

instance {w : TraceRoot μ} {a : TraceCall μ} : Decidable (BelowMax w a) :=
  match a with
  | .record .. => decidable_of_iff (∀ t, w.journal = some t → t.journal.nextSeq < u64Max)
      ⟨fun h _ _ _ _ => h, fun h => h _ _ _ rfl⟩
  | .openWithClock _ | .close | .prune _ => .isTrue fun _ _ _ h => by cases h

/-- One record a segment, and only the active segment survives a prune. -/
def tiny : JournalConfig :=
  { JournalConfig.default with maxSegmentBytes := 1, retentionMaxTotalBytes := some 1 }

/-- Model evidence written as a string. -/
def stringCodec : ValueCodec String where
  toValue := .str
  fromValue := asStr
  fromValue_toValue _ := rfl
  toValue_ne_null _ := by simp

def orderTrace (id : String) : DurableTraceRecord String :=
  ⟨.new id "orders.create" "local" .success 5 "2026-07-30T00:00:00Z", none⟩

/-- Two traces, nothing pruned: both are reported. -/
theorem trace_reopens_recorded : ∃ w,
    run (step stringCodec eventCodec "traces") .empty [.openWithClock tiny,
      .record 0 (orderTrace "trace-1").publicEntry none,
      .record 0 (orderTrace "trace-2").publicEntry none] = some w ∧
    w.retained.map (·.publicEntry.id) = ["trace-1", "trace-2"] ∧
    Reopens stringCodec eventCodec "traces" w .default := by
  refine exists_run (P := BelowMax) (D := fun w =>
    w.retained.map (·.publicEntry.id) = ["trace-1", "trace-2"] ∧
    w.dir.files.map Prod.fst = [1, 2].map segmentName) (by rw [eventCodec_eq]; decide +kernel) ?_
  refine fun w hrun ⟨hretained, hfiles⟩ => ⟨hretained,
    (trace_reopens_iff hrun.1 hrun.2 rfl).2 fun path hpath => ?_⟩
  rw [segmentPaths_of_lt (by decide) (by decide) hfiles] at hpath
  exact (Option.some.inj hpath).symm

/-- With the first segment pruned, no configuration opens the journal again. -/
theorem pruned_trace_refused : ∃ w,
    run (step stringCodec eventCodec "traces") .empty [.openWithClock tiny,
      .record 0 (orderTrace "trace-1").publicEntry none,
      .record 0 (orderTrace "trace-2").publicEntry none, .prune 0, .close] = some w ∧
    w.retained.map (·.publicEntry.id) = ["trace-2"] ∧
    ∀ config, validateConfig config = .ok () →
      ¬ Reopens stringCodec eventCodec "traces" w config := by
  refine exists_run (P := BelowMax) (D := fun w =>
    w.retained.map (·.publicEntry.id) = ["trace-2"] ∧
    w.dir.files.map Prod.fst = [2].map segmentName) (by rw [eventCodec_eq]; decide +kernel) ?_
  refine fun w hrun ⟨hretained, hfiles⟩ => ⟨hretained, fun config hconfig hopen => ?_⟩
  obtain ⟨segs, h⟩ := trace_run hrun.1 hrun.2
  have hfirst := (reopens_iff_path h hconfig).1 hopen (segmentName 2) (by
    rw [segmentPaths_of_lt (by decide) (by decide) hfiles]
    rfl)
  exact absurd (segmentName_inj (by decide) (by decide) hfirst) (by decide)

end

end Traverse.Trace

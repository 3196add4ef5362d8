import Traverse.Journal.Ledger

/-!
# Journal.Effect

What one step of the machine can do, said once. `Effect c w segs a w' segs'` lists the ways a call
`a` leads from a root with images `segs` to one with images `segs'`; `Keeps.step` shows that these
are all, as long as lines are written behind tidy files only. Every invariant over runs is proved
by cases on `Effect`. `Numbered` is one of them: records are numbered from 1 without gaps.
-/

namespace Traverse.Journal

open Lines Decimal List Root SegmentImage

section

variable {ε : Type}

inductive Effect (c : RecordCodec ε) (w : Root ε) (segs : List (SegmentImage ε)) (a : Call ε) :
    Root ε → List (SegmentImage ε) → Prop where
  | opened {config : JournalConfig} {j : DurableEventJournal ε} {dir : Dir}
      (label : a = .openRoot config) (next : j.nextSeq = nextAfter 1 segs) :
      Effect c w segs a { w with dir := dir, journal := some j } (recovered segs)
  /-- The journal was closed, or `open` refused its configuration. -/
  | closed (ends : a.ends = true) : Effect c w segs a { w with journal := none } segs
  /-- Nothing but the running journal's own bookkeeping changed. -/
  | quiet {j j' : DurableEventJournal ε} (running : w.journal = some j)
      (next : j'.nextSeq = j.nextSeq) (segments : j'.segments = j.segments) :
      Effect c w segs a { w with journal := some j' } segs
  | line {l : Line ε} {j : DurableEventJournal ε} {w' : Root ε} {segs' : List (SegmentImage ε)}
      (line : a.line = some l) (running : w.journal = some j)
      (wrote : Wrote c w j segs l.now l.event l.revokes l.io w' segs') : Effect c w segs a w' segs'
  | stopped {l : Line ε} {j : DurableEventJournal ε} {written : Nat} {w' : Root ε}
      {segs' : List (SegmentImage ε)} (ends : a.ends = true) (line : a.line = some l)
      (running : w.journal = some j) (io : l.io = cut written)
      (wrote : Wrote c w j segs l.now l.event l.revokes l.io w' segs') :
      Effect c w segs a { w with dir := w'.dir, journal := none } segs'
  | pruned {now : Int} {j j' : DurableEventJournal ε} {k : Nat} {dir : Dir}
      (label : a = .prune now) (running : w.journal = some j) (next : j'.nextSeq = j.nextSeq) :
      Effect c w segs a
        { w with dir := dir, journal := some j'
                 deleted := w.deleted ++ (segs.take k).flatMap records }
        (segs.drop k)

variable {c : RecordCodec ε} {w w' : Root ε} {segs : List (SegmentImage ε)}
  {j : DurableEventJournal ε}

theorem appendRevocation_eq (c : RecordCodec ε) (j : DurableEventJournal ε) (dir : Dir) (now : Int)
    (io : Option WriteFault) (cursor : String) :
    (∃ e, (parseU64 cursor).toOption = none ∧
      j.appendRevocation c dir now io cursor = (.error e, j, dir)) ∨
    ∃ n, (parseU64 cursor).toOption = some n ∧
      j.appendRevocation c dir now io cursor = j.appendLine c dir now io none (some n) := by
  unfold DurableEventJournal.appendRevocation
  cases parseU64 cursor with
  | error e => exact .inl ⟨_, rfl, rfl⟩
  | ok n => exact .inr ⟨n, rfl, rfl⟩

variable {a : Call ε} {l : Line ε} {now : Int} {event : Option ε} {revokes : Option Nat}
  {io : Option WriteFault} {segs' : List (SegmentImage ε)}

theorem Keeps.step_line (h : Keeps c w segs) (hj : w.journal = some j) (ht : ∀ v ∈ segs, v.Tidy)
    (hmax : j.nextSeq < u64Max) (hl : a.line = some l) :
    ∃ segs', Keeps c (w.returned l.event l.revokes
        (j.appendLine c w.dir l.now l.io l.event l.revokes)) segs' ∧
      Effect c w segs a (w.returned l.event l.revokes
        (j.appendLine c w.dir l.now l.io l.event l.revokes)) segs' := by
  obtain ⟨segs', hk, hwrote⟩ := h.appendLine hj ht hmax l.now l.io l.event l.revokes
  exact ⟨segs', hk, .line hl hj hwrote⟩

theorem Wrote.deleted (h : Wrote c w j segs now event revokes io w' segs') :
    w'.deleted = w.deleted := by
  cases h <;> rfl

/-- The acknowledged calls and deletions of a write that was cut short are those before it. -/
theorem Wrote.cut_acks {fault : WriteFault}
    (h : Wrote c w j segs now event revokes (some fault) w' segs') :
    w'.acks = w.acks ∧ w'.deleted = w.deleted := by
  cases h with
  | refused | failed => exact ⟨rfl, rfl⟩

theorem Keeps.step_stopped (h : Keeps c w segs) (hj : w.journal = some j) (ht : ∀ v ∈ segs, v.Tidy)
    (hmax : j.nextSeq < u64Max) (hends : a.ends = true) (hl : a.line = some l) {written : Nat}
    (hio : l.io = cut written) :
    ∃ segs', Keeps c (w.stopped (j.appendLine c w.dir l.now l.io l.event l.revokes)) segs' ∧
      Effect c w segs a (w.stopped (j.appendLine c w.dir l.now l.io l.event l.revokes)) segs' := by
  obtain ⟨segs', hk, hwrote⟩ := h.appendLine hj ht hmax l.now l.io l.event l.revokes
  have hdir : w.stopped (j.appendLine c w.dir l.now l.io l.event l.revokes) =
      { w with dir := (w.returned l.event l.revokes
          (j.appendLine c w.dir l.now l.io l.event l.revokes)).dir, journal := none } := by
    rcases j.appendLine c w.dir l.now l.io l.event l.revokes with ⟨_ | _, _, _⟩ <;> rfl
  have hsame := hwrote
  rw [hio] at hsame
  obtain ⟨hacks, hdel⟩ := hsame.cut_acks
  rw [hdir]
  refine ⟨segs', ⟨hk.stores, hk.laid, hk.small, by simp, ?_⟩, .stopped hends hl hj hio hwrote⟩
  have := hk.acked
  rw [hio] at this
  rw [hacks, hdel] at this
  exact this

theorem Keeps.step (h : Keeps c w segs) (hs : w.step c a = some w')
    (hline : ∀ l, a.line = some l → (∀ v ∈ segs, v.Tidy) ∧ ∀ j, w.journal = some j →
      j.nextSeq < u64Max)
    (hopen : ∀ config, a = .openRoot config → ∀ v ∈ segs, v.pending = none)
    (hprune : ∀ now, a = .prune now → ∀ v ∈ segs, v.Tidy) :
    ∃ segs', Keeps c w' segs' ∧ Effect c w segs a w' segs' := by
  cases hj : w.journal with
  | none =>
    cases a with
    | openRoot config =>
      cases hv : validateConfig config with
      | error e =>
        simp only [step, hj, openJournal, hv, Option.some.injEq] at hs
        subst hs
        exact ⟨segs, h.close, .closed rfl⟩
      | ok u =>
        obtain ⟨j, dir', ho, hk, hnext, _⟩ := h.openRoot (hopen config rfl) hv
        simp only [step, hj, ho, Option.some.injEq] at hs
        subst hs
        exact ⟨_, hk, .opened rfl hnext⟩
    | _ => simp [step, hj] at hs
  | some j =>
    cases a <;> simp only [step, hj, Option.map_some, Option.some.injEq] at hs
    case openRoot => cases hs
    all_goals subst hs
    case close => exact ⟨segs, h.close, .closed rfl⟩
    case append now io event =>
      obtain ⟨ht, hmax⟩ := hline _ rfl
      exact h.step_line hj ht (hmax j hj) (l := ⟨now, io, some event, none⟩) rfl
    case stopAppend now written event =>
      obtain ⟨ht, hmax⟩ := hline _ rfl
      exact h.step_stopped hj ht (hmax j hj) (l := ⟨now, cut written, some event, none⟩) rfl rfl rfl
    case revoke now io cursor =>
      rcases appendRevocation_eq c j w.dir now io cursor with
        ⟨e, _, he⟩ | ⟨n, hn, he⟩
      · rw [he]
        exact ⟨segs, h.refused (h.live j hj), .quiet hj rfl rfl⟩
      have hl : (Call.revoke now io cursor : Call ε).line = some ⟨now, io, none, some n⟩ := by
        simp [Call.line, hn]
      obtain ⟨ht, hmax⟩ := hline _ hl
      rw [he, hn]
      exact h.step_line hj ht (hmax j hj) hl
    case stopRevoke now written cursor =>
      rcases appendRevocation_eq c j w.dir now (cut written) cursor with
        ⟨e, _, he⟩ | ⟨n, hn, he⟩
      · rw [he]
        exact ⟨segs, h.close, .closed rfl⟩
      have hl : (Call.stopRevoke now written cursor : Call ε).line =
          some ⟨now, cut written, none, some n⟩ := by
        simp [Call.line, hn]
      obtain ⟨ht, hmax⟩ := hline _ hl
      rw [he]
      exact h.step_stopped hj ht (hmax j hj) rfl hl rfl
    case replay cursor n =>
      obtain ⟨cache, hc, hr⟩ := (h.live j hj).replayFrom_cache cursor n
      rw [hc]
      exact ⟨segs, h.refused hr, .quiet hj rfl rfl⟩
    case prune now =>
      rcases nowSecs_cases now with ⟨e, he⟩ | ⟨secs, hnow⟩
      · have hp : j.prune allowAll w.dir now = (.error (.err e), j, w.dir) := by
          simp only [DurableEventJournal.prune, he]
        rw [hp]
        exact ⟨segs, h.refused (h.live j hj), .quiet hj rfl rfl⟩
      · obtain ⟨k, dir', hp, hrec, hk⟩ := h.prune hj (hprune now rfl) hnow
        simp only [hp, hrec]
        exact ⟨_, hk, .pruned rfl hj rfl⟩

/-! ## Numbering -/

/-- The acknowledged records, deleted or kept, are numbered 1, 2, 3, and so on. -/
structure Numbered (w : Root ε) (segs : List (SegmentImage ε)) : Prop where
  seqs : (w.deleted ++ segs.flatMap records).map (·.seq) =
    List.range' 1 w.acks.length
  next : ∀ j, w.journal = some j → j.nextSeq = w.acks.length + 1

theorem numbered_empty : Numbered (empty : Root ε) [] := ⟨rfl, by simp [empty]⟩

theorem Numbered.nextAfter (hn : Numbered w segs) (hp : ∀ v ∈ segs, v.pending = none)
    (hne : segs.flatMap records = [] → w.acks = []) : nextAfter 1 segs = w.acks.length + 1 := by
  rw [Journal.nextAfter, flatMap_onDisk_of_pending hp]
  rcases eq_nil_or_concat' (segs.flatMap records) with hnil | ⟨init, l, hl⟩
  · simp [hnil, hne hnil]
  have hlast : ((w.deleted ++ segs.flatMap records).map (·.seq)).getLast? =
      some l.seq := by
    rw [hl, ← append_assoc, map_append, List.getLast?_append]
    simp
  rw [hn.seqs, List.getLast?_range'] at hlast
  rw [hl, List.getLast?_append]
  simp only [List.getLast?_singleton, Option.some_or, Option.map_some, Option.getD_some]
  split at hlast
  · cases hlast
  · simp only [Option.some.injEq] at hlast
    omega

theorem Numbered.wrote (hn : Numbered w segs) (hj : w.journal = some j)
    (h : Wrote c w j segs now event revokes io w' segs') : Numbered w' segs' := by
  have hnext := hn.next j hj
  cases h with
  | refused next =>
    exact ⟨hn.seqs, fun i hi => by cases hi; rw [next]; exact hnext⟩
  | wrote next clean records =>
    constructor
    · rw [records, ← append_assoc, map_append, hn.seqs, length_append,
        length_singleton, List.range'_1_concat]
      simp only [map_cons, map_nil, hnext, Nat.add_comm]
    · intro i hi
      cases hi
      rw [next, hnext, length_append, length_singleton]
  | failed clock next records =>
    refine ⟨?_, fun i hi => by cases hi; rw [next]; exact hnext⟩
    rw [records]
    exact hn.seqs

theorem Numbered.step (hn : Numbered w segs) (he : Effect c w segs a w' segs')
    (hopen : ∀ config, a = .openRoot config → (∀ v ∈ segs, v.pending = none) ∧
      (segs.flatMap records = [] → w.acks = [])) :
    Numbered w' segs' := by
  cases he with
  | @opened config j dir label next =>
    obtain ⟨hp, hne⟩ := hopen config label
    refine ⟨?_, fun i hi => ?_⟩
    · rw [flatMap_recovered, flatMap_onDisk_of_pending hp]
      exact hn.seqs
    · cases hi
      rw [next]
      exact hn.nextAfter hp hne
  | closed => exact ⟨hn.seqs, by simp⟩
  | quiet running next =>
    refine ⟨hn.seqs, fun i hi => ?_⟩
    cases hi
    rw [next]
    exact hn.next _ running
  | line hl running wrote => exact hn.wrote running wrote
  | @stopped l j written w₁ _ ends hl running io wrote =>
    have h1 := hn.wrote running wrote
    rw [io] at wrote
    obtain ⟨hacks, hdel⟩ := wrote.cut_acks
    refine ⟨?_, by simp⟩
    rw [← hacks, ← hdel]
    exact h1.seqs
  | @pruned now j j' k dir label running next =>
    refine ⟨?_, fun i hi => ?_⟩
    · rw [append_assoc, ← flatMap_append, take_append_drop]
      exact hn.seqs
    · cases hi
      rw [next]
      exact hn.next _ running

/-! ## Replay from the start -/

theorem Keeps.head_number (h : Keeps c w segs) (hn : Numbered w segs) (hj : w.journal = some j) :
    ∀ v ∈ segs.head?, v.number = w.deleted.length + 1 := by
  intro v hv
  obtain ⟨rest, rfl⟩ : ∃ rest, segs = v :: rest := by
    cases segs with
    | nil => cases hv
    | cons u rest => cases hv; exact ⟨rest, rfl⟩
  cases hrec : v.records with
  | nil =>
    -- an empty file is the newest, so there is no other
    have hrest : rest = [] := by
      by_contra hne
      exact (@WellLaid.clean_of_append _ v rest [] h.laid hne).1 hrec
    subst hrest
    have hacks : w.acks.length = w.deleted.length := by
      rw [h.acked]
      simp [hrec]
    rw [(h.live j hj).empty_eq v (by simp) hrec, hn.next j hj, hacks]
  | cons r rs =>
    have hfirst : r.seq = v.number := v.first_eq r (by simp [hrec])
    have hat : ((w.deleted ++ (v :: rest).flatMap records).map (·.seq))[
        w.deleted.length]? = some r.seq := by
      rw [flatMap_cons, hrec, List.getElem?_map, List.getElem?_append_right (Nat.le_refl _)]
      simp
    have hlt : w.deleted.length < w.acks.length := by
      rw [h.acked, flatMap_cons, hrec]
      simp
    rw [hn.seqs, List.getElem?_range' hlt, Option.some.injEq] at hat
    omega

theorem Keeps.replay_start (h : Keeps c w segs) (hn : Numbered w segs) (hdel : w.deleted = [])
    (hj : w.journal = some j) (n : Nat) :
    (j.replayFrom c w.dir "0" n).1 = .ok (visible 0 n (segs.flatMap onDisk)) := by
  have hzero : parseU64 "0" = .ok 0 := parseU64_repr (n := 0) (by decide)
  rw [(h.live j hj).replayFrom_ok hzero ?_ n, selected_zero h.laid]
  intro v hv
  rw [h.head_number hn hj v hv, hdel]
  exact ⟨Nat.le_refl _, by decide⟩

end

/-! ## Runs in which no write fails and no process stops inside a call

Every file then holds acknowledged records and nothing else, and at least one (`CleanInv`).
`Continues` is the condition under which numbering goes on across a reopening: `open` never finds
the root without a segment after something was recorded. -/

section

variable {ε : Type}

namespace Call

/-- No write fails and the process does not stop inside the call. -/
def FaultFree : Call ε → Prop
  | .append _ io _ => io = none
  | .revoke _ io _ => io = none
  | .stopAppend .. | .stopRevoke .. => False
  | _ => True

def Retains : Call ε → Prop
  | .prune _ => False
  | _ => True

theorem FaultFree.io {a : Call ε} (ha : a.FaultFree) {l : Line ε} (hl : a.line = some l) :
    l.io = none := by
  cases a with
  | append now io event =>
    cases hl
    exact ha
  | revoke now io cursor =>
    obtain ⟨n, _, rfl⟩ := Option.map_eq_some_iff.1 hl
    exact ha
  | stopAppend | stopRevoke => cases ha
  | openRoot | close | replay | prune => cases hl

end Call

/-- No line is written with the largest sequence number. -/
def BelowMax (w : Root ε) (a : Call ε) : Prop :=
  ∀ l, a.line = some l → ∀ j, w.journal = some j → j.nextSeq < u64Max
  deriving Decidable

structure CleanInv (c : RecordCodec ε) (w : Root ε) (segs : List (SegmentImage ε)) : Prop where
  keeps : Keeps c w segs
  clean : ∀ v ∈ segs, v.Clean

variable {c : RecordCodec ε} {w w' : Root ε} {segs : List (SegmentImage ε)}
  {j : DurableEventJournal ε}

theorem cleanInv_empty : CleanInv c Root.empty [] := ⟨keeps_empty, by simp⟩

namespace CleanInv

section

variable (h : CleanInv c w segs)

include h

theorem tidy : ∀ v ∈ segs, v.Tidy := fun v hv => (h.clean v hv).2

theorem pending : ∀ v ∈ segs, v.pending = none :=
  fun v hv => (h.tidy v hv).1

theorem paths_eq_nil : segmentPaths w.dir = [] ↔ segs = [] := by
  rw [h.keeps.stores.segmentPaths h.keeps.laid, List.map_eq_nil_iff]

theorem records_eq_nil : segs.flatMap SegmentImage.records = [] ↔ segs = [] := by
  constructor
  · intro hnil
    cases segs with
    | nil => rfl
    | cons v rest =>
      rw [List.flatMap_cons, List.append_eq_nil_iff] at hnil
      exact absurd hnil.1 (h.clean v (by simp)).1
  · rintro rfl
    rfl

theorem step {a : Call ε} (ha : a.FaultFree) (hmax : BelowMax w a)
    (hs : w.step c a = some w') : ∃ segs', CleanInv c w' segs' ∧ Effect c w segs a w' segs' := by
  obtain ⟨segs', hk, he⟩ := h.keeps.step hs (fun l hl => ⟨h.tidy, hmax l hl⟩)
    (fun _ _ => h.pending) (fun _ _ => h.tidy)
  refine ⟨segs', ⟨hk, ?_⟩, he⟩
  cases he with
  | opened label next =>
    intro v hv
    obtain ⟨u, hu, hne, rfl⟩ := mem_recovered hv
    exact ⟨hne, rfl, (h.clean u hu).2.2⟩
  | closed | quiet => exact h.clean
  | line hl running wrote =>
    rw [ha.io hl] at wrote
    cases wrote with
    | refused => exact h.clean
    | wrote next clean => exact clean
  | stopped ends hl running io wrote =>
    rw [ha.io hl] at io
    cases io
  | pruned => exact fun v hv => h.clean v (List.mem_of_mem_drop hv)

end

end CleanInv

/-! ## Numbering across reopenings -/

/-- `open` finds a segment, unless nothing was ever recorded. -/
def Continues (w : Root ε) (a : Call ε) : Prop :=
  ∀ config, a = .openRoot config → w.acks = [] ∨ segmentPaths w.dir ≠ []

instance {w : Root ε} {a : Call ε} : Decidable (Continues w a) :=
  match a with
  | .openRoot _ => decidable_of_iff (w.acks.isEmpty ∨ segmentPaths w.dir ≠ [])
      ⟨fun h _ _ => h.imp_left List.isEmpty_iff.1, fun h => (h _ rfl).imp_left List.isEmpty_iff.2⟩
  | .close | .append .. | .revoke .. | .replay .. | .prune .. | .stopAppend .. | .stopRevoke .. =>
    .isTrue fun _ h => by cases h

variable {a : Call ε}

/-! ## Runs without pruning -/

structure QuietInv (c : RecordCodec ε) (w : Root ε) (segs : List (SegmentImage ε)) : Prop where
  clean : CleanInv c w segs
  numbered : Numbered w segs
  deleted : w.deleted = []

theorem quietInv_empty : QuietInv c Root.empty [] := ⟨cleanInv_empty, numbered_empty, rfl⟩

/-- Nothing is deleted, so the files that `open` finds hold all that was recorded. -/
theorem QuietInv.step (h : QuietInv c w segs) (hfree : a.FaultFree) (hretains : a.Retains)
    (hmax : BelowMax w a) (hs : w.step c a = some w') :
    ∃ segs', QuietInv c w' segs' ∧ Effect c w segs a w' segs' := by
  obtain ⟨segs', h', he⟩ := h.clean.step hfree hmax hs
  have hempty : segs.flatMap SegmentImage.records = [] → w.acks = [] := by
    intro hnil
    rw [h.clean.keeps.acked, h.deleted, hnil]
    rfl
  have hn := h.numbered.step he fun _ _ => ⟨h.clean.pending, hempty⟩
  refine ⟨segs', ⟨h', hn, ?_⟩, he⟩
  cases he with
  | opened | closed | quiet => exact h.deleted
  | line hl running wrote => exact wrote.deleted.trans h.deleted
  | stopped => exact h.deleted
  | pruned label =>
    rw [label] at hretains
    cases hretains

end

end Traverse.Journal

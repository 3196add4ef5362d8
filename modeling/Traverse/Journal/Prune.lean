import Traverse.Journal.Cursor

/-!
# Journal.Prune

What `prune` may delete.

* `prunesWithin_iff`: which calls stay within what retention allows, exactly. They do unless the
  system refuses one of the deletions, since the entry leaves the list before the file is deleted,
  or the age rule, which reads the time of the last record of a segment only, takes a segment with
  a younger record in it (`pruned_too_much`).
-/

namespace Traverse.Journal

open List DurableEventJournal Machine

section

variable {ε : Type} {c : RecordCodec ε} {j : DurableEventJournal ε} {dir : Dir}
  {segs : List (SegmentImage ε)}

/-- What retention allows one `prune` call to do. The age rule is the first of its two loops. -/
structure PrunesWithin (c : RecordCodec ε) (j : DurableEventJournal ε)
    (refuse : String → Option String) (dir : Dir) (now : Int) : Prop where
  ok : ∀ deleted j' dir', j.prune refuse dir now = (.ok deleted, j', dir') →
    (∃ k ≤ j.sealed.length, deleted = (j.sealed.take k).map (·.path) ∧
      j'.sealed = j.sealed.drop k ∧ j'.active = j.active) ∧
    (∀ secs maxAge gone, nowSecs now = .ok secs → j.config.retentionMaxAgeSecs = some maxAge →
      (j.pruneAge refuse dir secs).1 = .ok gone →
      ∀ path ∈ gone, ∀ r ∈ fileRecords c dir path, maxAge < secs - r.writtenAtSecs) ∧
    ∀ maxTotal, j.config.retentionMaxTotalBytes = some maxTotal →
      (j'.segments.map (·.bytes)).sum ≤ maxTotal ∨ j'.sealed = []
  inStep : (j.prune refuse dir now).2.1.segments.map (·.path) =
    segmentPaths (j.prune refuse dir now).2.2

theorem Represents.paths (h : Represents c dir j segs) :
    j.segments.map (·.path) = segmentPaths dir := by
  rw [paths_of_described h.described, h.stores.segmentPaths h.laid]

theorem excessCount_within (maxTotal : Nat) (metas act : List SegmentMeta) {total : Nat}
    (htotal : total = ((metas ++ act).map (·.bytes)).sum) :
    ((metas.drop (excessCount maxTotal metas total) ++ act).map (·.bytes)).sum ≤ maxTotal ∨
      metas.drop (excessCount maxTotal metas total) = [] := by
  induction metas generalizing total with
  | nil => exact .inr rfl
  | cons seg metas ih =>
    unfold excessCount
    split
    · rename_i hle
      exact .inl (htotal ▸ hle)
    · refine ih ?_
      rw [htotal, cons_append, map_cons, sum_cons, Nat.add_sub_cancel_left]

theorem prunesWithin_iff (h : Represents c dir j segs) (refuse : String → Option String)
    (now : Int) :
    PrunesWithin c j refuse dir now ↔ ∀ secs, nowSecs now = .ok secs →
      (∀ seg ∈ j.sealed.take (j.victims secs), refuse seg.path = none) ∧
      ∀ maxAge, j.config.retentionMaxAgeSecs = some maxAge →
        ∀ seg ∈ j.sealed.take (j.ageVictims secs), ∀ r ∈ fileRecords c dir seg.path,
          maxAge < secs - r.writtenAtSecs := by
  cases hnow : nowSecs now with
  | error e =>
    have hr : j.prune refuse dir now = (.error (.err e), j, dir) := by
      simp only [DurableEventJournal.prune, hnow]
    refine ⟨fun _ _ he => (by cases he), fun _ => ⟨?_, ?_⟩⟩
    · intro _ _ _ he
      rw [hr] at he
      cases he
    · rw [hr]
      exact h.paths
  | ok secs =>
    rcases h.prune_cases refuse hnow with
      ⟨hk, hall, hage, dir', hr, hs⟩ | ⟨seg, hseg, hkept, e, sealed, dir', hr, hstranded⟩
    · constructor
      · rintro hp _ ⟨⟩
        refine ⟨hall, fun maxAge hmax seg hseg => ?_⟩
        exact (hp.ok _ _ _ hr).2.1 secs maxAge _ hnow hmax hage _ (mem_map_of_mem hseg)
      · intro hcond
        refine ⟨?_, by rw [hr]; exact (h.drop hk hs).paths⟩
        rw [hr]
        rintro _ _ _ ⟨⟩
        refine ⟨⟨_, hk, (h.paths_take hk).symm, rfl, rfl⟩, ?_, ?_⟩
        · rintro secs' maxAge gone hsecs hmax hgone path hpath
          cases hnow.symm.trans hsecs
          cases hage.symm.trans hgone
          obtain ⟨seg, hseg, rfl⟩ := mem_map.1 hpath
          exact (hcond secs rfl).2 maxAge hmax seg hseg
        · intro maxTotal hmax
          have hwithin := excessCount_within maxTotal (j.sealed.drop (j.ageVictims secs))
            j.active.toList rfl
          rw [drop_drop] at hwithin
          simpa only [victims, sizeVictims, hmax, segments, without] using hwithin
    · constructor
      · intro hp
        have hin := hp.inStep
        rw [hr] at hin
        exact absurd (hin ▸ hstranded.1) hstranded.2
      · intro hcond
        exact absurd ((hcond secs rfl).1 seg hseg) hkept

section

open Events

/-- Every file holds one record, and the root may hold one byte. -/
def twoFiles : List (Call TraverseEvent) :=
  [.openRoot { JournalConfig.default with maxSegmentBytes := 1, retentionMaxTotalBytes := some 1 },
    .append 0 none (orderCreated "evt-1"), .append 0 none (orderCreated "evt-2")]

theorem prunesWithin_iff_tight : ∃ w j, run (Root.step eventCodec) .empty twoFiles = some w ∧
    w.journal = some j ∧ j.victims 0 = 1 ∧ PrunesWithin eventCodec j allowAll w.dir 0 := by
  simp only [exists_and_left]
  refine exists_run (P := fun w a => BelowMax w a ∧ Continues w a) (D := fun w =>
      ∃ j, w.journal = some j ∧ j.victims 0 = 1 ∧ j.config.retentionMaxAgeSecs = none)
    (by rw [eventCodec_eq]; decide +kernel) fun w hpath ⟨j, hj, hvictims, hage⟩ => ?_
  obtain ⟨segs, h, _⟩ := clean_run (by simp [twoFiles, Call.FaultFree]) hpath.1 hpath.2
  refine ⟨j, hj, hvictims, ?_⟩
  refine (prunesWithin_iff (h.keeps.live j hj) allowAll 0).2 fun secs _ => ⟨fun _ _ => rfl, ?_⟩
  rw [hage]
  rintro _ ⟨⟩

/-- The clock reads 5 s, then 0 s; the next process has no active segment. -/
def clockSetBack : List (Call TraverseEvent) :=
  [.openRoot aged, .append 5000000000 none (orderCreated "evt-1"),
    .append 0 none (orderCreated "evt-2"), .close, .openRoot aged]

def denyAll : String → Option String := fun _ => some "Permission denied (os error 13)"

/-- At 2 s the first of the two records is not a second old. -/
theorem pruned_too_much : ∃ w j, run (Root.step eventCodec) .empty clockSetBack = some w ∧
    w.journal = some j ∧ ¬ PrunesWithin eventCodec j allowAll w.dir 2000000000 ∧
    ¬ PrunesWithin eventCodec j denyAll w.dir 2000000000 := by
  obtain ⟨w, hrun, j, hj, hmax, hok, hgone, ⟨r, hr, hyoung⟩, hstranded⟩ :
      ∃ w, run (Root.step eventCodec) .empty clockSetBack = some w ∧ ∃ j, w.journal = some j ∧
      j.config.retentionMaxAgeSecs = some 1 ∧
      (j.prune allowAll w.dir 2000000000).1 = .ok [segmentName 1] ∧
      (j.pruneAge allowAll w.dir 2).1 = .ok [segmentName 1] ∧
      (∃ r ∈ fileRecords eventCodec w.dir (segmentName 1), ¬ 1 < 2 - r.writtenAtSecs) ∧
      (j.prune denyAll w.dir 2000000000).2.1.segments.map (·.path) ≠
        segmentPaths (j.prune denyAll w.dir 2000000000).2.2 := by
    rw [eventCodec_eq]
    decide +kernel
  refine ⟨w, j, hrun, hj, fun hp => hyoung ?_, fun hp => hstranded hp.inStep⟩
  exact (hp.ok _ _ _ (Prod.ext hok rfl)).2.1 2 1 _ rfl hmax hgone _ (mem_singleton.2 rfl) r hr

end

end

end Traverse.Journal

import Traverse.Events.Codec
import Traverse.Journal.Effect

/-!
# Journal.Layout

A replay shows what was recorded, whatever files it lies in. `LayoutRun c calls w` is a run of
successful calls without pruning, with any configurations, clock readings, reopenings and earlier
replays. `replay_layout_independent`: two such runs that recorded the same history replay the
same list from every cursor, and that list is `owed`.

The scan skips every segment that ends at or before the cursor, revocations included. That loses
nothing when revocations name earlier records only (`Backward`), which `append_revocation` does
not check: `forward_revocation_depends_on_layout`.
-/

namespace Traverse.Journal

open Lines Decimal List SegmentImage Machine

section

variable {ε : Type}

/-- A revocation names a number that has been given out, or its own. -/
def Backward (w : Root ε) (a : Call ε) : Prop :=
  ∀ l, a.line = some l → ∀ j, w.journal = some j → ∀ s ∈ l.revokes, s ≤ j.nextSeq
  deriving Decidable

structure LayoutRun (c : RecordCodec ε) (calls : List (Call ε)) (w : Root ε) : Prop where
  quiet : ∀ a ∈ calls, a.FaultFree ∧ a.Retains
  along : Along (Root.step c) (fun w a => BelowMax w a ∧ Backward w a) .empty calls
  run : run (Root.step c) .empty calls = some w

/-- What was recorded, in order, without cursors. -/
def Root.history (w : Root ε) : List (Option ε × Option Nat) :=
  w.acks.map fun a => (a.event, a.revokes)

variable {c : RecordCodec ε} {w w' : Root ε} {segs : List (SegmentImage ε)}
  {j : DurableEventJournal ε}

/-! ## Revocations look back -/

structure LayoutInv (c : RecordCodec ε) (w : Root ε) (segs : List (SegmentImage ε)) : Prop where
  quiet : QuietInv c w segs
  back : ∀ r ∈ segs.flatMap records, ∀ s ∈ r.revokes, s ≤ r.seq

theorem LayoutInv.step {a : Call ε} (h : LayoutInv c w segs) (ha : a.FaultFree ∧ a.Retains)
    (hmax : BelowMax w a) (hback : Backward w a) (hs : w.step c a = some w') :
    ∃ segs', LayoutInv c w' segs' := by
  obtain ⟨segs', h', he⟩ := h.quiet.step ha.1 ha.2 hmax hs
  refine ⟨segs', h', ?_⟩
  cases he with
  | opened =>
    rw [flatMap_recovered, flatMap_onDisk_of_pending h.quiet.clean.pending]
    exact h.back
  | closed | quiet => exact h.back
  | @line l i _ _ hl running wrote =>
    rw [ha.1.io hl] at wrote
    cases wrote with
    | refused => exact h.back
    | wrote next clean records =>
      rw [records]
      intro r hr s hsr
      rcases mem_append.1 hr with hr | hr
      · exact h.back r hr s hsr
      rw [mem_singleton] at hr
      subst hr
      exact hback l hl i running s hsr
  | stopped ends hl running io =>
    rw [ha.1.io hl] at io
    cases io
  | pruned label =>
    rw [label] at ha
    cases ha.2

theorem LayoutRun.inv {calls : List (Call ε)} (h : LayoutRun c calls w) :
    ∃ segs, LayoutInv c w segs := by
  refine invariant (fun w => ∃ segs, LayoutInv c w segs) ?_
    ⟨[], quietInv_empty, by simp⟩ (h.along.and_mem h.quiet) h.run
  rintro s a s' ⟨segs, hi⟩ ⟨⟨hmax, hback⟩, ha⟩ hs
  exact hi.step ha hmax hback hs

/-! ## The skip rule loses nothing -/

theorem filterMap_selected (after : Nat) (ht : ∀ v ∈ segs, v.Tidy) :
    (selected after segs).filterMap (eventAfter after) =
      (segs.flatMap records).filterMap (eventAfter after) := by
  induction segs with
  | nil => rfl
  | cons v segs ih =>
    have ih := ih fun u hu => ht u (mem_cons_of_mem v hu)
    have hv : v.onDisk = v.records := (ht v mem_cons_self).onDisk
    rw [flatMap_cons, filterMap_append, ← ih]
    by_cases hlast : after < v.lastSeq
    · simp [selected, hlast, hv]
    have hnone : v.records.filterMap (eventAfter after) = [] := by
      rw [filterMap_eq_nil_iff]
      intro r hr
      have hle := v.le_lastSeq hr
      have hnot : ¬ after < r.seq := by omega
      cases hrev : r.revokes <;> simp [eventAfter, hrev, hnot]
    simp [selected, hlast, hnone]

theorem mem_revocations_selected {after n : Nat} (hn : after < n) (ht : ∀ v ∈ segs, v.Tidy)
    (hback : ∀ r ∈ segs.flatMap records, ∀ s ∈ r.revokes, s ≤ r.seq) :
    n ∈ revocations (selected after segs) ↔
      n ∈ revocations (segs.flatMap records) := by
  constructor
  · intro h
    obtain ⟨r, hr, hrev⟩ := mem_filterMap.1 h
    obtain ⟨v, hv, hr⟩ := mem_flatMap.1 hr
    have hv := (mem_filter.1 hv).1
    rw [(ht v hv).onDisk] at hr
    exact mem_filterMap.2 ⟨r, mem_flatMap.2 ⟨v, hv, hr⟩, hrev⟩
  · intro h
    obtain ⟨r, hr, hrev⟩ := mem_filterMap.1 h
    have hle := hback r hr n hrev
    obtain ⟨v, hv, hr⟩ := mem_flatMap.1 hr
    have hlast := v.le_lastSeq hr
    refine mem_filterMap.2 ⟨r, mem_flatMap.2 ⟨v, mem_filter.2 ⟨hv, ?_⟩, ?_⟩, hrev⟩
    · exact decide_eq_true (by omega)
    · rw [(ht v hv).onDisk]
      exact hr

theorem visible_selected (after n : Nat) (ht : ∀ v ∈ segs, v.Tidy)
    (hback : ∀ r ∈ segs.flatMap records, ∀ s ∈ r.revokes, s ≤ r.seq) :
    visible after n (selected after segs) =
      visible after n (segs.flatMap records) := by
  have hfilter : ∀ p ∈ (segs.flatMap records).filterMap (eventAfter after),
      decide (p.1 ∉ revocations (selected after segs)) =
        decide (p.1 ∉ revocations (segs.flatMap records)) := by
    intro p hp
    obtain ⟨r, _, he⟩ := mem_filterMap.1 hp
    rw [decide_eq_decide, not_iff_not]
    exact mem_revocations_selected (eventAfter_lt he) ht hback
  rw [visible, visible, visibleAll, visibleAll, filterMap_selected after ht,
    filter_congr hfilter]

theorem LayoutInv.replay (h : LayoutInv c w segs) (hj : w.journal = some j) {cursor : String}
    {after : Nat} (hp : parseU64 cursor = .ok after) (hafter : after < u64Max ∨ w.acks = [])
    (n : Nat) : (j.replayFrom c w.dir cursor n).1 = .ok (owed after n w.acks) := by
  have hk := h.quiet.clean.keeps
  have hle : ∀ r ∈ segs.flatMap records, r.seq ≤ u64Max := by
    intro r hr
    obtain ⟨v, hv, hr⟩ := mem_flatMap.1 hr
    exact Nat.le_of_lt (hk.small v hv r (mem_append_left _ hr))
  rw [(hk.live j hj).replayFrom_ok hp (fun v hv => ⟨?_, ?_⟩) n,
    visible_selected after n h.quiet.clean.tidy h.back, visible_eq_owed after n hle, hk.acked,
    h.quiet.deleted, nil_append]
  · rw [hk.head_number h.quiet.numbered hj v hv, h.quiet.deleted]
    exact Nat.succ_le_succ (Nat.zero_le after)
  rcases hafter with hlt | hnil
  · exact hlt
  -- nothing was recorded, so there is no file
  have hnone : segs.flatMap records = [] := by
    have hmap := hk.acked
    rw [hnil, h.quiet.deleted, nil_append] at hmap
    exact map_eq_nil_iff.1 hmap.symm
  rw [h.quiet.clean.records_eq_nil.1 hnone] at hv
  cases hv

/-! ## Cursors are positions in the history -/

theorem ack_cursors (hk : Keeps c w segs) (hn : Numbered w segs) :
    w.acks.map Ack.cursor = (List.range' 1 w.acks.length).map Nat.repr := by
  rw [← hn.seqs, hk.acked, map_map, map_map]
  rfl

theorem acks_ext : ∀ {as bs : List (Ack ε)}, as.map Ack.cursor = bs.map Ack.cursor →
    as.map (fun a => (a.event, a.revokes)) = bs.map (fun a => (a.event, a.revokes)) → as = bs := by
  intro as
  induction as with
  | nil =>
    intro bs hcur _
    exact (map_eq_nil_iff.1 hcur.symm).symm
  | cons a as ih =>
    intro bs hcur hrec
    cases bs with
    | nil => cases hcur
    | cons b bs =>
      obtain ⟨hc, hcur⟩ := List.cons.inj hcur
      obtain ⟨hr, hrec⟩ := List.cons.inj hrec
      obtain ⟨he, hv⟩ := Prod.mk.inj hr
      have hab : a = b := by
        cases a
        simp only at hc he hv
        rw [hc, he, hv]
      rw [ih hcur hrec, hab]

theorem replay_layout_independent {calls₁ calls₂ : List (Call ε)} {w₁ w₂ : Root ε}
    {j₁ j₂ : DurableEventJournal ε} {cursor : String} {after : Nat}
    (h₁ : LayoutRun c calls₁ w₁) (h₂ : LayoutRun c calls₂ w₂) (hsame : w₁.history = w₂.history)
    (hj₁ : w₁.journal = some j₁) (hj₂ : w₂.journal = some j₂) (hp : parseU64 cursor = .ok after)
    (hafter : after < u64Max ∨ w₁.acks = []) (n : Nat) :
    (j₁.replayFrom c w₁.dir cursor n).1 = .ok (owed after n w₁.acks) ∧
      (j₂.replayFrom c w₂.dir cursor n).1 = (j₁.replayFrom c w₁.dir cursor n).1 := by
  obtain ⟨segs₁, hi₁⟩ := h₁.inv
  obtain ⟨segs₂, hi₂⟩ := h₂.inv
  have hlen : w₁.acks.length = w₂.acks.length := by
    have := congrArg List.length hsame
    rwa [Root.history, Root.history, length_map, length_map] at this
  have hacks : w₁.acks = w₂.acks := by
    refine acks_ext ?_ hsame
    rw [ack_cursors hi₁.quiet.clean.keeps hi₁.quiet.numbered,
      ack_cursors hi₂.quiet.clean.keeps hi₂.quiet.numbered, hlen]
  have hr₁ := hi₁.replay hj₁ hp hafter n
  have hr₂ := hi₂.replay hj₂ hp (hacks ▸ hafter) n
  exact ⟨hr₁, by rw [hr₁, hr₂, hacks]⟩

/-! ## A revocation ahead of its record -/

/-- Every record is a segment of its own. -/
def single : JournalConfig := { JournalConfig.default with maxSegmentBytes := 1 }

open Events in
/-- One record read as written, and after a replay and a reopening. -/
theorem replay_layout_independent_reopened : ∃ w₁ w₂ j₁ j₂,
    LayoutRun eventCodec [.openRoot .default, .append 0 none (orderCreated "evt-1")] w₁ ∧
    LayoutRun eventCodec [.openRoot single, .append 0 none (orderCreated "evt-1"),
      .replay "0" 10, .close, .openRoot .default] w₂ ∧
    w₁.journal = some j₁ ∧ w₂.journal = some j₂ ∧
    (j₁.replayFrom eventCodec w₁.dir "0" 10).1 = .ok [("1", orderCreated "evt-1")] ∧
    (j₂.replayFrom eventCodec w₂.dir "0" 10).1 = (j₁.replayFrom eventCodec w₁.dir "0" 10).1 := by
  have hrun₁ : ∃ w, run (Root.step eventCodec) .empty [.openRoot .default,
      .append 0 none (orderCreated "evt-1")] = some w ∧
      w.history = [(some (orderCreated "evt-1"), none)] ∧ ∃ j, w.journal = some j ∧
      (j.replayFrom eventCodec w.dir "0" 10).1 = .ok [("1", orderCreated "evt-1")] := by
    rw [eventCodec_eq]
    decide +kernel
  have hrun₂ : ∃ w, run (Root.step eventCodec) .empty [.openRoot single,
      .append 0 none (orderCreated "evt-1"), .replay "0" 10, .close, .openRoot .default] = some w ∧
      w.history = [(some (orderCreated "evt-1"), none)] ∧ w.journal.isSome := by
    rw [eventCodec_eq]
    decide +kernel
  have halong : ∀ config ∈ [JournalConfig.default, single],
      Along (Root.step eventCodec) (fun w a => BelowMax w a ∧ Backward w a) .empty
        ([.openRoot config, .append 0 none (orderCreated "evt-1")] ++
          [.replay "0" 10, .close, .openRoot .default]) := by
    rw [eventCodec_eq]
    decide +kernel
  obtain ⟨w₁, hrun₁, hhist₁, j₁, hj₁, hreplay⟩ := hrun₁
  obtain ⟨w₂, hrun₂, hhist₂, hj₂⟩ := hrun₂
  obtain ⟨j₂, hj₂⟩ := Option.isSome_iff_exists.1 hj₂
  have h₁ : LayoutRun eventCodec _ w₁ :=
    ⟨by simp [Call.FaultFree, Call.Retains], (halong .default (by simp)).left, hrun₁⟩
  have h₂ : LayoutRun eventCodec _ w₂ :=
    ⟨by simp [Call.FaultFree, Call.Retains], halong single (by simp), hrun₂⟩
  have hzero : parseU64 "0" = .ok 0 := parseU64_repr (n := 0) (by decide)
  have hsame := replay_layout_independent h₁ h₂ (hhist₁.trans hhist₂.symm) hj₁ hj₂ hzero
    (.inl (by decide)) 10
  exact ⟨w₁, w₂, j₁, j₂, h₁, h₂, hj₁, hj₂, hreplay, hsame.2⟩

open Events in
/-- The same two calls, in one segment or in two. -/
theorem forward_revocation_depends_on_layout : ∃ w₁ w₂ j₁ j₂,
    run (Root.step eventCodec) .empty [.openRoot .default, .revoke 0 none "2",
      .append 0 none (orderCreated "evt-1")] = some w₁ ∧
    run (Root.step eventCodec) .empty [.openRoot single, .revoke 0 none "2",
      .append 0 none (orderCreated "evt-1")] = some w₂ ∧
    w₁.history = w₂.history ∧ w₁.journal = some j₁ ∧ w₂.journal = some j₂ ∧
    (j₁.replayFrom eventCodec w₁.dir "1" 10).1 = .ok [] ∧
    (j₂.replayFrom eventCodec w₂.dir "1" 10).1 = .ok [("2", orderCreated "evt-1")] ∧
    (j₁.replayFrom eventCodec w₁.dir "18446744073709551615" 10).1 = .error .overflow := by
  simp only [exists_and_left, eventCodec_eq]
  decide +kernel

end

end Traverse.Journal

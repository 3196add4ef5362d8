import Mathlib.Data.List.Count
import Mathlib.Data.List.Nodup
import Traverse.Sys.Machine

/-!
# Proposal.Quota

`QuotaTracker`: three counters, each behind a lock of its own, and calls of `reserve` that take them
one after the other and give back what they have when a later one is full. A call is its state
between two lock sections, so that a run interleaves the sections of any number of calls.

* `slots_consistent`: a counter is the number of calls that hold a slot of its key.
* `quota_reservation_atomic`: a run in which no call is denied by the slot of a call in flight
  answers as one check of all three counters would.
* `transient_slot_denies`: a call denied by the slot of a call that is itself denied.
-/

namespace Traverse.Proposal

open List Machine

open Function (update)

inductive Dimension
  | principal
  | app
  | workspace
  deriving DecidableEq, Repr

def Dimension.scope : Dimension → String
  | .principal => "principal"
  | .app => "app"
  | .workspace => "workspace"

structure QuotaLimits where
  maxConcurrentPerPrincipal : Nat := 4
  maxConcurrentPerApp : Nat := 16
  maxConcurrentPerWorkspace : Nat := 32

def QuotaLimits.max (limits : QuotaLimits) : Dimension → Nat
  | .principal => limits.maxConcurrentPerPrincipal
  | .app => limits.maxConcurrentPerApp
  | .workspace => limits.maxConcurrentPerWorkspace

structure QuotaDenial where
  (scope message : String)
  deriving DecidableEq, Repr

/-- A lock section; a poisoned lock is `none`. -/
def reserveDimension (counts : Option (String → Nat)) (key : String) (limit : Nat)
    (scope : String) : Except QuotaDenial (String → Nat) :=
  match counts with
  | none => .error ⟨"store", "quota tracker is unavailable; failing closed"⟩
  | some counts =>
    if counts key ≥ limit then
      .error ⟨scope, s!"{scope} '{key}' is at its concurrency limit of {limit}"⟩
    else .ok (update counts key (counts key + 1))

def releaseDimension (counts : String → Nat) (key : String) : String → Nat :=
  update counts key (counts key - 1)

/-- The order in which `reserve` and `release` go through the counters. -/
def order : List Dimension := [.principal, .app, .workspace]

/-- A call of `reserve` and what becomes of its reservation. It has returned when nothing is
left. -/
inductive Phase
  | reserving (taken rest : List Dimension)
  | undoing (denial : QuotaDenial) (left : List Dimension)
  | dropping (left : List Dimension)
  deriving DecidableEq, Repr

def Phase.held : Phase → List Dimension
  | .reserving taken _ => taken
  | .undoing _ left => left
  | .dropping left => left

def Phase.Running : Phase → Prop
  | .reserving _ rest => rest ≠ []
  | .undoing _ left => left ≠ []
  | .dropping left => left ≠ []

def Phase.Ordered : Phase → Prop
  | .reserving taken rest => taken ++ rest = order
  | .undoing _ left => left.Nodup
  | .dropping left => left.Nodup

structure Call where
  keys : Dimension → String
  /-- The approval token of the execution, which the tracker does not look at. -/
  token : Option String
  phase : Phase

def Call.live (call : Call) : Bool := call.phase = .reserving order []

def Call.holds (call : Call) (d : Dimension) (key : String) : Bool :=
  call.keys d = key && call.phase.held.contains d

structure Tracker where
  slots : Dimension → String → Nat
  calls : List Call

inductive Label
  | reserve (keys : Dimension → String) (token : Option String)
  | drop (call : Nat)
  | lock (call : Nat)

namespace Tracker

def new : Tracker := ⟨fun _ _ => 0, []⟩

/-- The reservations that were handed out and not yet dropped. -/
def live (s : Tracker) (d : Dimension) (key : String) : Nat :=
  s.calls.countP fun call => call.live && call.keys d = key

def step (limits : QuotaLimits) (s : Tracker) : Label → Option Tracker
  | .reserve keys token =>
    some { s with calls := s.calls ++ [⟨keys, token, .reserving [] order⟩] }
  | .drop i =>
    match s.calls[i]? with
    | some ⟨keys, token, .reserving _ []⟩ =>
      some { s with calls := s.calls.set i ⟨keys, token, .dropping order⟩ }
    | _ => none
  | .lock i =>
    match s.calls[i]? with
    | some ⟨keys, token, .reserving taken (d :: rest)⟩ =>
      match reserveDimension (some (s.slots d)) (keys d) (limits.max d) d.scope with
      | .ok counts =>
        some ⟨update s.slots d counts, s.calls.set i ⟨keys, token, .reserving (taken ++ [d]) rest⟩⟩
      | .error denial => some { s with calls := s.calls.set i ⟨keys, token, .undoing denial taken⟩ }
    | some ⟨keys, token, .undoing denial (d :: left)⟩ =>
      some ⟨update s.slots d (releaseDimension (s.slots d) (keys d)),
        s.calls.set i ⟨keys, token, .undoing denial left⟩⟩
    | some ⟨keys, token, .dropping (d :: left)⟩ =>
      some ⟨update s.slots d (releaseDimension (s.slots d) (keys d)),
        s.calls.set i ⟨keys, token, .dropping left⟩⟩
    | _ => none

/-! ## Counters and holders -/

structure Consistent (limits : QuotaLimits) (s : Tracker) : Prop where
  counts : ∀ d key, s.slots d key = s.calls.countP (·.holds d key)
  bounded : ∀ d key, s.slots d key ≤ limits.max d
  ordered : ∀ call ∈ s.calls, call.phase.Ordered

variable {limits : QuotaLimits} {s t : Tracker} {i : Nat} {keys : Dimension → String}
  {token : Option String} {phase phase' : Phase} {d : Dimension} {key : String}

theorem countP_replace {α : Type*} {p : α → Bool} {l : List α} {i : Nat} {a : α}
    (h : l[i]? = some a) (b : α) :
    (l.set i b).countP p + (p a).toNat = l.countP p + (p b).toNat := by
  induction l generalizing i with
  | nil => cases h
  | cons x l ih =>
    cases i with
    | zero =>
      cases h
      rw [set_cons_zero, countP_cons, countP_cons]
      cases p a <;> cases p b <;> rfl
    | succ i =>
      have := ih h
      rw [set_cons_succ, countP_cons, countP_cons]
      omega

section

variable (h : Consistent limits s)

include h

/-- One call goes on, and the counters follow what it holds. -/
theorem Consistent.replace
    (hcall : s.calls[i]? = some ⟨keys, token, phase⟩) {slots : Dimension → String → Nat}
    (hordered : phase'.Ordered) (hbounded : ∀ d key, slots d key ≤ limits.max d)
    (hslots : ∀ d key, slots d key + (Call.holds ⟨keys, token, phase⟩ d key).toNat =
      s.slots d key + (Call.holds ⟨keys, token, phase'⟩ d key).toNat) :
    Consistent limits ⟨slots, s.calls.set i ⟨keys, token, phase'⟩⟩ := by
  refine ⟨fun d key => ?_, hbounded, fun call hmem => ?_⟩
  · have hcount := countP_replace (p := (·.holds d key)) hcall ⟨keys, token, phase'⟩
    have := hslots d key
    have := h.counts d key
    simp only at hcount ⊢
    omega
  · obtain hmem | rfl := mem_or_eq_of_mem_set hmem
    · exact h.ordered call hmem
    · exact hordered

theorem Consistent.release {left : List Dimension}
    (hcall : s.calls[i]? = some ⟨keys, token, phase⟩) (hheld : phase.held = d :: left)
    (hleft : phase'.held = left) (hnodup : (d :: left).Nodup) (hordered : phase'.Ordered) :
    Consistent limits ⟨update s.slots d (releaseDimension (s.slots d) (keys d)),
      s.calls.set i ⟨keys, token, phase'⟩⟩ := by
  have hpos : 0 < s.slots d (keys d) := by
    rw [h.counts]
    exact countP_pos_iff.2 ⟨_, mem_of_getElem? hcall, by simp [Call.holds, hheld]⟩
  have hnot := (nodup_cons.1 hnodup).1
  refine h.replace hcall hordered (fun e key => ?_) fun e key => ?_
  · refine Nat.le_trans ?_ (h.bounded e key)
    by_cases he : e = d
    · subst he
      by_cases hkey : key = keys e <;> simp [releaseDimension, hkey]
    · simp [he]
  · by_cases he : e = d
    · subst he
      by_cases hkey : key = keys e
      · subst hkey
        simp [releaseDimension, Call.holds, hheld, hleft, hnot]
        omega
      · simp [releaseDimension, Call.holds, hkey, Ne.symm hkey]
    · simp [Call.holds, hheld, hleft, he]

theorem Consistent.acquire {taken rest : List Dimension}
    (hcall : s.calls[i]? = some ⟨keys, token, .reserving taken (d :: rest)⟩)
    (hfree : s.slots d (keys d) < limits.max d) :
    Consistent limits ⟨update s.slots d (update (s.slots d) (keys d) (s.slots d (keys d) + 1)),
      s.calls.set i ⟨keys, token, .reserving (taken ++ [d]) rest⟩⟩ := by
  have hordered : taken ++ d :: rest = order := h.ordered _ (mem_of_getElem? hcall)
  have hnot : d ∉ taken := by
    have hnodup : (taken ++ d :: rest).Nodup := hordered ▸ by decide
    exact fun hd => disjoint_of_nodup_append hnodup hd mem_cons_self
  refine h.replace hcall ?_ (fun e key => ?_) fun e key => ?_
  · exact (append_assoc taken [d] rest).trans hordered
  · have := h.bounded e key
    by_cases he : e = d
    · subst he
      by_cases hkey : key = keys e
      · subst hkey
        rw [Function.update_self, Function.update_self]
        exact hfree
      · simpa [hkey] using this
    · simpa [he] using this
  · by_cases he : e = d
    · subst he
      by_cases hkey : key = keys e
      · subst hkey
        simp [Call.holds, Phase.held, hnot]
      · simp [Call.holds, hkey, Ne.symm hkey]
    · have hmem : (taken ++ [d]).contains e = taken.contains e := by simp [he]
      simp only [Call.holds, Phase.held, hmem, Function.update_of_ne he]

theorem Consistent.step {a : Label} (hstep : s.step limits a = some t) : Consistent limits t := by
  cases a with
  | reserve keys token =>
    cases hstep
    refine ⟨fun d key => ?_, h.bounded, fun call hmem => ?_⟩
    · simp [h.counts, Call.holds, Phase.held]
    · obtain hmem | hmem := mem_append.1 hmem
      · exact h.ordered call hmem
      · rw [mem_singleton.1 hmem]
        rfl
  | drop i =>
    simp only [Tracker.step] at hstep
    split at hstep
    case h_1 keys token taken hcall =>
      cases hstep
      have hordered : taken ++ [] = order := h.ordered _ (mem_of_getElem? hcall)
      rw [append_nil] at hordered
      subst hordered
      exact h.replace hcall (by decide : order.Nodup) h.bounded fun _ _ => rfl
    · cases hstep
  | lock i =>
    simp only [Tracker.step] at hstep
    split at hstep
    case h_1 keys token taken d rest hcall =>
      unfold reserveDimension at hstep
      by_cases hfull : s.slots d (keys d) ≥ limits.max d
      · simp only [if_pos hfull] at hstep
        cases hstep
        have hordered : taken ++ d :: rest = order := h.ordered _ (mem_of_getElem? hcall)
        have hnodup : (taken ++ d :: rest).Nodup := hordered ▸ by decide
        exact h.replace hcall (nodup_append.1 hnodup).1 h.bounded fun _ _ => rfl
      · simp only [if_neg hfull] at hstep
        cases hstep
        exact h.acquire hcall (Nat.lt_of_not_le hfull)
    case h_2 keys token denial d left hcall | h_3 keys token d left hcall =>
      cases hstep
      have hnodup : (d :: left).Nodup := h.ordered _ (mem_of_getElem? hcall)
      exact h.release hcall rfl rfl hnodup (nodup_cons.1 hnodup).2
    · cases hstep

end

theorem slots_consistent {as : List Label} (hrun : run (step limits) new as = some s) :
    Consistent limits s :=
  invariant (Consistent limits) (P := fun _ _ => True) (fun _ _ _ h _ => h.step)
    ⟨fun _ _ => rfl, fun _ _ => Nat.zero_le _, fun _ h => (not_mem_nil h).elim⟩
    (.of_forall (fun _ _ => trivial) _ _) hrun

/-! ## Live reservations -/

/-- The calls in flight that hold a slot. -/
def transient (s : Tracker) (d : Dimension) (key : String) : Nat :=
  s.calls.countP fun call => call.holds d key && !call.live

theorem live_held {call : Call} (h : call.live) (d : Dimension) : d ∈ call.phase.held := by
  rw [of_decide_eq_true h]
  cases d <;> decide

theorem live_add_transient (s : Tracker) (d : Dimension) (key : String) :
    s.live d key + s.transient d key = s.calls.countP (·.holds d key) := by
  rw [countP_eq_countP_filter_add s.calls (·.holds d key) (·.live), countP_filter,
    countP_filter]
  refine congrArg (· + _) (countP_congr fun call _ => ?_)
  constructor
  · intro h
    obtain ⟨hlive, hkey⟩ := Bool.and_eq_true_iff.1 h
    simp [Call.holds, hkey, hlive, live_held hlive]
  · intro h
    simp_all [Call.holds]

theorem Consistent.slots_eq (h : Consistent limits s) (d : Dimension) (key : String) :
    s.slots d key = s.live d key + s.transient d key := by
  rw [h.counts, live_add_transient]

theorem Consistent.transient_eq_zero (h : Consistent limits s)
    (hquiet : ∀ call ∈ s.calls, ¬ call.phase.Running) (d : Dimension) (key : String) :
    s.transient d key = 0 := by
  refine countP_eq_zero.2 fun call hmem => ?_
  obtain ⟨keys, token, phase⟩ := call
  cases phase with
  | reserving taken rest =>
    obtain rfl : rest = [] := not_not.1 (hquiet _ hmem)
    have hordered : taken ++ [] = order := h.ordered _ hmem
    rw [append_nil] at hordered
    simp [Call.live, hordered]
  | undoing denial left | dropping left =>
    obtain rfl : left = [] := not_not.1 (hquiet _ hmem)
    simp [Call.holds, Phase.held]

/-- Every run keeps the limits and, when nothing is running, counts the live reservations. A call
returns a reservation only where one check of the three counters would, and a denial is one that the
check would give exactly if no call in flight has a slot of the key. -/
theorem quota_reservation_atomic (limits : QuotaLimits) (as : List Label) (s : Tracker)
    (hrun : run (step limits) new as = some s) :
    (∀ d key, s.live d key ≤ limits.max d) ∧
      ((∀ call ∈ s.calls, ¬ call.phase.Running) → ∀ d key, s.slots d key = s.live d key) ∧
      ∀ i keys token taken d rest t,
        s.calls[i]? = some ⟨keys, token, .reserving taken (d :: rest)⟩ →
        s.step limits (.lock i) = some t →
        (t.calls[i]? = some ⟨keys, token, .reserving order []⟩ →
          ∀ e, s.live e (keys e) < limits.max e) ∧
        ∀ denial left, t.calls[i]? = some ⟨keys, token, .undoing denial left⟩ →
          denial.scope = d.scope ∧
            (s.live d (keys d) = limits.max d ↔ s.transient d (keys d) = 0) := by
  have h := slots_consistent hrun
  refine ⟨fun d key => ?_, fun hquiet d key => ?_, fun i keys token taken d rest t hcall hstep =>
    ?_⟩
  · have := h.bounded d key
    have := h.slots_eq d key
    omega
  · rw [h.slots_eq, h.transient_eq_zero hquiet, Nat.add_zero]
  · have hslots := h.slots_eq d (keys d)
    have hbounded := h.bounded d (keys d)
    have hi : i < s.calls.length := (List.getElem?_eq_some_iff.1 hcall).1
    simp only [step, hcall, reserveDimension] at hstep
    by_cases hfull : s.slots d (keys d) ≥ limits.max d
    · simp only [if_pos hfull] at hstep
      cases hstep
      rw [List.getElem?_set_self hi]
      refine ⟨fun hlive => (nomatch hlive), fun denial left hdenied => ?_⟩
      cases hdenied
      exact ⟨rfl, by omega⟩
    · simp only [if_neg hfull] at hstep
      cases hstep
      rw [List.getElem?_set_self hi]
      refine ⟨fun hlive e => ?_, fun denial left hdenied => nomatch hdenied⟩
      have htaken : taken ++ [d] = order := by
        simp only [Option.some.injEq, Call.mk.injEq, Phase.reserving.injEq] at hlive
        exact hlive.2.2.1
      have he : e ∈ taken ++ [d] := htaken ▸ by cases e <;> decide
      obtain he | he := mem_append.1 he
      · -- The call itself holds a slot that is not live.
        have hpos : 0 < s.transient e (keys e) :=
          countP_pos_iff.2 ⟨_, mem_of_getElem? hcall, by
            simp [Call.holds, Phase.held, Call.live, he]⟩
        have := h.slots_eq e (keys e)
        have := h.bounded e (keys e)
        omega
      · rw [mem_singleton.1 he]
        omega

def sampleKeys (principal app workspace : String) : Dimension → String
  | .principal => principal
  | .app => app
  | .workspace => workspace

/-- A reservation for `app` a is live. The next call takes the slot of `p`, finds `app` a full, and
has not given the slot of `p` back when the third call asks for it. -/
def overlapping : List Label :=
  [.reserve (sampleKeys "q" "a" "v") none, .lock 0, .lock 0, .lock 0,
    .reserve (sampleKeys "p" "a" "w") none, .lock 1, .lock 1,
    .reserve (sampleKeys "p" "b" "w") none, .lock 2, .lock 1]

/-- The second call is denied at `app` a, where the one slot is a live reservation's. -/
theorem quota_reservation_atomic_full : ∃ s t denial left,
    run (step ⟨1, 1, 1⟩) new (overlapping.take 6) = some s ∧ step ⟨1, 1, 1⟩ s (.lock 1) = some t ∧
      t.calls[1]? = some ⟨sampleKeys "p" "a" "w", none, .undoing denial left⟩ ∧
      denial.scope = "app" ∧ s.live .app "a" = 1 ∧ s.live .principal "p" ≤ 1 := by
  obtain ⟨hbound, -, hlock⟩ := quota_reservation_atomic ⟨1, 1, 1⟩ (overlapping.take 6) _ rfl
  obtain ⟨hscope, hfull⟩ := (hlock 1 _ _ _ _ _ _ rfl rfl).2 _ _ rfl
  exact ⟨_, _, _, _, rfl, rfl, rfl, hscope, hfull.2 rfl, hbound .principal "p"⟩

theorem transient_slot_denies :
    (run (step ⟨1, 1, 1⟩) new overlapping).map (·.calls.map (·.phase)) = some
      [.reserving order [], .undoing ⟨"app", "app 'a' is at its concurrency limit of 1"⟩ [],
        .undoing ⟨"principal", "principal 'p' is at its concurrency limit of 1"⟩ []] ∧
      ∀ n < 11, (run (step ⟨1, 1, 1⟩) new (overlapping.take n)).map
        (·.live .principal "p") = some 0 := by
  refine ⟨by decide +kernel, by decide +kernel⟩

end Tracker
end Traverse.Proposal

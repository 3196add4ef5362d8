import Traverse.Sys.Machine
import Traverse.Text.Decimal

/-!
# Storage.Coordinator

The exclusive writer lease of `DataStoreCoordinator`. Every call runs under one mutex, so a run is a
sequence of calls of any owners, with any generations. A call fails if the mutex is poisoned, but no
call poisons it.

`LeaseRun` remembers which leases were handed out and which were released; `leases_fenced` says that
`validate` accepts exactly those that were and were not.
-/

namespace Traverse.Storage

open List Machine

inductive DataStoreCoordinatorError where
  | ownerLocked
  | coordinatorUnavailable
  deriving DecidableEq, Repr

structure DataStoreCoordinator where
  generation : Nat
  owner : Option String
  poisoned : Bool

namespace DataStoreCoordinator

def new : DataStoreCoordinator := ⟨0, none, false⟩

variable (c : DataStoreCoordinator)

def acquire (owner : String) :
    Except DataStoreCoordinatorError Nat × DataStoreCoordinator :=
  if c.poisoned then (.error .coordinatorUnavailable, c)
  else if c.owner.isSome then (.error .ownerLocked, c)
  else if c.generation = Decimal.u64Max then (.error .coordinatorUnavailable, c)
  else (.ok (c.generation + 1), { c with generation := c.generation + 1, owner := some owner })

def validate (owner : String) (generation : Nat) :
    Except DataStoreCoordinatorError Unit :=
  if c.poisoned then .error .coordinatorUnavailable
  else if c.owner = some owner ∧ c.generation = generation then .ok ()
  else .error .ownerLocked

def release (owner : String) (generation : Nat) :
    Except DataStoreCoordinatorError Unit × DataStoreCoordinator :=
  if c.poisoned then (.error .coordinatorUnavailable, c)
  else if c.owner ≠ some owner ∨ c.generation ≠ generation then (.error .ownerLocked, c)
  else (.ok (), { c with owner := none })

variable {c c' : DataStoreCoordinator} {owner : String} {generation : Nat}
  {e : DataStoreCoordinatorError}

theorem validate_ok :
    c.validate owner generation = .ok () ↔
      c.poisoned = false ∧ c.owner = some owner ∧ c.generation = generation := by
  unfold validate
  split
  · next h => simp [h]
  · split
    · next h h' => simp [h, h']
    · next h h' => simp [h, h']

/-- Either nothing happened, or the lease was free and is taken with the next generation. -/
theorem acquire_cases (c : DataStoreCoordinator) (owner : String) :
    (∃ e, c.acquire owner = (.error e, c)) ∨
    c.poisoned = false ∧ c.owner = none ∧ c.acquire owner =
      (.ok (c.generation + 1), { c with generation := c.generation + 1, owner := some owner }) := by
  unfold acquire
  split
  · exact .inl ⟨_, rfl⟩
  next hpoisoned =>
  split
  · exact .inl ⟨_, rfl⟩
  next howner =>
  split
  · exact .inl ⟨_, rfl⟩
  · exact .inr ⟨by simpa using hpoisoned, by simpa using howner, rfl⟩

theorem release_cases (c : DataStoreCoordinator) (owner : String) (generation : Nat) :
    (∃ e, c.release owner generation = (.error e, c)) ∨
    c.owner = some owner ∧ c.generation = generation ∧
      c.release owner generation = (.ok (), { c with owner := none }) := by
  unfold release
  split
  · exact .inl ⟨_, rfl⟩
  split
  · exact .inl ⟨_, rfl⟩
  · next h =>
    rw [not_or, not_not, not_not] at h
    exact .inr ⟨h.1, h.2, rfl⟩

theorem acquire_error (h : c.acquire owner = (.error e, c')) : c' = c := by
  rcases c.acquire_cases owner with ⟨e', hfailed⟩ | ⟨-, -, htaken⟩
  · rw [hfailed, Prod.mk.injEq] at h
    exact h.2.symm
  · rw [htaken] at h
    cases h

theorem release_error (h : c.release owner generation = (.error e, c')) : c' = c := by
  rcases c.release_cases owner generation with ⟨e', hfailed⟩ | ⟨-, -, hfreed⟩
  · rw [hfailed, Prod.mk.injEq] at h
    exact h.2.symm
  · rw [hfreed] at h
    cases h

end DataStoreCoordinator

inductive CoordinatorCall where
  | acquire (owner : String)
  | validate (owner : String) (generation : Nat)
  | release (owner : String) (generation : Nat)

structure LeaseRun where
  coordinator : DataStoreCoordinator
  /-- The leases that `acquire` returned, in order. -/
  (issued released : List (String × Nat))

namespace LeaseRun

def init : LeaseRun := ⟨.new, [], []⟩

def step (s : LeaseRun) : CoordinatorCall → Option LeaseRun
  | .acquire owner => some <| match s.coordinator.acquire owner with
    | (.ok generation, c) =>
      { s with coordinator := c, issued := s.issued ++ [(owner, generation)] }
    | (.error _, c) => { s with coordinator := c }
  | .validate _ _ => some s
  | .release owner generation => some <| match s.coordinator.release owner generation with
    | (.ok (), c) => { s with coordinator := c, released := s.released ++ [(owner, generation)] }
    | (.error _, c) => { s with coordinator := c }

/-- Only the last lease can be live, and it is live as long as it has an owner. -/
structure Inv (s : LeaseRun) : Prop where
  healthy : s.coordinator.poisoned = false
  increasing : (s.issued.map Prod.snd).Pairwise (· < ·)
  bounded : ∀ lease ∈ s.issued, lease.2 ≤ s.coordinator.generation
  returned : ∀ lease ∈ s.released, lease ∈ s.issued
  live : ∀ owner generation, (s.coordinator.owner = some owner ∧
    s.coordinator.generation = generation) ↔
      (owner, generation) ∈ s.issued ∧ (owner, generation) ∉ s.released

variable {s : LeaseRun}

theorem Inv.acquire (h : Inv s) (owner : String) (hfree : s.coordinator.owner = none) :
    Inv { s with
      coordinator := { s.coordinator with
        generation := s.coordinator.generation + 1, owner := some owner }
      issued := s.issued ++ [(owner, s.coordinator.generation + 1)] } := by
  have hold : ∀ lease ∈ s.issued, lease.2 ≠ s.coordinator.generation + 1 := by
    intro lease hlease heq
    have := h.bounded lease hlease
    omega
  refine ⟨h.healthy, ?_, fun lease hlease => ?_, fun lease hlease => ?_, fun rival generation => ?_⟩
  · rw [map_append, pairwise_append]
    refine ⟨h.increasing, pairwise_singleton _ _, fun g hg g' hg' => ?_⟩
    obtain ⟨lease, hlease, rfl⟩ := mem_map.1 hg
    rw [map_singleton, mem_singleton] at hg'
    have := h.bounded lease hlease
    omega
  · rcases mem_append.1 hlease with hlease | hlease
    · exact Nat.le_succ_of_le (h.bounded lease hlease)
    · rw [mem_singleton] at hlease
      rw [hlease]
  · exact mem_append_left _ (h.returned lease hlease)
  · constructor
    · rintro ⟨hrival, rfl⟩
      cases hrival
      exact ⟨by simp, fun hreleased => hold _ (h.returned _ hreleased) rfl⟩
    · rintro ⟨hissued, hlive⟩
      rcases mem_append.1 hissued with hissued | hissued
      · -- Every earlier lease has been released, since nobody owned the lease.
        have howner := ((h.live rival generation).2 ⟨hissued, hlive⟩).1
        rw [hfree] at howner
        cases howner
      · rw [mem_singleton, Prod.mk.injEq] at hissued
        exact ⟨by rw [hissued.1], hissued.2.symm⟩

theorem Inv.release (h : Inv s) {owner : String} (howner : s.coordinator.owner = some owner) :
    Inv { s with
      coordinator := { s.coordinator with owner := none }
      released := s.released ++ [(owner, s.coordinator.generation)] } := by
  have hlive := (h.live owner s.coordinator.generation).1 ⟨howner, rfl⟩
  refine ⟨h.healthy, h.increasing, h.bounded, fun lease hlease => ?_, fun rival generation => ?_⟩
  · rcases mem_append.1 hlease with hlease | hlease
    · exact h.returned lease hlease
    · rw [mem_singleton] at hlease
      rw [hlease]
      exact hlive.1
  · constructor
    · rintro ⟨hrival, -⟩
      cases hrival
    · rintro ⟨hissued, hnot⟩
      rw [mem_append, not_or] at hnot
      obtain ⟨howner', rfl⟩ := (h.live rival generation).2 ⟨hissued, hnot.1⟩
      rw [howner] at howner'
      cases howner'
      exact absurd (mem_singleton_self _) hnot.2

theorem Inv.step {s' : LeaseRun} {call : CoordinatorCall} (h : Inv s)
    (hstep : step s call = some s') : Inv s' := by
  cases call with
  | acquire owner =>
    cases hstep
    rcases s.coordinator.acquire_cases owner with ⟨e, hacquire⟩ | ⟨-, hfree, hacquire⟩
    · rw [hacquire]
      exact h
    · rw [hacquire]
      exact h.acquire owner hfree
  | validate owner generation =>
    cases hstep
    exact h
  | release owner generation =>
    cases hstep
    rcases s.coordinator.release_cases owner generation with ⟨e, hrelease⟩ | ⟨howner, rfl, hrelease⟩
    · rw [hrelease]
      exact h
    · rw [hrelease]
      exact h.release howner

theorem inv_init : Inv init := by
  refine ⟨rfl, List.Pairwise.nil, fun _ h => ?_, fun _ h => ?_, fun owner generation => ?_⟩
  · cases h
  · cases h
  · simp [init, DataStoreCoordinator.new]

end LeaseRun

/-- After any calls: generations have only gone up, `validate` accepts exactly the lease that was
handed out and not released, so at most one, and a call that fails changes nothing. -/
theorem leases_fenced {calls : List CoordinatorCall} {s : LeaseRun}
    (hrun : run LeaseRun.step .init calls = some s) :
    (s.issued.map Prod.snd).Pairwise (· < ·) ∧
    (∀ owner generation, s.coordinator.validate owner generation = .ok () ↔
      (owner, generation) ∈ s.issued ∧ (owner, generation) ∉ s.released) ∧
    (∀ owner generation rival later, s.coordinator.validate owner generation = .ok () →
      s.coordinator.validate rival later = .ok () → owner = rival ∧ generation = later) ∧
    (∀ owner e c, s.coordinator.acquire owner = (.error e, c) → c = s.coordinator) ∧
    ∀ owner generation e c, s.coordinator.release owner generation = (.error e, c) →
      c = s.coordinator := by
  have hinv : s.Inv := invariant (P := fun _ _ => True) LeaseRun.Inv
    (fun s call s' h _ hstep => h.step hstep) LeaseRun.inv_init
      (.of_forall (fun _ _ => trivial) _ _)
    hrun
  refine ⟨hinv.increasing, fun owner generation => ?_, fun owner generation rival later h h' => ?_,
    fun owner e c h => DataStoreCoordinator.acquire_error h,
    fun owner generation e c h => DataStoreCoordinator.release_error h⟩
  · rw [DataStoreCoordinator.validate_ok, ← hinv.live, and_iff_right hinv.healthy]
  · obtain ⟨-, howner, hgeneration⟩ := DataStoreCoordinator.validate_ok.1 h
    obtain ⟨-, hrival, hlater⟩ := DataStoreCoordinator.validate_ok.1 h'
    exact ⟨Option.some.inj (howner.symm.trans hrival), hgeneration.symm.trans hlater⟩

/-- The same owner again: the first lease stays dead. -/
theorem leases_fenced_reacquired : ∃ s, run LeaseRun.step .init
    [.acquire "first", .release "first" 1, .release "first" 1, .acquire "first"] = some s ∧
    s.issued = [("first", 1), ("first", 2)] ∧ (s.issued.map Prod.snd).Pairwise (· < ·) ∧
    s.coordinator.validate "first" 1 ≠ .ok () ∧ s.coordinator.validate "first" 2 = .ok () := by
  refine exists_run (P := fun _ _ => True) (D := fun s =>
    s.issued = [("first", 1), ("first", 2)] ∧ s.released = [("first", 1)]) ⟨_, rfl, rfl, rfl⟩ ?_
  rintro s hrun ⟨hissued, hreleased⟩
  obtain ⟨hincreasing, hlive, -⟩ := leases_fenced hrun.2
  refine ⟨hissued, hincreasing, fun h => ?_, ?_⟩
  · exact ((hlive _ _).1 h).2 (by simp [hreleased])
  · exact (hlive _ _).2 (by simp [hissued, hreleased])

end Traverse.Storage

import Traverse.Sys.Machine

/-!
# Model.Snapshot

Snapshots of prepared guests (ABI v3). A call restores the snapshot of its package if that fits
under the call's memory ceiling, and otherwise runs `model_prepare` under this ceiling and stores
what it leaves. A guest sees the ceiling where `memory.grow` fails.

`snapshot_reuse_invisible`: every call answers as after a preparation of its own, as long as no
call restores a snapshot that was taken under a lower ceiling than its own. Then a growth that
failed may have succeeded, and the answers differ (`smaller_snapshot_restored`).

Fuel is spent by turns; the deadline, the cancel flag and the slices are left out.
-/

namespace Traverse.Model

open Machine

/-- Linear memory, and the exported mutable globals in the order of their names, as bits. -/
structure GuestState where
  memory : List UInt8
  globals : List Nat

inductive FailureCode where
  | executionFailed
  | resourceExhausted
  | modelIncompatible
  deriving DecidableEq

abbrev Failure := FailureCode × String

def prepareFailed : Failure :=
  (.executionFailed, "model_prepare trapped, ran out of fuel, or returned non-zero")

/-- What the guest does next, in a control state `K`. -/
inductive Turn (K : Type) where
  | run (k : K) (s : GuestState)
  | grow (pages : Nat) (k : Bool → K)
  | halt (code : Int)
  | trap

structure V3Guest (K : Type) where
  /-- A fresh instance, after its start function. Every call makes one, with a snapshot or without,
  so what a start function does is not reused; it is taken to be the same under every ceiling. -/
  initial : GuestState
  prepare : K
  turn : K → GuestState → Turn K
  /-- Only `memory.grow` changes the size of the memory. -/
  turn_length : ∀ {k s k' s'}, turn k s = .run k' s' → s'.memory.length = s.memory.length
  prepareFuel : Nat
  /-- `model_alloc` and `model_execute` under a ceiling and with fuel. -/
  execute : Nat → Nat → List UInt8 → GuestState → Except Failure (List UInt8)

structure SnapshotCall where
  /-- A registration has none and only prepares. -/
  input : Option (List UInt8)
  (ceiling fuel : Nat)
  /-- Whether a snapshot of this call is within the budget. -/
  stored : Bool

structure SnapshotHost where
  /-- With the ceiling it was taken under, which the host does not keep. -/
  cache : Option (Nat × GuestState)
  answers : List (SnapshotCall × Except Failure (List UInt8))

inductive SnapshotStep where
  | call (call : SnapshotCall)
  /-- For another package, or with the package's status. -/
  | evict

variable {K : Type} (g : V3Guest K)

namespace V3Guest

def runPrepare (ceiling : Nat) : Nat → K → GuestState → Except Failure GuestState
  | 0, _, _ => .error prepareFailed
  | fuel + 1, k, s =>
    match g.turn k s with
    | .run k s => runPrepare ceiling fuel k s
    | .grow pages k =>
      if s.memory.length + pages * 65536 ≤ ceiling then
        runPrepare ceiling fuel (k true)
          { s with memory := s.memory ++ .replicate (pages * 65536) 0 }
      else runPrepare ceiling fuel (k false) s
    | .halt code => if code = 0 then .ok s else .error prepareFailed
    | .trap => .error prepareFailed

def prepared (ceiling : Nat) : Except Failure GuestState :=
  g.runPrepare ceiling g.prepareFuel g.prepare g.initial

/-- The snapshot is written over the memory of a fresh instance. -/
def restore (snapshot : GuestState) : GuestState :=
  ⟨snapshot.memory ++ g.initial.memory.drop snapshot.memory.length, snapshot.globals⟩

def usable (host : SnapshotHost) (ceiling : Nat) : Option GuestState :=
  (host.cache.map Prod.snd).filter fun snapshot => snapshot.memory.length ≤ ceiling

def answer (call : SnapshotCall) (s : GuestState) : Except Failure (List UInt8) :=
  match call.input with
  | none => .ok []
  | some input => g.execute call.ceiling call.fuel input s

/-- The answer, and what is in the cache afterwards. -/
def respond (host : SnapshotHost) (call : SnapshotCall) :
    Except Failure (List UInt8) × Option (Nat × GuestState) :=
  if call.ceiling < g.initial.memory.length then
    (.error (.executionFailed, "model wasm instantiation failed"), host.cache)
  else
    match usable host call.ceiling with
    | some snapshot => (g.answer call (g.restore snapshot), host.cache)
    | none =>
      match g.prepared call.ceiling with
      | .error error => (.error error, host.cache)
      | .ok s => (g.answer call s, if call.stored then some (call.ceiling, s) else host.cache)

def step (host : SnapshotHost) : SnapshotStep → Option SnapshotHost
  | .evict => some { host with cache := none }
  | .call call =>
    let (result, cache) := g.respond host call
    some ⟨cache, host.answers ++ [(call, result)]⟩

/-- The answer without a cache. -/
def fresh (call : SnapshotCall) : Except Failure (List UInt8) := (g.respond ⟨none, []⟩ call).1

/-- No snapshot that the call would restore was taken under a lower ceiling. -/
def Within (host : SnapshotHost) : SnapshotStep → Prop
  | .evict => True
  | .call call => ∀ kept, host.cache = some kept →
    kept.2.memory.length ≤ call.ceiling → call.ceiling ≤ kept.1

instance (host : SnapshotHost) : DecidablePred (Within host) :=
  fun a => by cases a <;> unfold Within <;> infer_instance

variable {g}

theorem length_le_of_runPrepare {ceiling fuel : Nat} {k : K} {s s' : GuestState}
    (h : g.runPrepare ceiling fuel k s = .ok s') : s.memory.length ≤ s'.memory.length := by
  induction fuel generalizing k s with
  | zero => cases h
  | succ fuel ih =>
    rw [runPrepare] at h
    split at h
    · rename_i hturn
      exact g.turn_length hturn ▸ ih h
    · split at h
      · exact Nat.le_trans (by simp) (ih h)
      · exact ih h
    · split at h
      · cases h
        exact Nat.le_refl _
      · cases h
    · cases h

/-- A lower ceiling that the result fits under gives the same: growths that succeeded are within
it, and those that failed are not. -/
theorem runPrepare_lower {taken ceiling fuel : Nat} {k : K} {s s' : GuestState}
    (h : g.runPrepare taken fuel k s = .ok s') (hle : ceiling ≤ taken)
    (hfits : s'.memory.length ≤ ceiling) : g.runPrepare ceiling fuel k s = .ok s' := by
  induction fuel generalizing k s with
  | zero => cases h
  | succ fuel ih =>
    rw [runPrepare] at h ⊢
    split at h
    · exact ih h
    · split at h
      · have hlength := length_le_of_runPrepare h
        simp only [List.length_append, List.length_replicate] at hlength
        rw [if_pos (by omega)]
        exact ih h
      · rw [if_neg (by omega)]
        exact ih h
    · exact h
    · cases h

/-- The snapshot is what a preparation under its ceiling leaves, and all answers were right. -/
structure Faithful (g : V3Guest K) (host : SnapshotHost) : Prop where
  cache : ∀ taken snapshot, host.cache = some (taken, snapshot) → g.prepared taken = .ok snapshot
  answers : ∀ a ∈ host.answers, a.2 = g.fresh a.1

theorem respond_faithful {host : SnapshotHost} (h : Faithful g host) {call : SnapshotCall}
    (hwithin : Within host (.call call)) :
    (g.respond host call).1 = g.fresh call ∧ ∀ taken snapshot,
      (g.respond host call).2 = some (taken, snapshot) → g.prepared taken = .ok snapshot := by
  unfold fresh respond
  split
  · exact ⟨rfl, h.cache⟩
  split
  · rename_i snapshot husable
    obtain ⟨hsome, hfits⟩ := Option.filter_eq_some_iff.1 husable
    obtain ⟨⟨taken, _⟩, hcache, rfl⟩ := Option.map_eq_some_iff.1 hsome
    have htaken := h.cache taken _ hcache
    have hfits := of_decide_eq_true hfits
    have hprepared : g.prepared call.ceiling = .ok _ :=
      runPrepare_lower htaken (hwithin _ hcache hfits) hfits
    refine ⟨?_, h.cache⟩
    simp only [usable, Option.map_none, Option.filter_none, hprepared, restore,
      List.drop_eq_nil_of_le (length_le_of_runPrepare hprepared), List.append_nil]
  · simp only [usable, Option.map_none, Option.filter_none]
    cases hprepared : g.prepared call.ceiling with
    | error error => exact ⟨rfl, h.cache⟩
    | ok s =>
      refine ⟨rfl, fun taken snapshot hcache => ?_⟩
      simp only at hcache
      split at hcache
      · cases hcache
        exact hprepared
      · exact h.cache taken snapshot hcache

theorem Faithful.step {host host' : SnapshotHost} {a : SnapshotStep} (h : Faithful g host)
    (hwithin : Within host a) (hstep : g.step host a = some host') : Faithful g host' := by
  cases a with
  | evict =>
    cases hstep
    exact ⟨by rintro _ _ ⟨⟩, h.answers⟩
  | call call =>
    cases hstep
    obtain ⟨hanswer, hcache⟩ := respond_faithful h hwithin
    refine ⟨hcache, fun a ha => ?_⟩
    rcases List.mem_append.1 ha with ha | ha
    · exact h.answers a ha
    · cases List.mem_singleton.1 ha
      exact hanswer

/-- Each answer is that of a call that finds no snapshot. -/
theorem snapshot_reuse_invisible (g : V3Guest K) (steps : List SnapshotStep) (host : SnapshotHost)
    (hpath : Path g.step Within ⟨none, []⟩ steps host) :
    ∀ a ∈ host.answers, a.2 = g.fresh a.1 :=
  (invariant (Faithful g) (fun _ _ _ h hwithin hstep => h.step hwithin hstep)
    ⟨by rintro _ _ ⟨⟩, by simp⟩ hpath.1 hpath.2).answers

/-- It asks for one page, keeps in a global whether it got it, and answers with that. -/
def grower : V3Guest (Option Bool) where
  initial := ⟨[], [0]⟩
  prepare := none
  turn
    | none, _ => .grow 1 some
    | some got, s =>
      if s.globals = [0] then .run (some got) ⟨s.memory, [got.toNat + 1]⟩ else .halt 0
  turn_length := by
    rintro (_ | got) s k' s' h
    · cases h
    · dsimp only at h
      split at h <;> cases h
      rfl
  prepareFuel := 10
  execute := fun _ _ _ s => .ok (s.globals.map UInt8.ofNat)

theorem snapshot_reuse_invisible_lower :
    ∃ host, Path grower.step Within ⟨none, []⟩
        [.call ⟨none, 1, 9, true⟩, .call ⟨some [], 0, 9, true⟩] host ∧
      ∀ a ∈ host.answers, a.2 = grower.fresh a.1 :=
  exists_path (D := fun _ => True) (by decide +kernel)
    fun host h _ => snapshot_reuse_invisible grower _ host h

/-- The page does not fit under the ceiling of the first call, and does under that of the second,
which restores the snapshot. -/
theorem smaller_snapshot_restored :
    ∃ host, run grower.step ⟨none, []⟩
        [.call ⟨some [], 0, 9, true⟩, .call ⟨some [], 65536, 9, true⟩] = some host ∧
      host.answers.map Prod.snd = [.ok [1], .ok [1]] ∧
      grower.fresh ⟨some [], 65536, 9, true⟩ = .ok [2] := by
  decide +kernel

end V3Guest
end Traverse.Model

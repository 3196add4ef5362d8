import Mathlib.Algebra.Order.Ring.Nat

/-!
# Model.Fuel

How `execute_wasmi_model` spends a call's fuel. `wasmi` runs a list of steps, each with a cost,
and pauses before a step that costs more than what the store holds. Instantiation and the two
`model_alloc` calls share the first slice and cannot be resumed; `model_execute` is resumed with a
new slice, which replaces what was left of the last one.

`charge` is what the steps cost with that loss counted, and `SlicesFit` says that the slices pay
for a call. `executeWasmiModel_iff`: a call succeeds exactly then, and never consumes more than its
fuel. It may fail where the whole fuel at once would do (`sliced_call_fails`).

What is left out changes no fuel: missing exports, the check of the two regions, cancellation, the
deadline, the bytes that are moved, and what a finished guest answers.
-/

namespace Traverse.Model

def wasmiFuelSlice : Nat := 1000000

/-- Steps run until one costs more than the store holds: the steps that remain, and the fuel. -/
def advance : List Nat → Nat → List Nat × Nat
  | [], fuel => ([], fuel)
  | c :: steps, fuel => if c ≤ fuel then advance steps (fuel - c) else (c :: steps, fuel)

/-- A call that cannot be resumed. -/
def callPlain (steps : List Nat) (fuel : Nat) : Option Nat :=
  match advance steps fuel with
  | ([], left) => some left
  | _ => none

/-- The loop of `run_fuel_slices`, with `stored` fuel in the store and `granted` given out so far:
whether the call finished, and the fuel it consumed. -/
def runSlices (fuel granted stored : Nat) (steps : List Nat) : Bool × Nat :=
  match advance steps stored with
  | ([], left) => (true, stored - left)
  | (c :: rest, left) =>
    if _h : fuel ≤ granted then (false, stored - left)
    else
      let next := min (fuel - granted) wasmiFuelSlice
      let later := runSlices fuel (granted + next) next (c :: rest)
      (later.1, stored - left + later.2)
termination_by fuel - granted
decreasing_by
  simp only [wasmiFuelSlice]
  omega

structure Guest where
  (instantiation prepare allocIn allocOut execute : List Nat)

structure FuelLimits where
  fuel : Nat
  prepareFuel : Option Nat

/-- What the store is given before instantiation. -/
def FuelLimits.first (limits : FuelLimits) : Nat := min limits.fuel wasmiFuelSlice

inductive ModelError where
  | instantiationFailed
  | prepareFailed
  | allocFailed
  | executeFailed
  deriving DecidableEq, Repr

/-- `prepare_or_restore_wasmi` has a budget of its own and puts the call's fuel back. -/
def prepareOrRestore (g : Guest) (limits : FuelLimits) (restored : Bool) : Bool :=
  match limits.prepareFuel with
  | none => true
  | some fuel => restored || (runSlices fuel (min fuel wasmiFuelSlice) (min fuel wasmiFuelSlice)
      g.prepare).1

/-- `execute_wasmi_model`: the outcome and the fuel of the call that was consumed. -/
def executeWasmiModel (g : Guest) (limits : FuelLimits) (restored : Bool) :
    Except ModelError Unit × Nat :=
  match callPlain g.instantiation limits.first with
  | none =>
    (.error .instantiationFailed, limits.first - (advance g.instantiation limits.first).2)
  | some left =>
    if prepareOrRestore g limits restored then
      match callPlain g.allocIn left with
      | none => (.error .allocFailed, limits.first - (advance g.allocIn left).2)
      | some left =>
        match callPlain g.allocOut left with
        | none => (.error .allocFailed, limits.first - (advance g.allocOut left).2)
        | some left =>
          match runSlices limits.fuel limits.first left g.execute with
          | (true, used) => (.ok (), limits.first - left + used)
          | (false, used) => (.error .executeFailed, limits.first - left + used)
    else (.error .prepareFailed, limits.first - left)

/-! ## What the steps cost -/

/-- What the steps are charged with `left` in the store and full slices from then on. A step that
costs more than a slice never runs. -/
def charge : List Nat → Nat → Option Nat
  | [], _ => some 0
  | c :: steps, left =>
    if c ≤ left then (charge steps (left - c)).map (c + ·)
    else if c ≤ wasmiFuelSlice then
      (charge steps (wasmiFuelSlice - c)).map (left + c + ·)
    else none

theorem callPlain_eq (steps : List Nat) (fuel : Nat) :
    callPlain steps fuel = if steps.sum ≤ fuel then some (fuel - steps.sum) else none := by
  induction steps generalizing fuel with
  | nil => simp [callPlain, advance]
  | cons c steps ih =>
    have hih := ih (fuel - c)
    rw [callPlain] at hih ⊢
    rw [advance, List.sum_cons]
    by_cases hc : c ≤ fuel
    · rw [if_pos hc, hih]
      by_cases hs : steps.sum ≤ fuel - c
      · rw [if_pos hs, if_pos (by omega), Nat.sub_sub]
      · rw [if_neg hs, if_neg (by omega)]
    · rw [if_neg hc, if_neg (by omega)]

theorem sum_le_charge {steps : List Nat} {left k : Nat} (h : charge steps left = some k) :
    steps.sum ≤ k := by
  induction steps generalizing left k with
  | nil => simp
  | cons c steps ih =>
    rw [charge] at h
    rw [List.sum_cons]
    split at h
    · obtain ⟨k', hk', rfl⟩ := Option.map_eq_some_iff.1 h
      exact Nat.add_le_add_left (ih hk') c
    split at h
    · obtain ⟨k', hk', rfl⟩ := Option.map_eq_some_iff.1 h
      have := ih hk'
      omega
    · cases h

theorem charge_of_sum_le {steps : List Nat} {left : Nat} (h : steps.sum ≤ left) :
    charge steps left = some steps.sum := by
  induction steps generalizing left with
  | nil => rfl
  | cons c steps ih =>
    rw [List.sum_cons] at h ⊢
    rw [charge, if_pos (by omega), ih (by omega)]
    rfl

/-- Up to the first pause nothing is lost; the pause loses what is left. -/
theorem charge_advance {steps rest : List Nat} {stored left c : Nat}
    (h : advance steps stored = (c :: rest, left)) :
    left < c ∧ charge steps stored =
      (charge (c :: rest) 0).map (stored + ·) := by
  induction steps generalizing stored with
  | nil => cases h
  | cons d steps ih =>
    rw [advance] at h
    split at h
    · rename_i hd
      obtain ⟨hlt, hcharge⟩ := ih h
      refine ⟨hlt, ?_⟩
      rw [charge, if_pos hd, hcharge, Option.map_map]
      congr 1
      funext k
      simp only [Function.comp]
      omega
    · rename_i hd
      cases h
      refine ⟨Nat.not_le.1 hd, ?_⟩
      simp only [charge, hd, if_false, Nat.le_zero]
      split
      · have : c ≠ 0 := by omega
        simp [this, Option.map_map, Function.comp_def, Nat.add_assoc]
      · have : c ≠ 0 := by omega
        simp [this]

theorem charge_full_slice {c : Nat} (hc : c ≠ 0) (rest : List Nat) :
    charge (c :: rest) wasmiFuelSlice = charge (c :: rest) 0 := by
  have hpos : ¬ c ≤ 0 := by omega
  by_cases hle : c ≤ wasmiFuelSlice
  · simp only [charge, hle, hpos, if_true, if_false, Nat.zero_add]
  · simp only [charge, hle, hpos, if_false]

/-- The last slice may be a short one, and then nothing more is charged than the steps cost. -/
theorem charge_next {c budget : Nat} (hc : c ≠ 0) (rest : List Nat) :
    (∃ k, charge (c :: rest) (min budget wasmiFuelSlice) = some k ∧ k ≤ budget) ↔
      ∃ k, charge (c :: rest) 0 = some k ∧ k ≤ budget := by
  rcases Nat.le_total wasmiFuelSlice budget with hfull | hshort
  · rw [Nat.min_eq_right hfull, charge_full_slice hc]
  rw [Nat.min_eq_left hshort, ← charge_full_slice hc]
  constructor
  · rintro ⟨k, hk, hle⟩
    have hsum := sum_le_charge hk
    exact ⟨_, charge_of_sum_le (by omega), by omega⟩
  · rintro ⟨k, hk, hle⟩
    have hsum := sum_le_charge hk
    exact ⟨_, charge_of_sum_le (by omega), by omega⟩

theorem runSlices_iff (fuel granted stored : Nat) (steps : List Nat) :
    (runSlices fuel granted stored steps).1 = true ↔
      ∃ k, charge steps stored = some k ∧ k ≤ stored + (fuel - granted) := by
  fun_induction runSlices fuel granted stored steps with
  | case1 granted stored steps left hrun =>
    have hplain : callPlain steps stored = some left := by rw [callPlain, hrun]
    rw [callPlain_eq] at hplain
    split at hplain
    · rename_i hsum
      exact ⟨fun _ => ⟨_, charge_of_sum_le hsum, by omega⟩, fun _ => rfl⟩
    · cases hplain
  | case2 granted stored steps c rest left hrun hend =>
    obtain ⟨hlt, hcharge⟩ := charge_advance hrun
    refine ⟨fun h => (by cases h), ?_⟩
    rintro ⟨k, hk, hle⟩
    rw [hcharge] at hk
    obtain ⟨k', hk', rfl⟩ := Option.map_eq_some_iff.1 hk
    have hsum := sum_le_charge hk'
    rw [List.sum_cons] at hsum
    omega
  | case3 granted stored steps c rest left hrun hmore next later ih =>
    obtain ⟨hlt, hcharge⟩ := charge_advance hrun
    have hnext := @charge_next c (fuel - granted) (by omega) rest
    rw [ih, hcharge, show next + (fuel - (granted + next)) = fuel - granted by
      simp only [next]; omega, hnext]
    simp only [Option.map_eq_some_iff]
    constructor
    · rintro ⟨k, hk, hle⟩
      exact ⟨stored + k, ⟨k, hk, rfl⟩, by omega⟩
    · rintro ⟨_, ⟨k, hk, rfl⟩, hle⟩
      exact ⟨k, hk, by omega⟩

theorem runSlices_le (fuel granted stored : Nat) (steps : List Nat) :
    (runSlices fuel granted stored steps).2 ≤ stored + (fuel - granted) := by
  fun_induction runSlices fuel granted stored steps with
  | case1 | case2 => dsimp only; omega
  | case3 granted stored steps c rest left hrun hmore next later ih =>
    have hnext : next + (fuel - (granted + next)) = fuel - granted := by simp only [next]; omega
    change later.2 ≤ _ at ih
    omega

/-! ## The whole call -/

/-- Instantiation and the two allocations. -/
def Guest.setup (g : Guest) : Nat := g.instantiation.sum + g.allocIn.sum + g.allocOut.sum

def Guest.cost (g : Guest) : Nat := g.setup + g.execute.sum

section Call

variable (g : Guest) (limits : FuelLimits) (restored : Bool)

theorem FuelLimits.first_le : limits.first ≤ limits.fuel := Nat.min_le_left _ _

/-- The call's fuel pays for the setup out of the first slice, and then for `model_execute`. -/
theorem executeWasmiModel_eq (hprepare : prepareOrRestore g limits restored = true)
    (hfits : g.setup ≤ limits.first) :
    executeWasmiModel g limits restored =
      match runSlices limits.fuel limits.first (limits.first - g.setup) g.execute with
      | (true, used) => (.ok (), g.setup + used)
      | (false, used) => (.error .executeFailed, g.setup + used) := by
  rw [Guest.setup] at hfits ⊢
  have h₁ : g.instantiation.sum ≤ limits.first := by omega
  have h₂ : g.allocIn.sum ≤ limits.first - g.instantiation.sum := by omega
  have h₃ : g.allocOut.sum ≤ limits.first - g.instantiation.sum - g.allocIn.sum := by omega
  have hleft : limits.first - g.instantiation.sum - g.allocIn.sum - g.allocOut.sum =
      limits.first - (g.instantiation.sum + g.allocIn.sum + g.allocOut.sum) := by omega
  have hused : limits.first - (limits.first -
      (g.instantiation.sum + g.allocIn.sum + g.allocOut.sum)) =
        g.instantiation.sum + g.allocIn.sum + g.allocOut.sum := by omega
  simp only [executeWasmiModel, callPlain_eq, hprepare, h₁, h₂, h₃, if_true, hleft, hused]

theorem executeWasmiModel_setup (hfails : ¬ g.setup ≤ limits.first) :
    (executeWasmiModel g limits restored).1 ≠ .ok () ∧
      (executeWasmiModel g limits restored).2 ≤ limits.first := by
  rw [Guest.setup] at hfails
  simp only [executeWasmiModel, callPlain_eq]
  split
  · exact ⟨by simp, Nat.sub_le _ _⟩
  split
  · split
    · exact ⟨by simp, Nat.sub_le _ _⟩
    · split
      · exact ⟨by simp, Nat.sub_le _ _⟩
      · exfalso
        grind
  · exact ⟨by simp, Nat.sub_le _ _⟩

/-- The preparation succeeds, the setup fits in the first slice, and what `model_execute` is charged
fits in the rest of the fuel. -/
def SlicesFit : Prop :=
  prepareOrRestore g limits restored = true ∧ g.setup ≤ limits.first ∧
    ∃ k, charge g.execute (limits.first - g.setup) = some k ∧ g.setup + k ≤ limits.fuel

theorem executeWasmiModel_unprepared (h : prepareOrRestore g limits restored = false) :
    (executeWasmiModel g limits restored).1 ≠ .ok () ∧
      (executeWasmiModel g limits restored).2 ≤ limits.first := by
  simp only [executeWasmiModel, h, Bool.false_eq_true, if_false]
  split <;> exact ⟨by simp, Nat.sub_le _ _⟩

/-- The whole call in terms of its slices. -/
theorem executeWasmiModel_iff :
    ((executeWasmiModel g limits restored).1 = .ok () ↔ SlicesFit g limits restored) ∧
      (executeWasmiModel g limits restored).2 ≤ limits.fuel := by
  have hfirst := limits.first_le
  rw [SlicesFit]
  cases hprepare : prepareOrRestore g limits restored with
  | false =>
    obtain ⟨hfailed, hused⟩ := executeWasmiModel_unprepared g limits restored hprepare
    exact ⟨⟨fun h => absurd h hfailed, fun h => absurd h.1 (by simp)⟩, Nat.le_trans hused hfirst⟩
  | true =>
    by_cases hfits : g.setup ≤ limits.first
    · have hslices := runSlices_iff limits.fuel limits.first (limits.first - g.setup) g.execute
      have hused := runSlices_le limits.fuel limits.first (limits.first - g.setup) g.execute
      rw [executeWasmiModel_eq g limits restored hprepare hfits]
      rcases hrun : runSlices limits.fuel limits.first (limits.first - g.setup) g.execute with
        ⟨_ | _, used⟩ <;> grind
    · obtain ⟨hfailed, hused⟩ := executeWasmiModel_setup g limits restored hfits
      exact ⟨⟨fun h => absurd h hfailed, fun h => absurd h.2.1 hfits⟩,
        Nat.le_trans hused hfirst⟩

theorem cost_le_of_slicesFit (h : SlicesFit g limits restored) : g.cost ≤ limits.fuel := by
  obtain ⟨_, _, k, hk, hle⟩ := h
  have := sum_le_charge hk
  rw [Guest.cost]
  omega

/-- With the whole fuel in the store from the start, the cost alone decides. -/
theorem callPlain_whole : (callPlain (g.instantiation ++ g.allocIn ++ g.allocOut ++ g.execute)
    limits.fuel).isSome = true ↔ g.cost ≤ limits.fuel := by
  rw [callPlain_eq, Guest.cost, Guest.setup]
  simp only [List.sum_append]
  split <;> simp_all

/-- The slices give the answer of the whole fuel exactly when they fit wherever the cost does. The
fuel consumed never exceeds the limit. -/
theorem fuel_slicing_iff :
    (((executeWasmiModel g limits restored).1 = .ok () ↔ g.cost ≤ limits.fuel) ↔
      (g.cost ≤ limits.fuel → SlicesFit g limits restored)) ∧
    ((callPlain (g.instantiation ++ g.allocIn ++ g.allocOut ++ g.execute)
      limits.fuel).isSome = true ↔ g.cost ≤ limits.fuel) ∧
    (executeWasmiModel g limits restored).2 ≤ limits.fuel := by
  obtain ⟨hcall, hused⟩ := executeWasmiModel_iff g limits restored
  refine ⟨?_, callPlain_whole g limits, hused⟩
  rw [hcall]
  exact ⟨fun h => h.2, fun h => ⟨cost_le_of_slicesFit g limits restored, h⟩⟩

end Call

/-- Three steps of 600000 each. -/
def threeSteps : Guest := ⟨[], [], [], [], [600000, 600000, 600000]⟩

/-- Each pause gives up 400000, so a call that costs 1800000 fails with a fuel of 2000000. And a
setup of more than one slice fails with any fuel. -/
theorem sliced_call_fails :
    (threeSteps.cost ≤ 2000000 ∧
      (executeWasmiModel threeSteps ⟨2000000, none⟩ false).1 ≠ .ok ()) ∧
    ∀ fuel, (executeWasmiModel ⟨[1000001], [], [], [], []⟩ ⟨fuel, none⟩ false).1 ≠ .ok () := by
  refine ⟨⟨by decide, fun h => ?_⟩, fun fuel => (executeWasmiModel_setup _ _ _ ?_).1⟩
  · obtain ⟨-, -, k, hk, hle⟩ := (executeWasmiModel_iff threeSteps _ _).1.1 h
    have hcharge : charge threeSteps.execute 1000000 = some 2600000 := by decide
    cases hk.symm.trans hcharge
    revert hle
    decide
  · have := Nat.min_le_right fuel wasmiFuelSlice
    simp only [Guest.setup, FuelLimits.first, List.sum_cons, List.sum_nil, wasmiFuelSlice] at *
    omega

end Traverse.Model

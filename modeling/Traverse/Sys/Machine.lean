import Mathlib.Tactic.Common

/-!
# Sys.Machine

Labelled machines: `step s a = none` means label `a` is not enabled in `s`. A run is a list of
labels. `Along P` says that every step of a run meets `P` in the state it starts from, which is
how restricted environments (no failure here, this order of hand-offs there) are stated.

`invariant` is the only induction over runs that clients need: an invariant of every step that
meets `P` holds at the end of every run along `P`.
-/

namespace Machine

variable {σ α : Type*} (step : σ → α → Option σ)

def run : σ → List α → Option σ
  | s, [] => some s
  | s, a :: as =>
    match step s a with
    | some s' => run s' as
    | none => none

/-- Every step taken from `s` along the labels meets `P`. -/
def Along (P : σ → α → Prop) : σ → List α → Prop
  | _, [] => True
  | s, a :: as => P s a ∧ ∀ s', step s a = some s' → Along P s' as

@[simp] theorem run_nil (s : σ) : run step s [] = some s := rfl

variable {s s' t u : σ} {a : α} {as bs : List α} {Q : σ → α → Prop}

theorem run_cons_some (as : List α) (h : step s a = some s') :
    run step s (a :: as) = run step s' as := by
  simp [run, h]

theorem run_append (s : σ) (as bs : List α) :
    run step s (as ++ bs) = (run step s as).bind fun s' => run step s' bs := by
  induction as generalizing s with
  | nil => rfl
  | cons a as ih =>
    simp only [List.cons_append, run]
    cases step s a with
    | none => rfl
    | some s' => exact ih s'

variable {step} {P : σ → α → Prop}

theorem Along.nil (s : σ) : Along step P s [] := trivial

theorem Along.cons (h : P s a) (hs : ∀ s', step s a = some s' → Along step P s' as) :
    Along step P s (a :: as) := ⟨h, hs⟩

theorem Along.of_forall (h : ∀ s a, P s a) : ∀ (s : σ) (as : List α), Along step P s as
  | _, [] => trivial
  | s, a :: as => ⟨h s a, fun s' _ => Along.of_forall h s' as⟩

/-! Conditions on an optional value, and on every step of a run, are decided by looking. -/

instance decidableForallSome {o : Option σ} {p : σ → Prop} [DecidablePred p] :
    Decidable (∀ s, o = some s → p s) :=
  match o with
  | none => .isTrue fun _ h => by cases h
  | some s => decidable_of_iff (p s) ⟨fun h _ e => Option.some.inj e ▸ h, fun h => h s rfl⟩

instance decidableForallOk {ρ : Type*} {o : Except ρ σ} {p : σ → Prop} [DecidablePred p] :
    Decidable (∀ s, o = .ok s → p s) :=
  match o with
  | .error _ => .isTrue fun _ h => by cases h
  | .ok s => decidable_of_iff (p s) ⟨fun h _ e => Except.ok.inj e ▸ h, fun h => h s rfl⟩

instance decidableExistsSome {o : Option σ} {p : σ → Prop} [DecidablePred p] :
    Decidable (∃ s, o = some s ∧ p s) :=
  match o with
  | none => .isFalse fun ⟨_, h, _⟩ => by cases h
  | some s => decidable_of_iff (p s) ⟨fun h => ⟨s, rfl, h⟩, fun ⟨_, e, h⟩ => Option.some.inj e ▸ h⟩

instance decidableExistsOk {ρ : Type*} {o : Except ρ σ} {p : σ → Prop} [DecidablePred p] :
    Decidable (∃ s, o = .ok s ∧ p s) :=
  match o with
  | .error _ => .isFalse fun ⟨_, h, _⟩ => by cases h
  | .ok s => decidable_of_iff (p s) ⟨fun h => ⟨s, rfl, h⟩, fun ⟨_, e, h⟩ => Except.ok.inj e ▸ h⟩

instance Along.decidable [∀ s a, Decidable (P s a)] :
    ∀ (s : σ) (as : List α), Decidable (Along step P s as)
  | _, [] => .isTrue trivial
  | s, a :: as =>
    have := fun s' => Along.decidable s' as
    inferInstanceAs (Decidable (P s a ∧ ∀ s', step s a = some s' → Along step P s' as))

theorem Along.mono (hPQ : ∀ s a, P s a → Q s a) :
    ∀ {s : σ}, Along step P s as → Along step Q s as := by
  induction as with
  | nil => intro s _; trivial
  | cons a as ih => intro s h; exact ⟨hPQ s a h.1, fun s' hs => ih (h.2 s' hs)⟩

theorem Along.and : ∀ {s : σ}, Along step P s as →
    Along step Q s as → Along step (fun s a => P s a ∧ Q s a) s as := by
  induction as with
  | nil => intro s _ _; trivial
  | cons a as ih =>
    intro s hp hq
    exact ⟨⟨hp.1, hq.1⟩, fun s' hs => ih (hp.2 s' hs) (hq.2 s' hs)⟩

theorem Along.and_mem {Q : α → Prop} :
    ∀ {s : σ}, Along step P s as → (∀ a ∈ as, Q a) → Along step (fun s a => P s a ∧ Q a) s as := by
  induction as with
  | nil => intro s _ _; trivial
  | cons a as ih =>
    intro s h hq
    exact ⟨⟨h.1, hq a (by simp)⟩, fun s' hs => ih (h.2 s' hs) fun b hb => hq b (by simp [hb])⟩

theorem Along.left : ∀ {s : σ}, Along step P s (as ++ bs) → Along step P s as := by
  induction as with
  | nil => intro s _; trivial
  | cons a as ih => intro s h; exact ⟨h.1, fun s' hs => ih (h.2 s' hs)⟩

theorem Along.right : ∀ {s t : σ}, Along step P s (as ++ bs) →
    run step s as = some t → Along step P t bs := by
  induction as with
  | nil => intro s t h hr; cases hr; exact h
  | cons a as ih =>
    intro s t h hr
    cases hs : step s a with
    | none => simp [run, hs] at hr
    | some s' =>
      rw [run_cons_some step as hs] at hr
      exact ih (h.2 s' hs) hr

theorem invariant (I : σ → Prop) (hstep : ∀ s a s', I s → P s a → step s a = some s' → I s') :
    ∀ {s s' : σ}, I s → Along step P s as → run step s as = some s' → I s' := by
  induction as with
  | nil => intro s s' h _ hr; cases hr; exact h
  | cons a as ih =>
    intro s s' h hal hr
    cases hs : step s a with
    | none => simp [run, hs] at hr
    | some t =>
      rw [run_cons_some step as hs] at hr
      exact ih (hstep s a t h hal.1 hs) (hal.2 t hs) hr

/-- Under an invariant, conditions that say the same of a step say the same of a run. -/
theorem along_congr (I : σ → Prop) (hstep : ∀ s a s', I s → P s a → step s a = some s' → I s')
    (hPQ : ∀ s a, I s → (P s a ↔ Q s a)) :
    ∀ {s : σ}, I s → (Along step P s as ↔ Along step Q s as) := by
  induction as with
  | nil => intro s _; rfl
  | cons a as ih =>
    intro s h
    rw [Along, Along, ← hPQ s a h]
    exact and_congr_right fun hP => forall₂_congr fun s' hs => ih (hstep s a s' h hP hs)

/-- If a step meets `P` whenever `R` holds after it, then a run meets `P` if `R` holds all the
way. -/
theorem along_of_reached {R : σ → Prop} {Q : α → Prop} (I : σ → Prop)
    (hstep : ∀ s a s', I s → Q a → step s a = some s' → I s')
    (hP : ∀ s a, I s → Q a → (∀ s', step s a = some s' → R s') → P s a) :
    ∀ {s : σ}, I s → (∀ a ∈ as, Q a) →
      (∀ before rest t, as = before ++ rest → run step s before = some t → R t) →
      Along step P s as := by
  induction as with
  | nil => intro s _ _ _; trivial
  | cons a as ih =>
    intro s h hQ hR
    have ha : Q a := hQ a (List.mem_cons_self ..)
    refine ⟨hP s a h ha fun s' hs => hR [a] as s' rfl (run_cons_some step [] hs), fun s' hs => ?_⟩
    refine ih (hstep s a s' h ha hs) (fun b hb => hQ b (List.mem_cons_of_mem _ hb)) ?_
    rintro before rest t rfl hr
    exact hR (a :: before) rest t rfl ((run_cons_some step before hs).trans hr)

/-- A run along `P` from `s` to `t`. -/
def Path (step : σ → α → Option σ) (P : σ → α → Prop) (s : σ) (as : List α) (t : σ) : Prop :=
  Along step P s as ∧ run step s as = some t

theorem Path.nil (s : σ) : Path step P s [] s := ⟨trivial, rfl⟩

theorem Path.cons (hP : P s a) (hs : step s a = some t) (h : Path step P t as u) :
    Path step P s (a :: as) u := by
  refine ⟨⟨hP, fun t' ht' => ?_⟩, (run_cons_some step as hs).trans h.2⟩
  rw [hs, Option.some.injEq] at ht'
  exact ht' ▸ h.1

/-- The machine that stops where the check fails. -/
def guarded (step : σ → α → Option σ) (p : σ → α → Bool) (s : σ) (a : α) : Option σ :=
  if p s a then step s a else none

theorem Path.of_guarded {p : σ → α → Bool} (hp : ∀ s a, p s a = true → P s a)
    (h : run (guarded step p) s as = some t) : Path step P s as t := by
  induction as generalizing s with
  | nil =>
    cases h
    exact .nil _
  | cons a as ih =>
    by_cases hcheck : p s a = true
    · cases hs : step s a with
      | none => simp [run, guarded, hcheck, hs] at h
      | some u => exact .cons (hp s a hcheck) hs (ih (by simpa [run, guarded, hcheck, hs] using h))
    · simp [run, guarded, hcheck] at h

/-- A path is found by running the machine with its condition checked on the way. -/
theorem exists_path [∀ s a, Decidable (P s a)] {D R : σ → Prop}
    (h : ∃ t, run (guarded step fun s a => decide (P s a)) s as = some t ∧ D t)
    (hR : ∀ t, Path step P s as t → D t → R t) : ∃ t, Path step P s as t ∧ R t := by
  obtain ⟨t, ht, hd⟩ := h
  have hpath := Path.of_guarded (fun _ _ h => of_decide_eq_true h) ht
  exact ⟨t, hpath, hR t hpath hd⟩

/-- The same for a run. -/
theorem exists_run [∀ s a, Decidable (P s a)] {D R : σ → Prop}
    (h : ∃ t, run (guarded step fun s a => decide (P s a)) s as = some t ∧ D t)
    (hR : ∀ t, Path step P s as t → D t → R t) : ∃ t, run step s as = some t ∧ R t := by
  obtain ⟨t, hpath, hr⟩ := exists_path h hR
  exact ⟨t, hpath.2, hr⟩

/-- An entry of a partial map that one entry was changed in. -/
theorem update_eq_some {κ β : Type*} [DecidableEq κ] {f : κ → Option β} {k i : κ} {b : Option β}
    {c : β} (h : Function.update f k b i = some c) : i = k ∧ b = some c ∨ i ≠ k ∧ f i = some c := by
  by_cases hi : i = k
  · subst hi
    rw [Function.update_self] at h
    exact .inl ⟨rfl, h⟩
  · rw [Function.update_of_ne hi] at h
    exact .inr ⟨hi, h⟩

end Machine

import Mathlib.Tactic.Common

/-!
# Sys.Program

Programs as sequences of atomic operations on a state, any of which may fail; `run` executes one
with nobody else around.

`Keeps I p` says that no operation destroys `I`, and
`Ensures P p Q E` that from `P` the program ends in `Q` or fails in `E`; what a program has done
before it fails is not undone. `Throughout Φ p s` is about the states in between. `handle`, which
goes on with a result or an error, is the sequencing that all others come from, and each notion has
one rule for it.
-/

inductive Program (σ ε α : Type) : Type 1 where
  | done (result : Except ε α)
  | step {β : Type} (operation : σ → β × σ) (next : β → Program σ ε α)

namespace Program

open List

variable {σ ε ε' α β : Type}

def run : Program σ ε α → σ → Except ε α × σ
  | done result, s => (result, s)
  | step operation next, s => (next (operation s).1).run (operation s).2

def handle : Program σ ε α → (Except ε α → Program σ ε' β) → Program σ ε' β
  | done result, h => h result
  | step operation next, h => step operation fun b => (next b).handle h

def andThen (f : α → Program σ ε β) : Except ε α → Program σ ε β
  | .ok a => f a
  | .error e => done (.error e)

instance : Monad (Program σ ε) where
  pure a := done (.ok a)
  bind p f := p.handle (andThen f)

def act (operation : σ → Except ε α × σ) : Program σ ε α := step operation done

def modify (f : σ → σ) : Program σ ε Unit := act fun s => (.ok (), f s)

def mapError (f : ε → ε') (p : Program σ ε α) : Program σ ε' α :=
  p.handle fun result => done (result.mapError f)

def ignore (p : Program σ ε α) : Program σ ε' Unit := p.handle fun _ => done (.ok ())

def orElseRun (cleanup : Program σ ε Unit) : Except ε α → Program σ ε α
  | .ok a => done (.ok a)
  | .error e => cleanup.handle fun _ => done (.error e)

/-- If the program fails, `cleanup` is run before the error is passed on. -/
def onError (p : Program σ ε α) (cleanup : Program σ ε Unit) : Program σ ε α :=
  p.handle (orElseRun cleanup)

def each : List α → (α → Program σ ε β) → Program σ ε (List β)
  | [], _ => pure []
  | a :: as, f => do
    let b ← f a
    let bs ← each as f
    pure (b :: bs)

/-! ## Running alone -/

theorem run_handle (p : Program σ ε α) (h : Except ε α → Program σ ε' β) (s : σ) :
    (p.handle h).run s = (h (p.run s).1).run (p.run s).2 := by
  induction p generalizing s with
  | done result => rfl
  | step operation next ih => exact ih (operation s).1 (operation s).2

variable {f : α → Program σ ε β} {s' : σ} {a : α}

theorem bind_run {p : Program σ ε α} {s : σ} (h : p.run s = (.ok a, s')) :
    (p >>= f).run s = (f a).run s' := by
  show (p.handle (andThen f)).run s = _
  rw [run_handle, h]
  rfl

theorem mapError_run {p : Program σ ε α} {s : σ} (f : ε → ε') (h : p.run s = (.ok a, s')) :
    (mapError f p).run s = (.ok a, s') := by
  rw [mapError, run_handle, h]
  rfl

theorem onError_run {p : Program σ ε α} {s : σ} (cleanup : Program σ ε Unit)
    (h : p.run s = (.ok a, s')) : (onError p cleanup).run s = (.ok a, s') := by
  rw [onError, run_handle, h]
  rfl

theorem each_run {g : α → Except ε β} {s : σ} {as : List α} (h : ∀ a ∈ as, (f a).run s = (g a, s)) :
    (each as f).run s = (as.mapM g, s) := by
  induction as with
  | nil => rfl
  | cons a as ih =>
    have hrest := ih fun a' ha' => h a' (mem_cons_of_mem _ ha')
    rw [mapM_cons]
    show ((f a).handle (andThen _)).run s = _
    rw [run_handle, h a mem_cons_self]
    cases g a with
    | error e => rfl
    | ok b =>
      show ((each as f).handle (andThen _)).run s = _
      rw [run_handle, hrest]
      cases as.mapM g with
      | error | ok => rfl

/-! ## Invariants -/

def Keeps (I : σ → Prop) : Program σ ε α → Prop
  | done _ => True
  | step operation next => (∀ s, I s → I (operation s).2) ∧ ∀ b, (next b).Keeps I

section Keeps

variable {I : σ → Prop} {p : Program σ ε α}

theorem Keeps.handle {h : Except ε α → Program σ ε' β} (hp : p.Keeps I)
    (hh : ∀ result, (h result).Keeps I) : (p.handle h).Keeps I := by
  induction p with
  | done result => exact hh result
  | step operation next ih => exact ⟨hp.1, fun b => ih b (hp.2 b)⟩

theorem Keeps.act {operation : σ → Except ε α × σ} (h : ∀ s, I s → I (operation s).2) :
    (act operation).Keeps I := ⟨h, fun _ => trivial⟩

theorem Keeps.done {result : Except ε α} : (done result : Program σ ε α).Keeps I := trivial

theorem Keeps.bind (hp : p.Keeps I) (hf : ∀ a, (f a).Keeps I) : (p >>= f).Keeps I :=
  hp.handle fun result => by
    cases result with
    | ok a => exact hf a
    | error e => trivial

theorem Keeps.mapError {f : ε → ε'} (hp : p.Keeps I) : (mapError f p).Keeps I :=
  hp.handle fun _ => trivial

theorem Keeps.ignore (hp : p.Keeps I) : (ignore p : Program σ ε' Unit).Keeps I :=
  hp.handle fun _ => trivial

theorem Keeps.onError {cleanup : Program σ ε Unit} (hp : p.Keeps I) (hc : cleanup.Keeps I) :
    (onError p cleanup).Keeps I :=
  hp.handle fun result => by
    cases result with
    | ok a => trivial
    | error e => exact hc.handle fun _ => trivial

theorem Keeps.each {as : List α} (hf : ∀ a, (f a).Keeps I) : (each as f).Keeps I := by
  induction as with
  | nil => trivial
  | cons a as ih => exact (hf a).bind fun _ => ih.bind fun _ => .done

theorem Keeps.run (hp : p.Keeps I) {s : σ} (h : I s) : I (p.run s).2 := by
  induction p generalizing s with
  | done result => exact h
  | step operation next ih => exact ih _ (hp.2 _) (hp.1 s h)

end Keeps

/-! ## Pre- and postconditions -/

def Outcome (Q : α → σ → Prop) (E : σ → Prop) : Except ε α × σ → Prop
  | (.ok a, s) => Q a s
  | (.error _, s) => E s

def Ensures (P : σ → Prop) (p : Program σ ε α) (Q : α → σ → Prop) (E : σ → Prop) : Prop :=
  ∀ s, P s → Outcome Q E (p.run s)

section Ensures

variable {P : σ → Prop} {p : Program σ ε α} {Q : α → σ → Prop} {E : σ → Prop}

variable {R : β → σ → Prop} {F I : σ → Prop} {s : σ}

theorem Ensures.handle {h : Except ε α → Program σ ε' β} (hp : Ensures P p Q E)
    (hok : ∀ a, Ensures (Q a) (h (.ok a)) R F) (herror : ∀ e, Ensures E (h (.error e)) R F) :
    Ensures P (p.handle h) R F := by
  intro s hs
  have hrun := hp s hs
  rw [run_handle]
  cases hresult : p.run s with
  | mk result s' =>
    rw [hresult] at hrun
    cases result with
    | ok a => exact hok a s' hrun
    | error e => exact herror e s' hrun

theorem Ensures.bind (hp : Ensures P p Q E) (hf : ∀ a, Ensures (Q a) (f a) R E) :
    Ensures P (p >>= f) R E :=
  hp.handle hf fun _ _ h => h

theorem Ensures.mapError {f : ε → ε'} (hp : Ensures P p Q E) : Ensures P (mapError f p) Q E :=
  hp.handle (fun _ _ h => h) fun _ _ h => h

theorem Ensures.onError {cleanup : Program σ ε Unit} (hp : Ensures P p Q E)
    (hc : Ensures E cleanup (fun _ => F) F) : Ensures P (onError p cleanup) Q F :=
  hp.handle (fun _ _ h => h) fun _ => hc.handle (fun _ _ h => h) fun _ _ h => h

theorem Ensures.ignore {R : σ → Prop} (hp : Ensures P p (fun _ => R) R) :
    Ensures P (ignore p : Program σ ε' Unit) (fun _ => R) F :=
  hp.handle (fun _ _ h => h) fun _ _ h => h

theorem Ensures.imp {P' : σ → Prop} {Q' : α → σ → Prop} {E' : σ → Prop} (hp : Ensures P p Q E)
    (hP : ∀ s, P' s → P s) (hQ : ∀ a s, Q a s → Q' a s) (hE : ∀ s, E s → E' s) :
    Ensures P' p Q' E' := by
  intro s hs
  have hrun := hp s (hP s hs)
  cases hresult : p.run s with
  | mk result s' =>
    rw [hresult] at hrun
    cases result with
    | ok a => exact hQ a s' hrun
    | error e => exact hE s' hrun

theorem Ensures.post {Q' : α → σ → Prop} (hp : Ensures P p Q E) (h : ∀ a s, Q a s → Q' a s) :
    Ensures P p Q' E := hp.imp (fun _ h => h) h fun _ h => h

theorem Ensures.fail {E' : σ → Prop} (hp : Ensures P p Q E) (h : ∀ s, E s → E' s) :
    Ensures P p Q E' := hp.imp (fun _ h => h) (fun _ _ h => h) h

theorem Keeps.ensures (hp : p.Keeps I) (hE : ∀ s, I s → E s) : Ensures I p (fun _ => I) E := by
  intro s hs
  have hkeeps := hp.run hs
  cases hresult : p.run s with
  | mk result s' =>
    rw [hresult] at hkeeps
    cases result with
    | ok a => exact hkeeps
    | error e => exact hE s' hkeeps

theorem Ensures.done {result : Except ε α} (hE : ∀ s, P s → E s) :
    Ensures P (done result) (fun a s => P s ∧ result = .ok a) E := by
  intro s hs
  cases result with
  | ok a => exact ⟨hs, rfl⟩
  | error e => exact hE s hs

theorem Ensures.of_and {φ : Prop} (h : φ → Ensures P p Q E) :
    Ensures (fun s => P s ∧ φ) p Q E := fun s hs => h hs.2 s hs.1

/-- The loop rule: `I` speaks about the elements that are done. -/
theorem Ensures.each {I : List α → σ → Prop} {as : List α}
    (hf : ∀ earlier a, earlier ++ [a] <+: as →
      Ensures (I earlier) (f a) (fun _ => I (earlier ++ [a])) E) :
    Ensures (I []) (Program.each as f) (fun _ => I as) E := by
  suffices h : ∀ earlier later, earlier ++ later = as →
      Ensures (I earlier) (Program.each later f) (fun _ => I as) E from h [] as rfl
  intro earlier later
  induction later generalizing earlier with
  | nil =>
    rintro rfl s hs
    rw [append_nil] at hf ⊢
    exact hs
  | cons a later ih =>
    intro h
    have hnext : (earlier ++ [a]) ++ later = as := by rw [← h, append_assoc]; rfl
    exact (hf earlier a ⟨later, hnext⟩).bind fun _ =>
      (ih (earlier ++ [a]) hnext).bind fun _ _ h => h

theorem Ensures.of_ok (hp : Ensures P p Q E) (hs : P s) (h : p.run s = (.ok a, s')) : Q a s' := by
  have := hp s hs
  rwa [h] at this

theorem Ensures.succeeds (hp : Ensures P p Q fun _ => False) (hs : P s) :
    ∃ a s', p.run s = (.ok a, s') ∧ Q a s' := by
  have hrun := hp s hs
  cases hresult : p.run s with
  | mk result s' =>
    rw [hresult] at hrun
    cases result with
    | ok a => exact ⟨a, s', rfl, hrun⟩
    | error e => exact hrun.elim

theorem Ensures.of_error {e : ε} (hp : Ensures P p Q E) (hs : P s) (h : p.run s = (.error e, s')) :
    E s' := by
  have := hp s hs
  rwa [h] at this

end Ensures

/-! ## The states in between -/

def Throughout (Φ : σ → Prop) : Program σ ε α → σ → Prop
  | done _, s => Φ s
  | step operation next, s => Φ s ∧ (next (operation s).1).Throughout Φ (operation s).2

section Throughout

variable {Φ : σ → Prop} {p : Program σ ε α} {s : σ}

theorem Throughout.now (h : p.Throughout Φ s) : Φ s := by
  cases p with
  | done result => exact h
  | step operation next => exact h.1

variable {h : Except ε α → Program σ ε' β}

theorem Throughout.handle (hp : p.Throughout Φ s) (hh : (h (p.run s).1).Throughout Φ (p.run s).2) :
    (p.handle h).Throughout Φ s := by
  induction p generalizing s with
  | done result => exact hh
  | step operation next ih => exact ⟨hp.1, ih _ hp.2 hh⟩

theorem Keeps.throughout {I : σ → Prop} (hp : p.Keeps I) (hI : ∀ s, I s → Φ s) (h : I s) :
    p.Throughout Φ s := by
  induction p generalizing s with
  | done result => exact hI s h
  | step operation next ih => exact ⟨hI s h, ih _ (hp.2 _) (hp.1 s h)⟩

theorem Keeps.bind_throughout {I : σ → Prop} {f : α → Program σ ε β} (hp : p.Keeps I)
    (hI : ∀ s, I s → Φ s) (h : I s) (hf : ∀ a s', I s' → (f a).Throughout Φ s') :
    (p >>= f).Throughout Φ s := by
  refine (hp.throughout hI h).handle ?_
  have hrun := hp.run h
  cases (p.run s).1 with
  | ok a => exact hf a _ hrun
  | error e => exact hI _ hrun

theorem Throughout.mono {Ψ : σ → Prop} (hp : p.Throughout Φ s) (h : ∀ s, Φ s → Ψ s) :
    p.Throughout Ψ s := by
  induction p generalizing s with
  | done result => exact h s hp
  | step operation next ih => exact ⟨h s hp.1, ih _ hp.2⟩

theorem Throughout.final (hp : p.Throughout Φ s) : Φ (p.run s).2 := by
  induction p generalizing s with
  | done result => exact hp
  | step operation next ih => exact ih _ hp.2

/-- From a state with `I` on, all states have `I`. Unlike `Keeps` this looks only at results that
come about in such states. -/
def Stays (I : σ → Prop) (p : Program σ ε α) : Prop := ∀ s, I s → p.Throughout I s

variable {I : σ → Prop}

theorem Keeps.stays (hp : p.Keeps I) : p.Stays I := fun _ h => hp.throughout (fun _ h => h) h

theorem Stays.handle (hp : p.Stays I) (hh : ∀ s, I s → (h (p.run s).1).Stays I) :
    (p.handle h).Stays I :=
  fun s hs => (hp s hs).handle (hh s hs _ (hp s hs).final)

theorem Stays.bind (hp : p.Stays I) (hf : ∀ s a, I s → (p.run s).1 = .ok a → (f a).Stays I) :
    (p >>= f).Stays I :=
  hp.handle fun s hs => by
    cases hresult : (p.run s).1 with
    | ok a => exact hf s a hs hresult
    | error e => exact fun _ h => h

theorem Stays.mapError {f : ε → ε'} (hp : p.Stays I) : (mapError f p).Stays I :=
  hp.handle fun _ _ _ h => h

theorem Stays.ignore (hp : p.Stays I) : (ignore p : Program σ ε' Unit).Stays I :=
  hp.handle fun _ _ _ h => h

theorem Stays.onError {cleanup : Program σ ε Unit} (hp : p.Stays I) (hc : cleanup.Stays I) :
    (onError p cleanup).Stays I :=
  hp.handle fun s _ => by
    cases (p.run s).1 with
    | ok a => exact fun _ h => h
    | error e => exact hc.handle fun _ _ _ h => h

end Throughout

end Program

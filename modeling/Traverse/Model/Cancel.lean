import Traverse.Sys.Machine

/-!
# Model.Cancel

The one cancel flag of a `ModelHost`. An execution or a registration runs while it holds the
connector; it clears the flag, publishes its id in `running`, works, withdraws the id and clears
the flag again. A cancel holds `running` while it compares, sets the flag and answers. Each of these
is a step of its own, so a run is any interleaving of any number of calls. Waiting for a lock is
not a step: a call appears when it gets the lock.

What happened is kept in a log, newest first, and the log is judged on its own: `current` is the
call between its start and its stop, and `NamedSince` says that a cancel has named that call since
it started. `cancel_reaches_named`: in every run an observation of the flag was asked for in that
sense, and a cancel answers whether the id it names is the current one.

A call that panics while it holds the connector is not modelled. `lock` goes on with a poisoned
lock, and the next call clears the flag and replaces the id that was left in `running`, so no call
observes more than here; whether the one that panicked still runs, for the answer to a cancel, the
source leaves open.
-/

namespace Traverse.Model

open Machine

inductive Event where
  /-- The call became the running one. -/
  | started (call : Nat) (id : Option String)
  | stopped (call : Nat)
  | named (target : String)
  | observed (call : Nat) (flag : Bool)
  | answered (target : String) (cancelled : Bool)
  deriving DecidableEq, Repr

/-- The running call and its id. -/
def current : List Event → Option (Nat × Option String)
  | [] => none
  | .started call id :: _ => some (call, id)
  | .stopped _ :: _ => none
  | _ :: log => current log

/-- Since the running call started, a cancel has named its id. -/
def NamedSince : List Event → Prop
  | [] => False
  | .started _ _ :: _ => False
  | .stopped _ :: _ => False
  | .named target :: log => (∃ call, current log = some (call, some target)) ∨ NamedSince log
  | _ :: log => NamedSince log

/-- Only a cancel of the call itself is observed, and each answer tells whether its id runs. -/
def Sound : List Event → Prop
  | [] => True
  | .observed call flag :: log =>
    (flag = true → (∃ id, current log = some (call, some id)) ∧ NamedSince log) ∧ Sound log
  | .answered target cancelled :: log =>
    (cancelled = true ↔ ∃ call, current log = some (call, some target)) ∧ Sound log
  | _ :: log => Sound log

/-- What a call that holds the connector has done. -/
inductive Phase where
  | entered
  | cleared
  | working
  | withdrawn
  deriving DecidableEq, Repr

structure Worker where
  call : Nat
  id : Option String
  phase : Phase

/-- A cancel that holds `running`, with the result of its comparison. -/
structure Canceller where
  target : String
  compared : Option Bool

structure Host where
  cancel : Bool
  running : Option String
  connector : Option Worker
  canceller : Option Canceller
  log : List Event

def Host.new : Host := ⟨false, none, none, none, []⟩

inductive Action where
  /-- `execute`, or `register`, whose id is optional. -/
  | enter (call : Nat) (id : Option String)
  | clear
  | publish
  | observe
  | withdraw
  | leave
  | lock (target : String)
  | compare
  | store
  | answer

/-- The steps of the call that holds the connector. Those that write `running` need its lock. -/
def Worker.step (s : Host) (w : Worker) : Action → Option Host
  | .clear =>
    if w.phase = .entered then
      some { s with cancel := false, connector := some { w with phase := .cleared } }
    else none
  | .publish =>
    if w.phase = .cleared ∧ s.canceller.isNone then
      some { s with running := w.id, connector := some { w with phase := .working }
                    log := .started w.call w.id :: s.log }
    else none
  | .observe =>
    if w.phase = .working then some { s with log := .observed w.call s.cancel :: s.log } else none
  | .withdraw =>
    if w.phase = .working ∧ s.canceller.isNone then
      some { s with running := none, connector := some { w with phase := .withdrawn }
                    log := .stopped w.call :: s.log }
    else none
  | .leave =>
    if w.phase = .withdrawn then some { s with cancel := false, connector := none } else none
  | _ => none

/-- The steps of the cancel that holds `running`. -/
def Canceller.step (s : Host) (c : Canceller) : Action → Option Host
  | .compare =>
    if c.compared.isNone then
      some { s with canceller := some { c with compared := some (s.running == some c.target) }
                    log := .named c.target :: s.log }
    else none
  | .store => if c.compared = some true then some { s with cancel := true } else none
  | .answer =>
    c.compared.map fun matched =>
      { s with canceller := none, log := .answered c.target matched :: s.log }
  | _ => none

def step (s : Host) : Action → Option Host
  | .enter call id =>
    if s.connector.isNone then some { s with connector := some ⟨call, id, .entered⟩ } else none
  | .lock target =>
    if s.canceller.isNone then some { s with canceller := some ⟨target, none⟩ } else none
  | .compare => s.canceller.bind fun c => c.step s .compare
  | .store => s.canceller.bind fun c => c.step s .store
  | .answer => s.canceller.bind fun c => c.step s .answer
  | a => s.connector.bind fun w => w.step s a

/-! ## The invariant -/

/-- The call and id that a worker has published. -/
def Worker.published (w : Worker) : Option (Nat × Option String) :=
  if w.phase = .working then some (w.call, w.id) else none

structure Invariant (s : Host) : Prop where
  current_eq : current s.log = s.connector.bind Worker.published
  running_eq : s.running = (current s.log).bind Prod.snd
  /-- Once cleared, the flag is set only by a cancel that named the call. -/
  asked : ∀ w, s.connector = some w → w.phase = .cleared ∨ w.phase = .working →
    s.cancel = true → NamedSince s.log
  /-- The lock on `running` keeps a comparison right until the answer. -/
  matched : ∀ c b, s.canceller = some c → c.compared = some b →
    (b = true ↔ s.running = some c.target) ∧ (b = true → NamedSince s.log)
  sound : Sound s.log

theorem running_iff {log : List Event} {target : String} :
    (current log).bind Prod.snd = some target ↔ ∃ call, current log = some (call, some target) := by
  cases current log <;> simp [Prod.ext_iff]

/-- Only a call with an id is ever named. -/
theorem NamedSince.exists_id {log : List Event} (h : NamedSince log) :
    ∃ call id, current log = some (call, some id) := by
  induction log with
  | nil => cases h
  | cons e log ih =>
    cases e with
    | started | stopped => cases h
    | observed | answered => exact ih h
    | named target =>
      rcases h with ⟨call, h⟩ | h
      · exact ⟨call, target, h⟩
      · exact ih h

theorem Worker.step_invariant {s t : Host} {w : Worker} {a : Action} (h : Invariant s)
    (hw : s.connector = some w) (ht : w.step s a = some t) : Invariant t := by
  obtain ⟨hcurrent, hrunning, hasked, hmatched, hsound⟩ := h
  rw [hw] at hcurrent
  cases a with
  | clear =>
    obtain ⟨hphase, ⟨⟩⟩ := (Option.ite_none_right_eq_some ..).1 ht
    refine ⟨?_, hrunning, by rintro _ _ _ ⟨⟩, hmatched, hsound⟩
    simpa [Worker.published, hphase] using hcurrent
  | publish =>
    obtain ⟨⟨hphase, hfree⟩, ⟨⟩⟩ := (Option.ite_none_right_eq_some ..).1 ht
    rw [Option.isNone_iff_eq_none] at hfree
    refine ⟨rfl, rfl, fun _ _ _ hflag => ?_, by simp [hfree], hsound⟩
    -- nothing is published yet, so no cancel can have set the flag
    obtain ⟨call, id, hrun⟩ := (hasked w hw (.inl hphase) hflag).exists_id
    simp [hrun, Worker.published, hphase] at hcurrent
  | observe =>
    obtain ⟨hphase, ⟨⟩⟩ := (Option.ite_none_right_eq_some ..).1 ht
    refine ⟨by rwa [hw], hrunning, hasked, hmatched, fun hflag => ?_, hsound⟩
    have hnamed := hasked w hw (.inr hphase) hflag
    obtain ⟨call, id, hrun⟩ := hnamed.exists_id
    refine ⟨⟨id, ?_⟩, hnamed⟩
    simp_all [Worker.published]
  | withdraw =>
    obtain ⟨⟨hphase, hfree⟩, ⟨⟩⟩ := (Option.ite_none_right_eq_some ..).1 ht
    rw [Option.isNone_iff_eq_none] at hfree
    exact ⟨rfl, rfl, by simp, by simp [hfree], hsound⟩
  | leave =>
    obtain ⟨hphase, ⟨⟩⟩ := (Option.ite_none_right_eq_some ..).1 ht
    refine ⟨?_, hrunning, by rintro _ ⟨⟩, hmatched, hsound⟩
    simpa [Worker.published, hphase] using hcurrent
  | enter | lock | compare | store | answer => cases ht

theorem Canceller.step_invariant {s t : Host} {c : Canceller} {a : Action} (h : Invariant s)
    (hc : s.canceller = some c) (ht : c.step s a = some t) : Invariant t := by
  obtain ⟨hcurrent, hrunning, hasked, hmatched, hsound⟩ := h
  cases a with
  | compare =>
    obtain ⟨hphase, ⟨⟩⟩ := (Option.ite_none_right_eq_some ..).1 ht
    refine ⟨hcurrent, hrunning, fun w hw hp hf => .inr (hasked w hw hp hf), ?_, hsound⟩
    rintro _ _ ⟨⟩ ⟨⟩
    simp only [beq_iff_eq, true_and]
    exact fun h => .inl (running_iff.1 (hrunning.symm.trans h))
  | store =>
    obtain ⟨hphase, ⟨⟩⟩ := (Option.ite_none_right_eq_some ..).1 ht
    exact ⟨hcurrent, hrunning, fun _ _ _ _ => (hmatched c true hc hphase).2 rfl, hmatched, hsound⟩
  | answer =>
    obtain ⟨b, hb, rfl⟩ := Option.map_eq_some_iff.1 ht
    obtain ⟨hiff, -⟩ := hmatched c b hc hb
    rw [hrunning, running_iff] at hiff
    exact ⟨hcurrent, hrunning, hasked, (by rintro _ _ ⟨⟩), hiff, hsound⟩
  | enter | clear | publish | observe | withdraw | leave | lock => cases ht

theorem step_invariant (s : Host) (a : Action) (t : Host) (h : Invariant s)
    (ht : step s a = some t) : Invariant t := by
  cases a with
  | enter call id =>
    obtain ⟨hfree, ⟨⟩⟩ := (Option.ite_none_right_eq_some ..).1 ht
    obtain ⟨hcurrent, hrunning, hasked, hmatched, hsound⟩ := h
    rw [Option.isNone_iff_eq_none] at hfree
    rw [hfree] at hcurrent
    exact ⟨hcurrent, hrunning, by simp, hmatched, hsound⟩
  | lock target =>
    obtain ⟨hfree, ⟨⟩⟩ := (Option.ite_none_right_eq_some ..).1 ht
    exact ⟨h.current_eq, h.running_eq, h.asked, by rintro _ _ ⟨⟩ ⟨⟩, h.sound⟩
  | compare | store | answer =>
    obtain ⟨c, hc, hct⟩ := Option.bind_eq_some_iff.1 ht
    exact c.step_invariant h hc hct
  | clear | publish | observe | withdraw | leave =>
    obtain ⟨w, hw, hwt⟩ := Option.bind_eq_some_iff.1 ht
    exact w.step_invariant h hw hwt

theorem invariant_new : Invariant Host.new :=
  ⟨rfl, rfl, by rintro _ ⟨⟩, by rintro _ _ ⟨⟩, trivial⟩

/-- In every interleaving a set flag is observed only by the call that a cancel has named while it
ran, and a cancel answers exactly whether the id it names is running. -/
theorem cancel_reaches_named {as : List Action} {s : Host}
    (h : run step Host.new as = some s) : Sound s.log :=
  (invariant Invariant (fun s a t hs _ ht => step_invariant s a t hs ht) invariant_new
    (Along.of_forall (fun _ _ => trivial) _ as) h).sound

/-- A late cancel of the first call finds the second one running. -/
def lateCancel : List Action :=
  [.enter 1 (some "a"), .clear, .publish, .lock "a", .compare, .store, .answer, .observe,
    .withdraw, .leave, .enter 2 (some "b"), .clear, .publish, .lock "a", .compare, .answer,
      .observe]

theorem cancel_reaches_named_late : ∃ s, run step Host.new lateCancel = some s ∧
    s.log.take 2 = [.observed 2 false, .answered "a" false] ∧ Sound s.log := by
  obtain ⟨s, hs, hlog⟩ : ∃ s, run step Host.new lateCancel = some s ∧
      s.log.take 2 = [.observed 2 false, .answered "a" false] := ⟨_, rfl, by decide⟩
  exact ⟨s, hs, hlog, cancel_reaches_named hs⟩

end Traverse.Model

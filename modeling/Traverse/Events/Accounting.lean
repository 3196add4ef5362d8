import Traverse.Events.Protocol

/-!
# Events.Accounting

`DurableBroker` follows the protocol between publish calls and the writer: a step is a move of the
protocol or leaves it as it is (`Tracked.step`), as long as an append that fails stores nothing
and the journal has numbers left. Every outcome of `publish` is therefore accounted for
(`publish_accounted`).
-/

namespace Traverse.Events

open Decimal Journal List Function Machine
open DurableBroker (publish settle handOff sendRevoke settleRevoke acknowledge append revoke record)

/-- An append or a revocation that fails stores nothing. -/
def Step.Harmless : Step → Prop
  | .append _ io | .revoke _ io => Journal.Harmless io
  | _ => True

instance : DecidablePred Step.Harmless := fun a =>
  match a with
  | .append _ io | .revoke _ io => inferInstanceAs (Decidable (∀ fault ∈ io, fault.written = 0))
  | .publish .. | .settle .. | .handOff .. | .sendRevoke .. | .settleRevoke .. | .receive
  | .acknowledge | .acknowledgeRevoke | .subscribe .. | .pollLive .. | .pollDurable ..
  | .pollRead | .cancel .. => .isTrue trivial

/-- The steps of the subscribers. -/
def Step.consumer : Step → Bool
  | .subscribe .. | .pollLive .. | .pollDurable .. | .pollRead | .cancel _ => true
  | .publish .. | .settle _ | .handOff .. | .sendRevoke _ | .settleRevoke _ | .receive | .append ..
  | .acknowledge | .revoke .. | .acknowledgeRevoke => false

namespace DurableBroker

variable {β : Type}

/-- The journal can number one more record. -/
def Room (w : DurableBroker β) : Prop := w.root.acks.length + 1 < u64Max
  deriving Decidable

def protocol (w : DurableBroker β) : Protocol where
  jobs := w.jobs
  writer := w.writer
  cells := w.writeAcks
  calls := w.calls
  audit := w.audit
  owner := w.owner
  log := w.root.acks

structure Tracked (c : RecordCodec TraverseEvent) (base : Nat) (w : DurableBroker β) : Prop where
  logged : Logged c w.root
  running : ∃ j, w.root.journal = some j
  accounts : Protocol.Accounts base w.protocol

variable {c : RecordCodec TraverseEvent} {ops : EventBroker β} {base : Nat} {w w' : DurableBroker β}

/-- The step made a move of the protocol, or none. -/
def Follows (w w' : DurableBroker β) : Prop :=
  w'.protocol = w.protocol ∨ Protocol.Move w.protocol w'.protocol

/-- The same of a step that leaves the journal alone. -/
structure Keeps (w w' : DurableBroker β) : Prop where
  follows : Follows w w'
  root : w'.root = w.root

theorem Tracked.follows (h : Tracked c base w) (hlog : Logged c w'.root)
    (hrun : ∃ j, w'.root.journal = some j) (hf : Follows w w') : Tracked c base w' := by
  refine ⟨hlog, hrun, ?_⟩
  rcases hf with he | m
  · rw [he]
    exact h.accounts
  · exact h.accounts.move m

/-! ## Publish calls -/

variable {call timeout : Nat} {event : TraverseEvent} {now : Int} {cursor : String}
  {error : EventError} {j : DurableEventJournal TraverseEvent} {io : Option WriteFault}
  {root root' : Root TraverseEvent} {a : Step} {config : JournalConfig} {inner : β}

theorem publish_follows (halive : w.writer ≠ .stopped) (hnew : w.calls call = none) :
    Keeps w (w.publish call event) := by
  unfold publish
  split
  · rename_i hw
    exact absurd hw halive
  · exact ⟨.inr (.publish hnew), rfl⟩

theorem settle_follows (hcall : w.calls call = some (.waiting event)) :
    Keeps w (w.settle call event) := by
  unfold settle
  cases hcell : w.writeAcks call with
  | done cursor => exact ⟨.inr (.confirm hcall hcell), rfl⟩
  | failed e =>
    refine ⟨.inr (.giveUp hcall ?_ (List.Subset.refl _)), rfl⟩
    intro cursor hd
    cases hcell.symm.trans hd
  | pending | abandoned =>
    refine ⟨.inr (.giveUp hcall ?_ (subset_append_left _ _)), rfl⟩
    intro cursor hd
    cases hcell.symm.trans hd

theorem handOff_follows (hcall : w.calls call = some (.delivering event cursor)) :
    Keeps w (w.handOff ops now call event cursor) := by
  unfold handOff
  obtain ⟨result, inner⟩ := ops.publishWithCursor w.inner now event cursor
  cases result with
  | ok u => exact ⟨.inr (.accept hcall), rfl⟩
  | error e => exact ⟨.inr (.refuse hcall), rfl⟩

theorem sendRevoke_follows (halive : w.writer ≠ .stopped)
    (hcall : w.calls call = some (.refused event cursor error)) :
    Keeps w (w.sendRevoke call event cursor error) := by
  unfold sendRevoke
  split
  · rename_i hw
    exact absurd hw halive
  · exact ⟨.inr (.sendRevoke hcall), rfl⟩

theorem settleRevoke_follows (hcall : w.calls call = some (.revoking event cursor error)) :
    Keeps w (w.settleRevoke call event error) := by
  unfold settleRevoke
  cases w.revokeAcks call with
  | done | failed => exact ⟨.inr (.endRevoke hcall (List.Subset.refl _)), rfl⟩
  | pending | abandoned => exact ⟨.inr (.endRevoke hcall (subset_append_left _ _)), rfl⟩

/-! ## The writer -/

theorem receive_follows {job : WriterJob} {rest : List WriterJob} (hw : w.writer = .receiving)
    (hj : w.jobs = job :: rest) :
    Keeps w (w.receive job rest) := by
  cases job with
  | write event call => exact ⟨.inr (.takeWrite hw hj), rfl⟩
  | revoke cursor eventId eventType call => exact ⟨.inr (.takeRevoke hw hj), rfl⟩

theorem acknowledge_follows {result : Except JournalError String}
    (hw : w.writer = .wrote event call result) :
    Keeps w (w.acknowledge event call result) := by
  unfold acknowledge
  split
  · rename_i hcell
    exact ⟨.inr (.abandon hw hcell), rfl⟩
  · exact ⟨.inr (.abandonFailed hw), rfl⟩
  · rename_i hcell
    exact ⟨.inr (.acknowledge hw hcell), rfl⟩
  · rename_i hcell
    exact ⟨.inr (.acknowledgeFailed hw hcell), rfl⟩

theorem append_follows (h : Tracked c base w) (hroom : w.Room) (hio : Journal.Harmless io)
    (hj : w.root.journal = some j) (hw : w.writer = .writing event call) :
    Follows w (w.append c j now io event call) ∧
      Logged c (w.append c j now io event call).root ∧
      ∃ j', (w.append c j now io event call).root.journal = some j' := by
  obtain ⟨hlog, hent⟩ := h.logged.append hj hroom now hio event
  have hjournal := w.root.returned_journal (some event) none (j.append c w.root.dir now io event)
  unfold append
  generalize hres : j.append c w.root.dir now io event = res at hlog hent hjournal ⊢
  obtain ⟨result, j', dir⟩ := res
  cases hent with
  | failed acks =>
    refine ⟨.inr ?_, hlog, _, hjournal⟩
    exact Protocol.Move.appendFailed (s := w.protocol) hw
  | entered acks =>
    refine ⟨.inr ?_, hlog, _, hjournal⟩
    exact Protocol.Move.append (s := w.protocol) hw

theorem revoke_follows {eventId eventType : String} {call : Option Nat} (h : Tracked c base w)
    (hroom : w.Room) (hio : Journal.Harmless io) (hj : w.root.journal = some j)
    (hw : w.writer = .revoking cursor eventId eventType call) :
    Follows w (w.revoke c j now io cursor eventId eventType call) ∧
      Logged c (w.revoke c j now io cursor eventId eventType call).root ∧
      ∃ j', (w.revoke c j now io cursor eventId eventType call).root.journal = some j' := by
  obtain ⟨p, _, ho, _⟩ := h.accounts.revoking cursor eventId eventType (.inr ⟨call, hw⟩)
  obtain ⟨n, rfl, hn⟩ := h.accounts.owner_le ho
  have hn : n ≤ w.root.acks.length := hn
  have hparse : (parseU64 n.repr).toOption = some n := by
    rw [parseU64_repr (by have := h.logged.length_lt; omega)]
    rfl
  have hrests : ∀ result, (afterRevoke call result).rests = true := by
    intro result
    cases call <;> rfl
  obtain ⟨hlog, hent⟩ := h.logged.appendRevocation hj hroom now hio hn
  have hjournal := w.root.returned_journal none (some n)
    (j.appendRevocation c w.root.dir now io n.repr)
  unfold revoke
  rw [hparse]
  generalize j.appendRevocation c w.root.dir now io n.repr = res at hlog hent hjournal ⊢
  obtain ⟨result, j', dir⟩ := res
  cases hent with
  | failed acks =>
    refine ⟨.inr ?_, hlog, _, hjournal⟩
    exact Protocol.Move.revokeFailed (s := w.protocol) hw (hrests _)
  | entered acks =>
    refine ⟨.inr ?_, hlog, _, hjournal⟩
    exact Protocol.Move.revoke (s := w.protocol) hw rfl (hrests _)

/-! ## Consumers -/

def Reads (c : RecordCodec TraverseEvent) (root root' : Root TraverseEvent) : Prop :=
  root' = root ∨ ∃ j cursor n, root.journal = some j ∧
    root' = { root with journal := some (j.replayFrom c root.dir cursor n).2 }

theorem Reads.acks (h : Reads c root root') : root'.acks = root.acks := by
  rcases h with rfl | ⟨_, _, _, _, rfl⟩ <;> rfl

theorem Reads.logged (h : Reads c root root') (hl : Logged c root) : Logged c root' := by
  rcases h with rfl | ⟨j, cursor, n, hj, rfl⟩
  · exact hl
  · obtain ⟨segs, hl⟩ := hl
    exact ⟨segs, hl.replayed hj cursor n⟩

theorem Reads.running (h : Reads c root root') (hr : ∃ j, root.journal = some j) :
    ∃ j, root'.journal = some j := by
  rcases h with rfl | ⟨j, cursor, n, hj, rfl⟩
  · exact hr
  · exact ⟨_, rfl⟩

/-- A consumer's step: nothing of the protocol changes. -/
structure Consumes (c : RecordCodec TraverseEvent) (w w' : DurableBroker β) : Prop where
  jobs : w'.jobs = w.jobs
  writer : w'.writer = w.writer
  writeAcks : w'.writeAcks = w.writeAcks
  calls : w'.calls = w.calls
  audit : w'.audit = w.audit
  owner : w'.owner = w.owner
  reads : Reads c w.root w'.root

theorem Consumes.protocol (h : Consumes c w w') : w'.protocol = w.protocol := by
  unfold DurableBroker.protocol
  rw [h.jobs, h.writer, h.writeAcks, h.calls, h.audit, h.owner, h.reads.acks]

theorem Tracked.consumes (h : Tracked c base w) (hc : Consumes c w w') : Tracked c base w' :=
  h.follows (hc.reads.logged h.logged) (hc.reads.running h.running) (.inl hc.protocol)

variable (c ops) in
/-- `subscribe` makes its call on the wrapped broker, and may read the journal and add an entry. -/
theorem subscribe_eq (w : DurableBroker β) (now : Int) (eventType fromCursor : String)
    (subject : Option String) :
    ∃ root nextId entries, Reads c w.root root ∧
      (w.subscribeForSubject c ops now eventType fromCursor subject).2 = { w with
        inner := (ops.subscribeForSubject w.inner now eventType fromCursor subject).2
        root := root
        nextId := nextId
        entries := entries } := by
  unfold DurableBroker.subscribeForSubject
  rcases ops.subscribeForSubject w.inner now eventType fromCursor subject with ⟨result, b⟩
  split
  · next heq =>
    cases heq
    exact ⟨_, _, _, .inl rfl, rfl⟩
  · next heq =>
    cases heq
    unfold DurableBroker.subscribeDurable
    split
    · exact ⟨_, _, _, .inl rfl, rfl⟩
    · next j hj =>
      have hreads : Reads c w.root { w.root with
          journal := some (j.replayFrom c w.root.dir fromCursor 0).2 } := .inr ⟨j, _, _, hj, rfl⟩
      simp only []
      split
      · split <;> exact ⟨_, _, _, hreads, rfl⟩
      all_goals exact ⟨_, _, _, hreads, rfl⟩
  · next heq =>
    cases heq
    exact ⟨_, _, _, .inl rfl, rfl⟩

theorem step_consumes (hs : w.step c ops a = some w') (ha : a.consumer = true) :
    Consumes c w w' := by
  cases takes_of_step hs with
  | subscribe =>
    obtain ⟨root, nextId, entries, hreads, heq⟩ := subscribe_eq c ops w _ _ _ _
    rw [heq]
    exact ⟨rfl, rfl, rfl, rfl, rfl, rfl, hreads⟩
  | pollLive =>
    unfold DurableBroker.pollLive
    split <;> exact ⟨rfl, rfl, rfl, rfl, rfl, rfl, .inl rfl⟩
  | pollDurable =>
    unfold DurableBroker.pollDurable
    split
    · exact ⟨rfl, rfl, rfl, rfl, rfl, rfl, .inl rfl⟩
    · split <;> exact ⟨rfl, rfl, rfl, rfl, rfl, rfl, .inl rfl⟩
  | @pollRead p j _ hj =>
    unfold DurableBroker.pollRead
    simp only []
    split
    · unfold DurableBroker.takeBatch
      simp only []
      split <;> exact ⟨rfl, rfl, rfl, rfl, rfl, rfl, .inr ⟨j, _, _, hj, rfl⟩⟩
    · exact ⟨rfl, rfl, rfl, rfl, rfl, rfl, .inr ⟨j, _, _, hj, rfl⟩⟩
  | cancel =>
    unfold DurableBroker.cancel
    split <;> exact ⟨rfl, rfl, rfl, rfl, rfl, rfl, .inl rfl⟩
  | publish | settle | handOff | sendRevoke | settleRevoke | receive | append | acknowledge
  | revoke | acknowledgeRevoke => cases ha

/-- What a step of a publish call or of the writer leaves alone. -/
structure Apart (w w' : DurableBroker β) : Prop where
  durablePolls : w'.durablePolls = w.durablePolls
  poller : w'.poller = w.poller
  livePolls : w'.livePolls = w.livePolls

theorem step_apart (hs : w.step c ops a = some w') (ha : a.consumer = false) :
    Apart w w' ∧ ((∀ call now, a ≠ .handOff call now) → w'.inner = w.inner) := by
  cases takes_of_step hs with
  | publish => unfold publish; split <;> exact ⟨⟨rfl, rfl, rfl⟩, fun _ => rfl⟩
  | settle => unfold settle; split <;> exact ⟨⟨rfl, rfl, rfl⟩, fun _ => rfl⟩
  | handOff => unfold handOff; split <;> exact ⟨⟨rfl, rfl, rfl⟩, fun h => absurd rfl (h _ _)⟩
  | sendRevoke => unfold sendRevoke; split <;> exact ⟨⟨rfl, rfl, rfl⟩, fun _ => rfl⟩
  | settleRevoke => unfold settleRevoke; split <;> exact ⟨⟨rfl, rfl, rfl⟩, fun _ => rfl⟩
  | receive => unfold DurableBroker.receive; split <;> exact ⟨⟨rfl, rfl, rfl⟩, fun _ => rfl⟩
  | append => unfold append; simp only []; split <;> exact ⟨⟨rfl, rfl, rfl⟩, fun _ => rfl⟩
  | acknowledge => unfold acknowledge; split <;> exact ⟨⟨rfl, rfl, rfl⟩, fun _ => rfl⟩
  | revoke => unfold revoke; simp only []; split <;> exact ⟨⟨rfl, rfl, rfl⟩, fun _ => rfl⟩
  | acknowledgeRevoke => exact ⟨⟨rfl, rfl, rfl⟩, fun _ => rfl⟩
  | subscribe | pollLive | pollDurable | pollRead | cancel => cases ha

/-- A step changes one call at most. Only `publish` starts a call, and only a hand-off ends it
well. -/
theorem step_calls (hs : w.step c ops a = some w') :
    w'.calls = w.calls ∨ ∃ call phase, w'.calls = update w.calls call (some phase) ∧
      (w.calls call = none → ∃ event, a = .publish call event) ∧
      ∀ event, phase = .returned event (.ok ()) → ∃ now cursor, a = .handOff call now ∧
        w.calls call = some (.delivering event cursor) ∧
        (ops.publishWithCursor w.inner now event cursor).1 = .ok () := by
  have hstarted : ∀ {call : Nat} {phase : PublishCall}, w.calls call = some phase →
      w.calls call = none → ∃ event, a = .publish call event := by
    intro call phase h hnone
    rw [h] at hnone
    cases hnone
  cases hc : a.consumer with
  | true => exact .inl (step_consumes hs hc).calls
  | false =>
    cases takes_of_step hs with
    | publish =>
      unfold publish
      split <;> exact .inr ⟨_, _, rfl, fun _ => ⟨_, rfl⟩, fun _ h => by cases h⟩
    | settle h =>
      unfold settle
      split <;> exact .inr ⟨_, _, rfl, hstarted h, fun _ h => by cases h⟩
    | handOff h =>
      unfold handOff
      split
      · next hres =>
        refine .inr ⟨_, _, rfl, hstarted h, fun event hphase => ?_⟩
        cases hphase
        exact ⟨_, _, rfl, h, congrArg Prod.fst hres⟩
      · exact .inr ⟨_, _, rfl, hstarted h, fun _ h => by cases h⟩
    | sendRevoke h =>
      unfold sendRevoke
      split <;> exact .inr ⟨_, _, rfl, hstarted h, fun _ h => by cases h⟩
    | settleRevoke h =>
      unfold settleRevoke
      split <;> exact .inr ⟨_, _, rfl, hstarted h, fun _ h => by cases h⟩
    | receive => unfold DurableBroker.receive; split <;> exact .inl rfl
    | append => unfold append; simp only []; split <;> exact .inl rfl
    | acknowledge => unfold acknowledge; split <;> exact .inl rfl
    | revoke => unfold revoke; simp only []; split <;> exact .inl rfl
    | acknowledgeRevoke => exact .inl rfl
    | subscribe | pollLive | pollDurable | pollRead | cancel => cases hc

/-! ## All steps -/

theorem Tracked.step (h : Tracked c base w) (ha : a.Harmless) (hroom : w.Room)
    (hs : w.step c ops a = some w') : Tracked c base w' ∧ Follows w w' := by
  have hkeep : ∀ {v : DurableBroker β}, Keeps w v → v = w' →
      Tracked c base w' ∧ Follows w w' := by
    rintro v ⟨hf, hroot⟩ rfl
    exact ⟨h.follows (hroot ▸ h.logged) (hroot ▸ h.running) hf, hf⟩
  have hwrite : ∀ {v : DurableBroker β}, (Follows w v ∧ Logged c v.root ∧
      ∃ j, v.root.journal = some j) → v = w' → Tracked c base w' ∧ Follows w w' := by
    rintro v ⟨hf, hlog, hrun⟩ rfl
    exact ⟨h.follows hlog hrun hf, hf⟩
  have hconsume := step_consumes hs
  cases takes_of_step hs with
  | publish hp => exact hkeep (publish_follows h.accounts.alive hp) rfl
  | settle hp => exact hkeep (settle_follows hp) rfl
  | handOff hp => exact hkeep (handOff_follows hp) rfl
  | sendRevoke hp => exact hkeep (sendRevoke_follows h.accounts.alive hp) rfl
  | settleRevoke hp => exact hkeep (settleRevoke_follows hp) rfl
  | receive hw hj => exact hkeep (receive_follows hw hj) rfl
  | append hw hj => exact hwrite (append_follows h hroom ha hj hw) rfl
  | acknowledge hw => exact hkeep (acknowledge_follows hw) rfl
  | revoke hw hj => exact hwrite (revoke_follows h hroom ha hj hw) rfl
  | acknowledgeRevoke hw =>
    exact hkeep (show Keeps w (w.acknowledgeRevoke _ _) from ⟨.inr (.acknowledgeRevoke hw), rfl⟩)
      rfl
  | subscribe | pollLive | pollDurable | pollRead | cancel =>
    exact ⟨h.consumes (hconsume rfl), .inl (hconsume rfl).protocol⟩

/-! ## Opening and running -/

theorem openBroker_eq (h : openBroker c ops config timeout root inner = some w) :
    ∃ root' j, root.step c (.openRoot config) = some root' ∧ root'.journal = some j ∧
      root'.acks = root.acks ∧
        w = .new (ops.seedRestartFloor inner j.latestCursor) root' timeout := by
  unfold openBroker at h
  cases hs : root.step c (.openRoot config) with
  | none => simp [hs] at h
  | some root' =>
    cases hj : root'.journal with
    | none => simp [hs, hj] at h
    | some j =>
      simp only [hs, hj, Option.some.injEq] at h
      refine ⟨root', j, rfl, hj, ?_, h.symm⟩
      simp only [Root.step] at hs
      split at hs
      · cases hs
      · split at hs <;> cases hs <;> rfl

theorem tracked_new (inner : β) (timeout : Nat) (hlog : Logged c root)
    (hrun : ∃ j, root.journal = some j) : Tracked c root.acks.length (.new inner root timeout) := by
  have hnone : ∀ eventId eventType cursor,
      ¬ (new inner root timeout).protocol.Revoking cursor eventId eventType := by
    rintro _ _ _ (⟨_, h⟩ | ⟨_, h⟩) <;> cases h
  refine ⟨hlog, hrun, ?_⟩
  exact {
    length := Nat.le_refl _
    numbered := hlog.cursors
    back := hlog.revoked_le
    alive := fun h => by cases h
    held := fun _ _ h => by cases h
    owned := fun a ha => by simp [protocol, new] at ha
    single := fun _ _ _ h => by cases h
    once := nodup_nil
    awaits := fun _ _ h => by rcases h with h | h <;> cases h
    wrote := fun _ _ _ h => by cases h
    revoking := fun _ _ _ h => absurd h (hnone _ _ _)
    done := fun _ _ h => by cases h
    delivering := fun _ _ _ h => by cases h
    refused := fun _ _ _ _ h => by cases h
    kept := fun _ _ h => by cases h
    standing := fun _ _ h => by cases h }

/-- The environment of the results below: a failing append stores nothing, and the journal does
not run out of numbers. -/
def Calm (w : DurableBroker β) (a : Step) : Prop := a.Harmless ∧ w.Room
  deriving Decidable

variable {earlier : List (Call TraverseEvent)} {w₀ : DurableBroker β} {steps : List Step}

theorem tracked_open (hroot : LayoutRun c earlier root)
    (hopen : openBroker c ops config timeout root inner = some w) :
    Tracked c root.acks.length w := by
  obtain ⟨root', j, hs, hj, hacks, rfl⟩ := openBroker_eq hopen
  rw [← hacks]
  exact tracked_new _ timeout (hroot.flawless_open hs).logged ⟨j, hj⟩

theorem tracked_run (h : Tracked c base w) (halong : Along (step c ops) Calm w steps)
    (hrun : run (step c ops) w steps = some w') : Tracked c base w' := by
  refine invariant (Tracked c base) ?_ h halong hrun
  rintro s a s' hs ⟨ha, hroom⟩ hstep
  exact (hs.step ha hroom hstep).1

/-! ## Every outcome is accounted for -/

/-- An audit record says that the event's record could not be revoked. -/
def AuditedFailure (w : DurableBroker β) (event : TraverseEvent) : Prop :=
  ∃ a ∈ w.audit, a.kind = .journalRevocationFailed ∧ a.eventId = event.id ∧
    a.eventType = event.eventType

def NoneRunning (w : DurableBroker β) : Prop :=
  ∀ call phase, w.calls call = some phase → phase.running = false

theorem Tracked.settled (h : Tracked c base w) (hidle : w.writer = .receiving) (hjobs : w.jobs = [])
    (hnone : w.NoneRunning) (ho : w.owner cursor = some call) :
    (∃ event, w.calls call = some (.returned event (.ok ()))) ∨ w.protocol.Revoked cursor ∨
      ∃ event, w.protocol.CallOf call event ∧ w.AuditedFailure event := by
  cases h.accounts.standing cursor call ho with
  | wrote hw => cases hidle.symm.trans hw
  | acknowledged hd =>
    obtain ⟨event, hwait⟩ := (h.accounts.done call cursor hd).1
    cases hnone call _ hwait
  | delivering hd | refused hd => cases hnone call _ hd
  | revoking hr =>
    rcases hr with ⟨q, hq⟩ | ⟨q, hq⟩
    · rw [show w.protocol.jobs = [] from hjobs] at hq
      cases hq
    · cases hidle.symm.trans hq
  | revoked hd => exact .inr (.inl hd)
  | audited hcall ha => exact .inr (.inr ⟨_, hcall, ha⟩)
  | kept hd => exact .inl ⟨_, hd⟩

theorem Tracked.stored_owner (h : Tracked c base w) {r : JournalRecordV1 TraverseEvent}
    (hr : r ∈ storedRecords c w.root.dir) (hbase : base < r.seq) (he : r.event = some event) :
    ∃ call, w.owner r.seq.repr = some call ∧ w.protocol.CallOf call event := by
  have hmem : Ack.ofRecord r ∈ w.root.acks := h.logged.stored ▸ mem_map_of_mem hr
  have hdrop : Ack.ofRecord r ∈ w.root.acks.drop base := by
    obtain ⟨i, hi, hget⟩ := getElem_of_mem hmem
    have hseq := h.logged.cursor_getElem (List.getElem?_eq_getElem hi)
    rw [hget] at hseq
    have hri : r.seq = i + 1 := repr_injective hseq
    refine mem_iff_getElem?.2 ⟨i - base, ?_⟩
    rw [List.getElem?_drop, show base + (i - base) = i by omega, List.getElem?_eq_getElem hi, hget]
  obtain ⟨call, ho⟩ := h.accounts.owned _ hdrop event he
  refine ⟨call, ho, ?_⟩
  obtain ⟨b, hb, hc, event', he', hcall⟩ := h.accounts.held _ call ho
  have hab := h.logged.eq_of_cursor (mem_of_mem_drop hb) hmem hc
  subst hab
  rw [show (Ack.ofRecord r).event = r.event from rfl, he, Option.some.injEq] at he'
  subst he'
  exact hcall

theorem Tracked.revoked_iff (h : Tracked c base w) {n : Nat} :
    w.protocol.Revoked n.repr ↔ ∃ r ∈ storedRecords c w.root.dir, r.revokes = some n := by
  constructor
  · rintro ⟨k, hk, he⟩
    rw [repr_injective he, show w.protocol.log = w.root.acks from rfl, h.logged.revoked_eq] at hk
    exact mem_filterMap.1 hk
  · rintro ⟨r, hr, hrev⟩
    refine ⟨n, ?_, rfl⟩
    rw [show w.protocol.log = w.root.acks from rfl, h.logged.revoked_eq]
    exact mem_filterMap.2 ⟨r, hr, hrev⟩

/-- A run of the broker for orders is found by checking its condition on the way. -/
theorem exists_orders_path {P : DurableBroker InProcessBroker → Step → Prop}
    [∀ w a, Decidable (P w a)] {D : DurableBroker InProcessBroker → _ → Prop} (steps : List Step)
    (h : ∃ w₀, openBroker eventCodec ordersOps .default 2000 .empty ordersBroker = some w₀ ∧
      ∃ w, run (guarded (step eventCodec ordersOps) fun w a => decide (P w a)) w₀ steps = some w ∧
        D w₀ w) :
    ∃ w₀ w, openBroker eventCodec ordersOps .default 2000 .empty ordersBroker = some w₀ ∧
      Path (step eventCodec ordersOps) P w₀ steps w ∧ D w₀ w := by
  obtain ⟨w₀, hopen, w, hrun, hd⟩ := h
  exact ⟨w₀, w, hopen, .of_guarded (fun _ _ h => of_decide_eq_true h) hrun, hd⟩

section

variable (hroot : LayoutRun c earlier root)
  (hopen : openBroker c ops config timeout root inner = some w₀)
  (halong : Along (step c ops) Calm w₀ steps) (hrun : run (step c ops) w₀ steps = some w)

include hroot hopen halong hrun

/-- In every state in which the writer waits for a job, none is queued and no publish call is
running, each event record of this broker in the files belongs to a call that returned Ok, or is
named by a revocation record, or has an audit record of a failed revocation; and every call that
returned Ok has its event in the files, unrevoked. -/
theorem publish_accounted (hidle : w.writer = .receiving) (hjobs : w.jobs = [])
    (hnone : w.NoneRunning) :
    (∀ r ∈ storedRecords c w.root.dir, root.acks.length < r.seq → ∀ event, r.event = some event →
      (∃ call, w.owner r.seq.repr = some call ∧
        w.calls call = some (.returned event (.ok ()))) ∨
      (∃ r' ∈ storedRecords c w.root.dir, r'.revokes = some r.seq) ∨ w.AuditedFailure event) ∧
    ∀ call event, w.calls call = some (.returned event (.ok ())) →
      ∃ r ∈ storedRecords c w.root.dir, w.owner r.seq.repr = some call ∧ r.event = some event ∧
        ∀ r' ∈ storedRecords c w.root.dir, r'.revokes ≠ some r.seq := by
  have h := tracked_run (tracked_open hroot hopen) halong hrun
  constructor
  · intro r hr hbase event he
    obtain ⟨call, ho, phase, hphase, hevent⟩ := h.stored_owner hr hbase he
    rcases h.settled hidle hjobs hnone ho with ⟨e, hok⟩ | hrev | ⟨e, ⟨phase', hphase', he'⟩, haudit⟩
    · have hsame : e = event := by
        rw [show w.protocol.calls call = w.calls call from rfl, hok, Option.some.injEq] at hphase
        subst hphase
        exact hevent
      exact .inl ⟨call, ho, hsame ▸ hok⟩
    · exact .inr (.inl (h.revoked_iff.1 hrev))
    · have hsame : e = event := by
        rw [hphase, Option.some.injEq] at hphase'
        subst hphase'
        exact he'.symm.trans hevent
      exact .inr (.inr (hsame ▸ haudit))
  · intro call event hok
    obtain ⟨cursor, ho, _, hnr⟩ := h.accounts.kept call event hok
    obtain ⟨a, ha, rfl, event', he', phase, hphase, hevent⟩ := h.accounts.held cursor call ho
    have hsame : event' = event := by
      rw [show w.protocol.calls call = w.calls call from rfl, hok, Option.some.injEq] at hphase
      subst hphase
      exact hevent.symm
    have hmem : a ∈ w.root.acks := mem_of_mem_drop ha
    rw [h.logged.stored] at hmem
    obtain ⟨r, hr, rfl⟩ := mem_map.1 hmem
    refine ⟨r, hr, ho, hsame ▸ he', fun r' hr' hrev => ?_⟩
    exact hnr (h.revoked_iff.2 ⟨r', hr', hrev⟩)

/-- At every moment of every interleaving, each event record of this broker in the files belongs to
a publish call that was made with that event, and no two records belong to one call. -/
theorem publish_recorded_once :
    (∀ r ∈ storedRecords c w.root.dir, root.acks.length < r.seq → ∀ event, r.event = some event →
      ∃ call, w.owner r.seq.repr = some call ∧
        ∃ phase, w.calls call = some phase ∧ phase.event = event) ∧
    ∀ r ∈ storedRecords c w.root.dir, ∀ r' ∈ storedRecords c w.root.dir, ∀ call,
      w.owner r.seq.repr = some call → w.owner r'.seq.repr = some call → r = r' := by
  have h := tracked_run (tracked_open hroot hopen) halong hrun
  refine ⟨fun r hr hbase event he => h.stored_owner hr hbase he, ?_⟩
  intro r hr r' hr' call ho ho'
  have hnodup : ((storedRecords c w.root.dir).map (·.seq.repr)).Nodup := by
    have hcursors := h.logged.cursors
    rw [h.logged.stored, map_map] at hcursors
    exact hcursors ▸ (nodup_range' ..).map fun _ _ => repr_injective
  exact inj_on_of_nodup_map hnodup hr hr' (h.accounts.single _ _ call ho ho')

end

def twoOrders : List Step :=
  undisturbed 0 (orderCreated "evt-1") 0 ++ undisturbed 1 (orderCreated "evt-2") 0

theorem publish_recorded_once_order : ∃ w₀ w : DurableBroker InProcessBroker,
    openBroker eventCodec ordersOps .default 2000 .empty ordersBroker = some w₀ ∧
    run (step eventCodec ordersOps) w₀ twoOrders = some w ∧
    (storedRecords eventCodec w.root.dir).map (·.seq) = [1, 2] ∧
    (∀ r ∈ storedRecords eventCodec w.root.dir, 0 < r.seq → ∀ event, r.event = some event →
      ∃ call, w.owner r.seq.repr = some call ∧
        ∃ phase, w.calls call = some phase ∧ phase.event = event) ∧
    ∀ r ∈ storedRecords eventCodec w.root.dir, ∀ r' ∈ storedRecords eventCodec w.root.dir, ∀ call,
      w.owner r.seq.repr = some call → w.owner r'.seq.repr = some call → r = r' := by
  obtain ⟨w₀, w, hopen, hpath, hstored⟩ := exists_orders_path (P := Calm)
    (D := fun _ w => (storedRecords eventCodec w.root.dir).map (·.seq) = [1, 2]) twoOrders
    (by rw [eventCodec_eq]; decide +kernel)
  exact ⟨w₀, w, hopen, hpath.2, hstored, publish_recorded_once layoutRun_nil hopen hpath.1 hpath.2⟩

/-! ## One order -/

/-- Only `publish` starts a call. -/
theorem calls_none_step (hs : w.step c ops a = some w') (hnone : w.calls call = none)
    (hstart : ∀ event, a ≠ .publish call event) : w'.calls call = none := by
  rcases step_calls hs with hsame | ⟨other, phase, hcalls, hpublish, _⟩
  · rw [hsame]
    exact hnone
  · rw [hcalls, update_of_ne]
    · exact hnone
    rintro rfl
    obtain ⟨event, ha⟩ := hpublish hnone
    exact hstart event ha

theorem calls_none_run (hrun : run (step c ops) w steps = some w')
    (hnone : w.calls call = none) (hstart : ∀ a ∈ steps, ∀ event, a ≠ .publish call event) :
    w'.calls call = none := by
  refine invariant (fun w => w.calls call = none) ?_ hnone
    ((Along.of_forall (fun _ _ => trivial) w steps).and_mem hstart) hrun
  rintro s a s' hs ⟨-, ha⟩ hstep
  exact calls_none_step hstep hs ha

theorem noneRunning_of_only {phase : PublishCall}
    (hopen : openBroker c ops config timeout root inner = some w₀)
    (hrun : run (step c ops) w₀ steps = some w)
    (honly : ∀ a ∈ steps, ∀ other event, a = .publish other event → other = call)
    (hcall : w.calls call = some phase) (hended : phase.running = false) : w.NoneRunning := by
  obtain ⟨_, _, _, _, _, rfl⟩ := openBroker_eq hopen
  intro other found hfound
  by_cases hother : other = call
  · rw [hother, hcall] at hfound
    cases hfound
    exact hended
  · rw [calls_none_run hrun rfl fun a ha event he => hother (honly a ha other event he)] at hfound
    cases hfound

theorem publish_accounted_order : ∃ w₀ w : DurableBroker InProcessBroker,
    openBroker eventCodec ordersOps .default 2000 .empty ordersBroker = some w₀ ∧
    run (step eventCodec ordersOps) w₀ (undisturbed 0 (orderCreated "evt-1") 0) = some w ∧
    w.calls 0 = some (.returned (orderCreated "evt-1") (.ok ())) ∧
    ∃ r ∈ storedRecords eventCodec w.root.dir, w.owner r.seq.repr = some 0 ∧
      r.event = some (orderCreated "evt-1") ∧
      ∀ r' ∈ storedRecords eventCodec w.root.dir, r'.revokes ≠ some r.seq := by
  obtain ⟨w₀, w, hopen, hpath, hidle, hjobs, hcall⟩ := exists_orders_path (P := Calm)
    (D := fun _ w => w.writer = .receiving ∧ w.jobs = [] ∧
      w.calls 0 = some (.returned (orderCreated "evt-1") (.ok ())))
    (undisturbed 0 (orderCreated "evt-1") 0) (by rw [eventCodec_eq]; decide +kernel)
  have hnone := noneRunning_of_only hopen hpath.2 (by simp [undisturbed, stage]) hcall rfl
  exact ⟨w₀, w, hopen, hpath.2, hcall,
    (publish_accounted layoutRun_nil hopen hpath.1 hpath.2 hidle hjobs hnone).2 0 _ hcall⟩

/-! ## The writer between two steps -/

/-- A call that gives up before the writer appends. -/
def overtaken (call : Nat) (event : TraverseEvent) : List Step :=
  [.publish call event, .receive, .settle call, .append 0 none]

/-- With an empty job queue and no publish call running, the writer may still hold the record of a
call that has given up: it is neither kept nor revoked nor reported. -/
theorem unaccounted_record : ∃ w₀ w : DurableBroker InProcessBroker,
    openBroker eventCodec ordersOps .default 2000 .empty ordersBroker = some w₀ ∧
    Along (step eventCodec ordersOps) Calm w₀ (overtaken 0 (orderCreated "evt-1")) ∧
    run (step eventCodec ordersOps) w₀ (overtaken 0 (orderCreated "evt-1")) = some w ∧
    w.jobs = [] ∧ w.NoneRunning ∧
    ∃ r ∈ storedRecords eventCodec w.root.dir, ∃ event, r.event = some event ∧
      ¬ ((∃ call, w.owner r.seq.repr = some call ∧
          w.calls call = some (.returned event (.ok ()))) ∨
        (∃ r' ∈ storedRecords eventCodec w.root.dir, r'.revokes = some r.seq) ∨
        w.AuditedFailure event) := by
  obtain ⟨w₀, w, hopen, hpath, hjobs, hcall, r, hr, hevent, howner, hrevokes, haudit⟩ :=
    exists_orders_path (P := Calm) (D := fun _ w => w.jobs = [] ∧
        w.calls 0 = some (.returned (orderCreated "evt-1")
          (.error (.journalWriteTimeout "durable write exceeded 2000ms; event rejected"))) ∧
        ∃ r ∈ storedRecords eventCodec w.root.dir, r.event = some (orderCreated "evt-1") ∧
          w.owner r.seq.repr = some 0 ∧
          (∀ r' ∈ storedRecords eventCodec w.root.dir, r'.revokes ≠ some r.seq) ∧
          ∀ a ∈ w.audit, a.kind ≠ .journalRevocationFailed)
      (overtaken 0 (orderCreated "evt-1")) (by rw [eventCodec_eq]; decide +kernel)
  refine ⟨w₀, w, hopen, hpath.1, hpath.2, hjobs,
    noneRunning_of_only hopen hpath.2 (by simp [overtaken]) hcall rfl, r, hr, _, hevent, ?_⟩
  rintro (⟨call, ho, hok⟩ | ⟨r', hr', hrev⟩ | ⟨a, ha, hkind, _⟩)
  · rw [howner, Option.some.injEq] at ho
    rw [← ho, hcall] at hok
    cases hok
  · exact hrevokes r' hr' hrev
  · exact haudit a ha hkind

end DurableBroker

end Traverse.Events

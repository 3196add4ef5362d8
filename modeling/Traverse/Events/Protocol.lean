import Traverse.Events.Durable

/-!
# Events.Protocol

The protocol between publish calls and the writer, on its own: the job queue, the acknowledgement
cells, the phases of the calls, the audit records and the log. `Move` is what its parties can do;
brokers, files and consumers are left out, and a wait may end at any time.

`Standing` lists the places at which the record of a call can be while its outcome is open, and
the three ways in which it is accounted for: the call returned Ok, a revocation names the record,
or an audit record says that it could not be revoked. `Accounts` is an invariant of every move
(`Accounts.move`).
-/

namespace Traverse.Events

open Decimal Journal List Function

def PublishCall.event : PublishCall → TraverseEvent
  | .waiting event => event
  | .delivering event _ => event
  | .refused event _ _ => event
  | .revoking event _ _ => event
  | .returned event _ => event

/-- The calls whose write the writer has taken up and not acknowledged. -/
@[simp] def Writer.writes : Writer → List Nat
  | .writing _ call | .wrote _ call _ => [call]
  | _ => []

/-- The writer is done with a revocation. -/
def Writer.rests : Writer → Bool
  | .receiving | .revoked .. => true
  | _ => false

@[simp] def WriterJob.writes : WriterJob → Option Nat
  | .write _ call => some call
  | .revoke .. => none

theorem Writer.writes_of_rests {writer : Writer} (h : writer.rests = true) :
    writer.writes = [] := by
  cases writer <;> first | rfl | cases h

structure Protocol where
  jobs : List WriterJob
  writer : Writer
  cells : Nat → AckState
  calls : Nat → Option PublishCall
  audit : List JournalWriteAuditRecord
  owner : String → Option Nat
  log : List (Ack TraverseEvent)

namespace Protocol

def setCall (s : Protocol) (call : Nat) (phase : PublishCall) : Protocol :=
  { s with calls := update s.calls call (some phase) }

def setCell (s : Protocol) (call : Nat) (cell : AckState) : Protocol :=
  { s with cells := update s.cells call cell }

/-- The cursor the next entry of the log gets. -/
def nextCursor (s : Protocol) : String := (s.log.length + 1).repr

inductive Move (s : Protocol) : Protocol → Prop where
  | publish {call : Nat} {event : TraverseEvent} (new : s.calls call = none) :
      Move s { (s.setCall call (.waiting event)).setCell call .pending with
        jobs := s.jobs ++ [.write event call] }
  | confirm {call : Nat} {event : TraverseEvent} {cursor : String}
      (phase : s.calls call = some (.waiting event)) (cell : s.cells call = .done cursor) :
      Move s ((s.setCall call (.delivering event cursor)).setCell call .abandoned)
  | giveUp {call : Nat} {event : TraverseEvent} {error : EventError}
      {audit : List JournalWriteAuditRecord} (phase : s.calls call = some (.waiting event))
      (cell : ∀ cursor, s.cells call ≠ .done cursor) (kept : s.audit ⊆ audit) :
      Move s { (s.setCall call (.returned event (.error error))).setCell call .abandoned with
        audit := audit }
  | accept {call : Nat} {event : TraverseEvent} {cursor : String}
      (phase : s.calls call = some (.delivering event cursor)) :
      Move s (s.setCall call (.returned event (.ok ())))
  | refuse {call : Nat} {event : TraverseEvent} {cursor : String} {error : EventError}
      (phase : s.calls call = some (.delivering event cursor)) :
      Move s (s.setCall call (.refused event cursor error))
  | sendRevoke {call : Nat} {event : TraverseEvent} {cursor : String} {error : EventError}
      (phase : s.calls call = some (.refused event cursor error)) :
      Move s { s.setCall call (.revoking event cursor error) with
        jobs := s.jobs ++ [.revoke cursor event.id event.eventType (some call)] }
  | endRevoke {call : Nat} {event : TraverseEvent} {cursor : String} {error error' : EventError}
      {audit : List JournalWriteAuditRecord}
      (phase : s.calls call = some (.revoking event cursor error)) (kept : s.audit ⊆ audit) :
      Move s { s.setCall call (.returned event (.error error')) with audit := audit }
  | takeWrite {event : TraverseEvent} {call : Nat} {rest : List WriterJob}
      (idle : s.writer = .receiving) (head : s.jobs = .write event call :: rest) :
      Move s { s with jobs := rest, writer := .writing event call }
  | takeRevoke {cursor eventId eventType : String} {call : Option Nat} {rest : List WriterJob}
      (idle : s.writer = .receiving)
        (head : s.jobs = .revoke cursor eventId eventType call :: rest) :
      Move s { s with jobs := rest, writer := .revoking cursor eventId eventType call }
  | append {event : TraverseEvent} {call : Nat} (busy : s.writer = .writing event call) :
      Move s { s with
        writer := .wrote event call (.ok s.nextCursor)
        owner := update s.owner s.nextCursor (some call)
        log := s.log ++ [⟨s.nextCursor, some event, none⟩] }
  | appendFailed {event : TraverseEvent} {call : Nat} {error : JournalError}
      (busy : s.writer = .writing event call) :
      Move s { s with writer := .wrote event call (.error error) }
  | acknowledge {event : TraverseEvent} {call : Nat} {cursor : String}
      (busy : s.writer = .wrote event call (.ok cursor)) (waits : s.cells call ≠ .abandoned) :
      Move s { s.setCell call (.done cursor) with writer := .receiving }
  | acknowledgeFailed {event : TraverseEvent} {call : Nat} {error : JournalError}
      (busy : s.writer = .wrote event call (.error error)) (waits : s.cells call ≠ .abandoned) :
      Move s { s.setCell call (.failed error) with writer := .receiving }
  | abandon {event : TraverseEvent} {call : Nat} {cursor : String}
      (busy : s.writer = .wrote event call (.ok cursor)) (gone : s.cells call = .abandoned) :
      Move s { s with writer := .revoking cursor event.id event.eventType none }
  | abandonFailed {event : TraverseEvent} {call : Nat} {error : JournalError}
      (busy : s.writer = .wrote event call (.error error)) :
      Move s { s with writer := .receiving }
  | revoke {cursor eventId eventType : String} {call : Option Nat} {n : Nat} {writer : Writer}
      (busy : s.writer = .revoking cursor eventId eventType call) (names : n.repr = cursor)
      (rests : writer.rests = true) :
      Move s { s with
        writer := writer
        log := s.log ++ [⟨s.nextCursor, none, some n⟩] }
  | revokeFailed {cursor eventId eventType detail : String} {call : Option Nat} {writer : Writer}
      (busy : s.writer = .revoking cursor eventId eventType call) (rests : writer.rests = true) :
      Move s { s with
        writer := writer
        audit := s.audit ++ [⟨.journalRevocationFailed, eventId, eventType, detail⟩] }
  | acknowledgeRevoke {call : Nat} {result : Except JournalError Unit}
      (busy : s.writer = .revoked call result) : Move s { s with writer := .receiving }

/-! ## Places -/

section Places

variable (s : Protocol)

def CallOf (call : Nat) (event : TraverseEvent) : Prop :=
  ∃ phase, s.calls call = some phase ∧ phase.event = event

def pendingWrites : List Nat := s.writer.writes ++ s.jobs.filterMap WriterJob.writes

/-- The outcome of the write is not known to its call: the call still waits, or has given up. -/
def Undecided (call : Nat) (event : TraverseEvent) : Prop :=
  (s.calls call = some (.waiting event) ∧ s.cells call = .pending) ∨
    (s.cells call = .abandoned ∧ ∃ e, s.calls call = some (.returned event (.error e)))

/-- The write of the call is queued or in the writer's hands, and not in the log. -/
def Awaits (event : TraverseEvent) (call : Nat) : Prop :=
  .write event call ∈ s.jobs ∨ s.writer = .writing event call

/-- A revocation of the cursor is queued or in the writer's hands. -/
def Revoking (cursor eventId eventType : String) : Prop :=
  (∃ call, .revoke cursor eventId eventType call ∈ s.jobs) ∨
    ∃ call, s.writer = .revoking cursor eventId eventType call

def Revoked (cursor : String) : Prop := ∃ n ∈ revoked s.log, n.repr = cursor

def Audited (event : TraverseEvent) : Prop :=
  ∃ a ∈ s.audit, a.kind = .journalRevocationFailed ∧ a.eventId = event.id ∧
    a.eventType = event.eventType

/-- The record is the call's and no revocation is on its way to it. -/
def Clean (call : Nat) (cursor : String) : Prop :=
  s.owner cursor = some call ∧ (∀ eventId eventType, ¬ s.Revoking cursor eventId eventType) ∧
    ¬ s.Revoked cursor

inductive Standing (cursor : String) (call : Nat) : Prop where
  | wrote {event : TraverseEvent} (h : s.writer = .wrote event call (.ok cursor))
  | acknowledged (h : s.cells call = .done cursor)
  | delivering {event : TraverseEvent} (h : s.calls call = some (.delivering event cursor))
  | refused {event : TraverseEvent} {error : EventError}
      (h : s.calls call = some (.refused event cursor error))
  | revoking {eventId eventType : String} (h : s.Revoking cursor eventId eventType)
  | revoked (h : s.Revoked cursor)
  | audited {event : TraverseEvent} (hcall : s.CallOf call event) (h : s.Audited event)
  | kept {event : TraverseEvent} (h : s.calls call = some (.returned event (.ok ())))

end Places

/-! ## What a move can change -/

section Moves

variable {s s' : Protocol} {call : Nat} {event : TraverseEvent} {cursor eventId eventType : String}
  (m : Move s s')

include m

theorem Move.callOf (h : s.CallOf call event) : s'.CallOf call event := by
  obtain ⟨phase, hp, he⟩ := h
  cases m <;> simp only [CallOf, setCall, setCell, update_apply] <;> grind [PublishCall.event]

theorem Move.returned {result : Except EventError Unit}
    (h : s.calls call = some (.returned event result)) :
    s'.calls call = some (.returned event result) := by
  cases m <;> simp only [setCall, setCell, update_apply] <;> grind

theorem Move.audited (h : s.Audited event) : s'.Audited event := by
  obtain ⟨a, ha, hk⟩ := h
  cases m <;> exact ⟨a, by grind [setCall, setCell], hk⟩

theorem Move.log :
    (s'.log = s.log ∧ s'.owner = s.owner) ∨
      (∃ event call, s.writer = .writing event call ∧
        s'.writer = .wrote event call (.ok s.nextCursor) ∧ s'.jobs = s.jobs ∧
        s'.owner = update s.owner s.nextCursor (some call) ∧
        s'.log = s.log ++ [⟨s.nextCursor, some event, none⟩]) ∨
      ∃ n eventId eventType call, s.writer = .revoking n.repr eventId eventType call ∧
        s'.owner = s.owner ∧ s'.log = s.log ++ [⟨s.nextCursor, none, some n⟩] := by
  cases m <;> grind [setCall, setCell]

theorem Move.log_append : ∃ added, s'.log = s.log ++ added := by
  rcases m.log with ⟨hl, _⟩ | ⟨_, _, _, _, _, _, hl⟩ | ⟨_, _, _, _, _, _, hl⟩
  · exact ⟨[], by simp [hl]⟩
  all_goals exact ⟨_, hl⟩

/-- A revocation is sent for a refused event or started for an abandoned one. -/
theorem Move.revoking (h : s'.Revoking cursor eventId eventType) :
    s.Revoking cursor eventId eventType ∨
      (∃ call event error, s.calls call = some (.refused event cursor error) ∧
        s'.calls call = some (.revoking event cursor error) ∧ event.id = eventId ∧
        event.eventType = eventType) ∨
      ∃ event call, s.writer = .wrote event call (.ok cursor) ∧ s.cells call = .abandoned ∧
        s'.cells = s.cells ∧ s'.calls = s.calls ∧ s'.writer ≠ s.writer ∧ event.id = eventId ∧
        event.eventType = eventType := by
  cases m <;> simp only [Revoking, setCall, setCell, update_apply] at h ⊢ <;> grind [Writer.rests]

theorem Move.revokes (h : s.Revoking cursor eventId eventType) :
    s'.Revoking cursor eventId eventType ∨ s'.Revoked cursor ∨
      ∃ detail, ⟨.journalRevocationFailed, eventId, eventType, detail⟩ ∈ s'.audit := by
  rcases h with ⟨q, hq⟩ | ⟨q, hq⟩
  · -- it stays in the queue or is taken up
    cases m with
    | takeWrite idle head =>
      rw [head, mem_cons] at hq
      rcases hq with hq | hq
      · cases hq
      · exact .inl (.inl ⟨q, hq⟩)
    | takeRevoke idle head =>
      rw [head, mem_cons] at hq
      rcases hq with hq | hq
      · cases hq
        exact .inl (.inr ⟨_, rfl⟩)
      · exact .inl (.inl ⟨q, hq⟩)
    | publish | sendRevoke => exact .inl (.inl ⟨q, mem_append_left _ hq⟩)
    | _ => exact .inl (.inl ⟨q, hq⟩)
  · cases m with
    | @revoke _ _ _ _ n _ busy names =>
      cases busy.symm.trans hq
      exact .inr (.inl ⟨n, by simp [revoked], names⟩)
    | revokeFailed busy =>
      cases busy.symm.trans hq
      exact .inr (.inr ⟨_, mem_append_right _ (mem_singleton_self _)⟩)
    | _ => grind [Revoking, setCall, setCell]

theorem Move.delivering (h : s'.calls call = some (.delivering event cursor)) :
    s.calls call = some (.delivering event cursor) ∨ s.cells call = .done cursor := by
  cases m <;> simp only [setCall, setCell, update_apply] at h <;> grind

variable {error : EventError}

theorem Move.refused (h : s'.calls call = some (.refused event cursor error)) :
    s.calls call = some (.refused event cursor error) ∨
      s.calls call = some (.delivering event cursor) := by
  cases m <;> simp only [setCall, setCell, update_apply] at h <;> grind

theorem Move.kept (h : s'.calls call = some (.returned event (.ok ()))) :
    s.calls call = some (.returned event (.ok ())) ∨
      ∃ cursor, s.calls call = some (.delivering event cursor) := by
  cases m <;> simp only [setCall, setCell, update_apply] at h <;> grind

/-- A cell is filled by the writer and emptied by the call, which then delivers. -/
theorem Move.done (h : s'.cells call = .done cursor) :
    (s.cells call = .done cursor ∧ (s'.calls call = s.calls call ∨ s.calls call = none ∨
        ∀ event, s.calls call ≠ some (.waiting event))) ∨
      ∃ event, s.writer = .wrote event call (.ok cursor) ∧ s.cells call ≠ .abandoned ∧
        s'.calls = s.calls := by
  cases m <;> simp only [setCall, setCell, update_apply] at h ⊢ <;> grind

/-- Only the writer, holding the result, decides for a call that waits or has given up. -/
theorem Move.undecided (h : s.Undecided call event)
    (hw : (∀ event result, s.writer ≠ .wrote event call result) ∨ s'.writer = s.writer) :
    s'.Undecided call event := by
  cases m <;> simp only [Undecided, setCall, setCell, update_apply] at h ⊢ <;> grind

theorem Move.awaits (h : s'.Awaits event call) :
    s.Awaits event call ∨ (s.calls call = none ∧ s'.Undecided call event) := by
  cases m <;> simp only [Awaits, Undecided, setCall, setCell, update_apply] at h ⊢ <;>
    grind [Writer.rests]

theorem Move.wrote {result : Except JournalError String}
    (h : s'.writer = .wrote event call result) :
    (s.writer = .wrote event call result ∧ s'.writer = s.writer) ∨
      (s.writer = .writing event call ∧ ∀ cursor, result = .ok cursor → cursor = s.nextCursor ∧
        s'.owner = update s.owner s.nextCursor (some call) ∧
        s'.log = s.log ++ [⟨s.nextCursor, some event, none⟩]) := by
  cases m <;> grind [setCall, setCell, Writer.rests]

theorem Move.of_wrote (h : s.writer = .wrote event call (.ok cursor)) :
    s'.writer = .wrote event call (.ok cursor) ∨ s'.cells call = .done cursor ∨
      s'.Revoking cursor event.id event.eventType := by
  cases m with
  | abandon busy gone =>
    cases busy.symm.trans h
    exact .inr (.inr (.inr ⟨none, rfl⟩))
  | acknowledge busy =>
    cases busy.symm.trans h
    exact .inr (.inl (update_self ..))
  | _ => grind [setCall, setCell]

theorem Move.of_done (h : s.cells call = .done cursor)
    (hcall : s.calls call = some (.waiting event))
    (hw : ∀ event result, s.writer ≠ .wrote event call result) :
    s'.cells call = .done cursor ∨ s'.calls call = some (.delivering event cursor) := by
  cases m <;> simp only [setCall, setCell, update_apply] <;> grind

theorem Move.of_delivering (h : s.calls call = some (.delivering event cursor)) :
    s'.calls call = some (.delivering event cursor) ∨
      s'.calls call = some (.returned event (.ok ())) ∨
      ∃ error, s'.calls call = some (.refused event cursor error) := by
  cases m <;> simp only [setCall, setCell, update_apply] <;> grind

theorem Move.of_refused (h : s.calls call = some (.refused event cursor error)) :
    s'.calls call = some (.refused event cursor error) ∨
      s'.Revoking cursor event.id event.eventType := by
  cases m <;> simp only [Revoking, setCall, setCell, update_apply] <;> grind

theorem Move.pendingWrites :
    s'.pendingWrites.Sublist s.pendingWrites ∨
      ∃ call, s.calls call = none ∧ s'.pendingWrites = s.pendingWrites ++ [call] := by
  unfold Protocol.pendingWrites
  cases m with
  | publish new => exact .inr ⟨_, new, by simp [setCall, setCell]⟩
  | sendRevoke => exact .inl (by simp [setCall])
  | takeWrite idle head => exact .inl (by simp [idle, head])
  | takeRevoke idle head =>
    rw [idle, head]
    exact .inl (List.Sublist.refl _)
  | append busy | appendFailed busy => exact .inl (by simp [busy])
  | acknowledge busy | acknowledgeFailed busy => exact .inl (by simp [busy, setCell])
  | abandon busy | abandonFailed busy => exact .inl (by simp [busy])
  | revoke busy names rests | revokeFailed busy rests =>
    simp only [busy, Writer.writes_of_rests rests]
    exact .inl (List.Sublist.refl _)
  | acknowledgeRevoke busy => exact .inl (by simp [busy])
  | _ => exact .inl (List.Sublist.refl _)

theorem Move.alive (h : s.writer ≠ .stopped) : s'.writer ≠ .stopped := by
  cases m <;> grind [setCall, setCell, Writer.rests]

end Moves

structure Accounts (base : Nat) (s : Protocol) : Prop where
  length : base ≤ s.log.length
  numbered : s.log.map Ack.cursor = (List.range' 1 s.log.length).map Nat.repr
  back : ∀ n ∈ revoked s.log, n ≤ s.log.length
  alive : s.writer ≠ .stopped
  held : ∀ cursor call, s.owner cursor = some call → ∃ a ∈ s.log.drop base, a.cursor = cursor ∧
    ∃ event, a.event = some event ∧ s.CallOf call event
  owned : ∀ a ∈ s.log.drop base, ∀ event, a.event = some event →
    ∃ call, s.owner a.cursor = some call
  single : ∀ cursor cursor' call, s.owner cursor = some call → s.owner cursor' = some call →
    cursor = cursor'
  once : s.pendingWrites.Nodup
  awaits : ∀ event call, s.Awaits event call → s.Undecided call event ∧
    ∀ cursor, s.owner cursor ≠ some call
  wrote : ∀ event call result, s.writer = .wrote event call result → s.Undecided call event ∧
    ∀ cursor, result = .ok cursor → s.Clean call cursor
  revoking : ∀ cursor eventId eventType, s.Revoking cursor eventId eventType →
    ∃ call event, s.owner cursor = some call ∧ s.CallOf call event ∧ event.id = eventId ∧
      event.eventType = eventType
  done : ∀ call cursor, s.cells call = .done cursor →
    (∃ event, s.calls call = some (.waiting event)) ∧ s.Clean call cursor
  delivering : ∀ call event cursor, s.calls call = some (.delivering event cursor) →
    s.Clean call cursor
  refused : ∀ call event cursor error, s.calls call = some (.refused event cursor error) →
    s.Clean call cursor
  kept : ∀ call event, s.calls call = some (.returned event (.ok ())) →
    ∃ cursor, s.Clean call cursor
  standing : ∀ cursor call, s.owner cursor = some call → s.Standing cursor call

namespace Accounts

variable {base : Nat} {s s' : Protocol} {call : Nat} {event : TraverseEvent} {cursor : String}

variable {a : Ack TraverseEvent}

theorem undecided_callOf (hu : s.Undecided call event) : s.CallOf call event := by
  rcases hu with ⟨hc, _⟩ | ⟨_, e, hc⟩
  · exact ⟨_, hc, rfl⟩
  · exact ⟨_, hc, rfl⟩

theorem owner_cases (m : Move s s') (ho : s'.owner cursor = some call) :
    s.owner cursor = some call ∨ ∃ event, s.writer = .writing event call ∧
      s'.writer = .wrote event call (.ok cursor) ∧ s'.jobs = s.jobs ∧
      s'.log = s.log ++ [⟨cursor, some event, none⟩] ∧ cursor = s.nextCursor := by
  rcases m.log with ⟨_, he⟩ | ⟨event, p, hw, hw', hj, he, hl⟩ | ⟨_, _, _, _, _, he, _⟩
  · rw [he] at ho; exact .inl ho
  · rw [he] at ho
    obtain ⟨rfl, ⟨⟩⟩ | ⟨_, ho⟩ := Machine.update_eq_some ho
    · exact .inr ⟨event, hw, hw', hj, hl, rfl⟩
    · exact .inl ho
  · rw [he] at ho; exact .inl ho

variable (h : Accounts base s)

include h

theorem cursor_of_mem (ha : a ∈ s.log) : ∃ n, a.cursor = n.repr ∧ 1 ≤ n ∧ n ≤ s.log.length := by
  have hmem : a.cursor ∈ s.log.map Ack.cursor := mem_map_of_mem ha
  rw [h.numbered] at hmem
  obtain ⟨n, hn, he⟩ := mem_map.1 hmem
  rw [mem_range'_1] at hn
  exact ⟨n, he.symm, by omega, by omega⟩

theorem owner_le (ho : s.owner cursor = some call) : ∃ n, cursor = n.repr ∧ n ≤ s.log.length := by
  obtain ⟨a, ha, rfl, _⟩ := h.held cursor call ho
  obtain ⟨n, hn, _, hle⟩ := h.cursor_of_mem (mem_of_mem_drop ha)
  exact ⟨n, hn, hle⟩

theorem fresh_cursor (ha : a ∈ s.log) : a.cursor ≠ s.nextCursor := by
  obtain ⟨n, hn, _, hle⟩ := h.cursor_of_mem ha
  rw [hn]
  intro he
  have := repr_injective he
  omega

theorem fresh_owner : s.owner s.nextCursor = none := by
  cases ho : s.owner s.nextCursor with
  | none => rfl
  | some call =>
    obtain ⟨a, ha, hc, _⟩ := h.held _ call ho
    exact absurd hc (h.fresh_cursor (mem_of_mem_drop ha))

theorem fresh_revoking (eventId eventType : String) :
    ¬ s.Revoking s.nextCursor eventId eventType := by
  intro hr
  obtain ⟨p, _, ho, _⟩ := h.revoking _ _ _ hr
  rw [h.fresh_owner] at ho
  cases ho

theorem fresh_revoked : ¬ s.Revoked s.nextCursor := by
  rintro ⟨n, hn, he⟩
  have hle := h.back n hn
  have := repr_injective he
  omega

/-- A call whose write is on its way has no record, and its result is in nobody's hands. -/
theorem awaits_not_wrote (ha : s.Awaits event call) :
    ∀ event' result, s.writer ≠ .wrote event' call result := by
  intro event' result hw
  rcases ha with hj | hwr
  · have hmem : call ∈ s.jobs.filterMap WriterJob.writes :=
      mem_filterMap.2 ⟨_, hj, rfl⟩
    have hnodup := h.once
    rw [pendingWrites, hw] at hnodup
    exact (nodup_cons.1 hnodup).1 hmem
  · rw [hw] at hwr
    cases hwr

theorem callOf_of_pending (hp : call ∈ s.pendingWrites) : ∃ event, s.CallOf call event := by
  rw [pendingWrites, mem_append] at hp
  rcases hp with hp | hp
  · cases hw : s.writer with
    | writing event p =>
      rw [hw, Writer.writes, mem_singleton] at hp
      subst hp
      exact ⟨event, undecided_callOf (h.awaits event _ (.inr hw)).1⟩
    | wrote event p result =>
      rw [hw, Writer.writes, mem_singleton] at hp
      subst hp
      exact ⟨event, undecided_callOf (h.wrote event _ result hw).1⟩
    | receiving | revoking | revoked | stopped => rw [hw] at hp; cases hp
  · obtain ⟨job, hj, hp⟩ := mem_filterMap.1 hp
    cases job with
    | write event p =>
      cases hp
      exact ⟨event, undecided_callOf (h.awaits event _ (.inl hj)).1⟩
    | revoke => cases hp

theorem not_wrote (hp : (∃ cursor, s.cells call = .done cursor) ∨
      (∃ event cursor, s.calls call = some (.delivering event cursor)) ∨
      (∃ event cursor error, s.calls call = some (.refused event cursor error)) ∨
      ∃ event, s.calls call = some (.returned event (.ok ()))) :
    ∀ event result, s.writer ≠ .wrote event call result := by
  intro event result hw
  have hu := (h.wrote event call result hw).1
  rcases hp with ⟨cursor, hd⟩ | ⟨e, cursor, hd⟩ | ⟨e, cursor, error, hd⟩ | ⟨e, hd⟩
  · rcases hu with ⟨_, hc⟩ | ⟨hc, _⟩ <;> rw [hc] at hd <;> cases hd
  all_goals rcases hu with ⟨hc, _⟩ | ⟨_, _, hc⟩ <;> rw [hc] at hd <;> cases hd

variable (m : Move s s')

include m

theorem owner_mono (ho : s.owner cursor = some call) : s'.owner cursor = some call := by
  rcases m.log with ⟨_, he⟩ | ⟨_, _, _, _, _, he, _⟩ | ⟨_, _, _, _, _, he, _⟩
  · rw [he]; exact ho
  · have hne : cursor ≠ s.nextCursor := by
      rintro rfl
      rw [h.fresh_owner] at ho
      cases ho
    rw [he, update_of_ne hne]
    exact ho
  · rw [he]; exact ho

/-- What makes a record unclean: its call sends a revocation, or the writer, holding the record
of a call that has given up, starts one. -/
theorem clean_cases (hc : s.Clean call cursor) :
    s'.Clean call cursor ∨
      (∃ event error, s.calls call = some (.refused event cursor error) ∧
        s'.calls call = some (.revoking event cursor error)) ∨
      ∃ event, s.writer = .wrote event call (.ok cursor) ∧ s.cells call = .abandoned ∧
        s'.cells = s.cells ∧ s'.calls = s.calls ∧ s'.writer ≠ s.writer := by
  obtain ⟨ho, hnr, hnd⟩ := hc
  by_cases hr : ∃ eventId eventType, s'.Revoking cursor eventId eventType
  · obtain ⟨eventId, eventType, hr⟩ := hr
    rcases m.revoking hr with hr | ⟨p, e, error, hp, hp', _⟩ | ⟨e, p, hw, hcell, hcs, hps, hne, _⟩
    · exact absurd hr (hnr _ _)
    · have := (h.refused p e cursor error hp).1
      rw [ho, Option.some.injEq] at this
      subst this
      exact .inr (.inl ⟨e, error, hp, hp'⟩)
    · have := ((h.wrote e p _ hw).2 cursor rfl).1
      rw [ho, Option.some.injEq] at this
      subst this
      exact .inr (.inr ⟨e, hw, hcell, hcs, hps, hne⟩)
  · refine .inl ⟨h.owner_mono m ho, fun _ _ h' => hr ⟨_, _, h'⟩, ?_⟩
    rintro ⟨n, hn, he⟩
    rcases m.log with ⟨hl, _⟩ | ⟨_, _, _, _, _, _, hl⟩ | ⟨k, _, _, _, hw, _, hl⟩
    · rw [hl] at hn
      exact hnd ⟨n, hn, he⟩
    · rw [hl, revoked, filterMap_append, mem_append] at hn
      rcases hn with hn | hn
      · exact hnd ⟨n, hn, he⟩
      · cases hn
    · rw [hl, revoked, filterMap_append, mem_append] at hn
      rcases hn with hn | hn
      · exact hnd ⟨n, hn, he⟩
      have hk : n = k := by simpa using hn
      subst hk
      rw [he] at hw
      exact hnr _ _ (.inr ⟨_, hw⟩)

/-! ### The invariant, part by part -/

theorem move_log :
    base ≤ s'.log.length ∧
      s'.log.map Ack.cursor = (List.range' 1 s'.log.length).map Nat.repr ∧
      ∀ n ∈ revoked s'.log, n ≤ s'.log.length := by
  have hgrow : ∀ a : Ack TraverseEvent, a.cursor = s.nextCursor → s'.log = s.log ++ [a] →
      (∀ n ∈ a.revokes, n ≤ s.log.length) →
      base ≤ s'.log.length ∧
        s'.log.map Ack.cursor = (List.range' 1 s'.log.length).map Nat.repr ∧
        ∀ n ∈ revoked s'.log, n ≤ s'.log.length := by
    intro a ha hl hn
    have hlen : s'.log.length = s.log.length + 1 := by simp [hl]
    refine ⟨?_, ?_, ?_⟩
    · have := h.length
      omega
    · rw [hlen, List.range'_1_concat, map_append, ← h.numbered, hl, map_append]
      simp [ha, nextCursor, Nat.add_comm]
    · intro n hmem
      rw [hl, revoked, filterMap_append, mem_append] at hmem
      rcases hmem with hmem | hmem
      · have := h.back n hmem
        omega
      obtain ⟨b, hb, hrev⟩ := mem_filterMap.1 hmem
      rw [mem_singleton] at hb
      subst hb
      have := hn n hrev
      omega
  rcases m.log with ⟨hl, _⟩ | ⟨event, call, _, _, _, _, hl⟩ | ⟨n, id, ty, q, hw, _, hl⟩
  · rw [hl]
    exact ⟨h.length, h.numbered, h.back⟩
  · exact hgrow _ rfl hl (by simp)
  · refine hgrow _ rfl hl fun k hk => ?_
    cases hk
    obtain ⟨p, _, ho, _⟩ := h.revoking _ _ _ (.inr ⟨q, hw⟩)
    obtain ⟨k, hk, hle⟩ := h.owner_le ho
    rw [repr_injective hk]
    exact hle

theorem mem_drop_mono (ha : a ∈ s.log.drop base) : a ∈ s'.log.drop base := by
  obtain ⟨added, hl⟩ := m.log_append
  rw [hl, drop_append_of_le_length h.length]
  exact mem_append_left _ ha

theorem move_held (ho : s'.owner cursor = some call) :
    ∃ a ∈ s'.log.drop base, a.cursor = cursor ∧ ∃ event, a.event = some event ∧
      s'.CallOf call event := by
  rcases owner_cases m ho with ho | ⟨event, hw, _, _, hl, _⟩
  · obtain ⟨a, ha, hc, event, he, hcall⟩ := h.held cursor call ho
    exact ⟨a, h.mem_drop_mono m ha, hc, event, he, m.callOf hcall⟩
  refine ⟨⟨cursor, some event, none⟩, ?_, rfl, event, rfl, ?_⟩
  · rw [hl, drop_append_of_le_length h.length]
    exact mem_append_right _ (mem_singleton_self _)
  · exact m.callOf (undecided_callOf (h.awaits event call (.inr hw)).1)

theorem move_owned (ha : a ∈ s'.log.drop base) (he : a.event = some event) :
    ∃ call, s'.owner a.cursor = some call := by
  have hold : a ∈ s.log.drop base → ∃ call, s'.owner a.cursor = some call := by
    intro hmem
    obtain ⟨call, ho⟩ := h.owned a hmem event he
    exact ⟨call, h.owner_mono m ho⟩
  rcases m.log with ⟨hl, _⟩ | ⟨_, p, _, _, _, how, hl⟩ | ⟨_, _, _, _, _, _, hl⟩
  · rw [hl] at ha
    exact hold ha
  · rw [hl, drop_append_of_le_length h.length, mem_append, mem_singleton] at ha
    rcases ha with ha | rfl
    · exact hold ha
    · exact ⟨p, by rw [how, update_self]⟩
  · rw [hl, drop_append_of_le_length h.length, mem_append, mem_singleton] at ha
    rcases ha with ha | rfl
    · exact hold ha
    · cases he

theorem move_single {cursor' : String}
    (ho : s'.owner cursor = some call) (ho' : s'.owner cursor' = some call) : cursor = cursor' := by
  rcases owner_cases m ho with ho | ⟨event, hw, hw', _⟩
  · rcases owner_cases m ho' with ho' | ⟨event', hw, _⟩
    · exact h.single _ _ call ho ho'
    · exact absurd ho ((h.awaits event' call (.inr hw)).2 cursor)
  rcases owner_cases m ho' with ho' | ⟨event', _, hw'', _⟩
  · exact absurd ho' ((h.awaits event call (.inr hw)).2 cursor')
  rw [hw'] at hw''
  cases hw''
  rfl

theorem move_once : s'.pendingWrites.Nodup := by
  rcases m.pendingWrites with hsub | ⟨call, hnone, he⟩
  · exact h.once.sublist hsub
  rw [he, nodup_append]
  refine ⟨h.once, nodup_singleton _, fun p hp q hq => ?_⟩
  rw [mem_singleton] at hq
  subst hq
  rintro rfl
  obtain ⟨_, phase, hphase, _⟩ := h.callOf_of_pending hp
  rw [hnone] at hphase
  cases hphase

theorem move_awaits (ha : s'.Awaits event call) :
    s'.Undecided call event ∧ ∀ cursor, s'.owner cursor ≠ some call := by
  rcases m.awaits ha with hold | ⟨hnone, hu⟩
  · obtain ⟨hu, hno⟩ := h.awaits event call hold
    refine ⟨m.undecided hu (.inl (h.awaits_not_wrote hold)), fun cursor ho => ?_⟩
    rcases owner_cases m ho with ho | ⟨event', hw, hw', hj, _⟩
    · exact hno cursor ho
    -- the writer would hold the write of a call that has another one queued
    rcases ha with ha | ha
    · rw [hj] at ha
      have hnodup := h.once
      rw [pendingWrites, hw] at hnodup
      exact (nodup_cons.1 hnodup).1 (mem_filterMap.2 ⟨_, ha, rfl⟩)
    · rw [hw'] at ha
      cases ha
  · refine ⟨hu, fun cursor ho => ?_⟩
    have hcall : ∃ event, s.CallOf call event := by
      rcases owner_cases m ho with ho | ⟨event', hw, _⟩
      · obtain ⟨_, _, _, event, _, hcall⟩ := h.held cursor call ho
        exact ⟨event, hcall⟩
      · exact ⟨event', undecided_callOf (h.awaits event' call (.inr hw)).1⟩
    obtain ⟨_, phase, hphase, _⟩ := hcall
    rw [hnone] at hphase
    cases hphase

theorem move_wrote {result : Except JournalError String}
    (hw : s'.writer = .wrote event call result) :
    s'.Undecided call event ∧ ∀ cursor, result = .ok cursor → s'.Clean call cursor := by
  rcases m.wrote hw with ⟨hold, hsame⟩ | ⟨hwriting, hnew⟩
  · obtain ⟨hu, hclean⟩ := h.wrote event call result hold
    refine ⟨m.undecided hu (.inr hsame), fun cursor hok => ?_⟩
    rcases h.clean_cases m (hclean cursor hok) with hc | ⟨_, _, hp, _⟩ | ⟨_, _, _, _, _, hne⟩
    · exact hc
    · rcases hu with ⟨hp', _⟩ | ⟨_, _, hp'⟩ <;> rw [hp'] at hp <;> cases hp
    · exact absurd hsame hne
  · have ha : s.Awaits event call := .inr hwriting
    refine ⟨m.undecided (h.awaits event call ha).1 (.inl (h.awaits_not_wrote ha)), ?_⟩
    intro cursor hok
    obtain ⟨rfl, how, hl⟩ := hnew cursor hok
    refine ⟨by rw [how, update_self], fun eventId eventType hr => ?_, ?_⟩
    · rcases m.revoking hr with hr | ⟨p, e, error, hp, _⟩ | ⟨e, p, hw, _⟩
      · exact h.fresh_revoking _ _ hr
      · have := (h.refused p e _ error hp).1
        rw [h.fresh_owner] at this
        cases this
      · rw [hwriting] at hw
        cases hw
    · rintro ⟨n, hn, he⟩
      rw [hl, revoked, filterMap_append, mem_append] at hn
      rcases hn with hn | hn
      · exact h.fresh_revoked ⟨n, hn, he⟩
      · cases hn

theorem move_revoking {eventId eventType : String} (hr : s'.Revoking cursor eventId eventType) :
    ∃ call event, s'.owner cursor = some call ∧ s'.CallOf call event ∧ event.id = eventId ∧
      event.eventType = eventType := by
  rcases m.revoking hr with hr | ⟨p, e, error, hp, _, hid, hty⟩ | ⟨e, p, hw, _, _, _, _, hid, hty⟩
  · obtain ⟨p, e, ho, hc, hid, hty⟩ := h.revoking _ _ _ hr
    exact ⟨p, e, h.owner_mono m ho, m.callOf hc, hid, hty⟩
  · exact ⟨p, e, h.owner_mono m (h.refused p e cursor error hp).1, m.callOf ⟨_, hp, rfl⟩, hid, hty⟩
  · obtain ⟨hu, hclean⟩ := h.wrote e p _ hw
    exact ⟨p, e, h.owner_mono m (hclean cursor rfl).1, m.callOf (undecided_callOf hu), hid, hty⟩

/-- The record of a call that goes on to deliver, refuse or return Ok stays clean. -/
theorem clean_mono (hc : s.Clean call cursor)
    (hw : ∀ event result, s.writer ≠ .wrote event call result) {phase : PublishCall}
    (hd : s'.calls call = some phase) (hp : ∀ event error, phase ≠ .revoking event cursor error) :
    s'.Clean call cursor := by
  rcases h.clean_cases m hc with hc | ⟨_, _, _, hp'⟩ | ⟨_, hw', _⟩
  · exact hc
  · exact absurd (Option.some.inj (hd.symm.trans hp')) (hp _ _)
  · exact absurd hw' (hw _ _)

theorem move_done (hd : s'.cells call = .done cursor) :
    (∃ event, s'.calls call = some (.waiting event)) ∧ s'.Clean call cursor := by
  rcases m.done hd with ⟨hold, hcalls⟩ | ⟨e, hw, hna, hcalls⟩
  · obtain ⟨⟨event, hwait⟩, hclean⟩ := h.done call cursor hold
    have hsame : s'.calls call = some (.waiting event) := by
      rcases hcalls with hc | hc | hc
      · exact hc.trans hwait
      · rw [hc] at hwait
        cases hwait
      · exact absurd hwait (hc event)
    exact ⟨⟨event, hsame⟩, h.clean_mono m hclean (h.not_wrote (.inl ⟨cursor, hold⟩)) hsame
      (by rintro _ _ ⟨⟩)⟩
  · obtain ⟨hu, hclean⟩ := h.wrote e call _ hw
    rcases hu with ⟨hwait, _⟩ | ⟨ha, _⟩
    · refine ⟨⟨e, by rw [hcalls]; exact hwait⟩, ?_⟩
      rcases h.clean_cases m (hclean cursor rfl) with hc | ⟨_, _, hp, _⟩ | ⟨_, _, ha, _⟩
      · exact hc
      · rw [hwait] at hp
        cases hp
      · exact absurd ha hna
    · exact absurd ha hna

theorem move_delivering
    (hd : s'.calls call = some (.delivering event cursor)) : s'.Clean call cursor := by
  rcases m.delivering hd with hold | hold
  · exact h.clean_mono m (h.delivering call event cursor hold)
      (h.not_wrote (.inr (.inl ⟨_, _, hold⟩))) hd (by rintro _ _ ⟨⟩)
  · exact h.clean_mono m (h.done call cursor hold).2 (h.not_wrote (.inl ⟨_, hold⟩)) hd
      (by rintro _ _ ⟨⟩)

theorem move_refused {error : EventError}
    (hd : s'.calls call = some (.refused event cursor error)) : s'.Clean call cursor := by
  rcases m.refused hd with hold | hold
  · exact h.clean_mono m (h.refused call event cursor error hold)
      (h.not_wrote (.inr (.inr (.inl ⟨_, _, _, hold⟩)))) hd (by rintro _ _ ⟨⟩)
  · exact h.clean_mono m (h.delivering call event cursor hold)
      (h.not_wrote (.inr (.inl ⟨_, _, hold⟩))) hd (by rintro _ _ ⟨⟩)

theorem move_kept
    (hd : s'.calls call = some (.returned event (.ok ()))) : ∃ cursor, s'.Clean call cursor := by
  rcases m.kept hd with hold | ⟨cursor, hold⟩
  · obtain ⟨cursor, hc⟩ := h.kept call event hold
    exact ⟨cursor, h.clean_mono m hc (h.not_wrote (.inr (.inr (.inr ⟨_, hold⟩)))) hd
      (by rintro _ _ ⟨⟩)⟩
  · exact ⟨cursor, h.clean_mono m (h.delivering call event cursor hold)
      (h.not_wrote (.inr (.inl ⟨_, _, hold⟩))) hd (by rintro _ _ ⟨⟩)⟩

theorem move_standing (ho : s'.owner cursor = some call) : s'.Standing cursor call := by
  rcases owner_cases m ho with hold | ⟨event, _, hw, _⟩
  swap
  · exact .wrote hw
  cases h.standing cursor call hold with
  | wrote hw =>
    rcases m.of_wrote hw with hw | hd | hr
    · exact .wrote hw
    · exact .acknowledged hd
    · exact .revoking hr
  | acknowledged hd =>
    obtain ⟨event, hwait⟩ := (h.done call cursor hd).1
    rcases m.of_done hd hwait (h.not_wrote (.inl ⟨_, hd⟩)) with hd | hd
    · exact .acknowledged hd
    · exact .delivering hd
  | delivering hd =>
    rcases m.of_delivering hd with hd | hd | ⟨_, hd⟩
    · exact .delivering hd
    · exact .kept hd
    · exact .refused hd
  | refused hd =>
    rcases m.of_refused hd with hd | hr
    · exact .refused hd
    · exact .revoking hr
  | @revoking eventId eventType hr =>
    rcases m.revokes hr with hr' | hd | ⟨detail, ha⟩
    · exact .revoking hr'
    · exact .revoked hd
    obtain ⟨p, event, hp, hcall, hid, hty⟩ := h.revoking _ _ _ hr
    rw [hold, Option.some.injEq] at hp
    subst hp
    exact .audited (m.callOf hcall) ⟨_, ha, rfl, hid.symm, hty.symm⟩
  | revoked hd =>
    obtain ⟨n, hn, he⟩ := hd
    refine .revoked ⟨n, ?_, he⟩
    obtain ⟨added, hl⟩ := m.log_append
    rw [hl, revoked, filterMap_append]
    exact mem_append_left _ hn
  | audited hcall ha => exact .audited (m.callOf hcall) (m.audited ha)
  | kept hd => exact .kept (m.returned hd)

theorem move : Accounts base s' where
  length := (h.move_log m).1
  numbered := (h.move_log m).2.1
  back := (h.move_log m).2.2
  alive := m.alive h.alive
  held := fun _ _ ho => h.move_held m ho
  owned := fun _ ha _ he => h.move_owned m ha he
  single := fun _ _ _ ho ho' => h.move_single m ho ho'
  once := h.move_once m
  awaits := fun _ _ ha => h.move_awaits m ha
  wrote := fun _ _ _ hw => h.move_wrote m hw
  revoking := fun _ _ _ hr => h.move_revoking m hr
  done := fun _ _ hd => h.move_done m hd
  delivering := fun _ _ _ hd => h.move_delivering m hd
  refused := fun _ _ _ _ hd => h.move_refused m hd
  kept := fun _ _ hd => h.move_kept m hd
  standing := fun _ _ ho => h.move_standing m ho

end Accounts

end Protocol

end Traverse.Events

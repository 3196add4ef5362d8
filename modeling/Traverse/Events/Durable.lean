import Traverse.Events.Broker
import Traverse.Journal.Sink

/-!
# Events.Durable

`DurableBroker` (`events/durable.rs`) as a machine. Any number of publish calls, the one writer
thread, and the callers of `subscribe`, `poll` and `cancel` take turns in any order; a label is one
step of one of them. A step ends where its thread releases a lock that others contend for, or
sends a job. `settle` and `settleRevoke` are the ends of the two waits: taken while the cell is
still `pending` they are the timeout, which may come at any moment.

A poll of a durable-mode subscription holds the subscription lock from its first read to its last,
but the writer can append between two reads: `pollDurable` takes the lock and every `pollRead` is
one `replay_from`.
-/

namespace Traverse.Events

open Decimal Journal Function

/-! ## Messages and phases -/

inductive AuditKind where
  | journalWriteTimeout
  | journalRevocationFailed
  deriving DecidableEq, Repr

structure JournalWriteAuditRecord where
  kind : AuditKind
  (eventId eventType detail : String)
  deriving DecidableEq, Repr

inductive AckState where
  | pending
  | done (cursor : String)
  | failed (error : JournalError)
  | abandoned
  deriving DecidableEq, Repr

/-- A job refers to the acknowledgement cell of the publish call that sent it. -/
inductive WriterJob where
  | write (event : TraverseEvent) (call : Nat)
  | revoke (cursor eventId eventType : String) (call : Option Nat)

/-- Where `run_writer` stands. It stops for good when an append panics. -/
inductive Writer where
  | receiving
  | writing (event : TraverseEvent) (call : Nat)
  | wrote (event : TraverseEvent) (call : Nat) (result : Except JournalError String)
  | revoking (cursor eventId eventType : String) (call : Option Nat)
  | revoked (call : Nat) (result : Except JournalError Unit)
  | stopped
  deriving DecidableEq

/-- Where a call of `publish` stands. -/
inductive PublishCall where
  | waiting (event : TraverseEvent)
  | delivering (event : TraverseEvent) (cursor : String)
  | refused (event : TraverseEvent) (cursor : String) (error : EventError)
  | revoking (event : TraverseEvent) (cursor : String) (error : EventError)
  | returned (event : TraverseEvent) (result : Except EventError Unit)
  deriving DecidableEq

def PublishCall.running : PublishCall → Bool
  | .returned .. => false
  | _ => true

structure DurableSubscriptionState where
  eventType : String
  subjectId : Option String
  cursor : String
  deriving DecidableEq, Repr

/-- A poll of a durable-mode subscription between two of its reads. -/
structure Poller where
  id : String
  maxEvents : Nat
  sub : DurableSubscriptionState
  cursor : String
  delivered : List BrokerEvent

structure DurableBroker (β : Type) where
  inner : β
  root : Root TraverseEvent
  jobs : List WriterJob
  writer : Writer
  (writeAcks revokeAcks : Nat → AckState)
  calls : Nat → Option PublishCall
  audit : List JournalWriteAuditRecord
  (writeTimeoutMs nextId : Nat)
  entries : String → Option DurableSubscriptionState
  poller : Option Poller
  /-- Whose event the record with this cursor holds. -/
  owner : String → Option Nat
  /-- What polls of live and of durable-mode subscriptions have returned so far. -/
  (livePolls durablePolls : List SubscriptionPoll)

inductive Step where
  | publish (call : Nat) (event : TraverseEvent)
  | settle (call : Nat)
  | handOff (call : Nat) (now : Int)
  | sendRevoke (call : Nat)
  | settleRevoke (call : Nat)
  | receive
  | append (now : Int) (io : Option WriteFault)
  | acknowledge
  | revoke (now : Int) (io : Option WriteFault)
  | acknowledgeRevoke
  | subscribe (now : Int) (eventType fromCursor : String) (subject : Option String)
  | pollLive (now : Int) (id : String) (maxEvents : Nat)
  | pollDurable (id : String) (maxEvents : Nat)
  | pollRead
  | cancel (id : String)
  deriving DecidableEq

def durableSubscriptionPrefix : String := "durable-sub-"

def isDurableId (id : String) : Bool :=
  durableSubscriptionPrefix.toList.isPrefixOf id.toList

namespace DurableBroker

variable {β : Type} (c : RecordCodec TraverseEvent) (ops : EventBroker β) (w : DurableBroker β)

variable (call : Nat)

def setCall (phase : PublishCall) : DurableBroker β :=
  { w with calls := update w.calls call (some phase) }

def record (kind : AuditKind) (eventId eventType detail : String) :
    DurableBroker β :=
  { w with audit := w.audit ++ [⟨kind, eventId, eventType, detail⟩] }

/-! ## Opening -/

/-- `DurableBroker::new`, on the journal that runs at `root`. -/
def new (inner : β) (root : Root TraverseEvent) (writeTimeoutMs : Nat) : DurableBroker β where
  inner := inner
  root := root
  jobs := []
  writer := .receiving
  writeAcks := fun _ => .pending
  revokeAcks := fun _ => .pending
  calls := fun _ => none
  audit := []
  writeTimeoutMs := writeTimeoutMs
  nextId := 0
  entries := fun _ => none
  poller := none
  owner := fun _ => none
  livePolls := []
  durablePolls := []

/-- `DurableBroker::open`. The wrapped broker is told the latest cursor of the journal. -/
def openBroker (config : JournalConfig) (writeTimeoutMs : Nat) (root : Root TraverseEvent)
    (inner : β) : Option (DurableBroker β) :=
  match root.step c (.openRoot config) with
  | none => none
  | some root =>
    match root.journal with
    | none => none
    | some j => some (.new (ops.seedRestartFloor inner j.latestCursor) root writeTimeoutMs)

/-! ## Publishing -/

variable (event : TraverseEvent)

/-- `jobs.send` fails once the writer has stopped. -/
def publish : DurableBroker β :=
  match w.writer with
  | .stopped =>
    w.setCall call (.returned event (.error (.journalWrite "journal writer is unavailable")))
  | _ =>
    { w.setCall call (.waiting event) with
      jobs := w.jobs ++ [.write event call]
      writeAcks := update w.writeAcks call .pending }

/-- The wait for the durable write is over; the cell is left `abandoned`. -/
def settle : DurableBroker β :=
  let left := { w with writeAcks := update w.writeAcks call .abandoned }
  match w.writeAcks call with
  | .done cursor => left.setCall call (.delivering event cursor)
  | .failed e => left.setCall call (.returned event (.error (.journalWrite e.display)))
  | .pending | .abandoned =>
    let detail := s!"durable write exceeded {w.writeTimeoutMs}ms; event rejected"
    (left.record .journalWriteTimeout event.id event.eventType detail).setCall call
      (.returned event (.error (.journalWriteTimeout detail)))

def handOff (now : Int) (call : Nat) (event : TraverseEvent) (cursor : String) : DurableBroker β :=
  match ops.publishWithCursor w.inner now event cursor with
  | (.ok (), inner) => { w with inner := inner }.setCall call (.returned event (.ok ()))
  | (.error e, inner) => { w with inner := inner }.setCall call (.refused event cursor e)

/-- `enqueue_revocation`. -/
def sendRevoke (cursor : String) (error : EventError) : DurableBroker β :=
  match w.writer with
  | .stopped =>
    (w.record .journalRevocationFailed event.id event.eventType
      "journal writer is unavailable").setCall call
        (.returned event
          (.error (.journalWrite "journal revocation failed: journal writer is unavailable")))
  | _ =>
    { w.setCall call (.revoking event cursor error) with
      jobs := w.jobs ++ [.revoke cursor event.id event.eventType (some call)]
      revokeAcks := update w.revokeAcks call .pending }

/-- `map_revocation_outcome`, then `.and(Err(error))`. -/
def settleRevoke (error : EventError) :
    DurableBroker β :=
  let left := { w with revokeAcks := update w.revokeAcks call .abandoned }
  match w.revokeAcks call with
  | .done _ => left.setCall call (.returned event (.error error))
  | .failed e =>
    left.setCall call
      (.returned event (.error (.journalWrite s!"journal revocation failed: {e.display}")))
  | .pending | .abandoned =>
    let detail := s!"journal revocation exceeded {w.writeTimeoutMs}ms; event remains rejected"
    (left.record .journalRevocationFailed event.id event.eventType detail).setCall call
      (.returned event (.error (.journalWriteTimeout detail)))

/-! ## The writer thread -/

def receive (job : WriterJob) (rest : List WriterJob) : DurableBroker β :=
  match job with
  | .write event call => { w with jobs := rest, writer := .writing event call }
  | .revoke cursor eventId eventType call =>
    { w with jobs := rest, writer := .revoking cursor eventId eventType call }

def append (w : DurableBroker β) (j : DurableEventJournal TraverseEvent) (now : Int)
    (io : Option WriteFault) (event : TraverseEvent) (call : Nat) : DurableBroker β :=
  let result := j.append c w.root.dir now io event
  let w := { w with root := w.root.returned (some event) none result }
  match result.1 with
  | .ok cursor =>
    { w with
      writer := .wrote event call (.ok cursor)
      owner := update w.owner cursor (some call) }
  | .error (.err e) => { w with writer := .wrote event call (.error e) }
  | .error .overflow => { w with writer := .stopped }

/-- The writer looks at the cell: an abandoned write that completed is to be revoked. -/
def acknowledge (call : Nat) (result : Except JournalError String) : DurableBroker β :=
  match w.writeAcks call, result with
  | .abandoned, .ok cursor => { w with writer := .revoking cursor event.id event.eventType none }
  | .abandoned, .error _ => { w with writer := .receiving }
  | _, .ok cursor =>
    { w with
      writer := .receiving
      writeAcks := update w.writeAcks call (.done cursor) }
  | _, .error e =>
    { w with
      writer := .receiving
      writeAcks := update w.writeAcks call (.failed e) }

/-- What the writer does once it has revoked: a revocation job is acknowledged. -/
def afterRevoke (call : Option Nat) (result : Except JournalError Unit) : Writer :=
  match call with
  | some call => .revoked call result
  | none => .receiving

variable (j : DurableEventJournal TraverseEvent)

def revoke (now : Int)
    (io : Option WriteFault) (cursor eventId eventType : String) (call : Option Nat) :
    DurableBroker β :=
  let result := j.appendRevocation c w.root.dir now io cursor
  let w := { w with root := w.root.returned none (parseU64 cursor).toOption result }
  match result.1 with
  | .ok _ => { w with writer := afterRevoke call (.ok ()) }
  | .error (.err e) =>
    { w.record .journalRevocationFailed eventId eventType e.display with
      writer := afterRevoke call (.error e) }
  | .error .overflow => { w with writer := .stopped }

def acknowledgeRevoke (result : Except JournalError Unit) :
    DurableBroker β :=
  { w with
    writer := .receiving
    revokeAcks := update w.revokeAcks call
      (match result with
        | .ok () => .done ""
        | .error e => .failed e) }

/-! ## Subscribing and polling -/

def mapJournalReadError (eventType : String) : JournalError → EventError
  | .cursorExpired oldest => .cursorExpired eventType oldest
  | .invalidCursor message => .invalidCursor message
  | .io message | .invalidConfig message => .journalRead message
  | .corrupt path line message =>
    .journalRead s!"corrupt journal record at {path}:{line}: {message}"

def normalizeCursor (raw : String) : Except EventError String :=
  match parseU64 raw with
  | .ok n => .ok n.repr
  | .error _ => .error (.invalidCursor raw)

def addEntry (eventType : String) (subject : Option String)
    (cursor : String) : Subscription × DurableBroker β :=
  let next := saturatingSucc w.nextId
  let id := s!"{durableSubscriptionPrefix}{next}"
  (⟨id, eventType, cursor⟩,
    { w with
      nextId := next
      entries := update w.entries id (some ⟨eventType, subject, cursor⟩) })

/-- The journal answers for a cursor that the wrapped broker no longer serves. `none` is a panic
of the caller. -/
def subscribeDurable (eventType fromCursor : String)
    (subject : Option String) : Option (Except EventError Subscription) × DurableBroker β :=
  match w.root.journal with
  | none => (none, w)
  | some j =>
    let (result, j) := j.replayFrom c w.root.dir fromCursor 0
    let w := { w with root := { w.root with journal := some j } }
    match result with
    | .ok _ =>
      match normalizeCursor fromCursor with
      | .error e => (some (.error e), w)
      | .ok cursor =>
        let (sub, w) := w.addEntry eventType subject cursor
        (some (.ok sub), w)
    | .error (.err e) => (some (.error (mapJournalReadError eventType e)), w)
    | .error .overflow => (none, w)

def subscribeForSubject (w : DurableBroker β) (now : Int) (eventType fromCursor : String)
    (subject : Option String) : Option (Except EventError Subscription) × DurableBroker β :=
  match ops.subscribeForSubject w.inner now eventType fromCursor subject with
  | (.ok sub, inner) => (some (.ok sub), { w with inner := inner })
  | (.error (.cursorExpired ..), inner) =>
    { w with inner := inner }.subscribeDurable c eventType fromCursor subject
  | (.error e, inner) => (some (.error e), { w with inner := inner })

def pollLive (now : Int) (id : String) (maxEvents : Nat) :
    DurableBroker β :=
  match ops.poll w.inner now id maxEvents with
  | (.ok poll, inner) => { w with inner := inner, livePolls := w.livePolls ++ [poll] }
  | (.error _, inner) => { w with inner := inner }

/-- The poll returns: the new cursor is stored and the lock released. -/
def finishPoll (p : Poller) : DurableBroker β :=
  { w with
    entries := update w.entries p.id (some { p.sub with cursor := p.cursor })
    poller := none
    durablePolls := w.durablePolls ++ [⟨p.id, p.sub.eventType, p.cursor, p.delivered⟩] }

def pollDurable (id : String) (maxEvents : Nat) : DurableBroker β :=
  match w.entries id with
  | none => w
  | some sub =>
    if maxEvents = 0 then w.finishPoll ⟨id, maxEvents, sub, sub.cursor, []⟩
    else { w with poller := some ⟨id, maxEvents, sub, sub.cursor, []⟩ }

def scanBatch (sub : DurableSubscriptionState) (maxEvents : Nat) :
    List (String × TraverseEvent) → String → List BrokerEvent → String × List BrokerEvent
  | [], cursor, delivered => (cursor, delivered)
  | (cursor, event) :: rest, _, delivered =>
    if event.eventType = sub.eventType ∧ subjectMatches sub.subjectId event = true then
      let delivered := delivered ++ [⟨cursor, event⟩]
      if maxEvents ≤ delivered.length then (cursor, delivered)
      else scanBatch sub maxEvents rest cursor delivered
    else scanBatch sub maxEvents rest cursor delivered

/-- What the loop delivers of a batch, if the poll is not full before the end of it. -/
def selected (sub : DurableSubscriptionState) (batch : List (String × TraverseEvent)) :
    List BrokerEvent :=
  (batch.filter fun e => e.2.eventType = sub.eventType ∧
    subjectMatches sub.subjectId e.2 = true).map
    fun e => ⟨e.1, e.2⟩

theorem scanBatch_of_lt (sub : DurableSubscriptionState) (maxEvents : Nat) :
    ∀ (batch : List (String × TraverseEvent)) (cursor : String) (delivered : List BrokerEvent),
      delivered.length + batch.length < maxEvents →
      scanBatch sub maxEvents batch cursor delivered =
        ((batch.getLast?.map (·.1)).getD cursor, delivered ++ selected sub batch) := by
  intro batch
  induction batch with
  | nil =>
    intro cursor delivered _
    simp [scanBatch, selected]
  | cons e rest ih =>
    intro cursor delivered hlen
    have hlast : (rest.getLast?.map (·.1)).getD e.1 =
        ((e :: rest).getLast?.map (·.1)).getD cursor := by
      rw [List.getLast?_cons]
      cases rest.getLast? <;> rfl
    simp only [List.length_cons] at hlen
    by_cases hsel : e.2.eventType = sub.eventType ∧ subjectMatches sub.subjectId e.2 = true
    · have hroom : ¬ maxEvents ≤ (delivered ++ [(⟨e.1, e.2⟩ : BrokerEvent)]).length := by
        simp only [List.length_append, List.length_singleton]
        omega
      rw [scanBatch, if_pos hsel, if_neg hroom, ih e.1 _ (by simp; omega), hlast]
      simp [selected, hsel]
    · rw [scanBatch, if_neg hsel, ih e.1 _ (by omega), hlast]
      simp [selected, hsel]

/-- One round of the loop in `poll`. -/
def takeBatch (p : Poller) (batch : List (String × TraverseEvent)) :
    DurableBroker β :=
  let (cursor, delivered) := scanBatch p.sub p.maxEvents batch p.cursor p.delivered
  let p := { p with cursor := cursor, delivered := delivered }
  if batch.isEmpty ∨ p.maxEvents ≤ delivered.length ∨ batch.length < p.maxEvents then
    w.finishPoll p
  else { w with poller := some p }

/-- An error or a panic ends the poll and leaves the stored cursor as it was. -/
def pollRead (p : Poller) :
    DurableBroker β :=
  let (result, j) := j.replayFrom c w.root.dir p.cursor p.maxEvents
  let w := { w with root := { w.root with journal := some j } }
  match result with
  | .ok batch => w.takeBatch p batch
  | .error _ => { w with poller := none }

def cancel (w : DurableBroker β) (id : String) : DurableBroker β :=
  if isDurableId id then { w with entries := update w.entries id none }
  else { w with inner := (ops.cancel w.inner id).2 }

/-! ## The machine -/

def step : Step → Option (DurableBroker β)
  | .publish call event =>
    match w.calls call with
    | none => some (w.publish call event)
    | some _ => none
  | .settle call =>
    match w.calls call with
    | some (.waiting event) => some (w.settle call event)
    | _ => none
  | .handOff call now =>
    match w.calls call with
    | some (.delivering event cursor) => some (w.handOff ops now call event cursor)
    | _ => none
  | .sendRevoke call =>
    match w.calls call with
    | some (.refused event cursor error) => some (w.sendRevoke call event cursor error)
    | _ => none
  | .settleRevoke call =>
    match w.calls call with
    | some (.revoking event _ error) => some (w.settleRevoke call event error)
    | _ => none
  | .receive =>
    match w.writer, w.jobs with
    | .receiving, job :: rest => some (w.receive job rest)
    | _, _ => none
  | .append now io =>
    match w.writer, w.root.journal with
    | .writing event call, some j => some (w.append c j now io event call)
    | _, _ => none
  | .acknowledge =>
    match w.writer with
    | .wrote event call result => some (w.acknowledge event call result)
    | _ => none
  | .revoke now io =>
    match w.writer, w.root.journal with
    | .revoking cursor eventId eventType call, some j =>
      some (w.revoke c j now io cursor eventId eventType call)
    | _, _ => none
  | .acknowledgeRevoke =>
    match w.writer with
    | .revoked call result => some (w.acknowledgeRevoke call result)
    | _ => none
  | .subscribe now eventType fromCursor subject =>
    -- only a durable-mode subscription needs the lock that a poll may be holding
    match w.poller, (ops.subscribeForSubject w.inner now eventType fromCursor subject).1 with
    | some _, .error (.cursorExpired ..) => none
    | _, _ => some (w.subscribeForSubject c ops now eventType fromCursor subject).2
  | .pollLive now id maxEvents =>
    if isDurableId id then none else some (w.pollLive ops now id maxEvents)
  | .pollDurable id maxEvents =>
    match w.poller with
    | none => if isDurableId id then some (w.pollDurable id maxEvents) else none
    | some _ => none
  | .pollRead =>
    match w.poller, w.root.journal with
    | some p, some j => some (w.pollRead c j p)
    | _, _ => none
  | .cancel id =>
    match w.poller with
    | none => some (w.cancel ops id)
    | some _ => if isDurableId id then none else some (w.cancel ops id)

/-- The steps that can be taken, each with its precondition and the state it leads to. -/
inductive Takes (w : DurableBroker β) : Step → DurableBroker β → Prop where
  | publish {call : Nat} {event : TraverseEvent} (h : w.calls call = none) :
      Takes w (.publish call event) (w.publish call event)
  | settle {call : Nat} {event : TraverseEvent} (h : w.calls call = some (.waiting event)) :
      Takes w (.settle call) (w.settle call event)
  | handOff {call : Nat} {now : Int} {event : TraverseEvent} {cursor : String}
      (h : w.calls call = some (.delivering event cursor)) :
      Takes w (.handOff call now) (w.handOff ops now call event cursor)
  | sendRevoke {call : Nat} {event : TraverseEvent} {cursor : String} {error : EventError}
      (h : w.calls call = some (.refused event cursor error)) :
      Takes w (.sendRevoke call) (w.sendRevoke call event cursor error)
  | settleRevoke {call : Nat} {event : TraverseEvent} {cursor : String} {error : EventError}
      (h : w.calls call = some (.revoking event cursor error)) :
      Takes w (.settleRevoke call) (w.settleRevoke call event error)
  | receive {job : WriterJob} {rest : List WriterJob} (h : w.writer = .receiving)
      (hjobs : w.jobs = job :: rest) : Takes w .receive (w.receive job rest)
  | append {now : Int} {io : Option WriteFault} {event : TraverseEvent} {call : Nat}
      {j : DurableEventJournal TraverseEvent} (h : w.writer = .writing event call)
      (hj : w.root.journal = some j) : Takes w (.append now io) (w.append c j now io event call)
  | acknowledge {event : TraverseEvent} {call : Nat} {result : Except JournalError String}
      (h : w.writer = .wrote event call result) :
      Takes w .acknowledge (w.acknowledge event call result)
  | revoke {now : Int} {io : Option WriteFault} {cursor eventId eventType : String}
      {call : Option Nat} {j : DurableEventJournal TraverseEvent}
      (h : w.writer = .revoking cursor eventId eventType call) (hj : w.root.journal = some j) :
      Takes w (.revoke now io) (w.revoke c j now io cursor eventId eventType call)
  | acknowledgeRevoke {call : Nat} {result : Except JournalError Unit}
      (h : w.writer = .revoked call result) :
      Takes w .acknowledgeRevoke (w.acknowledgeRevoke call result)
  | subscribe {now : Int} {eventType fromCursor : String} {subject : Option String} :
      Takes w (.subscribe now eventType fromCursor subject)
        (w.subscribeForSubject c ops now eventType fromCursor subject).2
  | pollLive {now : Int} {id : String} {maxEvents : Nat} (h : isDurableId id = false) :
      Takes w (.pollLive now id maxEvents) (w.pollLive ops now id maxEvents)
  | pollDurable {id : String} {maxEvents : Nat} (h : w.poller = none) :
      Takes w (.pollDurable id maxEvents) (w.pollDurable id maxEvents)
  | pollRead {p : Poller} {j : DurableEventJournal TraverseEvent} (h : w.poller = some p)
      (hj : w.root.journal = some j) : Takes w .pollRead (w.pollRead c j p)
  | cancel {id : String} : Takes w (.cancel id) (w.cancel ops id)

variable {c ops}

theorem takes_of_step {w w' : DurableBroker β} {a : Step} (hs : w.step c ops a = some w') :
    Takes c ops w a w' := by
  cases a <;> simp only [step] at hs
  case pollLive now id maxEvents =>
    split at hs
    · cases hs
    · rename_i h
      cases hs
      exact .pollLive (by simpa using h)
  case pollDurable id maxEvents =>
    split at hs
    · rename_i h
      split at hs
      · cases hs
        exact .pollDurable h
      · cases hs
    · cases hs
  case cancel id =>
    split at hs
    · cases hs
      exact .cancel
    split at hs
    · cases hs
    · cases hs
      exact .cancel
  -- the others are guarded by one match, on what their constructor asks for
  all_goals
    split at hs
    all_goals cases hs
    constructor <;> assumption

end DurableBroker

/-! ## Publish calls written out label by label, and a broker for orders -/

namespace DurableBroker

variable {β : Type} {c : RecordCodec TraverseEvent} (ops : EventBroker β) {w : DurableBroker β}

theorem layoutRun_nil : LayoutRun c [] Root.empty := ⟨by simp, trivial, rfl⟩

/-- A call is started and waits until its event is in the journal. -/
def stage (call : Nat) (event : TraverseEvent) : List Step :=
  [.publish call event, .receive, .append 0 none, .acknowledge, .settle call]

/-- A call that runs to its end without being disturbed. -/
def undisturbed (call : Nat) (event : TraverseEvent) (now : Int) : List Step :=
  stage call event ++ [.handOff call now]

end DurableBroker

/-! ## A broker for orders -/

def ordersCatalog : EventCatalog where
  entries := fun eventType =>
    if eventType = ordersType then
      some ⟨ordersType, "orders", "1.0.0", .active, 0⟩
    else none

def ordersBroker : InProcessBroker where
  catalog := ordersCatalog
  config := .default
  state := .default
  validationMode := .migration
  window_pos := by decide
  queue_pos := by decide

theorem ordersBroker_new :
    InProcessBroker.new ordersCatalog .default .migration = .ok ordersBroker := rfl

/-- In migration mode it does not matter which versions are semantic. -/
def ordersOps : EventBroker InProcessBroker := inProcess fun _ => true

end Traverse.Events

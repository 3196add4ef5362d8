import Mathlib.Data.Finset.Basic
import Traverse.Events.Types
import Traverse.Text.Decimal

/-!
# Events.Broker

The in-process broker (`events/broker.rs`) with the catalog it looks event types up in
(`events/catalog.rs`). A map of the source is a function from its keys; a missing entry of a map
that is read through `or_default` or `unwrap_or` is the default. Times are nanoseconds, and every
call is given the reading its clock returns. The records kept for telemetry and lineage are not
part of the state: nothing reads them back.
-/

namespace Traverse.Events

open Text Decimal Function

/-! ## Validation (`events/validation.rs`)

Whether a version is semantic is decided by the `semver` crate, which is not part of the
repository. -/

inductive EventValidationMode where
  | migration
  | enforcement
  deriving DecidableEq, Repr

structure EventValidationDiagnostic where
  (code path severity remediation contractId version : String)
  deriving DecidableEq, Repr

structure EventValidationResult where
  accepted : Bool
  diagnostics : List EventValidationDiagnostic
  deriving DecidableEq, Repr

namespace Validation

def diagnostic (code path remediation : String) (event : TraverseEvent) :
    EventValidationDiagnostic :=
  ⟨code, path, "error", remediation, event.eventType, event.version⟩

def validateNonEmpty (code path field value : String) (event : TraverseEvent) :
    List EventValidationDiagnostic :=
  if (trim value).isEmpty then [diagnostic code path field event] else []

def validateOptionalNonEmpty (code path field : String) (value : Option String)
    (event : TraverseEvent) : List EventValidationDiagnostic :=
  if value.all fun v => (trim v).isEmpty then [diagnostic code path field event] else []

/-- A dotted name whose last part ends in `ed`. -/
def isFactType (value : String) : Bool :=
  value.toList.contains '.' &&
    ['d', 'e'].isPrefixOf (value.toList.reverse.takeWhile (· != '.'))

variable (semver : String → Bool)

def validateEvent (event : TraverseEvent) (mode : EventValidationMode) : EventValidationResult :=
  let diagnostics :=
    validateNonEmpty "EVP-001" "/id" "id" event.id event ++
    validateNonEmpty "EVP-002" "/source" "source" event.source event ++
    validateNonEmpty "EVP-003" "/datacontenttype" "datacontenttype" event.datacontenttype event ++
    validateNonEmpty "EVP-004" "/time" "time" event.time event ++
    validateNonEmpty "EVP-005" "/owner" "owner" event.owner event ++
    validateOptionalNonEmpty "EVP-008" "/deduplicationid" "deduplication identity"
      event.deduplicationId event ++
    validateOptionalNonEmpty "EVP-009" "/orderingscope" "ordering scope" event.orderingScope
      event ++
    validateOptionalNonEmpty "EVP-010" "/correlationid" "correlation id" event.correlationId
      event ++
    validateOptionalNonEmpty "EVP-011" "/causationid" "causation id" event.causationId event ++
    (if semver event.version then []
      else [diagnostic "EVP-006" "/version" "version must be semantic" event]) ++
    (if isFactType event.eventType then []
      else [diagnostic "EVP-007" "/type" "type must use a dotted past-tense fact name" event])
  ⟨mode = .migration || diagnostics.isEmpty, diagnostics⟩

/-- `validate_boundary`: what is rejected is rejected with the code of the first diagnostic. -/
def validateBoundary (mode : EventValidationMode) (event : TraverseEvent) :
    Except EventError Unit :=
  let validation := validateEvent semver event mode
  if validation.accepted then .ok ()
  else .error (.validationRejected ((validation.diagnostics.head?.map (·.code)).getD "EVP-000"))

end Validation

structure BrokerEvent where
  cursor : String
  event : TraverseEvent
  deriving DecidableEq

structure Subscription where
  (subscriptionId eventType cursor : String)
  deriving DecidableEq, Repr

structure SubscriptionPoll where
  (subscriptionId eventType cursor : String)
  events : List BrokerEvent
  deriving DecidableEq

/-- `u64::saturating_add(1)`. -/
def saturatingSucc (n : Nat) : Nat := min (n + 1) u64Max

/-- The subject filter of a subscription; no subject lets every event through. -/
def subjectMatches (subject : Option String) (event : TraverseEvent) : Bool :=
  subject.all fun s => event.subjectId == some s

/-! ## The catalog -/

structure EventCatalogEntry where
  (eventType owner version : String)
  lifecycleStatus : LifecycleStatus
  consumerCount : Nat
  deriving DecidableEq, Repr

structure EventCatalog where
  entries : String → Option EventCatalogEntry

namespace EventCatalog

variable (catalog : EventCatalog)

def get (eventType : String) : Option EventCatalogEntry :=
  catalog.entries eventType

def incrementConsumerCount (eventType : String) : EventCatalog :=
  ⟨update catalog.entries eventType ((catalog.entries eventType).map fun entry =>
    { entry with consumerCount := saturatingSucc entry.consumerCount })⟩

end EventCatalog

/-! ## State -/

structure BrokerConfig where
  (retentionWindow maxQueueLen : Nat)
  deriving DecidableEq, Repr

def BrokerConfig.default : BrokerConfig := ⟨5 * 60 * 1000000000, 1024⟩

structure BufferedEvent where
  cursor : Nat
  publishedAt : Int
  event : TraverseEvent
  deriving DecidableEq

structure SubscriptionState where
  (subscriptionId eventType : String)
  (subjectId consumerId : Option String)
  cursor : Nat
  queue : List BufferedEvent
  deriving DecidableEq

structure BrokerState where
  nextSubscription : Nat
  nextCursor : String → Nat
  buffers : String → List BufferedEvent
  seenEventIds : String → Finset String
  subscriptions : String → Option SubscriptionState
  subscriptionsByEventType : String → Finset String
  restartFloor : Nat

def BrokerState.default : BrokerState where
  nextSubscription := 0
  nextCursor := fun _ => 0
  buffers := fun _ => []
  seenEventIds := fun _ => ∅
  subscriptions := fun _ => none
  subscriptionsByEventType := fun _ => ∅
  restartFloor := 0

structure InProcessBroker where
  catalog : EventCatalog
  config : BrokerConfig
  state : BrokerState
  validationMode : EventValidationMode
  window_pos : 0 < config.retentionWindow
  queue_pos : 0 < config.maxQueueLen

/-- `with_clock_and_validation`. -/
def InProcessBroker.new (catalog : EventCatalog) (config : BrokerConfig)
    (mode : EventValidationMode) : Except EventError InProcessBroker :=
  if hw : config.retentionWindow = 0 then
    .error (.invalidRetentionWindow "retention_window must be > 0")
  else if hq : config.maxQueueLen = 0 then
    .error (.invalidRetentionWindow "max_queue_len must be > 0")
  else .ok ⟨catalog, config, .default, mode, Nat.pos_of_ne_zero hw, Nat.pos_of_ne_zero hq⟩

/-! ## Cursors, queues and retention -/

def parseCursor (raw : String) : Except EventError Nat :=
  if trim raw = "0" then .ok 0
  else
    match parseU64 (trim raw) with
    | .ok n => .ok n
    | .error _ =>
      .error (.invalidCursor "cursor must be \"0\" or a base-10 unsigned integer")

theorem parseCursor_repr {n : Nat} (h : n ≤ u64Max) : parseCursor n.repr = .ok n := by
  rw [parseCursor, trim_repr]
  by_cases hz : n.repr = "0"
  · rw [if_pos hz]
    have : n = 0 := repr_injective (hz.trans (by decide))
    rw [this]
  · rw [if_neg hz, parseU64_repr h]

/-- Makes room by dropping from the front, then adds at the back. -/
def enqueueWithDropOldest (maxLen : Nat) (queue : List BufferedEvent) (item : BufferedEvent) :
    List BufferedEvent :=
  queue.drop (queue.length + 1 - maxLen) ++ [item]

/-- A reading before the time of publication counts as age 0. -/
def expired (window : Nat) (now : Int) (item : BufferedEvent) : Bool :=
  window < (now - item.publishedAt).toNat

def dropBelow (oldest : Nat) (queue : List BufferedEvent) : List BufferedEvent :=
  queue.dropWhile fun item => item.cursor < oldest

namespace BrokerState

variable (state : BrokerState) (eventType : String)

/-- The loops over `subscription_ids_for_event_type`: an id without a subscription is skipped. -/
def eachSubscription (f : SubscriptionState → SubscriptionState) : BrokerState :=
  { state with
    subscriptions := fun id =>
      if id ∈ state.subscriptionsByEventType eventType then (state.subscriptions id).map f
      else state.subscriptions id }

/-- Pruning stops at the first event that is young enough. When it empties the buffer the
subscription queues are left alone. -/
def pruneExpired (window : Nat) (now : Int) :
    BrokerState :=
  let gone := (state.buffers eventType).takeWhile (expired window now)
  let kept := (state.buffers eventType).dropWhile (expired window now)
  let pruned := { state with
    buffers := update state.buffers eventType kept
    seenEventIds := update state.seenEventIds eventType
      ((state.seenEventIds eventType).filter fun id => id ∉ gone.map (·.event.id)) }
  match kept.head? with
  | none => pruned
  | some oldest =>
    pruned.eachSubscription eventType fun sub =>
      { sub with queue := dropBelow oldest.cursor sub.queue }

def validateFromCursor (fromCursor : Nat) :
    Except EventError Unit :=
  if fromCursor = 0 then .ok ()
  else
    let lastCursor := max (state.nextCursor eventType) state.restartFloor
    match (state.buffers eventType).head? with
    | some front =>
      if fromCursor < front.cursor - 1 then
        .error (.cursorExpired eventType (front.cursor - 1).repr)
      else .ok ()
    | none =>
      if 0 < lastCursor ∧ fromCursor < lastCursor then
        .error (.cursorExpired eventType lastCursor.repr)
      else .ok ()

/-- The subscription map, the index and the counter after a subscription was added. -/
def addSubscription (sub : SubscriptionState) : BrokerState :=
  { state with
    subscriptions := update state.subscriptions sub.subscriptionId (some sub)
    subscriptionsByEventType := update state.subscriptionsByEventType sub.eventType
      (insert sub.subscriptionId (state.subscriptionsByEventType sub.eventType)) }

end BrokerState

def backlog (maxLen fromCursor : Nat) (subject : Option String) (buffer : List BufferedEvent) :
    List BufferedEvent :=
  (buffer.filter fun item =>
    (fromCursor == 0 || decide (fromCursor < item.cursor)) &&
      subjectMatches subject item.event).foldl
      (enqueueWithDropOldest maxLen) []

namespace InProcessBroker

variable (b : InProcessBroker)

def prune (eventType : String) (now : Int) : InProcessBroker :=
  { b with state := b.state.pruneExpired eventType b.config.retentionWindow now }

/-! ## Operations -/

def subscribeWithSubject (now : Int) (eventType fromCursor : String)
    (subject consumer : Option String) : Except EventError Subscription × InProcessBroker :=
  match b.catalog.get eventType with
  | none => (.error (.unregisteredEventType eventType), b)
  | some _ =>
    match parseCursor fromCursor with
    | .error e => (.error e, b)
    | .ok fromCursor =>
      let b := b.prune eventType now
      match b.state.validateFromCursor eventType fromCursor with
      | .error e => (.error e, b)
      | .ok () =>
        let next := saturatingSucc b.state.nextSubscription
        let sub : SubscriptionState := {
          subscriptionId := s!"sub-{next}"
          eventType := eventType
          subjectId := subject
          consumerId := consumer
          cursor := fromCursor
          queue := backlog b.config.maxQueueLen fromCursor subject (b.state.buffers eventType) }
        (.ok ⟨sub.subscriptionId, eventType, fromCursor.repr⟩,
          { b with
            catalog := b.catalog.incrementConsumerCount eventType
            state := { b.state with nextSubscription := next }.addSubscription sub })

def subscribeForSubject (now : Int) (eventType fromCursor : String)
    (subject : Option String) : Except EventError Subscription × InProcessBroker :=
  b.subscribeWithSubject now eventType fromCursor subject none

variable (semver : String → Bool) (b : InProcessBroker)

/-- The gate in front of the state: the envelope, the catalog and the lifecycle. -/
def gate (event : TraverseEvent) :
    Except EventError Unit :=
  match Validation.validateBoundary semver b.validationMode event with
  | .error e => .error e
  | .ok () =>
    match b.catalog.get event.eventType with
    | none => .error (.unregisteredEventType event.eventType)
    | some entry =>
      match entry.lifecycleStatus with
      | .active => .ok ()
      | .deprecated =>
        .error (.lifecycleViolation
          s!"event type '{event.eventType}' is Deprecated and cannot be published")
      | .draft =>
        .error (.lifecycleViolation
          s!"event type '{event.eventType}' is Draft and cannot be published")

/-- The counter after an event and the cursor of the event. -/
def assignCursor (next : Nat) : Option Nat → Nat × Nat
  | some assigned => (max next assigned, assigned)
  | none => (saturatingSucc next, saturatingSucc next)

variable (now : Int) (event : TraverseEvent)

/-- The new event goes to the back of the buffer and of every queue that takes it. -/
def deliver (assigned : Option Nat) :
    InProcessBroker :=
  let (next, cursor) := assignCursor (b.state.nextCursor event.eventType) assigned
  let item : BufferedEvent := ⟨cursor, now, event⟩
  let state := { b.state with
    seenEventIds := update b.state.seenEventIds event.eventType
      (insert event.id (b.state.seenEventIds event.eventType))
    nextCursor := update b.state.nextCursor event.eventType next
    buffers := update b.state.buffers event.eventType (b.state.buffers event.eventType ++ [item]) }
  { b with
    state := state.eachSubscription event.eventType fun sub =>
      if subjectMatches sub.subjectId event then
        { sub with queue := enqueueWithDropOldest b.config.maxQueueLen sub.queue item }
      else sub }

def publishInternal (assigned : Option Nat) : Except EventError Unit × InProcessBroker :=
  match b.gate semver event with
  | .error e => (.error e, b)
  | .ok () =>
    let b := b.prune event.eventType now
    -- a duplicate is discarded and reported as published
    if event.id ∈ b.state.seenEventIds event.eventType then (.ok (), b)
    else (.ok (), b.deliver now event assigned)

def publish :
    Except EventError Unit × InProcessBroker :=
  b.publishInternal semver now event none

def publishWithCursor (cursor : String) : Except EventError Unit × InProcessBroker :=
  match parseCursor cursor with
  | .error e => (.error e, b)
  | .ok assigned => b.publishInternal semver now event (some assigned)

def seedRestartFloor (floor : Nat) : InProcessBroker :=
  { b with state := { b.state with restartFloor := max b.state.restartFloor floor } }

/-- What `poll` drops from the queue it has taken out of the map, before it delivers. -/
def trimmedQueue (buffer queue : List BufferedEvent) : List BufferedEvent :=
  match buffer.head? with
  | some oldest => dropBelow oldest.cursor queue
  | none => queue

/-- The subscription is taken out of the map before the checks, and put back only if they pass. -/
def poll (id : String) (maxEvents : Nat) :
    Except EventError SubscriptionPoll × InProcessBroker :=
  match b.state.subscriptions id with
  | none => (.error (.subscriptionNotFound id), b)
  | some sub =>
    let taken := { b with
      state := { b.state with subscriptions := update b.state.subscriptions id none } }
    let b := taken.prune sub.eventType now
    match b.state.validateFromCursor sub.eventType sub.cursor with
    | .error e => (.error e, b)
    | .ok () =>
      let queue := trimmedQueue (b.state.buffers sub.eventType) sub.queue
      let out := queue.take maxEvents
      let cursor := (out.getLast?.map (·.cursor)).getD sub.cursor
      let sub := { sub with cursor := cursor, queue := queue.drop maxEvents }
      (.ok ⟨sub.subscriptionId, sub.eventType, cursor.repr,
          out.map fun item => ⟨item.cursor.repr, item.event⟩⟩,
        { b with
          state := { b.state with
            subscriptions := update b.state.subscriptions sub.subscriptionId (some sub) } })

def cancel (id : String) : Except EventError Unit × InProcessBroker :=
  match b.state.subscriptions id with
  | none => (.error (.subscriptionNotFound id), b)
  | some sub =>
    (.ok (),
      { b with
        state := { b.state with
          subscriptions := update b.state.subscriptions id none
          subscriptionsByEventType := update b.state.subscriptionsByEventType
            sub.eventType ((b.state.subscriptionsByEventType sub.eventType).erase id) } })

end InProcessBroker

/-! ## The broker interface -/

/-- The operations of the trait `EventBroker` that `DurableBroker` calls on the broker it wraps.
Each gets the reading of the wrapped broker's clock. -/
structure EventBroker (β : Type) where
  publishWithCursor : β → Int → TraverseEvent → String → Except EventError Unit × β
  seedRestartFloor : β → Nat → β
  subscribeForSubject :
    β → Int → String → String → Option String → Except EventError Subscription × β
  poll : β → Int → String → Nat → Except EventError SubscriptionPoll × β
  cancel : β → String → Except EventError Unit × β

def inProcess (semver : String → Bool) : EventBroker InProcessBroker where
  publishWithCursor := InProcessBroker.publishWithCursor semver
  seedRestartFloor := InProcessBroker.seedRestartFloor
  subscribeForSubject := InProcessBroker.subscribeForSubject
  poll := InProcessBroker.poll
  cancel := InProcessBroker.cancel

end Traverse.Events

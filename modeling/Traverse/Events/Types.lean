import Traverse.Text.JsonGrammar

/-!
# Events.Types

The event envelope and the errors of the event system (`events/types.rs`).
-/

namespace Traverse.Events

inductive LifecycleStatus where
  | draft
  | active
  | deprecated
  deriving DecidableEq, Repr

structure TraverseEvent where
  (id source eventType datacontenttype time : String)
  /-- No fractions: brokers and journal pass it on without a look, and what the journal prints is a
  `Json.Value`. -/
  data : Json.Value
  (owner version : String)
  lifecycleStatus : LifecycleStatus
  (deduplicationId orderingScope correlationId causationId subjectId actorId : Option String)
  deriving DecidableEq

inductive EventError where
  | validationRejected (code : String)
  | lifecycleViolation (message : String)
  | unregisteredEventType (eventType : String)
  | invalidCursor (message : String)
  | cursorExpired (eventType oldestAvailableCursor : String)
  | subscriptionNotFound (id : String)
  | invalidRetentionWindow (message : String)
  | journalWrite (message : String)
  | journalWriteTimeout (message : String)
  | journalRead (message : String)
  deriving DecidableEq, Repr

/-- `impl Display for EventError`. -/
def EventError.display : EventError → String
  | .validationRejected code => s!"event validation rejected: {code}"
  | .lifecycleViolation message => s!"lifecycle violation: {message}"
  | .unregisteredEventType eventType => s!"unregistered event type: {eventType}"
  | .invalidCursor message => s!"invalid cursor: {message}"
  | .cursorExpired eventType oldest =>
    s!"cursor expired for event type '{eventType}': oldest available cursor is {oldest}"
  | .subscriptionNotFound id => s!"subscription not found: {id}"
  | .invalidRetentionWindow message => s!"invalid retention window: {message}"
  | .journalWrite message => s!"journal write failed: {message}"
  | .journalWriteTimeout message => s!"journal_write_timeout: {message}"
  | .journalRead message => s!"journal read failed: {message}"

end Traverse.Events

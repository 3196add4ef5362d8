import Traverse.Events.Complete

/-!
# Events.BrokerRun

The in-process broker as a machine: a label is one call with the clock reading it gets. The state
carries the past of the broker (what it accepted, how each subscription was opened, what polls took
out of its queue) and the polls as their callers saw them.

`Rising` is what keeps cursors and subscription numbers apart: a counter at `u64::MAX` saturates,
and `publish_with_cursor` takes any cursor it is given. In runs along `Rising` the past and the
state stay `Ordered`, and a subscription whose queue has room stays `Complete`.
-/

namespace Traverse.Events

open Decimal List Function InProcessBroker

inductive BrokerCall where
  | publish (now : Int) (event : TraverseEvent)
  | publishWithCursor (now : Int) (event : TraverseEvent) (cursor : String)
  | subscribe (now : Int) (eventType fromCursor : String) (subject consumer : Option String)
  | poll (now : Int) (id : String) (maxEvents : Nat)
  | cancel (id : String)

/-- The clock reading that a call gets. -/
def BrokerCall.reading : BrokerCall → Option Int
  | .publish now _ | .publishWithCursor now _ _ | .subscribe now .. | .poll now .. => some now
  | .cancel _ => none

/-- The call asks for a publication, with the cursor it comes with. -/
inductive BrokerCall.Publishes : BrokerCall → Int → TraverseEvent → Option Nat → Prop
  | publish {now : Int} {event : TraverseEvent} : Publishes (.publish now event) now event none
  | withCursor {now : Int} {event : TraverseEvent} {cursor : String} {k : Nat}
    (h : parseCursor cursor = .ok k) :
    Publishes (.publishWithCursor now event cursor) now event (some k)

structure BrokerRun where
  broker : InProcessBroker
  past : Ghost
  polls : List SubscriptionPoll

/-- Everything the polls of a subscription have returned, in order. -/
def received (polls : List SubscriptionPoll) (id : String) : List BrokerEvent :=
  (polls.filter fun p => p.subscriptionId = id).flatMap (·.events)

theorem received_append (polls : List SubscriptionPoll) (p : SubscriptionPoll) (id : String) :
    received (polls ++ [p]) id =
      received polls id ++ if p.subscriptionId = id then p.events else [] := by
  by_cases h : p.subscriptionId = id <;> simp [received, h]

namespace BrokerRun

def start (b : InProcessBroker) : BrokerRun := ⟨b, .empty, []⟩

variable (semver : String → Bool)

def step (r : BrokerRun) : BrokerCall → Option BrokerRun
  | .publish now event =>
    some { r with
      broker := (r.broker.publish semver now event).2
      past := r.past.publishAll (r.broker.accepted now semver event none) }
  | .publishWithCursor now event cursor =>
    some { r with
      broker := (r.broker.publishWithCursor semver now event cursor).2
      past :=
        match parseCursor cursor with
        | .ok k => r.past.publishAll (r.broker.accepted now semver event (some k))
        | .error _ => r.past }
  | .subscribe now eventType fromCursor subject consumer =>
    some { r with
      broker := (r.broker.subscribeWithSubject now eventType fromCursor subject consumer).2
      past := r.broker.enrolled now r.past eventType fromCursor subject consumer }
  | .poll now id maxEvents =>
    some {
      broker := (r.broker.poll now id maxEvents).2
      past := r.past.receive id (r.broker.served now id maxEvents)
      polls := r.polls ++ (r.broker.poll now id maxEvents).1.toOption.toList }
  | .cancel id => some { r with broker := (r.broker.cancel id).2 }

/-- What a call can do. -/
inductive Move (r : BrokerRun) : BrokerCall → BrokerRun → Prop
  | stay {a : BrokerCall} : Move r a r
  | prune {a : BrokerCall} {now : Int} (t : String) (ha : a.reading = some now) :
    Move r a { r with broker := r.broker.prune t now }
  | deliver {a : BrokerCall} {now : Int} {event : TraverseEvent} {assigned : Option Nat}
    (hpub : a.Publishes now event assigned)
    (hx : r.broker.accepted now semver event assigned =
      some ((r.broker.prune event.eventType now).item now event assigned)) :
    Move r a { r with
      broker := (r.broker.prune event.eventType now).deliver now event assigned
      past := r.past.publish ((r.broker.prune event.eventType now).item now event assigned) }
  | add {now : Int} {t fromCursor : String} {subject consumer : Option String} {start : Nat}
    (hparse : parseCursor fromCursor = .ok start) :
    Move r (.subscribe now t fromCursor subject consumer) { r with
      broker := r.broker.subscribed now t start subject consumer
      past := r.past.enroll (subId (saturatingSucc r.broker.state.nextSubscription))
        (r.broker.opening t start subject) }
  | refuse {now : Int} {id : String} {maxEvents : Nat} {sub : SubscriptionState} {e : EventError}
    (hsub : r.broker.state.subscriptions id = some sub)
    (hvalid : (r.broker.checked now id sub.eventType).validateFromCursor sub.eventType
      sub.cursor = .error e) :
    Move r (.poll now id maxEvents) { r with
      broker := { r.broker with state := r.broker.checked now id sub.eventType } }
  | serve {now : Int} {id : String} {maxEvents : Nat} {sub : SubscriptionState}
    {queue : List BufferedEvent} (hsub : r.broker.state.subscriptions id = some sub)
    (hvalid : (r.broker.checked now id sub.eventType).validateFromCursor sub.eventType
      sub.cursor = .ok ())
    (hqueue : queue = trimmedQueue ((r.broker.checked now id sub.eventType).buffers sub.eventType)
      sub.queue) (cursor : String) :
    Move r (.poll now id maxEvents) {
      broker := { r.broker with state := r.broker.polled now sub id queue maxEvents }
      past := r.past.receive id (queue.take maxEvents)
      polls := r.polls ++ [⟨sub.subscriptionId, sub.eventType, cursor,
        (queue.take maxEvents).map (·.shown)⟩] }
  | forget {id : String} {sub : SubscriptionState}
    (hsub : r.broker.state.subscriptions id = some sub) :
    Move r (.cancel id) { r with
      broker := { r.broker with
        state := { r.broker.state with
          subscriptions := update r.broker.state.subscriptions id none
          subscriptionsByEventType := update r.broker.state.subscriptionsByEventType sub.eventType
            ((r.broker.state.subscriptionsByEventType sub.eventType).erase id) } } }

variable {semver} {r r' : BrokerRun} {a : BrokerCall}

theorem publish_move {now : Int} {event : TraverseEvent} {assigned : Option Nat}
    (hpub : a.Publishes now event assigned) :
    Move semver r a { r with
      broker := (r.broker.publishInternal semver now event assigned).2
      past := r.past.publishAll (r.broker.accepted now semver event assigned) } := by
  cases hx : r.broker.accepted now semver event assigned with
  | none =>
    rcases publishInternal_not_accepted hx with hr | hr
    · rw [hr]
      exact .stay
    · rw [hr]
      exact .prune _ (by cases hpub <;> rfl)
  | some x =>
    obtain ⟨rfl, hr⟩ := publishInternal_accepted hx
    rw [hr]
    exact .deliver hpub hx

theorem step_move (hs : r.step semver a = some r') : Move semver r a r' := by
  cases a with
  | publish now event =>
    cases hs
    exact publish_move .publish
  | publishWithCursor now event cursor =>
    obtain rfl := Option.some.inj hs
    cases hparse : parseCursor cursor with
    | error e =>
      simp only [publishWithCursor, hparse]
      exact .stay
    | ok k =>
      simp only [publishWithCursor, hparse]
      exact publish_move (.withCursor hparse)
  | subscribe now t fromCursor subject consumer =>
    cases hs
    rcases r.broker.subscribeWithSubject_cases now t fromCursor subject consumer with
      ⟨e, _, hr⟩ | ⟨start, hparse, ⟨e, _, hr⟩ | ⟨_, hr⟩⟩
    · simp only [enrolled, hr]
      exact .stay
    · simp only [enrolled, hr]
      exact .prune t rfl
    · simp only [enrolled, hr, hparse]
      exact .add hparse
  | poll now id maxEvents =>
    cases hs
    rcases r.broker.poll_cases now id maxEvents with
      ⟨_, hr, hserved⟩ |
        ⟨sub, hsub, ⟨e, hvalid, hr, hserved⟩ | ⟨hvalid, queue, hqueue, hr, hserved⟩⟩
    · simp only [hr, hserved, Ghost.receive_nil, Except.toOption, Option.toList_none,
        List.append_nil]
      exact .stay
    · simp only [hr, hserved, Ghost.receive_nil, Except.toOption, Option.toList_none,
        List.append_nil]
      exact .refuse hsub hvalid
    · simp only [hr, hserved, Except.toOption, Option.toList_some]
      exact .serve hsub hvalid hqueue _
  | cancel id =>
    cases hs
    unfold InProcessBroker.cancel
    split
    · exact .stay
    · rename_i sub hsub
      exact .forget hsub

variable (semver)

/-- The next cursor of a type lies above its counter, and the next subscription gets a new
number. -/
def Rising (r : BrokerRun) : BrokerCall → Prop
  | .publish _ event => r.broker.state.nextCursor event.eventType < u64Max
  | .publishWithCursor _ event cursor =>
    ∀ k, parseCursor cursor = .ok k → r.broker.state.nextCursor event.eventType < k
  | .subscribe .. => r.broker.state.nextSubscription < u64Max
  | .poll .. | .cancel .. => True

/-- No subscription is opened at a cursor beyond the newest of its type. -/
def NotAhead (r : BrokerRun) : BrokerCall → Prop
  | .subscribe _ eventType fromCursor _ _ =>
    ∀ start, parseCursor fromCursor = .ok start → start ≤ r.broker.state.nextCursor eventType
  | _ => True

/-- The queue of subscription `id` has room for what is about to go into it. -/
def HasRoom (id : String) (r : BrokerRun) : BrokerCall → Prop
  | .publish now event => r.broker.accepted now semver event none ≠ none →
    (r.broker.prune event.eventType now).state.Room r.broker.config.maxQueueLen id event
  | .publishWithCursor now event cursor => ∀ k, parseCursor cursor = .ok k →
    r.broker.accepted now semver event (some k) ≠ none →
      (r.broker.prune event.eventType now).state.Room r.broker.config.maxQueueLen id event
  | .subscribe now eventType fromCursor subject _ => ∀ start, parseCursor fromCursor = .ok start →
    id = subId (r.broker.state.nextSubscription + 1) →
      BrokerState.Fits r.broker now eventType start subject
  | .poll .. | .cancel .. => True

instance (r : BrokerRun) : DecidablePred r.Rising := fun b =>
  match b with
  | .publish .. | .subscribe .. => inferInstanceAs (Decidable (_ < _))
  | .publishWithCursor _ _ cursor =>
    inferInstanceAs (Decidable (∀ k, parseCursor cursor = .ok k → _ < k))
  | .poll .. | .cancel .. => .isTrue trivial

instance (id : String) (r : BrokerRun) : DecidablePred (r.HasRoom semver id) := fun b =>
  match b with
  | .publish now event =>
    inferInstanceAs (Decidable (r.broker.accepted now semver event none ≠ none → _))
  | .publishWithCursor _ _ cursor =>
    inferInstanceAs (Decidable (∀ k, parseCursor cursor = .ok k → _ ≠ none →
      BrokerState.Room _ _ _ _))
  | .subscribe _ _ fromCursor _ _ =>
    inferInstanceAs (Decidable (∀ k, parseCursor fromCursor = .ok k → id = _ →
      BrokerState.Fits _ _ _ _ _))
  | .poll .. | .cancel .. => .isTrue trivial

structure Consistent (r : BrokerRun) : Prop where
  ordered : r.broker.state.Ordered r.past
  shown : ∀ id, received r.polls id = (r.past.got id).map (·.shown)

variable {now : Int} {event : TraverseEvent} {assigned : Option Nat} {id : String} {semver}

theorem accepted_rising {b : InProcessBroker} {x : BufferedEvent}
    (hx : x ∈ b.accepted now semver event assigned)
    (hk : b.state.nextCursor event.eventType < (assigned.getD u64Max)) :
    b.state.nextCursor event.eventType < x.cursor := by
  obtain ⟨rfl, _⟩ := publishInternal_accepted hx
  cases assigned with
  | none =>
    have hsucc : saturatingSucc (b.state.nextCursor event.eventType) =
        b.state.nextCursor event.eventType + 1 := saturatingSucc_of_lt hk
    simp [item, assignCursor, hsucc]
  | some k => simpa [item, assignCursor] using hk

theorem Rising.publishes (ha : r.Rising a) (hpub : a.Publishes now event assigned) :
    r.broker.state.nextCursor event.eventType < assigned.getD u64Max := by
  cases hpub with
  | publish => exact ha
  | withCursor hparse => exact ha _ hparse

theorem Consistent.step (h : r.Consistent) (ha : r.Rising a) (hs : r.step semver a = some r') :
    r'.Consistent := by
  have hordered := h.ordered
  cases step_move hs with
  | stay => exact h
  | prune t => exact ⟨hordered.prune t _ _, h.shown⟩
  | @deliver _ now event assigned hpub hx =>
    have hrise := accepted_rising hx (ha.publishes hpub)
    refine ⟨(hordered.prune event.eventType _ now).deliver
      (b := r.broker.prune event.eventType now) now ?_, h.shown⟩
    simpa using hrise
  | @add now t _ subject consumer start =>
    have hname := newSubscription_id ha now t start subject consumer
    have hadd := (hordered.prune t r.broker.config.retentionWindow now).add
      (o := r.broker.opening t start subject) (by simpa using hname)
      ⟨Nat.min_le_left _ _, by simp [opening]⟩
      (hordered.newSubscription now t start subject consumer)
    refine ⟨?_, h.shown⟩
    rw [subscribed_state ha]
    simpa [newSubscription] using hadd
  | refuse => exact ⟨hordered.checked _ _ _, h.shown⟩
  | @serve now id maxEvents sub queue hsub _ hqueue =>
    obtain ⟨o, ho, hf⟩ := hordered.follows id sub hsub
    have hq : queue.Sublist sub.queue := hqueue ▸ BrokerState.trimmedQueue_sublist _ _
    have hname := hordered.named id sub hsub
    subst hname
    refine ⟨(hordered.checked now _ _).serve rfl ?_ ho ?_ (hf.advance hq maxEvents), fun i => ?_⟩
    · intro t
      rw [checked, BrokerState.pruneExpired_index]
      exact hordered.indexed _ sub hsub t
    · intro x hx
      have hmem := hf.queued x (hq.subset (mem_of_mem_take hx))
      exact ⟨hf.eventType ▸ hmem.1, hmem.2⟩
    · rw [received_append, h.shown i]
      by_cases hi : sub.subscriptionId = i
      · simp [Ghost.receive, hi]
      · simp [Ghost.receive, hi, Ne.symm hi]
  | @forget id sub hsub =>
    refine ⟨hordered.forget id (fun t => ?_) fun t i hi hne => ?_, h.shown⟩
    · by_cases ht : t = sub.eventType
      · subst ht
        simpa using Finset.erase_subset _ _
      · simp [ht]
    · by_cases ht : t = sub.eventType
      · subst ht
        simpa using ⟨hne, hi⟩
      · simpa [ht] using hi

/-- Nothing due to the subscription `id` is lost without a trace. -/
structure Watched (id : String) (r : BrokerRun) : Prop where
  consistent : r.Consistent
  complete : r.broker.state.CompleteAt r.past id
  gapless : BrokerState.GaplessAt r.past id

theorem HasRoom.publishes (ha : r.HasRoom semver id a) (hpub : a.Publishes now event assigned)
    (hx : r.broker.accepted now semver event assigned ≠ none) :
    (r.broker.prune event.eventType now).state.Room r.broker.config.maxQueueLen id event := by
  cases hpub with
  | publish => exact ha hx
  | withCursor hparse => exact ha _ hparse hx

theorem Watched.step (h : r.Watched id) (ha : r.Rising a) (hr : r.HasRoom semver id a)
    (hs : r.step semver a = some r') : r'.Watched id := by
  have hordered := h.consistent.ordered
  have hnext := h.consistent.step ha hs
  have hchecked : ∀ now i t, (r.broker.checked now i t).CompleteAt r.past id := fun now i t =>
    (h.complete.forget i _).prune
      (hordered.forget i (fun _ => Finset.Subset.refl _) fun _ _ hi _ => hi) _ _ _
  cases step_move hs with
  | stay => exact h
  | prune t => exact ⟨hnext, h.complete.prune hordered t _ _, h.gapless⟩
  | @deliver _ now event assigned hpub hx =>
    have hrise := accepted_rising hx (ha.publishes hpub)
    refine ⟨hnext, ?_, h.gapless.publish hordered hrise⟩
    refine (h.complete.prune hordered event.eventType _ now).deliver
      (b := r.broker.prune event.eventType now) (hordered.prune _ _ _) ?_ ?_
    · simpa using hrise
    · exact hr.publishes hpub (by simp [hx])
  | @add now t _ subject consumer start hparse =>
    have hname := newSubscription_id ha now t start subject consumer
    have hfresh := hordered.unopened _
      (hordered.unused _ (Nat.lt_succ_self r.broker.state.nextSubscription)).1
    rw [saturatingSucc_of_lt ha] at hnext ⊢
    by_cases hid : id = subId (r.broker.state.nextSubscription + 1)
    · subst hid
      refine ⟨hnext, fun o ho => ?_, fun o ho x _ _ => .inr (.inl fun y hy => ?_)⟩
      · rw [subscribed_state ha]
        simp only [Ghost.enroll, update_self, Option.some.injEq] at ho
        subst ho
        have hnew := BrokerState.complete_newSubscription hordered consumer (hr start hparse rfl)
        simpa [Ghost.enroll, BrokerState.addSubscription, hname, hfresh, opening] using hnew
      · simp only [Ghost.enroll, hfresh] at hy
        cases hy
    · refine ⟨hnext, ?_, fun o ho => h.gapless o (by simpa [Ghost.enroll, hid] using ho)⟩
      rw [subscribed_state ha]
      refine (h.complete.prune hordered t r.broker.config.retentionWindow now).congr rfl ?_ rfl ?_
        rfl
      · simp [BrokerState.addSubscription, hname, hid]
      · simp [Ghost.enroll, hid]
  | refuse => exact ⟨hnext, hchecked _ _ _, h.gapless⟩
  | @serve now i maxEvents sub queue hsub hvalid hqueue =>
    by_cases hid : id = i
    · subst hid
      exact ⟨hnext, h.complete.serve hordered hsub hqueue maxEvents,
        h.gapless.serve h.complete hordered hsub hvalid hqueue maxEvents⟩
    · refine ⟨hnext, (hchecked now i sub.eventType).congr rfl ?_ rfl rfl ?_, fun o ho => ?_⟩
      · simp [polled, hordered.named i sub hsub, hid]
      · simp [Ghost.receive, hid]
      · simpa [Ghost.receive, hid] using h.gapless o ho
  | @forget i => exact ⟨hnext, h.complete.forget i _, h.gapless⟩

end BrokerRun

theorem BrokerState.ordered_default : BrokerState.default.Ordered .empty where
  suffix := fun _ => List.suffix_refl _
  increasing := fun _ => List.Pairwise.nil
  latest := fun _ _ hx => absurd hx List.not_mem_nil
  positive := fun _ _ hx => absurd hx List.not_mem_nil
  typed := fun _ _ hx => absurd hx List.not_mem_nil
  named := fun _ _ hsub => by cases hsub
  indexed := fun _ _ hsub => by cases hsub
  unused := fun _ _ => ⟨rfl, fun _ => Finset.notMem_empty _⟩
  unopened := fun _ _ => rfl
  floored := fun _ _ ho => by cases ho
  received := fun _ _ ho => by cases ho
  follows := fun _ _ hsub => by cases hsub

theorem BrokerState.Ordered.seed {s : BrokerState} {g : Ghost} (h : s.Ordered g) (floor : Nat) :
    { s with restartFloor := floor }.Ordered g where
  suffix := h.suffix
  increasing := h.increasing
  latest := h.latest
  positive := h.positive
  typed := h.typed
  named := h.named
  indexed := h.indexed
  unused := h.unused
  unopened := h.unopened
  floored := h.floored
  received := h.received
  follows := h.follows

variable {catalog : EventCatalog} {config : BrokerConfig} {mode : EventValidationMode}
  {b : InProcessBroker}

theorem InProcessBroker.new_state (h : new catalog config mode = .ok b) :
    b.state = .default ∧ b.catalog = catalog ∧ b.config = config := by
  unfold new at h
  split at h
  · cases h
  split at h
  · cases h
  · cases h
    exact ⟨rfl, rfl, rfl⟩

theorem BrokerRun.consistent_start (h : new catalog config mode = .ok b) :
    (start b).Consistent := by
  refine ⟨?_, fun _ => rfl⟩
  rw [start, (new_state h).1]
  exact BrokerState.ordered_default

theorem BrokerRun.watched_start (h : new catalog config mode = .ok b) (id : String) :
    (start b).Watched id :=
  ⟨consistent_start h, fun _ ho => (by cases ho), fun _ ho => (by cases ho)⟩

end Traverse.Events

import Traverse.Events.Wrapped

/-!
# Events.Retention

The retention window of the in-process broker. `prune_expired` stops at the first young event, so
after the clock went back an expired event may stay behind a younger one, and with it its id. It
trims no queue when it empties the buffer, so a poll then hands out what the queue holds.
-/

namespace Traverse.Events

open Decimal Function List Machine InProcessBroker

variable {s : BrokerState}

/-- The ids of a type that count as duplicates are those of its retained events, each once. -/
def BrokerState.Remembers (s : BrokerState) : Prop :=
  ∀ t, s.seenEventIds t = ((s.buffers t).map (·.event.id)).toFinset ∧
    ((s.buffers t).map (·.event.id)).Nodup

namespace BrokerState

theorem Remembers.prune (h : s.Remembers) (t : String) (window : Nat) (now : Int) :
    (s.pruneExpired t window now).Remembers := by
  intro t'
  rw [pruneExpired_eq]
  by_cases ht : t' = t
  · subst ht
    obtain ⟨hseen, hnodup⟩ := h t'
    have hsplit := takeWhile_append_dropWhile (p := expired window now) (l := s.buffers t')
    rw [← hsplit, map_append] at hseen hnodup
    obtain ⟨_, hkept, hapart⟩ := nodup_append'.1 hnodup
    simp only [update_self, kept, hseen]
    refine ⟨?_, hkept⟩
    ext id
    have hnot : id ∈ (dropWhile (expired window now) (s.buffers t')).map (·.event.id) →
        id ∉ (takeWhile (expired window now) (s.buffers t')).map (·.event.id) :=
      fun hin hgone => hapart hgone hin
    rw [Finset.mem_filter, mem_toFinset, mem_toFinset, mem_append]
    tauto
  · simpa [ht] using h t'

theorem Remembers.deliver {b : InProcessBroker} (h : b.state.Remembers) {event : TraverseEvent}
    (hnew : event.id ∉ b.state.seenEventIds event.eventType) (now : Int) (assigned : Option Nat) :
    (b.deliver now event assigned).state.Remembers := by
  intro t
  obtain ⟨hseen, hnodup⟩ := h t
  by_cases ht : t = event.eventType
  · subst ht
    rw [hseen, mem_toFinset] at hnew
    simp only [InProcessBroker.deliver, eachSubscription, update_self, hseen, map_append]
    refine ⟨?_, nodup_append'.2 ⟨hnodup, nodup_singleton _, by simpa using hnew⟩⟩
    ext id
    rw [Finset.mem_insert, mem_toFinset, mem_toFinset, mem_append, or_comm, map_singleton,
      mem_singleton]
  · simpa [InProcessBroker.deliver, eachSubscription, ht] using h t

end BrokerState

namespace BrokerRun

variable {semver : String → Bool} {r r' : BrokerRun} {a : BrokerCall}

theorem remembers_step (h : r.broker.state.Remembers) (hs : r.step semver a = some r') :
    r'.broker.state.Remembers := by
  have hchecked : ∀ now id t, (r.broker.checked now id t).Remembers := fun now id t =>
    BrokerState.Remembers.prune (s := { r.broker.state with
      subscriptions := update r.broker.state.subscriptions id none }) h t _ now
  cases step_move hs with
  | stay | forget => exact h
  | prune | add => exact h.prune _ _ _
  | refuse | serve => exact hchecked _ _ _
  | @deliver _ now event assigned _ hx =>
    refine BrokerState.Remembers.deliver (b := r.broker.prune event.eventType now)
      (h.prune _ _ _) (fun hseen => ?_) now assigned
    simp only [accepted, if_pos hseen] at hx
    split at hx <;> cases hx

/-- In every run, whatever the clock does, the ids that count as duplicates are those of the
retained events. A publish is then discarded exactly if a young event of its type has its id,
unless an expired one with that id is kept behind a younger event. -/
theorem suppressed_iff_young {catalog : EventCatalog} {config : BrokerConfig}
    {mode : EventValidationMode} {b : InProcessBroker} {calls : List BrokerCall}
    (hnew : InProcessBroker.new catalog config mode = .ok b)
    (hrun : run (step semver) (start b) calls = some r) :
    r.broker.state.Remembers ∧
    ∀ now event assigned, r.broker.gate semver event = .ok () →
      ((r.broker.accepted now semver event assigned = none ↔
          ∃ x ∈ r.broker.state.buffers event.eventType, x.event.id = event.id ∧
            expired r.broker.config.retentionWindow now x = false) ↔
        ¬ ∃ x ∈ r.broker.state.kept event.eventType r.broker.config.retentionWindow now,
          x.event.id = event.id ∧ expired r.broker.config.retentionWindow now x = true) := by
  have h : r.broker.state.Remembers := by
    refine invariant (P := fun _ _ => True) (fun r => r.broker.state.Remembers)
      (fun _ _ _ h _ hs => remembers_step h hs) ?_ (.of_forall (fun _ _ => trivial) _ _) hrun
    simp [start, (new_state hnew).1, BrokerState.Remembers, BrokerState.default]
  refine ⟨h, fun now event assigned hgate => ?_⟩
  have hsub := (dropWhile_sublist (expired r.broker.config.retentionWindow now)
    (l := r.broker.state.buffers event.eventType)).subset
  have hsuppressed : r.broker.accepted now semver event assigned = none ↔
      ∃ x ∈ r.broker.state.kept event.eventType r.broker.config.retentionWindow now,
        x.event.id = event.id := by
    have hseen := (h.prune event.eventType r.broker.config.retentionWindow now event.eventType).1
    rw [BrokerState.pruneExpired_buffers, update_self] at hseen
    simp [accepted, hgate, hseen]
  rw [hsuppressed]
  constructor
  · rintro hiff ⟨x, hx, hid, hold⟩
    obtain ⟨y, hy, hid', hyoung⟩ := hiff.1 ⟨x, hx, hid⟩
    have hsame := inj_on_of_nodup_map (h event.eventType).2 (hsub hx) hy (hid.trans hid'.symm)
    rw [hsame, hyoung] at hold
    cases hold
  · intro hnone
    constructor
    · rintro ⟨x, hx, hid⟩
      exact ⟨x, hsub hx, hid, Bool.eq_false_iff.2 fun hold => hnone ⟨x, hx, hid, hold⟩⟩
    · rintro ⟨x, hx, hid, hyoung⟩
      exact ⟨x, mem_dropWhile_of_not hyoung hx, hid⟩

theorem suppressed_iff_young_twice : ∃ r,
    run (step fun _ => true) (start ordersBroker) [.publish 0 (orderCreated "evt-1")] = some r ∧
    r.broker.state.Remembers ∧
    (r.broker.accepted 1 (fun _ => true) (orderCreated "evt-1") none = none ↔
      ∃ x ∈ r.broker.state.buffers ordersType, x.event.id = "evt-1" ∧
        expired r.broker.config.retentionWindow 1 x = false) := by
  have hrun : run (step fun _ => true) (start ordersBroker) [.publish 0 (orderCreated "evt-1")] =
    some _ := rfl
  obtain ⟨hseen, hiff⟩ := suppressed_iff_young ordersBroker_new hrun
  exact ⟨_, hrun, hseen, (hiff 1 (orderCreated "evt-1") none rfl).2 (by decide +kernel)⟩

/-- The clock goes back by ten minutes between the first order and the second. Four minutes after
the first one, the second has expired behind it, and its id is still taken for a duplicate. -/
theorem expired_still_suppresses : ∃ r,
    run (step fun _ => true) (start ordersBroker) [.publish 600000000000 (orderCreated "evt-1"),
      .publish 0 (orderCreated "evt-2")] = some r ∧
    r.broker.gate (fun _ => true) (orderCreated "evt-2") = .ok () ∧
    r.broker.accepted 840000000000 (fun _ => true) (orderCreated "evt-2") none = none ∧
    ∀ x ∈ r.broker.state.buffers ordersType, x.event.id = "evt-2" →
      expired r.broker.config.retentionWindow 840000000000 x = true := by
  refine ⟨_, rfl, ?_, ?_, ?_⟩ <;> decide +kernel

/-! ## What a poll hands out -/

/-- The clock has not gone back behind the events of the type. -/
def Onward (r : BrokerRun) : BrokerCall → Prop
  | .publish now event | .publishWithCursor now event _ =>
    ∀ x ∈ r.past.published event.eventType, x.publishedAt ≤ now
  | .subscribe .. | .poll .. | .cancel .. => True

/-- Later events of a type were published later. -/
def Chronological (g : Ghost) : Prop :=
  ∀ t, ∀ x ∈ g.published t, ∀ y ∈ g.published t, x.cursor ≤ y.cursor → x.publishedAt ≤ y.publishedAt

theorem Onward.publishes {now : Int} {event : TraverseEvent} {assigned : Option Nat}
    (ha : r.Onward a) (hpub : a.Publishes now event assigned) :
    ∀ x ∈ r.past.published event.eventType, x.publishedAt ≤ now := by
  cases hpub <;> exact ha

theorem chronological_step (h : Chronological r.past) (hr : r.Consistent)
    (ha : r.Rising a ∧ r.Onward a) (hs : r.step semver a = some r') : Chronological r'.past := by
  cases step_move hs with
  | stay | prune | add | refuse | serve | forget => exact h
  | @deliver _ now event assigned hpub hx =>
    have hrise := accepted_rising hx (ha.1.publishes hpub)
    intro t x hx y hy hle
    rcases Ghost.mem_publish.1 hy with hy | ⟨rfl, rfl⟩
    · rcases Ghost.mem_publish.1 hx with hx | ⟨rfl, rfl⟩
      · exact h t x hx y hy hle
      · -- the cursor of the new event is above every other
        exact absurd (hr.ordered.latest _ y hy) (Nat.not_le.2 (Nat.lt_of_lt_of_le hrise hle))
    · rcases Ghost.mem_publish.1 hx with hx | ⟨_, rfl⟩
      · exact ha.2.publishes hpub x hx
      · exact Int.le_refl _

/-- If cursors rise and the clock does not go back, then a poll hands out events of the retention
window only, unless the pruning has emptied the buffer and the queue begins with older ones. -/
theorem polled_young_iff {catalog : EventCatalog} {config : BrokerConfig}
    {mode : EventValidationMode} {b : InProcessBroker} {calls : List BrokerCall} {now : Int}
    {id : String} {maxEvents : Nat} {sub : SubscriptionState} {batch : SubscriptionPoll}
    (hnew : InProcessBroker.new catalog config mode = .ok b)
    (hpath : Path (step semver) (fun r a => r.Rising a ∧ r.Onward a) (start b) calls r)
    (hsub : r.broker.state.subscriptions id = some sub)
    (hpoll : (r.broker.poll now id maxEvents).1 = .ok batch) :
    batch.events = (r.broker.served now id maxEvents).map (·.shown) ∧
    ((∀ x ∈ r.broker.served now id maxEvents,
        expired r.broker.config.retentionWindow now x = false) ↔
      r.broker.state.kept sub.eventType r.broker.config.retentionWindow now ≠ [] ∨
        ∀ x ∈ (sub.queue.take maxEvents).head?,
          expired r.broker.config.retentionWindow now x = false) := by
  obtain ⟨hr, hchron⟩ : r.Consistent ∧ Chronological r.past := by
    refine invariant (fun r => r.Consistent ∧ Chronological r.past) ?_
      ⟨consistent_start hnew, fun t x hx => (by cases hx)⟩ hpath.1 hpath.2
    rintro r a r' ⟨hr, h⟩ ha hs
    exact ⟨hr.step ha.1 hs, chronological_step h hr ha hs⟩
  rcases r.broker.poll_cases now id maxEvents with
    ⟨hnone, _⟩ | ⟨sub', hsub', ⟨e, _, hres, _⟩ | ⟨_, queue, hqueue, hres, hserved⟩⟩
  · cases hsub.symm.trans hnone
  · rw [hres] at hpoll
    cases hpoll
  cases hsub.symm.trans hsub'
  rw [hres] at hpoll
  cases hpoll
  rw [hserved]
  refine ⟨rfl, ?_⟩
  have hbuffer : (r.broker.checked now id sub.eventType).buffers sub.eventType =
      r.broker.state.kept sub.eventType r.broker.config.retentionWindow now := by
    simp [checked, BrokerState.kept]
  rw [hbuffer] at hqueue
  obtain ⟨o, _, hf⟩ := hr.ordered.follows id sub hsub
  have hincreasing := hf.increasing.sublist (sublist_append_right _ _)
  -- what comes after a young event is young
  have hlater : ∀ first ∈ r.past.published sub.eventType, ∀ x ∈ sub.queue,
      first.cursor ≤ x.cursor → expired r.broker.config.retentionWindow now first = false →
      expired r.broker.config.retentionWindow now x = false := by
    intro first hfirst x hx hle hyoung
    have hpast := hchron _ first hfirst x (hf.queued x hx).1 hle
    simp only [expired, decide_eq_false_iff_not] at hyoung ⊢
    omega
  cases hkept : r.broker.state.kept sub.eventType r.broker.config.retentionWindow now with
  | nil =>
    have hsame : queue = sub.queue := by simp [hqueue, hkept, trimmedQueue]
    rw [hsame, or_iff_right (by simp)]
    refine ⟨fun h x hx => h x (mem_of_mem_head? hx), fun h x hx => ?_⟩
    obtain ⟨first, rest, htake⟩ := exists_cons_of_ne_nil (ne_nil_of_mem hx)
    have hordered := htake ▸ hincreasing.sublist (take_sublist maxEvents _)
    have hfirst : first ∈ sub.queue := mem_of_mem_take (htake ▸ mem_cons_self)
    have hle : first.cursor ≤ x.cursor := by
      rcases mem_cons.1 (htake ▸ hx) with rfl | hx
      · exact Nat.le_refl _
      · exact Nat.le_of_lt ((pairwise_cons.1 hordered).1 x hx)
    exact hlater first (hf.queued first hfirst).1 x (mem_of_mem_take hx) hle
      (h first (by rw [htake]; rfl))
  | cons front rest =>
    refine iff_of_true (fun x hx => ?_) (.inl (cons_ne_nil _ _))
    have hx := hqueue ▸ mem_of_mem_take hx
    have hle := BrokerState.le_of_mem_trimmedQueue hincreasing (by rw [hkept]; rfl) hx
    have hfront :
      front ∈ r.broker.state.kept sub.eventType r.broker.config.retentionWindow now := by
      simp [hkept]
    refine hlater front (hr.ordered.mem_published ((dropWhile_sublist _).subset hfront)) x
      ((BrokerState.trimmedQueue_sublist _ _).subset hx) hle ?_
    have hhead := head?_dropWhile_not (expired r.broker.config.retentionWindow now)
      (r.broker.state.buffers sub.eventType)
    rw [← BrokerState.kept, hkept] at hhead
    exact hhead

/-- An order for a reader. -/
def oneOrder : List BrokerCall :=
  [.subscribe 0 ordersType "0" none none, .publish 0 (orderCreated "evt-1")]

theorem polled_young_iff_early : ∃ r sub batch,
    Path (step fun _ => true) (fun r a => r.Rising a ∧ r.Onward a) (start ordersBroker) oneOrder r ∧
    r.broker.state.subscriptions "sub-1" = some sub ∧
    (r.broker.poll 1 "sub-1" 10).1 = .ok batch ∧ batch.events = [⟨"1", orderCreated "evt-1"⟩] ∧
    ∀ x ∈ r.broker.served 1 "sub-1" 10, expired r.broker.config.retentionWindow 1 x = false := by
  have hpath : Path (step fun _ => true) (fun r a => r.Rising a ∧ r.Onward a) (start ordersBroker)
      oneOrder _ := .cons ⟨show (0 : Nat) < u64Max by decide, trivial⟩ rfl
    (.cons ⟨show (0 : Nat) < u64Max by decide, nofun⟩ rfl (.nil _))
  refine ⟨_, _, _, hpath, rfl, rfl, rfl, ?_⟩
  exact (polled_young_iff ordersBroker_new hpath rfl rfl).2.2 (.inl (by decide +kernel))

/-- A subscriber that stays away until the only order has expired: the buffer is emptied, and the
order is handed out. -/
theorem expired_delivered : ∃ r sub batch,
    Path (step fun _ => true) (fun r a => r.Rising a ∧ r.Onward a) (start ordersBroker) oneOrder r ∧
    r.broker.state.subscriptions "sub-1" = some sub ∧ sub.cursor = 0 ∧
    (r.broker.poll 600000000000 "sub-1" 10).1 = .ok batch ∧
    batch.events = [⟨"1", orderCreated "evt-1"⟩] ∧
    ∃ x ∈ r.broker.served 600000000000 "sub-1" 10, x.publishedAt = 0 ∧
      expired r.broker.config.retentionWindow 600000000000 x = true := by
  refine ⟨_, _, _, .cons ⟨show (0 : Nat) < u64Max by decide, trivial⟩ rfl
    (.cons ⟨show (0 : Nat) < u64Max by decide, nofun⟩ rfl (.nil _)), rfl, rfl, rfl, rfl, ?_⟩
  decide +kernel

end BrokerRun

end Traverse.Events

import Traverse.Events.BrokerRun
import Traverse.Events.Durable

/-!
# Events.Delivery

What subscribers of the in-process broker can rely on.

* `delivery_in_order`: cursors increase over all polls of a subscription and lie above the cursor
  it was opened at, if that cursor existed; only the backlog is compared with it
  (`delivered_before_start`).
* `expired_only_if_dropped`: `CursorExpired` means a matching event is gone, if the cursors of the
  type are consecutive and its events pass the subject filter (`expired_without_loss`).
* `lost_event_reported`: an event that is lost to a subscription with a cursor is reported by the
  next poll, if its queue never overflows (`overflow_not_reported`).
-/

namespace Traverse.Events

open Decimal List Function InProcessBroker Machine

namespace BrokerRun

variable {semver : String → Bool} {catalog : EventCatalog} {config : BrokerConfig}
  {mode : EventValidationMode} {b : InProcessBroker} {calls : List BrokerCall} {r : BrokerRun}

/-! ## Order -/

/-- Every subscription was opened at a cursor that existed. -/
def Anchored (r : BrokerRun) : Prop := ∀ id o, r.past.opened id = some o → o.floor = o.start

variable {a : BrokerCall} {r' : BrokerRun} {x : BufferedEvent} {t : String} {s : BrokerState}
  {c : Nat}

theorem Anchored.step (h : r.Anchored) (hahead : r.NotAhead a) (hs : r.step semver a = some r') :
    r'.Anchored := by
  cases step_move hs with
  | @add now t _ subject consumer start hparse =>
    intro id o ho
    obtain ⟨_, ⟨⟩⟩ | ⟨_, ho⟩ := update_eq_some ho
    · exact Nat.min_eq_left (hahead start hparse)
    · exact h id o ho
  | stay | prune | deliver | refuse | serve | forget => exact h

theorem filter_cursor {items : List BufferedEvent} (h : Increasing items) (hx : x ∈ items) :
    items.filter (fun y => y.cursor = x.cursor) = [x] := by
  obtain ⟨front, back, rfl⟩ := append_of_mem hx
  obtain ⟨_, hback, hcross⟩ := pairwise_append.1 h
  have hfront : front.filter (fun y => decide (y.cursor = x.cursor)) = [] := by
    refine filter_eq_nil_iff.2 fun y hy => ?_
    have := hcross y hy x mem_cons_self
    simp
    omega
  have hrest : back.filter (fun y => decide (y.cursor = x.cursor)) = [] := by
    refine filter_eq_nil_iff.2 fun y hy => ?_
    have := (pairwise_cons.1 hback).1 y hy
    simp
    omega
  simp [filter_append, hfront, hrest]

/-- The cursors that one subscription receives over all its polls are increasing and above the
cursor it was opened at, each event is of its type, matches its subject and was published exactly
once under its cursor; and the buffers are increasing and below the counters. -/
theorem delivery_in_order (hnew : new catalog config mode = .ok b)
    (halong : Along (step semver) (fun r a => r.Rising a ∧ r.NotAhead a) (start b) calls)
    (hrun : run (step semver) (start b) calls = some r) :
    (∀ id o, r.past.opened id = some o → ∃ items : List BufferedEvent,
      received r.polls id = items.map (·.shown) ∧ Increasing items ∧
      ∀ x ∈ items, o.start < x.cursor ∧ x.event.eventType = o.eventType ∧
        subjectMatches o.subject x.event = true ∧
        (r.past.published o.eventType).filter (fun y => y.cursor = x.cursor) = [x]) ∧
    (∀ id, r.past.opened id = none → received r.polls id = []) ∧
    ∀ t, Increasing (r.broker.state.buffers t) ∧
      ∀ x ∈ r.broker.state.buffers t, x.cursor ≤ r.broker.state.nextCursor t := by
  have hr : r.Consistent ∧ r.Anchored := by
    refine invariant (fun r => r.Consistent ∧ r.Anchored) ?_ ⟨consistent_start hnew, nofun⟩
      halong hrun
    rintro s a s' ⟨hs, hanchored⟩ ⟨hrising, hahead⟩ hstep
    exact ⟨hs.step hrising hstep, hanchored.step hahead hstep⟩
  obtain ⟨hr, hanchored⟩ := hr
  refine ⟨fun id o ho => ?_, fun id hid => ?_, fun t => ?_⟩
  · obtain ⟨hinc, hmem⟩ := hr.ordered.received id o ho
    refine ⟨r.past.got id, hr.shown id, hinc, fun x hx => ?_⟩
    obtain ⟨hpub, hfloor, hsubject⟩ := hmem x hx
    exact ⟨hanchored id o ho ▸ hfloor, hr.ordered.typed _ x hpub, hsubject,
      filter_cursor (hr.ordered.increasing _) hpub⟩
  · rw [hr.shown id, hr.ordered.unopened id hid]
    rfl
  · exact ⟨hr.ordered.buffer t, fun x hx => hr.ordered.latest t x (hr.ordered.mem_published hx)⟩

/-- An order, a late subscriber and a second order. -/
def twoOrders : List BrokerCall :=
  [.publish 0 (orderCreated "evt-1"), .subscribe 0 ordersType "0" none none,
    .publish 0 (orderCreated "evt-2"), .poll 0 "sub-1" 10]

theorem along_twoOrders : Along (step fun _ => true)
    (fun r a => r.Rising a ∧ r.NotAhead a) (start ordersBroker) twoOrders := by
  refine .cons ⟨show (0 : Nat) < u64Max by decide, trivial⟩ fun r₁ h₁ => ?_
  cases h₁
  refine .cons ⟨show (0 : Nat) < u64Max by decide, fun n hn => ?_⟩ fun r₂ h₂ => ?_
  · cases hn
    exact Nat.zero_le _
  cases h₂
  refine .cons ⟨show (1 : Nat) < u64Max by decide, trivial⟩ fun r₃ h₃ => ?_
  exact .cons ⟨trivial, trivial⟩ fun _ _ => .nil _

theorem delivery_in_order_twoOrders : ∃ r,
    new ordersCatalog .default .migration = .ok ordersBroker ∧
    run (step fun _ => true) (start ordersBroker) twoOrders = some r ∧
    received r.polls "sub-1" = [⟨"1", orderCreated "evt-1"⟩, ⟨"2", orderCreated "evt-2"⟩] ∧
    ∃ items : List BufferedEvent, received r.polls "sub-1" = items.map (·.shown) ∧
      Increasing items := by
  have hnew := ordersBroker_new
  refine ⟨_, hnew, rfl, rfl, ?_⟩
  obtain ⟨items, hitems, hinc, _⟩ := (delivery_in_order hnew along_twoOrders rfl).1 "sub-1"
    ⟨ordersType, none, 0, 0⟩ rfl
  exact ⟨items, hitems, hinc⟩

/-- A subscription opened beyond the newest event receives events below its own cursor. -/
theorem delivered_before_start : ∃ r sub,
    new ordersCatalog .default .migration = .ok ordersBroker ∧
    run (step fun _ => true) (start ordersBroker)
      [.subscribe 0 ordersType "5" none none, .publish 0 (orderCreated "evt-1"),
        .poll 0 "sub-1" 10] = some r ∧
    r.past.opened "sub-1" = some sub ∧ sub.start = 5 ∧
    received r.polls "sub-1" = [⟨"1", orderCreated "evt-1"⟩] :=
  ⟨_, _, rfl, rfl, rfl, rfl, rfl⟩

/-! ## Expiry -/

/-- The events of type `t` get consecutive cursors. -/
def Consecutive (t : String) (r : BrokerRun) : BrokerCall → Prop
  | .publishWithCursor _ event cursor => event.eventType = t →
    ∀ k, parseCursor cursor = .ok k → k = r.broker.state.nextCursor t + 1
  | _ => True

/-- Every cursor up to the counter belongs to an event, and the broker was not told of an earlier
life. -/
structure Numbered (t : String) (r : BrokerRun) : Prop where
  present : ∀ k, 0 < k → k ≤ r.broker.state.nextCursor t → ∃ x ∈ r.past.published t, x.cursor = k
  floor : r.broker.state.restartFloor = 0

theorem Numbered.congr (h : r.Numbered t) (hpub : r'.past.published = r.past.published)
    (hnext : r'.broker.state.nextCursor = r.broker.state.nextCursor)
    (hfloor : r'.broker.state.restartFloor = r.broker.state.restartFloor) : r'.Numbered t :=
  ⟨by rw [hpub, hnext]; exact h.present, hfloor.trans h.floor⟩

theorem Numbered.step (h : r.Numbered t) (ha : r.Rising a) (hcons : r.Consecutive t a)
    (hs : r.step semver a = some r') : r'.Numbered t := by
  cases step_move hs with
  | stay => exact h
  | prune | add | refuse | serve =>
    refine h.congr rfl ?_ ?_
    · exact BrokerState.pruneExpired_nextCursor _ _ _ _
    · exact BrokerState.pruneExpired_restartFloor _ _ _ _
  | forget => exact h.congr rfl rfl rfl
  | @deliver _ now event assigned hpub hx =>
    have hrise := ha.publishes hpub
    have hlt := accepted_rising hx hrise
    have hnext := (r.broker.prune event.eventType now).deliver_nextCursor now event assigned
      (by simpa using hlt)
    refine ⟨fun k hpos hk => ?_, ?_⟩
    · simp only [hnext, prune_state, BrokerState.pruneExpired_nextCursor] at hk
      by_cases ht : t = event.eventType
      · subst ht
        rw [update_self] at hk
        -- the new cursor is the next one, so a number up to it is old or new
        have hsucc : ((r.broker.prune event.eventType now).item now event assigned).cursor =
            r.broker.state.nextCursor event.eventType + 1 := by
          cases hpub with
          | publish => simpa [item, assignCursor] using saturatingSucc_of_lt hrise
          | withCursor hparse => simpa [item, assignCursor] using hcons rfl _ hparse
        by_cases hold : k ≤ r.broker.state.nextCursor event.eventType
        · obtain ⟨x, hmem, hxk⟩ := h.present k hpos hold
          exact ⟨x, by simp [Ghost.publish, item, hmem], hxk⟩
        · refine ⟨(r.broker.prune event.eventType now).item now event assigned, ?_, by omega⟩
          simp [Ghost.publish, item]
      · rw [update_of_ne ht] at hk
        obtain ⟨x, hmem, hxk⟩ := h.present k hpos hk
        exact ⟨x, by simpa [Ghost.publish, item, ht] using hmem, hxk⟩
    · exact (r.broker.state.pruneExpired_restartFloor _ _ _).trans h.floor

/-- A cursor that is refused has a published event after it that is no longer retained. -/
theorem Numbered.dropped {e : EventError} (h : r.Numbered t) (hs : s.Ordered r.past)
    (hnext : s.nextCursor = r.broker.state.nextCursor)
    (hfloor : s.restartFloor = r.broker.state.restartFloor)
    (hvalid : s.validateFromCursor t c = .error e) :
    ∃ x ∈ r.past.published t, c < x.cursor ∧ x ∉ s.buffers t := by
  unfold BrokerState.validateFromCursor at hvalid
  have hmax : max (s.nextCursor t) s.restartFloor = r.broker.state.nextCursor t := by
    rw [hnext, hfloor, h.floor]
    exact Nat.max_eq_left (Nat.zero_le _)
  split at hvalid
  · cases hvalid
  cases hb : s.buffers t with
  | nil =>
    simp only [hb, List.head?_nil, hmax] at hvalid
    split at hvalid
    · rename_i hlt
      obtain ⟨x, hx, hxk⟩ := h.present _ hlt.1 (Nat.le_refl _)
      exact ⟨x, hx, by omega, by simp⟩
    · cases hvalid
  | cons front rest =>
    simp only [hb, List.head?_cons] at hvalid
    split at hvalid
    · rename_i hlt
      have hmem : front ∈ s.buffers t := by simp [hb]
      have hle := hs.latest t front (hs.mem_published hmem)
      obtain ⟨x, hx, hxk⟩ := h.present (c + 1) (Nat.succ_pos _) (by omega)
      refine ⟨x, hx, by omega, fun hxb => ?_⟩
      have hfront := BrokerState.head_le (hs.buffer t) (hb ▸ hxb) front (by simp [hb])
      omega
    · cases hvalid

/-- If the cursors of the type are consecutive and all its events match the subject of the
subscription, `subscribe` and `poll` answer `CursorExpired` only if a matching event after the
cursor has been dropped from the retention buffer. -/
theorem expired_only_if_dropped {t : String} (hnew : new catalog config mode = .ok b)
    (halong : Along (step semver) (fun r a => r.Rising a ∧ r.Consecutive t a) (start b)
      calls) (hrun : run (step semver) (start b) calls = some r) (now : Int) {e oldest : String} :
    (∀ fromCursor subject consumer cursor, parseCursor fromCursor = .ok cursor →
      (∀ x ∈ r.past.published t, subjectMatches subject x.event = true) →
      (r.broker.subscribeWithSubject now t fromCursor subject consumer).1 =
        .error (.cursorExpired e oldest) →
      ∃ x ∈ r.past.published t, cursor < x.cursor ∧ subjectMatches subject x.event = true ∧
        x ∉ (r.broker.subscribeWithSubject now t fromCursor subject consumer).2.state.buffers t) ∧
    ∀ id sub maxEvents, r.broker.state.subscriptions id = some sub → sub.eventType = t →
      (∀ x ∈ r.past.published t, subjectMatches sub.subjectId x.event = true) →
      (r.broker.poll now id maxEvents).1 = .error (.cursorExpired e oldest) →
      ∃ x ∈ r.past.published t, sub.cursor < x.cursor ∧
        subjectMatches sub.subjectId x.event = true ∧
        x ∉ (r.broker.poll now id maxEvents).2.state.buffers t := by
  obtain ⟨hr, hnum⟩ : r.Consistent ∧ r.Numbered t := by
    refine invariant (fun r => r.Consistent ∧ r.Numbered t) ?_
      ⟨consistent_start hnew, ?_⟩ halong hrun
    · rintro s a s' ⟨hs, hnum⟩ ⟨hrising, hcons⟩ hstep
      exact ⟨hs.step hrising hstep, hnum.step hrising hcons hstep⟩
    · have hstate := (new_state hnew).1
      refine ⟨fun k hpos hk => ?_, by rw [start, hstate]; rfl⟩
      rw [start, hstate] at hk
      exact absurd hpos (Nat.not_lt.2 hk)
  refine ⟨fun fromCursor subject consumer cursor hparse hall herr => ?_,
    fun id sub maxEvents hsub ht hall herr => ?_⟩
  · have hpruned := hr.ordered.prune t r.broker.config.retentionWindow now
    rcases r.broker.subscribeWithSubject_cases now t fromCursor subject consumer with
      ⟨e', hcause, hres⟩ | ⟨start, hstart, ⟨e', hvalid, hres⟩ | ⟨_, hres⟩⟩
    · rw [hres] at herr
      cases herr
      rcases hcause with hcause | hcause
      · cases hcause
      · rw [hparse] at hcause
        cases hcause
    · rw [hparse, Except.ok.injEq] at hstart
      subst hstart
      obtain ⟨x, hx, hlt, hnot⟩ := hnum.dropped hpruned (by simp) (by simp) hvalid
      rw [hres]
      exact ⟨x, hx, hlt, hall x hx, hnot⟩
    · rw [hres] at herr
      cases herr
  · subst ht
    rcases r.broker.poll_cases now id maxEvents with
      ⟨hnone, _⟩ | ⟨sub', hsub', ⟨e', hvalid, hres, _⟩ | ⟨_, queue, _, hres, _⟩⟩
    · rw [hsub] at hnone
      cases hnone
    · rw [hsub, Option.some.injEq] at hsub'
      subst hsub'
      obtain ⟨x, hx, hlt, hnot⟩ := hnum.dropped (hr.ordered.checked now id sub.eventType)
        (by simp [checked]) (by simp [checked]) hvalid
      rw [hres]
      exact ⟨x, hx, hlt, hall x hx, hnot⟩
    · rw [hres] at herr
      cases herr

theorem expired_only_if_dropped_late : ∃ r,
    run (step fun _ => true) (start ordersBroker)
      [.publish 0 (orderCreated "evt-1"), .publish 0 (orderCreated "evt-2")] = some r ∧
    (r.broker.subscribeWithSubject 1000000000000 ordersType "1" none none).1 =
      .error (.cursorExpired ordersType "2") ∧
    ∃ x ∈ r.past.published ordersType, 1 < x.cursor ∧
      subjectMatches none x.event = true ∧
      x ∉ (r.broker.subscribeWithSubject 1000000000000 ordersType "1" none
        none).2.state.buffers ordersType := by
  have hnew := ordersBroker_new
  have halong : Along (step fun _ => true)
      (fun r a => r.Rising a ∧ r.Consecutive ordersType a) (start ordersBroker)
      [.publish 0 (orderCreated "evt-1"), .publish 0 (orderCreated "evt-2")] := by
    refine .cons ⟨show (0 : Nat) < u64Max by decide, trivial⟩ fun r₁ h₁ => ?_
    cases h₁
    exact .cons ⟨show (1 : Nat) < u64Max by decide, trivial⟩ fun _ _ => .nil _
  refine ⟨_, rfl, rfl, ?_⟩
  exact (expired_only_if_dropped hnew halong rfl 1000000000000).1 "1" none none 1 rfl
    (fun _ _ => rfl) rfl

def orderFor (id subject : String) : TraverseEvent :=
  { orderCreated id with subjectId := some subject }

/-- `CursorExpired` with nothing lost. The first event came with the cursor 5 and is retained, and
cursor 1 is refused. Or the one event that alice has not received is retained, and her cursor is
refused because an event for bob has been dropped. -/
theorem expired_without_loss :
    (∃ r, run (step fun _ => true) (start ordersBroker)
        [.publishWithCursor 0 (orderCreated "evt-1") "5"] = some r ∧
      (r.broker.subscribeWithSubject 0 ordersType "1" none none).1 =
        .error (.cursorExpired ordersType "4") ∧
      ∀ x ∈ r.past.published ordersType,
        x ∈ (r.broker.subscribeWithSubject 0 ordersType "1" none none).2.state.buffers ordersType) ∧
    ∃ r sub, run (step fun _ => true) (start ordersBroker)
        [.subscribe 0 ordersType "0" (some "alice") none,
          .publish 0 (orderFor "evt-1" "alice"), .poll 0 "sub-1" 10,
          .publish 0 (orderFor "evt-2" "bob"),
          .publish 1000000000000 (orderFor "evt-3" "alice")] = some r ∧
      r.broker.state.subscriptions "sub-1" = some sub ∧
      (r.broker.poll 1000000000000 "sub-1" 10).1 =
        .error (.cursorExpired ordersType "2") ∧
      ∀ x ∈ r.past.published ordersType, sub.cursor < x.cursor →
        subjectMatches sub.subjectId x.event = true →
        x ∈ (r.broker.poll 1000000000000 "sub-1" 10).2.state.buffers ordersType := by
  refine ⟨⟨_, rfl, rfl, fun x hx => hx⟩, _, _, rfl, rfl, rfl, fun x hx hlt hmatch => ?_⟩
  rcases mem_cons.1 hx with rfl | hx
  · exact absurd hlt (Nat.lt_irrefl 1)
  rcases mem_cons.1 hx with rfl | hx
  · exact absurd hmatch (by decide)
  exact hx

/-! ## Losses -/

theorem validateFromCursor_lost {g : Ghost} (h : s.Ordered g) (hc : c ≠ 0) (hx : x ∈ g.published t)
    (hlost : ∀ y ∈ s.buffers t, x.cursor < y.cursor) (hlt : c < x.cursor) :
    ∃ oldest, s.validateFromCursor t c = .error (.cursorExpired t oldest) := by
  have hlatest := h.latest t x hx
  unfold BrokerState.validateFromCursor
  rw [if_neg hc]
  cases hb : s.buffers t with
  | nil => exact ⟨_, if_pos ⟨by omega, by omega⟩⟩
  | cons front rest =>
    have hfront := hlost front (by simp [hb])
    exact ⟨_, if_pos (by omega)⟩

/-- What a subscription has not received lies after its cursor, once it has one. -/
theorem Watched.later {id : String} {o : Opened} {sub : SubscriptionState} (h : r.Watched id)
    (ho : r.past.opened id = some o) (hsub : r.broker.state.subscriptions id = some sub)
    (hx : x ∈ r.past.published o.eventType) (hdue : o.atStart.Due x) (hnot : x ∉ r.past.got id)
    (hlater : o.start ≠ 0 ∨ sub.cursor < x.cursor) : sub.cursor < x.cursor := by
  have hf := h.consistent.ordered.follows_opened hsub ho
  rcases hlater with hstart | hlater
  · rw [hf.cursor]
    by_cases hempty : r.past.got id = []
    · have hpos : o.position (r.past.got id) = o.start := by rw [hempty]; rfl
      rw [hpos]
      exact hdue.1
    obtain ⟨last, hlast, hpos⟩ := o.position_of_ne_nil hempty
    rcases h.gapless o ho x hx hdue with hmem | hafter | ⟨hzero, _⟩
    · exact absurd hmem hnot
    · rw [hpos]
      exact hafter last hlast
    · exact absurd hzero hstart
  · exact hlater

/-- If the queue of a subscription never overflows, an event that it is due and that was neither
received nor is in the queue from which the next poll would deliver makes that poll answer
`CursorExpired`. -/
theorem lost_event_reported {id : String} (hnew : new catalog config mode = .ok b)
    (halong : Along (step semver)
      (fun r a => r.Rising a ∧ r.NotAhead a ∧ r.HasRoom semver id a) (start b) calls)
    (hrun : run (step semver) (start b) calls = some r) {o : Opened}
    {sub : SubscriptionState} (ho : r.past.opened id = some o)
    (hsub : r.broker.state.subscriptions id = some sub) (hstarted : sub.cursor ≠ 0)
    {x : BufferedEvent} (hx : x ∈ r.past.published sub.eventType)
    (hmatch : subjectMatches sub.subjectId x.event = true) (hafter : o.start < x.cursor)
    (hlater : o.start ≠ 0 ∨ sub.cursor < x.cursor)
    (hnot : x.shown ∉ received r.polls id) (now : Int) (hlost : x ∉ trimmedQueue
      ((r.broker.checked now id sub.eventType).buffers sub.eventType) sub.queue)
    (maxEvents : Nat) : ∃ oldest, (r.broker.poll now id maxEvents).1 =
      .error (.cursorExpired sub.eventType oldest) := by
  have hr : r.Watched id := by
    refine invariant (Watched id) ?_ (watched_start hnew id) halong hrun
    rintro s a s' hs ⟨hrising, _, hroom⟩ hstep
    exact hs.step hrising hroom hstep
  have hordered := hr.consistent.ordered
  obtain ⟨htype, hsubject⟩ := hordered.opened_eventType hsub ho
  have hdue : o.atStart.Due x := ⟨hafter, hsubject ▸ hmatch⟩
  have hgot : x ∉ r.past.got id := by
    intro hmem
    rw [hr.consistent.shown id] at hnot
    exact hnot (mem_map_of_mem hmem)
  have hlt := hr.later ho hsub (htype ▸ hx) hdue hgot hlater
  -- after the pruning of the poll the event is older than everything retained
  have hpolled := hr.complete.polled now hordered hsub ho
  rcases hpolled.live _ rfl x (htype ▸ hx)
    (hordered.due_of_atStart ho x hdue) with hmem | hmem | hbelow
  · exact absurd hmem hgot
  · exact absurd hmem hlost
  obtain ⟨oldest, hvalid⟩ := validateFromCursor_lost (hordered.checked now id sub.eventType)
    hstarted hx hbelow.1 hlt
  refine ⟨oldest, ?_⟩
  rcases r.broker.poll_cases now id maxEvents with
    ⟨hnone, _⟩ | ⟨sub', hsub', ⟨e, hvalid', hres, _⟩ | ⟨hvalid', _⟩⟩
  · rw [hsub] at hnone
    cases hnone
  · rw [hsub, Option.some.injEq] at hsub'
    subst hsub'
    rw [hvalid, Except.error.injEq] at hvalid'
    rw [hres, hvalid']
  · rw [hsub, Option.some.injEq] at hsub'
    subst hsub'
    rw [hvalid] at hvalid'
    cases hvalid'

/-- A subscriber that stays away while its second order expires. -/
def away : List BrokerCall :=
  [.subscribe 0 ordersType "0" none none, .publish 0 (orderCreated "evt-1"),
    .poll 0 "sub-1" 10, .publish 0 (orderCreated "evt-2"),
    .publish 1000000000000 (orderCreated "evt-3")]

theorem along_away : Along (step fun _ => true)
    (fun r a => r.Rising a ∧ r.NotAhead a ∧ r.HasRoom (fun _ => true) "sub-1" a)
    (start ordersBroker) away := by
  refine .cons ⟨show (0 : Nat) < u64Max by decide, fun n hn => ?_, fun n hn _ => ?_⟩ fun r₁ h₁ => ?_
  · cases hn
    exact Nat.zero_le _
  · exact Nat.zero_le _
  cases h₁
  refine .cons ⟨show (0 : Nat) < u64Max by decide, trivial, fun _ sub hsub _ _ => ?_⟩
    fun r₂ h₂ => ?_
  · cases hsub
    decide
  cases h₂
  refine .cons ⟨trivial, trivial, trivial⟩ fun r₃ h₃ => ?_
  cases h₃
  refine .cons ⟨show (1 : Nat) < u64Max by decide, trivial, fun _ sub hsub _ _ => ?_⟩
    fun r₄ h₄ => ?_
  · cases hsub
    decide
  cases h₄
  refine .cons ⟨show (2 : Nat) < u64Max by decide, trivial, fun _ sub hsub _ _ => ?_⟩
    fun _ _ => .nil _
  cases hsub
  decide

theorem lost_event_reported_away : ∃ r,
    run (step fun _ => true) (start ordersBroker) away = some r ∧
    ∃ oldest, (r.broker.poll 1000000000000 "sub-1" 10).1 =
      .error (.cursorExpired ordersType oldest) := by
  have hnew := ordersBroker_new
  refine ⟨_, rfl, ?_⟩
  refine lost_event_reported (x := ⟨2, 0, orderCreated "evt-2"⟩)
    (o := ⟨ordersType, none, 0, 0⟩) hnew along_away rfl rfl
    (show _ = some (⟨"sub-1", ordersType, none, none, 1, _⟩ : SubscriptionState) from rfl)
    Nat.one_ne_zero ?_ rfl (by decide) (.inr (by decide)) ?_ 1000000000000 ?_ 10
  · exact mem_cons_of_mem _ mem_cons_self
  · intro hmem
    have hone := congrArg BrokerEvent.cursor (mem_singleton.1 hmem)
    exact absurd hone (by decide)
  · intro hmem
    have hthree := congrArg BufferedEvent.cursor (mem_singleton.1 hmem)
    exact absurd hthree (by decide)

/-- With room for one event in the queue, the second order is dropped for the third, and the poll
returns the third as if nothing were missing. -/
theorem overflow_not_reported : ∃ b r sub x,
    new ordersCatalog ⟨300000000000, 1⟩ .migration = .ok b ∧
    run (step fun _ => true) (start b)
      [.subscribe 0 ordersType "0" none none, .publish 0 (orderCreated "evt-1"),
        .poll 0 "sub-1" 10, .publish 0 (orderCreated "evt-2"),
        .publish 0 (orderCreated "evt-3")] = some r ∧
    received r.polls "sub-1" = [⟨"1", orderCreated "evt-1"⟩] ∧
    r.broker.state.subscriptions "sub-1" = some sub ∧ sub.cursor = 1 ∧
    x ∈ r.past.published ordersType ∧ sub.cursor < x.cursor ∧
    x.event = orderCreated "evt-2" ∧
    (r.broker.poll 0 "sub-1" 10).1 =
      .ok ⟨"sub-1", ordersType, "3", [⟨"3", orderCreated "evt-3"⟩]⟩ :=
  ⟨_, _, _, ⟨2, 0, orderCreated "evt-2"⟩, rfl, rfl, rfl, rfl, rfl,
    mem_cons_of_mem _ mem_cons_self, Nat.lt_succ_self 1, rfl, rfl⟩

end BrokerRun

end Traverse.Events

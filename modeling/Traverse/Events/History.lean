import Mathlib.Data.List.DropRight
import Mathlib.Data.List.Sort
import Traverse.Events.Wrapped

/-!
# Events.History

What a subscription of a `DurableBroker` is to get: `history log t subject after` are the unrevoked
events of the log after a position, for one type and subject.

A durable-mode subscription gets it from the journal (`durable_returns`). The wrapped broker has
the same events as far as this broker has published them (`history_eq`), so that a live
subscription gets it too, unless it asks for cursor 0: that is never refused, whatever the memory
of the wrapped broker has lost (`memory_only`). For every other cursor the fallback is exact
(`subscribe_skips_nothing`).
-/

namespace Traverse.Events

open Decimal Journal List Function Machine

def BrokerEvent.number (e : BrokerEvent) : Nat := (parseU64 e.cursor).toOption.getD 0

theorem BufferedEvent.number_shown {x : BufferedEvent} (h : x.cursor ≤ u64Max) :
    x.shown.number = x.cursor := by
  simp [BrokerEvent.number, BufferedEvent.shown, parseU64_repr h, Except.toOption]

def history (log : List (Ack TraverseEvent)) (eventType : String) (subject : Option String)
    (after : Nat) : List BrokerEvent :=
  ((owed after log.length log).filter fun e =>
    e.2.eventType = eventType ∧ subjectMatches subject e.2 = true).map fun e => ⟨e.1, e.2⟩

theorem length_owed_le (after n : Nat) (log : List (Ack TraverseEvent)) :
    (owed after n log).length ≤ log.length := by
  rw [owed, length_take]
  refine Nat.le_trans (Nat.min_le_right _ _) ?_
  exact Nat.le_trans (length_filterMap_le _ _) (length_filter_le _ _)

variable {n : Nat} {log : List (Ack TraverseEvent)} {root : Root TraverseEvent}

theorem owed_of_le (hn : log.length ≤ n) (after : Nat) :
    owed after n log =
      (log.filter fun a =>
        a.revokes.isNone && decide (after < a.seq ∧ a.seq ∉ revoked log)).filterMap
        fun a => a.event.map fun e => (a.cursor, e) := by
  refine take_of_length_le (Nat.le_trans ?_ hn)
  exact Nat.le_trans (length_filterMap_le _ _) (length_filter_le _ _)

theorem mem_history {t : String} {subject : Option String} {after : Nat} {e : BrokerEvent} :
    e ∈ history log t subject after ↔ ∃ a ∈ log, a.cursor = e.cursor ∧ a.event = some e.event ∧
      a.revokes = none ∧ after < a.seq ∧ a.seq ∉ revoked log ∧ e.event.eventType = t ∧
      subjectMatches subject e.event = true := by
  simp only [history, owed_of_le (Nat.le_refl log.length), mem_map, mem_filter,
    mem_filterMap, Bool.and_eq_true, Option.isNone_iff_eq_none, decide_eq_true_eq,
    Option.map_eq_some_iff]
  constructor
  · rintro ⟨p, ⟨⟨a, ⟨ha, hplain, hafter, hnot⟩, event, he, rfl⟩, ht, hs⟩, rfl⟩
    exact ⟨a, ha, rfl, he, hplain, hafter, hnot, ht, hs⟩
  · rintro ⟨a, ha, hc, he, hplain, hafter, hnot, ht, hs⟩
    exact ⟨(a.cursor, e.event), ⟨⟨a, ⟨ha, hplain, hafter, hnot⟩, e.event, he, rfl⟩, ht, hs⟩,
      by rw [hc]⟩

theorem history_increasing {c : RecordCodec TraverseEvent} (h : Logged c root) (t : String)
    (subject : Option String) (after : Nat) :
    (history root.acks t subject after).Pairwise fun e f => e.number < f.number := by
  rw [history, owed_of_le (Nat.le_refl _), pairwise_map]
  have hacks : root.acks.Pairwise fun a b => a.seq < b.seq := by
    refine pairwise_iff_getElem.2 fun i k hi hk hlt => ?_
    rw [h.seq_getElem (List.getElem?_eq_getElem hi), h.seq_getElem (List.getElem?_eq_getElem hk)]
    omega
  refine List.Pairwise.filter _ (List.Pairwise.filterMap _ ?_ (hacks.filter _))
  intro a b hab p hp q hq
  obtain ⟨_, _, rfl⟩ := Option.map_eq_some_iff.1 hp
  obtain ⟨_, _, rfl⟩ := Option.map_eq_some_iff.1 hq
  exact hab

namespace DurableBroker

/-! ## Polls that nobody interrupts -/

section Polls

variable {β : Type} (c : RecordCodec TraverseEvent) (ops : EventBroker β)

def pollSteps (now : Int) (id : String) (maxEvents : Nat) : List Step :=
  if isDurableId id then [.pollDurable id maxEvents, .pollRead] else [.pollLive now id maxEvents]

/-- A poll of the subscription returns `events`. -/
def Returns (w : DurableBroker β) (now : Int) (id : String) (maxEvents : Nat)
    (events : List BrokerEvent) : Prop :=
  ∃ w' poll, run (step c ops) w (pollSteps now id maxEvents) = some w' ∧
    poll.subscriptionId = id ∧ poll.events = events ∧
    (w'.livePolls = w.livePolls ++ [poll] ∨ w'.durablePolls = w.durablePolls ++ [poll])

variable {c ops} {base : Nat} {w : DurableBroker β}

theorem durable_returns (h : Tracked c base w) (hpoller : w.poller = none) {id t : String}
    {subject : Option String} {after : Nat} (hid : isDurableId id = true)
    (hsub : w.entries id = some ⟨t, subject, after.repr⟩) (hafter : after < u64Max)
    (hn : w.root.acks.length < n) (now : Int) :
    Returns c ops w now id n (history w.root.acks t subject after) := by
  obtain ⟨j, hj⟩ := h.running
  let p : Poller := ⟨id, n, ⟨t, subject, after.repr⟩, after.repr, []⟩
  have hpoll : w.step c ops (.pollDurable id n) = some { w with poller := some p } := by
    simp [step, hpoller, hid, pollDurable, hsub, Nat.ne_zero_of_lt hn, p]
  have hreplay := h.logged.replay hj (parseU64_repr (Nat.le_of_lt hafter)) hafter n
  have hlen : p.delivered.length + (owed after n w.root.acks).length < p.maxEvents := by
    have hle := length_owed_le after n w.root.acks
    simpa [p] using Nat.lt_of_le_of_lt hle hn
  let q : Poller := { p with
    cursor := ((owed after n w.root.acks).getLast?.map Prod.fst).getD p.cursor
    delivered := p.delivered ++ selected p.sub (owed after n w.root.acks) }
  let read : DurableBroker β := { w with
    poller := some p
    root := { w.root with journal := some (j.replayFrom c w.root.dir after.repr n).2 } }
  have hread : { w with poller := some p }.step c ops .pollRead = some (read.finishPoll q) := by
    have hbatch : read.takeBatch p (owed after n w.root.acks) = read.finishPoll q := by
      simp only [takeBatch, scanBatch_of_lt p.sub p.maxEvents _ p.cursor p.delivered hlen]
      rw [if_pos (.inr (.inr (by omega)))]
    rw [← hbatch]
    simp only [step, hj, pollRead, hreplay, p, read]
  refine ⟨read.finishPoll q, ⟨id, t, q.cursor, q.delivered⟩, ?_, rfl, ?_, .inr rfl⟩
  · rw [pollSteps, if_pos hid, run_cons_some _ _ hpoll, run_cons_some _ _ hread]
    rfl
  · rw [history, owed_of_le (Nat.le_refl _), ← owed_of_le (Nat.le_of_lt hn)]
    rfl

theorem subscribeDurable_ok (h : Tracked c base w) (t : String) (subject : Option String)
    {start : Nat} (hlt : start < u64Max) :
    ∃ root, root.acks = w.root.acks ∧ w.subscribeDurable c t start.repr subject =
      (some (.ok ⟨s!"{durableSubscriptionPrefix}{saturatingSucc w.nextId}", t, start.repr⟩),
        { w with
          root := root
          nextId := saturatingSucc w.nextId
          entries := update w.entries
            s!"{durableSubscriptionPrefix}{saturatingSucc w.nextId}"
            (some ⟨t, subject, start.repr⟩) }) := by
  obtain ⟨j, hj⟩ := h.running
  have hparse := parseU64_repr (Nat.le_of_lt hlt)
  have hreplay := h.logged.replay hj hparse hlt 0
  refine ⟨{ w.root with journal := some (j.replayFrom c w.root.dir start.repr 0).2 }, rfl, ?_⟩
  simp only [subscribeDurable, hj, hreplay, normalizeCursor, hparse, addEntry]

end Polls

/-! ## The memory of the wrapped broker -/

variable {semver : String → Bool} {c : RecordCodec TraverseEvent} {base : Nat}
  {w w' : DurableBroker InProcessBroker} {r : BrokerRun}

/-- What has been published of a type and subject after a position. -/
def publishedAfter (r : BrokerRun) (t : String) (subject : Option String) (after : Nat) :
    List BufferedEvent :=
  (r.past.published t).filter fun x => decide (after < x.cursor) && subjectMatches subject x.event

variable {t id fromCursor : String} {x : BufferedEvent} {subject : Option String}
  {after call start : Nat} {event : TraverseEvent} {s : BrokerState} {b b' inner : InProcessBroker}
  {now : Int} {sub : Subscription} {a : Step}

theorem Coupled.record (h : Coupled c base w r) (hx : x ∈ r.past.published t) :
    ∃ a ∈ w.root.acks.drop base, a.cursor = x.cursor.repr ∧ a.seq = x.cursor ∧
      a.event = some x.event ∧ a.revokes = none ∧ a.seq ∉ revoked w.root.acks := by
  obtain ⟨call, ho, hret⟩ := h.vouched t x hx
  obtain ⟨a, ha, hc, he⟩ := h.tracked.record ho hret
  have hseq : a.seq = x.cursor := by
    have hnumber := (h.tracked.logged.cursor_of_mem (mem_of_mem_drop ha)).1
    exact repr_injective (hnumber.symm.trans hc)
  refine ⟨a, ha, hc, hseq, he, h.plain a ha (by simp [he]), fun hrev => ?_⟩
  obtain ⟨cursor, ho', _, hnot⟩ := h.tracked.accounts.kept call x.event hret
  have hsame := h.tracked.accounts.single _ _ call ho ho'
  exact hnot ⟨a.seq, hrev, by rw [hseq, ← hsame]⟩

theorem Coupled.cursor_lt (h : Coupled c base w r) (hx : x ∈ r.past.published t) :
    base < x.cursor ∧ x.cursor ≤ w.root.acks.length ∧ x.shown.number = x.cursor := by
  obtain ⟨a, ha, _, hseq, _⟩ := h.record hx
  have hle := (h.tracked.logged.cursor_of_mem (mem_of_mem_drop ha)).2.2
  have hlt := h.tracked.logged.length_lt
  exact ⟨hseq ▸ h.tracked.base_lt ha, hseq ▸ hle, BufferedEvent.number_shown (by omega)⟩

theorem Coupled.publishedAfter_increasing (h : Coupled c base w r) (t : String)
    (subject : Option String) (after : Nat) :
    ((publishedAfter r t subject after).map (·.shown)).Pairwise fun e f => e.number < f.number := by
  rw [pairwise_map]
  refine List.Pairwise.imp_of_mem ?_ ((h.consistent.ordered.increasing t).filter _)
  intro x y hx hy hxy
  rw [(h.cursor_lt (mem_of_mem_filter hx)).2.2, (h.cursor_lt (mem_of_mem_filter hy)).2.2]
  exact hxy

theorem Coupled.mem_history (h : Coupled c base w r) (hx : x ∈ publishedAfter r t subject after) :
    x.shown ∈ history w.root.acks t subject after := by
  obtain ⟨hpub, hcond⟩ := mem_filter.1 hx
  rw [Bool.and_eq_true, decide_eq_true_eq] at hcond
  obtain ⟨a, ha, hc, hseq, he, hplain, hrev⟩ := h.record hpub
  exact Events.mem_history.2 ⟨a, mem_of_mem_drop ha, hc, he, hplain, by omega, hrev,
    h.consistent.ordered.typed t x hpub, hcond.2⟩

/-- The event of a call that returned Ok is published under the number of its record. -/
theorem Mirrored.published (hm : Mirrored w r) (h : Coupled c base w r) {a : Ack TraverseEvent}
    (ha : a ∈ w.root.acks) (ho : w.owner a.cursor = some call)
    (hret : w.calls call = some (.returned event (.ok ()))) :
    a.event = some event ∧
      ∃ x ∈ r.past.published event.eventType, x.event = event ∧ x.cursor = a.seq := by
  obtain ⟨b, hb, hbc, he⟩ := h.tracked.record ho hret
  have hab := h.tracked.logged.eq_of_cursor (mem_of_mem_drop hb) ha hbc
  subst hab
  obtain ⟨x, hx, hxe, hxo⟩ := hm call event hret
  refine ⟨he, x, hx, hxe, ?_⟩
  have hsame := h.tracked.accounts.single _ _ call hxo ho
  exact repr_injective (hsame.trans (h.tracked.logged.cursor_of_mem ha).1)

/-- When nothing is open, the log and the wrapped broker agree on what came after the broker was
opened. -/
theorem history_eq (h : Coupled c base w r) (hm : Mirrored w r) (hsettled : w.NothingOpen)
    (t : String) (subject : Option String) (hafter : base ≤ after) :
    history w.root.acks t subject after = (publishedAfter r t subject after).map (·.shown) := by
  refine (history_increasing h.tracked.logged t subject after).eq_of_mem_iff
    (h.publishedAfter_increasing t subject after) fun e => ⟨fun he => ?_, fun he => ?_⟩
  · obtain ⟨a, ha, hc, hevent, _, hlt, hrev, ht, hs⟩ := Events.mem_history.1 he
    have hdrop := h.tracked.mem_drop ha (by omega)
    obtain ⟨call, ho⟩ := h.tracked.accounts.owned a hdrop e.event hevent
    obtain ⟨event, hret⟩ := hsettled a ha hrev call ho
    obtain ⟨he', x, hx, hxe, hxc⟩ := hm.published h ha ho hret
    rw [hevent, Option.some.injEq] at he'
    subst he'
    refine mem_map.2 ⟨x, mem_filter.2 ⟨ht ▸ hx, ?_⟩, ?_⟩
    · simp [hxc, hlt, hxe, hs]
    · rw [BufferedEvent.shown, hxc, hxe, ← (h.tracked.logged.cursor_of_mem ha).1, hc]
  · obtain ⟨x, hx, rfl⟩ := mem_map.1 he
    exact h.mem_history hx

/-! ## A new subscription -/

theorem isDurableId_entry (n : Nat) : isDurableId s!"{durableSubscriptionPrefix}{n}" = true := by
  rw [isDurableId, isPrefixOf_iff_prefix, String.toList_append]
  exact prefix_append durableSubscriptionPrefix.toList _

theorem isDurableId_subId (k : Nat) : isDurableId (subId k) = false := by
  have hname : (toString "sub-").toList = ['s', 'u', 'b', '-'] := by decide
  simp only [isDurableId, subId, durableSubscriptionPrefix, String.toList_append, hname]
  rfl

theorem validateFromCursor_error {e : EventError} (h : s.validateFromCursor t start = .error e) :
    ∃ oldest, e = .cursorExpired t oldest := by
  unfold BrokerState.validateFromCursor at h
  split at h
  · cases h
  split at h
  · split at h
    · cases h
      exact ⟨_, rfl⟩
    · cases h
  · simp only [] at h
    split at h
    · cases h
      exact ⟨_, rfl⟩
    · cases h

theorem Coupled.base_le (h : Coupled c base w r) (hs : s.Ordered r.past)
    (hfloor : s.restartFloor = w.inner.state.restartFloor) (hstart : start ≠ 0)
    (hvalid : s.validateFromCursor t start = .ok ()) : base ≤ start := by
  have hbase := h.floor
  rw [BrokerState.validateFromCursor, if_neg hstart] at hvalid
  cases hb : s.buffers t with
  | nil =>
    simp only [hb, List.head?_nil] at hvalid
    split at hvalid
    · cases hvalid
    · omega
  | cons front rest =>
    have hfront := (h.cursor_lt (hs.mem_published (t := t) (x := front) (by simp [hb]))).1
    simp only [hb, List.head?_cons] at hvalid
    split at hvalid
    · cases hvalid
    · omega

theorem publishedAfter_eq (hs : s.Ordered r.past) (hstart : start ≠ 0)
    (hvalid : s.validateFromCursor t start = .ok ()) (subject : Option String) :
    publishedAfter r t subject start = (s.buffers t).filter fun item =>
      (start == 0 || decide (start < item.cursor)) && subjectMatches subject item.event := by
  have hzero : (start == 0) = false := by simpa using hstart
  obtain ⟨gone, hgone⟩ := hs.suffix t
  have hlost : ∀ x ∈ gone, x.cursor ≤ start := by
    intro x hx
    have hmem : x ∈ r.past.published t := by
      rw [← hgone]
      exact mem_append_left _ hx
    rcases hs.lost_le hvalid with hz | hle
    · exact absurd hz hstart
    refine hle x hmem fun y hy => ?_
    have hinc := hs.increasing t
    rw [← hgone] at hinc
    exact (pairwise_append.1 hinc).2.2 x hx y hy
  have hnone : gone.filter (fun x => decide (start < x.cursor) && subjectMatches subject x.event) =
      [] := by
    refine filter_eq_nil_iff.2 fun x hx => ?_
    have := hlost x hx
    simp [Nat.not_lt.2 this]
  rw [publishedAfter, ← hgone, filter_append, hnone, nil_append]
  simp [hzero]

theorem poll_ok {sub : SubscriptionState} (now : Int) (hsub : b.state.subscriptions id = some sub)
    (hvalid : (b.checked now id sub.eventType).validateFromCursor sub.eventType sub.cursor = .ok ())
    (htrim : InProcessBroker.trimmedQueue
      ((b.checked now id sub.eventType).buffers sub.eventType) sub.queue = sub.queue)
    (hn : sub.queue.length ≤ n) :
    ∃ cursor b', b.poll now id n =
      (.ok ⟨sub.subscriptionId, sub.eventType, cursor, sub.queue.map (·.shown)⟩, b') := by
  rcases b.poll_cases now id n with
    ⟨hnone, _⟩ | ⟨sub', hsub', ⟨e, hvalid', _⟩ | ⟨_, queue, hqueue, hr, _⟩⟩
  · rw [hsub] at hnone
    cases hnone
  · rw [hsub, Option.some.injEq] at hsub'
    subst hsub'
    rw [hvalid] at hvalid'
    cases hvalid'
  · rw [hsub, Option.some.injEq] at hsub'
    subst hsub'
    rw [htrim] at hqueue
    subst hqueue
    rw [take_of_length_le hn] at hr
    exact ⟨_, _, hr⟩

/-- The first poll of a live subscription, at the reading at which it was opened, returns its
whole backlog. -/
theorem poll_newSubscription {g : Ghost} (h : b.state.Ordered g) {consumer : Option String}
    (hcount : b.state.nextSubscription < u64Max) (hparse : parseCursor fromCursor = .ok start)
    (hsub : b.subscribeWithSubject now t fromCursor subject consumer = (.ok sub, b'))
    (hfits : BrokerState.Fits b now t start subject) {queue : List BufferedEvent}
    (hqueue : queue = ((b.prune t now).state.buffers t).filter fun item =>
      (start == 0 || decide (start < item.cursor)) && subjectMatches subject item.event)
    (hn : queue.length ≤ n) :
    (b.prune t now).state.validateFromCursor t start = .ok () ∧
      sub.subscriptionId = subId (b.state.nextSubscription + 1) ∧
      ∃ cursor b'', b'.poll now sub.subscriptionId n =
        (.ok ⟨sub.subscriptionId, t, cursor, queue.map (·.shown)⟩, b'') := by
  rcases b.subscribeWithSubject_cases now t fromCursor subject consumer with
    ⟨_, _, hr⟩ | ⟨start', hparse', ⟨_, _, hr⟩ | ⟨hvalid, hr⟩⟩
  · rw [hr] at hsub
    cases hsub
  · rw [hr] at hsub
    cases hsub
  · rw [hparse, Except.ok.injEq] at hparse'
    subst hparse'
    rw [saturatingSucc_of_lt hcount] at hr
    rw [hr] at hsub
    cases hsub
    let new := b.newSubscription now t start subject consumer
    have hname : new.subscriptionId = subId (b.state.nextSubscription + 1) :=
      InProcessBroker.newSubscription_id hcount now t start subject consumer
    have hbacklog : new.queue = queue := by
      rw [hqueue]
      simp only [new, InProcessBroker.newSubscription, backlog]
      rw [foldl_enqueue_of_le, nil_append]
      rw [length_nil, Nat.zero_add]
      exact hfits
    refine ⟨hvalid, rfl, ?_⟩
    -- the buffer has just been pruned, so the poll finds it as the subscription left it
    let b' := b.subscribed now t start subject consumer
    have hkept : (b'.checked now (subId (b.state.nextSubscription + 1)) t).buffers t =
        (b.prune t now).state.buffers t := by
      simp only [InProcessBroker.checked, BrokerState.pruneExpired_buffers, update_self,
        BrokerState.kept, b', InProcessBroker.subscribed, BrokerState.addSubscription,
          InProcessBroker.prune_state]
      exact dropWhile_idempotent _ _
    have hpoll := poll_ok (b := b') (n := n) now
      (show b'.state.subscriptions (subId (b.state.nextSubscription + 1)) = some new by
        rw [← hname]
        simp [b', new, InProcessBroker.subscribed, BrokerState.addSubscription])
      (by
        rw [← hvalid, show new.eventType = t from rfl]
        simp only [BrokerState.validateFromCursor, hkept]
        simp [InProcessBroker.checked, b', InProcessBroker.subscribed, BrokerState.addSubscription,
          new, InProcessBroker.newSubscription])
      (by
        refine BrokerState.trimmedQueue_eq fun x hx => ?_
        rw [hbacklog, hqueue] at hx
        rw [show new.eventType = t from rfl, hkept]
        exact BrokerState.head_le ((h.prune t _ now).buffer t) (mem_of_mem_filter hx))
      (by rw [hbacklog]; exact hn)
    rw [hname, hbacklog] at hpoll
    exact hpoll

theorem length_publishedAfter_le (h : Coupled c base w r) (t : String) (subject : Option String)
    (start : Nat) : (publishedAfter r t subject start).length ≤ w.root.acks.length := by
  have hnodup : ((publishedAfter r t subject start).map (·.cursor)).Nodup :=
    Increasing.nodup ((h.consistent.ordered.increasing t).filter _)
  have hsub : (publishedAfter r t subject start).map (·.cursor) ⊆
      List.range' 1 w.root.acks.length := by
    intro k hk
    obtain ⟨x, hx, rfl⟩ := mem_map.1 hk
    obtain ⟨hlt, hle, _⟩ := h.cursor_lt (mem_of_mem_filter hx)
    rw [mem_range'_1]
    omega
  have hlen := (hnodup.subperm hsub).length_le
  rwa [length_map, length_range'] at hlen

theorem live_returns (poll : SubscriptionPoll) (hid : isDurableId id = false)
    (hname : poll.subscriptionId = id) (hpoll : w.inner.poll now id n = (.ok poll, b)) :
    Returns c (inProcess semver) w now id n poll.events := by
  have hstep : w.step c (inProcess semver) (.pollLive now id n) =
      some { w with inner := b, livePolls := w.livePolls ++ [poll] } := by
    simp [step, hid, pollLive, inProcess, hpoll]
  refine ⟨{ w with inner := b, livePolls := w.livePolls ++ [poll] }, poll, ?_, hname, rfl, .inl rfl⟩
  rw [pollSteps, if_neg (by simp [hid]), run_cons_some _ _ hstep]
  rfl

/-- What a subscription that starts after a cursor other than 0 gets first: the log after the
cursor, or what this broker has published after it. -/
theorem subscribe_returns (h : Coupled c base w r) (hstart : start ≠ 0) (hlt : start < u64Max)
    (hcount : w.inner.state.nextSubscription < u64Max)
    (hfits : BrokerState.Fits w.inner now t start subject)
    (hs : w.step c (inProcess semver) (.subscribe now t start.repr subject) = some w')
    (hsub : (w.subscribeForSubject c (inProcess semver) now t start.repr subject).1 =
      some (.ok sub)) :
    ∃ events, (∀ n, w.root.acks.length < n →
        Returns c (inProcess semver) w' now sub.subscriptionId n events) ∧
      (events = history w.root.acks t subject start ∨
        (base ≤ start ∧ events = (publishedAfter r t subject start).map (·.shown))) := by
  have hparse : parseCursor start.repr = .ok start := parseCursor_repr (Nat.le_of_lt hlt)
  have hordered : w.inner.state.Ordered r.past := h.broker ▸ h.consistent.ordered
  have hpruned := hordered.prune t w.inner.config.retentionWindow now
  cases takes_of_step hs with | subscribe => ?_
  cases hinner : w.inner.subscribeWithSubject now t start.repr subject none with | mk result b
  have hres : (inProcess semver).subscribeForSubject w.inner now t start.repr subject =
      (result, b) := hinner
  cases result with
  | ok s =>
    -- live: the wrapped broker vouches for the cursor
    simp only [subscribeForSubject, hres, Option.some.injEq, Except.ok.injEq] at hsub ⊢
    subst hsub
    obtain ⟨hvalid, hid, _⟩ := poll_newSubscription hordered hcount hparse hinner hfits rfl
      (Nat.le_refl _)
    have hqueue := publishedAfter_eq hpruned hstart hvalid subject
    refine ⟨_, fun n hn => ?_, .inr ⟨h.base_le hpruned (by simp) hstart hvalid, rfl⟩⟩
    have hlen := length_publishedAfter_le h t subject start
    obtain ⟨_, _, cursor, b', hpoll⟩ := poll_newSubscription hordered hcount hparse hinner hfits
      hqueue (by omega : _ ≤ n)
    exact live_returns ⟨s.subscriptionId, t, cursor, _⟩
      (by rw [hid]; exact isDurableId_subId _) rfl hpoll
  | error e =>
    by_cases he : ∃ expired oldest, e = .cursorExpired expired oldest
    · -- durable mode: the journal answers
      obtain ⟨expired, oldest, rfl⟩ := he
      have hpoller : w.poller = none := by
        -- the fallback of `subscribe` takes the subscription lock
        cases hp : w.poller with
        | none => rfl
        | some p => simp [step, hp, hres] at hs
      have htracked : Tracked c base { w with inner := b } :=
        h.tracked.consumes ⟨rfl, rfl, rfl, rfl, rfl, rfl, .inl rfl⟩
      have hafter : Tracked c base
          (w.subscribeForSubject c (inProcess semver) now t start.repr subject).2 :=
        h.tracked.consumes (step_consumes hs rfl)
      obtain ⟨root, hacks, hdurable⟩ := subscribeDurable_ok htracked t subject hlt
      simp only [subscribeForSubject, hres, hdurable, Option.some.injEq, Except.ok.injEq]
        at hsub hafter ⊢
      subst hsub
      refine ⟨_, fun n hn => ?_, .inl rfl⟩
      have hreturns : Returns c (inProcess semver) _ now _ n _ := durable_returns hafter hpoller
        (isDurableId_entry _) (update_self ..) hlt (by rw [hacks]; exact hn) now
      rw [hacks] at hreturns
      exact hreturns
    · -- any other error is passed on
      exfalso
      unfold subscribeForSubject at hsub
      rw [hres] at hsub
      split at hsub
      · rename_i hok
        cases hok
      · rename_i herr
        cases herr
        exact he ⟨_, _, rfl⟩
      · cases hsub

theorem subscribe_ok (semver : String → Bool) (h : Tracked c base w) (now : Int)
    (subject : Option String) (hreg : w.inner.catalog.get t ≠ none) (hlt : start < u64Max) :
    ∃ sub, (w.subscribeForSubject c (inProcess semver) now t start.repr subject).1 =
      some (.ok sub) := by
  obtain ⟨entry, hentry⟩ := Option.ne_none_iff_exists'.1 hreg
  have hparse : parseCursor start.repr = .ok start := parseCursor_repr (Nat.le_of_lt hlt)
  unfold subscribeForSubject
  cases hvalid : (w.inner.prune t now).state.validateFromCursor t start with
  | ok =>
    refine ⟨⟨subId (saturatingSucc (w.inner.prune t now).state.nextSubscription), t, start.repr⟩,
      ?_⟩
    simp only [inProcess, InProcessBroker.subscribeForSubject,
      InProcessBroker.subscribeWithSubject, hentry, hparse, hvalid]
    rfl
  | error e =>
    obtain ⟨oldest, rfl⟩ := validateFromCursor_error hvalid
    have htracked : Tracked c base { w with inner := w.inner.prune t now } :=
      h.consumes ⟨rfl, rfl, rfl, rfl, rfl, rfl, .inl rfl⟩
    obtain ⟨root, _, hdurable⟩ := subscribeDurable_ok htracked t subject hlt
    simp only [inProcess, InProcessBroker.subscribeForSubject,
      InProcessBroker.subscribeWithSubject, hentry, hparse, hvalid, hdurable]
    exact ⟨_, rfl⟩

/-! ## Nothing is skipped -/

section

variable {catalog : EventCatalog} {config : BrokerConfig} {mode : EventValidationMode}
  {journal : JournalConfig} {timeout : Nat} {earlier : List (Call TraverseEvent)}
  {w₀ : DurableBroker InProcessBroker} {steps : List Step} (hroot : LayoutRun c earlier root)
  (hnew : InProcessBroker.new catalog config mode = .ok inner)
  (hopen : openBroker c (inProcess semver) journal timeout root inner = some w₀)
  (halong : Along (step c (inProcess semver))
    (fun w a => Calm w a ∧ InOrder w a ∧ Unrepeated w a) w₀ steps)
  (hrun : run (step c (inProcess semver)) w₀ steps = some w)

include hroot hnew hopen halong hrun

theorem mirrored_run : ∃ r, Coupled c root.acks.length w r ∧ Mirrored w r := by
  refine invariant (fun w => ∃ r, Coupled c root.acks.length w r ∧ Mirrored w r) ?_ ?_ halong hrun
  · rintro v a v' ⟨r, hc, hm⟩ ⟨hcalm, horder, hnew⟩ hs
    exact ⟨shadow semver v r a, hc.step hcalm horder hs, hm.step hc hcalm hnew hs⟩
  · refine ⟨.start w₀.inner, coupled_open hroot hnew hopen, ?_⟩
    obtain ⟨_, _, _, _, _, rfl⟩ := openBroker_eq hopen
    exact mirrored_start

/-- Whatever the journal holds when it is opened: if hand-offs come in the order of their cursors
and without duplicates, a subscription from any cursor but 0, made while no record is open, gets
exactly the unrevoked events of its type and subject after the cursor, in order. -/
theorem subscribe_skips_nothing (hsettled : w.NothingOpen) (hreg : w.inner.catalog.get t ≠ none)
    (hstart : start ≠ 0) (hlt : start < u64Max) (hcount : w.inner.state.nextSubscription < u64Max)
    (hfits : BrokerState.Fits w.inner now t start subject)
    (hs : w.step c (inProcess semver) (.subscribe now t start.repr subject) = some w') :
    ∃ sub, (w.subscribeForSubject c (inProcess semver) now t start.repr subject).1 =
        some (.ok sub) ∧
      ∀ n, w.root.acks.length < n → Returns c (inProcess semver) w' now sub.subscriptionId n
        (history w.root.acks t subject start) := by
  obtain ⟨r, h, hm⟩ := mirrored_run hroot hnew hopen halong hrun
  obtain ⟨sub, hsub⟩ := subscribe_ok semver h.tracked now subject hreg hlt
  obtain ⟨events, hreturns, hevents⟩ := subscribe_returns h hstart hlt hcount hfits hs hsub
  refine ⟨sub, hsub, ?_⟩
  rcases hevents with rfl | ⟨hbase, rfl⟩
  · exact hreturns
  · rw [history_eq h hm hsettled t subject hbase]
    exact hreturns

end

/-! ## A subscriber and two orders -/

/-- All conditions of this development at once. -/
def Smooth (w : DurableBroker InProcessBroker) (a : Step) : Prop :=
  Served (fun _ => true) "sub-1" w a ∧ Unrepeated w a
  deriving Decidable

/-- A subscriber, two orders, and a poll. -/
def follower (n : Nat) : List Step :=
  .subscribe 0 ordersType "0" none :: (undisturbed 0 (orderCreated "evt-1") 0 ++
    undisturbed 1 (orderCreated "evt-2") 0 ++ [.pollLive 0 "sub-1" n])

/-- A subscriber has received both orders; one who comes later with cursor 1 gets the second. -/
theorem subscribe_skips_nothing_follower : ∃ w₀ w w' : DurableBroker InProcessBroker,
    openBroker eventCodec ordersOps .default 2000 .empty ordersBroker = some w₀ ∧
    run (step eventCodec ordersOps) w₀ (follower 10) = some w ∧
    w.step eventCodec ordersOps (.subscribe 1000000000000 ordersType "1" none) =
      some w' ∧
    ∃ sub, (w.subscribeForSubject eventCodec ordersOps 1000000000000 ordersType "1"
        none).1 = some (.ok sub) ∧
      Returns eventCodec ordersOps w' 1000000000000 sub.subscriptionId 10
        [⟨"2", orderCreated "evt-2"⟩] := by
  obtain ⟨w₀, w, hopen, hpath, hsettled, hreg, hcount, hfits, hlog, hhistory, w', hs, -⟩ :=
    exists_orders_path (P := Smooth) (D := fun _ w =>
        w.NothingOpen ∧ w.inner.catalog.get ordersType ≠ none ∧
        w.inner.state.nextSubscription < u64Max ∧
        BrokerState.Fits w.inner 1000000000000 ordersType 1 none ∧
        w.root.acks.length < 10 ∧
        history w.root.acks ordersType none 1 = [⟨"2", orderCreated "evt-2"⟩] ∧
        ∃ w', w.step eventCodec ordersOps
          (.subscribe 1000000000000 ordersType "1" none) = some w' ∧ True)
      (follower 10) (by rw [eventCodec_eq]; decide +kernel)
  obtain ⟨sub, hsub, hreturns⟩ := subscribe_skips_nothing layoutRun_nil ordersBroker_new hopen
    (hpath.1.mono fun _ _ h => ⟨h.1.1, h.1.2.1, h.2⟩) hpath.2 hsettled hreg (by decide) (by decide)
    hcount hfits hs
  exact ⟨w₀, w, w', hopen, hpath.2, hs, sub, hsub, hhistory ▸ hreturns 10 hlog⟩

/-- The order has left the memory of the wrapped broker. A subscription from cursor 0 is still
served from there, and gets nothing; the journal has the order. -/
theorem memory_only : ∃ w₀ w w' : DurableBroker InProcessBroker,
    openBroker eventCodec ordersOps .default 2000 .empty ordersBroker = some w₀ ∧
    Along (step eventCodec ordersOps) Smooth w₀ (undisturbed 0 (orderCreated "evt-1") 0) ∧
    run (step eventCodec ordersOps) w₀ (undisturbed 0 (orderCreated "evt-1") 0) = some w ∧
    w.step eventCodec ordersOps (.subscribe 1000000000000 ordersType "0" none) =
      some w' ∧
    (w.subscribeForSubject eventCodec ordersOps 1000000000000 ordersType "0" none).1 =
      some (.ok ⟨"sub-1", ordersType, "0"⟩) ∧
    Returns eventCodec ordersOps w' 1000000000000 "sub-1" 10 [] ∧
    history w.root.acks ordersType none 0 = [⟨"1", orderCreated "evt-1"⟩] := by
  obtain ⟨w₀, w, hopen, hpath, w', hs, hsub, hpoll, hhistory⟩ :=
    exists_orders_path (P := Smooth) (D := fun _ w =>
        ∃ w', w.step eventCodec ordersOps (.subscribe 1000000000000 ordersType "0" none) = some w' ∧
          (w.subscribeForSubject eventCodec ordersOps 1000000000000 ordersType "0"
            none).1 = some (.ok ⟨"sub-1", ordersType, "0"⟩) ∧
          (w'.inner.poll 1000000000000 "sub-1" 10).1 =
            .ok ⟨"sub-1", ordersType, "0", []⟩ ∧
          history w.root.acks ordersType none 0 = [⟨"1", orderCreated "evt-1"⟩])
      (undisturbed 0 (orderCreated "evt-1") 0) (by rw [eventCodec_eq]; decide +kernel)
  exact ⟨w₀, w, w', hopen, hpath.1, hpath.2, hs, hsub,
    live_returns ⟨"sub-1", ordersType, "0", []⟩ (by decide) rfl (Prod.ext hpoll rfl),
    hhistory⟩

end DurableBroker

end Traverse.Events

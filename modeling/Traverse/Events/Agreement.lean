import Traverse.Events.LiveOrder

/-!
# Events.Agreement

Live delivery and durable replay show the same history. A live subscription that is opened before
the first publish, whose queue has room and whose events do not grow old in it, has received or
holds exactly what the wrapped broker has accepted of its type and subject (`WholeAt`); and the
log has exactly that as well (`live_and_replay_agree`).

An event that the wrapped broker discards as a duplicate is the exception: the publish call
returns Ok, nothing revokes its record, and replay returns the event twice (`duplicate_replayed`).
-/

namespace Traverse.Events

open Decimal Journal List Function Machine
open InProcessBroker (newSubscription_id)

/-- A subscription has been given everything that was published for it. -/
structure SubscriptionState.Whole (sub : SubscriptionState)
    (got published buffer : List BufferedEvent) : Prop where
  all : got ++ sub.queue = published.filter fun x => subjectMatches sub.subjectId x.event
  held : sub.queue ⊆ buffer

namespace SubscriptionState.Whole

variable {sub : SubscriptionState} {got published buffer : List BufferedEvent} {x : BufferedEvent}

theorem enqueue (h : sub.Whole got published buffer) {maxLen : Nat}
    (hlen : sub.queue.length < maxLen) (hm : subjectMatches sub.subjectId x.event = true) :
    { sub with queue := enqueueWithDropOldest maxLen sub.queue x }.Whole got (published ++ [x])
      (buffer ++ [x]) := by
  rw [enqueue_of_lt hlen]
  constructor
  · simp only [filter_append, ← h.all, append_assoc]
    simp [hm]
  · exact append_subset.2 ⟨fun y hy => mem_append_left _ (h.held hy), subset_append_right _ _⟩

theorem skip (h : sub.Whole got published buffer)
    (hm : subjectMatches sub.subjectId x.event ≠ true) :
    sub.Whole got (published ++ [x]) (buffer ++ [x]) where
  all := by
    rw [filter_append, ← h.all]
    simp [hm]
  held := fun y hy => mem_append_left _ (h.held hy)

theorem serve (h : sub.Whole got published buffer) (cursor n : Nat) :
    { sub with cursor := cursor, queue := sub.queue.drop n }.Whole (got ++ sub.queue.take n)
      published buffer where
  all := by
    rw [append_assoc, take_append_drop]
    exact h.all
  held := fun _ hx => h.held (mem_of_mem_drop hx)

end SubscriptionState.Whole

namespace BrokerState

def WholeAt (s : BrokerState) (g : Ghost) (id : String) : Prop :=
  ∀ sub, s.subscriptions id = some sub →
    sub.Whole (g.got id) (g.published sub.eventType) (s.buffers sub.eventType)

/-- Nothing in the queue of the subscription has expired. -/
def Young (s : BrokerState) (window : Nat) (now : Int) (id : String) : Prop :=
  ∀ sub, s.subscriptions id = some sub → ∀ x ∈ sub.queue, expired window now x = false

variable {s : BrokerState} {g : Ghost} {id : String}

variable {window : Nat}

theorem trimmedQueue_kept (h : Ordered s g) {t : String} {now : Int} {queue : List BufferedEvent}
    (hheld : queue ⊆ s.buffers t) (hyoung : ∀ x ∈ queue, expired window now x = false) :
    queue ⊆ s.kept t window now ∧
      InProcessBroker.trimmedQueue (s.kept t window now) queue = queue := by
  have hkept : queue ⊆ s.kept t window now :=
    fun x hx => mem_dropWhile_of_not (hyoung x hx) (hheld hx)
  refine ⟨hkept, trimmedQueue_eq fun x hx => ?_⟩
  exact head_le ((h.buffer t).sublist (s.kept_suffix t window now).sublist) (hkept hx)

theorem WholeAt.prune (hc : WholeAt s g id) (h : Ordered s g) (t : String) {now : Int}
    (hyoung : s.Young window now id) : WholeAt (s.pruneExpired t window now) g id := by
  intro sub' hsub'
  rw [pruneExpired_subscriptions] at hsub'
  rw [pruneExpired_buffers]
  obtain ⟨sub, hsub, ⟨ht, rfl⟩ | ⟨ht, rfl⟩⟩ := h.of_each hsub'
  · obtain ⟨hall, hheld⟩ := hc sub hsub
    subst ht
    obtain ⟨hkept, htrim⟩ := trimmedQueue_kept h hheld (hyoung sub hsub)
    simp only [htrim, update_self]
    exact ⟨hall, hkept⟩
  · rw [update_of_ne ht]
    exact hc _ hsub

theorem WholeAt.deliver {b : InProcessBroker} (hc : WholeAt b.state g id) (h : Ordered b.state g)
    {now : Int} {event : TraverseEvent} {assigned : Option Nat}
    (hroom : b.state.Room b.config.maxQueueLen id event) :
    WholeAt (b.deliver now event assigned).state (g.publish (b.item now event assigned)) id := by
  intro sub' hsub'
  have hpub : (g.publish (b.item now event assigned)).published =
      update g.published event.eventType
        (g.published event.eventType ++ [b.item now event assigned]) := rfl
  have hgot : (g.publish (b.item now event assigned)).got = g.got := rfl
  rw [InProcessBroker.deliver_subscriptions] at hsub'
  rw [InProcessBroker.deliver_buffers, hpub, hgot]
  obtain ⟨sub, hsub, ⟨ht, rfl⟩ | ⟨ht, rfl⟩⟩ := h.of_each hsub'
  · have hold := hc sub hsub
    by_cases hm : subjectMatches sub.subjectId event = true
    · have hnew := hold.enqueue (x := b.item now event assigned) (hroom sub hsub ht hm) hm
      rw [if_pos hm]
      simpa only [ht, update_self] using hnew
    · rw [if_neg hm, ht, update_self, update_self]
      rw [ht] at hold
      exact hold.skip (x := b.item now event assigned) hm
  · rw [update_of_ne ht, update_of_ne ht]
    exact hc _ hsub

theorem WholeAt.congr {s' : BrokerState} {g' : Ghost} (hc : WholeAt s g id)
    (hbuffers : s'.buffers = s.buffers) (hsub : s'.subscriptions id = s.subscriptions id)
    (hpub : g'.published = g.published) (hgot : g'.got id = g.got id) : WholeAt s' g' id := by
  intro sub h
  rw [hsub] at h
  rw [hbuffers, hpub, hgot]
  exact hc sub h

theorem WholeAt.forget (hc : WholeAt s g id) (i : String) (index : String → Finset String) :
    WholeAt { s with
      subscriptions := update s.subscriptions i none
      subscriptionsByEventType := index } g id := by
  by_cases hi : id = i
  · subst hi
    intro sub h
    simp at h
  · exact hc.congr rfl (update_of_ne hi _ _) rfl rfl

theorem Young.forget {now : Int} (hyoung : s.Young window now id) (i : String)
    (index : String → Finset String) :
    Young { s with
      subscriptions := update s.subscriptions i none
      subscriptionsByEventType := index } window now id := by
  by_cases hi : id = i
  · subst hi
    intro sub h
    simp at h
  · intro sub h
    simp only [update_of_ne hi] at h
    exact hyoung sub h

/-! ## Operations -/

section Operations

variable {b : InProcessBroker} {now : Int}

theorem WholeAt.serve (hc : WholeAt b.state g id) (h : Ordered b.state g)
    (hyoung : b.state.Young b.config.retentionWindow now id) {sub : SubscriptionState}
    (hsub : b.state.subscriptions id = some sub) {queue : List BufferedEvent}
    (hqueue : queue = InProcessBroker.trimmedQueue
      ((b.checked now id sub.eventType).buffers sub.eventType) sub.queue) (maxEvents : Nat) :
    WholeAt (b.polled now sub id queue maxEvents) (g.receive id (queue.take maxEvents)) id := by
  have hold := hc sub hsub
  have hkept : (b.checked now id sub.eventType).buffers sub.eventType =
      b.state.kept sub.eventType b.config.retentionWindow now := by
    simp [InProcessBroker.checked, kept]
  obtain ⟨hheld, htrim⟩ := trimmedQueue_kept h hold.held (hyoung sub hsub)
  rw [hkept, htrim] at hqueue
  subst hqueue
  intro sub' hsub'
  simp only [InProcessBroker.polled, h.named id sub hsub, update_self, Option.some.injEq] at hsub'
  subst hsub'
  have hserve := SubscriptionState.Whole.serve ⟨hold.all, hheld⟩
    ((((sub.queue.take maxEvents).getLast?).map (·.cursor)).getD sub.cursor) maxEvents
  simpa [InProcessBroker.polled, Ghost.receive, hkept, h.named id sub hsub] using hserve

end Operations

end BrokerState

theorem BrokerRun.whole_step {semver : String → Bool} {r r' : BrokerRun} {a : BrokerCall}
    {id : String} (h : r.broker.state.WholeAt r.past id) (hr : r.Consistent)
    (hrising : r.Rising a) (hroom : r.HasRoom semver id a) (htimely : r.Timely id a)
    (hid : ∃ o, r.past.opened id = some o) (hs : r.step semver a = some r') :
    r'.broker.state.WholeAt r'.past id := by
  have hordered := hr.ordered
  have hchecked : ∀ now i t, a.reading = some now →
      (r.broker.checked now i t).WholeAt r.past id := fun now i t hnow =>
    (h.forget i _).prune (hordered.forget i (fun _ => Finset.Subset.refl _) fun _ _ hi _ => hi) _
      (BrokerState.Young.forget (htimely now hnow) i _)
  cases step_move hs with
  | stay => exact h
  | prune t hnow => exact h.prune hordered t (htimely _ hnow)
  | @deliver _ now event assigned hpub hx =>
    have hnow : a.reading = some now := by cases hpub <;> rfl
    refine (h.prune hordered event.eventType (htimely now hnow)).deliver
      (b := r.broker.prune event.eventType now) (hordered.prune _ _ _) ?_
    exact hroom.publishes hpub (by simp [hx])
  | @add now t _ subject consumer start =>
    have hname := newSubscription_id hrising now t start subject consumer
    have hne : id ≠ subId (r.broker.state.nextSubscription + 1) := by
      obtain ⟨o, ho⟩ := hid
      rintro rfl
      rw [(hordered.unused _ (Nat.lt_succ_self _)).1] at ho
      cases ho
    rw [InProcessBroker.subscribed_state hrising]
    refine (h.prune hordered t (htimely now rfl)).congr rfl ?_ rfl rfl
    simp [BrokerState.addSubscription, hname, hne]
  | refuse => exact hchecked _ _ _ rfl
  | @serve now i maxEvents sub queue hsub _ hqueue =>
    by_cases hi : id = i
    · subst hi
      exact h.serve hordered (htimely now rfl) hsub hqueue maxEvents
    · refine (hchecked now i sub.eventType rfl).congr rfl ?_ rfl ?_
      · simp [InProcessBroker.polled, hordered.named i sub hsub, hi]
      · simp [Ghost.receive, hi]
  | @forget i => exact h.forget i _

theorem BrokerRun.whole_subscribe (semver : String → Bool) {r r' : BrokerRun} {now : Int}
    {t fromCursor : String} {subject consumer : Option String} (hr : r.Consistent)
    (hcount : r.broker.state.nextSubscription < u64Max) (hnone : r.past.published t = [])
    (hs : r.step semver (.subscribe now t fromCursor subject consumer) = some r') :
    r'.broker.state.WholeAt r'.past (subId (r.broker.state.nextSubscription + 1)) := by
  have hordered := hr.ordered
  have hunused := Nat.lt_succ_self r.broker.state.nextSubscription
  cases step_move hs with
  | stay =>
    intro sub hsub
    rw [hordered.unused_none hunused] at hsub
    cases hsub
  | prune u =>
    intro sub hsub
    rw [InProcessBroker.prune_state, (hordered.prune _ _ _).unused_none (by simp)] at hsub
    cases hsub
  | deliver hpub => cases hpub
  | @add _ _ _ _ _ start =>
    have hname := newSubscription_id hcount now t start subject consumer
    have hbuffer : (r.broker.prune t now).state.buffers t = [] := by
      have hsuffix := (hordered.prune t r.broker.config.retentionWindow now).suffix t
      rw [hnone] at hsuffix
      exact suffix_nil.1 hsuffix
    have hqueue : (r.broker.newSubscription now t start subject consumer).queue = [] := by
      simp only [InProcessBroker.newSubscription, hbuffer]
      rfl
    intro sub hsub
    rw [InProcessBroker.subscribed_state hcount] at hsub
    simp only [BrokerState.addSubscription, hname, update_self, Option.some.injEq] at hsub
    subst hsub
    have hgot := hordered.unopened _ (hordered.unused _ hunused).1
    refine ⟨?_, ?_⟩
    · simp only [Ghost.enroll, hgot, hqueue, nil_append]
      rw [show (r.broker.newSubscription now t start subject consumer).eventType = t from rfl,
        hnone]
      rfl
    · rw [hqueue]
      exact nil_subset _

namespace DurableBroker

variable {semver : String → Bool} {c : RecordCodec TraverseEvent} {base : Nat}
  {w w' : DurableBroker InProcessBroker} {r : BrokerRun} {id : String}

/-- Both views of the subscription `id` along a run. -/
structure Agreeing (c : RecordCodec TraverseEvent) (base : Nat) (id : String) (o : Opened)
    (w : DurableBroker InProcessBroker) (r : BrokerRun) : Prop where
  coupled : Coupled c base w r
  mirrored : Mirrored w r
  opened : r.past.opened id = some o
  whole : r.broker.state.WholeAt r.past id

variable {o : Opened}

theorem Agreeing.step (h : Agreeing c base id o w r) {a : Step}
    (ha : Served semver id w a ∧ Unrepeated w a) (hs : w.step c (inProcess semver) a = some w') :
    Agreeing c base id o w' (shadow semver w r a) := by
  obtain ⟨⟨hcalm, horder, hroom, htimely⟩, hnew⟩ := ha
  refine ⟨h.coupled.step hcalm horder hs, h.mirrored.step h.coupled hcalm hnew hs,
    shadow_opened h.coupled.consistent h.coupled.broker horder h.opened, ?_⟩
  cases hcall : w.wrappedCall a with
  | none =>
    rw [shadow_none hcall]
    exact h.whole
  | some b =>
    exact BrokerRun.whole_step h.whole h.coupled.consistent
      ((horder b hcall).of_broker h.coupled.broker) ((hroom b hcall).of_broker h.coupled.broker)
      ((htimely b hcall).of_broker h.coupled.broker) ⟨o, h.opened⟩ (step_shadow semver r hcall)

/-- What was published after a later position is the rest of what was published. -/
theorem Coupled.publishedAfter_filter (h : Coupled c base w r) (t : String)
    (subject : Option String) (after : Nat) :
    (publishedAfter r t subject after).map (·.shown) =
      ((publishedAfter r t subject base).map (·.shown)).filter fun e => after < e.number := by
  rw [filter_map]
  refine congrArg _ ?_
  rw [publishedAfter, publishedAfter, filter_filter]
  refine filter_congr fun x hx => ?_
  obtain ⟨hbase, _, hnumber⟩ := h.cursor_lt hx
  simp only [comp_apply, hnumber, hbase, decide_true, Bool.true_and]

/-- The subscription has received or holds everything published of its type and subject. -/
theorem Agreeing.delivered (h : Agreeing c base id o w r) {sub : SubscriptionState}
    (hsub : w.inner.state.subscriptions id = some sub) :
    received w.livePolls id ++ sub.queue.map (·.shown) =
      (publishedAfter r o.eventType o.subject base).map (·.shown) := by
  have hsub' : r.broker.state.subscriptions id = some sub := h.coupled.broker ▸ hsub
  obtain ⟨htype, hsubject⟩ := h.coupled.consistent.ordered.opened_eventType hsub' h.opened
  have hall := (h.whole sub hsub').all
  rw [htype, hsubject] at hall
  have hpublished : publishedAfter r o.eventType o.subject base = r.past.got id ++ sub.queue := by
    rw [hall, publishedAfter]
    refine filter_congr fun x hx => ?_
    simp [(h.coupled.cursor_lt hx).1]
  rw [hpublished, map_append, h.coupled.received id]

/-- A live subscription that is opened before the first publish, is never over its queue bound and
lets nothing grow old in its queue: as long as hand-offs come in the order of the cursors and none
is discarded as a duplicate, what it has received and still holds is the log of its type and
subject, whenever no record is open; and a durable-mode subscription gets the same after its
cursor. -/
theorem live_and_replay_agree {catalog : EventCatalog} {config : BrokerConfig}
    {mode : EventValidationMode} {inner : InProcessBroker} {journal : JournalConfig} {timeout : Nat}
    {root : Root TraverseEvent} {earlier : List (Call TraverseEvent)}
    {w₀ w₁ : DurableBroker InProcessBroker} {before after : List Step} {now₀ : Int}
    {t fromCursor : String} {subject : Option String} {start : Nat} {sub : SubscriptionState}
    (hroot : LayoutRun c earlier root) (hnew : InProcessBroker.new catalog config mode = .ok inner)
    (hopen : openBroker c (inProcess semver) journal timeout root inner = some w₀)
    (hbefore : run (step c (inProcess semver)) w₀ before = some w₁)
    (hfirst : ∀ call, w₁.calls call = none)
    (hlive : (w₁.subscribeForSubject c (inProcess semver) now₀ t fromCursor subject).1 =
      some (.ok ⟨id, t, start.repr⟩) ∧ isDurableId id = false)
    (halong : Along (step c (inProcess semver))
      (fun w a => Served semver id w a ∧ Unrepeated w a) w₀
      (before ++ .subscribe now₀ t fromCursor subject :: after))
    (hrun : run (step c (inProcess semver)) w₀
      (before ++ .subscribe now₀ t fromCursor subject :: after) = some w)
    (hsub : w.inner.state.subscriptions id = some sub) (hsettled : w.NothingOpen) :
    received w.livePolls id ++ sub.queue.map (·.shown) =
      history w.root.acks t subject root.acks.length ∧
    ∀ (durable : String) (cursor n : Nat) (now : Int), isDurableId durable = true →
      w.entries durable = some ⟨t, subject, cursor.repr⟩ → root.acks.length ≤ cursor →
      cursor < u64Max → w.poller = none → w.root.acks.length < n →
      Returns c (inProcess semver) w now durable n
        ((received w.livePolls id ++ sub.queue.map (·.shown)).filter fun e =>
          cursor < e.number) := by
  obtain ⟨r₁, h₁, hm₁⟩ : ∃ r, Coupled c root.acks.length w₁ r ∧ Mirrored w₁ r :=
    mirrored_run hroot hnew hopen (halong.left.mono fun _ _ h => ⟨h.1.1, h.1.2.1, h.2⟩) hbefore
  have hrest := halong.right hbefore
  rw [run_append, hbefore, Option.bind_some] at hrun
  cases hs₁ : w₁.step c (inProcess semver) (.subscribe now₀ t fromCursor subject) with
  | none => simp [run, hs₁] at hrun
  | some w₂ =>
    rw [run_cons_some _ _ hs₁] at hrun
    obtain ⟨⟨⟨hcalm, horder, _⟩, hunrepeated⟩, hafter⟩ := hrest
    obtain ⟨hid, o, ho, rfl, rfl, rfl⟩ := h₁.subscribed hlive.2 horder hlive.1
    have hstart : Agreeing c root.acks.length id o w₂
        (shadow semver w₁ r₁ (.subscribe now₀ o.eventType fromCursor o.subject)) := by
      refine ⟨h₁.step hcalm horder hs₁, hm₁.step h₁ hcalm hunrepeated hs₁, ho, ?_⟩
      -- nothing has been published, so nothing is missing
      have hnone : r₁.past.published o.eventType = [] := by
        refine eq_nil_iff_forall_not_mem.2 fun x hx => ?_
        obtain ⟨call, _, hcall⟩ := h₁.vouched _ x hx
        rw [hfirst call] at hcall
        cases hcall
      rw [hid]
      have hcount : r₁.broker.state.nextSubscription < u64Max := h₁.broker ▸ horder _ rfl
      exact BrokerRun.whole_subscribe semver h₁.consistent hcount hnone rfl
    obtain ⟨r, h⟩ : ∃ r, Agreeing c root.acks.length id o w r := by
      refine invariant (fun w => ∃ r, Agreeing c root.acks.length id o w r) ?_
        ⟨_, hstart⟩ (hafter _ hs₁) hrun
      rintro v a v' ⟨r, h⟩ ha hs
      exact ⟨_, h.step ha hs⟩
    constructor
    · rw [h.delivered hsub, history_eq h.coupled h.mirrored hsettled _ _ (Nat.le_refl _)]
    · intro durable cursor n now hdurable hentry hbase hlt hpoller hn
      rw [h.delivered hsub, ← h.coupled.publishedAfter_filter,
        ← history_eq h.coupled h.mirrored hsettled _ _ hbase]
      exact durable_returns h.coupled.tracked hpoller hdurable hentry hlt hn now

/-! ## Two orders, seen from both sides -/

/-- The subscriber that has received everything. -/
def idle : SubscriptionState := ⟨"sub-1", ordersType, none, none, 2, []⟩

theorem live_and_replay_agree_follower : ∃ w₀ w : DurableBroker InProcessBroker,
    openBroker eventCodec ordersOps .default 2000 .empty ordersBroker = some w₀ ∧
    run (step eventCodec ordersOps) w₀
      (follower 10 ++ [.subscribe 1000000000000 ordersType "1" none]) = some w ∧
    received w.livePolls "sub-1" = history w.root.acks ordersType none 0 ∧
    Returns eventCodec ordersOps w 1000000000000 "durable-sub-1" 10
      [⟨"2", orderCreated "evt-2"⟩] := by
  obtain ⟨w₀, w, hopen, hpath, hfirst, hsub, hsettled, hgot, hentry, hpoller, hlog⟩ :=
    exists_orders_path (P := Smooth) (D := fun w₀ w =>
        (w₀.subscribeForSubject eventCodec ordersOps 0 ordersType "0" none).1 =
          some (.ok ⟨"sub-1", ordersType, Nat.repr 0⟩) ∧
        w.inner.state.subscriptions "sub-1" = some idle ∧ w.NothingOpen ∧
        received w.livePolls "sub-1" =
          [⟨"1", orderCreated "evt-1"⟩, ⟨"2", orderCreated "evt-2"⟩] ∧
        w.entries "durable-sub-1" = some ⟨ordersType, none, "1"⟩ ∧
        w.poller.isNone = true ∧ w.root.acks.length < 10)
      (follower 10 ++ [.subscribe 1000000000000 ordersType "1" none])
      (by rw [eventCodec_eq]; decide +kernel)
  have hnone : ∀ call, w₀.calls call = none := by
    obtain ⟨_, _, _, _, _, rfl⟩ := openBroker_eq hopen
    exact fun _ => rfl
  obtain ⟨hhistory, hreturns⟩ := live_and_replay_agree layoutRun_nil ordersBroker_new hopen
    (run_nil _ _) hnone ⟨hfirst, by decide⟩ hpath.1 hpath.2 hsub hsettled
  have hlast := hreturns "durable-sub-1" 1 10 1000000000000 (by decide) hentry (by decide)
    (by decide) (Option.isNone_iff_eq_none.1 hpoller) hlog
  rw [hgot] at hlast
  exact ⟨w₀, w, hopen, hpath.2, (append_nil _).symm.trans hhistory, hlast⟩

/-! ## A duplicate -/

def afterAll : List Step :=
  follower 10 ++ undisturbed 2 (orderCreated "evt-2") 0 ++
    [.subscribe 1000000000000 ordersType "1" none]

/-- The wrapped broker reports the duplicate as published and does not deliver it; its record stays
in the journal, so that a durable-mode subscription gets the order twice. -/
theorem duplicate_replayed : ∃ w₀ w : DurableBroker InProcessBroker,
    openBroker eventCodec ordersOps .default 2000 .empty ordersBroker = some w₀ ∧
    Along (step eventCodec ordersOps) (Served (fun _ => true) "sub-1") w₀ afterAll ∧
    run (step eventCodec ordersOps) w₀ afterAll = some w ∧
    w.inner.state.subscriptions "sub-1" = some idle ∧
    received w.livePolls "sub-1" =
      [⟨"1", orderCreated "evt-1"⟩, ⟨"2", orderCreated "evt-2"⟩] ∧
    w.calls 2 = some (.returned (orderCreated "evt-2") (.ok ())) ∧
    Returns eventCodec ordersOps w 1000000000000 "durable-sub-1" 10
      [⟨"2", orderCreated "evt-2"⟩, ⟨"3", orderCreated "evt-2"⟩] := by
  obtain ⟨w₀, w, hopen, hpath, hidle, hgot, hcall, hentry, hpoller, hlog, hhistory⟩ :=
    exists_orders_path (P := Served (fun _ => true) "sub-1") (D := fun _ w =>
        w.inner.state.subscriptions "sub-1" = some idle ∧
        received w.livePolls "sub-1" =
          [⟨"1", orderCreated "evt-1"⟩, ⟨"2", orderCreated "evt-2"⟩] ∧
        w.calls 2 = some (.returned (orderCreated "evt-2") (.ok ())) ∧
        w.entries "durable-sub-1" = some ⟨ordersType, none, Nat.repr 1⟩ ∧
        w.poller.isNone = true ∧ w.root.acks.length < 10 ∧
        history w.root.acks ordersType none 1 =
          [⟨"2", orderCreated "evt-2"⟩, ⟨"3", orderCreated "evt-2"⟩])
      afterAll (by rw [eventCodec_eq]; decide +kernel)
  obtain ⟨r, hcoupled⟩ := coupled_run layoutRun_nil ordersBroker_new hopen
    (hpath.1.mono fun _ _ h => ⟨h.1, h.2.1⟩) hpath.2
  have hreturns : Returns eventCodec ordersOps w 1000000000000 "durable-sub-1" 10 _ :=
    durable_returns hcoupled.tracked (Option.isNone_iff_eq_none.1 hpoller) (by decide) hentry
      (by decide) hlog _
  rw [hhistory] at hreturns
  exact ⟨w₀, w, hopen, hpath.1, hpath.2, hidle, hgot, hcall, hreturns⟩

end DurableBroker

end Traverse.Events

import Traverse.Events.History

/-!
# Events.LiveOrder

Live subscriptions under concurrent publishers. The writer gives out the cursors, but each publish
call hands its event to the wrapped broker on its own, so a later record can get there first. A
consumer then sees its cursor go back, and one that resumes at the later cursor never gets the
earlier event (`handed_out_of_order`).

When the hand-offs come in the order of the cursors, every live subscription is in order, and
resuming at the last cursor that was received misses nothing (`live_order`). `Attended` is what
holds of the subscription along such a run.
-/

namespace Traverse.Events

open Decimal Journal List Function Machine

namespace DurableBroker

variable {semver : String → Bool} {c : RecordCodec TraverseEvent} {base : Nat}
  {w w' : DurableBroker InProcessBroker} {r : BrokerRun} {id : String}

/-! ## Order -/

theorem Coupled.received (h : Coupled c base w r) (id : String) :
    received w.livePolls id = (r.past.got id).map (·.shown) :=
  h.polls ▸ h.consistent.shown id

variable {x : BufferedEvent} {now : Int} {t fromCursor : String} {subject : Option String}
  {start : Nat} {o : Opened}

theorem Coupled.got_published (h : Coupled c base w r) (hx : x ∈ r.past.got id) :
    ∃ t, x ∈ r.past.published t := by
  cases ho : r.past.opened id with
  | none =>
    rw [h.consistent.ordered.unopened id ho] at hx
    cases hx
  | some o => exact ⟨o.eventType, ((h.consistent.ordered.received id o ho).2 x hx).1⟩

theorem Coupled.received_increasing (h : Coupled c base w r) (id : String) :
    (Events.received w.livePolls id).Pairwise fun e f => e.number < f.number := by
  have hgot : Increasing (r.past.got id) := by
    cases ho : r.past.opened id with
    | none =>
      rw [h.consistent.ordered.unopened id ho]
      exact List.Pairwise.nil
    | some o => exact (h.consistent.ordered.received id o ho).1
  rw [h.received id, pairwise_map]
  refine List.Pairwise.imp_of_mem ?_ hgot
  intro x y hx hy hxy
  obtain ⟨_, hx⟩ := h.got_published hx
  obtain ⟨_, hy⟩ := h.got_published hy
  rw [(h.cursor_lt hx).2.2, (h.cursor_lt hy).2.2]
  exact hxy

/-! ## One subscription along a run -/

/-- The subscription `id` is served by a broker that has everything that was acknowledged. -/
structure Attended (c : RecordCodec TraverseEvent) (base : Nat) (id : String)
    (w : DurableBroker InProcessBroker) (r : BrokerRun) : Prop where
  coupled : Coupled c base w r
  mirrored : Mirrored w r
  watched : r.Watched id

/-- The condition on the environment of the subscription `id`. -/
def Orderly (semver : String → Bool) (id : String) (w : DurableBroker InProcessBroker) (a : Step) :
    Prop :=
  (Calm w a ∧ InOrder w a) ∧ Unrepeated w a ∧ HasRoom semver id w a

theorem Attended.step (h : Attended c base id w r) {a : Step} (ha : Orderly semver id w a)
    (hs : w.step c (inProcess semver) a = some w') :
    Attended c base id w' (shadow semver w r a) where
  coupled := h.coupled.step ha.1.1 ha.1.2 hs
  mirrored := h.mirrored.step h.coupled ha.1.1 ha.2.1 hs
  watched := Watched.shadow h.watched h.coupled.broker ha.1.2 ha.2.2

theorem subscribed_live (hid : isDurableId id = false)
    (hsub : (w.subscribeForSubject c (inProcess semver) now t fromCursor subject).1 =
      some (.ok ⟨id, t, start.repr⟩)) :
    (w.inner.subscribeWithSubject now t fromCursor subject none).1 = .ok ⟨id, t, start.repr⟩ := by
  have hdurable : ∀ (v : DurableBroker InProcessBroker),
      (v.subscribeDurable c t fromCursor subject).1 ≠ some (.ok ⟨id, t, start.repr⟩) := by
    intro v hv
    have hname : isDurableId id = true := by
      unfold subscribeDurable at hv
      split at hv
      · cases hv
      simp only [] at hv
      split at hv
      · split at hv
        · cases hv
        · cases hv
          exact isDurableId_entry _
      · cases hv
      · cases hv
    rw [hid] at hname
    cases hname
  unfold subscribeForSubject at hsub
  split at hsub
  · rename_i hres
    cases hsub
    exact congrArg Prod.fst hres
  · exact absurd hsub (hdurable _)
  · cases hsub

/-- After a successful `subscribe` the subscription has its place in the past. -/
theorem Coupled.subscribed (h : Coupled c base w r) (hid : isDurableId id = false)
    (hrising : InOrder w (.subscribe now t fromCursor subject))
    (hsub : (w.subscribeForSubject c (inProcess semver) now t fromCursor subject).1 =
      some (.ok ⟨id, t, start.repr⟩)) :
    id = subId (r.broker.state.nextSubscription + 1) ∧
      ∃ o, (shadow semver w r (.subscribe now t fromCursor subject)).past.opened id = some o ∧
        o.eventType = t ∧ o.subject = subject ∧ o.start = start := by
  have hinner := subscribed_live hid hsub
  have hcount : r.broker.state.nextSubscription < u64Max := by
    rw [h.broker]
    exact hrising _ rfl
  simp only [shadow, wrappedCall, BrokerRun.step, Option.getD_some]
  rw [← h.broker] at hinner
  rcases r.broker.subscribeWithSubject_cases now t fromCursor subject none with
    ⟨_, _, hr⟩ | ⟨start', hparse, ⟨_, _, hr⟩ | ⟨_, hr⟩⟩
  · rw [hr] at hinner
    cases hinner
  · rw [hr] at hinner
    cases hinner
  · rw [saturatingSucc_of_lt hcount] at hr
    rw [hr, Except.ok.injEq, Subscription.mk.injEq] at hinner
    obtain ⟨rfl, _, hstart⟩ := hinner
    have hstart := repr_injective hstart
    subst hstart
    exact ⟨rfl, r.broker.opening t start' subject,
      by simp [InProcessBroker.enrolled, hr, hparse, Ghost.enroll], rfl, rfl, rfl⟩

/-! ## Resuming -/

theorem Mirrored.acknowledged (hm : Mirrored w r) (h : Coupled c base w r) {call k : Nat}
    {event : TraverseEvent} (hret : w.calls call = some (.returned event (.ok ())))
    (ho : w.owner k.repr = some call) :
    ∃ x ∈ r.past.published event.eventType, x.event = event ∧ x.cursor = k := by
  obtain ⟨x, hx, he, hxo⟩ := hm call event hret
  exact ⟨x, hx, he, repr_injective (h.tracked.accounts.single _ _ call hxo ho)⟩

/-- Up to the last event received nothing is missing, except what had left the buffer before a
subscription from cursor 0 received anything. -/
theorem Attended.received_of_le (h : Attended c base id w r) (ho : r.past.opened id = some o)
    {last : BufferedEvent} (hlast : last ∈ r.past.got id) (hx : x ∈ r.past.published o.eventType)
    (hdue : o.atStart.Due x) (hle : x.cursor ≤ last.cursor)
    (hretained : o.start = 0 → x ∈ w.inner.state.buffers o.eventType) : x ∈ r.past.got id := by
  have hordered := h.coupled.consistent.ordered
  have hbefore : (∀ y ∈ r.past.got id, y.cursor < x.cursor) → x ∈ r.past.got id := by
    intro hall
    exact absurd (hall last hlast) (Nat.not_lt.2 hle)
  rcases h.watched.gapless o ho x hx hdue with hgot | hlater | ⟨hzero, _⟩
  · exact hgot
  · exact hbefore hlater
  · have hbuffer := hretained hzero
    rw [← h.coupled.broker] at hbuffer
    rcases (h.watched.complete o ho).owed x hbuffer (hordered.due_of_atStart ho x hdue) with
      hgot | hlater
    · exact hgot
    · exact hbefore hlater

/-- What the consumer gets when it subscribes again from the last cursor it received. -/
theorem Attended.resume (h : Attended c base id w r) (ho : r.past.opened id = some o)
    {last : BrokerEvent} (hlast : (Events.received w.livePolls id).getLast? = some last)
    (hreg : w.inner.catalog.get o.eventType ≠ none)
    (hcount : w.inner.state.nextSubscription < u64Max)
    (hfits : BrokerState.Fits w.inner now o.eventType last.number o.subject)
    (hs : w.step c (inProcess semver) (.subscribe now o.eventType last.cursor o.subject) =
      some w') :
    ∃ sub events, (w.subscribeForSubject c (inProcess semver) now o.eventType last.cursor
        o.subject).1 = some (.ok sub) ∧
      (∀ n, w.root.acks.length < n →
        Returns c (inProcess semver) w' now sub.subscriptionId n events) ∧
      ∀ call event k, w.calls call = some (.returned event (.ok ())) →
        w.owner k.repr = some call → event.eventType = o.eventType →
        subjectMatches o.subject event = true → o.start < k →
        (o.start = 0 → k ≤ last.number → ∃ x ∈ w.inner.state.buffers o.eventType, x.cursor = k) →
        ⟨k.repr, event⟩ ∈ Events.received w.livePolls id ∨ ⟨k.repr, event⟩ ∈ events := by
  have hordered := h.coupled.consistent.ordered
  -- the last event received, as the wrapped broker has it
  rw [h.coupled.received id, List.getLast?_map, Option.map_eq_some_iff] at hlast
  obtain ⟨y, hy, rfl⟩ := hlast
  have hgot : y ∈ r.past.got id := mem_of_getLast? hy
  have hpub := ((hordered.received id o ho).2 y hgot).1
  obtain ⟨hbase, hle, hnumber⟩ := h.coupled.cursor_lt hpub
  have hlt := h.coupled.tracked.logged.length_lt
  rw [hnumber] at hfits ⊢
  obtain ⟨sub, hsub⟩ := subscribe_ok semver h.coupled.tracked now o.subject hreg
    (show y.cursor < u64Max by omega)
  obtain ⟨events, hreturns, hevents⟩ := subscribe_returns h.coupled (by omega) (by omega) hcount
    hfits hs hsub
  refine ⟨sub, events, hsub, hreturns, fun call event k hret howner htype hsubject hstart hold =>
    ?_⟩
  obtain ⟨x, hx, rfl, rfl⟩ := h.mirrored.acknowledged h.coupled hret howner
  rw [htype] at hx
  by_cases hk : x.cursor ≤ y.cursor
  · refine .inl ?_
    rw [h.coupled.received id]
    refine mem_map.2 ⟨x, h.received_of_le ho hgot hx ⟨hstart, hsubject⟩ hk fun hzero => ?_, rfl⟩
    obtain ⟨x', hx', hcursor⟩ := hold hzero hk
    have hpub' : x' ∈ r.past.published o.eventType :=
      hordered.mem_published (h.coupled.broker ▸ hx')
    exact (hordered.increasing o.eventType).eq_of_cursor hpub' hx hcursor ▸ hx'
  · refine .inr ?_
    have hafter : x ∈ publishedAfter r o.eventType o.subject y.cursor :=
      mem_filter.2 ⟨hx, by simp [hsubject]; omega⟩
    rcases hevents with rfl | ⟨_, rfl⟩
    · exact h.coupled.mem_history hafter
    · exact mem_map_of_mem hafter

variable {catalog : EventCatalog} {config : BrokerConfig} {mode : EventValidationMode}
  {inner : InProcessBroker} {journal : JournalConfig} {timeout : Nat} {root : Root TraverseEvent}
  {earlier : List (Call TraverseEvent)} {w₀ : DurableBroker InProcessBroker} {steps : List Step}
  (hroot : LayoutRun c earlier root) (hnew : InProcessBroker.new catalog config mode = .ok inner)
  (hopen : openBroker c (inProcess semver) journal timeout root inner = some w₀)
  (halong : Along (step c (inProcess semver)) (fun w a => Calm w a ∧ InOrder w a) w₀ steps)
  (hrun : run (step c (inProcess semver)) w₀ steps = some w)

include hroot hnew hopen halong hrun in
/-- Whatever a live subscription has received comes from a publish call that has returned Ok, and
has the cursor of the record of that call. -/
theorem live_received_acknowledged :
    ∀ id, ∀ e ∈ received w.livePolls id, ∃ call, w.owner e.cursor = some call ∧
      w.calls call = some (.returned e.event (.ok ())) := by
  obtain ⟨r, h⟩ := coupled_run hroot hnew hopen halong hrun
  intro id e he
  rw [h.received] at he
  obtain ⟨x, hx, rfl⟩ := mem_map.1 he
  obtain ⟨t, ht⟩ := h.got_published hx
  exact h.vouched t x ht

theorem live_received_acknowledged_follower : ∃ w₀ w : DurableBroker InProcessBroker,
    openBroker eventCodec ordersOps .default 2000 .empty ordersBroker = some w₀ ∧
    run (step eventCodec ordersOps) w₀ (follower 1) = some w ∧
    ∃ call, w.owner "1" = some call ∧
      w.calls call = some (.returned (orderCreated "evt-1") (.ok ())) := by
  obtain ⟨w₀, w, hopen, hpath, hgot⟩ := exists_orders_path (P := Smooth)
    (D := fun _ w => ⟨"1", orderCreated "evt-1"⟩ ∈ received w.livePolls "sub-1") (follower 1)
    (by rw [eventCodec_eq]; decide +kernel)
  exact ⟨w₀, w, hopen, hpath.2, live_received_acknowledged layoutRun_nil ordersBroker_new hopen
    (hpath.1.mono fun _ _ h => ⟨h.1.1, h.1.2.1⟩) hpath.2 "sub-1" _ hgot⟩

include hroot hnew hopen halong hrun in
/-- While the hand-offs come in the order of the cursors, every live subscription receives
increasing cursors. If moreover nothing is discarded as a duplicate and the queue of a subscription
has room, then a consumer that subscribes again from the last cursor it received gets every
acknowledged event that it has not received: of what came before that cursor, it can only miss what
a first subscription from cursor 0 no longer found in memory. -/
theorem live_order :
    (∀ id, (received w.livePolls id).Pairwise fun e f => e.number < f.number) ∧
    ∀ {before after : List Step} {w₁ : DurableBroker InProcessBroker} {now₀ now : Int}
      {t fromCursor id : String} {subject : Option String} {start : Nat} {last : BrokerEvent},
      steps = before ++ .subscribe now₀ t fromCursor subject :: after →
      run (step c (inProcess semver)) w₀ before = some w₁ →
      (w₁.subscribeForSubject c (inProcess semver) now₀ t fromCursor subject).1 =
        some (.ok ⟨id, t, start.repr⟩) →
      isDurableId id = false →
      Along (step c (inProcess semver)) (fun w a => Unrepeated w a ∧ HasRoom semver id w a)
        w₀ steps →
      (received w.livePolls id).getLast? = some last →
      w.inner.catalog.get t ≠ none → w.inner.state.nextSubscription < u64Max →
      BrokerState.Fits w.inner now t last.number subject →
      w.step c (inProcess semver) (.subscribe now t last.cursor subject) = some w' →
      ∃ sub events, (w.subscribeForSubject c (inProcess semver) now t last.cursor subject).1 =
          some (.ok sub) ∧
        (∀ n, w.root.acks.length < n →
          Returns c (inProcess semver) w' now sub.subscriptionId n events) ∧
        ∀ call event k, w.calls call = some (.returned event (.ok ())) →
          w.owner k.repr = some call → event.eventType = t →
          subjectMatches subject event = true → start < k →
          (start = 0 → k ≤ last.number → ∃ x ∈ w.inner.state.buffers t, x.cursor = k) →
          ⟨k.repr, event⟩ ∈ received w.livePolls id ∨ ⟨k.repr, event⟩ ∈ events := by
  constructor
  · obtain ⟨r, h⟩ := coupled_run hroot hnew hopen halong hrun
    exact h.received_increasing
  · intro before after w₁ now₀ now t fromCursor id subject start last hsplit hbefore hsub hlive
      hmore
    subst hsplit
    have horderly := halong.and hmore
    -- up to the first subscription
    obtain ⟨r₁, h₁⟩ : ∃ r, Attended c root.acks.length id w₁ r := by
      have hcoupled := coupled_open hroot hnew hopen
      refine invariant (fun w => ∃ r, Attended c root.acks.length id w r) ?_
        ⟨_, hcoupled, ?_, hcoupled.consistent, nofun, nofun⟩ horderly.left hbefore
      · rintro v a v' ⟨r, h⟩ ha hs
        exact ⟨_, h.step ha hs⟩
      · obtain ⟨_, _, _, _, _, rfl⟩ := openBroker_eq hopen
        exact mirrored_start
    -- the subscription, and what follows
    have hrest := horderly.right hbefore
    rw [run_append, hbefore, Option.bind_some] at hrun
    cases hs₁ : w₁.step c (inProcess semver) (.subscribe now₀ t fromCursor subject) with
    | none => simp [run, hs₁] at hrun
    | some w₂ =>
      rw [run_cons_some _ _ hs₁] at hrun
      obtain ⟨_, o, ho, rfl, rfl, rfl⟩ := h₁.coupled.subscribed hlive hrest.1.1.2 hsub
      obtain ⟨r, h, hopened⟩ : ∃ r, Attended c root.acks.length id w r ∧
          r.past.opened id = some o := by
        refine invariant (fun w => ∃ r, Attended c root.acks.length id w r ∧
          r.past.opened id = some o) ?_ ⟨_, h₁.step hrest.1 hs₁, ho⟩ (hrest.2 _ hs₁) hrun
        rintro v a v' ⟨r, h, hopened⟩ ha hs
        exact ⟨_, h.step ha hs,
          shadow_opened h.coupled.consistent h.coupled.broker ha.1.2 hopened⟩
      exact fun hlast hreg hcount hfits hs => h.resume hopened hlast hreg hcount hfits hs

/-! ## One order received, the other outstanding -/

/-- The consumer that has received the first order cancels, comes back and gets the second. -/
theorem live_order_follower : ∃ w₀ w w' : DurableBroker InProcessBroker,
    openBroker eventCodec ordersOps .default 2000 .empty ordersBroker = some w₀ ∧
    run (step eventCodec ordersOps) w₀ (follower 1 ++ [.cancel "sub-1"]) = some w ∧
    (received w.livePolls "sub-1").Pairwise (fun e f => e.number < f.number) ∧
    received w.livePolls "sub-1" = [⟨"1", orderCreated "evt-1"⟩] ∧
    w.step eventCodec ordersOps (.subscribe 0 ordersType "1" none) = some w' ∧
    ∃ sub events, (w.subscribeForSubject eventCodec ordersOps 0 ordersType "1" none).1 =
        some (.ok sub) ∧
      Returns eventCodec ordersOps w' 0 sub.subscriptionId 10 events ∧
      ⟨"2", orderCreated "evt-2"⟩ ∈ events := by
  obtain ⟨w₀, w, hopen, hpath, hfirst, hgot, hreg, hcount, hfits, hlog, hcall, howner, w', hs, -⟩ :=
    exists_orders_path (P := Smooth) (D := fun w₀ w =>
        (w₀.subscribeForSubject eventCodec ordersOps 0 ordersType "0" none).1 =
          some (.ok ⟨"sub-1", ordersType, Nat.repr 0⟩) ∧
        received w.livePolls "sub-1" = [⟨"1", orderCreated "evt-1"⟩] ∧
        w.inner.catalog.get ordersType ≠ none ∧
        w.inner.state.nextSubscription < u64Max ∧
        BrokerState.Fits w.inner 0 ordersType 1 none ∧ w.root.acks.length < 10 ∧
        w.calls 1 = some (.returned (orderCreated "evt-2") (.ok ())) ∧ w.owner "2" = some 1 ∧
        ∃ w', w.step eventCodec ordersOps (.subscribe 0 ordersType "1" none) =
          some w' ∧ True)
      (follower 1 ++ [.cancel "sub-1"]) (by rw [eventCodec_eq]; decide +kernel)
  obtain ⟨hincreasing, hresume⟩ := live_order layoutRun_nil ordersBroker_new hopen
    (hpath.1.mono fun _ _ h => ⟨h.1.1, h.1.2.1⟩) hpath.2
  obtain ⟨sub, events, hok, hreturns, hall⟩ := hresume
    (show follower 1 ++ [.cancel "sub-1"] = [] ++ .subscribe 0 ordersType "0" none :: _
      from rfl) rfl hfirst (by decide)
    (hpath.1.mono fun _ _ h => ⟨h.2, h.1.2.2.1⟩)
    (show _ = some ⟨"1", orderCreated "evt-1"⟩ by rw [hgot]; rfl) hreg hcount hfits hs
  refine ⟨w₀, w, w', hopen, hpath.2, hincreasing "sub-1", hgot, hs, sub, events, hok,
    hreturns 10 hlog, ?_⟩
  have hsecond := hall 1 (orderCreated "evt-2") 2 hcall howner rfl rfl (by decide)
    (fun _ hle => absurd hle (by decide))
  refine hsecond.resolve_left fun hmem => ?_
  rw [hgot] at hmem
  have hcursor := congrArg BrokerEvent.cursor (mem_singleton.1 hmem)
  exact absurd hcursor (by decide)

/-! ## The second order overtakes the first -/

/-- Both calls have their cursors, and the second one hands its event over first. -/
def overtaking : List Step :=
  .subscribe 0 ordersType "0" none :: (stage 0 (orderCreated "evt-1") ++
    stage 1 (orderCreated "evt-2") ++ [.handOff 1 0])

/-- Cursor 2 reaches the wrapped broker before cursor 1. A subscriber that polls after both gets
them in that order; one that polls in between and resumes at cursor 2 never gets the first order,
which was acknowledged and is in the buffer. -/
theorem handed_out_of_order : ∃ w₀ w v v' : DurableBroker InProcessBroker,
    openBroker eventCodec ordersOps .default 2000 .empty ordersBroker = some w₀ ∧
    Along (step eventCodec ordersOps) Calm w₀
      (overtaking ++ [.handOff 0 0, .pollLive 0 "sub-1" 10]) ∧
    run (step eventCodec ordersOps) w₀
      (overtaking ++ [.handOff 0 0, .pollLive 0 "sub-1" 10]) = some w ∧
    received w.livePolls "sub-1" =
      [⟨"2", orderCreated "evt-2"⟩, ⟨"1", orderCreated "evt-1"⟩] ∧
    Along (step eventCodec ordersOps) Calm w₀
      (overtaking ++ [.pollLive 0 "sub-1" 10, .handOff 0 0, .cancel "sub-1"]) ∧
    run (step eventCodec ordersOps) w₀
      (overtaking ++ [.pollLive 0 "sub-1" 10, .handOff 0 0, .cancel "sub-1"]) = some v ∧
    received v.livePolls "sub-1" = [⟨"2", orderCreated "evt-2"⟩] ∧
    v.owner "1" = some 0 ∧ v.calls 0 = some (.returned (orderCreated "evt-1") (.ok ())) ∧
    ⟨1, 0, orderCreated "evt-1"⟩ ∈ v.inner.state.buffers ordersType ∧
    (v.subscribeForSubject eventCodec ordersOps 0 ordersType "2" none).1 =
      some (.ok ⟨"sub-2", ordersType, "2"⟩) ∧
    v.step eventCodec ordersOps (.subscribe 0 ordersType "2" none) = some v' ∧
    Returns eventCodec ordersOps v' 0 "sub-2" 10 [] := by
  obtain ⟨w₀, w, hopen, hlast, hback⟩ := exists_orders_path (P := Calm)
    (D := fun _ w => received w.livePolls "sub-1" =
      [⟨"2", orderCreated "evt-2"⟩, ⟨"1", orderCreated "evt-1"⟩])
    (overtaking ++ [.handOff 0 0, .pollLive 0 "sub-1" 10]) (by rw [eventCodec_eq]; decide +kernel)
  obtain ⟨w₀', v, hopen', hbetween, hgot, howner, hcall, hbuffer, v', hs, hsub, hpoll⟩ :=
    exists_orders_path (P := Calm) (D := fun _ v =>
        received v.livePolls "sub-1" = [⟨"2", orderCreated "evt-2"⟩] ∧
        v.owner "1" = some 0 ∧ v.calls 0 = some (.returned (orderCreated "evt-1") (.ok ())) ∧
        ⟨1, 0, orderCreated "evt-1"⟩ ∈ v.inner.state.buffers ordersType ∧
        ∃ v', v.step eventCodec ordersOps (.subscribe 0 ordersType "2" none) =
            some v' ∧
          (v.subscribeForSubject eventCodec ordersOps 0 ordersType "2" none).1 =
            some (.ok ⟨"sub-2", ordersType, "2"⟩) ∧
          (v'.inner.poll 0 "sub-2" 10).1 = .ok ⟨"sub-2", ordersType, "2", []⟩)
      (overtaking ++ [.pollLive 0 "sub-1" 10, .handOff 0 0, .cancel "sub-1"])
      (by rw [eventCodec_eq]; decide +kernel)
  cases hopen.symm.trans hopen'
  exact ⟨w₀, w, v, v', hopen, hlast.1, hlast.2, hback, hbetween.1, hbetween.2, hgot, howner, hcall,
    hbuffer, hsub, hs, live_returns ⟨"sub-2", ordersType, "2", []⟩ (by decide) rfl
      (Prod.ext hpoll rfl)⟩

end DurableBroker

end Traverse.Events

import Traverse.Events.BrokerRun
import Traverse.Events.Surfacing

/-!
# Events.Wrapped

The in-process broker inside a `DurableBroker`. A step of the durable broker makes one call on the
wrapped broker or none (`wrappedCall`), so a run of the durable broker takes a run of the wrapped
one along (`shadow`).

* `Coupled`: what the wrapped broker has accepted belongs to calls that returned Ok, under the
  cursor of their record. It needs the hand-offs to come in the order of the cursors (`InOrder`).
* `Mirrored`: conversely, whatever returned Ok has been accepted. It needs that no event is
  discarded as a duplicate (`Unrepeated`).
-/

namespace Traverse.Events

open Decimal Journal List Function DurableBroker Machine

/-- The event that a durable broker hands over. -/
def BrokerCall.handedOver : BrokerCall → Option (Int × TraverseEvent)
  | .publishWithCursor now event _ => some (now, event)
  | _ => none

namespace BrokerRun

/-- Nothing in the queue of subscription `id` has expired. -/
def Timely (id : String) (r : BrokerRun) (b : BrokerCall) : Prop :=
  ∀ now ∈ b.reading, ∀ sub, r.broker.state.subscriptions id = some sub →
    ∀ x ∈ sub.queue, expired r.broker.config.retentionWindow now x = false
  deriving Decidable

variable {semver : String → Bool} {r r' : BrokerRun} {b : BrokerCall}

theorem Rising.of_broker (h : r.Rising b) (hb : r'.broker = r.broker) : r'.Rising b := by
  cases b <;> first | trivial | simpa only [Rising, hb] using h

variable {id : String}

theorem HasRoom.of_broker (h : r.HasRoom semver id b) (hb : r'.broker = r.broker) :
    r'.HasRoom semver id b := by
  cases b <;> first | trivial | simpa only [HasRoom, hb] using h

theorem Timely.of_broker (h : r.Timely id b) (hb : r'.broker = r.broker) : r'.Timely id b := by
  unfold Timely
  rw [hb]
  exact h

theorem opened_step (h : r.Consistent) (hb : r.Rising b) (hs : r.step semver b = some r')
    {o : Opened} (ho : r.past.opened id = some o) : r'.past.opened id = some o := by
  cases step_move hs with
  | add =>
    have hid : id ≠ subId (r.broker.state.nextSubscription + 1) := by
      rintro rfl
      rw [(h.ordered.unused _ (Nat.lt_succ_self _)).1] at ho
      cases ho
    simpa [saturatingSucc_of_lt hb, Ghost.enroll, hid] using ho
  | stay | prune | deliver | refuse | serve | forget => exact ho

/-- Only `seed_restart_floor` changes the floor. -/
theorem step_restartFloor (hs : r.step semver b = some r') :
    r'.broker.state.restartFloor = r.broker.state.restartFloor := by
  cases step_move hs with
  | stay | forget => rfl
  | prune | deliver | add | refuse | serve => exact BrokerState.pruneExpired_restartFloor _ _ _ _

theorem published_publishAll {g : Ghost} {x : Option BufferedEvent} {t : String}
    {y : BufferedEvent} :
    y ∈ (g.publishAll x).published t ↔ y ∈ g.published t ∨
      (x = some y ∧ y.event.eventType = t) := by
  cases x with
  | none => simp
  | some x =>
    refine Ghost.mem_publish.trans (or_congr_right ?_)
    constructor
    · rintro ⟨rfl, rfl⟩
      exact ⟨rfl, rfl⟩
    · rintro ⟨⟨⟩, rfl⟩
      exact ⟨rfl, rfl⟩

end BrokerRun

namespace DurableBroker

/-! ## The calls on the wrapped broker -/

variable (w : DurableBroker InProcessBroker)

/-- The call that a step makes on the wrapped broker. -/
def wrappedCall : Step → Option BrokerCall
  | .handOff call now =>
    match w.calls call with
    | some (.delivering event cursor) => some (.publishWithCursor now event cursor)
    | _ => none
  | .subscribe now eventType fromCursor subject =>
    some (.subscribe now eventType fromCursor subject none)
  | .pollLive now id maxEvents => some (.poll now id maxEvents)
  | .cancel id => if isDurableId id then none else some (.cancel id)
  | _ => none

/-- The run of the wrapped broker after a step of the durable one. -/
def shadow (semver : String → Bool) (w : DurableBroker InProcessBroker) (r : BrokerRun)
    (a : Step) : BrokerRun :=
  match w.wrappedCall a with
  | none => r
  | some b => (r.step semver b).getD r

/-- Events come to the wrapped broker in the order of their cursors, and subscriptions have new
numbers. -/
def InOrder (a : Step) : Prop :=
  ∀ b ∈ w.wrappedCall a, (BrokerRun.start w.inner).Rising b
  deriving Decidable

/-- The wrapped broker does not take the event for one that it retains. -/
def Unrepeated (a : Step) : Prop :=
  ∀ now event cursor, w.wrappedCall a = some (.publishWithCursor now event cursor) →
    event.id ∉ (w.inner.prune event.eventType now).state.seenEventIds event.eventType

instance (a : Step) : Decidable (Unrepeated w a) :=
  decidable_of_iff (∀ p, (w.wrappedCall a).bind BrokerCall.handedOver = some p →
      p.2.id ∉ (w.inner.prune p.2.eventType p.1).state.seenEventIds p.2.eventType) <| by
    constructor
    · intro h now event cursor hb
      exact h (now, event) (by rw [hb]; rfl)
    · rintro h p hp
      obtain ⟨b, hb, hover⟩ := Option.bind_eq_some_iff.1 hp
      cases b with
      | publishWithCursor now event cursor =>
        cases hover
        exact h now event cursor hb
      | publish | subscribe | poll | cancel => cases hover

/-- The queue of the live subscription `id` has room for what is about to go into it. -/
def HasRoom (semver : String → Bool) (id : String) (w : DurableBroker InProcessBroker) (a : Step) :
    Prop :=
  ∀ b ∈ w.wrappedCall a, (BrokerRun.start w.inner).HasRoom semver id b
  deriving Decidable

/-- No event stays in the queue of the live subscription `id` past the retention window. -/
def Timely (id : String) (w : DurableBroker InProcessBroker) (a : Step) : Prop :=
  ∀ b ∈ w.wrappedCall a, (BrokerRun.start w.inner).Timely id b
  deriving Decidable

/-- The live subscription `id` is served in order, with room and in time. -/
def Served (semver : String → Bool) (id : String) (w : DurableBroker InProcessBroker) (a : Step) :
    Prop :=
  Calm w a ∧ InOrder w a ∧ HasRoom semver id w a ∧ Timely id w a
  deriving Decidable

variable {semver : String → Bool} {c : RecordCodec TraverseEvent} {base : Nat}
  {w w' : DurableBroker InProcessBroker} {r : BrokerRun} {a : Step}

variable {id : String} {b : BrokerCall} {event : TraverseEvent} {catalog : EventCatalog}
  {config : BrokerConfig} {mode : EventValidationMode} {inner : InProcessBroker}
  {journal : JournalConfig} {timeout : Nat} {root : Root TraverseEvent}
  {earlier : List (Call TraverseEvent)}

theorem shadow_none (h : w.wrappedCall a = none) : shadow semver w r a = r := by
  simp [shadow, h]

theorem step_shadow (semver : String → Bool) (r : BrokerRun) (h : w.wrappedCall a = some b) :
    r.step semver b = some (shadow semver w r a) := by
  have htotal : ∃ r', r.step semver b = some r' := by
    cases b <;> exact ⟨_, rfl⟩
  obtain ⟨r', hr'⟩ := htotal
  simp [shadow, h, hr']

/-- A step without a call leaves the wrapped broker alone; a step with one makes that call. -/
theorem shadow_follows (hs : w.step c (inProcess semver) a = some w') (hb : r.broker = w.inner)
    (hp : r.polls = w.livePolls) :
    (shadow semver w r a).broker = w'.inner ∧ (shadow semver w r a).polls = w'.livePolls := by
  have hsame : w.wrappedCall a = none → w'.inner = w.inner ∧ w'.livePolls = w.livePolls →
      (shadow semver w r a).broker = w'.inner ∧ (shadow semver w r a).polls = w'.livePolls := by
    rintro hnone ⟨hinner, hpolls⟩
    rw [shadow_none hnone, hinner, hpolls]
    exact ⟨hb, hp⟩
  cases hc : a.consumer with
  | false =>
    obtain ⟨hapart, hinner⟩ := step_apart hs hc
    cases takes_of_step hs with
    | @handOff call now event cursor hcall =>
      unfold handOff
      simp only [shadow, wrappedCall, hcall, BrokerRun.step, hb, inProcess]
      cases w.inner.publishWithCursor semver now event cursor with
      | mk result b => cases result <;> exact ⟨rfl, hp⟩
    | publish | settle | sendRevoke | settleRevoke | receive | append | acknowledge | revoke
    | acknowledgeRevoke => exact hsame rfl ⟨hinner nofun, hapart.livePolls⟩
    | subscribe | pollLive | pollDurable | pollRead | cancel => cases hc
  | true =>
    cases takes_of_step hs with
    | subscribe =>
      obtain ⟨_, _, _, _, heq⟩ := subscribe_eq c (inProcess semver) w _ _ _ _
      rw [heq, shadow, wrappedCall, ← hp]
      simp only [BrokerRun.step, hb]
      exact ⟨rfl, rfl⟩
    | @pollLive now id maxEvents =>
      unfold pollLive
      simp only [shadow, wrappedCall, BrokerRun.step, hb, hp, inProcess]
      cases w.inner.poll now id maxEvents with
      | mk result b => cases result <;> simp [Except.toOption]
    | pollDurable =>
      refine hsame rfl ?_
      unfold pollDurable
      split
      · exact ⟨rfl, rfl⟩
      · split <;> exact ⟨rfl, rfl⟩
    | pollRead =>
      refine hsame rfl ?_
      unfold pollRead
      simp only []
      split
      · unfold takeBatch
        simp only []
        split <;> exact ⟨rfl, rfl⟩
      · exact ⟨rfl, rfl⟩
    | @cancel id =>
      unfold cancel
      by_cases hid : isDurableId id = true
      · rw [if_pos hid, shadow_none (by simp [wrappedCall, hid])]
        exact ⟨hb, hp⟩
      · rw [if_neg hid]
        simp [shadow, wrappedCall, hid, BrokerRun.step, hb, hp, inProcess]
    | publish | settle | handOff | sendRevoke | settleRevoke | receive | append | acknowledge
    | revoke | acknowledgeRevoke => cases hc

/-! ## What the wrapped broker accepts -/

/-- The event that a step adds to the wrapped broker. -/
def handed (semver : String → Bool) (w : DurableBroker InProcessBroker) : Step →
    Option BufferedEvent
  | .handOff call now =>
    match w.calls call with
    | some (.delivering event cursor) =>
      match parseCursor cursor with
      | .ok k => w.inner.accepted now semver event (some k)
      | .error _ => none
    | _ => none
  | _ => none

theorem handed_cases {x : BufferedEvent} (h : w.handed semver a = some x) :
    ∃ call now cursor k, a = .handOff call now ∧
      w.calls call = some (.delivering x.event cursor) ∧ parseCursor cursor = .ok k ∧
      x.cursor = k ∧ (w.inner.publishWithCursor semver now x.event cursor).1 = .ok () := by
  cases a with
  | handOff call now =>
    simp only [handed] at h
    split at h
    · rename_i event cursor hcall
      split at h
      · rename_i k hparse
        obtain ⟨rfl, hpublish⟩ := InProcessBroker.publishInternal_accepted h
        refine ⟨call, now, cursor, k, rfl, hcall, hparse, rfl, ?_⟩
        rw [InProcessBroker.publishWithCursor, hparse]
        exact congrArg Prod.fst hpublish
      · cases h
    · cases h
  | _ => cases h

theorem shadow_published (hb : r.broker = w.inner) :
    (shadow semver w r a).past.published = (r.past.publishAll (w.handed semver a)).published := by
  cases a with
  | handOff call now =>
    by_cases hd : ∃ event cursor, w.calls call = some (.delivering event cursor)
    · obtain ⟨event, cursor, hcall⟩ := hd
      simp only [shadow, wrappedCall, handed, hcall, BrokerRun.step, Option.getD_some, hb]
      cases parseCursor cursor <;> rfl
    have hcall : w.wrappedCall (.handOff call now) = none := by
      simp only [wrappedCall]
      split
      · rename_i event cursor hcall
        exact absurd ⟨event, cursor, hcall⟩ hd
      · rfl
    have hnone : w.handed semver (.handOff call now) = none := by
      simp only [handed]
      split
      · rename_i event cursor hcall
        exact absurd ⟨event, cursor, hcall⟩ hd
      · rfl
    rw [shadow_none hcall, hnone]
    rfl
  | subscribe now eventType fromCursor subject =>
    simp only [shadow, wrappedCall, BrokerRun.step, Option.getD_some, handed, Ghost.publishAll_none,
      InProcessBroker.enrolled]
    split <;> rfl
  | cancel id =>
    by_cases hid : isDurableId id = true
    · rw [shadow_none (by simp [wrappedCall, hid])]
      rfl
    · simp [shadow, wrappedCall, hid, BrokerRun.step, handed]
  | _ => rfl

theorem returned_ok_cases {call : Nat} (hs : w.step c (inProcess semver) a = some w')
    (h : w'.calls call = some (.returned event (.ok ()))) :
    w.calls call = some (.returned event (.ok ())) ∨
      ∃ now cursor, a = .handOff call now ∧ w.calls call = some (.delivering event cursor) ∧
        (w.inner.publishWithCursor semver now event cursor).1 = .ok () := by
  rcases step_calls hs with hsame | ⟨q, phase, hcalls, _, hended⟩
  · exact .inl (hsame ▸ h)
  rw [hcalls] at h
  obtain ⟨rfl, hphase⟩ | ⟨_, hold⟩ := update_eq_some h
  · obtain ⟨now, cursor, rfl, hcall, hok⟩ := hended event (Option.some.inj hphase)
    exact .inr ⟨now, cursor, rfl, hcall, hok⟩
  · exact .inl hold

/-! ## The wrapped broker and the log -/

section Records

variable {β : Type} {v v' : DurableBroker β} {call : Nat} {cursor : String}

theorem Tracked.owner_follows (h : Tracked c base v) (hf : Follows v v')
    (ho : v.owner cursor = some call) : v'.owner cursor = some call := by
  rcases hf with he | m
  · have howner : v'.owner = v.owner := congrArg Protocol.owner he
    rw [howner]
    exact ho
  · exact h.accounts.owner_mono m ho

theorem returned_follows (hf : Follows v v') {result : Except EventError Unit}
    (h : v.calls call = some (.returned event result)) :
    v'.calls call = some (.returned event result) := by
  rcases hf with he | m
  · have hcalls : v'.calls = v.calls := congrArg Protocol.calls he
    rw [hcalls]
    exact h
  · exact m.returned h

theorem Tracked.record (h : Tracked c base v) {phase : PublishCall}
    (ho : v.owner cursor = some call) (hp : v.calls call = some phase) :
    ∃ a ∈ v.root.acks.drop base, a.cursor = cursor ∧ a.event = some phase.event := by
  obtain ⟨a, ha, hc, event, he, phase', hp', hevent⟩ := h.accounts.held cursor call ho
  have hsame : phase' = phase := by
    rw [show v.protocol.calls call = v.calls call from rfl, hp, Option.some.injEq] at hp'
    exact hp'.symm
  subst hsame
  exact ⟨a, ha, hc, by rw [he, hevent]⟩

/-- The wrapped broker reads the cursor of a record as the number of the record. -/
theorem Tracked.repr_parsed (h : Tracked c base v) (ho : v.owner cursor = some call) {k : Nat}
    (hparse : parseCursor cursor = .ok k) : cursor = k.repr := by
  obtain ⟨n, rfl, hn⟩ := h.accounts.owner_le ho
  have hn : n ≤ v.root.acks.length := hn
  rw [parseCursor_repr (by have := h.logged.length_lt; omega), Except.ok.injEq] at hparse
  rw [hparse]

theorem Tracked.base_lt (h : Tracked c base v) {a : Ack TraverseEvent}
    (ha : a ∈ v.root.acks.drop base) : base < a.seq := by
  obtain ⟨i, hi, hget⟩ := getElem_of_mem ha
  rw [getElem_drop] at hget
  have hlt : base + i < v.root.acks.length := by
    rw [length_drop] at hi
    omega
  have hsome : v.root.acks[base + i]? = some a := by
    rw [List.getElem?_eq_getElem hlt, hget]
  rw [h.logged.seq_getElem hsome]
  omega

theorem Tracked.mem_drop (h : Tracked c base v) {a : Ack TraverseEvent} (ha : a ∈ v.root.acks)
    (hbase : base < a.seq) : a ∈ v.root.acks.drop base := by
  obtain ⟨i, hi, rfl⟩ := getElem_of_mem ha
  rw [h.logged.seq_getElem (List.getElem?_eq_getElem hi)] at hbase
  refine mem_iff_getElem?.2 ⟨i - base, ?_⟩
  rw [List.getElem?_drop, show base + (i - base) = i by omega, List.getElem?_eq_getElem hi]

end Records

/-- The durable broker `w` with the run `r` of the broker it wraps. -/
structure Coupled (c : RecordCodec TraverseEvent) (base : Nat) (w : DurableBroker InProcessBroker)
    (r : BrokerRun) : Prop where
  tracked : Tracked c base w
  broker : r.broker = w.inner
  polls : r.polls = w.livePolls
  consistent : r.Consistent
  floor : base ≤ w.inner.state.restartFloor
  /-- A record of this broker with an event is not a revocation. -/
  plain : ∀ a ∈ w.root.acks.drop base, a.event.isSome → a.revokes = none
  vouched : ∀ t, ∀ x ∈ r.past.published t, ∃ call, w.owner x.cursor.repr = some call ∧
    w.calls call = some (.returned x.event (.ok ()))

theorem Coupled.plain_follows (h : Coupled c base w r) (hf : Follows w w') :
    ∀ a ∈ w'.root.acks.drop base, a.event.isSome → a.revokes = none := by
  rcases hf with he | m
  · have hlog : w'.root.acks = w.root.acks := congrArg Protocol.log he
    rw [hlog]
    exact h.plain
  have hle : base ≤ w.root.acks.length := h.tracked.accounts.length
  rcases m.log with ⟨hl, _⟩ | ⟨event, _, _, _, _, _, hl⟩ | ⟨n, _, _, _, _, _, hl⟩
  · rw [show w'.root.acks = w.root.acks from hl]
    exact h.plain
  all_goals
    rw [show w'.root.acks = w.root.acks ++ _ from hl, drop_append_of_le_length hle]
    intro a ha hsome
    rcases mem_append.1 ha with ha | ha
    · exact h.plain a ha hsome
    rw [mem_singleton] at ha
    subst ha
    first | rfl | cases hsome

theorem Coupled.step (h : Coupled c base w r) (hcalm : Calm w a) (horder : InOrder w a)
    (hs : w.step c (inProcess semver) a = some w') : Coupled c base w' (shadow semver w r a) := by
  obtain ⟨htracked, hf⟩ := h.tracked.step hcalm.1 hcalm.2 hs
  obtain ⟨hbroker, hpolls⟩ := shadow_follows hs h.broker h.polls
  have hinner : (shadow semver w r a).Consistent ∧
      (shadow semver w r a).broker.state.restartFloor = r.broker.state.restartFloor := by
    cases hcall : w.wrappedCall a with
    | none =>
      rw [shadow_none hcall]
      exact ⟨h.consistent, rfl⟩
    | some b =>
      have hstep := step_shadow semver r hcall
      exact ⟨h.consistent.step ((horder b hcall).of_broker h.broker) hstep,
        BrokerRun.step_restartFloor hstep⟩
  refine ⟨htracked, hbroker, hpolls, hinner.1, ?_, ?_, ?_⟩
  · rw [← hbroker, hinner.2, h.broker]
    exact h.floor
  · exact h.plain_follows hf
  · intro t x hx
    rw [shadow_published h.broker, BrokerRun.published_publishAll] at hx
    rcases hx with hx | ⟨hx, _⟩
    · obtain ⟨call, ho, hret⟩ := h.vouched t x hx
      exact ⟨call, h.tracked.owner_follows hf ho, returned_follows hf hret⟩
    obtain ⟨call, now, cursor, k, rfl, hcall, hparse, hk, hpublish⟩ := handed_cases hx
    have ho := (h.tracked.accounts.delivering call x.event cursor hcall).1
    refine ⟨call, ?_, ?_⟩
    · rw [hk, ← h.tracked.repr_parsed ho hparse]
      exact h.tracked.owner_follows hf ho
    · cases takes_of_step hs with
      | handOff hcall' =>
        rw [hcall, Option.some.injEq, PublishCall.delivering.injEq] at hcall'
        obtain ⟨rfl, rfl⟩ := hcall'
        have hres : (inProcess semver).publishWithCursor w.inner now x.event cursor =
            (.ok (), (w.inner.publishWithCursor semver now x.event cursor).2) :=
          Prod.ext hpublish rfl
        simp [handOff, hres, setCall]

/-- Every event whose call returned Ok has been accepted by the wrapped broker. -/
def Mirrored (w : DurableBroker InProcessBroker) (r : BrokerRun) : Prop :=
  ∀ call event, w.calls call = some (.returned event (.ok ())) →
    ∃ x ∈ r.past.published event.eventType, x.event = event ∧ w.owner x.cursor.repr = some call

/-- What the wrapped broker reports as published is new to it or a duplicate. -/
theorem accepted_of_ok {b : InProcessBroker} {now : Int} {cursor : String}
    (hok : (b.publishWithCursor semver now event cursor).1 = .ok ())
    (hnew : event.id ∉ (b.prune event.eventType now).state.seenEventIds event.eventType) :
    ∃ k x, parseCursor cursor = .ok k ∧ b.accepted now semver event (some k) = some x ∧
      x.cursor = k ∧ x.event = event := by
  unfold InProcessBroker.publishWithCursor at hok
  split at hok
  · cases hok
  rename_i k hparse
  refine ⟨k, (b.prune event.eventType now).item now event (some k), hparse, ?_, rfl, rfl⟩
  unfold InProcessBroker.publishInternal at hok
  unfold InProcessBroker.accepted
  cases hgate : b.gate semver event with
  | error e => simp [hgate] at hok
  | ok => exact if_neg hnew

theorem Mirrored.step (h : Mirrored w r) (hc : Coupled c base w r) (hcalm : Calm w a)
    (hnew : Unrepeated w a) (hs : w.step c (inProcess semver) a = some w') :
    Mirrored w' (shadow semver w r a) := by
  obtain ⟨_, hf⟩ := hc.tracked.step hcalm.1 hcalm.2 hs
  intro call event hret
  rcases returned_ok_cases hs hret with hret | ⟨now, cursor, rfl, hcall, hok⟩
  · obtain ⟨x, hx, he, ho⟩ := h call event hret
    refine ⟨x, ?_, he, hc.tracked.owner_follows hf ho⟩
    rw [shadow_published hc.broker, BrokerRun.published_publishAll]
    exact .inl hx
  · obtain ⟨k, x, hparse, haccepted, hk, he⟩ :=
      accepted_of_ok hok (hnew now event cursor (by simp [wrappedCall, hcall]))
    have ho := (hc.tracked.accounts.delivering call event cursor hcall).1
    refine ⟨x, ?_, he, ?_⟩
    · rw [shadow_published hc.broker, BrokerRun.published_publishAll]
      exact .inr ⟨by simp [handed, hcall, hparse, haccepted], by rw [he]⟩
    · rw [hk, ← hc.tracked.repr_parsed ho hparse]
      exact hc.tracked.owner_follows hf ho

theorem Watched.shadow (h : r.Watched id) (hb : r.broker = w.inner) (horder : InOrder w a)
    (hroom : HasRoom semver id w a) : (shadow semver w r a).Watched id := by
  cases hcall : w.wrappedCall a with
  | none =>
    rw [shadow_none hcall]
    exact h
  | some b =>
    exact h.step ((horder b hcall).of_broker hb) ((hroom b hcall).of_broker hb)
      (step_shadow semver r hcall)

theorem shadow_opened (h : r.Consistent) (hb : r.broker = w.inner) (horder : InOrder w a)
    {o : Opened} (ho : r.past.opened id = some o) :
    (shadow semver w r a).past.opened id = some o := by
  cases hcall : w.wrappedCall a with
  | none =>
    rw [shadow_none hcall]
    exact ho
  | some b =>
    exact BrokerRun.opened_step h ((horder b hcall).of_broker hb) (step_shadow semver r hcall) ho

/-! ## Opening -/

section

variable (hroot : LayoutRun c earlier root)
  (hnew : InProcessBroker.new catalog config mode = .ok inner)

include hroot hnew

theorem coupled_open (hopen : openBroker c (inProcess semver) journal timeout root inner = some w) :
    Coupled c root.acks.length w (.start w.inner) := by
  have htracked := tracked_open hroot hopen
  obtain ⟨root', j, _, hj, hacks, rfl⟩ := openBroker_eq hopen
  have hnext := htracked.logged.nextSeq hj
  refine ⟨htracked, rfl, rfl, ⟨?_, fun _ => rfl⟩, ?_, ?_, nofun⟩
  · have hstate := (InProcessBroker.new_state hnew).1
    have hordered := BrokerState.ordered_default
    rw [← hstate] at hordered
    exact hordered.seed _
  · have hfloor : root.acks.length = j.latestCursor := by
      rw [DurableEventJournal.latestCursor, hnext, ← hacks]
      rfl
    rw [hfloor]
    exact Nat.le_max_right _ _
  · rw [show (new _ root' timeout).root.acks = root.acks from hacks, drop_length]
    nofun

theorem coupled_run {w₀ : DurableBroker InProcessBroker} {steps : List Step}
    (hopen : openBroker c (inProcess semver) journal timeout root inner = some w₀)
    (halong : Along (step c (inProcess semver)) (fun w a => Calm w a ∧ InOrder w a) w₀ steps)
    (hrun : run (step c (inProcess semver)) w₀ steps = some w) :
    ∃ r, Coupled c root.acks.length w r := by
  refine invariant (fun w => ∃ r, Coupled c root.acks.length w r) ?_
    ⟨_, coupled_open hroot hnew hopen⟩ halong hrun
  rintro v a v' ⟨r, h⟩ ⟨hcalm, horder⟩ hs
  exact ⟨_, h.step hcalm horder hs⟩

end

theorem mirrored_start : Mirrored (new inner root timeout) (.start inner) :=
  nofun

end DurableBroker

end Traverse.Events

import Traverse.Events.Feed

/-!
# Events.Complete

A subscription whose queue has room gets everything it is due. `Complete` says so for one
subscription, in terms of what it has received, what was published, what the buffer retains and
what its queue holds: a due event is received, queued, or older than everything retained, and a
due event that is retained and not received lies after everything received. The changes of a
broker keep it as long as the queue is not full when an event arrives.

`Gapless` is about what has been received: nothing is skipped once the subscription has a cursor,
because `validateFromCursor` refuses a poll whose cursor lies before a lost event.
-/

namespace Traverse.Events

open Decimal List Function
open InProcessBroker (item trimmedQueue)

/-- Older than everything retained and everything queued. -/
def Lost (buffer queue : List BufferedEvent) (x : BufferedEvent) : Prop :=
  (∀ y ∈ buffer, x.cursor < y.cursor) ∧ ∀ y ∈ queue, x.cursor < y.cursor

structure Complete (o : Opened) (got published buffer : List BufferedEvent)
    (queue : Option (List BufferedEvent)) : Prop where
  owed : ∀ x ∈ buffer, o.Due x → x ∈ got ∨ ∀ y ∈ got, y.cursor < x.cursor
  live : ∀ q ∈ queue, ∀ x ∈ published, o.Due x → x ∈ got ∨ x ∈ q ∨ Lost buffer q x

namespace Complete

variable {o : Opened} {got published buffer : List BufferedEvent}
  {queue : Option (List BufferedEvent)} {q : List BufferedEvent}

section

variable (h : Complete o got published buffer queue)

include h

theorem prune {kept : List BufferedEvent}
    (hinc : Increasing buffer) (hkept : kept <:+ buffer) (hqueue : ∀ q ∈ queue, Increasing q) :
    Complete o got published kept (queue.map (trimmedQueue kept)) where
  owed := fun x hx => h.owed x (hkept.subset hx)
  live := by
    intro q' hq' x hx hdue
    obtain ⟨q, hq, rfl⟩ := Option.map_eq_some_iff.1 hq'
    rcases h.live q hq x hx hdue with hgot | hmem | ⟨hbelow, hfront⟩
    · exact .inl hgot
    · -- what the trimming takes away is older than the oldest event kept
      by_cases habove : ∀ oldest ∈ kept.head?, oldest.cursor ≤ x.cursor
      · exact .inr (.inl (BrokerState.mem_trimmedQueue hmem habove))
      push Not at habove
      obtain ⟨oldest, ho, hlt⟩ := habove
      refine .inr (.inr ⟨fun y hy => ?_, fun y hy => ?_⟩)
      · exact Nat.lt_of_lt_of_le hlt (BrokerState.head_le (hinc.sublist hkept.sublist) hy oldest ho)
      · exact Nat.lt_of_lt_of_le hlt (BrokerState.le_of_mem_trimmedQueue (hqueue q hq) ho hy)
    · exact .inr (.inr ⟨fun y hy => hbelow y (hkept.subset hy), fun y hy =>
        hfront y ((BrokerState.trimmedQueue_sublist _ _).subset hy)⟩)

theorem forget :
    Complete o got published buffer none where
  owed := h.owed
  live := fun _ hq => by cases hq

theorem mono {o' : Opened}
    (hdue : ∀ x, o'.Due x → o.Due x) : Complete o' got published buffer queue where
  owed := fun x hx hx' => h.owed x hx (hdue x hx')
  live := fun q hq x hx hx' => h.live q hq x hx (hdue x hx')

theorem deliver {x : BufferedEvent} (hgot : got ⊆ published)
    (hnew : ∀ y ∈ published, y.cursor < x.cursor) {queue' : Option (List BufferedEvent)}
    (hqueue : ∀ q' ∈ queue', ∃ q ∈ queue, q ⊆ q' ∧ q' ⊆ q ++ [x] ∧ (o.Due x → x ∈ q')) :
    Complete o got (published ++ [x]) (buffer ++ [x]) queue' where
  owed := by
    intro y hy hdue
    rcases mem_append.1 hy with hy | hy
    · exact h.owed y hy hdue
    · rw [mem_singleton.1 hy]
      exact .inr fun z hz => hnew z (hgot hz)
  live := by
    intro q' hq' y hy hdue
    obtain ⟨q, hq, hqq, hqx, hx⟩ := hqueue q' hq'
    rcases mem_append.1 hy with hy | hy
    · rcases h.live q hq y hy hdue with hgot | hmem | ⟨hbelow, hfront⟩
      · exact .inl hgot
      · exact .inr (.inl (hqq hmem))
      refine .inr (.inr ⟨fun z hz => ?_, fun z hz => ?_⟩)
      · rcases mem_append.1 hz with hz | hz
        · exact hbelow z hz
        · rw [mem_singleton.1 hz]
          exact hnew y hy
      · rcases mem_append.1 (hqx hz) with hz | hz
        · exact hfront z hz
        · rw [mem_singleton.1 hz]
          exact hnew y hy
    · rw [mem_singleton.1 hy] at hdue ⊢
      exact .inr (.inl (hx hdue))

end

theorem serve (h : Complete o got published buffer (some q)) (hinc : Increasing (got ++ q))
    (hsub : buffer ⊆ published) (n : Nat) :
    Complete o (got ++ q.take n) published buffer (some (q.drop n)) := by
  have hsplit : ∀ x ∈ q, x ∈ q.take n ∨ x ∈ q.drop n := by
    intro x hx
    rw [← take_append_drop n q] at hx
    exact mem_append.1 hx
  -- what stays queued comes after what was received and after what is taken now
  have hafter : ∀ x ∈ q.drop n, ∀ y ∈ got ++ q.take n, y.cursor < x.cursor := by
    rw [← take_append_drop n q, ← append_assoc] at hinc
    intro x hx y hy
    exact (pairwise_append.1 hinc).2.2 y hy x hx
  constructor
  · intro x hx hdue
    rcases h.live q rfl x (hsub hx) hdue with hgot | hmem | hbelow
    · exact .inl (mem_append_left _ hgot)
    · rcases hsplit x hmem with hmem | hmem
      · exact .inl (mem_append_right _ hmem)
      · exact .inr (hafter x hmem)
    · exact absurd (hbelow.1 x hx) (Nat.lt_irrefl _)
  · intro q' hq' x hx hdue
    cases hq'
    rcases h.live q rfl x hx hdue with hgot | hmem | hbelow
    · exact .inl (mem_append_left _ hgot)
    · rcases hsplit x hmem with hmem | hmem
      · exact .inl (mem_append_right _ hmem)
      · exact .inr (.inl hmem)
    · exact .inr (.inr ⟨hbelow.1, fun y hy => hbelow.2 y (mem_of_mem_drop hy)⟩)

end Complete

/-- A due event that was not received lies after everything received; or it was lost before the
first event was received, by a subscription that asked for whatever is retained. -/
def Gapless (o : Opened) (got published : List BufferedEvent) : Prop :=
  ∀ x ∈ published, o.Due x → x ∈ got ∨ (∀ y ∈ got, y.cursor < x.cursor) ∨
    (o.start = 0 ∧ ∀ y ∈ got, x.cursor < y.cursor)

theorem Gapless.publish {o : Opened} {got published : List BufferedEvent} {x : BufferedEvent}
    (h : Gapless o got published) (hx : ∀ y ∈ got, y.cursor < x.cursor) :
    Gapless o got (published ++ [x]) := by
  intro y hy hdue
  rcases mem_append.1 hy with hy | hy
  · exact h y hy hdue
  · rw [mem_singleton.1 hy]
    exact .inr (.inl hx)

theorem Opened.position_of_ne_nil (o : Opened) {got : List BufferedEvent} (h : got ≠ []) :
    ∃ x ∈ got, o.position got = x.cursor :=
  ⟨got.getLast h, getLast_mem h, by simp [Opened.position, List.getLast?_eq_some_getLast h]⟩

/-- A poll that is let through leaves no gap: a lost event lies at or before the position. -/
theorem Gapless.serve {o : Opened} {got published buffer q : List BufferedEvent}
    (h : Gapless o got published) (hc : Complete o got published buffer (some q))
    (hinc : Increasing (got ++ q)) (hgot : ∀ x ∈ got, 0 < x.cursor) (hstart : o.floor = o.start)
    (hvalid : o.position got = 0 ∨ ∀ x ∈ published, (∀ y ∈ buffer, x.cursor < y.cursor) →
      x.cursor ≤ o.position got) (n : Nat) : Gapless o (got ++ q.take n) published := by
  have hafter : ∀ x ∈ q.drop n, ∀ y ∈ got ++ q.take n, y.cursor < x.cursor := by
    have hsplit := hinc
    rw [← take_append_drop n q, ← append_assoc] at hsplit
    intro x hx y hy
    exact (pairwise_append.1 hsplit).2.2 y hy x hx
  intro x hx hdue
  rcases hc.live q rfl x hx hdue with hmem | hmem | ⟨hbelow, hfront⟩
  · exact .inl (mem_append_left _ hmem)
  · rw [← take_append_drop n q] at hmem
    rcases mem_append.1 hmem with hmem | hmem
    · exact .inl (mem_append_right _ hmem)
    · exact .inr (.inl (hafter x hmem))
  · by_cases hempty : got = []
    · subst hempty
      -- nothing received yet: the position is the cursor the subscription was opened at
      have hpos : o.position [] = o.start := rfl
      have hfloor : o.floor < x.cursor := hdue.1
      rcases hvalid with hzero | hvalid
      · refine .inr (.inr ⟨hpos ▸ hzero, fun y hy => ?_⟩)
        exact hfront y (mem_of_mem_take (by simpa using hy))
      · have hle := hvalid x hx hbelow
        omega
    · obtain ⟨last, hlast, hpos⟩ := o.position_of_ne_nil hempty
      rcases h x hx hdue with hmem | hlater | ⟨hzero, hbefore⟩
      · exact .inl (mem_append_left _ hmem)
      · have hlt := hlater last hlast
        rcases hvalid with hzero | hvalid
        · have hpositive := hgot last hlast
          omega
        · have hle := hvalid x hx hbelow
          omega
      · refine .inr (.inr ⟨hzero, fun y hy => ?_⟩)
        rcases mem_append.1 hy with hy | hy
        · exact hbefore y hy
        · exact hfront y (mem_of_mem_take hy)

/-! ## In a broker -/

/-- The subscription `id` is complete, if it was ever opened. -/
def BrokerState.CompleteAt (s : BrokerState) (g : Ghost) (id : String) : Prop :=
  ∀ o, g.opened id = some o → Complete o (g.got id) (g.published o.eventType)
    (s.buffers o.eventType) ((s.subscriptions id).map (·.queue))

namespace BrokerState

variable {s : BrokerState} {g : Ghost} {id : String}

variable {sub : SubscriptionState} {o : Opened}

theorem Ordered.follows_opened (h : Ordered s g) (hsub : s.subscriptions id = some sub)
    (ho : g.opened id = some o) : sub.Follows o (g.got id) (g.published sub.eventType) := by
  obtain ⟨o', ho', hf⟩ := h.follows id sub hsub
  rw [ho, Option.some.injEq] at ho'
  exact ho' ▸ hf

theorem Ordered.opened_eventType (h : Ordered s g) (hsub : s.subscriptions id = some sub)
    (ho : g.opened id = some o) : sub.eventType = o.eventType ∧ sub.subjectId = o.subject :=
  have hf := h.follows_opened hsub ho
  ⟨hf.eventType, hf.subject⟩

theorem Ordered.got_subset (h : Ordered s g) (ho : g.opened id = some o) :
    g.got id ⊆ g.published o.eventType :=
  fun x hx => ((h.received id o ho).2 x hx).1

theorem Ordered.queue_increasing (h : Ordered s g) (hsub : s.subscriptions id = some sub) :
    Increasing sub.queue := by
  obtain ⟨o, _, hf⟩ := h.follows id sub hsub
  exact hf.increasing.sublist (sublist_append_right _ _)

theorem CompleteAt.prune (hc : CompleteAt s g id) (h : Ordered s g) (t : String) (window : Nat)
    (now : Int) : CompleteAt (s.pruneExpired t window now) g id := by
  intro o ho
  rw [pruneExpired_buffers, pruneExpired_subscriptions, h.eachSubscription, Option.map_map]
  cases hsub : s.subscriptions id with
  | none =>
    have hold := (hc o ho).forget
    by_cases ht : o.eventType = t
    · subst ht
      have hkept := hold.prune (h.buffer o.eventType) (s.kept_suffix o.eventType window now)
        (fun _ hq => by cases hq)
      simpa using hkept
    · simpa [ht] using hold
  | some sub =>
    have hold := hc o ho
    have htype := (h.opened_eventType hsub ho).1
    rw [hsub] at hold
    by_cases ht : o.eventType = t
    · subst ht
      have hkept := hold.prune (h.buffer o.eventType) (s.kept_suffix o.eventType window now)
        (fun q hq => by cases hq; exact h.queue_increasing hsub)
      simpa [htype] using hkept
    · simpa [ht, htype] using hold

/-- Room for the event in the queue of the subscription, if it takes the event. -/
def Room (s : BrokerState) (maxLen : Nat) (id : String) (event : TraverseEvent) : Prop :=
  ∀ sub, s.subscriptions id = some sub → sub.eventType = event.eventType →
    subjectMatches sub.subjectId event = true → sub.queue.length < maxLen
  deriving Decidable

theorem CompleteAt.deliver {b : InProcessBroker} (hc : CompleteAt b.state g id)
    (h : Ordered b.state g) {now : Int} {event : TraverseEvent} {assigned : Option Nat}
    (hk : b.state.nextCursor event.eventType < (b.item now event assigned).cursor)
    (hroom : b.state.Room b.config.maxQueueLen id event) :
    CompleteAt (b.deliver now event assigned).state (g.publish (b.item now event assigned)) id := by
  intro o ho
  rw [InProcessBroker.deliver_buffers, InProcessBroker.deliver_subscriptions, h.eachSubscription,
    Option.map_map]
  by_cases ht : o.eventType = event.eventType
  · have hold := hc o ho
    simp only [Ghost.publish, item, ht, update_self]
    rw [ht] at hold
    refine hold.deliver (ht ▸ h.got_subset ho) ?_ ?_
    · exact fun y hy => Nat.lt_of_le_of_lt (h.latest _ y hy) hk
    · intro q' hq'
      obtain ⟨sub, hsub, rfl⟩ := Option.map_eq_some_iff.1 hq'
      obtain ⟨htype, hsubject⟩ := h.opened_eventType hsub ho
      have hte : sub.eventType = event.eventType := htype.trans ht
      refine ⟨sub.queue, by simp [hsub], ?_, ?_, fun hdue => ?_⟩
      · by_cases hm : subjectMatches sub.subjectId event = true
        · simp [hte, hm, enqueue_of_lt (hroom sub hsub hte hm)]
        · simp [hte, hm]
      · by_cases hm : subjectMatches sub.subjectId event = true
        · simp only [comp_apply, hte, hm, if_true]
          exact (enqueue_sublist _ _ _).subset
        · simp [hte, hm]
      · have hm : subjectMatches sub.subjectId event = true := hsubject ▸ hdue.2
        simp [hte, hm, enqueueWithDropOldest]
  · have hold := hc o ho
    simp only [Ghost.publish, item, update_of_ne ht]
    cases hsub : b.state.subscriptions id with
    | none =>
      rw [hsub] at hold
      exact hold
    | some sub =>
      have htype := (h.opened_eventType hsub ho).1
      rw [hsub] at hold
      simpa [htype, ht] using hold

/-- A change of the map that leaves the subscription `id` alone. -/
theorem CompleteAt.congr {s' : BrokerState} {g' : Ghost} (hc : CompleteAt s g id)
    (hbuffers : s'.buffers = s.buffers) (hsub : s'.subscriptions id = s.subscriptions id)
    (hpub : g'.published = g.published) (hopened : g'.opened id = g.opened id)
    (hgot : g'.got id = g.got id) : CompleteAt s' g' id := by
  intro o ho
  rw [hopened] at ho
  rw [hbuffers, hsub, hpub, hgot]
  exact hc o ho

theorem CompleteAt.forget (hc : CompleteAt s g id) (i : String) (index : String → Finset String) :
    CompleteAt { s with
      subscriptions := update s.subscriptions i none
      subscriptionsByEventType := index } g id := by
  by_cases hi : id = i
  · subst hi
    intro o ho
    simpa using (hc o ho).forget
  · exact hc.congr rfl (update_of_ne hi _ _) rfl rfl rfl

/-! ## Operations -/

section Operations

variable {b : InProcessBroker} {now : Int}

/-- The backlog of a new subscription fits in its queue. -/
def Fits (b : InProcessBroker) (now : Int) (t : String) (start : Nat) (subject : Option String) :
    Prop :=
  (((b.prune t now).state.buffers t).filter fun item =>
    (start == 0 || decide (start < item.cursor)) && subjectMatches subject item.event).length ≤
      b.config.maxQueueLen
  deriving Decidable

variable {t : String}

theorem complete_newSubscription (h : Ordered b.state g) {start : Nat} {subject : Option String}
    (consumer : Option String) (hfits : Fits b now t start subject) :
    Complete (b.opening t start subject) [] (g.published t) ((b.prune t now).state.buffers t)
      (some (b.newSubscription now t start subject consumer).queue) where
  owed := fun _ _ _ => .inr fun _ hy => absurd hy not_mem_nil
  live := by
    intro q hq x hx hdue
    cases hq
    by_cases hmem : x ∈ (b.prune t now).state.buffers t
    · refine .inr (.inl ?_)
      rw [InProcessBroker.newSubscription, backlog, foldl_enqueue_of_le]
      have hlatest := h.latest t x hx
      have hfloor : min start (b.state.nextCursor t) < x.cursor := hdue.1
      have hstart : start < x.cursor := by omega
      have hsubject : subjectMatches subject x.event = true := hdue.2
      rw [nil_append, mem_filter]
      · exact ⟨hmem, by simp [hstart, hsubject]⟩
      · rw [length_nil, Nat.zero_add]
        exact hfits
    · have hbelow := (h.prune t b.config.retentionWindow now).below hx hmem
      exact .inr (.inr ⟨hbelow, fun y hy => hbelow y (mem_backlog hy).1⟩)

/-- A poll trims the queue it has taken out as pruning would have done in the map. -/
theorem CompleteAt.polled (hc : CompleteAt b.state g id) (now : Int) (h : Ordered b.state g)
    (hsub : b.state.subscriptions id = some sub) (ho : g.opened id = some o) :
    Complete o (g.got id) (g.published o.eventType)
      ((b.checked now id sub.eventType).buffers sub.eventType)
      (some (trimmedQueue ((b.checked now id sub.eventType).buffers sub.eventType) sub.queue)) := by
  have hkept : (b.checked now id sub.eventType).buffers sub.eventType =
      b.state.kept sub.eventType b.config.retentionWindow now := by
    simp [InProcessBroker.checked, kept]
  have htype := (h.opened_eventType hsub ho).1
  have hpruned := hc.prune h sub.eventType b.config.retentionWindow now o ho
  rw [pruneExpired_subscriptions, h.eachSubscription, hsub, pruneExpired_buffers, ← htype,
    update_self] at hpruned
  rw [← htype, hkept]
  simpa using hpruned

theorem CompleteAt.serve (hc : CompleteAt b.state g id) (h : Ordered b.state g)
    (hsub : b.state.subscriptions id = some sub) {queue : List BufferedEvent}
    (hqueue : queue = trimmedQueue ((b.checked now id sub.eventType).buffers sub.eventType)
      sub.queue) (maxEvents : Nat) :
    CompleteAt (b.polled now sub id queue maxEvents) (g.receive id (queue.take maxEvents)) id := by
  intro o ho
  have ho : g.opened id = some o := ho
  have hf := h.follows_opened hsub ho
  have hpolled := hc.polled now h hsub ho
  rw [← hqueue] at hpolled
  have hq : queue.Sublist sub.queue := hqueue ▸ trimmedQueue_sublist _ _
  have hserve := hpolled.serve (hf.increasing.sublist (hq.append_left _)) ?_ maxEvents
  · rw [← hf.eventType]
    rw [← hf.eventType] at hserve
    simpa [InProcessBroker.polled, Ghost.receive, h.named id sub hsub] using hserve
  · intro x hx
    rw [← hf.eventType]
    exact (h.checked now id sub.eventType).mem_published hx

/-! ## No gaps -/

/-- The subscription `id` is gapless above the cursor it was opened at. -/
def GaplessAt (g : Ghost) (id : String) : Prop :=
  ∀ o, g.opened id = some o → Gapless o.atStart (g.got id) (g.published o.eventType)

theorem Ordered.due_of_atStart (h : Ordered s g) (ho : g.opened id = some o) :
    ∀ x, o.atStart.Due x → o.Due x :=
  fun _ hx => ⟨Nat.lt_of_le_of_lt (h.floored id o ho).1 hx.1, hx.2⟩

theorem GaplessAt.publish (hgap : GaplessAt g id) (h : Ordered s g) {x : BufferedEvent}
    (hx : s.nextCursor x.event.eventType < x.cursor) : GaplessAt (g.publish x) id := by
  intro o ho
  have hold := hgap o ho
  by_cases ht : o.eventType = x.event.eventType
  · simp only [Ghost.publish, ← ht, update_self]
    refine hold.publish fun y hy => ?_
    have hle := h.latest _ y (h.got_subset ho hy)
    exact Nat.lt_of_le_of_lt hle (ht ▸ hx)
  · simpa [Ghost.publish, ht] using hold

theorem Ordered.lost_le (h : Ordered s g) {c : Nat} (hvalid : s.validateFromCursor t c = .ok ()) :
    c = 0 ∨ ∀ x ∈ g.published t, (∀ y ∈ s.buffers t, x.cursor < y.cursor) → x.cursor ≤ c := by
  unfold validateFromCursor at hvalid
  by_cases hc : c = 0
  · exact .inl hc
  rw [if_neg hc] at hvalid
  refine .inr fun x hx hbelow => ?_
  have hlatest := h.latest t x hx
  cases hb : s.buffers t with
  | nil =>
    simp only [hb, List.head?_nil] at hvalid
    split at hvalid
    · cases hvalid
    · omega
  | cons front rest =>
    have hfront := hbelow front (by simp [hb])
    simp only [hb, List.head?_cons] at hvalid
    split at hvalid
    · cases hvalid
    · omega

theorem GaplessAt.serve (hgap : GaplessAt g id) (hc : CompleteAt b.state g id)
    (h : Ordered b.state g) (hsub : b.state.subscriptions id = some sub)
    (hvalid : (b.checked now id sub.eventType).validateFromCursor sub.eventType sub.cursor = .ok ())
    {queue : List BufferedEvent}
    (hqueue : queue = trimmedQueue ((b.checked now id sub.eventType).buffers sub.eventType)
      sub.queue) (maxEvents : Nat) : GaplessAt (g.receive id (queue.take maxEvents)) id := by
  intro o ho
  have ho : g.opened id = some o := ho
  have hf := h.follows_opened hsub ho
  have hpolled := hc.polled now h hsub ho
  rw [← hqueue] at hpolled
  have hq : queue.Sublist sub.queue := hqueue ▸ trimmedQueue_sublist _ _
  have hlost := (h.checked now id sub.eventType).lost_le hvalid
  rw [hf.cursor, hf.eventType] at hlost
  rw [hf.eventType] at hpolled
  have hnext := (hgap o ho).serve (hpolled.mono (h.due_of_atStart ho))
    (hf.increasing.sublist (hq.append_left _))
    (fun x hx => h.positive _ x ((h.received id o ho).2 x hx).1) rfl hlost maxEvents
  simpa [Ghost.receive] using hnext

end Operations

end BrokerState

end Traverse.Events

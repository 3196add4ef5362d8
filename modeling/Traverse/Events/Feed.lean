import Mathlib.Data.List.TakeWhile
import Traverse.Events.Broker
import Traverse.Sys.Machine

/-!
# Events.Feed

What the in-process broker keeps for its subscribers. The feed of a subscription is what its polls
have returned, `got`, followed by its queue. As long as every event is handed to the broker with a
cursor above the earlier ones of its type, buffers and feeds are increasing (`Ordered`). Every
operation is a sequence of the few changes treated here.
-/

namespace Traverse.Events

open Decimal Text List Function Machine
open InProcessBroker (trimmedQueue)

def Increasing (items : List BufferedEvent) : Prop :=
  items.Pairwise fun x y => x.cursor < y.cursor

variable {items queue got published published' : List BufferedEvent} {x : BufferedEvent}
  {maxLen : Nat} {sub : SubscriptionState}

theorem Increasing.sublist {items' : List BufferedEvent} (h : Increasing items)
    (hs : items'.Sublist items) : Increasing items' :=
  List.Pairwise.sublist hs h

theorem Increasing.concat (h : Increasing items) (hx : ∀ y ∈ items, y.cursor < x.cursor) :
    Increasing (items ++ [x]) := by
  refine pairwise_append.2 ⟨h, pairwise_singleton _ _, ?_⟩
  intro y hy z hz
  rw [mem_singleton] at hz
  exact hz ▸ hx y hy

theorem Increasing.nodup (h : Increasing items) : (items.map (·.cursor)).Nodup :=
  List.Pairwise.imp (fun hlt => Nat.ne_of_lt hlt) (pairwise_map.2 h)

theorem Increasing.eq_of_cursor (h : Increasing items) {y : BufferedEvent} (hx : x ∈ items)
    (hy : y ∈ items) (hxy : x.cursor = y.cursor) : x = y :=
  inj_on_of_nodup_map h.nodup hx hy hxy

/-- Everything up to an element that does not match is dropped, and nothing after it. -/
theorem mem_dropWhile_of_not {α : Type} {p : α → Bool} {x : α} (hx : p x = false) :
    ∀ {l : List α}, x ∈ l → x ∈ l.dropWhile p := by
  intro l hl
  rw [← takeWhile_append_dropWhile (p := p) (l := l), mem_append] at hl
  rcases hl with hl | hl
  · rw [mem_takeWhile_imp hl] at hx
    cases hx
  · exact hl

theorem enqueue_of_lt (h : queue.length < maxLen) (item : BufferedEvent) :
    enqueueWithDropOldest maxLen queue item = queue ++ [item] := by
  rw [enqueueWithDropOldest, Nat.sub_eq_zero_of_le h, drop_zero]

theorem enqueue_sublist (maxLen : Nat) (queue : List BufferedEvent) (item : BufferedEvent) :
    (enqueueWithDropOldest maxLen queue item).Sublist (queue ++ [item]) :=
  (drop_sublist _ _).append_right _

theorem foldl_enqueue_sublist (maxLen : Nat) (items : List BufferedEvent) :
    ∀ queue, (items.foldl (enqueueWithDropOldest maxLen) queue).Sublist (queue ++ items) := by
  induction items with
  | nil =>
    intro queue
    simp
  | cons x items ih =>
    intro queue
    refine (ih _).trans ?_
    have hstep := (enqueue_sublist maxLen queue x).append_right items
    simpa using hstep

theorem foldl_enqueue_of_le (items : List BufferedEvent) :
    ∀ queue : List BufferedEvent, queue.length + items.length ≤ maxLen →
      items.foldl (enqueueWithDropOldest maxLen) queue = queue ++ items := by
  induction items with
  | nil =>
    intro queue _
    simp
  | cons x items ih =>
    intro queue hlen
    simp only [length_cons] at hlen
    rw [foldl_cons, enqueue_of_lt (by omega), ih _ (by simp; omega)]
    simp

theorem backlog_sublist (maxLen start : Nat) (subject : Option String)
    (buffer : List BufferedEvent) :
    (backlog maxLen start subject buffer).Sublist (buffer.filter fun item =>
      (start == 0 || decide (start < item.cursor)) && subjectMatches subject item.event) := by
  have hsub := foldl_enqueue_sublist maxLen (buffer.filter fun item =>
    (start == 0 || decide (start < item.cursor)) && subjectMatches subject item.event) []
  rwa [nil_append] at hsub

theorem mem_backlog {start : Nat} {subject : Option String} {buffer : List BufferedEvent}
    (hx : x ∈ backlog maxLen start subject buffer) :
    x ∈ buffer ∧ (start = 0 ∨ start < x.cursor) ∧ subjectMatches subject x.event = true := by
  have hmem := (backlog_sublist maxLen start subject buffer).subset hx
  simpa using hmem

/-! ## Names of subscriptions -/

def subId (k : Nat) : String := s!"sub-{k}"

theorem subId_injective {k m : Nat} (h : subId k = subId m) : k = m := by
  have hdigits : Nat.toDigits 10 k = Nat.toDigits 10 m := by
    simpa [subId, String.toList_append] using congrArg String.toList h
  exact repr_injective (by rw [Nat.repr, hdigits, Nat.repr])

/-! ## The order of buffers and feeds -/

/-- How a subscription was opened. It is due what was published above `floor`: its own cursor, or
the newest cursor of the type if that was lower. -/
structure Opened where
  eventType : String
  subject : Option String
  (start floor : Nat)

def Opened.Due (o : Opened) (x : BufferedEvent) : Prop :=
  o.floor < x.cursor ∧ subjectMatches o.subject x.event = true

/-- What is due, counted from the cursor that was asked for. -/
def Opened.atStart (o : Opened) : Opened := { o with floor := o.start }

/-- The cursor of a subscription that has received `got`. -/
def Opened.position (o : Opened) (got : List BufferedEvent) : Nat :=
  (got.getLast?.map (·.cursor)).getD o.start

/-- The past of a broker: what it accepted of each type, how each subscription was opened, and
what its polls have returned. -/
structure Ghost where
  published : String → List BufferedEvent
  opened : String → Option Opened
  got : String → List BufferedEvent

def Ghost.empty : Ghost := ⟨fun _ => [], fun _ => none, fun _ => []⟩

def Ghost.publish (g : Ghost) (x : BufferedEvent) : Ghost :=
  { g with
    published := update g.published x.event.eventType (g.published x.event.eventType ++ [x]) }

theorem Ghost.mem_publish {g : Ghost} {x y : BufferedEvent} {u : String} :
    y ∈ (g.publish x).published u ↔ y ∈ g.published u ∨ u = x.event.eventType ∧ y = x := by
  rw [publish]
  by_cases hu : u = x.event.eventType
  · simp [hu]
  · simp [hu]

def Ghost.enroll (g : Ghost) (id : String) (o : Opened) : Ghost :=
  { g with opened := update g.opened id (some o) }

def Ghost.receive (g : Ghost) (id : String) (out : List BufferedEvent) : Ghost :=
  { g with got := update g.got id (g.got id ++ out) }

/-- A subscription and its past. -/
structure SubscriptionState.Follows (sub : SubscriptionState) (o : Opened)
    (got published : List BufferedEvent) : Prop where
  eventType : sub.eventType = o.eventType
  subject : sub.subjectId = o.subject
  cursor : sub.cursor = o.position got
  increasing : Increasing (got ++ sub.queue)
  queued : ∀ x ∈ sub.queue, x ∈ published ∧ o.Due x

variable {o : Opened}

section

variable (h : sub.Follows o got published)

include h

theorem SubscriptionState.Follows.trim (hq : queue.Sublist sub.queue) :
    { sub with queue := queue }.Follows o got published :=
  { h with
    increasing := h.increasing.sublist (hq.append_left got)
    queued := fun x hx => h.queued x (hq.subset hx) }

theorem SubscriptionState.Follows.mono
    (hsub : published ⊆ published') : sub.Follows o got published' :=
  { h with queued := fun x hx => ⟨hsub (h.queued x hx).1, (h.queued x hx).2⟩ }

theorem SubscriptionState.Follows.enqueue
    (hsub : published ⊆ published') (hx : x ∈ published') (hdue : o.Due x)
    (hgot : ∀ y ∈ got, y.cursor < x.cursor) (hnew : ∀ y ∈ published, y.cursor < x.cursor) :
    { sub with queue := enqueueWithDropOldest maxLen sub.queue x }.Follows o got published' := by
  have hq := enqueue_sublist maxLen sub.queue x
  refine ⟨h.eventType, h.subject, h.cursor, ?_, fun y hy => ?_⟩
  · have hall : Increasing ((got ++ sub.queue) ++ [x]) := by
      refine h.increasing.concat fun y hy => ?_
      rcases mem_append.1 hy with hy | hy
      · exact hgot y hy
      · exact hnew y (h.queued y hy).1
    rw [append_assoc] at hall
    exact hall.sublist (hq.append_left got)
  · rcases mem_append.1 (hq.subset hy) with hy | hy
    · exact ⟨hsub (h.queued y hy).1, (h.queued y hy).2⟩
    · rw [mem_singleton.1 hy]
      exact ⟨hx, hdue⟩

theorem SubscriptionState.Follows.advance (hq : queue.Sublist sub.queue) (maxEvents : Nat) :
    { sub with
      cursor := ((queue.take maxEvents).getLast?.map BufferedEvent.cursor).getD sub.cursor
      queue := queue.drop maxEvents }.Follows o (got ++ queue.take maxEvents) published where
  eventType := h.eventType
  subject := h.subject
  cursor := by
    simp only [Opened.position, List.getLast?_append, h.cursor]
    cases (queue.take maxEvents).getLast? <;> simp
  increasing := by
    rw [append_assoc, take_append_drop]
    exact h.increasing.sublist (hq.append_left got)
  queued := fun x hx => h.queued x (hq.subset (mem_of_mem_drop hx))

end

namespace BrokerState

structure Ordered (s : BrokerState) (g : Ghost) : Prop where
  suffix : ∀ t, s.buffers t <:+ g.published t
  increasing : ∀ t, Increasing (g.published t)
  latest : ∀ t, ∀ x ∈ g.published t, x.cursor ≤ s.nextCursor t
  positive : ∀ t, ∀ x ∈ g.published t, 0 < x.cursor
  typed : ∀ t, ∀ x ∈ g.published t, x.event.eventType = t
  named : ∀ id sub, s.subscriptions id = some sub → sub.subscriptionId = id
  indexed : ∀ id sub, s.subscriptions id = some sub →
    ∀ t, id ∈ s.subscriptionsByEventType t ↔ t = sub.eventType
  unused : ∀ k, s.nextSubscription < k → g.opened (subId k) = none ∧
    ∀ t, subId k ∉ s.subscriptionsByEventType t
  unopened : ∀ id, g.opened id = none → g.got id = []
  floored : ∀ id o, g.opened id = some o → o.floor ≤ o.start ∧ o.floor ≤ s.nextCursor o.eventType
  received : ∀ id o, g.opened id = some o → Increasing (g.got id) ∧
    ∀ x ∈ g.got id, x ∈ g.published o.eventType ∧ o.Due x
  follows : ∀ id sub, s.subscriptions id = some sub →
    ∃ o, g.opened id = some o ∧ sub.Follows o (g.got id) (g.published sub.eventType)

variable {s : BrokerState} {g : Ghost} {t : String}

section

variable (h : Ordered s g)

include h

theorem Ordered.buffer (t : String) : Increasing (s.buffers t) :=
  (h.increasing t).sublist (h.suffix t).sublist

theorem Ordered.mem_published (hx : x ∈ s.buffers t) : x ∈ g.published t :=
  (h.suffix t).subset hx

theorem Ordered.below (hx : x ∈ g.published t) (hnot : x ∉ s.buffers t) :
    ∀ y ∈ s.buffers t, x.cursor < y.cursor := by
  obtain ⟨gone, hgone⟩ := h.suffix t
  have hinc := h.increasing t
  rw [← hgone] at hx hinc
  rcases mem_append.1 hx with hx | hx
  · intro y hy
    exact (pairwise_append.1 hinc).2.2 x hx y hy
  · exact absurd hx hnot

theorem Ordered.unused_none {k : Nat} (hk : s.nextSubscription < k) :
    s.subscriptions (subId k) = none := by
  cases hsub : s.subscriptions (subId k) with
  | none => rfl
  | some sub =>
    obtain ⟨o, ho, _⟩ := h.follows _ _ hsub
    rw [(h.unused k hk).1] at ho
    cases ho

/-- The index is right, so a loop over it changes the subscriptions of the type. -/
theorem Ordered.eachSubscription (t : String)
    (f : SubscriptionState → SubscriptionState) (id : String) :
    (s.eachSubscription t f).subscriptions id =
      (s.subscriptions id).map fun sub => if sub.eventType = t then f sub else sub := by
  cases hsub : s.subscriptions id with
  | none => simp [BrokerState.eachSubscription, hsub]
  | some sub =>
    by_cases ht : t = sub.eventType
    · simp [BrokerState.eachSubscription, hsub, (h.indexed id sub hsub t).2 ht, ht.symm]
    have hmem : id ∉ s.subscriptionsByEventType t := fun hmem =>
      ht ((h.indexed id sub hsub t).1 hmem)
    simp [BrokerState.eachSubscription, hsub, hmem, Ne.symm ht]

theorem Ordered.of_each {f : SubscriptionState → SubscriptionState} {id : String}
    {sub' : SubscriptionState} (hsub' : (s.eachSubscription t f).subscriptions id = some sub') :
    ∃ sub, s.subscriptions id = some sub ∧
      ((sub.eventType = t ∧ sub' = f sub) ∨ (sub.eventType ≠ t ∧ sub' = sub)) := by
  rw [h.eachSubscription, Option.map_eq_some_iff] at hsub'
  obtain ⟨sub, hsub, rfl⟩ := hsub'
  refine ⟨sub, hsub, ?_⟩
  by_cases ht : sub.eventType = t
  · exact .inl ⟨ht, if_pos ht⟩
  · exact .inr ⟨ht, if_neg ht⟩

end

/-! ## Pruning -/

section Prune

variable (s : BrokerState) (t : String) (window : Nat) (now : Int)

def kept : List BufferedEvent := (s.buffers t).dropWhile (expired window now)

/-- An emptied buffer trims no queue, so both branches are one update. -/
theorem pruneExpired_eq : s.pruneExpired t window now =
    { s.eachSubscription t fun sub =>
        { sub with queue := trimmedQueue (s.kept t window now) sub.queue } with
      buffers := update s.buffers t (s.kept t window now)
      seenEventIds := update s.seenEventIds t ((s.seenEventIds t).filter fun id =>
        id ∉ ((s.buffers t).takeWhile (expired window now)).map (·.event.id)) } := by
  unfold pruneExpired
  simp only [kept, trimmedQueue]
  split
  · rename_i hnone
    simp [BrokerState.eachSubscription, hnone]
  · rename_i oldest hsome
    simp only [hsome]
    rfl

@[simp] theorem pruneExpired_buffers : (s.pruneExpired t window now).buffers =
    update s.buffers t (s.kept t window now) := by
  rw [pruneExpired_eq]

@[simp] theorem pruneExpired_nextCursor :
    (s.pruneExpired t window now).nextCursor = s.nextCursor := by
  rw [pruneExpired_eq, eachSubscription]

@[simp] theorem pruneExpired_index :
    (s.pruneExpired t window now).subscriptionsByEventType = s.subscriptionsByEventType := by
  rw [pruneExpired_eq, eachSubscription]

@[simp] theorem pruneExpired_nextSubscription :
    (s.pruneExpired t window now).nextSubscription = s.nextSubscription := by
  rw [pruneExpired_eq, eachSubscription]

@[simp] theorem pruneExpired_restartFloor :
    (s.pruneExpired t window now).restartFloor = s.restartFloor := by
  rw [pruneExpired_eq, eachSubscription]

theorem pruneExpired_subscriptions : (s.pruneExpired t window now).subscriptions =
    (s.eachSubscription t fun sub =>
      { sub with
        queue := trimmedQueue (s.kept t window now) sub.queue }).subscriptions := by
  rw [pruneExpired_eq]

theorem kept_suffix : s.kept t window now <:+ s.buffers t := dropWhile_suffix _

end Prune

theorem trimmedQueue_sublist (buffer queue : List BufferedEvent) :
    (trimmedQueue buffer queue).Sublist queue := by
  unfold trimmedQueue
  split
  · exact dropWhile_sublist _
  · exact List.Sublist.refl _

variable {buffer : List BufferedEvent}

theorem mem_trimmedQueue (hx : x ∈ queue)
    (habove : ∀ oldest ∈ buffer.head?, oldest.cursor ≤ x.cursor) :
    x ∈ trimmedQueue buffer queue := by
  unfold trimmedQueue
  split
  · rename_i oldest hhead
    exact mem_dropWhile_of_not (by simpa using habove oldest hhead) hx
  · exact hx

theorem trimmedQueue_eq (h : ∀ x ∈ queue, ∀ oldest ∈ buffer.head?, oldest.cursor ≤ x.cursor) :
    trimmedQueue buffer queue = queue := by
  unfold trimmedQueue
  split
  · rename_i oldest hhead
    refine dropWhile_eq_self_iff.2 fun hpos => ?_
    have := h _ (getElem_mem hpos) oldest hhead
    simpa using this
  · rfl

theorem le_of_mem_trimmedQueue {oldest : BufferedEvent} (hq : Increasing queue)
    (ho : oldest ∈ buffer.head?) (hx : x ∈ trimmedQueue buffer queue) :
    oldest.cursor ≤ x.cursor := by
  rw [Option.mem_def] at ho
  simp only [trimmedQueue, ho, dropBelow] at hx
  cases hd : queue.dropWhile (fun item => item.cursor < oldest.cursor) with
  | nil =>
    rw [hd] at hx
    cases hx
  | cons y rest =>
    have hfirst : oldest.cursor ≤ y.cursor := by
      have := List.head?_dropWhile_not (fun item => decide (item.cursor < oldest.cursor)) queue
      simpa [hd] using this
    have hinc : Increasing (y :: rest) := hd ▸ hq.sublist (dropWhile_sublist _)
    rw [hd] at hx
    rcases mem_cons.1 hx with rfl | hx
    · exact hfirst
    · exact Nat.le_of_lt (Nat.lt_of_le_of_lt hfirst ((pairwise_cons.1 hinc).1 x hx))

theorem head_le (hb : Increasing buffer) (hx : x ∈ buffer) :
    ∀ oldest ∈ buffer.head?, oldest.cursor ≤ x.cursor := by
  intro oldest ho
  cases buffer with
  | nil => cases hx
  | cons y rest =>
    cases ho
    rcases mem_cons.1 hx with rfl | hx
    · exact Nat.le_refl _
    · exact Nat.le_of_lt ((pairwise_cons.1 hb).1 x hx)

theorem Ordered.prune (h : Ordered s g) (t : String) (window : Nat) (now : Int) :
    Ordered (s.pruneExpired t window now) g := by
  rw [pruneExpired_eq]
  exact { h with
    suffix := by
      refine (forall_update_iff _ fun u buffer => buffer <:+ g.published u).2
        ⟨?_, fun u _ => h.suffix u⟩
      exact (s.kept_suffix t window now).trans (h.suffix t)
    named := by
      intro id sub' hsub'
      obtain ⟨sub, hsub, ⟨_, rfl⟩ | ⟨_, rfl⟩⟩ := h.of_each hsub'
      · exact h.named id sub hsub
      · exact h.named id _ hsub
    indexed := by
      intro id sub' hsub'
      obtain ⟨sub, hsub, ⟨_, rfl⟩ | ⟨_, rfl⟩⟩ := h.of_each hsub'
      · exact h.indexed id sub hsub
      · exact h.indexed id _ hsub
    follows := by
      intro id sub' hsub'
      obtain ⟨sub, hsub, ⟨_, rfl⟩ | ⟨_, rfl⟩⟩ := h.of_each hsub'
      · obtain ⟨o, ho, hf⟩ := h.follows id sub hsub
        exact ⟨o, ho, hf.trim (trimmedQueue_sublist _ _)⟩
      · exact h.follows id _ hsub }

/-! ## Delivery -/

end BrokerState

namespace InProcessBroker

section Deliver

variable (b : InProcessBroker) (now : Int) (event : TraverseEvent) (assigned : Option Nat)

/-- The event as `deliver` buffers it. -/
def item : BufferedEvent :=
  ⟨(assignCursor (b.state.nextCursor event.eventType) assigned).2, now, event⟩

@[simp] theorem deliver_buffers : (b.deliver now event assigned).state.buffers =
    update b.state.buffers event.eventType
      (b.state.buffers event.eventType ++ [b.item now event assigned]) := rfl

theorem deliver_subscriptions : (b.deliver now event assigned).state.subscriptions =
    (b.state.eachSubscription event.eventType fun sub =>
      if subjectMatches sub.subjectId event then
        { sub with
          queue := enqueueWithDropOldest b.config.maxQueueLen sub.queue
            (b.item now event assigned) }
      else sub).subscriptions := rfl

theorem deliver_nextCursor
    (hk : b.state.nextCursor event.eventType < (b.item now event assigned).cursor) :
    (b.deliver now event assigned).state.nextCursor =
      update b.state.nextCursor event.eventType (b.item now event assigned).cursor := by
  have hnext : (assignCursor (b.state.nextCursor event.eventType) assigned).1 =
      (b.item now event assigned).cursor := by
    cases assigned with
    | none => rfl
    | some k => exact Nat.max_eq_right (Nat.le_of_lt hk)
  rw [← hnext]
  rfl

end Deliver

end InProcessBroker

namespace BrokerState

open InProcessBroker (item)
open Ghost (publish mem_publish receive enroll)

theorem Ordered.deliver {b : InProcessBroker} (h : Ordered b.state g) (now : Int)
    {event : TraverseEvent} {assigned : Option Nat}
    (hk : b.state.nextCursor event.eventType < (b.item now event assigned).cursor) :
    Ordered (b.deliver now event assigned).state (g.publish (b.item now event assigned)) := by
  have hback := fun id sub'
      (hsub' : (b.deliver now event assigned).state.subscriptions id = some sub') =>
    h.of_each (b.deliver_subscriptions now event assigned ▸ hsub')
  have hpub : ∀ u, g.published u ⊆ (g.publish (b.item now event assigned)).published u :=
    fun _ _ hx => mem_publish.2 (.inl hx)
  have hnext : ∀ u, b.state.nextCursor u ≤ (b.deliver now event assigned).state.nextCursor u := by
    rw [b.deliver_nextCursor now event assigned hk]
    exact (forall_update_iff _ fun u k => b.state.nextCursor u ≤ k).2
      ⟨Nat.le_of_lt hk, fun _ _ => le_rfl⟩
  have hnew : ∀ y ∈ g.published event.eventType, y.cursor < (b.item now event assigned).cursor :=
    fun y hy => Nat.lt_of_le_of_lt (h.latest _ y hy) hk
  exact {
    suffix := by
      intro u
      by_cases hu : u = event.eventType
      · subst hu
        obtain ⟨gone, hgone⟩ := h.suffix event.eventType
        refine ⟨gone, ?_⟩
        simp [publish, item, ← hgone]
      · simpa [publish, item, hu] using h.suffix u
    increasing := (forall_update_iff _ fun _ => Increasing).2
      ⟨(h.increasing _).concat hnew, fun u _ => h.increasing u⟩
    latest := by
      intro u x hx
      rcases mem_publish.1 hx with hx | ⟨rfl, rfl⟩
      · exact Nat.le_trans (h.latest u x hx) (hnext u)
      · simp [b.deliver_nextCursor now event assigned hk, item]
    positive := by
      intro u x hx
      rcases mem_publish.1 hx with hx | ⟨rfl, rfl⟩
      · exact h.positive u x hx
      · exact Nat.lt_of_le_of_lt (Nat.zero_le _) hk
    typed := by
      intro u x hx
      rcases mem_publish.1 hx with hx | ⟨rfl, rfl⟩
      · exact h.typed u x hx
      · rfl
    named := by
      intro id sub' hsub'
      obtain ⟨sub, hsub, ⟨_, rfl⟩ | ⟨_, rfl⟩⟩ := hback id sub' hsub'
      · rw [← h.named id sub hsub]
        split <;> rfl
      · exact h.named id _ hsub
    indexed := by
      intro id sub' hsub'
      obtain ⟨sub, hsub, ⟨_, rfl⟩ | ⟨_, rfl⟩⟩ := hback id sub' hsub'
      · intro u
        refine (h.indexed id sub hsub u).trans ?_
        split <;> rfl
      · exact h.indexed id _ hsub
    unused := h.unused
    unopened := h.unopened
    floored := fun id o ho =>
      ⟨(h.floored id o ho).1, Nat.le_trans (h.floored id o ho).2 (hnext _)⟩
    received := fun id o ho => ⟨(h.received id o ho).1, fun x hx =>
      ⟨hpub _ ((h.received id o ho).2 x hx).1, ((h.received id o ho).2 x hx).2⟩⟩
    follows := by
      intro id sub' hsub'
      obtain ⟨sub, hsub, ⟨ht, rfl⟩ | ⟨_, rfl⟩⟩ := hback id sub' hsub'
      · obtain ⟨o, ho, hf⟩ := h.follows id sub hsub
        refine ⟨o, ho, ?_⟩
        split
        · rename_i hmatch
          have hot : o.eventType = event.eventType := hf.eventType ▸ ht
          refine hf.enqueue (hpub _) ?_ ⟨?_, hf.subject ▸ hmatch⟩ ?_ (ht ▸ hnew)
          · exact mem_publish.2 (.inr ⟨ht, rfl⟩)
          · exact Nat.lt_of_le_of_lt (h.floored id o ho).2 (hot ▸ hk)
          · exact fun y hy => hnew y (hot ▸ ((h.received id o ho).2 y hy).1)
        · exact hf.mono (hpub _)
      · obtain ⟨o, ho, hf⟩ := h.follows id _ hsub
        exact ⟨o, ho, hf.mono (hpub _)⟩ }

/-! ## Coming and going -/

theorem Ordered.forget (h : Ordered s g) (id : String) {index : String → Finset String}
    (hsub : ∀ t, index t ⊆ s.subscriptionsByEventType t)
    (hindex : ∀ t, ∀ i ∈ s.subscriptionsByEventType t, i ≠ id → i ∈ index t) :
    Ordered { s with
      subscriptions := update s.subscriptions id none
      subscriptionsByEventType := index } g := by
  have hback : ∀ i sub, update s.subscriptions id none i = some sub →
      i ≠ id ∧ s.subscriptions i = some sub := by
    intro i sub hi
    obtain ⟨_, ⟨⟩⟩ | hi := update_eq_some hi
    exact hi
  exact { h with
    named := fun i sub hi => h.named i sub (hback i sub hi).2
    indexed := by
      intro i sub hi t
      obtain ⟨he, hi⟩ := hback i sub hi
      constructor
      · intro hmem
        exact (h.indexed i sub hi t).1 (hsub t hmem)
      · intro ht
        exact hindex t i ((h.indexed i sub hi t).2 ht) he
    unused := fun k hk => ⟨(h.unused k hk).1, fun t hmem => (h.unused k hk).2 t (hsub t hmem)⟩
    follows := fun i sub hi => h.follows i sub (hback i sub hi).2 }

/-- A subscription goes back into the map after a poll that has returned `out`. -/
theorem Ordered.serve (h : Ordered s g) {id : String} {out : List BufferedEvent}
    (hname : sub.subscriptionId = id)
    (hindex : ∀ t, id ∈ s.subscriptionsByEventType t ↔ t = sub.eventType)
    (ho : g.opened id = some o) (hout : ∀ x ∈ out, x ∈ g.published o.eventType ∧ o.Due x)
    (hf : sub.Follows o (g.got id ++ out) (g.published sub.eventType)) :
    Ordered { s with subscriptions := update s.subscriptions id (some sub) }
      (g.receive id out) := by
  exact { h with
    named := by
      intro i sub' hi
      obtain ⟨rfl, ⟨⟩⟩ | ⟨_, hi⟩ := update_eq_some hi
      · exact hname
      · exact h.named i sub' hi
    indexed := by
      intro i sub' hi
      obtain ⟨rfl, ⟨⟩⟩ | ⟨_, hi⟩ := update_eq_some hi
      · exact hindex
      · exact h.indexed i sub' hi
    unused := h.unused
    unopened := by
      intro i hi
      have he : i ≠ id := by
        rintro rfl
        rw [show g.opened i = none from hi] at ho
        cases ho
      simpa [receive, he] using h.unopened i hi
    floored := h.floored
    received := by
      intro i o' hi
      by_cases he : i = id
      · subst he
        rw [show g.opened i = some o' from hi, Option.some.injEq] at ho
        subst ho
        simp only [receive, update_self]
        refine ⟨hf.increasing.sublist (sublist_append_left _ _), fun x hx => ?_⟩
        rcases mem_append.1 hx with hx | hx
        · exact (h.received i o' hi).2 x hx
        · exact hout x hx
      · simpa [receive, he] using h.received i o' hi
    follows := by
      intro i sub' hi
      obtain ⟨rfl, ⟨⟩⟩ | ⟨he, hi⟩ := update_eq_some hi
      · exact ⟨o, ho, by simpa [receive] using hf⟩
      · obtain ⟨o', ho', hf'⟩ := h.follows i sub' hi
        exact ⟨o', ho', by simpa [receive, he] using hf'⟩ }

theorem Ordered.add (h : Ordered s g) (hname : sub.subscriptionId = subId (s.nextSubscription + 1))
    (hfloor : o.floor ≤ o.start ∧ o.floor ≤ s.nextCursor o.eventType)
    (hf : sub.Follows o [] (g.published sub.eventType)) :
    Ordered ({ s with nextSubscription := s.nextSubscription + 1 }.addSubscription sub)
      (g.enroll sub.subscriptionId o) := by
  obtain ⟨hunopened, hunindexed⟩ := h.unused (s.nextSubscription + 1) (Nat.lt_succ_self _)
  rw [← hname] at hunopened hunindexed
  have hindex : ∀ i t, i ∈ update s.subscriptionsByEventType sub.eventType
      (insert sub.subscriptionId (s.subscriptionsByEventType sub.eventType)) t ↔
        (i = sub.subscriptionId ∧ t = sub.eventType) ∨ i ∈ s.subscriptionsByEventType t := by
    intro i t
    by_cases ht : t = sub.eventType
    · subst ht
      simp
    · simp [ht]
  exact { h with
    named := by
      intro i sub' hi
      obtain ⟨rfl, ⟨⟩⟩ | ⟨_, hi⟩ := update_eq_some hi
      · rfl
      · exact h.named i sub' hi
    indexed := by
      intro i sub' hi t
      refine (hindex i t).trans ?_
      obtain ⟨rfl, ⟨⟩⟩ | ⟨he, hi⟩ := update_eq_some hi
      · simp [hunindexed t]
      · simp [he, h.indexed i sub' hi t]
    unused := by
      intro k hk
      have hk : s.nextSubscription + 1 < k := hk
      have he : subId k ≠ sub.subscriptionId := by
        rw [hname]
        intro heq
        have := subId_injective heq
        omega
      obtain ⟨hopened, hindexed⟩ := h.unused k (by omega)
      refine ⟨by simpa [enroll, he] using hopened, fun t hmem => ?_⟩
      rcases (hindex _ t).1 hmem with ⟨heq, _⟩ | hmem
      · exact he heq
      · exact hindexed t hmem
    unopened := by
      intro i hi
      by_cases he : i = sub.subscriptionId
      · simp [enroll, he] at hi
      · exact h.unopened i (by simpa [enroll, he] using hi)
    floored := by
      intro i o' hi
      by_cases he : i = sub.subscriptionId
      · simp only [enroll, he, update_self, Option.some.injEq] at hi
        exact hi ▸ hfloor
      · exact h.floored i o' (by simpa [enroll, he] using hi)
    received := by
      intro i o' hi
      by_cases he : i = sub.subscriptionId
      · have hgot : g.got i = [] := h.unopened i (he ▸ hunopened)
        simp only [enroll, hgot]
        exact ⟨List.Pairwise.nil, fun _ hx => absurd hx not_mem_nil⟩
      · exact h.received i o' (by simpa [enroll, he] using hi)
    follows := by
      intro i sub' hi
      obtain ⟨rfl, ⟨⟩⟩ | ⟨he, hi⟩ := update_eq_some hi
      · refine ⟨o, by simp [enroll], ?_⟩
        simpa [enroll, h.unopened _ hunopened] using hf
      · obtain ⟨o', ho', hf'⟩ := h.follows i sub' hi
        exact ⟨o', by simpa [enroll, he] using ho', hf'⟩ }

end BrokerState

/-! ## What an operation does -/

def BufferedEvent.shown (x : BufferedEvent) : BrokerEvent := ⟨x.cursor.repr, x.event⟩

namespace InProcessBroker

variable (b : InProcessBroker) (now : Int)

@[simp] theorem prune_state (t : String) :
    (b.prune t now).state = b.state.pruneExpired t b.config.retentionWindow now := rfl

/-- The subscription that `subscribe` adds. -/
def newSubscription (t : String) (start : Nat) (subject consumer : Option String) :
    SubscriptionState where
  subscriptionId := subId (saturatingSucc b.state.nextSubscription)
  eventType := t
  subjectId := subject
  consumerId := consumer
  cursor := start
  queue := backlog b.config.maxQueueLen start subject ((b.prune t now).state.buffers t)

/-- The broker after a `subscribe` that is not refused. -/
def subscribed (t : String) (start : Nat) (subject consumer : Option String) : InProcessBroker :=
  { b.prune t now with
    catalog := b.catalog.incrementConsumerCount t
    state := { (b.prune t now).state with
      nextSubscription := saturatingSucc b.state.nextSubscription }.addSubscription
        (b.newSubscription now t start subject consumer) }

theorem subscribeWithSubject_cases (t fromCursor : String) (subject consumer : Option String) :
    (∃ e, (e = .unregisteredEventType t ∨ parseCursor fromCursor = .error e) ∧
      b.subscribeWithSubject now t fromCursor subject consumer = (.error e, b)) ∨
    ∃ start, parseCursor fromCursor = .ok start ∧
      ((∃ e, (b.prune t now).state.validateFromCursor t start = .error e ∧
        b.subscribeWithSubject now t fromCursor subject consumer = (.error e, b.prune t now)) ∨
      ((b.prune t now).state.validateFromCursor t start = .ok () ∧
        b.subscribeWithSubject now t fromCursor subject consumer =
          (.ok ⟨subId (saturatingSucc b.state.nextSubscription), t, start.repr⟩,
            b.subscribed now t start subject consumer))) := by
  unfold subscribeWithSubject
  split
  · exact .inl ⟨_, .inl rfl, rfl⟩
  split
  · rename_i e hparse
    exact .inl ⟨e, .inr hparse, rfl⟩
  rename_i start hparse
  refine .inr ⟨start, hparse, ?_⟩
  cases hvalid : (b.prune t now).state.validateFromCursor t start with
  | error e => exact .inl ⟨e, rfl, by simp only [hvalid]⟩
  | ok =>
    have hnext : (b.prune t now).state.nextSubscription = b.state.nextSubscription :=
      b.state.pruneExpired_nextSubscription t _ now
    refine .inr ⟨rfl, ?_⟩
    simp only [hvalid, hnext]
    rfl

/-- The state in which `poll` checks the cursor of the subscription it has taken out. -/
def checked (id t : String) : BrokerState :=
  { b.state with subscriptions := update b.state.subscriptions id none }.pruneExpired t
    b.config.retentionWindow now

/-- What a poll takes out of the queue. -/
def served (id : String) (maxEvents : Nat) : List BufferedEvent :=
  match b.state.subscriptions id with
  | none => []
  | some sub =>
    match (b.checked now id sub.eventType).validateFromCursor sub.eventType sub.cursor with
    | .error _ => []
    | .ok () =>
      (trimmedQueue ((b.checked now id sub.eventType).buffers sub.eventType) sub.queue).take
        maxEvents

/-- The state after a poll that has taken its events out of `queue`. -/
def polled (sub : SubscriptionState) (id : String) (queue : List BufferedEvent) (maxEvents : Nat) :
    BrokerState :=
  { b.checked now id sub.eventType with
    subscriptions := update (b.checked now id sub.eventType).subscriptions sub.subscriptionId
      (some { sub with
        cursor := (((queue.take maxEvents).getLast?).map (·.cursor)).getD sub.cursor
        queue := queue.drop maxEvents }) }

theorem poll_cases (id : String) (maxEvents : Nat) :
    (b.state.subscriptions id = none ∧
      b.poll now id maxEvents = (.error (.subscriptionNotFound id), b) ∧
      b.served now id maxEvents = []) ∨
    ∃ sub, b.state.subscriptions id = some sub ∧
      ((∃ e, (b.checked now id sub.eventType).validateFromCursor sub.eventType sub.cursor =
        .error e ∧
        b.poll now id maxEvents = (.error e, { b with state := b.checked now id sub.eventType }) ∧
        b.served now id maxEvents = []) ∨
      ((b.checked now id sub.eventType).validateFromCursor sub.eventType sub.cursor = .ok () ∧
        ∃ queue, queue =
            trimmedQueue ((b.checked now id sub.eventType).buffers sub.eventType) sub.queue ∧
          b.poll now id maxEvents =
            (.ok ⟨sub.subscriptionId, sub.eventType,
                ((((queue.take maxEvents).getLast?).map (·.cursor)).getD sub.cursor).repr,
                (queue.take maxEvents).map (·.shown)⟩,
              { b with state := b.polled now sub id queue maxEvents }) ∧
          b.served now id maxEvents = queue.take maxEvents)) := by
  unfold poll
  split
  · rename_i hnone
    exact .inl ⟨hnone, rfl, by simp [served, hnone]⟩
  rename_i sub hsub
  refine .inr ⟨sub, hsub, ?_⟩
  cases hvalid :
    (b.checked now id sub.eventType).validateFromCursor sub.eventType sub.cursor with
  | error e =>
    refine .inl ⟨e, rfl, ?_, by simp [served, hsub, hvalid]⟩
    simp only [checked] at hvalid
    simp only [prune, hvalid, checked]
  | ok =>
    refine .inr ⟨rfl, _, rfl, ?_, by simp [served, hsub, hvalid]⟩
    simp only [checked] at hvalid
    simp only [prune, hvalid, checked]
    rfl

/-- The event that a publish call adds to the broker: none if it is refused or a duplicate. -/
def accepted (semver : String → Bool) (event : TraverseEvent) (assigned : Option Nat) :
    Option BufferedEvent :=
  match b.gate semver event with
  | .error _ => none
  | .ok () =>
    if event.id ∈ (b.prune event.eventType now).state.seenEventIds event.eventType then none
    else some ((b.prune event.eventType now).item now event assigned)

/-- How a subscription that is opened now is opened. -/
def opening (t : String) (start : Nat) (subject : Option String) : Opened :=
  ⟨t, subject, start, min start (b.state.nextCursor t)⟩

variable {b now}

variable {semver : String → Bool} {event : TraverseEvent} {assigned : Option Nat}

theorem publishInternal_accepted (h : b.accepted now semver event assigned = some x) :
    x = (b.prune event.eventType now).item now event assigned ∧
      b.publishInternal semver now event assigned =
        (.ok (), (b.prune event.eventType now).deliver now event assigned) := by
  unfold accepted at h
  unfold publishInternal
  cases hgate : b.gate semver event with
  | error e => simp [hgate] at h
  | ok =>
    simp only [hgate] at h
    split at h
    · cases h
    rename_i hnew
    cases h
    exact ⟨rfl, if_neg hnew⟩

theorem publishInternal_not_accepted (h : b.accepted now semver event assigned = none) :
    (b.publishInternal semver now event assigned).2 = b ∨
      (b.publishInternal semver now event assigned).2 = b.prune event.eventType now := by
  unfold accepted at h
  unfold publishInternal
  cases hgate : b.gate semver event with
  | error e => exact .inl rfl
  | ok =>
    simp only [hgate] at h
    split at h
    · rename_i hseen
      exact .inr (congrArg Prod.snd (if_pos hseen))
    · cases h

end InProcessBroker

theorem saturatingSucc_of_lt {n : Nat} (h : n < u64Max) : saturatingSucc n = n + 1 :=
  Nat.min_eq_left h

theorem InProcessBroker.newSubscription_id {b : InProcessBroker}
    (hcount : b.state.nextSubscription < u64Max) (now : Int) (t : String) (start : Nat)
    (subject consumer : Option String) :
    (b.newSubscription now t start subject consumer).subscriptionId =
      subId (b.state.nextSubscription + 1) := by
  rw [InProcessBroker.newSubscription, saturatingSucc_of_lt hcount]

theorem InProcessBroker.subscribed_state {b : InProcessBroker}
    (hcount : b.state.nextSubscription < u64Max) (now : Int) (t : String) (start : Nat)
    (subject consumer : Option String) :
    (b.subscribed now t start subject consumer).state =
      { (b.prune t now).state with
        nextSubscription := b.state.nextSubscription + 1 }.addSubscription
          (b.newSubscription now t start subject consumer) := by
  rw [subscribed, saturatingSucc_of_lt hcount]

/-- The past after a `subscribe`. -/
def InProcessBroker.enrolled (b : InProcessBroker) (now : Int) (g : Ghost) (t fromCursor : String)
    (subject consumer : Option String) : Ghost :=
  match (b.subscribeWithSubject now t fromCursor subject consumer).1, parseCursor fromCursor with
  | .ok sub, .ok start => g.enroll sub.subscriptionId (b.opening t start subject)
  | _, _ => g

variable (g : Ghost) (x : Option BufferedEvent)

/-- What a publish call adds to the past. -/
def Ghost.publishAll : Ghost := x.elim g g.publish

@[simp] theorem Ghost.publishAll_none : g.publishAll none = g := rfl

theorem Ghost.receive_nil (id : String) : g.receive id [] = g := by
  simp [Ghost.receive]

namespace BrokerState

variable {b : InProcessBroker} {g : Ghost} {now : Int}

variable (h : Ordered b.state g)

include h

theorem Ordered.newSubscription (now : Int) (t : String) (start : Nat)
    (subject consumer : Option String) :
    (b.newSubscription now t start subject consumer).Follows (b.opening t start subject) []
      (g.published t) where
  eventType := rfl
  subject := rfl
  cursor := rfl
  increasing := by
    have hb := (h.prune t b.config.retentionWindow now).buffer t
    exact hb.sublist ((backlog_sublist _ _ _ _).trans filter_sublist)
  queued := by
    intro x hx
    obtain ⟨hmem, hstart, hmatch⟩ := mem_backlog hx
    have hpub := (h.prune t b.config.retentionWindow now).mem_published hmem
    refine ⟨hpub, ?_, hmatch⟩
    have hpos := h.positive t x hpub
    simp only [InProcessBroker.opening]
    omega

theorem Ordered.checked (now : Int) (i t : String) : Ordered (b.checked now i t) g :=
  (h.forget i (fun _ => Finset.Subset.refl _) fun _ _ hi _ => hi).prune _ _ _

end BrokerState

end Traverse.Events

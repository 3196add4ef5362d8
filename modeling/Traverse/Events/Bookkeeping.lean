import Mathlib.Data.Set.Card
import Traverse.Events.BrokerRun
import Traverse.Events.Durable

/-!
# Events.Bookkeeping

The three places where the in-process broker keeps its subscriptions: the map, the index by event
type and the consumer counts of the catalog. A poll that is refused takes the subscription out of
the map for good and leaves it in the index, and `cancel` does not lower the count
(`books_disagree`); in runs without refused polls the index is exact, and without cancellations the
counts are too (`subscription_books_agree`).

Only the names and the types of the subscriptions matter here (`names`); the loops of pruning and
delivery do not change them.
-/

namespace Traverse.Events

open Decimal Function Machine

namespace BrokerState

def names (s : BrokerState) (id : String) : Option (String × String) :=
  (s.subscriptions id).map fun sub => (sub.subscriptionId, sub.eventType)

def liveIds (s : BrokerState) (t : String) : Set String :=
  {id | ∃ sub, s.subscriptions id = some sub ∧ sub.eventType = t}

/-- The index lists the live subscriptions under their types. -/
def IndexExact (s : BrokerState) : Prop :=
  ∀ id t, id ∈ s.subscriptionsByEventType t ↔ id ∈ s.liveIds t

structure Books (s : BrokerState) : Prop where
  named : ∀ id name t, s.names id = some (name, t) → name = id
  index : ∀ id t, id ∈ s.subscriptionsByEventType t ↔ s.names id = some (id, t)
  unused : ∀ k, s.nextSubscription < k → s.names (subId k) = none
  bounded : ∀ t, (s.subscriptionsByEventType t).card ≤ s.nextSubscription

variable {s : BrokerState} {id : String} {b : InProcessBroker} {now : Int}

theorem mem_liveIds (h : s.Books) {t : String} : id ∈ s.liveIds t ↔ s.names id = some (id, t) := by
  constructor
  · rintro ⟨sub, hsub, ht⟩
    have hname : s.names id = some (sub.subscriptionId, t) := by simp [names, hsub, ht]
    rw [hname, h.named id _ _ hname]
  · intro hname
    obtain ⟨sub, hsub, hpair⟩ := Option.map_eq_some_iff.1 hname
    exact ⟨sub, hsub, congrArg Prod.snd hpair⟩

theorem Books.congr {s' : BrokerState} (h : s.Books) (hnames : s'.names = s.names)
    (hindex : s'.subscriptionsByEventType = s.subscriptionsByEventType)
    (hnext : s'.nextSubscription = s.nextSubscription) : s'.Books where
  named := hnames ▸ h.named
  index := by
    rw [hnames, hindex]
    exact h.index
  unused := by
    rw [hnames, hnext]
    exact h.unused
  bounded := by
    rw [hindex, hnext]
    exact h.bounded

theorem names_each (s : BrokerState) (t : String) {f : SubscriptionState → SubscriptionState}
    (hf : ∀ sub, (f sub).subscriptionId = sub.subscriptionId ∧ (f sub).eventType = sub.eventType)
    (id : String) :
    ((s.eachSubscription t f).subscriptions id).map
      (fun sub => (sub.subscriptionId, sub.eventType)) = s.names id := by
  simp only [eachSubscription, names]
  split
  · cases s.subscriptions id with
    | none => rfl
    | some sub => simp [(hf sub).1, (hf sub).2]
  · rfl

theorem names_prune (s : BrokerState) (t : String) (window : Nat) (now : Int) :
    (s.pruneExpired t window now).names = s.names := by
  funext id
  rw [names, pruneExpired_subscriptions]
  refine s.names_each t (fun sub => ?_) id
  exact ⟨rfl, rfl⟩

theorem Books.prune (h : s.Books) (t : String) (window : Nat) (now : Int) :
    (s.pruneExpired t window now).Books :=
  h.congr (s.names_prune t window now) (by simp) (by simp)

/-! ## Coming and going -/

theorem Books.add (h : s.Books) (sub : SubscriptionState)
    (hname : sub.subscriptionId = subId (s.nextSubscription + 1)) :
    ({ s with nextSubscription := s.nextSubscription + 1 }.addSubscription sub).Books := by
  have hfresh : s.names sub.subscriptionId = none := by
    rw [hname]
    exact h.unused _ (Nat.lt_succ_self _)
  have hnames : ∀ id, ({ s with
      nextSubscription := s.nextSubscription + 1 }.addSubscription sub).names id =
        if id = sub.subscriptionId then some (sub.subscriptionId, sub.eventType)
        else s.names id := by
    intro id
    by_cases hid : id = sub.subscriptionId
    · simp [names, addSubscription, hid]
    · simp [names, addSubscription, hid]
  have hindex : ∀ id t, id ∈ ({ s with
      nextSubscription := s.nextSubscription + 1 }.addSubscription sub).subscriptionsByEventType t ↔
        (id = sub.subscriptionId ∧ t = sub.eventType) ∨ id ∈ s.subscriptionsByEventType t := by
    intro id t
    by_cases ht : t = sub.eventType
    · simp [addSubscription, ht]
    · simp [addSubscription, ht]
  refine ⟨fun id name t hn => ?_, fun id t => ?_, fun k hk => ?_, fun t => ?_⟩
  · rw [hnames] at hn
    split at hn
    · rename_i hid
      cases hn
      exact hid.symm
    · exact h.named id name t hn
  · rw [hindex, hnames, h.index]
    by_cases hid : id = sub.subscriptionId
    · subst hid
      simp [hfresh, eq_comm]
    · simp [hid]
  · have hk : s.nextSubscription + 1 < k := hk
    rw [hnames, if_neg]
    · exact h.unused k (by omega)
    rw [hname]
    intro heq
    have := subId_injective heq
    omega
  · have hold := h.bounded t
    by_cases ht : t = sub.eventType
    · subst ht
      have hcard := Finset.card_insert_le sub.subscriptionId
        (s.subscriptionsByEventType sub.eventType)
      simp only [addSubscription, update_self]
      omega
    · simp only [addSubscription, update_of_ne ht]
      omega

theorem Books.forget (h : s.Books) {sub : SubscriptionState}
    (hsub : s.subscriptions id = some sub) :
    { s with
      subscriptions := update s.subscriptions id none
      subscriptionsByEventType := update s.subscriptionsByEventType sub.eventType
        ((s.subscriptionsByEventType sub.eventType).erase id) }.Books := by
  have hname : s.names id = some (id, sub.eventType) :=
    (mem_liveIds h).1 ⟨sub, hsub, rfl⟩
  have hindex : ∀ i t, i ∈ update s.subscriptionsByEventType sub.eventType
      ((s.subscriptionsByEventType sub.eventType).erase id) t ↔
        i ∈ s.subscriptionsByEventType t ∧ i ≠ id := by
    intro i t
    by_cases ht : t = sub.eventType
    · subst ht
      simp [and_comm]
    -- the subscription is listed under its own type only
    rw [update_of_ne ht]
    refine ⟨fun hi => ⟨hi, ?_⟩, fun hi => hi.1⟩
    rintro rfl
    rw [h.index, hname, Option.some.injEq, Prod.mk.injEq] at hi
    exact ht hi.2.symm
  have hnames : ∀ i, { s with
      subscriptions := update s.subscriptions id none
      subscriptionsByEventType := update s.subscriptionsByEventType sub.eventType
        ((s.subscriptionsByEventType sub.eventType).erase id) }.names i =
        if i = id then none else s.names i := by
    intro i
    by_cases hi : i = id
    · simp [names, hi]
    · simp [names, hi]
  refine ⟨fun i name t hn => ?_, fun i t => ?_, fun k hk => ?_, fun t => ?_⟩
  · rw [hnames] at hn
    split at hn
    · cases hn
    · exact h.named i name t hn
  · rw [hnames]
    refine (hindex i t).trans ?_
    rw [h.index]
    by_cases hi : i = id
    · simp [hi]
    · simp [hi]
  · rw [hnames, h.unused k hk]
    split <;> rfl
  · refine Nat.le_trans (Finset.card_le_card fun i hi => ?_) (h.bounded t)
    exact ((hindex i t).1 hi).1

theorem names_polled (h : b.state.Books) {sub : SubscriptionState}
    (hsub : b.state.subscriptions id = some sub) (queue : List BufferedEvent) (maxEvents : Nat) :
    (b.polled now sub id queue maxEvents).names = b.state.names := by
  have hname : b.state.names id = some (id, sub.eventType) :=
    (mem_liveIds h).1 ⟨sub, hsub, rfl⟩
  have hself : sub.subscriptionId = id := h.named id _ sub.eventType (by simp [names, hsub])
  have hchecked : (b.checked now id sub.eventType).names =
      { b.state with subscriptions := update b.state.subscriptions id none }.names :=
    names_prune _ _ _ _
  funext i
  by_cases hi : i = id
  · rw [hi, hname]
    simp [names, InProcessBroker.polled, hself]
  · have hother := congrFun hchecked i
    simp only [names, update_of_ne hi] at hother
    simp [names, InProcessBroker.polled, hself, hi, hother]

end BrokerState

/-! ## Counts -/

namespace InProcessBroker

/-- The catalog counts what the index lists. -/
def Counted (b : InProcessBroker) : Prop :=
  ∀ t entry, b.catalog.get t = some entry →
    entry.consumerCount = (b.state.subscriptionsByEventType t).card

variable {b : InProcessBroker}

theorem Counted.congr {b' : InProcessBroker} (h : b.Counted) (hcatalog : b'.catalog = b.catalog)
    (hindex : b'.state.subscriptionsByEventType = b.state.subscriptionsByEventType) :
    b'.Counted := by
  unfold Counted
  rw [hcatalog, hindex]
  exact h

theorem subscribed_counted (h : b.Counted) (hbooks : b.state.Books) (now : Int) (t : String)
    (start : Nat) (subject consumer : Option String) (hcount : b.state.nextSubscription < u64Max) :
    (b.subscribed now t start subject consumer).Counted := by
  have hfresh : subId (b.state.nextSubscription + 1) ∉ b.state.subscriptionsByEventType t := by
    rw [hbooks.index, hbooks.unused _ (Nat.lt_succ_self _)]
    simp
  intro u entry hentry
  by_cases hu : u = t
  · subst hu
    obtain ⟨old, hold, rfl⟩ : ∃ old, b.catalog.get u = some old ∧
        { old with consumerCount := saturatingSucc old.consumerCount } = entry := by
      simpa [subscribed, EventCatalog.get, EventCatalog.incrementConsumerCount] using hentry
    have hcard := h u old hold
    have hlt : old.consumerCount < u64Max := by
      have := hbooks.bounded u
      omega
    have hnew := Finset.card_insert_of_notMem hfresh
    simp only [saturatingSucc_of_lt hlt, subscribed, BrokerState.addSubscription, newSubscription,
      saturatingSucc_of_lt hcount, update_self, prune_state, BrokerState.pruneExpired_index]
    omega
  · have hold : b.catalog.get u = some entry := by
      simpa [subscribed, EventCatalog.get, EventCatalog.incrementConsumerCount, hu] using hentry
    have hcard := h u entry hold
    simpa [subscribed, BrokerState.addSubscription, newSubscription, hu] using hcard

end InProcessBroker

/-! ## Runs -/

namespace BrokerRun

variable {semver : String → Bool} {catalog : EventCatalog} {config : BrokerConfig}
  {mode : EventValidationMode} {b : InProcessBroker} {calls : List BrokerCall} {r r' : BrokerRun}
  {a : BrokerCall}

/-- No poll is refused, and the next subscription gets a new number. -/
def Unrefused (r : BrokerRun) : BrokerCall → Prop
  | .subscribe .. => r.broker.state.nextSubscription < u64Max
  | .poll now id _ => ∀ sub, r.broker.state.subscriptions id = some sub →
    (r.broker.checked now id sub.eventType).validateFromCursor sub.eventType sub.cursor = .ok ()
  | _ => True

def Uncancelled (r : BrokerRun) : BrokerCall → Prop
  | .cancel id => r.broker.state.subscriptions id = none
  | _ => True

theorem books_step (h : r.broker.state.Books) (ha : r.Unrefused a)
    (hs : r.step semver a = some r') : r'.broker.state.Books := by
  cases step_move hs with
  | stay => exact h
  | prune t => exact h.prune t _ _
  | @deliver _ now event =>
    refine (h.prune event.eventType r.broker.config.retentionWindow now).congr
      (funext fun id => BrokerState.names_each _ event.eventType (fun sub => ?_) id) rfl rfl
    split <;> exact ⟨rfl, rfl⟩
  | @add now t _ subject consumer start =>
    have hadd := (h.prune t r.broker.config.retentionWindow now).add
      (r.broker.newSubscription now t start subject consumer)
      (by simp [InProcessBroker.newSubscription, saturatingSucc_of_lt ha])
    rw [InProcessBroker.subscribed_state ha]
    simpa using hadd
  | refuse hsub hvalid =>
    rw [ha _ hsub] at hvalid
    cases hvalid
  | serve hsub =>
    exact h.congr (BrokerState.names_polled h hsub _ _) (BrokerState.pruneExpired_index _ _ _ _)
      (BrokerState.pruneExpired_nextSubscription _ _ _ _)
  | forget hsub => exact h.forget hsub

theorem counted_step (h : r.broker.Counted) (hbooks : r.broker.state.Books) (ha : r.Unrefused a)
    (hc : r.Uncancelled a) (hs : r.step semver a = some r') : r'.broker.Counted := by
  cases step_move hs with
  | stay => exact h
  | prune | deliver | refuse | serve => exact h.congr rfl (BrokerState.pruneExpired_index _ _ _ _)
  | add => exact InProcessBroker.subscribed_counted h hbooks _ _ _ _ _ ha
  | forget hsub => cases hsub.symm.trans hc

theorem books_default : BrokerState.default.Books where
  named := nofun
  index := fun id t => by simp [BrokerState.default, BrokerState.names]
  unused := fun _ _ => rfl
  bounded := fun _ => by simp [BrokerState.default]

/-- In runs in which no poll is refused, the index lists exactly the live subscriptions of each
type, and a poll that is not refused and fails changes nothing. If also no subscription is
cancelled, the consumer counts are the numbers of live subscriptions. -/
theorem subscription_books_agree (hnew : InProcessBroker.new catalog config mode = .ok b)
    (hzero : ∀ t entry, catalog.get t = some entry → entry.consumerCount = 0)
    (halong : Along (step semver) Unrefused (start b) calls)
    (hrun : run (step semver) (start b) calls = some r) :
    r.broker.state.IndexExact ∧
    (Along (step semver) Uncancelled (start b) calls →
      ∀ t entry, r.broker.catalog.get t = some entry →
        entry.consumerCount = (r.broker.state.liveIds t).ncard) ∧
    ∀ now id maxEvents e, r.Unrefused (.poll now id maxEvents) →
      (r.broker.poll now id maxEvents).1 = .error e →
      (r.broker.poll now id maxEvents).2 = r.broker := by
  obtain ⟨hstate, hcatalog, _⟩ := InProcessBroker.new_state hnew
  have hstart : (start b).broker.state.Books := by
    rw [start, hstate]
    exact books_default
  have hbooks : r.broker.state.Books := by
    refine invariant (fun r => r.broker.state.Books) ?_ hstart halong hrun
    intro s a s' hs ha hstep
    exact books_step hs ha hstep
  have hexact : r.broker.state.IndexExact := fun id t =>
    (hbooks.index id t).trans (BrokerState.mem_liveIds hbooks).symm
  refine ⟨hexact, fun hkept t entry hentry => ?_, fun now id maxEvents e ha herr => ?_⟩
  · obtain ⟨_, hcounted⟩ : r.broker.state.Books ∧ r.broker.Counted := by
      refine invariant (fun r => r.broker.state.Books ∧ r.broker.Counted) ?_
        ⟨hstart, ?_⟩ (halong.and hkept) hrun
      · rintro s a s' ⟨hs, hcount⟩ ⟨ha, hc⟩ hstep
        exact ⟨books_step hs ha hstep, counted_step hcount hs ha hc hstep⟩
      · intro t entry hentry
        rw [start, hcatalog] at hentry
        rw [hzero t entry hentry, start, hstate]
        rfl
    have hset : r.broker.state.liveIds t = ↑(r.broker.state.subscriptionsByEventType t) := by
      ext id
      exact (hexact id t).symm
    rw [hcounted t entry hentry, hset, Set.ncard_coe_finset]
  · rcases r.broker.poll_cases now id maxEvents with
      ⟨_, hr, _⟩ | ⟨sub, hsub, ⟨e', hrefused, _⟩ | ⟨_, queue, _, hr, _⟩⟩
    · rw [hr]
    · rw [ha sub hsub] at hrefused
      cases hrefused
    · rw [hr] at herr
      cases herr

/-- Two readers, a publication, and one of the readers polls. -/
def twoReaders : List BrokerCall :=
  [.subscribe 0 ordersType "0" none none,
    .subscribe 0 ordersType "0" none none,
    .publish 0 (orderCreated "evt-1"), .poll 0 "sub-2" 10]

theorem along_twoReaders : Along (step fun _ => true) Unrefused (start ordersBroker)
    twoReaders := by
  refine .cons (show (0 : Nat) < u64Max by decide) fun r₁ h₁ => ?_
  cases h₁
  refine .cons (show (1 : Nat) < u64Max by decide) fun r₂ h₂ => ?_
  cases h₂
  refine .cons trivial fun r₃ h₃ => ?_
  cases h₃
  refine .cons (fun sub hsub => ?_) fun _ _ => .nil _
  cases hsub
  rfl

theorem subscription_books_agree_twoReaders : ∃ r entry,
    InProcessBroker.new ordersCatalog .default .migration = .ok ordersBroker ∧
    run (step fun _ => true) (start ordersBroker) twoReaders = some r ∧
    r.broker.catalog.get ordersType = some entry ∧ entry.consumerCount = 2 ∧
    (r.broker.state.liveIds ordersType).ncard = 2 ∧ r.broker.state.IndexExact := by
  have hnew := ordersBroker_new
  have hzero : ∀ t entry, ordersCatalog.get t = some entry → entry.consumerCount = 0 := by
    intro t entry hentry
    simp only [EventCatalog.get, ordersCatalog] at hentry
    split at hentry
    · cases hentry
      rfl
    · cases hentry
  obtain ⟨hindex, hcount, _⟩ := subscription_books_agree hnew hzero along_twoReaders rfl
  have hkept : Along (step fun _ => true) Uncancelled (start ordersBroker) twoReaders :=
    ⟨trivial, fun _ _ => ⟨trivial, fun _ _ => ⟨trivial, fun _ _ => ⟨trivial, fun _ _ => trivial⟩⟩⟩⟩
  have hlive := hcount hkept ordersType _ rfl
  exact ⟨_, _, hnew, rfl, rfl, rfl, hlive.symm.trans rfl, hindex⟩

/-- A refused poll takes the subscription out of the map and leaves it in the index, and later calls
no longer find it. A cancelled subscription is still counted. -/
theorem books_disagree :
    (∃ r, run (step fun _ => true) (start ordersBroker)
        [.subscribe 0 ordersType "0" none none, .publish 0 (orderCreated "evt-1"),
          .poll 0 "sub-1" 10, .publish 0 (orderCreated "evt-2"),
          .publish 1000000000000 (orderCreated "evt-3")] = some r ∧
      r.broker.state.subscriptions "sub-1" ≠ none ∧
      (r.broker.poll 1000000000000 "sub-1" 10).1 =
        .error (.cursorExpired ordersType "2") ∧
      ∃ b, (r.broker.poll 1000000000000 "sub-1" 10).2 = b ∧
        b.state.subscriptions "sub-1" = none ∧
        "sub-1" ∈ b.state.subscriptionsByEventType ordersType ∧
        (b.poll 1000000000000 "sub-1" 10).1 = .error (.subscriptionNotFound "sub-1") ∧
        (b.cancel "sub-1").1 = .error (.subscriptionNotFound "sub-1")) ∧
    ∃ r entry, run (step fun _ => true) (start ordersBroker)
        [.subscribe 0 ordersType "0" none none, .cancel "sub-1"] = some r ∧
      r.broker.catalog.get ordersType = some entry ∧ entry.consumerCount = 1 ∧
      r.broker.state.liveIds ordersType = ∅ := by
  refine ⟨⟨_, rfl, nofun, rfl, _, rfl, rfl, ?_, rfl, rfl⟩, _, _, rfl, rfl, rfl, ?_⟩
  · exact List.mem_cons_self
  · refine Set.eq_empty_iff_forall_notMem.2 fun id => ?_
    rintro ⟨sub, hsub, _⟩
    have hmap : update (update (fun _ => none) "sub-1"
        (some ⟨"sub-1", ordersType, none, none, 0, []⟩)) "sub-1" none id = some sub :=
      hsub
    simp at hmap

end BrokerRun

end Traverse.Events

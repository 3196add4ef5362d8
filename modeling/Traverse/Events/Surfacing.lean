import Traverse.Events.Accounting

/-!
# Events.Surfacing

What polls of durable-mode subscriptions return. A record can be read as soon as the writer has
appended it, which is before its publish call has an outcome and before a revocation: a poll in
between returns an event that is then rejected (`rejected_event_surfaces`). When every read finds
the journal without such records (`NothingOpen`), what polls return belongs to calls that have
returned Ok (`rejected_never_surfaces`).
-/

namespace Traverse.Events

open Decimal Journal List Function DurableBroker Machine

namespace DurableBroker

variable {β : Type} {c : RecordCodec TraverseEvent} {ops : EventBroker β} {base : Nat}
  {w w' : DurableBroker β}

/-- The call that wrote the record has returned Ok, if it is a call of this broker. -/
def Vetted (w : DurableBroker β) (cursor : String) : Prop :=
  ∀ call, w.owner cursor = some call → ∃ event, w.calls call = some (.returned event (.ok ()))

instance (w : DurableBroker β) (cursor : String) : Decidable (w.Vetted cursor) :=
  decidable_of_iff (∀ call, w.owner cursor = some call →
      ∃ phase, w.calls call = some phase ∧ phase = .returned phase.event (.ok ())) <| by
    refine forall₂_congr fun call _ => ⟨?_, ?_⟩
    · rintro ⟨phase, h, he⟩
      exact ⟨_, he ▸ h⟩
    · rintro ⟨event, h⟩
      exact ⟨_, h, rfl⟩

/-- No unrevoked record waits for the outcome of its call, or for its revocation. -/
def NothingOpen (w : DurableBroker β) : Prop :=
  ∀ a ∈ w.root.acks, a.seq ∉ revoked w.root.acks → w.Vetted a.cursor
  deriving Decidable

/-- The journal is read only when nothing in it is open. -/
def ReadsSettled (w : DurableBroker β) (a : Step) : Prop := a = .pollRead → w.NothingOpen
  deriving Decidable

/-- An event that was read: it is in the log, and vetted. -/
def Surfaced (w : DurableBroker β) (e : BrokerEvent) : Prop :=
  (∃ a ∈ w.root.acks, a.cursor = e.cursor) ∧ w.Vetted e.cursor

structure Surfacing (c : RecordCodec TraverseEvent) (base : Nat) (w : DurableBroker β) :
    Prop where
  tracked : Tracked c base w
  returned : ∀ poll ∈ w.durablePolls, ∀ e ∈ poll.events, w.Surfaced e
  reading : ∀ p ∈ w.poller, ∀ e ∈ p.delivered, w.Surfaced e

variable {e : BrokerEvent} {a : Step}

theorem Surfaced.follows (h : w.Surfaced e) (ht : Tracked c base w) (hf : Follows w w') :
    w'.Surfaced e := by
  obtain ⟨⟨a, ha, hc⟩, hv⟩ := h
  rcases hf with he | m
  · have hlog : w'.root.acks = w.root.acks := congrArg Protocol.log he
    have howner : w'.owner = w.owner := congrArg Protocol.owner he
    have hcalls : w'.calls = w.calls := congrArg Protocol.calls he
    refine ⟨⟨a, hlog ▸ ha, hc⟩, fun call ho => ?_⟩
    rw [howner] at ho
    rw [hcalls]
    exact hv call ho
  · refine ⟨⟨a, ?_, hc⟩, fun call ho => ?_⟩
    · rcases m.log with ⟨hl, _⟩ | ⟨_, _, _, _, _, _, hl⟩ | ⟨_, _, _, _, _, _, hl⟩
      · exact (show w'.root.acks = w.root.acks from hl) ▸ ha
      · exact (show w'.root.acks = _ from hl) ▸ mem_append_left _ ha
      · exact (show w'.root.acks = _ from hl) ▸ mem_append_left _ ha
    · rcases Protocol.Accounts.owner_cases m ho with ho | ⟨_, _, _, _, _, hnext⟩
      · obtain ⟨event, hret⟩ := hv call ho
        exact ⟨event, m.returned hret⟩
      · -- the new record would have the cursor of an old one
        exact absurd (hc.trans hnext) (ht.accounts.fresh_cursor ha)

/-! ## Reading -/

/-- A round of the loop delivers what it delivered before and records of its batch. -/
theorem mem_scanBatch {sub : DurableSubscriptionState} {maxEvents : Nat} :
    ∀ {batch : List (String × TraverseEvent)} {cursor : String} {delivered : List BrokerEvent},
      e ∈ (scanBatch sub maxEvents batch cursor delivered).2 →
        e ∈ delivered ∨ (e.cursor, e.event) ∈ batch := by
  intro batch
  induction batch with
  | nil =>
    intro cursor delivered h
    exact .inl h
  | cons p rest ih =>
    obtain ⟨cur, event⟩ := p
    intro cursor delivered h
    simp only [scanBatch] at h
    have hnew : e ∈ delivered ++ [⟨cur, event⟩] →
        e ∈ delivered ∨ (e.cursor, e.event) ∈ (cur, event) :: rest := by
      intro hmem
      rcases mem_append.1 hmem with hmem | hmem
      · exact .inl hmem
      rw [mem_singleton] at hmem
      subst hmem
      exact .inr mem_cons_self
    split at h
    · split at h
      · exact hnew h
      rcases ih h with hmem | hmem
      · exact hnew hmem
      · exact .inr (mem_cons_of_mem _ hmem)
    · rcases ih h with hmem | hmem
      · exact .inl hmem
      · exact .inr (mem_cons_of_mem _ hmem)

/-- What a read has delivered when it is over, and what it hands on to the next read. -/
theorem pollRead_delivered {j : DurableEventJournal TraverseEvent} {p : Poller}
    (hp : w.poller = some p) :
    (∃ poll ∈ (w.pollRead c j p).durablePolls, e ∈ poll.events) ∨
        (∃ q ∈ (w.pollRead c j p).poller, e ∈ q.delivered) →
      (∃ poll ∈ w.durablePolls, e ∈ poll.events) ∨ (∃ q ∈ w.poller, e ∈ q.delivered) ∨
        ∃ batch, (j.replayFrom c w.root.dir p.cursor p.maxEvents).1 = .ok batch ∧
          (e.cursor, e.event) ∈ batch := by
  intro h
  unfold pollRead at h
  cases hres : (j.replayFrom c w.root.dir p.cursor p.maxEvents).1 with
  | error f =>
    simp only [hres] at h
    rcases h with ⟨poll, hmem, he⟩ | ⟨q, hq, _⟩
    · exact .inl ⟨poll, hmem, he⟩
    · cases hq
  | ok batch =>
    simp only [hres, takeBatch] at h
    have hscan : e ∈ (scanBatch p.sub p.maxEvents batch p.cursor p.delivered).2 →
        (∃ poll ∈ w.durablePolls, e ∈ poll.events) ∨ (∃ q ∈ w.poller, e ∈ q.delivered) ∨
          ∃ b, Except.ok batch = (Except.ok b : Except Fault _) ∧ (e.cursor, e.event) ∈ b := by
      intro hmem
      rcases mem_scanBatch hmem with hmem | hmem
      · exact .inr (.inl ⟨p, hp, hmem⟩)
      · exact .inr (.inr ⟨batch, rfl, hmem⟩)
    split at h
    · rcases h with ⟨poll, hmem, he⟩ | ⟨q, hq, _⟩
      · rcases mem_append.1 hmem with hmem | hmem
        · exact .inl ⟨poll, hmem, he⟩
        rw [mem_singleton] at hmem
        subst hmem
        exact hscan he
      · cases hq
    · rcases h with ⟨poll, hmem, he⟩ | ⟨q, hq, he⟩
      · exact .inl ⟨poll, hmem, he⟩
      · cases hq
        exact hscan he

/-- Steps other than a poll of a durable-mode subscription leave the polls alone. -/
theorem step_polls (hs : w.step c ops a = some w') (hread : a ≠ .pollRead)
    (hpoll : ∀ id n, a ≠ .pollDurable id n) :
    w'.durablePolls = w.durablePolls ∧ w'.poller = w.poller := by
  cases hc : a.consumer with
  | false => exact ⟨(step_apart hs hc).1.durablePolls, (step_apart hs hc).1.poller⟩
  | true =>
    cases takes_of_step hs with
    | subscribe =>
      obtain ⟨_, _, _, _, heq⟩ := subscribe_eq c ops w _ _ _ _
      rw [heq]
      exact ⟨rfl, rfl⟩
    | pollLive => unfold pollLive; split <;> exact ⟨rfl, rfl⟩
    | pollDurable => exact absurd rfl (hpoll _ _)
    | pollRead => exact absurd rfl hread
    | cancel => unfold cancel; split <;> exact ⟨rfl, rfl⟩
    | publish | settle | handOff | sendRevoke | settleRevoke | receive | append | acknowledge
    | revoke | acknowledgeRevoke => cases hc

/-! ## Runs -/

theorem Surfacing.step (h : Surfacing c base w) (hcalm : Calm w a) (hsettled : ReadsSettled w a)
    (hs : w.step c ops a = some w') : Surfacing c base w' := by
  obtain ⟨ht, hf⟩ := h.tracked.step hcalm.1 hcalm.2 hs
  -- what has been read before stays vetted; what is read now is vetted because nothing is open
  have hold : ∀ e, (∃ poll ∈ w.durablePolls, e ∈ poll.events) ∨ (∃ q ∈ w.poller, e ∈ q.delivered) →
      w'.Surfaced e := by
    rintro e (⟨poll, hmem, he⟩ | ⟨q, hq, he⟩)
    · exact (h.returned poll hmem e he).follows h.tracked hf
    · exact (h.reading q hq e he).follows h.tracked hf
  have hall : ∀ e, (∃ poll ∈ w'.durablePolls, e ∈ poll.events) ∨
      (∃ q ∈ w'.poller, e ∈ q.delivered) → w'.Surfaced e := by
    intro e he
    by_cases hread : a = .pollRead
    · subst hread
      cases takes_of_step hs with
      | @pollRead p j hp hj =>
        rcases pollRead_delivered hp he with hmem | hmem | ⟨batch, hres, hmem⟩
        · exact hold e (.inl hmem)
        · exact hold e (.inr hmem)
        obtain ⟨a, ha, hc, _, hn⟩ := h.tracked.logged.replay_mem hj hres hmem
        have hc : a.cursor = e.cursor := hc
        have hsurf : w.Surfaced e := ⟨⟨a, ha, hc⟩, hc ▸ hsettled rfl a ha hn⟩
        exact hsurf.follows h.tracked hf
    · by_cases hpoll : ∃ id n, a = .pollDurable id n
      · obtain ⟨id, n, rfl⟩ := hpoll
        cases takes_of_step hs with
        | pollDurable =>
          refine hold e ?_
          revert he
          unfold pollDurable
          split
          · exact fun h => h
          split
          · rintro (⟨poll, hmem, he⟩ | ⟨q, hq, _⟩)
            · rcases mem_append.1 hmem with hmem | hmem
              · exact .inl ⟨poll, hmem, he⟩
              rw [mem_singleton] at hmem
              subst hmem
              cases he
            · cases hq
          · rintro (⟨poll, hmem, he⟩ | ⟨q, hq, he⟩)
            · exact .inl ⟨poll, hmem, he⟩
            · cases hq
              cases he
      · obtain ⟨h1, h2⟩ := step_polls hs hread fun id n hp => hpoll ⟨id, n, hp⟩
        rw [h1, h2] at he
        exact hold e he
  exact ⟨ht, fun poll hmem e he => hall e (.inl ⟨poll, hmem, he⟩),
    fun q hq e he => hall e (.inr ⟨q, hq, he⟩)⟩

/-- If the journal is read only when no unrevoked record is waiting for the outcome of its call,
no poll of a durable-mode subscription returns an event whose publish call returns an error: its
call has returned Ok. -/
theorem rejected_never_surfaces {config : JournalConfig} {timeout : Nat}
    {root : Root TraverseEvent} {inner : β} {earlier : List (Call TraverseEvent)}
    {w₀ : DurableBroker β} {steps : List Step} (hroot : LayoutRun c earlier root)
    (hopen : openBroker c ops config timeout root inner = some w₀)
    (halong : Along (step c ops) (fun w a => Calm w a ∧ ReadsSettled w a) w₀ steps)
    (hrun : run (step c ops) w₀ steps = some w) :
    ∀ poll ∈ w.durablePolls, ∀ e ∈ poll.events, ∀ call, w.owner e.cursor = some call →
      ∃ event, w.calls call = some (.returned event (.ok ())) := by
  have hstart : Surfacing c root.acks.length w₀ := by
    refine ⟨tracked_open hroot hopen, ?_, ?_⟩
    all_goals
      obtain ⟨root', j, _, _, _, rfl⟩ := openBroker_eq hopen
      intro x hx
      cases hx
  have h : Surfacing c root.acks.length w := by
    refine invariant (Surfacing c root.acks.length) ?_ hstart halong hrun
    rintro s a s' hs ⟨hcalm, hsettled⟩ hstep
    exact hs.step hcalm hsettled hstep
  intro poll hmem e he call ho
  exact (h.returned poll hmem e he).2 call ho

/-! ## The window between append and revocation -/

/-- Two orders, and a consumer that comes back when the wrapped broker has forgotten them. -/
def comeback : List Step :=
  undisturbed 0 (orderCreated "evt-1") 0 ++ undisturbed 1 (orderCreated "evt-2") 0 ++
    [.subscribe 1000000000000 ordersType "1" none]

theorem rejected_never_surfaces_comeback : ∃ w₀ w : DurableBroker InProcessBroker,
    openBroker eventCodec ordersOps .default 2000 .empty ordersBroker = some w₀ ∧
    run (step eventCodec ordersOps) w₀
      (comeback ++ [.pollDurable "durable-sub-1" 10, .pollRead]) = some w ∧
    (∃ poll ∈ w.durablePolls, ∃ e ∈ poll.events, w.owner e.cursor = some 1) ∧
    ∀ poll ∈ w.durablePolls, ∀ e ∈ poll.events, ∀ call, w.owner e.cursor = some call →
      ∃ event, w.calls call = some (.returned event (.ok ())) := by
  obtain ⟨w₀, w, hopen, hpath, hpoll⟩ := exists_orders_path
    (P := fun w a => Calm w a ∧ ReadsSettled w a)
    (D := fun _ w => ∃ poll ∈ w.durablePolls, ∃ e ∈ poll.events, w.owner e.cursor = some 1)
    (comeback ++ [.pollDurable "durable-sub-1" 10, .pollRead])
    (by rw [eventCodec_eq]; decide +kernel)
  exact ⟨w₀, w, hopen, hpath.2, hpoll,
    rejected_never_surfaces layoutRun_nil hopen hpath.1 hpath.2⟩

/-- The consumer polls while the writer has appended the third order and not yet looked whether
its call is still waiting; then the call gives up. -/
def tooEarly : List Step :=
  [.publish 2 (orderCreated "evt-3"), .receive, .append 0 none, .pollDurable "durable-sub-1" 10,
    .pollRead, .settle 2]

/-- The poll has returned an event whose publish call then returns an error. -/
theorem rejected_event_surfaces : ∃ w₀ w : DurableBroker InProcessBroker,
    openBroker eventCodec ordersOps .default 2000 .empty ordersBroker = some w₀ ∧
    Along (step eventCodec ordersOps) Calm w₀ (comeback ++ tooEarly) ∧
    run (step eventCodec ordersOps) w₀ (comeback ++ tooEarly) = some w ∧
    ∃ poll ∈ w.durablePolls, ∃ e ∈ poll.events, e.event = orderCreated "evt-3" ∧
      w.owner e.cursor = some 2 ∧
      ∃ error, w.calls 2 = some (.returned (orderCreated "evt-3") (.error error)) := by
  obtain ⟨w₀, w, hopen, hpath, poll, hmem, e, he, hevent, howner, hcall⟩ :=
    exists_orders_path (P := Calm) (D := fun _ w =>
        ∃ poll ∈ w.durablePolls, ∃ e ∈ poll.events, e.event = orderCreated "evt-3" ∧
          w.owner e.cursor = some 2 ∧ w.calls 2 = some (.returned (orderCreated "evt-3")
            (.error (.journalWriteTimeout "durable write exceeded 2000ms; event rejected"))))
      (comeback ++ tooEarly) (by rw [eventCodec_eq]; decide +kernel)
  exact ⟨w₀, w, hopen, hpath.1, hpath.2, poll, hmem, e, he, hevent, howner, _, hcall⟩

end DurableBroker

end Traverse.Events

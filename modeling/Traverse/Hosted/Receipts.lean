import Traverse.Hosted.Consumer

/-!
# Hosted.Receipts

What a publish receipt is good for. A repeated publish call changes nothing, but its receipt names
the operation id and not a position in the log, so it is the first receipt only where that one
happens to have the same text (`SameReceipt`). A first receipt is a position to replay from while
the window lasts.
-/

namespace Traverse.Hosted

open Lines Window List Machine

section Repeating

variable {σ : Type} {T : HostedSyncTransport σ} {sha256 : Bytes → Bytes} {seen : σ → List String}
  {r : Run σ}

/-- An id is repeated only where its first receipt is the one that a repetition gets. -/
def SameReceipt (r : Run σ) : Call → Prop
  | .publish operation => ∀ first ∈ r.accepted,
    first.operation.operationId = operation.operationId →
      first.receipt = deduplicated operation.operationId
  | _ => True

instance (r : Run σ) : DecidablePred (SameReceipt r)
  | .publish _ => by dsimp only [SameReceipt]; infer_instance
  | .connect _ | .refreshCredential _ | .replayFrom _ | .advanceClock _ | .setRelayAvailable _ =>
    .isTrue trivial

/-- Every acknowledgement of an id carries the receipt of the first one. -/
def OneReceipt (r : Run σ) : Prop :=
  ∀ p ∈ r.published, ∃ first ∈ r.accepted,
    first.operation.operationId = p.operation.operationId ∧ p.receipt = first.receipt

theorem OneReceipt.after (hT : Relays T sha256 seen) (h : Booked T sha256 seen r)
    (hone : OneReceipt r) {call : Call} (hcall : SameReceipt r call) :
    OneReceipt (r.after T call) := by
  cases call with
  | publish operation =>
    rcases Run.publish_cases hT h operation with
      ⟨e, _, hafter⟩ | ⟨⟨first, hfirst, hid⟩, _, p, hp, _, hafter, haccepted⟩ |
      ⟨_, _, _, p, _, _, _, _, _, _, hafter, haccepted⟩
    · rw [hafter]
      exact hone
    · intro q hq
      rw [haccepted]
      rw [hafter] at hq
      rcases mem_append.1 hq with hq | hq
      · exact hone q hq
      · rw [mem_singleton.1 hq, hp]
        exact ⟨first, hfirst, hid, (hcall first hfirst hid).symm⟩
    · intro q hq
      rw [haccepted]
      rw [hafter] at hq
      rcases mem_append.1 hq with hq | hq
      · obtain ⟨first, hfirst, hsame⟩ := hone q hq
        exact ⟨first, mem_append_left _ hfirst, hsame⟩
      · exact ⟨q, mem_append_right _ hq, rfl, rfl⟩
  | connect | refreshCredential | replayFrom | advanceClock | setRelayAvailable => exact hone

end Repeating

namespace SharedRelay

variable {sha256 : Bytes → Bytes} {r : Run SharedRelay}

variable {session : HostedSyncCredential}

theorem replayFrom_receipt (hs : Stored sha256 r) (hi : Indexed r)
    (hlive : r.transport.connection.ensureLive = .ok session) {before rest : List Publication}
    {first : Publication} (hsplit : r.accepted = before ++ first :: rest)
    (hwindow : r.transport.connection.nowMs ≤ first.atMs + r.transport.connection.replayWindowMs) :
    r.transport.replayFrom (some first.receipt.cursor) =
      (.ok (.delivered (rest.map (·.operation)) (nextCursor rest (some first.receipt.cursor))),
        r.transport) := by
  have hrecent : r.transport.connection.floor ≤ first.atMs := Nat.sub_le_of_le_add hwindow
  rw [replayFrom_answer hs hi hlive, retained,
    answer_after hsplit hs.booked.ordered hi.nodup hrecent]

end SharedRelay

namespace AblyHostedSyncTransport

variable {sha256 : Bytes → Bytes} {r : Run AblyHostedSyncTransport}

variable {session : HostedSyncCredential}

/-- No other scope of the run has the channel of this one: its digest is its own. -/
def OwnChannel (sha256 : Bytes → Bytes) (r : Run AblyHostedSyncTransport) (scope : String) : Prop :=
  ∀ p ∈ r.published, ablyChannelForScope sha256 p.scope = ablyChannelForScope sha256 scope →
    p.scope = scope

theorem OwnChannel.channelLog {scope : String} (h : OwnChannel sha256 r scope) :
    channelLog sha256 r (ablyChannelForScope sha256 scope) =
      r.accepted.filter (·.scope = scope) := by
  refine filter_congr fun p hp => decide_eq_decide.2 ⟨?_, ?_⟩
  · exact h p (Run.mem_accepted.1 hp).1
  · exact congrArg _

theorem replayFrom_receipt (hs : Stored sha256 r)
    (hlive : r.transport.connection.ensureLive = .ok session)
    (htoken : session.token ∈ r.transport.edge.tokens (ablyChannelForScope sha256 session.scope))
    (hown : OwnChannel sha256 r session.scope) {before rest : List Publication}
    {first : Publication} (hsplit : r.accepted = before ++ first :: rest)
    (hscope : first.scope = session.scope)
    (hwindow : r.transport.connection.nowMs ≤ first.atMs + r.transport.connection.replayWindowMs) :
    r.transport.replayFrom sha256 (some first.receipt.cursor) =
      .ok (.delivered ((rest.filter (·.scope = session.scope)).map (·.operation))
        (nextCursor (rest.filter (·.scope = session.scope)) (some first.receipt.cursor))) := by
  have hlog : channelLog sha256 r (ablyChannelForScope sha256 session.scope) =
      before.filter (·.scope = session.scope) ++
        first :: rest.filter (·.scope = session.scope) := by
    rw [hown.channelLog, hsplit, filter_append, filter_cons, if_pos (by simp [hscope])]
  have hrecent : r.transport.connection.floor ≤ first.atMs := Nat.sub_le_of_le_add hwindow
  rw [replayFrom_answer hs hlive htoken (.inr (.inr (by simp [hlog]))),
    answer_after hlog (hs.ordered _) (nodup_recent (hs.nodup _)) hrecent]

end AblyHostedSyncTransport

open SharedRelay (inMemory FreshCursor syncOperation credentialFor joins sends)
open AblyHostedSyncTransport (ably ablyChannelForScope OwnChannel)

/-- In a run where an id is repeated only if its first receipt has the text of a repetition, and in
the in-memory transport no new message gets the cursor of one that is still there: a repeated
publish call returns the first receipt and leaves the transport as it is, and whoever replays from
a receipt while its operation is inside the window gets exactly what was published after it. Over
Ably this is what was published under the scope of the session. -/
theorem receipts_usable (sha256 : Bytes → Bytes) :
    (∀ (calls : List Call) (r : Run SharedRelay),
      Path (Run.step (inMemory sha256))
        (fun r call => SameReceipt r call ∧ FreshCursor r call) (.start .new) calls r →
      r.transport.connection.connectionState = .connected →
      (∀ operation, r.transport.connection.validateOperation operation = .ok () →
        SameReceipt r (.publish operation) →
        ∀ first ∈ r.accepted, first.operation.operationId = operation.operationId →
          (inMemory sha256).publish r.transport operation = (.ok first.receipt, r.transport)) ∧
      ∀ p ∈ r.published, ∃ before first rest, r.accepted = before ++ first :: rest ∧
        first.operation.operationId = p.operation.operationId ∧ p.receipt = first.receipt ∧
        (r.transport.connection.nowMs ≤ first.atMs + r.transport.connection.replayWindowMs →
          ∃ next, ((inMemory sha256).replayFrom r.transport (some p.receipt.cursor)).1 =
            .ok (.delivered (rest.map (·.operation)) next))) ∧
    ∀ (tokens : String → List String) (calls : List Call) (r : Run AblyHostedSyncTransport),
      Path (Run.step (ably sha256)) SameReceipt (.start (.new (.authorized tokens))) calls r →
      r.transport.connection.connectionState = .connected →
      (∀ operation, r.transport.connection.validateOperation operation = .ok () →
        SameReceipt r (.publish operation) →
        ∀ first ∈ r.accepted, first.operation.operationId = operation.operationId →
          (ably sha256).publish r.transport operation = (.ok first.receipt, r.transport)) ∧
      ∀ p ∈ r.published, ∃ before first rest, r.accepted = before ++ first :: rest ∧
        first.operation.operationId = p.operation.operationId ∧ p.receipt = first.receipt ∧
        ∀ session, r.transport.connection.session = some session →
          session.token ∈ r.transport.edge.tokens (ablyChannelForScope sha256 session.scope) →
          OwnChannel sha256 r session.scope → first.scope = session.scope →
          r.transport.connection.nowMs ≤ first.atMs + r.transport.connection.replayWindowMs →
          ∃ next, ((ably sha256).replayFrom r.transport (some p.receipt.cursor)).1 =
            .ok (.delivered ((rest.filter (·.scope = session.scope)).map (·.operation)) next) := by
  constructor
  · intro calls r h hconnected
    obtain ⟨hs, hi, hone⟩ := invariant
      (fun r => SharedRelay.Stored sha256 r ∧ SharedRelay.Indexed r ∧ OneReceipt r)
      (by
        rintro r call r' ⟨hs, hi, hone⟩ hcall hstep
        cases hstep
        exact ⟨hs.after call, hi.after hs hcall.2,
          hone.after (SharedRelay.relays sha256) hs.booked hcall.1⟩)
      ⟨.start, .start, fun p hp => absurd hp not_mem_nil⟩ h.1 h.2
    obtain ⟨session, hlive⟩ := Connection.ensureLive_of_connected hconnected
    refine ⟨fun operation hvalid hsame first hfirst hid => ?_, fun p hp => ?_⟩
    · rw [hsame first hfirst hid]
      have hseen := (hs.booked.seen _).2 ⟨first, hfirst, hid⟩
      simp only [inMemory, SharedRelay.publish, hlive, hvalid, if_pos hseen]
    · obtain ⟨first, hfirst, hid, hreceipt⟩ := hone p hp
      obtain ⟨before, rest, hsplit⟩ := append_of_mem hfirst
      refine ⟨before, first, rest, hsplit, hid, hreceipt, fun hwindow => ?_⟩
      rw [hreceipt]
      exact ⟨_, congrArg Prod.fst (SharedRelay.replayFrom_receipt hs hi hlive hsplit hwindow)⟩
  · intro tokens calls r h hconnected
    obtain ⟨hs, hone⟩ := invariant
      (fun r => AblyHostedSyncTransport.Stored sha256 r ∧ OneReceipt r)
      (by
        rintro r call r' ⟨hs, hone⟩ hcall hstep
        cases hstep
        exact ⟨hs.after call, hone.after (AblyHostedSyncTransport.relays sha256) hs.booked hcall⟩)
      ⟨.start tokens, fun p hp => absurd hp not_mem_nil⟩ h.1 h.2
    obtain ⟨live, hlive⟩ := Connection.ensureLive_of_connected hconnected
    refine ⟨fun operation hvalid hsame first hfirst hid => ?_, fun p hp => ?_⟩
    · rw [hsame first hfirst hid]
      have hseen := (hs.booked.seen _).2 ⟨first, hfirst, hid⟩
      simp only [ably, AblyHostedSyncTransport.publish, hlive, hvalid, if_pos hseen]
    · obtain ⟨first, hfirst, hid, hreceipt⟩ := hone p hp
      obtain ⟨before, rest, hsplit⟩ := append_of_mem hfirst
      refine ⟨before, first, rest, hsplit, hid, hreceipt,
        fun session hsession htoken hown hscope hwindow => ?_⟩
      obtain rfl : live = session :=
        Option.some.inj ((Connection.ensureLive_ok hlive).1.symm.trans hsession)
      rw [hreceipt]
      exact ⟨_,
        AblyHostedSyncTransport.replayFrom_receipt hs hlive htoken hown hsplit hscope hwindow⟩

theorem receipts_usable_repeated :
    (∃ r : Run SharedRelay, Path (Run.step (inMemory id))
      (fun r call => SameReceipt r call ∧ FreshCursor r call) (.start .new)
      [joins "scope-a", sends "1", sends "1"] r ∧
      r.transport.connection.connectionState = .connected ∧
      (inMemory id).publish r.transport (syncOperation "1") =
        (.ok ⟨"1", "cursor:1"⟩, r.transport)) ∧
    ∃ r : Run AblyHostedSyncTransport, Path (Run.step (ably id)) SameReceipt
      (.start (.new openEdge))
      [joins "scope-a", sends "op-1"] r ∧
      r.transport.connection.connectionState = .connected ∧
      ∃ p ∈ r.published, ∃ rest next,
        ((ably id).replayFrom r.transport (some p.receipt.cursor)).1 =
          .ok (.delivered rest next) := by
  constructor
  · refine exists_path (D := fun r => r.transport.connection.connectionState = .connected ∧
      r.transport.connection.validateOperation (syncOperation "1") = .ok () ∧
      SameReceipt r (.publish (syncOperation "1")) ∧ ∃ first ∈ r.accepted,
        first.operation.operationId = "1" ∧ first.receipt = ⟨"1", "cursor:1"⟩)
          (by decide +kernel) ?_
    rintro r hpath ⟨hconnected, hvalid, hsame, first, hfirst, hid, hreceipt⟩
    rw [← hreceipt]
    exact ⟨hconnected,
      ((receipts_usable id).1 _ r hpath hconnected).1 _ hvalid hsame first hfirst hid⟩
  · refine exists_path (D := fun r => r.transport.connection.connectionState = .connected ∧
      r.transport.connection.session = some (credentialFor "scope-a") ∧
      "token-a" ∈ r.transport.edge.tokens scopeAChannel ∧ r.published ≠ [] ∧
      (∀ q ∈ r.published, q.scope = "scope-a") ∧ r.transport.connection.nowMs = 0)
      (by decide +kernel) ?_
    rintro r hpath ⟨hconnected, hsession, htoken, hpublished, hscope, hnow⟩
    obtain ⟨p, hp⟩ := exists_mem_of_ne_nil _ hpublished
    obtain ⟨before, first, rest, hsplit, _, _, hreplay⟩ :=
      ((receipts_usable id).2 _ _ r hpath hconnected).2 p hp
    have hfirst : first ∈ r.accepted := by simp [hsplit]
    exact ⟨hconnected, p, hp, _, hreplay _ hsession htoken (fun q hq _ => hscope q hq)
      (hscope first (Run.mem_accepted.1 hfirst).1) (hnow ▸ Nat.zero_le _)⟩

/-- The receipt of a repetition differs from the first one, and no replay can start from it. -/
theorem repeated_receipt_refused :
    (∃ r : Run SharedRelay, run (Run.step (inMemory id)) (.start .new)
      [joins "scope-a", sends "op-1", sends "op-1"] = some r ∧
      r.transport.connection.connectionState = .connected ∧
      r.published.map (·.operation) = [syncOperation "op-1", syncOperation "op-1"] ∧
      r.published.map (·.receipt.cursor) = ["cursor:1", "cursor:op-1"] ∧
      ((inMemory id).replayFrom r.transport (some "cursor:op-1")).1 =
        .ok (.resyncRequired (some "cursor:1"))) ∧
    ∃ r : Run AblyHostedSyncTransport,
      run (Run.step (ably id)) (.start (.new openEdge))
        [joins "scope-a", sends "op-1", sends "op-1"] = some r ∧
      r.transport.connection.connectionState = .connected ∧
      r.published.map (·.operation) = [syncOperation "op-1", syncOperation "op-1"] ∧
      r.published.map (·.receipt.cursor) =
        [InMemoryAblyEdge.channelCursor scopeAChannel 1, "cursor:op-1"] ∧
      ((ably id).replayFrom r.transport (some "cursor:op-1")).1 =
        .ok (.resyncRequired (some (InMemoryAblyEdge.channelCursor scopeAChannel 1))) := by
  refine ⟨⟨_, rfl, rfl, by decide, by decide, rfl⟩, _, rfl, rfl, by decide, by decide +kernel, ?_⟩
  rfl

end Traverse.Hosted

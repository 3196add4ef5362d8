import Traverse.Hosted.Ably
import Traverse.Hosted.Relay

/-!
# Hosted.Consumer

A consumer that starts with `replay_from(None)` and then passes the cursor of its previous replay.
What it has received is a prefix of what was accepted, up to its last replay (`follows`), as long
as it never starts from the oldest message after operations have expired, and in the in-memory
transport no cursor is given out twice. Otherwise operations are skipped without notice
(`operation_skipped`).
-/

namespace Traverse.Hosted

open Lines Window List AblyHostedSyncTransport Machine

structure Consumer (σ : Type) where
  run : Run σ
  cursor : Option String
  received : List EncryptedSyncOperation
  resynced : Bool
  /-- How many operations had been accepted when the last replay was delivered. -/
  polledAt : Nat

inductive ConsumerCall where
  | call (call : Call)
  | poll

variable {σ : Type} (T : HostedSyncTransport σ)

namespace Consumer

def start (transport : σ) : Consumer σ := ⟨.start transport, none, [], false, 0⟩

/-- After a `ResyncRequired` the consumer gets its data elsewhere and polls no more. -/
def step (k : Consumer σ) : ConsumerCall → Option (Consumer σ)
  | .call call => some { k with run := k.run.after T call }
  | .poll =>
    if k.resynced then none
    else
      let run := k.run.after T (.replayFrom k.cursor)
      match (T.replayFrom k.run.transport k.cursor).1 with
      | .ok (.delivered operations cursor) => some
        { k with
          run := run
          cursor := some cursor
          received := k.received ++ operations
          polledAt := k.run.accepted.length }
      | .ok (.resyncRequired _) => some { k with run := run, resynced := true }
      | .error _ => some { k with run := run }

/-- The consumer has not received anything yet and asks for what is there. -/
def AtStart (k : Consumer σ) : Prop := k.cursor = none ∨ k.cursor = some "0"

/-- A consumer at the start polls only while nothing that was accepted has left the window. -/
def Attentive (C : Run σ → Call → Prop) (k : Consumer σ) : ConsumerCall → Prop
  | .call call => C k.run call
  | .poll => C k.run (.replayFrom k.cursor) ∧ (k.AtStart →
    ∀ p ∈ k.run.accepted, (T.connection k.run.transport).floor ≤ p.atMs)

instance {C : Run σ → Call → Prop} [∀ r call, Decidable (C r call)] (k : Consumer σ) :
    ∀ call, Decidable (Attentive T C k call)
  | .call call => inferInstanceAs (Decidable (C k.run call))
  | .poll => inferInstanceAs (Decidable (_ ∧ (_ ∨ _ → _)))

end Consumer

/-- Under the condition `C` the transport keeps `I`, and then answers from what it accepted. -/
structure Serves (C : Run σ → Call → Prop) (I : Run σ → Prop) : Prop where
  after : ∀ r call, I r → C r call → I (r.after T call)
  grows : ∀ r call, I r → ∃ added, (r.after T call).accepted = r.accepted ++ added
  ordered : ∀ r, I r → Ordered (·.atMs) r.accepted
  unique : ∀ r, I r → (r.accepted.map (·.receipt.cursor)).Nodup
  named : ∀ r, I r → ∀ p ∈ r.accepted, p.receipt.cursor ≠ "0" ∧ p.receipt.cursor ≠ ""
  replayFrom : ∀ r cursor result, I r → (T.replayFrom r.transport cursor).1 = .ok result →
    cursor = none ∨ cursor = some "0" ∨ r.accepted ≠ [] →
    result = answer (recent (·.atMs) (T.connection r.transport).floor r.accepted) cursor

namespace Consumer

/-- What had been accepted at the last replay. -/
def taken (k : Consumer σ) : List Publication := k.run.accepted.take k.polledAt

/-- The consumer has received what was accepted up to its last replay, and its cursor says so. -/
structure Follows (k : Consumer σ) : Prop where
  received : k.received = k.taken.map (·.operation)
  bound : k.polledAt ≤ k.run.accepted.length
  cursor : k.cursor.getD "0" = nextCursor k.taken none
  started : k.cursor = none → k.polledAt = 0

theorem follows_start (transport : σ) : (start transport).Follows :=
  ⟨rfl, Nat.le_refl _, rfl, fun _ => rfl⟩

variable {T} {C : Run σ → Call → Prop} {I : Run σ → Prop} {k k' : Consumer σ}

theorem Follows.grows (h : k.Follows) {added : List Publication}
    (haccepted : k'.run.accepted = k.run.accepted ++ added) (hcursor : k'.cursor = k.cursor)
    (hreceived : k'.received = k.received) (hpolled : k'.polledAt = k.polledAt) : k'.Follows := by
  have htaken : k'.taken = k.taken := by
    rw [taken, haccepted, hpolled, take_append_of_le_length h.bound, taken]
  refine ⟨?_, ?_, ?_, ?_⟩
  · rw [hreceived, htaken, h.received]
  · rw [hpolled, haccepted, length_append]
    exact Nat.le_add_right_of_le h.bound
  · rw [hcursor, htaken, h.cursor]
  · rw [hcursor, hpolled]
    exact h.started

theorem Follows.deliver (h : k.Follows) {run : Run σ} (hrun : run.accepted = k.run.accepted)
    {rest : List Publication} (hrest : k.run.accepted = k.taken ++ rest) :
    Follows { k with
      run := run
      cursor := some (nextCursor rest k.cursor)
      received := k.received ++ rest.map (·.operation)
      polledAt := k.run.accepted.length } := by
  have htaken : run.accepted.take k.run.accepted.length = k.taken ++ rest := by
    rw [hrun, take_length, ← hrest]
  refine ⟨?_, hrun ▸ Nat.le_refl _, ?_, fun hnone => by cases hnone⟩
  · rw [taken, htaken, map_append, h.received]
  · rw [taken, htaken, nextCursor_append, ← h.cursor]
    cases k.cursor with
    | none | some => rfl

theorem Follows.poll (hT : Serves T C I) (hi : I k.run) (h : k.Follows)
    (hstart : k.AtStart → ∀ p ∈ k.run.accepted, (T.connection k.run.transport).floor ≤ p.atMs)
    (hstep : k.step T .poll = some k') : k'.Follows := by
  have hsame : (k.run.after T (.replayFrom k.cursor)).accepted = k.run.accepted := rfl
  simp only [step] at hstep
  split at hstep
  · cases hstep
  cases hreplay : (T.replayFrom k.run.transport k.cursor).1 with
  | error e =>
    simp only [hreplay, Option.some.injEq] at hstep
    subst hstep
    exact h.grows (hsame.trans (append_nil _).symm) rfl rfl rfl
  | ok result =>
    have hanswer := hT.replayFrom k.run k.cursor result hi hreplay
    simp only [hreplay] at hstep
    rcases eq_nil_or_concat k.taken with hnil | ⟨before, p, htaken⟩
    · -- nothing received so far: everything accepted is recent and is delivered
      have hat : k.AtStart := by
        have hcursor := h.cursor
        rw [hnil] at hcursor
        cases hc : k.cursor with
        | none => exact .inl hc
        | some c =>
          rw [hc] at hcursor
          exact .inr (hc.trans (congrArg some hcursor))
      rw [recent_eq_self (hstart hat), answer_start (hT.named k.run hi) hat] at hanswer
      rw [hanswer (hat.elim .inl fun hzero => .inr (.inl hzero))] at hstep
      cases hstep
      exact h.deliver hsame (by rw [hnil, nil_append])
    · -- the cursor is the one of the last publication received
      rw [concat_eq_append] at htaken
      have hsplit : k.run.accepted = before ++ p :: k.run.accepted.drop k.polledAt := by
        conv_lhs => rw [← take_append_drop k.polledAt k.run.accepted]
        rw [← taken, htaken, append_assoc]
        rfl
      have hcursor : k.cursor = some p.receipt.cursor := by
        have hcursor := h.cursor
        rw [htaken, nextCursor_concat] at hcursor
        cases hc : k.cursor with
        | none =>
          have hzero := h.started hc
          rw [taken, hzero, take_zero] at htaken
          exact absurd htaken.symm (by simp)
        | some c =>
          rw [hc] at hcursor
          exact congrArg some hcursor
      have hmem : p ∈ k.run.accepted := by
        rw [hsplit]
        simp
      have hresult := hanswer (.inr (.inr fun hnil => by simp [hnil] at hmem))
      rw [hcursor] at hresult
      by_cases hrecent : (T.connection k.run.transport).floor ≤ p.atMs
      · rw [answer_after hsplit (hT.ordered k.run hi) (nodup_recent (hT.unique k.run hi)) hrecent]
          at hresult
        rw [hresult, ← hcursor] at hstep
        cases hstep
        exact h.deliver hsame (take_append_drop ..).symm
      · obtain ⟨oldest, hexpired⟩ := answer_expired (hT.unique k.run hi) hmem
          (hT.named k.run hi p hmem) (Nat.not_le.1 hrecent)
        rw [hresult, hexpired] at hstep
        cases hstep
        exact h.grows (hsame.trans (append_nil _).symm) rfl rfl rfl

theorem follows (hT : Serves T C I) {transport : σ} (hstart : I (.start transport))
    {calls : List ConsumerCall}
    (h : Path (step T) (Attentive T C) (start transport) calls k) : k.Follows := by
  refine (invariant (fun k : Consumer σ => I k.run ∧ k.Follows) ?_
    ⟨hstart, follows_start transport⟩ h.1 h.2).2
  rintro k call k' ⟨hi, hfollows⟩ hcall hstep
  cases call with
  | call call =>
    cases hstep
    obtain ⟨added, hadded⟩ := hT.grows k.run call hi
    exact ⟨hT.after k.run call hi hcall, hfollows.grows hadded rfl rfl rfl⟩
  | poll =>
    refine ⟨?_, hfollows.poll hT hi hcall.2 hstep⟩
    have hrun : k'.run = k.run.after T (.replayFrom k.cursor) := by
      simp only [step] at hstep
      split at hstep
      · cases hstep
      split at hstep <;> cases hstep <;> rfl
    rw [hrun]
    exact hT.after k.run _ hi hcall.1

end Consumer

/-! ## The two transports -/

namespace SharedRelay

variable (sha256 : Bytes → Bytes)

/-- The text that names a new message was not given out before. -/
def UnusedCursor (r : Run SharedRelay) : Call → Prop
  | .publish operation => ¬r.Accepted operation.operationId →
    ∀ p ∈ r.accepted, p.receipt.cursor ≠ cursorText (r.transport.messages.length + 1)
  | _ => True

instance (r : Run SharedRelay) : DecidablePred (UnusedCursor r)
  | .publish _ => by dsimp only [UnusedCursor]; infer_instance
  | .connect _ | .refreshCredential _ | .replayFrom _ | .advanceClock _ | .setRelayAvailable _ =>
    .isTrue trivial

variable {sha256} in
theorem UnusedCursor.fresh {r : Run SharedRelay} (hs : Stored sha256 r) {call : Call}
    (h : UnusedCursor r call) : FreshCursor r call := by
  cases call with
  | publish operation =>
    intro hnew m hm
    rw [hs.messages] at hm
    obtain ⟨p, hp, rfl⟩ := mem_map.1 hm
    exact h hnew p (mem_retained.1 hp).1
  | connect | refreshCredential | replayFrom | advanceClock | setRelayAvailable => trivial

theorem nodup_after {r : Run SharedRelay} (hs : Stored sha256 r)
    (hn : (r.accepted.map (·.receipt.cursor)).Nodup) {call : Call} (hcall : UnusedCursor r call) :
    ((r.after (inMemory sha256) call).accepted.map (·.receipt.cursor)).Nodup := by
  cases call with
  | publish operation =>
    rcases hs.after_publish operation with ⟨_, haccepted⟩ |
      ⟨hacc, p, _, hreceipt, _, _, _, haccepted, _⟩
    · rw [haccepted]
      exact hn
    rw [haccepted]
    refine nodup_map_concat hn fun q hq => ?_
    rw [hreceipt]
    exact hcall hacc q hq
  | connect | refreshCredential | replayFrom | advanceClock | setRelayAvailable => exact hn

theorem serves : Serves (inMemory sha256) UnusedCursor fun r =>
    Stored sha256 r ∧ Indexed r ∧ (r.accepted.map (·.receipt.cursor)).Nodup where
  after := fun r call ⟨hs, hi, hn⟩ hcall =>
    ⟨hs.after call, hi.after hs (hcall.fresh hs), nodup_after sha256 hs hn hcall⟩
  grows := fun r call h => Run.accepted_after (relays sha256) h.1.booked call
  ordered := fun r h => h.1.booked.ordered
  unique := fun r h => h.2.2
  named := by
    intro r h p hp
    obtain ⟨seq, hseq⟩ := h.1.named p hp
    rw [hseq]
    exact cursorText_ne_start seq
  replayFrom := by
    intro r cursor result h hresult _
    cases hlive : r.transport.connection.ensureLive with
    | error e =>
      simp only [inMemory, replayFrom, hlive] at hresult
      cases hresult
    | ok session =>
      simp only [inMemory, replayFrom_answer h.1 h.2.1 hlive] at hresult
      exact (Except.ok.inj hresult).symm

end SharedRelay

namespace AblyHostedSyncTransport

variable (sha256 : Bytes → Bytes)

theorem live_of_replayFrom {s : AblyHostedSyncTransport} {cursor : Option String}
    {result : HostedSyncReplayResult} (h : s.replayFrom sha256 cursor = .ok result) :
    ∃ session, s.connection.ensureLive = .ok session ∧
      session.token ∈ s.edge.tokens (ablyChannelForScope sha256 session.scope) := by
  cases hlive : s.connection.ensureLive with
  | error e =>
    simp only [replayFrom, hlive] at h
    cases h
  | ok session =>
    refine ⟨session, rfl, ?_⟩
    by_contra htoken
    simp only [replayFrom, hlive, InMemoryAblyEdge.historyFrom] at h
    by_cases hup : s.edge.available = false
    · rw [if_pos hup] at h
      cases h
    · rw [if_neg hup, if_pos htoken] at h
      cases h

theorem channelLog_eq_accepted {r : Run AblyHostedSyncTransport} {scope : String}
    (h : Scoped (ably sha256) scope r) :
    channelLog sha256 r (ablyChannelForScope sha256 scope) = r.accepted := by
  refine filter_eq_self.2 fun p hp => ?_
  rw [h.published p (Run.mem_accepted.1 hp).1]
  exact decide_eq_true rfl

theorem serves (scope : String) : Serves (ably sha256) (fun _ call => OneScope scope call) fun r =>
    Stored sha256 r ∧ Scoped (ably sha256) scope r where
  after := fun r call ⟨hs, hscoped⟩ hcall => ⟨hs.after call, hscoped.after (relays sha256) hcall⟩
  grows := fun r call h => Run.accepted_after (relays sha256) h.1.booked call
  ordered := fun r h => h.1.booked.ordered
  unique := fun r h => channelLog_eq_accepted sha256 h.2 ▸ h.1.nodup _
  named := fun r h p hp => h.1.named (channelLog_eq_accepted sha256 h.2 ▸ hp)
  replayFrom := by
    intro r cursor result ⟨hs, hscoped⟩ hresult hcursor
    obtain ⟨session, hlive, htoken⟩ := live_of_replayFrom sha256 hresult
    have hscope : session.scope = scope :=
      hscoped.session session (Connection.ensureLive_ok hlive).1
    have hlog := channelLog_eq_accepted sha256 hscoped
    rw [← hscope] at hlog
    have hanswer := replayFrom_answer hs hlive htoken (hlog.symm ▸ hcursor)
    rw [hlog] at hanswer
    exact Except.ok.inj (hresult.symm.trans hanswer)

end AblyHostedSyncTransport

/-- A consumer whose polls from the start find everything accepted still inside the window has
received, at every moment, exactly what was accepted up to its last replay, each operation once and
in the order of publication. In the in-memory transport this needs that no cursor is given out
twice, in the other one that all sessions have one scope. -/
theorem replay_misses_nothing (sha256 : Bytes → Bytes) :
    (∀ (calls : List ConsumerCall) (k : Consumer SharedRelay),
      Path (Consumer.step (SharedRelay.inMemory sha256))
        (Consumer.Attentive (SharedRelay.inMemory sha256) SharedRelay.UnusedCursor)
        (.start .new) calls k →
      k.received = (k.run.accepted.take k.polledAt).map (·.operation)) ∧
    ∀ (scope : String) (tokens : String → List String) (calls : List ConsumerCall)
      (k : Consumer AblyHostedSyncTransport),
      Path (Consumer.step (ably sha256))
        (Consumer.Attentive (ably sha256) fun _ call => OneScope scope call)
        (.start (.new (.authorized tokens))) calls k →
      k.received = (k.run.accepted.take k.polledAt).map (·.operation) := by
  constructor
  · intro calls k h
    exact (Consumer.follows (SharedRelay.serves sha256) ⟨.start, .start, nodup_nil⟩ h).received
  · intro scope tokens calls k h
    refine (Consumer.follows (serves sha256 scope) ⟨.start tokens, ?_⟩ h).received
    exact ⟨fun c hc => (by cases hc), fun p hp => absurd hp not_mem_nil⟩

open SharedRelay (inMemory syncOperation UnusedCursor joins sends)
open AblyHostedSyncTransport (ably)

/-- Every channel accepts the token of `credentialFor`. -/
def openEdge : InMemoryAblyEdge := .authorized fun _ => ["token-a"]

def scopeAChannel : String := ablyChannelForScope id "scope-a"

theorem replay_misses_nothing_two_polls :
    (∃ k : Consumer SharedRelay, Path (Consumer.step (inMemory id))
      (Consumer.Attentive (inMemory id) UnusedCursor) (.start .new)
      [.call (joins "scope-a"), .call (sends "op-1"), .poll, .call (sends "op-2"), .poll] k ∧
      k.received = (k.run.accepted.take k.polledAt).map (·.operation)) ∧
    ∃ k : Consumer AblyHostedSyncTransport, Path (Consumer.step (ably id))
      (Consumer.Attentive (ably id) fun _ call => OneScope "scope-a" call) (.start (.new openEdge))
      [.call (joins "scope-a"), .call (sends "op-1"), .poll] k ∧
      k.received = (k.run.accepted.take k.polledAt).map (·.operation) := by
  constructor
  · exact exists_path (D := fun _ => True) (by decide +kernel)
      fun k h _ => (replay_misses_nothing id).1 _ k h
  · refine exists_path (D := fun _ => True) ?_
      fun k h _ => (replay_misses_nothing id).2 "scope-a" _ _ k h
    unfold ably replayFrom decodePayload
    simp only [Json.decode_eq]
    decide +kernel

/-- The first poll finds nothing and returns the cursor `0`. When `op-1` has expired before the next
poll, `0` still starts at the oldest message kept, and `op-1` is skipped. In the in-memory transport
a cursor that has expired can name a later message, which is then skipped too. -/
theorem operation_skipped :
    (∃ k : Consumer SharedRelay, run (Consumer.step (inMemory id)) (.start .new)
      [.call (joins "scope-a"), .poll, .call (sends "op-1"),
        .call (.advanceClock 200000), .call (sends "op-2"), .poll] = some k ∧
      k.run.accepted.map (·.operation) = [syncOperation "op-1", syncOperation "op-2"] ∧
      k.received = [syncOperation "op-2"] ∧ k.resynced = false) ∧
    (∃ k : Consumer AblyHostedSyncTransport,
      run (Consumer.step (ably id)) (.start (.new openEdge))
        [.call (joins "scope-a"), .poll, .call (sends "op-1"),
          .call (.advanceClock 200000), .call (sends "op-2"), .poll] = some k ∧
      k.run.accepted.map (·.operation) = [syncOperation "op-1", syncOperation "op-2"] ∧
      k.received = [syncOperation "op-2"] ∧ k.resynced = false) ∧
    ∃ k : Consumer SharedRelay, run (Consumer.step (inMemory id)) (.start .new)
      [.call (joins "scope-a"), .call (sends "op-1"), .poll,
        .call (.advanceClock 200000), .call (sends "op-2"), .poll] = some k ∧
      k.run.accepted.map (·.operation) = [syncOperation "op-1", syncOperation "op-2"] ∧
      k.received = [syncOperation "op-1"] ∧ k.resynced = false := by
  refine ⟨⟨_, rfl, by decide, by decide, rfl⟩, ?_, ⟨_, rfl, by decide, by decide, rfl⟩⟩
  unfold ably replayFrom decodePayload
  simp only [Json.decode_eq]
  decide +kernel

end Traverse.Hosted

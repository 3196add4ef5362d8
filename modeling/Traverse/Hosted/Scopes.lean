import Traverse.Hosted.Receipts

/-!
# Hosted.Scopes

Synchronization scopes. Neither transport keeps the ids it has seen by scope, and the in-memory one
keeps its queue for every scope. So a session sees only its own scope, and its publish calls are
not taken for those of another scope, as long as no id is used in two scopes, and in the in-memory
transport no session begins while operations of another scope are retained (`scopes_isolated`).
`scope_crossed` shows both crossings.
-/

namespace Traverse.Hosted

open Lines Window List Connection Machine

variable {sha256 : Bytes → Bytes}

section

variable {σ : Type} (T : HostedSyncTransport σ) (r : Run σ)

/-- The id of a publish call was not used under another scope than the session's. -/
def OwnId : Call → Prop
  | .publish operation => ∀ session, (T.connection r.transport).session = some session →
    ∀ p ∈ r.accepted, p.operation.operationId = operation.operationId → p.scope = session.scope
  | _ => True

/-- Replays deliver only what was published under the scope. -/
def OwnReplays (scope : String) : Prop :=
  ∀ cursor operations next, (T.replayFrom r.transport cursor).1 = .ok (.delivered operations next) →
    ∀ operation ∈ operations, ∃ p ∈ r.published, p.operation = operation ∧ p.scope = scope

/-- A publish call with the operation is acknowledged, and a replay then delivers it. -/
def Reaches (operation : EncryptedSyncOperation) : Prop :=
  ∃ receipt s', T.publish r.transport operation = (.ok receipt, s') ∧
    ∃ earlier next, (T.replayFrom s' none).1 = .ok (.delivered (earlier ++ [operation]) next)

end

namespace SharedRelay

variable {r : Run SharedRelay}

/-- What the map knows was published under the cursor and is retained. -/
def Sound (r : Run SharedRelay) : Prop :=
  ∀ c operation, r.transport.operationsByCursor c = some operation →
    ∃ p ∈ retained r, p.receipt.cursor = c ∧ p.operation = operation

theorem Sound.same (h : Sound r) {r' : Run SharedRelay} (hretained : retained r' = retained r)
    (hoperations : r'.transport.operationsByCursor = r.transport.operationsByCursor) :
    Sound r' := by
  intro c operation hc
  rw [hretained]
  exact h c operation (hoperations ▸ hc)

theorem Sound.after (h : Sound r) (hs : Stored sha256 r) (call : Call) :
    Sound (r.after (inMemory sha256) call) := by
  cases call with
  | connect credential => exact h.same (retained_connect credential) rfl
  | refreshCredential credential => exact h.same (retained_refreshCredential credential) rfl
  | publish operation =>
    rcases hs.after_publish operation with ⟨htransport, haccepted⟩ |
      ⟨_, p, hoperation, hreceipt, _, _, htransport, _, hretained⟩
    · refine h.same ?_ (by rw [htransport])
      rw [retained, haccepted, htransport]
      rfl
    intro c op hc
    rw [htransport] at hc
    rw [hretained]
    by_cases hnew : c = cursorText (r.transport.messages.length + 1)
    · have hop : operation = op := by simpa [append, hnew] using hc
      exact ⟨p, by simp, by rw [hreceipt, hnew], hoperation.trans hop⟩
    · obtain ⟨q, hq, hknown⟩ := h c op (by simpa [append, hnew] using hc)
      exact ⟨q, mem_append_left _ hq, hknown⟩
  | replayFrom cursor => exact (hs.after_replayFrom cursor).symm ▸ h
  | advanceClock nowMs =>
    obtain ⟨gone, hsplit, hops⟩ := hs.after_advanceClock nowMs
    intro c op hc
    rw [hops] at hc
    by_cases hgone : c ∈ gone.map (·.receipt.cursor)
    · simp [hgone] at hc
    obtain ⟨p, hp, rfl, hop⟩ := h c op (by simpa [hgone] using hc)
    rw [← hsplit, mem_append] at hp
    rcases hp with hp | hp
    · exact absurd (mem_map_of_mem hp) hgone
    · exact ⟨p, hp, rfl, hop⟩
  | setRelayAvailable available => exact h.same rfl rfl

/-- A session begins only in the scope of everything that is retained. -/
def OwnQueue (r : Run SharedRelay) : Call → Prop
  | .connect credential => ∀ p ∈ retained r, p.scope = credential.scope
  | _ => True

instance (r : Run SharedRelay) : DecidablePred (OwnQueue r)
  | .connect _ => by dsimp only [OwnQueue]; infer_instance
  | .refreshCredential _ | .publish _ | .replayFrom _ | .advanceClock _ | .setRelayAvailable _ =>
    .isTrue trivial

/-- What is retained has the scope of the session. -/
def InScope (r : Run SharedRelay) : Prop :=
  ∀ session, r.transport.connection.session = some session → ∀ p ∈ retained r,
    p.scope = session.scope

theorem InScope.after (h : InScope r) (hs : Stored sha256 r) {call : Call}
    (hcall : OwnQueue r call) : InScope (r.after (inMemory sha256) call) := by
  cases call with
  | connect credential =>
    intro session hsession p hp
    rw [retained_connect] at hp
    rcases connect_session hsession with hold | ⟨rfl, -⟩
    · exact h session hold p hp
    · exact hcall p hp
  | refreshCredential credential =>
    intro session hsession p hp
    rw [retained_refreshCredential] at hp
    obtain ⟨old, hold, hscope⟩ := refreshCredential_session hsession
    exact hscope ▸ h old hold p hp
  | publish operation =>
    rcases hs.after_publish operation with ⟨htransport, haccepted⟩ |
      ⟨_, p, _, _, _, hscope, htransport, _, hretained⟩
    · intro session hsession p hp
      rw [retained, haccepted, htransport] at hp
      exact h session (htransport ▸ hsession) p hp
    intro session hsession q hq
    rw [htransport] at hsession
    have hsession : r.transport.connection.session = some session := hsession
    rw [hretained, mem_append, mem_singleton] at hq
    rcases hq with hq | rfl
    · exact h session hsession q hq
    · rw [hscope, hsession]
      rfl
  | replayFrom cursor => exact (hs.after_replayFrom cursor).symm ▸ h
  | advanceClock nowMs =>
    intro session hsession p hp
    rw [retained_advanceClock] at hp
    exact h session ((r.transport.connection.advanceClock_session nowMs).symm.trans hsession) p
      (mem_recent.1 hp).1
  | setRelayAvailable available => exact h

theorem known_of_replayFrom (hs : Stored sha256 r) {cursor : Option String}
    {operations : List EncryptedSyncOperation} {next : String}
    (h : (r.transport.replayFrom cursor).1 = .ok (.delivered operations next)) :
    ∀ operation ∈ operations, ∃ c, r.transport.operationsByCursor c = some operation := by
  have hdeliver : r.transport.deliver cursor = .delivered operations next := by
    unfold replayFrom at h
    split at h
    · cases h
    simp only [hs.pruned] at h
    split at h
    · exact Except.ok.inj h
    · split at h
      · cases h
      · exact Except.ok.inj h
  intro operation hoperation
  obtain ⟨rfl, _⟩ := HostedSyncReplayResult.delivered.inj hdeliver
  obtain ⟨m, _, hm⟩ := mem_filterMap.1 hoperation
  exact ⟨m.cursor, hm⟩

/-- A new operation is acknowledged, and a replay from the start ends with it. -/
theorem publish_delivered (hs : Stored sha256 r) {session : HostedSyncCredential}
    (hlive : r.transport.connection.ensureLive = .ok session) {operation : EncryptedSyncOperation}
    (hvalid : r.transport.connection.validateOperation operation = .ok ())
    (hid : ¬r.Accepted operation.operationId) : Reaches (inMemory sha256) r operation := by
  have hseen : operation.operationId ∉ r.transport.seenOperationIds := fun hseen =>
    hid ((hs.booked.seen _).1 hseen)
  have hpublish : (inMemory sha256).publish r.transport operation =
      (.ok ⟨operation.operationId, cursorText (r.transport.messages.length + 1)⟩,
        r.transport.append sha256 operation) := by
    simp only [inMemory, publish, hlive, hvalid, if_neg hseen]
  refine ⟨_, _, hpublish, ?_⟩
  have hpruned := (hs.after (.publish operation)).pruned
  simp only [Run.after, hpublish] at hpruned
  have hsame : (r.transport.append sha256 operation).connection.ensureLive = .ok session := hlive
  simp only [inMemory, replayFrom, hsame, hpruned, deliver, startIndex, Option.bind_none,
    drop_zero]
  simp only [append, filterMap_append, filterMap_cons, Function.update_self,
    filterMap_nil]
  exact ⟨_, _, rfl⟩

end SharedRelay

namespace AblyHostedSyncTransport

variable {r : Run AblyHostedSyncTransport}

variable {session : HostedSyncCredential}

/-- Whatever the cursor is, a replay delivers operations of the session's channel. -/
theorem mem_of_replayFrom (hs : Stored sha256 r)
    (hsession : r.transport.connection.session = some session) {cursor : Option String}
    {operations : List EncryptedSyncOperation} {next : String}
    (h : r.transport.replayFrom sha256 cursor = .ok (.delivered operations next)) :
    ∀ operation ∈ operations,
      ∃ p ∈ channelLog sha256 r (ablyChannelForScope sha256 session.scope),
        p.operation = operation := by
  obtain ⟨live, hlive, htoken⟩ := live_of_replayFrom sha256 h
  obtain rfl : live = session :=
    Option.some.inj ((ensureLive_ok hlive).1.symm.trans hsession)
  intro operation hoperation
  by_cases hlog : channelLog sha256 r (ablyChannelForScope sha256 live.scope) = []
  · -- nothing was published to the channel, and nothing comes from it
    simp only [replayFrom, hlive, InMemoryAblyEdge.historyFrom, if_neg (hs.up hlive),
      if_neg (not_not.2 htoken), hs.channels, hlog, if_true] at h
    cases h
    cases hoperation
  · rw [replayFrom_answer hs hlive htoken (.inr (.inr hlog)), answer] at h
    split at h
    · cases h
      obtain ⟨p, hp, rfl⟩ := mem_map.1 hoperation
      exact ⟨p, (mem_recent.1 (mem_of_mem_drop hp)).1, rfl⟩
    · cases h

/-- A new operation is acknowledged, and a replay from the start ends with it. -/
theorem publish_delivered (hs : Stored sha256 r)
    (hlive : r.transport.connection.ensureLive = .ok session)
    (htoken : session.token ∈ r.transport.edge.tokens (ablyChannelForScope sha256 session.scope))
    {operation : EncryptedSyncOperation}
    (hvalid : r.transport.connection.validateOperation operation = .ok ())
    (hid : ¬r.Accepted operation.operationId) : Reaches (ably sha256) r operation := by
  have hseen : operation.operationId ∉ r.transport.seenOperationIds := fun hseen =>
    hid ((hs.booked.seen _).1 hseen)
  obtain ⟨receipt, hrelay⟩ : ∃ receipt, (ably sha256).publish r.transport operation =
      (.ok receipt,
        r.transport.append sha256 (ablyChannelForScope sha256 session.scope) operation) := by
    simp only [ably, publish, hlive, hvalid, if_neg hseen, relay, InMemoryAblyEdge.publish,
      if_neg (hs.up hlive), if_neg (not_not.2 htoken)]
    exact ⟨_, rfl⟩
  refine ⟨_, _, hrelay, ?_⟩
  rcases Run.publish_cases (relays sha256) hs.booked operation with
    ⟨e, he, _⟩ | ⟨hacc, _⟩ | ⟨_, cursor, s', p, hpublish, _, _, _, hp, _, hafter, haccepted⟩
  · rw [hrelay] at he
    cases he
  · exact absurd hacc hid
  · obtain ⟨_, rfl⟩ := Prod.mk.inj (hrelay.symm.trans hpublish)
    have hs' := hs.after (.publish operation)
    rw [hafter] at hs' haccepted
    have hlog : channelLog sha256
        ⟨r.transport.append sha256 (ablyChannelForScope sha256 session.scope) operation,
          r.published ++ [p]⟩ (ablyChannelForScope sha256 session.scope) =
        channelLog sha256 r (ablyChannelForScope sha256 session.scope) ++ [p] := by
      have hscope : p.scope = session.scope := by
        simp [hp, Run.publication, ably, (ensureLive_ok hlive).1]
      rw [channelLog_append haccepted, hscope, if_pos rfl]
    have hrecent : recent (·.atMs) r.transport.connection.floor [p] = [p] := by
      refine recent_eq_self fun q hq => ?_
      rw [mem_singleton.1 hq, hp]
      exact Nat.sub_le ..
    have hreplay : (r.transport.append sha256 (ablyChannelForScope sha256 session.scope)
        operation).replayFrom sha256 none =
          .ok (answer (recent (·.atMs) r.transport.connection.floor
          (channelLog sha256 r (ablyChannelForScope sha256 session.scope) ++ [p])) none) := by
      rw [← hlog]
      exact replayFrom_answer hs' hlive htoken (.inl rfl)
    rw [recent_append, hrecent, answer, startOf] at hreplay
    simp only [drop_zero, map_append, map_singleton, nextCursor_concat, hp] at hreplay
    exact ⟨_, _, hreplay⟩

end AblyHostedSyncTransport

open SharedRelay (inMemory OwnQueue syncOperation credentialFor joins sends)
open AblyHostedSyncTransport (ably ablyChannelForScope OwnChannel)

/-- A session gets only operations published under its scope. A publish call whose id was not used
under another scope, and not under this one, is acknowledged and delivered. In the in-memory
transport sessions have to begin in the scope of what is retained. -/
theorem scopes_isolated (sha256 : Bytes → Bytes) :
    (∀ (calls : List Call) (r : Run SharedRelay) (session : HostedSyncCredential),
      Path (Run.step (inMemory sha256)) OwnQueue (.start .new) calls r →
      r.transport.connection.session = some session →
      OwnReplays (inMemory sha256) r session.scope ∧
      ∀ operation, r.transport.connection.connectionState = .connected →
        r.transport.connection.validateOperation operation = .ok () →
        OwnId (inMemory sha256) r (.publish operation) →
        (∀ p ∈ r.accepted, p.scope = session.scope →
          p.operation.operationId ≠ operation.operationId) →
        Reaches (inMemory sha256) r operation) ∧
    ∀ (tokens : String → List String) (calls : List Call) (r : Run AblyHostedSyncTransport)
      (session : HostedSyncCredential),
      run (Run.step (ably sha256)) (.start (.new (.authorized tokens))) calls = some r →
      r.transport.connection.session = some session → OwnChannel sha256 r session.scope →
      OwnReplays (ably sha256) r session.scope ∧
      ∀ operation, r.transport.connection.connectionState = .connected →
        session.token ∈ r.transport.edge.tokens (ablyChannelForScope sha256 session.scope) →
        r.transport.connection.validateOperation operation = .ok () →
        OwnId (ably sha256) r (.publish operation) →
        (∀ p ∈ r.accepted, p.scope = session.scope →
          p.operation.operationId ≠ operation.operationId) →
        Reaches (ably sha256) r operation := by
  constructor
  · intro calls r session h hsession
    obtain ⟨hs, hsound, hscope⟩ := invariant
      (fun r => SharedRelay.Stored sha256 r ∧ SharedRelay.Sound r ∧ SharedRelay.InScope r)
      (by
        rintro r call r' ⟨hs, hsound, hscope⟩ hcall hstep
        cases hstep
        exact ⟨hs.after call, hsound.after hs call, hscope.after hs hcall⟩)
      ⟨.start, fun c op hc => (by cases hc), fun c hc => (by cases hc)⟩ h.1 h.2
    refine ⟨fun cursor operations next hreplay operation hoperation => ?_,
      fun operation hconnected hvalid hown hnew => ?_⟩
    · obtain ⟨c, hc⟩ := SharedRelay.known_of_replayFrom hs hreplay operation hoperation
      obtain ⟨p, hp, _, hop⟩ := hsound c operation hc
      exact ⟨p, (Run.mem_accepted.1 (SharedRelay.mem_retained.1 hp).1).1, hop,
        hscope session hsession p hp⟩
    · obtain ⟨live, hlive⟩ := ensureLive_of_connected hconnected
      refine SharedRelay.publish_delivered hs hlive hvalid ?_
      rintro ⟨p, hp, hid⟩
      exact hnew p hp (hown session hsession p hp hid) hid
  · intro tokens calls r session h hsession hchannel
    have hs := invariant (AblyHostedSyncTransport.Stored sha256)
      (by
        intro r call r' hs _ hstep
        cases hstep
        exact hs.after call)
      (.start tokens) (.of_forall (fun _ _ => trivial) _ calls) h
    refine ⟨fun cursor operations next hreplay operation hoperation => ?_,
      fun operation hconnected htoken hvalid hown hnew => ?_⟩
    · obtain ⟨p, hp, hop⟩ :=
        AblyHostedSyncTransport.mem_of_replayFrom hs hsession hreplay operation hoperation
      rw [hchannel.channelLog, mem_filter] at hp
      exact ⟨p, (Run.mem_accepted.1 hp.1).1, hop, of_decide_eq_true hp.2⟩
    · obtain ⟨live, hlive⟩ := ensureLive_of_connected hconnected
      obtain rfl : live = session :=
        Option.some.inj ((ensureLive_ok hlive).1.symm.trans hsession)
      refine AblyHostedSyncTransport.publish_delivered hs hlive htoken hvalid ?_
      rintro ⟨p, hp, hid⟩
      exact hnew p hp (hown live hsession p hp hid) hid

theorem scopes_isolated_other_id :
    (∃ r : Run SharedRelay, Path (Run.step (inMemory id)) OwnQueue (.start .new)
      [joins "scope-a", sends "op-1", .advanceClock 200000, joins "scope-b"] r ∧
      Reaches (inMemory id) r (syncOperation "op-2")) ∧
    ∃ r : Run AblyHostedSyncTransport,
      run (Run.step (ably id)) (.start (.new openEdge))
        [joins "scope-a", sends "op-1", joins "scope-b"] = some r ∧
      Reaches (ably id) r (syncOperation "op-2") := by
  constructor
  · refine exists_path (D := fun r =>
      r.transport.connection.session = some (credentialFor "scope-b") ∧
      r.transport.connection.connectionState = .connected ∧
      r.transport.connection.validateOperation (syncOperation "op-2") = .ok () ∧
      ∀ p ∈ r.accepted, p.operation.operationId ≠ "op-2") (by decide +kernel) ?_
    rintro r hpath ⟨hsession, hconnected, hvalid, hnew⟩
    exact ((scopes_isolated id).1 _ r _ hpath hsession).2 _ hconnected hvalid
      (fun _ _ p hp hid => absurd hid (hnew p hp)) fun p hp _ => hnew p hp
  · refine exists_run (P := fun _ _ => True) (D := fun r =>
      r.transport.connection.session = some (credentialFor "scope-b") ∧
      (∀ p ∈ r.published, ablyChannelForScope id p.scope ≠ ablyChannelForScope id "scope-b") ∧
      r.transport.connection.connectionState = .connected ∧
      "token-a" ∈ r.transport.edge.tokens (ablyChannelForScope id "scope-b") ∧
      r.transport.connection.validateOperation (syncOperation "op-2") = .ok () ∧
      ∀ p ∈ r.accepted, p.operation.operationId ≠ "op-2") (by decide +kernel) ?_
    rintro r hpath ⟨hsession, hscopes, hconnected, htoken, hvalid, hnew⟩
    exact ((scopes_isolated id).2 _ _ r _ hpath.2 hsession
      fun p hp hsame => absurd hsame (hscopes p hp)).2 _ hconnected htoken hvalid
      (fun _ _ p hp hid => absurd hid (hnew p hp)) fun p hp _ => hnew p hp

/-- A session of `scope-b` gets the operation published under `scope-a`. Over Ably an id that was
used under `scope-a` is acknowledged under `scope-b`, and its operation is not there. -/
theorem scope_crossed :
    (∃ r : Run SharedRelay, run (Run.step (inMemory id)) (.start .new)
      [joins "scope-a", sends "op-1", joins "scope-b"] = some r ∧
      r.transport.connection.session = some (credentialFor "scope-b") ∧
      (∀ p ∈ r.published, p.scope = "scope-a") ∧
      ((inMemory id).replayFrom r.transport none).1 =
        .ok (.delivered [syncOperation "op-1"] "cursor:1")) ∧
    ∃ r : Run AblyHostedSyncTransport,
      run (Run.step (ably id)) (.start (.new openEdge))
        [joins "scope-a", sends "op-1", joins "scope-b", sends "op-1"] = some r ∧
      r.published.map (fun p => (p.operation, p.scope)) =
        [(syncOperation "op-1", "scope-a"), (syncOperation "op-1", "scope-b")] ∧
      ((ably id).replayFrom r.transport none).1 = .ok (.delivered [] "0") := by
  refine ⟨⟨_, rfl, rfl, by decide, rfl⟩, _, rfl, by decide, ?_⟩
  rfl

end Traverse.Hosted

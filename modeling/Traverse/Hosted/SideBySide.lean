import Traverse.Hosted.Consumer

/-!
# Hosted.SideBySide

The two transports side by side, with the same calls. A cursor is passed on by naming the place
where it was handed out, so each transport gets its own back. What each has accepted is the same in
any run under one scope with tokens that the edge accepts (`Together.step`).
-/

namespace Traverse.Hosted

open Lines Window List Function Connection
open AblyHostedSyncTransport (ablyChannelForScope)
open SharedRelay (inMemory)

inductive PortCall where
  | connect (credential : HostedSyncCredential)
  | refreshCredential (credential : HostedSyncCredential)
  | publish (operation : EncryptedSyncOperation)
  /-- From the start, or from a cursor that was handed out before. -/
  | replayFrom (source : Option Nat)
  | advanceClock (nowMs : Nat)
  | setRelayAvailable (available : Bool)

/-- What a caller gets. -/
inductive Outcome where
  | session (result : Except HostedSyncError Unit)
  | published (result : Except HostedSyncError HostedSyncPublishReceipt)
  | replayed (result : Except HostedSyncError HostedSyncReplayResult)
  | quiet

namespace Outcome

def cursors : Outcome → List String
  | .published (.ok receipt) => [receipt.cursor]
  | .replayed (.ok (.delivered _ cursor)) => [cursor]
  | .replayed (.ok (.resyncRequired oldest)) => oldest.toList
  | _ => []

/-- The outcome without the names of cursors. -/
def erase : Outcome → Outcome
  | .published (.ok receipt) => .published (.ok { receipt with cursor := "" })
  | .replayed (.ok (.delivered operations _)) => .replayed (.ok (.delivered operations ""))
  | .replayed (.ok (.resyncRequired oldest)) =>
    .replayed (.ok (.resyncRequired (oldest.map fun _ => "")))
  | outcome => outcome

def of {σ : Type} (T : HostedSyncTransport σ) (s : σ) : Call → Outcome
  | .connect credential => .session (T.connect s credential).1
  | .refreshCredential credential => .session (T.refreshCredential s credential).1
  | .publish operation => .published (T.publish s operation).1
  | .replayFrom cursor => .replayed (T.replayFrom s cursor).1
  | .advanceClock _ => .quiet
  | .setRelayAvailable _ => .quiet

end Outcome

structure SideBySide where
  relay : Run SharedRelay
  ably : Run AblyHostedSyncTransport
  outcomes : List (Outcome × Outcome)

namespace SideBySide

variable (sha256 : Bytes → Bytes)

def start (tokens : String → List String) : SideBySide :=
  ⟨.start .new, .start (.new (.authorized tokens)), []⟩

variable (s : SideBySide)

/-- The cursors that both handed out, pair by pair. -/
def handed : List (String × String) :=
  s.outcomes.flatMap fun outcome => outcome.1.cursors.zip outcome.2.cursors

def resolve : PortCall → Option (Call × Call)
  | .connect credential => some (.connect credential, .connect credential)
  | .refreshCredential credential =>
    some (.refreshCredential credential, .refreshCredential credential)
  | .publish operation => some (.publish operation, .publish operation)
  | .replayFrom none => some (.replayFrom none, .replayFrom none)
  | .replayFrom (some source) =>
    s.handed[source]?.map fun pair => (.replayFrom (some pair.1), .replayFrom (some pair.2))
  | .advanceClock nowMs => some (.advanceClock nowMs, .advanceClock nowMs)
  | .setRelayAvailable available =>
    some (.setRelayAvailable available, .setRelayAvailable available)

def after (s : SideBySide) (call call' : Call) : SideBySide where
  relay := s.relay.after (inMemory sha256) call
  ably := s.ably.after (AblyHostedSyncTransport.ably sha256) call'
  outcomes := s.outcomes ++ [(.of (inMemory sha256) s.relay.transport call,
    .of (AblyHostedSyncTransport.ably sha256) s.ably.transport call')]

def step (call : PortCall) : Option SideBySide :=
  (s.resolve call).map fun (call, call') => s.after sha256 call call'

/-- The same outcomes up to a renaming of cursors, the same connection and the same lineage. -/
structure Agrees (s : SideBySide) : Prop where
  outcomes : ∀ outcome ∈ s.outcomes, outcome.1.erase = outcome.2.erase
  names : ∀ pair ∈ s.handed, ∀ other ∈ s.handed, pair.1 = other.1 ↔ pair.2 = other.2
  connectionState : s.relay.transport.connection.connectionState =
    s.ably.transport.connection.connectionState
  lineage : s.relay.transport.lineage = s.ably.transport.lineage

/-- One scope, and tokens that the edge accepts. -/
def Authorised (scope : String) (tokens : String → List String) : PortCall → Prop
  | .connect credential => credential.scope = scope ∧ (credential.token ≠ "" →
      credential.token ∈ tokens (ablyChannelForScope sha256 scope))
  | .refreshCredential credential => credential.token ≠ "" →
      credential.token ∈ tokens (ablyChannelForScope sha256 scope)
  | _ => True

/-- The cursor that the in-memory transport would acknowledge the operation with: `cursor:` and the
operation's id, or one more than the number of its messages. -/
def publishCursor (operation : EncryptedSyncOperation) : Option String :=
  let relay := s.relay.transport
  match relay.connection.ensureLive, relay.connection.validateOperation operation with
  | .ok _, .ok () => some (if operation.operationId ∈ relay.seenOperationIds
      then s!"cursor:{operation.operationId}" else cursorText (relay.messages.length + 1))
  | _, _ => none

/-- The in-memory transport acknowledges with a cursor that it has handed out for nothing else. -/
def OwnCursor : PortCall → Prop
  | .publish operation => ∀ cursor ∈ s.publishCursor operation, ∀ p ∈ s.relay.published,
      p.receipt.cursor = cursor →
        p.repeated = true ∧ p.operation.operationId = operation.operationId
  | _ => True

theorem publishCursor_eq (operation : EncryptedSyncOperation) : s.publishCursor operation =
    ((inMemory sha256).publish s.relay.transport operation).1.toOption.map (·.cursor) := by
  simp only [publishCursor, inMemory, SharedRelay.publish]
  cases s.relay.transport.connection.ensureLive with
  | error e => rfl
  | ok session =>
    cases s.relay.transport.connection.validateOperation operation with
    | error e => rfl
    | ok u =>
      dsimp only
      split <;> rfl

/-! ## What is accepted -/

/-- The acknowledged publications, pair by pair. -/
def ledger : List (Publication × Publication) :=
  s.relay.published.zip s.ably.published

/-- The publication in the in-memory transport and over Ably. -/
structure Twins (p q : Publication) : Prop where
  operation : p.operation = q.operation
  atMs : p.atMs = q.atMs
  repeated : p.repeated = q.repeated
  deduplicated : p.repeated = true →
    p.receipt = deduplicated p.operation.operationId ∧
    q.receipt = deduplicated p.operation.operationId

/-- What both are about to acknowledge is a repetition for both, or new for both. -/
def Acknowledged (scope : String) (s : SideBySide) (p q : Publication) : Prop :=
  s.relay.Accepted p.operation.operationId ∧ p.repeated = true ∨
  ¬s.relay.Accepted p.operation.operationId ∧ p.repeated = false ∧
    p.receipt.cursor = cursorText (s.relay.transport.messages.length + 1) ∧
    q.receipt.cursor = InMemoryAblyEdge.channelCursor
      (ablyChannelForScope sha256 scope) (s.ably.accepted.length + 1)

/-- Both have accepted the same, over the same connection. -/
structure Together (scope : String) (tokens : String → List String) (s : SideBySide) : Prop where
  relay : SharedRelay.Stored sha256 s.relay
  ably : AblyHostedSyncTransport.Stored sha256 s.ably
  oneScope : Scoped (AblyHostedSyncTransport.ably sha256) scope s.ably
  edgeTokens : s.ably.transport.edge.tokens = tokens
  session : ∀ credential, s.relay.transport.connection.session = some credential →
    credential.token ∈ tokens (ablyChannelForScope sha256 scope)
  connection : s.ably.transport.connection = s.relay.transport.connection
  lengths : s.relay.published.length = s.ably.published.length
  twins : ∀ pair ∈ s.ledger, Twins pair.1 pair.2
  receipts : ∀ pair ∈ s.ledger, (pair.1.receipt.cursor, pair.2.receipt.cursor) ∈ s.handed

variable {sha256} {scope : String} {tokens : String → List String} {s : SideBySide}

theorem mem_handed_after {pair : String × String} (h : pair ∈ s.handed) (call call' : Call) :
    pair ∈ (s.after sha256 call call').handed := by
  rw [handed, after, flatMap_append]
  exact mem_append_left _ h

namespace Together

variable {operation : EncryptedSyncOperation} {receipt receipt' : HostedSyncPublishReceipt}

theorem after_acknowledged {s₁ : SharedRelay} {s₂ : AblyHostedSyncTransport}
    (hrelay : s.relay.transport.publish sha256 operation = (.ok receipt, s₁))
    (hably : s.ably.transport.publish sha256 operation = (.ok receipt', s₂)) :
    s.after sha256 (.publish operation) (.publish operation) =
      ⟨⟨s₁, s.relay.published ++
          [s.relay.publication (inMemory sha256) operation receipt]⟩,
        ⟨s₂, s.ably.published ++
          [s.ably.publication (AblyHostedSyncTransport.ably sha256) operation receipt']⟩,
        s.outcomes ++ [(.published (.ok receipt), .published (.ok receipt'))]⟩ := by
  simp only [after, Run.after, Outcome.of, inMemory, AblyHostedSyncTransport.ably,
    hrelay, hably]

section

variable (h : Together sha256 scope tokens s)

include h

theorem fst_ledger : s.ledger.map Prod.fst = s.relay.published :=
  map_fst_zip h.lengths.le

theorem snd_ledger : s.ledger.map Prod.snd = s.ably.published :=
  map_snd_zip h.lengths.ge

theorem accepted :
    s.relay.accepted = (s.ledger.filter fun pair => !pair.1.repeated).map Prod.fst ∧
    s.ably.accepted = (s.ledger.filter fun pair => !pair.1.repeated).map Prod.snd := by
  constructor
  · rw [Run.accepted, ← h.fst_ledger, filter_map]
    rfl
  · rw [Run.accepted, ← h.snd_ledger, filter_map]
    refine congrArg _ (filter_congr fun pair hpair => ?_)
    rw [comp_apply, (h.twins pair hpair).repeated]

theorem accepted_iff (id : String) : s.relay.Accepted id ↔ s.ably.Accepted id := by
  rw [Run.Accepted, Run.Accepted, h.accepted.1, h.accepted.2]
  constructor
  · rintro ⟨p, hp, hid⟩
    obtain ⟨pair, hpair, rfl⟩ := mem_map.1 hp
    refine ⟨pair.2, mem_map_of_mem hpair, ?_⟩
    rwa [← (h.twins pair (mem_of_mem_filter hpair)).operation]
  · rintro ⟨p, hp, hid⟩
    obtain ⟨pair, hpair, rfl⟩ := mem_map.1 hp
    refine ⟨pair.1, mem_map_of_mem hpair, ?_⟩
    rwa [(h.twins pair (mem_of_mem_filter hpair)).operation]

theorem lineage : s.relay.transport.lineage = s.ably.transport.lineage := by
  have hrelay : s.relay.transport.lineage = _ := h.relay.booked.lineage
  have hably : s.ably.transport.lineage = _ := h.ably.booked.lineage
  rw [hrelay, hably, h.accepted.1, h.accepted.2, map_map, map_map]
  refine map_congr_left fun pair hpair => ?_
  rw [comp_apply, comp_apply,
    (h.twins pair (mem_of_mem_filter hpair)).operation]

theorem scope_of_live {session : HostedSyncCredential}
    (hlive : s.relay.transport.connection.ensureLive = .ok session) : session.scope = scope := by
  refine h.oneScope.session session ?_
  show s.ably.transport.connection.session = some session
  rw [h.connection]
  exact (ensureLive_ok hlive).1

/-- A publish call is refused by both, is a repetition for both, or is accepted by both, each under
a cursor of its own. -/
theorem publish (operation : EncryptedSyncOperation) :
    (∃ e, s.relay.transport.publish sha256 operation = (.error e, s.relay.transport) ∧
      s.ably.transport.publish sha256 operation = (.error e, s.ably.transport)) ∨
    (s.relay.Accepted operation.operationId ∧
      s.relay.transport.publish sha256 operation =
        (.ok (deduplicated operation.operationId), s.relay.transport) ∧
      s.ably.transport.publish sha256 operation =
        (.ok (deduplicated operation.operationId), s.ably.transport)) ∨
    (¬s.relay.Accepted operation.operationId ∧
      s.relay.transport.publish sha256 operation =
        (.ok ⟨operation.operationId,
            cursorText (s.relay.transport.messages.length + 1)⟩,
          s.relay.transport.append sha256 operation) ∧
      ∃ s', s.ably.transport.publish sha256 operation =
        (.ok ⟨operation.operationId, InMemoryAblyEdge.channelCursor
            (ablyChannelForScope sha256 scope)
            (s.ably.accepted.length + 1)⟩, s')) := by
  simp only [SharedRelay.publish, AblyHostedSyncTransport.publish, h.connection]
  cases hlive : s.relay.transport.connection.ensureLive with
  | error e => exact .inl ⟨e, rfl, rfl⟩
  | ok session =>
    cases hvalid : s.relay.transport.connection.validateOperation operation with
    | error e => exact .inl ⟨e, rfl, rfl⟩
    | ok _ =>
      have hseen : operation.operationId ∈ s.relay.transport.seenOperationIds ↔
          s.relay.Accepted operation.operationId := h.relay.booked.seen _
      have hseen' : operation.operationId ∈ s.ably.transport.seenOperationIds ↔
          s.relay.Accepted operation.operationId :=
        (h.ably.booked.seen _).trans (h.accepted_iff _).symm
      simp only [hseen, hseen']
      by_cases hacc : s.relay.Accepted operation.operationId
      · exact .inr (.inl ⟨hacc, by rw [if_pos hacc], by rw [if_pos hacc]⟩)
      refine .inr (.inr ⟨hacc, by rw [if_neg hacc], ?_⟩)
      simp only [if_neg hacc]
      have hscope := h.scope_of_live hlive
      have hup := h.ably.up (h.connection.symm ▸ hlive)
      have htoken : session.token ∈ s.ably.transport.edge.tokens
          (ablyChannelForScope sha256 scope) := by
        rw [h.edgeTokens]
        exact h.session session (ensureLive_ok hlive).1
      have hlog := h.ably.queue (ablyChannelForScope sha256 scope)
      rw [AblyHostedSyncTransport.channelLog_eq_accepted sha256 h.oneScope] at hlog
      simp only [AblyHostedSyncTransport.relay, InMemoryAblyEdge.publish, if_neg hup,
        if_neg (not_not.2 htoken), hscope, hlog, length_map]
      exact ⟨_, rfl⟩

theorem publication_twins
    (hreceipts : s.relay.Accepted operation.operationId →
      receipt = Hosted.deduplicated operation.operationId ∧
        receipt' = Hosted.deduplicated operation.operationId) :
    Twins (s.relay.publication (inMemory sha256) operation receipt)
      (s.ably.publication (AblyHostedSyncTransport.ably sha256) operation receipt') := by
  have hrepeated := h.relay.booked.publication_repeated operation receipt
  have hrepeated' := h.ably.booked.publication_repeated operation receipt'
  refine ⟨rfl, ?_, ?_, fun hrep => hreceipts (hrepeated.1 hrep)⟩
  · exact (congrArg nowMs h.connection).symm
  · rw [Bool.eq_iff_iff, hrepeated, hrepeated', h.accepted_iff]

theorem after_publish (operation : EncryptedSyncOperation) :
    (∃ e, s.after sha256 (.publish operation) (.publish operation) =
        { s with outcomes := s.outcomes ++ [(.published (.error e), .published (.error e))] } ∧
      (inMemory sha256).publish s.relay.transport operation =
        (.error e, s.relay.transport)) ∨
    ∃ p q s₁ s₂, s.after sha256 (.publish operation) (.publish operation) =
        ⟨⟨s₁, s.relay.published ++ [p]⟩, ⟨s₂, s.ably.published ++ [q]⟩,
          s.outcomes ++ [(.published (.ok p.receipt), .published (.ok q.receipt))]⟩ ∧
      Twins p q ∧ p.operation = operation ∧
      p.receipt.operationId = q.receipt.operationId ∧
      (inMemory sha256).publish s.relay.transport operation = (.ok p.receipt, s₁) ∧
      Acknowledged sha256 scope s p q := by
  have hrepeated := h.relay.booked.publication_repeated operation
  rcases h.publish operation with ⟨e, hrelay, hably⟩ | ⟨hacc, hrelay, hably⟩ |
    ⟨hacc, hrelay, s', hably⟩
  · refine .inl ⟨e, ?_, hrelay⟩
    simp only [after, Run.after, Outcome.of, inMemory, AblyHostedSyncTransport.ably,
      hrelay, hably]
  · exact .inr ⟨_, _, _, _, after_acknowledged hrelay hably,
      h.publication_twins fun _ => ⟨rfl, rfl⟩, rfl, rfl, hrelay,
      .inl ⟨hacc, (hrepeated _).2 hacc⟩⟩
  · exact .inr ⟨_, _, _, _, after_acknowledged hrelay hably,
      h.publication_twins fun hacc' => absurd hacc' hacc, rfl, rfl, hrelay,
      .inr ⟨hacc, Bool.eq_false_iff.2 fun hr => hacc ((hrepeated _).1 hr), rfl, rfl⟩⟩

theorem quiet {call call' : Call} (hscope : OneScope scope call')
    (hrelay : (s.after sha256 call call').relay.published = s.relay.published)
    (hably : (s.after sha256 call call').ably.published = s.ably.published)
    (htokens : (s.after sha256 call call').ably.transport.edge.tokens = tokens)
    (hconnection : (s.after sha256 call call').ably.transport.connection =
      (s.after sha256 call call').relay.transport.connection) (hsession : ∀ credential,
      (s.after sha256 call call').relay.transport.connection.session = some credential →
      credential.token ∈ tokens (ablyChannelForScope sha256 scope)) :
    Together sha256 scope tokens (s.after sha256 call call') := by
  have hledger : (s.after sha256 call call').ledger = s.ledger := by
    rw [ledger, hrelay, hably, ledger]
  refine ⟨h.relay.after call, h.ably.after call',
    h.oneScope.after (AblyHostedSyncTransport.relays sha256) hscope, htokens, hsession, hconnection,
    ?_, ?_, ?_⟩
  · rw [hrelay, hably, h.lengths]
  · rw [hledger]
    exact h.twins
  · rw [hledger]
    exact fun pair hpair => mem_handed_after (h.receipts pair hpair) call call'

theorem ledger_concat (s₁ : SharedRelay)
    (s₂ : AblyHostedSyncTransport) (p q : Publication) (outcomes : List (Outcome × Outcome)) :
    SideBySide.ledger ⟨⟨s₁, s.relay.published ++ [p]⟩, ⟨s₂, s.ably.published ++ [q]⟩, outcomes⟩ =
      s.ledger ++ [(p, q)] :=
  zip_append h.lengths

theorem published (operation : EncryptedSyncOperation) :
    Together sha256 scope tokens (s.after sha256 (.publish operation) (.publish operation)) := by
  have hrelay := h.relay.after (.publish operation)
  have hably := h.ably.after (.publish operation)
  have hscoped : Scoped (AblyHostedSyncTransport.ably sha256) scope
      (s.ably.after (AblyHostedSyncTransport.ably sha256) (.publish operation)) :=
    h.oneScope.after (AblyHostedSyncTransport.relays sha256) trivial
  have hconnection : (s.relay.after (inMemory sha256)
      (.publish operation)).transport.connection = s.relay.transport.connection :=
    (SharedRelay.relays sha256).connection_publish _ _
  have hconnection' : (s.ably.after (AblyHostedSyncTransport.ably sha256)
      (.publish operation)).transport.connection = s.ably.transport.connection :=
    (AblyHostedSyncTransport.relays sha256).connection_publish _ _
  have htokens : (s.ably.after (AblyHostedSyncTransport.ably sha256)
      (.publish operation)).transport.edge.tokens = tokens := by
    rcases h.ably.after_publish operation with ⟨htransport, _⟩ |
      ⟨_, _, _, _, _, _, _, _, htransport, _⟩
    · rw [htransport, h.edgeTokens]
    · rw [htransport]
      exact h.edgeTokens
  refine ⟨hrelay, hably, hscoped, htokens, ?_, ?_, ?_, ?_, ?_⟩
  · intro credential hsession
    exact h.session credential (hconnection ▸ hsession)
  · exact hconnection'.trans (h.connection.trans hconnection.symm)
  all_goals
    rcases h.after_publish operation with ⟨e, hafter, _⟩ |
      ⟨p, q, s₁, s₂, hafter, htwins, _⟩
  · rw [hafter]
    exact h.lengths
  · rw [hafter, length_append, length_append, h.lengths]
    rfl
  · rw [hafter]
    exact h.twins
  · rw [hafter, h.ledger_concat]
    intro pair hpair
    rcases mem_append.1 hpair with hold | hnew
    · exact h.twins pair hold
    · rw [mem_singleton.1 hnew]
      exact htwins
  · intro pair hpair
    refine mem_handed_after (h.receipts pair ?_) _ _
    rw [hafter] at hpair
    exact hpair
  · intro pair hpair
    rw [hafter, h.ledger_concat] at hpair
    rcases mem_append.1 hpair with hold | hnew
    · exact mem_handed_after (h.receipts pair hold) _ _
    · rw [mem_singleton.1 hnew, hafter, handed, flatMap_append]
      exact mem_append_right _ (by simp [Outcome.cursors])

theorem replayed (cursor cursor' : Option String) :
    Together sha256 scope tokens (s.after sha256 (.replayFrom cursor) (.replayFrom cursor')) := by
  have hrelay : (s.after sha256 (.replayFrom cursor) (.replayFrom cursor')).relay = s.relay :=
    h.relay.after_replayFrom cursor
  refine h.quiet trivial (by rw [hrelay]) rfl h.edgeTokens ?_ ?_
  · rw [hrelay]
    exact h.connection
  · rw [hrelay]
    exact h.session

theorem step {call : PortCall} (hcall : Authorised sha256 scope tokens call) {s' : SideBySide}
    (hstep : s.step sha256 call = some s') : Together sha256 scope tokens s' := by
  cases call with
  | connect credential =>
    cases hstep
    refine h.quiet hcall.1 rfl rfl h.edgeTokens ?_ fun session hsession => ?_
    · exact congrArg (fun c => (connect c credential).2) h.connection
    · rcases connect_session hsession with hold | ⟨rfl, htoken⟩
      · exact h.session session hold
      · exact hcall.2 htoken
  | refreshCredential credential =>
    cases hstep
    refine h.quiet trivial rfl rfl h.edgeTokens ?_ fun session hsession => ?_
    · exact congrArg (fun c => (refreshCredential sha256 c credential).2) h.connection
    · rcases refreshCredential_token hsession with hold | ⟨rfl, htoken⟩
      · exact h.session session hold
      · exact hcall htoken
  | publish operation =>
    cases hstep
    exact h.published operation
  | replayFrom source =>
    obtain ⟨⟨call, call'⟩, hresolve, rfl⟩ := Option.map_eq_some_iff.1 hstep
    cases source with
    | none =>
      cases hresolve
      exact h.replayed none none
    | some source =>
      obtain ⟨pair, _, hcalls⟩ := Option.map_eq_some_iff.1 hresolve
      cases hcalls
      exact h.replayed (some pair.1) (some pair.2)
  | advanceClock nowMs =>
    cases hstep
    refine h.quiet trivial rfl rfl h.edgeTokens ?_ fun session hsession => ?_
    · exact congrArg (fun c => advanceClock c nowMs) h.connection
    · exact h.session session (advanceClock_session _ nowMs ▸ hsession)
  | setRelayAvailable available =>
    cases hstep
    refine h.quiet trivial rfl rfl h.edgeTokens ?_ h.session
    exact congrArg (fun c => setRelayAvailable c available) h.connection

end

theorem start (sha256 : Bytes → Bytes) (scope : String) (tokens : String → List String) :
    Together sha256 scope tokens (start tokens) where
  relay := .start
  ably := .start tokens
  oneScope := ⟨fun _ hc => (by cases hc), fun _ hp => absurd hp not_mem_nil⟩
  edgeTokens := rfl
  session := fun _ hc => by cases hc
  connection := rfl
  lengths := rfl
  twins := fun _ hpair => absurd hpair not_mem_nil
  receipts := fun _ hpair => absurd hpair not_mem_nil

end Together

end SideBySide

end Traverse.Hosted

import Traverse.Hosted.Connection

/-!
# Hosted.Transport

The port `HostedSyncTransport`. A `Run` is a transport with the acknowledged publish calls, as a
caller sees them; the first publication of an operation id is the accepted one. Both
implementations relay every operation id once (`Relays`), so their books agree with what they
acknowledged (`Booked.after`).
-/

namespace Traverse.Hosted

open List Lines

structure HostedSyncTransport (σ : Type) where
  (connect refreshCredential : σ → HostedSyncCredential → Except HostedSyncError Unit × σ)
  publish : σ → EncryptedSyncOperation → Except HostedSyncError HostedSyncPublishReceipt × σ
  replayFrom : σ → Option String → Except HostedSyncError HostedSyncReplayResult × σ
  advanceClock : σ → Nat → σ
  setRelayAvailable : σ → Bool → σ
  lineage : σ → List HostedSyncLineageEvidence
  connection : σ → Connection

inductive Call where
  | connect (credential : HostedSyncCredential)
  | refreshCredential (credential : HostedSyncCredential)
  | publish (operation : EncryptedSyncOperation)
  | replayFrom (cursor : Option String)
  | advanceClock (nowMs : Nat)
  | setRelayAvailable (available : Bool)

/-- An acknowledged publish call. -/
structure Publication where
  operation : EncryptedSyncOperation
  receipt : HostedSyncPublishReceipt
  atMs : Nat
  scope : String
  /-- An operation with this id was acknowledged before. -/
  repeated : Bool
  deriving DecidableEq

structure Run (σ : Type) where
  transport : σ
  published : List Publication

theorem nodup_map_concat {α β : Type} {f : α → β} {l : List α} {a : α} (h : (l.map f).Nodup)
    (hnew : ∀ b ∈ l, f b ≠ f a) : ((l ++ [a]).map f).Nodup := by
  simp only [map_append, map_singleton, nodup_append', nodup_singleton, disjoint_singleton, h]
  simpa using hnew

variable {σ : Type} (T : HostedSyncTransport σ)

namespace Run

variable (r : Run σ)

/-- The first publication of every operation id. -/
def accepted : List Publication := r.published.filter fun p => !p.repeated

def start (transport : σ) : Run σ := ⟨transport, []⟩

/-- The publication that the current acknowledgement makes. -/
def publication (operation : EncryptedSyncOperation)
    (receipt : HostedSyncPublishReceipt) : Publication where
  operation := operation
  receipt := receipt
  atMs := (T.connection r.transport).nowMs
  scope := ((T.connection r.transport).session.map (·.scope)).getD ""
  repeated := r.published.any fun p => p.operation.operationId = operation.operationId

def after : Call → Run σ
  | .connect credential => { r with transport := (T.connect r.transport credential).2 }
  | .refreshCredential credential =>
    { r with transport := (T.refreshCredential r.transport credential).2 }
  | .publish operation =>
    match T.publish r.transport operation with
    | (.ok receipt, transport) =>
      ⟨transport, r.published ++ [r.publication T operation receipt]⟩
    | (.error _, transport) => { r with transport := transport }
  | .replayFrom cursor => { r with transport := (T.replayFrom r.transport cursor).2 }
  | .advanceClock nowMs => { r with transport := T.advanceClock r.transport nowMs }
  | .setRelayAvailable available =>
    { r with transport := T.setRelayAvailable r.transport available }

def step (call : Call) : Option (Run σ) := some (r.after T call)

/-- An operation with this id was accepted. -/
def Accepted (operationId : String) : Prop :=
  ∃ p ∈ r.accepted, p.operation.operationId = operationId
  deriving Decidable

theorem mem_accepted {r : Run σ} {p : Publication} :
    p ∈ r.accepted ↔ p ∈ r.published ∧ p.repeated = false := by
  simp [accepted]

/-- A publication is repeated exactly if its id is one of an earlier publication. -/
theorem publication_repeated {r : Run σ} {operation : EncryptedSyncOperation}
    {receipt : HostedSyncPublishReceipt} :
    (r.publication T operation receipt).repeated = true ↔
      ∃ p ∈ r.published, p.operation.operationId = operation.operationId := by
  simp [publication]

end Run

/-! ## Transports that relay every operation id once -/

/-- The receipt of a publish call that is taken for a repetition. -/
def deduplicated (operationId : String) : HostedSyncPublishReceipt :=
  ⟨operationId, s!"cursor:{operationId}"⟩

/-- What the calls of a transport do to the ids it has seen, its lineage and its connection. Both
implementations do this; they differ in where they keep the operations. -/
structure Relays (sha256 : Bytes → Bytes) (seen : σ → List String) : Prop where
  connect : ∀ s credential, seen (T.connect s credential).2 = seen s ∧
    T.lineage (T.connect s credential).2 = T.lineage s ∧
    T.connection (T.connect s credential).2 = ((T.connection s).connect credential).2
  refreshCredential : ∀ s credential, seen (T.refreshCredential s credential).2 = seen s ∧
    T.lineage (T.refreshCredential s credential).2 = T.lineage s ∧
    T.connection (T.refreshCredential s credential).2 =
      ((T.connection s).refreshCredential sha256 credential).2
  publish : ∀ s operation,
    (∃ e, T.publish s operation = (.error e, s)) ∨
    (operation.operationId ∈ seen s ∧
      T.publish s operation = (.ok (deduplicated operation.operationId), s)) ∨
    (operation.operationId ∉ seen s ∧ ∃ cursor s',
      T.publish s operation = (.ok ⟨operation.operationId, cursor⟩, s') ∧
      seen s' = operation.operationId :: seen s ∧
      T.lineage s' = T.lineage s ++ [lineageOf sha256 operation] ∧
      T.connection s' = T.connection s)
  live : ∀ s operation receipt s', T.publish s operation = (.ok receipt, s') →
    ∃ session, (T.connection s).session = some session
  replayFrom : ∀ s cursor, seen (T.replayFrom s cursor).2 = seen s ∧
    T.lineage (T.replayFrom s cursor).2 = T.lineage s ∧
    T.connection (T.replayFrom s cursor).2 = T.connection s
  advanceClock : ∀ s nowMs, seen (T.advanceClock s nowMs) = seen s ∧
    T.lineage (T.advanceClock s nowMs) = T.lineage s ∧
    T.connection (T.advanceClock s nowMs) = (T.connection s).advanceClock nowMs
  setRelayAvailable : ∀ s available, seen (T.setRelayAvailable s available) = seen s ∧
    T.lineage (T.setRelayAvailable s available) = T.lineage s ∧
    T.connection (T.setRelayAvailable s available) =
      (T.connection s).setRelayAvailable available

theorem Relays.connection_publish {T : HostedSyncTransport σ} {sha256 : Bytes → Bytes}
    {seen : σ → List String} (hT : Relays T sha256 seen) (r : Run σ)
    (operation : EncryptedSyncOperation) :
    T.connection (r.after T (.publish operation)).transport = T.connection r.transport := by
  rcases hT.publish r.transport operation with
    ⟨e, hok⟩ | ⟨_, hok⟩ | ⟨_, _, _, hok, _, _, hconnection⟩
  · simp only [Run.after, hok]
  · simp only [Run.after, hok]
  · simp only [Run.after, hok, hconnection]

/-- The books of a transport agree with the acknowledgements it gave. -/
structure Booked (sha256 : Bytes → Bytes) (seen : σ → List String) (r : Run σ) : Prop where
  seen : ∀ id, id ∈ seen r.transport ↔ r.Accepted id
  first : ∀ p ∈ r.published, r.Accepted p.operation.operationId
  ids : (r.accepted.map (·.operation.operationId)).Nodup
  ordered : Window.Ordered (·.atMs) r.accepted
  past : ∀ p ∈ r.accepted, p.atMs ≤ (T.connection r.transport).nowMs
  lineage : T.lineage r.transport = r.accepted.map fun p => lineageOf sha256 p.operation

variable {T} {sha256 : Bytes → Bytes} {seen : σ → List String} {r : Run σ}

theorem Booked.start {transport : σ} (hseen : seen transport = [])
    (hlineage : T.lineage transport = []) : Booked T sha256 seen (.start transport) where
  seen := by simp [hseen, Run.start, Run.Accepted, Run.accepted]
  first := by simp [Run.start]
  ids := nodup_nil
  ordered := List.Pairwise.nil
  past := by simp [Run.start, Run.accepted]
  lineage := by simp [hlineage, Run.start, Run.accepted]

theorem Booked.quiet (h : Booked T sha256 seen r) {r' : Run σ}
    (hseen : seen r'.transport = seen r.transport)
    (hlineage : T.lineage r'.transport = T.lineage r.transport)
    (hnow : (T.connection r.transport).nowMs ≤ (T.connection r'.transport).nowMs)
    (haccepted : r'.accepted = r.accepted)
    (hpublished : ∀ p ∈ r'.published, p ∈ r.published ∨ r.Accepted p.operation.operationId) :
    Booked T sha256 seen r' where
  seen := by
    intro id
    rw [hseen, h.seen, Run.Accepted, Run.Accepted, haccepted]
  first := by
    intro p hp
    rw [Run.Accepted, haccepted]
    rcases hpublished p hp with hold | hid
    · exact h.first p hold
    · exact hid
  ids := haccepted ▸ h.ids
  ordered := haccepted ▸ h.ordered
  past := fun p hp => (h.past p (haccepted ▸ hp)).trans hnow
  lineage := by rw [hlineage, h.lineage, haccepted]

theorem Booked.publication_repeated (h : Booked T sha256 seen r)
    (operation : EncryptedSyncOperation) (receipt : HostedSyncPublishReceipt) :
    (r.publication T operation receipt).repeated = true ↔ r.Accepted operation.operationId := by
  rw [Run.publication_repeated]
  constructor
  · rintro ⟨p, hp, hid⟩
    exact hid ▸ h.first p hp
  · rintro ⟨p, hp, hid⟩
    exact ⟨p, (Run.mem_accepted.1 hp).1, hid⟩

namespace Run

theorem publish_cases (hT : Relays T sha256 seen) (h : Booked T sha256 seen r)
    (operation : EncryptedSyncOperation) :
    (∃ e, T.publish r.transport operation = (.error e, r.transport) ∧
      r.after T (.publish operation) = r) ∨
    (r.Accepted operation.operationId ∧
      T.publish r.transport operation = (.ok (deduplicated operation.operationId), r.transport) ∧
      ∃ p, p = r.publication T operation (deduplicated operation.operationId) ∧
        p.repeated = true ∧ r.after T (.publish operation) = ⟨r.transport, r.published ++ [p]⟩ ∧
        (r.after T (.publish operation)).accepted = r.accepted) ∨
    (¬r.Accepted operation.operationId ∧ ∃ cursor s' p,
      T.publish r.transport operation = (.ok ⟨operation.operationId, cursor⟩, s') ∧
      seen s' = operation.operationId :: seen r.transport ∧
      T.lineage s' = T.lineage r.transport ++ [lineageOf sha256 operation] ∧
      T.connection s' = T.connection r.transport ∧
      p = r.publication T operation ⟨operation.operationId, cursor⟩ ∧ p.repeated = false ∧
      r.after T (.publish operation) = ⟨s', r.published ++ [p]⟩ ∧
      (r.after T (.publish operation)).accepted = r.accepted ++ [p]) := by
  have hrepeated := h.publication_repeated operation
  rcases hT.publish r.transport operation with
    ⟨e, he⟩ | ⟨hid, hok⟩ | ⟨hid, cursor, s', hok, hseen, hlineage, hconnection⟩
  · refine .inl ⟨e, he, ?_⟩
    simp only [after, he]
  · have hacc := (h.seen _).1 hid
    have hrep := (hrepeated (deduplicated operation.operationId)).2 hacc
    refine .inr (.inl ⟨hacc, hok, _, rfl, hrep, by simp only [after, hok], ?_⟩)
    simp only [after, hok, accepted, filter_append, filter_cons, hrep]
    simp
  · have hacc : ¬r.Accepted operation.operationId := fun ha => hid ((h.seen _).2 ha)
    have hrep : (r.publication T operation ⟨operation.operationId, cursor⟩).repeated = false :=
      Bool.eq_false_iff.2 fun hr => hacc ((hrepeated _).1 hr)
    refine .inr (.inr ⟨hacc, cursor, s', _, hok, hseen, hlineage, hconnection, rfl, hrep,
      by simp only [after, hok], ?_⟩)
    simp only [after, hok, accepted, filter_append, filter_cons, hrep]
    simp

end Run

theorem Booked.after (hT : Relays T sha256 seen) (h : Booked T sha256 seen r) (call : Call) :
    Booked T sha256 seen (r.after T call) := by
  cases call with
  | connect credential =>
    obtain ⟨hseen, hlineage, hconnection⟩ := hT.connect r.transport credential
    refine h.quiet hseen hlineage ?_ rfl fun p hp => .inl hp
    exact Nat.le_of_eq (by
      rw [Run.after, hconnection,
        ((T.connection r.transport).connect_sessionOnly credential).nowMs])
  | refreshCredential credential =>
    obtain ⟨hseen, hlineage, hconnection⟩ := hT.refreshCredential r.transport credential
    refine h.quiet hseen hlineage ?_ rfl fun p hp => .inl hp
    exact Nat.le_of_eq (by
      rw [Run.after, hconnection,
        ((T.connection r.transport).refreshCredential_sessionOnly sha256 credential).nowMs])
  | publish operation =>
    rcases Run.publish_cases hT h operation with
      ⟨e, _, hafter⟩ | ⟨hacc, _, p, hp, _, hafter, haccepted⟩ |
      ⟨hacc, cursor, s', p, _, hseen, hlineage, hconnection, rfl, _, hafter, haccepted⟩
    · rw [hafter]
      exact h
    · refine h.quiet (by rw [hafter]) (by rw [hafter]) (by rw [hafter]) haccepted ?_
      intro q hq
      rw [hafter] at hq
      rcases mem_append.1 hq with hq | hq
      · exact .inl hq
      · rw [mem_singleton.1 hq, hp]
        exact .inr hacc
    · have hold : ∀ id, r.Accepted id → (r.after T (.publish operation)).Accepted id := by
        rintro id ⟨q, hq, hid⟩
        exact ⟨q, haccepted ▸ mem_append_left _ hq, hid⟩
      have hnew : (r.after T (.publish operation)).Accepted operation.operationId :=
        ⟨_, haccepted ▸ mem_append_right _ (mem_singleton.2 rfl), rfl⟩
      refine ⟨fun id => ?_, fun q hq => ?_, ?_, ?_, fun q hq => ?_, ?_⟩
      · rw [hafter, hseen, ← hafter, mem_cons, h.seen]
        constructor
        · rintro (rfl | hid)
          · exact hnew
          · exact hold id hid
        · rintro ⟨q, hq, rfl⟩
          rw [haccepted, mem_append, mem_singleton] at hq
          rcases hq with hq | rfl
          · exact .inr ⟨q, hq, rfl⟩
          · exact .inl rfl
      · rw [hafter] at hq
        rcases mem_append.1 hq with hq | hq
        · exact hold _ (h.first q hq)
        · rw [mem_singleton.1 hq]
          exact hnew
      · rw [haccepted]
        exact nodup_map_concat h.ids fun q hq hid => hacc ⟨q, hq, hid⟩
      · rw [haccepted]
        exact h.ordered.append h.past
      · rw [hafter, hconnection]
        rw [haccepted, mem_append, mem_singleton] at hq
        rcases hq with hq | rfl
        · exact h.past q hq
        · exact Nat.le_refl _
      · rw [haccepted, map_append, ← h.lineage]
        rw [hafter, hlineage]
        rfl
  | replayFrom cursor =>
    obtain ⟨hseen, hlineage, hconnection⟩ := hT.replayFrom r.transport cursor
    refine h.quiet hseen hlineage ?_ rfl fun p hp => .inl hp
    exact Nat.le_of_eq (by rw [Run.after, hconnection])
  | advanceClock nowMs =>
    obtain ⟨hseen, hlineage, hconnection⟩ := hT.advanceClock r.transport nowMs
    refine h.quiet hseen hlineage ?_ rfl fun p hp => .inl hp
    rw [Run.after, hconnection]
    exact (T.connection r.transport).nowMs_le_advanceClock nowMs
  | setRelayAvailable available =>
    obtain ⟨hseen, hlineage, hconnection⟩ := hT.setRelayAvailable r.transport available
    refine h.quiet hseen hlineage ?_ rfl fun p hp => .inl hp
    exact Nat.le_of_eq (by rw [Run.after, hconnection]; rfl)

theorem Run.accepted_after (hT : Relays T sha256 seen) (h : Booked T sha256 seen r) (call : Call) :
    ∃ added, (r.after T call).accepted = r.accepted ++ added := by
  cases call with
  | publish operation =>
    rcases Run.publish_cases hT h operation with
      ⟨e, _, hafter⟩ | ⟨_, _, _, _, _, _, haccepted⟩ |
      ⟨_, _, _, p, _, _, _, _, _, _, _, haccepted⟩
    · exact ⟨[], by rw [hafter, append_nil]⟩
    · exact ⟨[], by rw [haccepted, append_nil]⟩
    · exact ⟨[p], haccepted⟩
  | connect | refreshCredential | replayFrom | advanceClock | setRelayAvailable =>
    exact ⟨[], (append_nil _).symm⟩

def OneScope (scope : String) : Call → Prop
  | .connect credential => credential.scope = scope
  | _ => True

instance (scope : String) : DecidablePred (OneScope scope)
  | .connect _ => by dsimp only [OneScope]; infer_instance
  | .refreshCredential _ | .publish _ | .replayFrom _ | .advanceClock _ | .setRelayAvailable _ =>
    .isTrue trivial

structure Scoped (T : HostedSyncTransport σ) (scope : String) (r : Run σ) : Prop where
  session : ∀ c, (T.connection r.transport).session = some c → c.scope = scope
  published : ∀ p ∈ r.published, p.scope = scope

variable {call : Call}

theorem Scoped.after (hT : Relays T sha256 seen) {scope : String} (h : Scoped T scope r)
    (hcall : OneScope scope call) : Scoped T scope (r.after T call) := by
  cases call with
  | connect credential =>
    refine ⟨fun c hc => ?_, h.published⟩
    rw [Run.after, (hT.connect r.transport credential).2.2] at hc
    rcases Connection.connect_session hc with hold | ⟨rfl, -⟩
    · exact h.session c hold
    · exact hcall
  | refreshCredential credential =>
    refine ⟨fun c hc => ?_, h.published⟩
    rw [Run.after, (hT.refreshCredential r.transport credential).2.2] at hc
    obtain ⟨old, hold, hscope⟩ := Connection.refreshCredential_session hc
    exact hscope ▸ h.session old hold
  | publish operation =>
    refine ⟨fun c hc => h.session c (hT.connection_publish r operation ▸ hc), fun p hp => ?_⟩
    simp only [Run.after] at hp
    split at hp
    · next hpublish =>
      obtain ⟨session, hsession⟩ := hT.live _ _ _ _ hpublish
      rcases mem_append.1 hp with hp | hp
      · exact h.published p hp
      · rw [mem_singleton.1 hp, Run.publication, hsession]
        exact h.session session hsession
    · exact h.published p hp
  | replayFrom cursor =>
    refine ⟨fun c hc => ?_, h.published⟩
    rw [Run.after, (hT.replayFrom r.transport cursor).2.2] at hc
    exact h.session c hc
  | advanceClock nowMs =>
    refine ⟨fun c hc => ?_, h.published⟩
    rw [Run.after, (hT.advanceClock r.transport nowMs).2.2, Connection.advanceClock_session] at hc
    exact h.session c hc
  | setRelayAvailable available =>
    refine ⟨fun c hc => ?_, h.published⟩
    rw [Run.after, (hT.setRelayAvailable r.transport available).2.2] at hc
    exact h.session c hc

def NoRepeat (r : Run σ) : Call → Prop
  | .publish operation => ¬r.Accepted operation.operationId
  | _ => True

theorem accepted_of_noRepeat (hT : Relays T sha256 seen) (h : Booked T sha256 seen r)
    (hall : r.accepted = r.published) (hcall : NoRepeat r call) :
    (r.after T call).accepted = (r.after T call).published := by
  cases call with
  | publish operation =>
    rcases Run.publish_cases hT h operation with
      ⟨e, _, hafter⟩ | ⟨hacc, _⟩ | ⟨_, _, _, p, _, _, _, _, _, _, hafter, haccepted⟩
    · rw [hafter]
      exact hall
    · exact absurd hacc hcall
    · rw [haccepted, hafter, hall]
  | connect | refreshCredential | replayFrom | advanceClock | setRelayAvailable => exact hall

/-! ## What a replay says about a list of publications -/

/-- Where a reader continues: after the publication it names, or at the oldest one; nowhere if it
names one that is not there. -/
def startOf (log : List Publication) (cursor : Option String) : Option Nat :=
  match cursor with
  | none => some 0
  | some c =>
    match log.findIdx? fun p => p.receipt.cursor = c with
    | some i => some (i + 1)
    | none => if c = "0" ∨ c = "" then some 0 else none

def nextCursor (delivered : List Publication) (cursor : Option String) : String :=
  (delivered.getLast?.map (·.receipt.cursor)).getD (cursor.getD "0")

def answer (log : List Publication) (cursor : Option String) : HostedSyncReplayResult :=
  match startOf log cursor with
  | some i => .delivered ((log.drop i).map (·.operation)) (nextCursor (log.drop i) cursor)
  | none => .resyncRequired (log.head?.map (·.receipt.cursor))

/-- Both implementations find the start of a replay this way among the messages they retain. -/
def startIndex (messages : List RetainedMessage) (cursor : Option String) : Nat :=
  match cursor.bind fun c => messages.findIdx? fun m => m.cursor = c with
  | some index => index + 1
  | none => 0

section Messages

variable {message : Publication → RetainedMessage}
  (hmessage : ∀ p, (message p).cursor = p.receipt.cursor) {log : List Publication}
include hmessage

theorem findIdx?_messages (c : String) : ((log.map message).findIdx? fun m => m.cursor = c) =
    log.findIdx? fun p => p.receipt.cursor = c := by
  rw [List.findIdx?_map]
  simp only [Function.comp_def, hmessage]

theorem any_messages (c : String) : ((log.map message).any fun m => m.cursor = c) =
    (log.findIdx? fun p => p.receipt.cursor = c).isSome := by
  rw [← findIdx?_messages hmessage, List.findIdx?_isSome]

theorem startIndex_messages {cursor : Option String} {i : Nat} (h : startOf log cursor = some i) :
    startIndex (log.map message) cursor = i := by
  cases cursor with
  | none => exact Option.some.inj h
  | some c =>
    rw [startIndex, Option.bind_some, findIdx?_messages hmessage]
    rw [startOf] at h
    cases hfind : log.findIdx? fun p => p.receipt.cursor = c with
    | some j =>
      rw [hfind] at h
      exact Option.some.inj h
    | none =>
      simp only [hfind] at h
      split at h
      · exact Option.some.inj h
      · cases h

end Messages

section Reading

variable {log : List Publication} {floor : Nat}

@[simp] theorem nextCursor_concat (delivered : List Publication) (p : Publication)
    (cursor : Option String) : nextCursor (delivered ++ [p]) cursor = p.receipt.cursor := by
  simp [nextCursor]

theorem nextCursor_append (first second : List Publication) (cursor : Option String) :
    nextCursor (first ++ second) cursor = nextCursor second (some (nextCursor first cursor)) := by
  rcases eq_nil_or_concat second with rfl | ⟨second, p, rfl⟩
  · simp [nextCursor]
  · rw [concat_eq_append, ← append_assoc, nextCursor_concat, nextCursor_concat]

theorem answer_start (hnamed : ∀ p ∈ log, p.receipt.cursor ≠ "0" ∧ p.receipt.cursor ≠ "")
    {cursor : Option String} (hcursor : cursor = none ∨ cursor = some "0") :
    answer log cursor = .delivered (log.map (·.operation)) (nextCursor log cursor) := by
  rcases hcursor with rfl | rfl
  · rfl
  have hfind : (log.findIdx? fun p => p.receipt.cursor = "0") = none := by
    rw [List.findIdx?_eq_none_iff]
    exact fun p hp => decide_eq_false (hnamed p hp).1
  simp [answer, startOf, hfind]

variable {p : Publication}

/-- A reader that names a recent publication gets what was published after it. -/
theorem answer_after {before rest : List Publication} (hlog : log = before ++ p :: rest)
    (ho : Window.Ordered (·.atMs) log)
    (hn : ((Window.recent (·.atMs) floor log).map (·.receipt.cursor)).Nodup) (hp : floor ≤ p.atMs) :
    answer (Window.recent (·.atMs) floor log) (some p.receipt.cursor) =
      .delivered (rest.map (·.operation)) (nextCursor rest (some p.receipt.cursor)) := by
  subst hlog
  obtain ⟨i, hfind, hdrop⟩ := Window.read_recent ho hn hp
  simp only [answer, startOf, hfind, hdrop]

/-- A reader that names an older one is told so, unless the cursor is used again. -/
theorem answer_expired (hn : (log.map (·.receipt.cursor)).Nodup) (hmem : p ∈ log)
    (hnamed : p.receipt.cursor ≠ "0" ∧ p.receipt.cursor ≠ "") (hp : p.atMs < floor) :
    ∃ oldest, answer (Window.recent (·.atMs) floor log) (some p.receipt.cursor) =
      .resyncRequired oldest := by
  have hfind : ((Window.recent (·.atMs) floor log).findIdx? fun q =>
      q.receipt.cursor = p.receipt.cursor) = none := Window.find_expired hn hmem hp
  refine ⟨(Window.recent (·.atMs) floor log).head?.map (·.receipt.cursor), ?_⟩
  simp only [answer, startOf, hfind, hnamed, or_self, if_false]

end Reading

end Traverse.Hosted

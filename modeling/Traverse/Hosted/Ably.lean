import Traverse.Hosted.Transport

/-!
# Hosted.Ably

`AblyHostedSyncTransport` over the edge double `InMemoryAblyEdge`: one queue per channel, never
pruned; a replay looks at the recent part only. The channel of a session is computed from the
digest of its scope, so it is not kept here next to the credential.
-/

namespace Traverse.Hosted

open Lines Window List Function

inductive AblyEdgeError where
  | unauthorized
  | unavailable
  | cursorExpired (oldestAvailableCursor : Option String)

structure AblyHistoryBatch where
  payloads : List Bytes
  cursor : String

structure InMemoryAblyEdge where
  available : Bool
  tokens : String → List String
  channels : String → Option (List RetainedMessage)

namespace InMemoryAblyEdge

/-- A new edge for which the application has authorized tokens. -/
def authorized (tokens : String → List String) : InMemoryAblyEdge := ⟨true, tokens, fun _ => none⟩

def channelCursor (channel : String) (seq : Nat) : String := s!"{channel}:{seq}"

def publish (e : InMemoryAblyEdge) (channel token : String) (retainedAtMs : Nat) (payload : Bytes) :
    Except AblyEdgeError String × InMemoryAblyEdge :=
  if e.available = false then (.error .unavailable, e)
  else if token ∉ e.tokens channel then (.error .unauthorized, e)
  else
    let queue := (e.channels channel).getD []
    let cursor := channelCursor channel (queue.length + 1)
    (.ok cursor,
      { e with
        channels := update e.channels channel (some (queue ++ [⟨cursor, retainedAtMs, payload⟩])) })

/-- The cursor names a message that is not retained, or none at all. -/
def expired (queue retained : List RetainedMessage) (cursor : String) : Bool :=
  let known := queue.any fun m => m.cursor = cursor
  let stillRetained := retained.any fun m => m.cursor = cursor
  (known && !stillRetained) || (!known && cursor ≠ "" && cursor ≠ "0")

def batch (retained : List RetainedMessage) (cursor : Option String) : AblyHistoryBatch :=
  let slice := retained.drop (startIndex retained cursor)
  ⟨slice.map (·.payload), (slice.getLast?.map (·.cursor)).getD (cursor.getD "0")⟩

/-- The part of `history_from` for a channel that has a queue. -/
def queueHistory (queue : List RetainedMessage) (cursor : Option String) (oldestRetainedMs : Nat) :
    Except AblyEdgeError AblyHistoryBatch :=
  let retained := queue.filter fun m => oldestRetainedMs ≤ m.retainedAtMs
  match cursor with
  | none => .ok (batch retained none)
  | some c =>
    if expired queue retained c then .error (.cursorExpired (retained.head?.map (·.cursor)))
    else .ok (batch retained (some c))

def historyFrom (e : InMemoryAblyEdge) (channel token : String) (cursor : Option String)
    (nowMs replayWindowMs : Nat) : Except AblyEdgeError AblyHistoryBatch :=
  if e.available = false then .error .unavailable
  else if token ∉ e.tokens channel then .error .unauthorized
  else
    match e.channels channel with
    | none => .ok ⟨[], cursor.getD "0"⟩
    | some queue => queueHistory queue cursor (nowMs - replayWindowMs)

theorem channelCursor_injective (channel : String) : Injective (channelCursor channel) := by
  intro i j h
  have := congrArg String.toList h
  simp only [channelCursor, String.toList_append, append_cancel_left_eq] at this
  exact Decimal.repr_injective (String.toList_injective this)

theorem channelCursor_ne_start (channel : String) (seq : Nat) :
    channelCursor channel seq ≠ "0" ∧ channelCursor channel seq ≠ "" := by
  have h : ':' ∈ (channelCursor channel seq).toList := by
    simp [channelCursor, toString]
  constructor <;>
  · intro heq
    rw [heq] at h
    simp at h

end InMemoryAblyEdge

def mapAblyEdgeFailure : AblyEdgeError → HostedSyncError
  | .unauthorized =>
    ⟨.unauthorizedScope, "provider rejected scoped credential or channel binding", .obj []⟩
  | .unavailable => relayUnavailable
  | .cursorExpired oldest =>
    ⟨.resyncRequired, "cursor expired; application sync authority catch-up required",
      .obj [("oldest_available_cursor", match oldest with
        | some cursor => .str cursor
        | none => .null)]⟩

structure AblyHostedSyncTransport where
  edge : InMemoryAblyEdge
  connection : Connection
  seenOperationIds : List String
  lineage : List HostedSyncLineageEvidence

namespace AblyHostedSyncTransport

open InMemoryAblyEdge (channelCursor batch expired queueHistory)

variable (sha256 : Bytes → Bytes)

def ablyChannelForScope (scope : String) : String :=
  s!"ably.sync.{hexDigest sha256 (Storage.utf8 scope)}"

def new (edge : InMemoryAblyEdge) : AblyHostedSyncTransport := ⟨edge, .new, [], []⟩

def connect (s : AblyHostedSyncTransport) (credential : HostedSyncCredential) :
    Except HostedSyncError Unit × AblyHostedSyncTransport :=
  ((s.connection.connect credential).1,
    { s with connection := (s.connection.connect credential).2 })

def refreshCredential (s : AblyHostedSyncTransport) (credential : HostedSyncCredential) :
    Except HostedSyncError Unit × AblyHostedSyncTransport :=
  ((s.connection.refreshCredential sha256 credential).1,
    { s with connection := (s.connection.refreshCredential sha256 credential).2 })

variable (s : AblyHostedSyncTransport)

/-- The part of `publish` after the checks. -/
def relay (session : HostedSyncCredential) (operation : EncryptedSyncOperation) :
    Except HostedSyncError HostedSyncPublishReceipt × AblyHostedSyncTransport :=
  match s.edge.publish (ablyChannelForScope sha256 session.scope) session.token s.connection.nowMs
    (encodeEccaPayload (wrapEccaEvent sha256 operation)) with
  | (.error e, edge) => (.error (mapAblyEdgeFailure e), { s with edge := edge })
  | (.ok cursor, edge) =>
    (.ok ⟨operation.operationId, cursor⟩,
      { s with
        edge := edge
        seenOperationIds := operation.operationId :: s.seenOperationIds
        lineage := s.lineage ++ [lineageOf sha256 operation] })

def publish (operation : EncryptedSyncOperation) :
    Except HostedSyncError HostedSyncPublishReceipt × AblyHostedSyncTransport :=
  match s.connection.ensureLive with
  | .error e => (.error e, s)
  | .ok session =>
    match s.connection.validateOperation operation with
    | .error e => (.error e, s)
    | .ok () =>
      if operation.operationId ∈ s.seenOperationIds then
        (.ok (deduplicated operation.operationId), s)
      else s.relay sha256 session operation

def replayFrom (cursor : Option String) :
    Except HostedSyncError HostedSyncReplayResult :=
  match s.connection.ensureLive with
  | .error e => .error e
  | .ok session =>
    match s.edge.historyFrom (ablyChannelForScope sha256 session.scope) session.token cursor
      s.connection.nowMs s.connection.replayWindowMs with
    | .ok batch =>
      match batch.payloads.mapM decodePayload with
      | .ok operations => .ok (.delivered operations batch.cursor)
      | .error e => .error e
    | .error (.cursorExpired oldest) => .ok (.resyncRequired oldest)
    | .error e => .error (mapAblyEdgeFailure e)

def advanceClock (s : AblyHostedSyncTransport) (nowMs : Nat) : AblyHostedSyncTransport :=
  { s with connection := s.connection.advanceClock nowMs }

def setRelayAvailable (s : AblyHostedSyncTransport) (available : Bool) : AblyHostedSyncTransport :=
  { s with
    connection := s.connection.setRelayAvailable available
    edge := { s.edge with available := available } }

def ably : HostedSyncTransport AblyHostedSyncTransport where
  connect := connect
  refreshCredential := refreshCredential sha256
  publish := publish sha256
  replayFrom := fun s cursor => (s.replayFrom sha256 cursor, s)
  advanceClock := advanceClock
  setRelayAvailable := setRelayAvailable
  lineage := lineage
  connection := connection

/-! ## What is retained -/

/-- The state after an operation has gone to the queue of a channel. -/
def append (channel : String) (operation : EncryptedSyncOperation) :
    AblyHostedSyncTransport :=
  let queue := (s.edge.channels channel).getD []
  { s with
    edge := { s.edge with
      channels := update s.edge.channels channel (some (queue ++
        [⟨channelCursor channel (queue.length + 1), s.connection.nowMs,
          encodeEccaPayload (wrapEccaEvent sha256 operation)⟩])) }
    seenOperationIds := operation.operationId :: s.seenOperationIds
    lineage := s.lineage ++ [lineageOf sha256 operation] }

theorem relay_cases (session : HostedSyncCredential) (operation : EncryptedSyncOperation) :
    (∃ e, s.relay sha256 session operation = (.error e, s)) ∨
    s.relay sha256 session operation =
      (.ok ⟨operation.operationId, channelCursor
          (ablyChannelForScope sha256 session.scope)
          (((s.edge.channels (ablyChannelForScope sha256 session.scope)).getD []).length + 1)⟩,
        s.append sha256 (ablyChannelForScope sha256 session.scope) operation) := by
  unfold relay InMemoryAblyEdge.publish
  by_cases hup : s.edge.available = false
  · exact .inl ⟨_, by rw [if_pos hup]⟩
  by_cases htoken : session.token ∉ s.edge.tokens (ablyChannelForScope sha256 session.scope)
  · exact .inl ⟨_, by rw [if_neg hup, if_pos htoken]⟩
  · exact .inr (by rw [if_neg hup, if_neg htoken]; rfl)

theorem relays : Relays (ably sha256) sha256 seenOperationIds where
  connect := fun _ _ => ⟨rfl, rfl, rfl⟩
  refreshCredential := fun _ _ => ⟨rfl, rfl, rfl⟩
  publish := by
    intro s operation
    simp only [ably, publish]
    cases s.connection.ensureLive with
    | error e => exact .inl ⟨e, rfl⟩
    | ok session =>
      cases s.connection.validateOperation operation with
      | error e => exact .inl ⟨e, rfl⟩
      | ok _ =>
        by_cases hid : operation.operationId ∈ s.seenOperationIds
        · exact .inr (.inl ⟨hid, by simp only [if_pos hid]⟩)
        simp only [if_neg hid]
        rcases s.relay_cases sha256 session operation with ⟨e, he⟩ | hok
        · exact .inl ⟨e, he⟩
        · exact .inr (.inr ⟨hid, _, _, hok, rfl, rfl, rfl⟩)
  live := by
    intro s operation receipt s' h
    simp only [ably, publish] at h
    split at h
    · cases h
    · next session hlive => exact ⟨session, (Connection.ensureLive_ok hlive).1⟩
  replayFrom := fun _ _ => ⟨rfl, rfl, rfl⟩
  advanceClock := fun _ _ => ⟨rfl, rfl, rfl⟩
  setRelayAvailable := fun _ _ => ⟨rfl, rfl, rfl⟩

def messageOf (p : Publication) : RetainedMessage :=
  ⟨p.receipt.cursor, p.atMs, encodeEccaPayload (wrapEccaEvent sha256 p.operation)⟩

/-- The accepted publications of a channel. -/
def channelLog (r : Run AblyHostedSyncTransport) (channel : String) : List Publication :=
  r.accepted.filter fun p => ablyChannelForScope sha256 p.scope = channel

/-- Every queue holds the accepted operations of its channel, numbered from one. -/
structure Stored (r : Run AblyHostedSyncTransport) : Prop where
  booked : Booked (ably sha256) sha256 seenOperationIds r
  channels : ∀ channel, r.transport.edge.channels channel =
    if channelLog sha256 r channel = [] then none
    else some ((channelLog sha256 r channel).map (messageOf sha256))
  cursors : ∀ channel, (channelLog sha256 r channel).map (·.receipt.cursor) =
    (List.range (channelLog sha256 r channel).length).map fun i =>
      channelCursor channel (i + 1)
  available : r.transport.edge.available = r.transport.connection.relayAvailable

variable {sha256} {r : Run AblyHostedSyncTransport}

theorem Stored.start (tokens : String → List String) :
    Stored sha256 (.start (.new (.authorized tokens))) where
  booked := .start rfl rfl
  channels := by simp [channelLog, Run.start, Run.accepted, new, InMemoryAblyEdge.authorized]
  cursors := by simp [channelLog, Run.start, Run.accepted]
  available := rfl

theorem Stored.queue (h : Stored sha256 r) (channel : String) :
    (r.transport.edge.channels channel).getD [] =
      (channelLog sha256 r channel).map (messageOf sha256) := by
  rw [h.channels]
  split
  · next hnil => simp [hnil]
  · rfl

/-- A publish call changes nothing that is stored, or appends one publication to the queue of the
session's channel. -/
theorem Stored.after_publish (h : Stored sha256 r) (operation : EncryptedSyncOperation) :
    ((r.after (ably sha256) (.publish operation)).transport = r.transport ∧
      (r.after (ably sha256) (.publish operation)).accepted = r.accepted) ∨
    (¬r.Accepted operation.operationId ∧ ∃ (session : HostedSyncCredential) (p : Publication),
      r.transport.connection.session = some session ∧ p.operation = operation ∧
      p.atMs = r.transport.connection.nowMs ∧ p.scope = session.scope ∧
      p.receipt = ⟨operation.operationId, channelCursor
        (ablyChannelForScope sha256 session.scope)
        ((channelLog sha256 r (ablyChannelForScope sha256 session.scope)).length + 1)⟩ ∧
      (r.after (ably sha256) (.publish operation)).transport =
        r.transport.append sha256 (ablyChannelForScope sha256 session.scope) operation ∧
      (r.after (ably sha256) (.publish operation)).accepted = r.accepted ++ [p]) := by
  rcases Run.publish_cases (relays sha256) h.booked operation with
    ⟨e, _, hafter⟩ | ⟨_, _, p, _, _, hafter, haccepted⟩ |
    ⟨hacc, cursor, s', p, hok, _, _, _, rfl, _, hafter, haccepted⟩
  · exact .inl ⟨by rw [hafter], by rw [hafter]⟩
  · exact .inl ⟨by rw [hafter], haccepted⟩
  have hid : operation.operationId ∉ r.transport.seenOperationIds := fun hseen =>
    hacc ((h.booked.seen _).1 hseen)
  simp only [ably, publish] at hok
  split at hok
  · cases hok
  next session hlive =>
  split at hok
  · cases hok
  rw [if_neg hid] at hok
  rcases r.transport.relay_cases sha256 session operation with ⟨e, he⟩ | hrelay
  · rw [he] at hok
    cases hok
  have hsession := (Connection.ensureLive_ok hlive).1
  rw [hrelay, h.queue, length_map] at hok
  obtain ⟨hreceipt, rfl⟩ := Prod.mk.inj hok
  refine .inr ⟨hacc, session, _, hsession, rfl, rfl, ?_, (Except.ok.inj hreceipt).symm,
    by rw [hafter], haccepted⟩
  simp [Run.publication, ably, hsession]

variable {r' : Run AblyHostedSyncTransport} {p : Publication} {log : List Publication}
  {cursor : Option String}

theorem channelLog_append (haccepted : r'.accepted = r.accepted ++ [p]) (channel : String) :
    channelLog sha256 r' channel =
      if ablyChannelForScope sha256 p.scope = channel then channelLog sha256 r channel ++ [p]
      else channelLog sha256 r channel := by
  split <;> simp_all [channelLog]

section

variable (h : Stored sha256 r)

include h

theorem Stored.quiet (hbooked : Booked (ably sha256) sha256 seenOperationIds r')
    (haccepted : r'.accepted = r.accepted)
    (hchannels : r'.transport.edge.channels = r.transport.edge.channels)
    (havailable : r'.transport.edge.available = r'.transport.connection.relayAvailable) :
    Stored sha256 r' := by
  have hlog : ∀ channel, channelLog sha256 r' channel = channelLog sha256 r channel := by
    intro channel
    rw [channelLog, haccepted]
    rfl
  refine ⟨hbooked, fun channel => ?_, fun channel => ?_, havailable⟩
  · rw [hlog, hchannels]
    exact h.channels channel
  · rw [hlog]
    exact h.cursors channel

theorem Stored.after (call : Call) : Stored sha256 (r.after (ably sha256) call) := by
  have hbooked := h.booked.after (relays sha256) call
  cases call with
  | connect credential =>
    refine h.quiet hbooked rfl rfl (h.available.trans ?_)
    exact (r.transport.connection.connect_sessionOnly credential).relayAvailable.symm
  | refreshCredential credential =>
    refine h.quiet hbooked rfl rfl (h.available.trans ?_)
    exact (r.transport.connection.refreshCredential_sessionOnly sha256
      credential).relayAvailable.symm
  | publish operation =>
    rcases h.after_publish operation with ⟨htransport, haccepted⟩ |
      ⟨_, session, p, _, hoperation, hat, hscope, hreceipt, htransport, haccepted⟩
    · exact h.quiet hbooked haccepted (by rw [htransport]) (by rw [htransport]; exact h.available)
    have hlog := @channelLog_append sha256 _ _ _ haccepted
    have hmessage : messageOf sha256 p =
        ⟨channelCursor (ablyChannelForScope sha256 session.scope)
          ((channelLog sha256 r (ablyChannelForScope sha256 session.scope)).length + 1),
          r.transport.connection.nowMs,
          encodeEccaPayload (wrapEccaEvent sha256 operation)⟩ := by
      rw [messageOf, hreceipt, hat, hoperation]
    refine ⟨hbooked, fun channel => ?_, fun channel => ?_, by rw [htransport]; exact h.available⟩
    · rw [hlog, hscope, htransport]
      by_cases hchannel : ablyChannelForScope sha256 session.scope = channel
      · subst hchannel
        rw [if_pos rfl, if_neg (by simp), map_append, map_singleton, hmessage]
        simp only [append, update_self, h.queue, length_map]
      · rw [if_neg hchannel]
        simp only [append, update_of_ne (Ne.symm hchannel)]
        exact h.channels channel
    · rw [hlog, hscope]
      by_cases hchannel : ablyChannelForScope sha256 session.scope = channel
      · subst hchannel
        rw [if_pos rfl, map_append, h.cursors, length_append, length_singleton,
          range_succ, map_append, map_singleton, map_singleton, hreceipt]
      · rw [if_neg hchannel]
        exact h.cursors channel
  | replayFrom cursor => exact h.quiet hbooked rfl rfl h.available
  | advanceClock nowMs =>
    refine h.quiet hbooked rfl rfl (h.available.trans ?_)
    exact (r.transport.connection.advanceClock_relayAvailable nowMs).symm
  | setRelayAvailable available => exact h.quiet hbooked rfl rfl rfl

theorem Stored.up {session : HostedSyncCredential}
    (hlive : r.transport.connection.ensureLive = .ok session) :
    ¬r.transport.edge.available = false := by
  simp [h.available, (Connection.ensureLive_ok hlive).2]

theorem Stored.nodup (channel : String) :
    ((channelLog sha256 r channel).map (·.receipt.cursor)).Nodup := by
  rw [h.cursors]
  refine List.Nodup.map (fun i j hij => ?_) nodup_range
  have := InMemoryAblyEdge.channelCursor_injective channel hij
  omega

theorem Stored.ordered (channel : String) : Ordered (·.atMs) (channelLog sha256 r channel) :=
  List.Pairwise.filter _ h.booked.ordered

theorem Stored.named {channel : String} (hp : p ∈ channelLog sha256 r channel) :
    p.receipt.cursor ≠ "0" ∧ p.receipt.cursor ≠ "" := by
  have hmem := mem_map_of_mem (f := (·.receipt.cursor)) hp
  rw [h.cursors] at hmem
  obtain ⟨i, _, hi⟩ := mem_map.1 hmem
  rw [← hi]
  exact InMemoryAblyEdge.channelCursor_ne_start channel (i + 1)

end

/-! ## Replays -/

theorem mapM_decodePayload (log : List Publication) :
    ((log.map (messageOf sha256)).map (·.payload)).mapM decodePayload =
      .ok (log.map (·.operation)) := by
  induction log with
  | nil => rfl
  | cons p log ih =>
    rw [map_cons, map_cons, mapM_cons, ih]
    simp only [messageOf, decodePayload_encode]
    rfl

theorem batch_messages {i : Nat} (h : startOf log cursor = some i) :
    batch (log.map (messageOf sha256)) cursor =
      ⟨((log.drop i).map (messageOf sha256)).map (·.payload), nextCursor (log.drop i) cursor⟩ := by
  have hindex : startIndex (log.map (messageOf sha256)) cursor = i :=
    startIndex_messages (fun _ => rfl) h
  simp only [batch, hindex, ← map_drop, List.getLast?_map, Option.map_map]
  rfl

theorem expired_messages {floor : Nat} {c : String}
    (hnamed : ∀ p ∈ log, p.receipt.cursor ≠ "0" ∧ p.receipt.cursor ≠ "") :
    expired (log.map (messageOf sha256))
      ((recent (·.atMs) floor log).map (messageOf sha256)) c =
        (startOf (recent (·.atMs) floor log) (some c)).isNone := by
  simp only [expired, @any_messages (messageOf sha256) fun _ => rfl,
    startOf]
  cases hrecent : (recent (·.atMs) floor log).findIdx? fun p => p.receipt.cursor = c with
  | some i =>
    have hknown : (log.findIdx? fun p => p.receipt.cursor = c).isSome = true := by
      have h := congrArg Option.isSome hrecent
      rw [List.findIdx?_isSome, Option.isSome_some, any_eq_true] at h
      obtain ⟨p, hp, hpc⟩ := h
      rw [List.findIdx?_isSome, any_eq_true]
      exact ⟨p, (mem_recent.1 hp).1, hpc⟩
    simp [hknown]
  | none =>
    by_cases hc : c = "0" ∨ c = ""
    · have hunknown : (log.findIdx? fun p => p.receipt.cursor = c).isSome = false := by
        rw [List.findIdx?_isSome, any_eq_false]
        intro p hp hpc
        have := hnamed p hp
        rw [of_decide_eq_true hpc] at this
        rcases hc with hc | hc
        · exact this.1 hc
        · exact this.2 hc
      rcases hc with rfl | rfl <;> simp [hunknown]
    · simp only [hc, if_false, Option.isSome_none, Option.isNone_none]
      rw [not_or] at hc
      cases (log.findIdx? fun p => p.receipt.cursor = c).isSome <;> simp [hc]

theorem queueHistory_messages (hnamed : ∀ p ∈ log, p.receipt.cursor ≠ "0" ∧ p.receipt.cursor ≠ "")
    (cursor : Option String) (floor : Nat) :
    queueHistory (log.map (messageOf sha256)) cursor floor =
      match startOf (recent (·.atMs) floor log) cursor with
      | some i =>
        .ok ⟨(((recent (·.atMs) floor log).drop i).map (messageOf sha256)).map (·.payload),
          nextCursor ((recent (·.atMs) floor log).drop i) cursor⟩
      | none =>
        .error (.cursorExpired ((recent (·.atMs) floor log).head?.map (·.receipt.cursor))) := by
  have hfilter : ((log.map (messageOf sha256)).filter fun m => floor ≤ m.retainedAtMs) =
      (recent (·.atMs) floor log).map (messageOf sha256) := filter_map ..
  simp only [queueHistory, hfilter]
  cases cursor with
  | none => rw [batch_messages rfl]; rfl
  | some c =>
    simp only [expired_messages hnamed]
    cases hstart : startOf (recent (·.atMs) floor log) (some c) with
    | some i => simp [batch_messages hstart]
    | none =>
      simp only [Option.isNone_none, if_true, List.head?_map, Option.map_map]
      rfl

/-- A replay over a live connection with an authorized token, with a cursor to start from or in a
channel that has been used, is answered from the recent publications of the channel. -/
theorem replayFrom_answer (h : Stored sha256 r) {session : HostedSyncCredential}
    (hlive : r.transport.connection.ensureLive = .ok session)
    (htoken : session.token ∈ r.transport.edge.tokens (ablyChannelForScope sha256 session.scope))
    (hcursor : cursor = none ∨ cursor = some "0" ∨
      channelLog sha256 r (ablyChannelForScope sha256 session.scope) ≠ []) :
    r.transport.replayFrom sha256 cursor =
      .ok (answer (recent (·.atMs) r.transport.connection.floor
        (channelLog sha256 r (ablyChannelForScope sha256 session.scope))) cursor) := by
  simp only [replayFrom, hlive, InMemoryAblyEdge.historyFrom, if_neg (h.up hlive),
    if_neg (not_not.2 htoken), h.channels, Connection.floor]
  by_cases hlog : channelLog sha256 r (ablyChannelForScope sha256 session.scope) = []
  · -- a channel that was never used
    simp only [hlog]
    rcases hcursor with rfl | rfl | hcursor
    · rfl
    · rfl
    · exact absurd hlog hcursor
  · simp only [if_neg hlog, queueHistory_messages fun _ hp => h.named hp, answer]
    cases startOf (recent (·.atMs)
        (r.transport.connection.nowMs - r.transport.connection.replayWindowMs)
        (channelLog sha256 r (ablyChannelForScope sha256 session.scope))) cursor with
    | some i => simp only [mapM_decodePayload]
    | none => rfl

/-- Whatever is called in whatever order: the queue of a channel holds the operations accepted under
its scopes, all of them, in order and numbered from one, and the lineage has them all, in which no
operation id comes twice. -/
theorem channel_log_integrity (tokens : String → List String) (calls : List Call) :
    ∃ r, Machine.run (Run.step (ably sha256)) (.start (.new (.authorized tokens))) calls = some r ∧
      r.transport.lineage = r.accepted.map (fun p => lineageOf sha256 p.operation) ∧
      (r.accepted.map (·.operation.operationId)).Nodup ∧
      ∀ channel, (r.transport.edge.channels channel).getD [] =
          (channelLog sha256 r channel).map (messageOf sha256) ∧
        (channelLog sha256 r channel).map (·.receipt.cursor) =
          (range (channelLog sha256 r channel).length).map fun i =>
            channelCursor channel (i + 1) := by
  have hruns : ∀ r, Stored sha256 r →
      ∃ r', Machine.run (Run.step (ably sha256)) r calls = some r' ∧ Stored sha256 r' := by
    induction calls with
    | nil => exact fun r h => ⟨r, rfl, h⟩
    | cons call calls ih => exact fun r h => ih _ (h.after call)
  obtain ⟨r, hrun, h⟩ := hruns _ (.start tokens)
  exact ⟨r, hrun, h.booked.lineage, h.booked.ids, fun channel =>
    ⟨h.queue channel, h.cursors channel⟩⟩

end AblyHostedSyncTransport

end Traverse.Hosted

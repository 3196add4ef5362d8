import Traverse.Hosted.Transport

/-!
# Hosted.Relay

`SharedRelay`, the relay inside `InMemoryHostedSyncTransport`: one queue of messages, which lose
their front when the clock advances, and a map from cursors to operations. The cursor of a new
message is made from the length of the queue. As long as that names no message that is still there,
the map and the queue agree with what was accepted (`Indexed.after`) and a replay answers from it
(`replayFrom_answer`); `relay_log_integrity` says what this gives for the log, and `cursor_reused`
what happens otherwise.
-/

namespace Traverse.Hosted

open Lines Window List Function Machine

structure SharedRelay where
  connection : Connection
  seenOperationIds : List String
  messages : List RetainedMessage
  operationsByCursor : String → Option EncryptedSyncOperation
  lineage : List HostedSyncLineageEvidence

def cursorText (seq : Nat) : String := s!"cursor:{seq}"

namespace SharedRelay

variable (sha256 : Bytes → Bytes)

def new : SharedRelay := ⟨.new, [], [], fun _ => none, []⟩

def connect (s : SharedRelay) (credential : HostedSyncCredential) :
    Except HostedSyncError Unit × SharedRelay :=
  ((s.connection.connect credential).1,
    { s with connection := (s.connection.connect credential).2 })

def refreshCredential (s : SharedRelay) (credential : HostedSyncCredential) :
    Except HostedSyncError Unit × SharedRelay :=
  ((s.connection.refreshCredential sha256 credential).1,
    { s with connection := (s.connection.refreshCredential sha256 credential).2 })

variable (s : SharedRelay)

/-- A new message, named by its position in the queue. -/
def append (operation : EncryptedSyncOperation) : SharedRelay :=
  let cursor := cursorText (s.messages.length + 1)
  { s with
    messages := s.messages ++ [⟨cursor, s.connection.nowMs, []⟩]
    operationsByCursor := update s.operationsByCursor cursor (some operation)
    seenOperationIds := operation.operationId :: s.seenOperationIds
    lineage := s.lineage ++ [lineageOf sha256 operation] }

def publish (operation : EncryptedSyncOperation) :
    Except HostedSyncError HostedSyncPublishReceipt × SharedRelay :=
  match s.connection.ensureLive with
  | .error e => (.error e, s)
  | .ok _ =>
    match s.connection.validateOperation operation with
    | .error e => (.error e, s)
    | .ok () =>
      if operation.operationId ∈ s.seenOperationIds then
        (.ok (deduplicated operation.operationId), s)
      else
        (.ok ⟨operation.operationId, cursorText (s.messages.length + 1)⟩, s.append sha256 operation)

/-- The loop of `prune_expired`: the expired messages in front go, with their operations. -/
def pruneFront (oldest : Nat) : List RetainedMessage → (String → Option EncryptedSyncOperation) →
    List RetainedMessage × (String → Option EncryptedSyncOperation)
  | [], operations => ([], operations)
  | m :: messages, operations =>
    if m.retainedAtMs < oldest then
      pruneFront oldest messages (update operations m.cursor none)
    else (m :: messages, operations)

def pruneExpired : SharedRelay :=
  let (messages, operations) := pruneFront s.connection.floor s.messages s.operationsByCursor
  { s with messages := messages, operationsByCursor := operations }

def advanceClock (s : SharedRelay) (nowMs : Nat) : SharedRelay :=
  { s with connection := s.connection.advanceClock nowMs }.pruneExpired

def setRelayAvailable (s : SharedRelay) (available : Bool) : SharedRelay :=
  { s with connection := s.connection.setRelayAvailable available }

/-- The cursor is not one to continue from. -/
def needsResync (cursor : String) : Bool :=
  let stillRetained := s.messages.any fun m => m.cursor = cursor
  let known := (s.operationsByCursor cursor).isSome || stillRetained
  (known && !stillRetained) || (!known && cursor ≠ "0" && cursor ≠ "")

/-- What is delivered after pruning, to a reader whose cursor is accepted. -/
def deliver (cursor : Option String) : HostedSyncReplayResult :=
  let start := startIndex s.messages cursor
  let operations := (s.messages.drop start).filterMap fun m => s.operationsByCursor m.cursor
  let lastIndex := start + (operations.length - 1)
  .delivered operations ((s.messages[lastIndex]?.map (·.cursor)).getD (cursor.getD "0"))

def replayFrom (cursor : Option String) :
    Except HostedSyncError HostedSyncReplayResult × SharedRelay :=
  match s.connection.ensureLive with
  | .error e => (.error e, s)
  | .ok _ =>
    let s := s.pruneExpired
    match cursor with
    | none => (.ok (s.deliver none), s)
    | some c =>
      if s.needsResync c then
        (.ok (.resyncRequired (s.messages.head?.map (·.cursor))), s)
      else (.ok (s.deliver (some c)), s)

/-- `InMemoryHostedSyncTransport`. -/
def inMemory : HostedSyncTransport SharedRelay where
  connect := connect
  refreshCredential := refreshCredential sha256
  publish := publish sha256
  replayFrom := replayFrom
  advanceClock := advanceClock
  setRelayAvailable := setRelayAvailable
  lineage := lineage
  connection := connection

/-! ## What is retained -/

theorem pruneFront_eq (oldest : Nat) (messages : List RetainedMessage)
    (operations : String → Option EncryptedSyncOperation) :
    pruneFront oldest messages operations =
      (messages.dropWhile fun m => m.retainedAtMs < oldest, fun c =>
        if c ∈ (messages.takeWhile fun m => m.retainedAtMs < oldest).map (·.cursor) then none
        else operations c) := by
  induction messages generalizing operations with
  | nil => simp [pruneFront]
  | cons m messages ih =>
    by_cases hm : m.retainedAtMs < oldest
    · rw [pruneFront, if_pos hm, ih]
      simp only [dropWhile_cons, takeWhile_cons, hm, decide_true, if_true,
        map_cons, mem_cons, Prod.mk.injEq, true_and]
      funext c
      by_cases hc : c = m.cursor
      · simp [hc]
      · simp [hc]
    · rw [pruneFront, if_neg hm]
      simp [hm]

theorem relays : Relays (inMemory sha256) sha256 seenOperationIds where
  connect := fun _ _ => ⟨rfl, rfl, rfl⟩
  refreshCredential := fun _ _ => ⟨rfl, rfl, rfl⟩
  publish := by
    intro s operation
    simp only [inMemory, publish]
    cases s.connection.ensureLive with
    | error e => exact .inl ⟨e, rfl⟩
    | ok session =>
      cases s.connection.validateOperation operation with
      | error e => exact .inl ⟨e, rfl⟩
      | ok _ =>
        by_cases hid : operation.operationId ∈ s.seenOperationIds
        · exact .inr (.inl ⟨hid, by simp only [if_pos hid]⟩)
        refine .inr (.inr ⟨hid, cursorText (s.messages.length + 1), s.append sha256 operation, ?_,
          rfl, rfl, rfl⟩)
        simp only [if_neg hid]
  live := by
    intro s operation receipt s' h
    simp only [inMemory, publish] at h
    split at h
    · cases h
    · next session hlive => exact ⟨session, (Connection.ensureLive_ok hlive).1⟩
  replayFrom := by
    intro s cursor
    simp only [inMemory, replayFrom]
    cases s.connection.ensureLive with
    | error e => exact ⟨rfl, rfl, rfl⟩
    | ok session =>
      cases cursor with
      | none => exact ⟨rfl, rfl, rfl⟩
      | some c =>
        simp only
        split <;> exact ⟨rfl, rfl, rfl⟩
  advanceClock := fun _ _ => ⟨rfl, rfl, rfl⟩
  setRelayAvailable := fun _ _ => ⟨rfl, rfl, rfl⟩

def messageOf (p : Publication) : RetainedMessage := ⟨p.receipt.cursor, p.atMs, []⟩

/-- The accepted publications inside the replay window. -/
def retained (r : Run SharedRelay) : List Publication :=
  recent (·.atMs) r.transport.connection.floor r.accepted

/-- The queue holds the accepted operations of the replay window, and nothing else. -/
structure Stored (r : Run SharedRelay) : Prop where
  booked : Booked (inMemory sha256) sha256 seenOperationIds r
  messages : r.transport.messages = (retained r).map messageOf
  named : ∀ p ∈ r.accepted, ∃ seq, p.receipt.cursor = cursorText seq

theorem cursorText_ne_start (seq : Nat) : cursorText seq ≠ "0" ∧ cursorText seq ≠ "" := by
  have h : (cursorText seq).toList.head? = some 'c' := by
    simp [cursorText, toString]
  constructor <;>
  · intro heq
    rw [heq] at h
    simp at h

variable {s : SharedRelay} {operation : EncryptedSyncOperation} {p : Publication}
  {r' : Run SharedRelay}

theorem pruneExpired_eq_self (h : ∀ m ∈ s.messages, s.connection.floor ≤ m.retainedAtMs) :
    s.pruneExpired = s := by
  unfold pruneExpired
  cases hm : s.messages with
  | nil => rw [pruneFront, ← hm]
  | cons m messages =>
    have hfront : ¬m.retainedAtMs < s.connection.floor :=
      Nat.not_lt.2 (h m (hm ▸ mem_cons_self ..))
    rw [pruneFront, if_neg hfront, ← hm]

variable {sha256} {r : Run SharedRelay}

theorem mem_retained : p ∈ retained r ↔ p ∈ r.accepted ∧ r.transport.connection.floor ≤ p.atMs :=
  mem_recent

theorem Stored.pruned (h : Stored sha256 r) : r.transport.pruneExpired = r.transport := by
  refine pruneExpired_eq_self fun m hm => ?_
  rw [h.messages] at hm
  obtain ⟨p, hp, rfl⟩ := mem_map.1 hm
  exact (mem_retained.1 hp).2

theorem Stored.after_replayFrom (h : Stored sha256 r) (cursor : Option String) :
    r.after (inMemory sha256) (.replayFrom cursor) = r := by
  have hsame : (r.transport.replayFrom cursor).2 = r.transport := by
    unfold replayFrom
    cases r.transport.connection.ensureLive with
    | error e => rfl
    | ok session =>
      cases cursor with
      | none => exact h.pruned
      | some c =>
        simp only [h.pruned]
        split <;> rfl
  show (⟨(r.transport.replayFrom cursor).2, r.published⟩ : Run SharedRelay) = r
  rw [hsame]

/-- A publish call changes nothing that is retained, or appends one publication. -/
theorem Stored.after_publish (h : Stored sha256 r) (operation : EncryptedSyncOperation) :
    ((r.after (inMemory sha256) (.publish operation)).transport = r.transport ∧
      (r.after (inMemory sha256) (.publish operation)).accepted = r.accepted) ∨
    (¬r.Accepted operation.operationId ∧ ∃ p : Publication, p.operation = operation ∧
      p.receipt = ⟨operation.operationId, cursorText (r.transport.messages.length + 1)⟩ ∧
      p.atMs = r.transport.connection.nowMs ∧
      p.scope = (r.transport.connection.session.map (·.scope)).getD "" ∧
      (r.after (inMemory sha256) (.publish operation)).transport =
        r.transport.append sha256 operation ∧
      (r.after (inMemory sha256) (.publish operation)).accepted = r.accepted ++ [p] ∧
      retained (r.after (inMemory sha256) (.publish operation)) = retained r ++ [p]) := by
  rcases Run.publish_cases (relays sha256) h.booked operation with
    ⟨e, _, hafter⟩ | ⟨_, _, p, _, _, hafter, haccepted⟩ |
    ⟨hacc, cursor, s', p, hok, _, _, hconnection, rfl, _, hafter, haccepted⟩
  · exact .inl ⟨by rw [hafter], by rw [hafter]⟩
  · exact .inl ⟨by rw [hafter], haccepted⟩
  have hid := fun hseen => hacc ((h.booked.seen _).1 hseen)
  simp only [inMemory, publish] at hok
  split at hok
  · cases hok
  split at hok
  · cases hok
  rw [if_neg hid] at hok
  cases hok
  refine .inr ⟨hacc, _, rfl, rfl, rfl, rfl, by rw [hafter], haccepted, ?_⟩
  have hrecent : ∀ p : Publication, p.atMs = r.transport.connection.nowMs →
      recent (·.atMs) r.transport.connection.floor [p] = [p] := by
    intro p hp
    refine recent_eq_self fun q hq => ?_
    rw [mem_singleton.1 hq, hp]
    exact Nat.sub_le ..
  rw [retained, haccepted, recent_append, hafter]
  exact congrArg _ (hrecent _ rfl)

theorem retained_connect (credential : HostedSyncCredential) :
    retained (r.after (inMemory sha256) (.connect credential)) = retained r :=
  congrArg (fun floor => recent Publication.atMs floor r.accepted)
    (r.transport.connection.connect_sessionOnly credential).floor

theorem retained_refreshCredential (credential : HostedSyncCredential) :
    retained (r.after (inMemory sha256) (.refreshCredential credential)) = retained r :=
  congrArg (fun floor => recent Publication.atMs floor r.accepted)
    (r.transport.connection.refreshCredential_sessionOnly sha256 credential).floor

theorem retained_advanceClock (nowMs : Nat) :
    retained (r.after (inMemory sha256) (.advanceClock nowMs)) =
      recent (·.atMs) (r.transport.connection.advanceClock nowMs).floor (retained r) :=
  (recent_recent (r.transport.connection.floor_le_advanceClock nowMs)).symm

theorem Stored.ordered (h : Stored sha256 r) : Ordered (·.atMs) (retained r) :=
  h.booked.ordered.recent

theorem Stored.after (h : Stored sha256 r) (call : Call) :
    Stored sha256 (r.after (inMemory sha256) call) := by
  have hbooked := h.booked.after (relays sha256) call
  cases call with
  | connect credential =>
    refine ⟨hbooked, ?_, h.named⟩
    rw [retained_connect]
    exact h.messages
  | refreshCredential credential =>
    refine ⟨hbooked, ?_, h.named⟩
    rw [retained_refreshCredential]
    exact h.messages
  | publish operation =>
    rcases h.after_publish operation with ⟨htransport, haccepted⟩ |
      ⟨_, p, _, hreceipt, hat, _, htransport, haccepted, hretained⟩
    · refine ⟨hbooked, ?_, haccepted ▸ h.named⟩
      rw [retained, haccepted, htransport]
      exact h.messages
    refine ⟨hbooked, ?_, fun q hq => ?_⟩
    · rw [hretained, map_append, ← h.messages, htransport]
      simp only [append, map_singleton, messageOf, hreceipt, hat]
    · rw [haccepted, mem_append, mem_singleton] at hq
      rcases hq with hq | rfl
      · exact h.named q hq
      · exact ⟨_, congrArg HostedSyncPublishReceipt.cursor hreceipt⟩
  | replayFrom cursor => exact (h.after_replayFrom cursor).symm ▸ h
  | advanceClock nowMs =>
    refine ⟨hbooked, ?_, h.named⟩
    rw [retained_advanceClock, ← dropWhile_eq_recent h.ordered]
    show (pruneFront _ r.transport.messages _).1 = _
    rw [pruneFront_eq, h.messages, dropWhile_map]
    rfl
  | setRelayAvailable available => exact ⟨hbooked, h.messages, h.named⟩

theorem Stored.start : Stored sha256 (.start .new) where
  booked := .start rfl rfl
  messages := rfl
  named := by simp [Run.start, Run.accepted]

/-! ## Finding operations by cursor -/

/-- The text that names a new message names no message of the queue. -/
def FreshCursor (r : Run SharedRelay) : Call → Prop
  | .publish operation => ¬r.Accepted operation.operationId →
    ∀ m ∈ r.transport.messages, m.cursor ≠ cursorText (r.transport.messages.length + 1)
  | _ => True

instance (r : Run SharedRelay) : DecidablePred (FreshCursor r)
  | .publish _ => by dsimp only [FreshCursor]; infer_instance
  | .connect _ | .refreshCredential _ | .replayFrom _ | .advanceClock _ | .setRelayAvailable _ =>
    .isTrue trivial

structure Indexed (r : Run SharedRelay) : Prop where
  nodup : ((retained r).map (·.receipt.cursor)).Nodup
  operations : ∀ p ∈ retained r,
    r.transport.operationsByCursor p.receipt.cursor = some p.operation
  known : ∀ c, (r.transport.operationsByCursor c).isSome → ∃ p ∈ retained r, p.receipt.cursor = c

theorem Indexed.start : Indexed (.start .new) where
  nodup := nodup_nil
  operations := by simp [retained, Run.start, Run.accepted, recent]
  known := by simp [Run.start, new]

theorem Indexed.same (h : Indexed r) (hretained : retained r' = retained r)
    (hoperations : r'.transport.operationsByCursor = r.transport.operationsByCursor) :
    Indexed r' where
  nodup := hretained ▸ h.nodup
  operations := by rw [hretained, hoperations]; exact h.operations
  known := by rw [hretained, hoperations]; exact h.known

theorem Indexed.publish (h : Indexed r) (hs : Stored sha256 r)
    (hfresh : ∀ m ∈ r.transport.messages, m.cursor ≠ cursorText (r.transport.messages.length + 1))
    (htransport : r'.transport = r.transport.append sha256 operation)
    (hretained : retained r' = retained r ++ [p]) (hoperation : p.operation = operation)
    (hcursor : p.receipt.cursor = cursorText (r.transport.messages.length + 1)) : Indexed r' := by
  have hnew : ∀ q ∈ retained r, q.receipt.cursor ≠ p.receipt.cursor := by
    intro q hq
    rw [hcursor]
    refine hfresh (messageOf q) ?_
    rw [hs.messages]
    exact mem_map_of_mem hq
  have hops : r'.transport.operationsByCursor =
      update r.transport.operationsByCursor p.receipt.cursor (some p.operation) := by
    rw [htransport, hcursor, hoperation]
    rfl
  refine ⟨?_, fun q hq => ?_, fun c hc => ?_⟩
  · rw [hretained]
    exact nodup_map_concat h.nodup hnew
  · rw [hretained, mem_append, mem_singleton] at hq
    rcases hq with hq | rfl
    · rw [hops, update_of_ne (hnew q hq)]
      exact h.operations q hq
    · rw [hops, update_self]
  · rw [hretained]
    by_cases hcp : c = p.receipt.cursor
    · exact ⟨p, mem_append_right _ (mem_singleton.2 rfl), hcp.symm⟩
    rw [hops, update_of_ne hcp] at hc
    obtain ⟨q, hq, hqc⟩ := h.known c hc
    exact ⟨q, mem_append_left _ hq, hqc⟩

theorem Stored.after_advanceClock (hs : Stored sha256 r) (nowMs : Nat) :
    ∃ gone, gone ++ retained (r.after (inMemory sha256) (.advanceClock nowMs)) = retained r ∧
      (r.after (inMemory sha256) (.advanceClock nowMs)).transport.operationsByCursor =
        fun c => if c ∈ gone.map (·.receipt.cursor) then none
          else r.transport.operationsByCursor c := by
  let oldest := (r.transport.connection.advanceClock nowMs).floor
  refine ⟨(retained r).takeWhile fun p => p.atMs < oldest, ?_, ?_⟩
  · rw [retained_advanceClock, ← dropWhile_eq_recent hs.ordered]
    exact takeWhile_append_dropWhile
  · show (pruneFront oldest r.transport.messages r.transport.operationsByCursor).2 = _
    rw [pruneFront_eq, hs.messages, takeWhile_map, map_map]
    rfl

theorem Indexed.advanceClock (h : Indexed r) (hs : Stored sha256 r) (nowMs : Nat) :
    Indexed (r.after (inMemory sha256) (.advanceClock nowMs)) := by
  obtain ⟨gone, hsplit, hops⟩ := hs.after_advanceClock nowMs
  have hnodup := h.nodup
  rw [← hsplit, map_append, nodup_append] at hnodup
  refine ⟨hnodup.2.1, fun p hp => ?_, fun c hc => ?_⟩
  · have hgone : p.receipt.cursor ∉ gone.map (·.receipt.cursor) := fun hmem =>
      hnodup.2.2 _ hmem _ (mem_map_of_mem hp) rfl
    rw [hops]
    simp only [if_neg hgone]
    exact h.operations p (hsplit ▸ mem_append_right _ hp)
  · rw [hops] at hc
    by_cases hgone : c ∈ gone.map (·.receipt.cursor)
    · simp [hgone] at hc
    simp only [if_neg hgone] at hc
    obtain ⟨p, hp, rfl⟩ := h.known c hc
    rw [← hsplit, mem_append] at hp
    rcases hp with hp | hp
    · exact absurd (mem_map_of_mem hp) hgone
    · exact ⟨p, hp, rfl⟩

theorem Indexed.after (h : Indexed r) (hs : Stored sha256 r) {call : Call}
    (hcall : FreshCursor r call) : Indexed (r.after (inMemory sha256) call) := by
  cases call with
  | connect credential => exact h.same (retained_connect credential) rfl
  | refreshCredential credential => exact h.same (retained_refreshCredential credential) rfl
  | publish operation =>
    rcases hs.after_publish operation with ⟨htransport, haccepted⟩ |
      ⟨hacc, p, hoperation, hreceipt, _, _, htransport, _, hretained⟩
    · refine h.same ?_ (by rw [htransport])
      rw [retained, haccepted, htransport]
      rfl
    · exact h.publish hs (hcall hacc) htransport hretained hoperation
        (congrArg HostedSyncPublishReceipt.cursor hreceipt)
  | replayFrom cursor => exact (hs.after_replayFrom cursor).symm ▸ h
  | advanceClock nowMs => exact h.advanceClock hs nowMs
  | setRelayAvailable available => exact h.same rfl rfl

/-! ## Replays -/

section

variable (hs : Stored sha256 r) (hi : Indexed r)

include hs hi

theorem deliver_eq {cursor : Option String} {i : Nat}
    (hstart : startOf (retained r) cursor = some i) :
    r.transport.deliver cursor = .delivered (((retained r).drop i).map (·.operation))
      (nextCursor ((retained r).drop i) cursor) := by
  have hops : (r.transport.messages.drop i).filterMap
      (fun m => r.transport.operationsByCursor m.cursor) =
      ((retained r).drop i).map (·.operation) := by
    rw [hs.messages, ← map_drop, filterMap_map, ← filterMap_eq_map]
    exact filterMap_congr fun p hp => hi.operations p (mem_of_mem_drop hp)
  have hlast : r.transport.messages[i + (((retained r).drop i).length - 1)]?.map (·.cursor) =
      ((retained r).drop i).getLast?.map (·.receipt.cursor) := by
    rw [hs.messages, List.getLast?_eq_getElem?, List.getElem?_drop, List.getElem?_map,
      Option.map_map]
    rfl
  have hindex : startIndex r.transport.messages cursor = i := by
    rw [hs.messages]
    exact startIndex_messages (fun _ => rfl) hstart
  simp only [deliver, hindex, hops, length_map, hlast]
  rfl

theorem needsResync_eq (c : String) :
    r.transport.needsResync c = (startOf (retained r) (some c)).isNone := by
  have hany : r.transport.messages.any (fun m => m.cursor = c) =
      ((retained r).findIdx? fun p => p.receipt.cursor = c).isSome := by
    rw [hs.messages]
    exact any_messages (fun _ => rfl) c
  simp only [needsResync, hany, startOf]
  cases hfind : (retained r).findIdx? fun p => p.receipt.cursor = c with
  | some i => simp
  | none =>
    have hunknown : (r.transport.operationsByCursor c).isSome = false := by
      rw [Bool.eq_false_iff]
      intro hknown
      obtain ⟨p, hp, hpc⟩ := hi.known c hknown
      have := List.findIdx?_eq_none_iff.1 hfind p hp
      simp [hpc] at this
    simp only [hunknown]
    by_cases hc : c = "0" ∨ c = ""
    · rcases hc with rfl | rfl <;> simp
    · rw [not_or] at hc
      simp [hc]

theorem replayFrom_answer {session : HostedSyncCredential}
    (hlive : r.transport.connection.ensureLive = .ok session) (cursor : Option String) :
    r.transport.replayFrom cursor = (.ok (answer (retained r) cursor), r.transport) := by
  simp only [replayFrom, hlive, hs.pruned, answer]
  cases cursor with
  | none => rw [deliver_eq hs hi (i := 0) rfl]; rfl
  | some c =>
    simp only [needsResync_eq hs hi]
    cases hstart : startOf (retained r) (some c) with
    | some i => simp [deliver_eq hs hi hstart]
    | none =>
      simp only [hs.messages, Option.isNone_none, if_true, List.head?_map, Option.map_map]
      rfl

end

/-! ## Integrity of the log -/

def Undisturbed (r : Run SharedRelay) (call : Call) : Prop := NoRepeat r call ∧ FreshCursor r call

/-- If no operation id is published twice, and no new message gets the cursor of a message that is
still there, then the messages have different cursors, each leads to the operation that was
published under its cursor, and every operation of the last replay window is there once. -/
theorem relay_log_integrity {calls : List Call} {r : Run SharedRelay}
    (h : Path (Run.step (inMemory sha256)) Undisturbed (.start .new) calls r) :
    (r.transport.messages.map (·.cursor)).Nodup ∧
    (∀ m ∈ r.transport.messages,
      (∃ p ∈ r.published, p.receipt.cursor = m.cursor ∧ p.atMs = m.retainedAtMs) ∧
      ∀ p ∈ r.published, r.transport.connection.floor ≤ p.atMs → p.receipt.cursor = m.cursor →
        r.transport.operationsByCursor m.cursor = some p.operation) ∧
    ∀ p ∈ r.published,
      r.transport.connection.nowMs ≤ p.atMs + r.transport.connection.replayWindowMs →
      ∃ m ∈ r.transport.messages, r.transport.operationsByCursor m.cursor = some p.operation ∧
        ∀ m' ∈ r.transport.messages,
          r.transport.operationsByCursor m'.cursor = some p.operation → m' = m := by
  obtain ⟨hs, hi, hall⟩ : Stored sha256 r ∧ Indexed r ∧ r.accepted = r.published := by
    refine invariant (fun r => Stored sha256 r ∧ Indexed r ∧ r.accepted = r.published)
      ?_ ⟨.start, .start, rfl⟩ h.1 h.2
    rintro r call r' ⟨hs, hi, hall⟩ hcall hstep
    cases hstep
    exact ⟨hs.after call, hi.after hs hcall.2,
      accepted_of_noRepeat (relays sha256) hs.booked hall hcall.1⟩
  refine ⟨?_, fun m hm => ⟨?_, fun p hp hfloor hcursor => ?_⟩, fun p hp hwindow => ?_⟩
  · rw [hs.messages, map_map]
    exact hi.nodup
  · rw [hs.messages] at hm
    obtain ⟨p, hp, rfl⟩ := mem_map.1 hm
    exact ⟨p, hall ▸ (mem_retained.1 hp).1, rfl, rfl⟩
  · rw [← hcursor]
    exact hi.operations p (mem_retained.2 ⟨hall.symm ▸ hp, hfloor⟩)
  · have hkept : p ∈ retained r := by
      refine mem_retained.2 ⟨hall.symm ▸ hp, ?_⟩
      rw [Connection.floor]
      omega
    refine ⟨messageOf p, hs.messages ▸ mem_map_of_mem hkept, hi.operations p hkept, ?_⟩
    intro m' hm' hoperation
    rw [hs.messages] at hm'
    obtain ⟨q, hq, rfl⟩ := mem_map.1 hm'
    have hsame : q.operation = p.operation :=
      Option.some.inj ((hi.operations q hq).symm.trans hoperation)
    rw [inj_on_of_nodup_map hs.booked.ids (mem_retained.1 hq).1 (mem_retained.1 hkept).1
      (congrArg EncryptedSyncOperation.operationId hsame)]

/-- An operation as the conformance suite sends it. -/
def syncOperation (operationId : String) : EncryptedSyncOperation where
  operationId := operationId
  synchronizationSetId := "sync-set-1"
  writerId := "writer-a"
  lamportClock := 3
  correlationId := some "corr-1"
  causationId := some "cause-1"
  keyVersionId := "key-active"
  ciphertext := [99]

def credentialFor (scope : String) : HostedSyncCredential := ⟨"token-a", scope, 1000000⟩

def joins (scope : String) : Call := .connect (credentialFor scope)

def sends (operationId : String) : Call := .publish (syncOperation operationId)

theorem relay_log_integrity_emptied : ∃ r : Run SharedRelay,
    Path (Run.step (inMemory id)) Undisturbed (.start .new)
      [joins "scope-a", sends "op-1", .advanceClock 200000, sends "op-2"] r ∧
    (r.transport.messages.map (·.cursor)).Nodup := by
  refine Exists.imp (fun r hr => ⟨hr, (relay_log_integrity hr).1⟩) ⟨_, .cons ⟨trivial, trivial⟩ rfl
    (.cons ⟨?_, ?_⟩ rfl (.cons ⟨trivial, trivial⟩ rfl (.cons ⟨?_, ?_⟩ rfl (.nil _))))⟩
  · show ¬Run.Accepted _ _
    decide
  · exact fun _ => by decide
  · show ¬Run.Accepted _ _
    decide
  · exact fun _ => by decide

/-- The queue holds `op-1` and `op-2`; when `op-1` expires the queue is one message shorter, so
`op-3` gets the cursor of `op-2`, and `op-2` is not found any more although it was published thirty
seconds ago. A repeated id is acknowledged although its operation has left the queue. -/
theorem cursor_reused :
    (∃ r : Run SharedRelay, run (Run.step (inMemory id)) (.start .new)
      [joins "scope-a", sends "op-1", .advanceClock 100000, sends "op-2", .advanceClock 130000,
        sends "op-3"] = some r ∧
      r.transport.messages.map (·.cursor) = ["cursor:2", "cursor:2"] ∧
      (∃ p ∈ r.published, p.operation = syncOperation "op-2" ∧ p.atMs = 100000 ∧
        r.transport.connection.nowMs ≤ p.atMs + r.transport.connection.replayWindowMs) ∧
      ∀ m ∈ r.transport.messages,
        r.transport.operationsByCursor m.cursor = some (syncOperation "op-3")) ∧
    ∃ r : Run SharedRelay, run (Run.step (inMemory id)) (.start .new)
      [joins "scope-a", sends "op-1", .advanceClock 200000, sends "op-1"] = some r ∧
      (∃ p ∈ r.published, p.operation = syncOperation "op-1" ∧ p.atMs = 200000) ∧
      r.transport.messages = [] := by
  refine ⟨⟨_, rfl, ?_, ?_, ?_⟩, _, rfl, ?_, ?_⟩ <;> decide

end SharedRelay

end Traverse.Hosted

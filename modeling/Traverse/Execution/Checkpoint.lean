import Traverse.Sys.Machine
import Traverse.Text.Decimal

/-!
# Execution.Checkpoint

Durable checkpoints and their fencing tokens. `acquireLease` asks for a newer token than the one in
the worker's own copy; `save` replaces whatever is stored.

`Workers` are any number of workers over one `MemoryCheckpointStore`, each with its own copy.
`token_kept_iff` says which of their runs never let the stored token drop: those in which a worker
that persists has not been overtaken, since it loaded its copy, by another one with a newer token.
Nothing in the store enforces it, see `stale_worker_replaces`.
-/

namespace Traverse.Execution

open Function Machine

open Text (trim)

def governingSpec : String := "111-durable-dynamic-orchestration"

structure GoverningSnapshots where
  (proposalDigest manifestDigest registryDigest policyDigest authorizationDigest : String)
  deriving DecidableEq, Repr

def GoverningSnapshots.isComplete (g : GoverningSnapshots) : Bool :=
  [g.proposalDigest, g.manifestDigest, g.registryDigest, g.policyDigest, g.authorizationDigest].all
    fun digest => !(trim digest).isEmpty

structure ExecutionLease where
  ownerId : String
  (fencingToken expiresAt : Nat)
  deriving DecidableEq, Repr

/-- What waits, retries and compensation need is left out. -/
structure DurableCheckpoint where
  (governingSpec executionId : String)
  snapshots : GoverningSnapshots
  lease : ExecutionLease
  completedNodeIds : List String
  authenticationTag : String
  deriving DecidableEq, Repr

inductive DurableOrchestrationErrorCode where
  | invalidCheckpoint
  | authenticationFailed
  | snapshotMismatch
  | staleLease
  deriving DecidableEq, Repr

structure DurableOrchestrationError where
  code : DurableOrchestrationErrorCode
  message : String
  deriving DecidableEq, Repr

def validateCheckpoint (c : DurableCheckpoint) : Except DurableOrchestrationError Unit :=
  if c.governingSpec ≠ governingSpec || (trim c.executionId).isEmpty || !c.snapshots.isComplete ||
      (trim c.lease.ownerId).isEmpty || c.lease.fencingToken == 0 then
    .error ⟨.invalidCheckpoint, "checkpoint is incomplete or uses an unsupported governing spec"⟩
  else .ok ()

def authenticatedTag (c : DurableCheckpoint) : String :=
  c.executionId ++ ":" ++ c.lease.fencingToken.repr ++ ":" ++ c.snapshots.proposalDigest

/-- The map, by execution id. -/
structure MemoryCheckpointStore where
  checkpoints : String → Option DurableCheckpoint
  keyed : ∀ {id c}, checkpoints id = some c → c.executionId = id

namespace MemoryCheckpointStore

variable (store : MemoryCheckpointStore)

def save (c : DurableCheckpoint) : MemoryCheckpointStore where
  checkpoints := update store.checkpoints c.executionId (some c)
  keyed h := by
    obtain ⟨rfl, hc⟩ | ⟨-, hc⟩ := update_eq_some h
    · rw [Option.some.inj hc]
    · exact store.keyed hc

def load (executionId : String) : Option DurableCheckpoint :=
  store.checkpoints executionId

def verify (c : DurableCheckpoint) : Bool := c.authenticationTag == authenticatedTag c

/-- The token of the stored checkpoint; no valid checkpoint has token 0. -/
def token (executionId : String) : Nat :=
  match store.checkpoints executionId with
  | some c => c.lease.fencingToken
  | none => 0

end MemoryCheckpointStore

variable (store : MemoryCheckpointStore) (c : DurableCheckpoint)

def persistCheckpoint :
    Except DurableOrchestrationError Unit × MemoryCheckpointStore :=
  match validateCheckpoint c with
  | .error e => (.error e, store)
  | .ok () =>
    (.ok (), store.save
      (if c.authenticationTag.isEmpty then
        { c with authenticationTag := authenticatedTag c } else c))

def recoverCheckpoint (executionId : String) (expected : GoverningSnapshots) (now : Nat) :
    Except DurableOrchestrationError DurableCheckpoint :=
  match store.load executionId with
  | none => .error ⟨.invalidCheckpoint, "checkpoint is absent"⟩
  | some c =>
    match validateCheckpoint c with
    | .error e => .error e
    | .ok () =>
      if !MemoryCheckpointStore.verify c then
        .error ⟨.authenticationFailed, "checkpoint authentication failed"⟩
      else if c.snapshots ≠ expected then
        .error ⟨.snapshotMismatch, "checkpoint governing snapshots differ"⟩
      else if c.lease.expiresAt ≤ now then .error ⟨.staleLease, "checkpoint lease has expired"⟩
      else .ok c

def acquireLease (ownerId : String) (fencingToken expiresAt : Nat) :
    Except DurableOrchestrationError Unit × DurableCheckpoint :=
  if (trim ownerId).isEmpty || fencingToken ≤ c.lease.fencingToken ||
      expiresAt ≤ c.lease.expiresAt then
    (.error ⟨.staleLease, "lease transfer requires a newer fencing token and expiry"⟩, c)
  else (.ok (), { c with lease := ⟨ownerId, fencingToken, expiresAt⟩, authenticationTag := "" })

/-- A refused checkpoint changes nothing; one that is accepted is stored, with a tag if it had
none. -/
theorem persistCheckpoint_cases :
    (∃ e, validateCheckpoint c = .error e ∧ persistCheckpoint store c = (.error e, store)) ∨
    ∃ tag, validateCheckpoint c = .ok () ∧
      persistCheckpoint store c = (.ok (), store.save { c with authenticationTag := tag }) := by
  unfold persistCheckpoint
  cases validateCheckpoint c with
  | error e => exact .inl ⟨e, rfl, rfl⟩
  | ok u =>
    refine .inr ?_
    by_cases htag : c.authenticationTag.isEmpty
    · exact ⟨authenticatedTag c, rfl, by rw [if_pos htag]⟩
    · exact ⟨c.authenticationTag, rfl, by rw [if_neg htag]⟩

theorem acquireLease_token (ownerId : String) (fencingToken expiresAt : Nat) :
    (acquireLease c ownerId fencingToken expiresAt).2.executionId = c.executionId ∧
      c.lease.fencingToken ≤
        (acquireLease c ownerId fencingToken expiresAt).2.lease.fencingToken := by
  unfold acquireLease
  grind

theorem recoverCheckpoint_load {store : MemoryCheckpointStore} {executionId : String}
    {expected : GoverningSnapshots} {now : Nat} {c : DurableCheckpoint}
    (h : recoverCheckpoint store executionId expected now = .ok c) :
    store.load executionId = some c := by
  unfold recoverCheckpoint at h
  grind

/-! ## Workers over one store -/

variable {ι : Type} [DecidableEq ι]

structure Workers (ι : Type) where
  store : MemoryCheckpointStore
  copies : ι → Option DurableCheckpoint
  /-- The greatest token that others have persisted for the same execution since the worker loaded
  its copy. No call reads it. -/
  rivals : ι → Nat

inductive WorkerCall (ι : Type) where
  | load (worker : ι) (executionId : String)
  | recover (worker : ι) (executionId : String) (expected : GoverningSnapshots) (now : Nat)
  | acquireLease (worker : ι) (ownerId : String) (fencingToken expiresAt : Nat)
  /-- The worker records what it did in its copy. -/
  | progress (worker : ι) (completed : List String)
  | persist (worker : ι)

namespace Workers

def start (store : MemoryCheckpointStore) : Workers ι := ⟨store, fun _ => none, fun _ => 0⟩

def loaded (s : Workers ι) (worker : ι) (copy : Option DurableCheckpoint) : Workers ι :=
  { s with copies := update s.copies worker copy, rivals := update s.rivals worker 0 }

def keep (s : Workers ι) (worker : ι) (copy : DurableCheckpoint) : Workers ι :=
  { s with copies := update s.copies worker (some copy) }

def persist (s : Workers ι) (worker : ι) (c : DurableCheckpoint) : Workers ι :=
  match persistCheckpoint s.store c with
  | (.error _, _) => s
  | (.ok (), store) =>
    { s with
      store
      rivals := fun other =>
        if other ≠ worker ∧ (s.copies other).any (·.executionId = c.executionId) then
          max (s.rivals other) c.lease.fencingToken
        else s.rivals other }

def step (s : Workers ι) : WorkerCall ι → Option (Workers ι)
  | .load worker executionId => some (s.loaded worker (s.store.load executionId))
  | .recover worker executionId expected now =>
    match recoverCheckpoint s.store executionId expected now with
    | .ok c => some (s.loaded worker (some c))
    | .error _ => some s
  | .acquireLease worker ownerId fencingToken expiresAt =>
    (s.copies worker).map fun c => s.keep worker (acquireLease c ownerId fencingToken expiresAt).2
  | .progress worker completed =>
    (s.copies worker).map fun c => s.keep worker { c with completedNodeIds := completed }
  | .persist worker => (s.copies worker).map (s.persist worker)

/-- The call persists this copy, and the copy is not refused. -/
def Persists (id : String) (s : Workers ι) (call : WorkerCall ι) (worker : ι)
    (c : DurableCheckpoint) : Prop :=
  call = .persist worker ∧ s.copies worker = some c ∧ c.executionId = id ∧
    validateCheckpoint c = .ok ()

/-- No other worker has persisted a newer token since this one loaded its copy. -/
def NotOvertaken (id : String) (s : Workers ι) (call : WorkerCall ι) : Prop :=
  ∀ worker c, Persists id s call worker c → s.rivals worker ≤ c.lease.fencingToken

/-- A copy that is persisted is not older than what is stored. -/
def Current (id : String) (s : Workers ι) (call : WorkerCall ι) : Prop :=
  ∀ worker c, Persists id s call worker c → s.store.token id ≤ c.lease.fencingToken

/-- The stored token does not drop. -/
def TokenKept (id : String) (s : Workers ι) (call : WorkerCall ι) : Prop :=
  ∀ s', step s call = some s' → s.store.token id ≤ s'.store.token id

/-- A worker that holds a smaller token than what is stored does not replace it. -/
def Fenced (id : String) (s : Workers ι) (call : WorkerCall ι) : Prop :=
  ∀ worker c s', call = .persist worker → s.copies worker = some c → c.executionId = id →
    c.lease.fencingToken < s.store.token id → step s call = some s' →
    s'.store.load id = s.store.load id

variable {s s' : Workers ι} {call : WorkerCall ι} {store : MemoryCheckpointStore} {id : String}
  {calls : List (WorkerCall ι)}

/-- Only `persist` reaches the store, and only the entry of the copy's execution. -/
theorem step_store (h : step s call = some s') (id : String) :
    s'.store.load id = s.store.load id ∨ ∃ worker c tag, Persists id s call worker c ∧
      s'.store.load id = some { c with authenticationTag := tag } := by
  cases call with
  | load worker executionId =>
    cases h
    exact .inl rfl
  | recover worker executionId expected now =>
    rw [step] at h
    split at h
    · cases h
      exact .inl rfl
    · cases h
      exact .inl rfl
  | acquireLease | progress =>
    obtain ⟨c, -, rfl⟩ := Option.map_eq_some_iff.1 h
    exact .inl rfl
  | persist worker =>
    obtain ⟨c, hcopy, rfl⟩ := Option.map_eq_some_iff.1 h
    rcases persistCheckpoint_cases s.store c with ⟨e, -, hpersist⟩ | ⟨tag, hvalid, hpersist⟩
    · exact .inl (by rw [persist, hpersist])
    rw [persist, hpersist]
    by_cases hid : c.executionId = id
    · refine .inr ⟨worker, c, tag, ⟨rfl, hcopy, hid, hvalid⟩, ?_⟩
      rw [← hid]
      exact update_self ..
    · exact .inl (update_of_ne (Ne.symm hid) ..)

theorem token_of_load {c : DurableCheckpoint} (h : store.load id = some c) :
    store.token id = c.lease.fencingToken := by
  rw [MemoryCheckpointStore.token, show store.checkpoints id = some c from h]

theorem token_save {c : DurableCheckpoint} {tag : String} (h : c.executionId = id) :
    (store.save { c with authenticationTag := tag }).token id = c.lease.fencingToken := by
  subst h
  exact token_of_load (c := { c with authenticationTag := tag }) (update_self ..)

theorem token_congr {store' : MemoryCheckpointStore} (h : store'.load id = store.load id) :
    store'.token id = store.token id := by
  unfold MemoryCheckpointStore.load at h
  rw [MemoryCheckpointStore.token, MemoryCheckpointStore.token, h]

theorem Current.tokenKept (hcurrent : Current id s call) : TokenKept id s call := by
  intro s' h
  rcases step_store h id with hsame | ⟨worker, c, tag, hpersists, hstored⟩
  · exact (token_congr hsame).ge
  · rw [token_of_load hstored]
    exact hcurrent worker c hpersists

theorem Current.fenced (hcurrent : Current id s call) : Fenced id s call := by
  rintro worker c s' rfl hcopy _ holder h
  rcases step_store h id with hsame | ⟨_, c', tag, hpersists, -⟩
  · exact hsame
  have hle := hcurrent _ _ hpersists
  obtain ⟨hcall, hcopy', -⟩ := hpersists
  cases hcall
  cases hcopy.symm.trans hcopy'
  exact absurd hle (Nat.not_le.2 holder)

/-- A stored copy takes its own token with it, so a step that keeps the token was `Current`. -/
theorem current_of_tokenKept (h : TokenKept id s call) : Current id s call := by
  rintro worker c ⟨rfl, hcopy, hid, hvalid⟩
  obtain ⟨e, hrefused, -⟩ | ⟨tag, -, hpersist⟩ := persistCheckpoint_cases s.store c
  · rw [hvalid] at hrefused
    cases hrefused
  have hle := h (s.persist worker c) (by simp [step, hcopy])
  rwa [persist, hpersist, token_save hid] at hle

/-- What is stored is the worker's copy or came from a rival. -/
def Tracked (id : String) (s : Workers ι) : Prop :=
  ∀ worker c, s.copies worker = some c → c.executionId = id → s.rivals worker ≤ s.store.token id ∧
    (s.store.token id ≤ s.rivals worker ∨ s.store.token id ≤ c.lease.fencingToken)

theorem Tracked.loaded (h : Tracked id s) {executionId : String} {copy : Option DurableCheckpoint}
    (hcopy : ∀ c ∈ copy, s.store.load executionId = some c) (worker : ι) :
    Tracked id (s.loaded worker copy) := by
  intro other c hother hid
  obtain ⟨rfl, hc⟩ | ⟨hne, hc⟩ := update_eq_some hother
  · have hstored := hcopy c hc
    obtain rfl : executionId = id := (s.store.keyed hstored).symm.trans hid
    simp [Workers.loaded, token_of_load hstored]
  · simpa [Workers.loaded, update_of_ne hne] using h other c hc hid

theorem Tracked.keep (h : Tracked id s) {worker : ι} {c c' : DurableCheckpoint}
    (hcopy : s.copies worker = some c) (hid : c'.executionId = c.executionId)
    (hle : c.lease.fencingToken ≤ c'.lease.fencingToken) : Tracked id (s.keep worker c') := by
  intro other d hother hd
  obtain ⟨rfl, hc⟩ | ⟨-, hc⟩ := update_eq_some hother
  · cases hc
    obtain ⟨hrivals, hstored⟩ := h other c hcopy (hid.symm.trans hd)
    exact ⟨hrivals, hstored.imp_right hle.trans'⟩
  · exact h other d hc hd

theorem Tracked.persist (h : Tracked id s) {worker : ι} {c : DurableCheckpoint}
    (hcopy : s.copies worker = some c) (hcurrent : Current id s (.persist worker)) :
    Tracked id (s.persist worker c) := by
  obtain ⟨e, -, hpersist⟩ | ⟨tag, hvalid, hpersist⟩ := persistCheckpoint_cases s.store c
  · rwa [Workers.persist, hpersist]
  rw [Workers.persist, hpersist]
  intro other d (hother : s.copies other = some d) hd
  obtain ⟨hrivals, hstored⟩ := h other d hother hd
  by_cases hid : c.executionId = id
  · -- the token that was stored is not greater than that of the copy
    have hle := hcurrent worker c ⟨rfl, hcopy, hid, hvalid⟩
    simp only [token_save hid]
    by_cases hown : other = worker
    · cases hown
      cases hcopy.symm.trans hother
      simpa using hrivals.trans hle
    · simp [hown, hother, hd, hid, hrivals.trans hle]
  · have hsame : d.executionId ≠ c.executionId := fun h => hid (h.symm.trans hd)
    have htoken : (s.store.save { c with authenticationTag := tag }).token id = s.store.token id :=
      token_congr (update_of_ne (Ne.symm hid) ..)
    simp only [hother, Option.any_some, hsame, htoken]
    simpa using ⟨hrivals, hstored⟩

theorem Tracked.step (h : Tracked id s) (hcurrent : Current id s call)
    (hs : step s call = some s') : Tracked id s' := by
  cases call with
  | load worker executionId =>
    cases hs
    exact h.loaded (fun c hc => hc) worker
  | recover worker executionId expected now =>
    rw [Workers.step] at hs
    split at hs
    · next c hrecovered =>
      cases hs
      exact h.loaded (fun d hd => hd ▸ recoverCheckpoint_load hrecovered) worker
    · cases hs
      exact h
  | acquireLease worker ownerId fencingToken expiresAt =>
    obtain ⟨c, hcopy, rfl⟩ := Option.map_eq_some_iff.1 hs
    obtain ⟨hid, hle⟩ := acquireLease_token c ownerId fencingToken expiresAt
    exact h.keep hcopy hid hle
  | progress =>
    obtain ⟨c, hcopy, rfl⟩ := Option.map_eq_some_iff.1 hs
    exact h.keep hcopy rfl le_rfl
  | persist worker =>
    obtain ⟨c, hcopy, rfl⟩ := Option.map_eq_some_iff.1 hs
    exact h.persist hcopy hcurrent

omit [DecidableEq ι] in
theorem Tracked.current_iff (h : Tracked id s) : Current id s call ↔ NotOvertaken id s call := by
  constructor
  · intro hcurrent worker c hpersists
    exact (h worker c hpersists.2.1 hpersists.2.2.1).1.trans (hcurrent worker c hpersists)
  · intro hover worker c hpersists
    have hstored := (h worker c hpersists.2.1 hpersists.2.2.1).2
    exact hstored.elim (·.trans (hover worker c hpersists)) (·)

/-- The stored token never drops, and no holder of a smaller token replaces what is stored, exactly
in the runs in which nobody persists a copy after others have persisted a newer token since it was
loaded. -/
theorem token_kept_iff (id : String) (store : MemoryCheckpointStore) (calls : List (WorkerCall ι)) :
    Along step (fun s call => TokenKept id s call ∧ Fenced id s call) (start store) calls ↔
      Along step (NotOvertaken id) (start store) calls := by
  rw [← along_congr (Tracked id) (fun _ _ _ h hcurrent hs => h.step hcurrent hs)
    (fun _ _ h => h.current_iff) nofun]
  exact ⟨fun h => h.mono fun _ _ hkept => current_of_tokenKept hkept.1,
    fun h => h.mono fun _ _ hcurrent => ⟨hcurrent.tokenKept, hcurrent.fenced⟩⟩

/-- Both workers load token 1; the second takes the lease with token 2 and persists; the first
persists its old copy. -/
def staleCalls : List (WorkerCall Bool) :=
  [.load false "exec-1", .load true "exec-1", .acquireLease true "worker-b" 2 21, .persist true,
    .persist false]

def firstCheckpoint : DurableCheckpoint where
  governingSpec := governingSpec
  executionId := "exec-1"
  snapshots := ⟨"proposal", "manifest", "registry", "policy", "auth"⟩
  lease := ⟨"worker-a", 1, 20⟩
  completedNodeIds := ["charge"]
  authenticationTag := ""

/-- The store after the first worker persisted its first checkpoint. -/
def firstStore : Workers Bool := start (persistCheckpoint ⟨fun _ => none, nofun⟩ firstCheckpoint).2

theorem stale_worker_replaces : ∃ t u,
    run step firstStore (staleCalls.take 4) = some t ∧ t.store.token "exec-1" = 2 ∧
    run step firstStore staleCalls = some u ∧ u.store.token "exec-1" = 1 :=
  ⟨_, _, rfl, by decide +kernel, rfl, by decide +kernel⟩

end Workers
end Traverse.Execution

import Mathlib.Data.List.Induction
import Traverse.Storage.Binding

/-!
# Storage.RemoteClients

Any number of `RemoteKeyValueDataStore`s over one backend. A write or a removal is two calls of the
backend, `get` and then the conditional change, and the calls of the other clients may come between
them.

`Conditional` is what is assumed of the backend: a change happens only if the expected version is
the current one, and what is put gets a version the key never had before. Absence has no version: a
key that was created and removed again looks like one that never was there.
-/

namespace Traverse.Storage

open Lines Function Machine
open RemoteKeyValueDataStore (currentVersion envelopeBytes handleWriteOutcome)

variable {ν β ι : Type} (S : Serde ν) (C : Crypto) (B : RemoteDataStoreBackend β)

inductive RemoteRequest (ν : Type) where
  | write (record : StateRecord ν)
  | delete (key : String)

namespace RemoteKeyValueDataStore

variable {outcome : RemoteWriteOutcome}

theorem handleWriteOutcome_ok (h : handleWriteOutcome outcome = .ok ()) :
    ∃ retryCount, outcome = .acknowledged retryCount := by
  cases outcome with
  | acknowledged retryCount => exact ⟨retryCount, rfl⟩
  | conflict | unknown | failed => cases h

theorem handleWriteOutcome_conflict {e : DataStoreError} (h : handleWriteOutcome outcome = .error e)
    (hcode : e.code = .remoteConflict) : outcome = .conflict := by
  cases outcome with
  | acknowledged retryCount => cases h
  | conflict => rfl
  | unknown retryCount =>
    cases h
    cases hcode
  | failed failure =>
    cases h
    cases failure <;> cases hcode

end RemoteKeyValueDataStore

namespace RemoteRequest

def key : RemoteRequest ν → String
  | .write record => record.key
  | .delete key => key

/-- Up to the `get`. -/
def observe (b : β) (request : RemoteRequest ν) : Except DataStoreError (Option String) :=
  match validateKey request.key with
  | .error e => .error e
  | .ok () => currentVersion B b request.key

variable (classification : LocalDataClassification)

/-- From the `get` on. -/
def submit (b : β) (expectedVersion : Option String) :
    RemoteRequest ν → RemoteWriteOutcome × β
  | .write record => B.putConditional b record.key
      (envelopeBytes S C classification record) expectedVersion
  | .delete key => B.deleteConditional b key expectedVersion

/-- Both halves with nothing in between. -/
def perform (b : β) (request : RemoteRequest ν) :
    Except DataStoreError Unit × β :=
  match request.observe B b with
  | .error e => (.error e, b)
  | .ok expectedVersion =>
    let (outcome, b) := request.submit S C B classification b expectedVersion
    (handleWriteOutcome outcome, b)

theorem write_eq_perform (b : β) (record : StateRecord ν) :
    RemoteKeyValueDataStore.write S C B classification b record =
      (RemoteRequest.write record).perform S C B classification b := by
  simp only [RemoteKeyValueDataStore.write, perform, observe, key]
  cases validateKey record.key with
  | error | ok => rfl

theorem delete_eq_perform (b : β) (key : String) :
    RemoteKeyValueDataStore.delete B b key =
      (RemoteRequest.delete key).perform S C B classification b := by
  simp only [RemoteKeyValueDataStore.delete, perform, observe, RemoteRequest.key]
  cases validateKey key with
  | error | ok => rfl

end RemoteRequest

/-! ## The backend -/

/-- What really is stored under each key, and the versions each key has had. -/
structure RemoteContents (β : Type) where
  current : β → String → Option RemoteObject
  issued : β → String → Set String

namespace RemoteContents

def version (K : RemoteContents β) (b : β) (key : String) : Option String :=
  (K.current b key).map (·.version)

/-- On top of the expected version, and with a new version if something was put. -/
structure Applied (K : RemoteContents β) (b b' : β) (key : String) (expected : Option String)
    (after : Option RemoteObject) : Prop where
  expected : K.version b key = expected
  current : K.current b' = update (K.current b) key after
  fresh : ∀ object ∈ after, object.version ∉ K.issued b key

/-- The call had no effect and did not say it had. -/
def Unchanged (K : RemoteContents β) (b : β) (result : RemoteWriteOutcome × β) : Prop :=
  K.current result.2 = K.current b ∧ ∀ retryCount, result.1 ≠ .acknowledged retryCount

/-- The call had its effect and did not say it was a conflict. -/
def Changed (K : RemoteContents β) (b : β) (result : RemoteWriteOutcome × β) (key : String)
    (expected : Option String) (after : Option RemoteObject) : Prop :=
  K.Applied b result.2 key expected after ∧ result.1 ≠ .conflict

theorem Applied.version_ne {K : RemoteContents β} {b b' : β} {key version : String}
    {expected : Option String} {after : Option RemoteObject} (h : K.Applied b b' key expected after)
    (hissued : version ∈ K.issued b key) : K.version b' key ≠ some version := by
  intro hversion
  rw [RemoteContents.version, h.current, update_self, Option.map_eq_some_iff] at hversion
  obtain ⟨new, hnew, rfl⟩ := hversion
  exact h.fresh new hnew hissued

end RemoteContents

/-- A conditional change that is acknowledged happened, one that is a conflict did not, and of the
others nothing is known. -/
structure Conditional (B : RemoteDataStoreBackend β) extends RemoteContents β where
  get_ok : ∀ {b key object}, B.get b key = .ok object → object = current b key
  current_issued : ∀ {b key}, ∀ object ∈ current b key, object.version ∈ issued b key
  put_cases : ∀ b key bytes expected,
    toRemoteContents.Unchanged b (B.putConditional b key bytes expected) ∨
      ∃ version, toRemoteContents.Changed b (B.putConditional b key bytes expected) key expected
        (some ⟨bytes, version⟩)
  delete_cases : ∀ b key expected,
    toRemoteContents.Unchanged b (B.deleteConditional b key expected) ∨
      toRemoteContents.Changed b (B.deleteConditional b key expected) key expected none
  put_issued : ∀ b key bytes expected other,
    issued b other ⊆ issued (B.putConditional b key bytes expected).2 other
  delete_issued : ∀ b key expected other,
    issued b other ⊆ issued (B.deleteConditional b key expected).2 other

/-! ## The clients -/

structure RemoteClients (ν β ι : Type) where
  backend : β
  /-- The call a client is in, and the version it observed. -/
  pending : ι → Option (RemoteRequest ν × Option String)
  /-- What the client's last call returned. -/
  answer : ι → Option (Except DataStoreError Unit)

inductive RemoteClientCall (ν ι : Type) where
  | start (client : ι) (request : RemoteRequest ν)
  | finish (client : ι)
  | read (client : ι) (key : String)

def RemoteClientCall.client : RemoteClientCall ν ι → ι
  | .start client _ => client
  | .finish client => client
  | .read client _ => client

namespace RemoteClients

variable [DecidableEq ι] (classification : ι → LocalDataClassification)

def init (b : β) : RemoteClients ν β ι := ⟨b, fun _ => none, fun _ => none⟩

def step (s : RemoteClients ν β ι) : RemoteClientCall ν ι → Option (RemoteClients ν β ι)
  | .start client request =>
    -- A client's calls come one after the other.
    match s.pending client with
    | some _ => none
    | none =>
      match request.observe B s.backend with
      | .error e => some { s with answer := update s.answer client (some (.error e)) }
      | .ok expected =>
        some { s with pending := update s.pending client (some (request, expected)) }
  | .finish client =>
    match s.pending client with
    | none => none
    | some (request, expected) =>
      let (outcome, b) := request.submit S C B (classification client) s.backend expected
      some { backend := b
             pending := update s.pending client none
             answer := update s.answer client (some (handleWriteOutcome outcome)) }
  | .read client _ =>
    match s.pending client with
    | some _ => none
    | none => some s

variable {S C B classification}

variable {s s' : RemoteClients ν β ι} {client : ι}

theorem step_start {request : RemoteRequest ν}
    (h : step S C B classification s (.start client request) = some s') :
    s.pending client = none ∧ s'.backend = s.backend ∧
    (s'.pending = s.pending ∨ ∃ expected, request.observe B s.backend = .ok expected ∧
      s'.pending = update s.pending client (some (request, expected))) := by
  simp only [step] at h
  cases hpending : s.pending client with
  | some p => simp [hpending] at h
  | none =>
    cases hobserve : request.observe B s.backend with
    | error e =>
      rw [hpending, hobserve] at h
      cases h
      exact ⟨rfl, rfl, .inl rfl⟩
    | ok expected =>
      rw [hpending, hobserve] at h
      cases h
      exact ⟨rfl, rfl, .inr ⟨expected, rfl, rfl⟩⟩

theorem step_finish (h : step S C B classification s (.finish client) = some s') :
    ∃ request expected, s.pending client = some (request, expected) ∧
      s'.backend = (request.submit S C B (classification client) s.backend expected).2 ∧
      s'.pending = update s.pending client none ∧
      s'.answer client = some (handleWriteOutcome
        (request.submit S C B (classification client) s.backend expected).1) := by
  simp only [step] at h
  cases hpending : s.pending client with
  | none => simp [hpending] at h
  | some p =>
    rw [hpending] at h
    cases h
    exact ⟨p.1, p.2, rfl, rfl, rfl, update_self ..⟩

theorem step_read {key : String} (h : step S C B classification s (.read client key) = some s') :
    s.pending client = none ∧ s' = s := by
  simp only [step] at h
  cases hpending : s.pending client with
  | some p => simp [hpending] at h
  | none =>
    rw [hpending] at h
    cases h
    exact ⟨rfl, rfl⟩

/-- A call of another client leaves what this one is doing, and its own calls change it. -/
theorem step_pending {call : RemoteClientCall ν ι} (h : step S C B classification s call = some s')
    {p : RemoteRequest ν × Option String} (hp : s'.pending client = some p) :
    (call.client ≠ client ∧ s.pending client = some p) ∨
    call = .start client p.1 ∧ p.1.observe B s.backend = .ok p.2 := by
  cases call with
  | start caller request =>
    obtain ⟨hidle, -, hsame | ⟨expected, hobserve, hset⟩⟩ := step_start h
    · rw [hsame] at hp
      refine .inl ⟨?_, hp⟩
      rintro rfl
      rw [show s.pending caller = some p from hp] at hidle
      cases hidle
    · rw [hset] at hp
      obtain ⟨rfl, ⟨⟩⟩ | ⟨hclient, hp⟩ := update_eq_some hp
      · exact .inr ⟨rfl, hobserve⟩
      · exact .inl ⟨Ne.symm hclient, hp⟩
  | finish caller =>
    obtain ⟨request, expected, -, -, hset, -⟩ := step_finish h
    rw [hset] at hp
    obtain ⟨_, ⟨⟩⟩ | ⟨hclient, hp⟩ := update_eq_some hp
    exact .inl ⟨Ne.symm hclient, hp⟩
  | read caller key =>
    obtain ⟨hidle, rfl⟩ := step_read h
    refine .inl ⟨?_, hp⟩
    rintro rfl
    rw [show s'.pending caller = some p from hp] at hidle
    cases hidle

/-- A call that is under way was started, and the client has done nothing since. -/
theorem exists_start {b : β} {calls : List (RemoteClientCall ν ι)} :
    ∀ {u : RemoteClients ν β ι} {p : RemoteRequest ν × Option String},
    run (step S C B classification) (init b) calls = some u →
    u.pending client = some p →
    ∃ before between s, calls = before ++ .start client p.1 :: between ∧
      run (step S C B classification) (init b) before = some s ∧
      p.1.observe B s.backend = .ok p.2 ∧ ∀ call ∈ between, call.client ≠ client := by
  induction calls using List.reverseRecOn with
  | nil =>
    intro u p hrun hp
    cases hrun
    cases hp
  | append_singleton calls call ih =>
    intro u p hrun hp
    rw [run_append, Option.bind_eq_some_iff] at hrun
    obtain ⟨t, ht, hlast⟩ := hrun
    have hstep : step S C B classification t call = some u := by
      simp only [run] at hlast
      split at hlast
      · next t' ht' => rw [ht', ← hlast]
      · cases hlast
    rcases step_pending hstep hp with ⟨hother, hpt⟩ | ⟨rfl, hobserve⟩
    · obtain ⟨before, between, s, rfl, hs, hobserve, hbetween⟩ := ih ht hpt
      refine ⟨before, between ++ [call], s, by simp, hs, hobserve, fun call' hcall' => ?_⟩
      rcases List.mem_append.1 hcall' with hcall' | hcall'
      · exact hbetween call' hcall'
      · rw [List.mem_singleton] at hcall'
        rwa [hcall']
    · exact ⟨calls, [], t, rfl, ht, hobserve, by simp⟩

end RemoteClients

/-! ## What is stored -/

namespace Conditional

variable {S C B} (K : Conditional B)

theorem version_of_observe {b : β} {request : RemoteRequest ν} {expected : Option String}
    (h : request.observe B b = .ok expected) : K.version b request.key = expected := by
  simp only [RemoteRequest.observe, currentVersion] at h
  split at h
  · cases h
  split at h
  · next object hget =>
    cases h
    rw [K.get_ok hget]
    rfl
  · cases h

variable (S C) in
/-- What a request leaves under its key. -/
def Leaves (classification : LocalDataClassification) (request : RemoteRequest ν)
    (after : Option RemoteObject) : Prop :=
  match request with
  | .write record => ∃ version, after = some ⟨envelopeBytes S C classification record, version⟩
  | .delete _ => after = none

theorem submit_cases (classification : LocalDataClassification) (b : β) (expected : Option String)
    (request : RemoteRequest ν) :
    K.Unchanged b (request.submit S C B classification b expected) ∨
      ∃ after, Leaves S C classification request after ∧
        K.Changed b (request.submit S C B classification b expected) request.key expected
          after := by
  cases request with
  | write record =>
    rcases K.put_cases b record.key (envelopeBytes S C classification record) expected with
      hsame | ⟨version, hchanged⟩
    · exact .inl hsame
    · exact .inr ⟨_, ⟨version, rfl⟩, hchanged⟩
  | delete key =>
    rcases K.delete_cases b key expected with hsame | hchanged
    · exact .inl hsame
    · exact .inr ⟨none, rfl, hchanged⟩

variable [DecidableEq ι] {classification : ι → LocalDataClassification}

variable {s s' : RemoteClients ν β ι} {call : RemoteClientCall ν ι} {key : String}
  {object : RemoteObject}

/-- No version is forgotten, and a step changes nothing or applies one change. -/
theorem step_contents (h : RemoteClients.step S C B classification s call = some s') :
    (∀ key, K.issued s.backend key ⊆ K.issued s'.backend key) ∧
    (K.current s'.backend = K.current s.backend ∨
      ∃ key expected after, K.Applied s.backend s'.backend key expected after) := by
  cases call with
  | start caller request =>
    obtain ⟨-, hbackend, -⟩ := RemoteClients.step_start h
    rw [hbackend]
    exact ⟨fun key => subset_rfl, .inl rfl⟩
  | read caller key =>
    obtain ⟨-, rfl⟩ := RemoteClients.step_read h
    exact ⟨fun key => subset_rfl, .inl rfl⟩
  | finish caller =>
    obtain ⟨request, expected, -, hbackend, -⟩ := RemoteClients.step_finish h
    rw [hbackend]
    refine ⟨fun key => ?_, ?_⟩
    · cases request with
      | write record => exact K.put_issued ..
      | delete key' => exact K.delete_issued ..
    rcases K.submit_cases (classification caller) s.backend expected request with
      hsame | ⟨after, -, hchanged⟩
    · exact .inl hsame.1
    · exact .inr ⟨request.key, expected, after, hchanged.1⟩

/-- The key had this version and has it no more. -/
def Gone (key version : String) (s : RemoteClients ν β ι) : Prop :=
  version ∈ K.issued s.backend key ∧ K.version s.backend key ≠ some version

theorem Gone.step {version : String} (h : K.Gone key version s)
    (hstep : RemoteClients.step S C B classification s call = some s') : K.Gone key version s' := by
  obtain ⟨hissued, hsame | ⟨changed, expected, after, happlied⟩⟩ := K.step_contents hstep
  · refine ⟨hissued key h.1, ?_⟩
    rw [RemoteContents.version, hsame]
    exact h.2
  refine ⟨hissued key h.1, ?_⟩
  by_cases hkey : key = changed
  · subst hkey
    exact happlied.version_ne h.1
  · rw [RemoteContents.version, happlied.current, update_of_ne hkey]
    exact h.2

theorem current_of_version {t u : RemoteClients ν β ι} {earlier later : List (RemoteClientCall ν ι)}
    (h : K.current s.backend key = some object)
    (ht : run (RemoteClients.step S C B classification) s earlier = some t)
    (hu : run (RemoteClients.step S C B classification) t later = some u)
    (hversion : K.version u.backend key = some object.version) :
    K.current t.backend key = some object := by
  have hsince : K.current t.backend key = some object ∨ K.Gone key object.version t := by
    refine invariant (P := fun _ _ => True)
      (fun t => K.current t.backend key = some object ∨ K.Gone key object.version t)
      (fun x call y hx _ hstep => ?_) (.inl h) (.of_forall (fun _ _ => trivial) _ _) ht
    rcases hx with hx | hx
    · have hhad : object.version ∈ K.issued x.backend key := K.current_issued object hx
      obtain ⟨hissued, hsame | ⟨changed, expected, after, happlied⟩⟩ := K.step_contents hstep
      · exact .inl (by rw [hsame, hx])
      by_cases hkey : key = changed
      · subst hkey
        exact .inr ⟨hissued key hhad, happlied.version_ne hhad⟩
      · exact .inl (by rw [happlied.current, update_of_ne hkey, hx])
    · exact .inr (hx.step K hstep)
  rcases hsince with hcurrent | hgone
  · exact hcurrent
  have hstays : K.Gone key object.version u :=
    invariant (P := fun _ _ => True) (K.Gone key object.version)
      (fun _ _ _ hx _ hstep => hx.step K hstep) hgone (.of_forall (fun _ _ => trivial) _ _) hu
  exact absurd hversion hstays.2

end Conditional

/-! ## A backend -/

def versionToken (version : Nat) : String := "v" ++ version.repr

theorem versionToken_injective {m n : Nat} (h : versionToken m = versionToken n) : m = n := by
  have := congrArg String.toList h
  simp only [versionToken, String.toList_append, List.append_cancel_left_eq] at this
  exact Decimal.repr_injective (String.toList_injective this)

/-- The backend of the source's tests, without its scripted failures. -/
structure FakeS3Backend where
  objects : String → Option RemoteObject
  nextVersion : Nat
  numbered : ∀ {key}, ∀ object ∈ objects key, ∃ n ≤ nextVersion, object.version = versionToken n

namespace FakeS3Backend

def empty : FakeS3Backend := ⟨fun _ => none, 0, by simp⟩

variable (b : FakeS3Backend)

def currentToken (key : String) : Option String :=
  (b.objects key).map (·.version)

def insert (key : String) (bytes : Bytes) : FakeS3Backend where
  objects := update b.objects key (some ⟨bytes, versionToken (b.nextVersion + 1)⟩)
  nextVersion := b.nextVersion + 1
  numbered := by
    intro key' object hobject
    obtain ⟨_, ⟨⟩⟩ | ⟨_, hobject⟩ := update_eq_some hobject
    · exact ⟨b.nextVersion + 1, le_rfl, rfl⟩
    · obtain ⟨n, hn, hversion⟩ := b.numbered object hobject
      exact ⟨n, by omega, hversion⟩

def remove (key : String) : FakeS3Backend where
  objects := update b.objects key none
  nextVersion := b.nextVersion
  numbered := by
    intro key' object hobject
    obtain ⟨_, ⟨⟩⟩ | ⟨_, hobject⟩ := update_eq_some hobject
    exact b.numbered object hobject

def backend : RemoteDataStoreBackend FakeS3Backend where
  get := fun b key => .ok (b.objects key)
  putConditional := fun b key bytes expectedVersion =>
    if expectedVersion ≠ b.currentToken key then (.conflict, b)
    else (.acknowledged 0, b.insert key bytes)
  deleteConditional := fun b key expectedVersion =>
    if expectedVersion ≠ b.currentToken key then (.conflict, b)
    else (.acknowledged 0, b.remove key)

def conditional : Conditional backend where
  current := objects
  issued := fun b _ => {token | ∃ n ≤ b.nextVersion, token = versionToken n}
  get_ok := fun h => (Except.ok.inj h).symm
  current_issued := fun {b _} => b.numbered
  put_cases := by
    intro b key bytes expected
    simp only [backend]
    split
    · exact .inl ⟨rfl, by simp⟩
    rename_i hexpected
    refine .inr ⟨versionToken (b.nextVersion + 1), ⟨(not_not.1 hexpected).symm, rfl, ?_⟩, by simp⟩
    rintro object hobject ⟨n, hn, hversion⟩
    rw [← Option.mem_some.1 hobject] at hversion
    have := versionToken_injective hversion
    omega
  delete_cases := by
    intro b key expected
    simp only [backend]
    split
    · exact .inl ⟨rfl, by simp⟩
    · next hexpected => exact .inr ⟨⟨(not_not.1 hexpected).symm, rfl, by simp⟩, by simp⟩
  put_issued := by
    rintro b key bytes expected other token ⟨n, hn, rfl⟩
    simp only [backend]
    split
    · exact ⟨n, hn, rfl⟩
    · exact ⟨n, Nat.le_succ_of_le hn, rfl⟩
  delete_issued := by
    rintro b key expected other token ⟨n, hn, rfl⟩
    simp only [backend]
    split <;> exact ⟨n, hn, rfl⟩

end FakeS3Backend

/-! ## Calls between the others' -/

/-- Whatever the other clients do: the call that ends here was started with a `get`. If it returns
`Ok`, it was applied once, now, on top of the version that the `get` observed; if the `get` found an
object, that object was there all the time. A conflict changed nothing. -/
theorem remote_calls_conditional [DecidableEq ι] {classification : ι → LocalDataClassification}
    (K : Conditional B) {b : β} {calls : List (RemoteClientCall ν ι)} {u v : RemoteClients ν β ι}
    {client : ι} (hrun : run (RemoteClients.step S C B classification) (.init b) calls = some u)
    (hfinish : RemoteClients.step S C B classification u (.finish client) = some v) :
    ∃ before request between s, calls = before ++ .start client request :: between ∧
      (∀ call ∈ between, call.client ≠ client) ∧
      run (RemoteClients.step S C B classification) (.init b) before = some s ∧
      (v.answer client = some (.ok ()) →
        K.version u.backend request.key = K.version s.backend request.key ∧
        (∃ after, Conditional.Leaves S C (classification client) request after ∧
          K.current v.backend = update (K.current u.backend) request.key after) ∧
        ∀ object, K.current s.backend request.key = some object →
          ∀ earlier later t, .start client request :: between = earlier ++ later →
            run (RemoteClients.step S C B classification) s earlier = some t →
            K.current t.backend request.key = some object) ∧
      ∀ e, v.answer client = some (.error e) → e.code = .remoteConflict →
        K.current v.backend = K.current u.backend := by
  obtain ⟨request, expected, hpending, hbackend, -, hanswer⟩ := RemoteClients.step_finish hfinish
  obtain ⟨before, between, s, rfl, hs, hobserve, hbetween⟩ :=
    RemoteClients.exists_start hrun hpending
  have hobserved : K.version s.backend request.key = expected := K.version_of_observe hobserve
  rw [run_append, hs, Option.bind_some] at hrun
  refine ⟨before, request, between, s, rfl, hbetween, hs, fun hok => ?_, fun e herror hcode => ?_⟩
  · rw [hanswer, Option.some.injEq] at hok
    obtain ⟨retryCount, hacknowledged⟩ :=
      RemoteKeyValueDataStore.handleWriteOutcome_ok hok
    rcases K.submit_cases (classification client) u.backend expected request with
      hsame | ⟨after, hafter, hchanged⟩
    · exact absurd hacknowledged (hsame.2 retryCount)
    have hversion : K.version u.backend request.key = K.version s.backend request.key :=
      hchanged.1.expected.trans hobserved.symm
    refine ⟨hversion, ⟨after, hafter, by rw [hbackend]; exact hchanged.1.current⟩, ?_⟩
    intro object hobject earlier later t hsplit ht
    rw [hsplit, run_append, ht, Option.bind_some] at hrun
    refine K.current_of_version hobject ht hrun ?_
    rw [hversion, RemoteContents.version, hobject]
    rfl
  · rw [hanswer, Option.some.injEq] at herror
    have hconflict := RemoteKeyValueDataStore.handleWriteOutcome_conflict herror hcode
    rcases K.submit_cases (classification client) u.backend expected request with
      hsame | ⟨after, -, hchanged⟩
    · rw [hbackend]
      exact hsame.1
    · exact absurd hconflict hchanged.2

def publicClients : RemoteClients Json.Value FakeS3Backend Bool →
    RemoteClientCall Json.Value Bool → Option (RemoteClients Json.Value FakeS3Backend Bool) :=
  RemoteClients.step jsonSerde transparent FakeS3Backend.backend fun _ => .publicData

/-- One client is about to overwrite what another removes first. -/
theorem remote_calls_conditional_remove : ∃ u v : RemoteClients Json.Value FakeS3Backend Bool,
    run publicClients (.init .empty)
      [.start false (.write (draft "a")), .finish false, .start false (.write (draft "a")),
        .start true (.delete "a")] = some u ∧
    publicClients u (.finish true) = some v ∧ v.answer true = some (.ok ()) ∧
      ∃ before request between s,
      [.start false (.write (draft "a")), .finish false, .start false (.write (draft "a")),
        .start true (.delete "a")] = before ++ .start true request :: between ∧
      run publicClients (.init .empty) before = some s ∧
      FakeS3Backend.conditional.version u.backend request.key =
        FakeS3Backend.conditional.version s.backend request.key := by
  simp only [exists_and_left]
  refine exists_run (P := fun _ _ => True) (D := fun u =>
    ∃ v, publicClients u (.finish true) = some v ∧ v.answer true = some (.ok ()))
    ⟨_, rfl, _, rfl, rfl⟩ fun u hrun ⟨v, hfinish, hanswer⟩ => ⟨v, hfinish, hanswer, ?_⟩
  obtain ⟨before, request, between, s, hsplit, -, hs, hok, -⟩ :=
    remote_calls_conditional jsonSerde transparent FakeS3Backend.backend FakeS3Backend.conditional
      hrun.2 hfinish
  exact ⟨before, request, between, hsplit, s, hs, (hok hanswer).1⟩

/-- The first client finds no record. The second creates it and removes it again, both acknowledged.
Then the first client's write is acknowledged too. -/
def createdAndRemoved : List (RemoteClientCall Json.Value Bool) :=
  [.start false (.write (draft "a")), .start true (.write (draft "a")), .finish true,
    .start true (.delete "a"), .finish true, .finish false]

theorem absence_is_not_a_version : ∃ s t u : RemoteClients Json.Value FakeS3Backend Bool,
    run publicClients (.init .empty) (createdAndRemoved.take 3) = some s ∧
    s.answer true = some (.ok ()) ∧ (s.backend.objects "a").isSome ∧
    run publicClients (.init .empty) (createdAndRemoved.take 5) = some t ∧
    t.answer true = some (.ok ()) ∧ (t.backend.objects "a").isNone ∧
    run publicClients (.init .empty) createdAndRemoved = some u ∧
    u.answer false = some (.ok ()) ∧ (u.backend.objects "a").isSome :=
  ⟨_, _, _, rfl, rfl, rfl, rfl, rfl, rfl, rfl, rfl, rfl⟩

end Traverse.Storage

import Traverse.Sys.Machine
import Traverse.Text.Decimal

/-!
# Server.Replay

`handle_execute_workspace`: a stored answer is looked up before the credentials are read.

An answer is stored under a text made of the operation, the workspace, the `Authorization` header
(or `local`), the path and the key. Whoever finds it has the header and the workspace of a request
that was authorised (`Held`), and what gave that request access to the workspace lasts. So
executions are answered to authorised requests only exactly when every request that finds one is
from a local peer or has a token that is still good for it (`workspace_execute_authorised_iff`).
Neither is checked: a peer without credentials gets the answer of a local one, and a token that has
expired still gets the answer of its own (`replayed_without_credentials`).

The claims in a token are a function of its text, and whether it is accepted also depends on the
clock; both are arbitrary, and so are the answer of an execution and the reading of a body. The
audit log is left out, and so are failing file-system calls.
-/

namespace Traverse.Server

open Function Machine

structure ApiError where
  status : Nat
  (reason code message : String)
  deriving DecidableEq, Repr

structure DerivedIdentity where
  subjectId : String
  isAdmin : Bool
  scopes : List String
  deriving DecidableEq, Repr

structure WorkspaceMetadataV1 where
  ownerSubject : String
  shared : Bool
  members : List String
  deriving DecidableEq, Repr

/-- What stands in an answer: an execution with its id, output or error, or a problem. -/
inductive Content where
  | execution (json : String)
  | problem (code message : String)
  deriving DecidableEq, Repr

structure Response where
  status : Nat
  (reason contentType : String)
  body : Content
  deriving DecidableEq, Repr

def Response.carriesExecution (r : Response) : Bool :=
  match r.body with
  | .execution _ => true
  | .problem .. => false

structure IdempotencyRecord where
  bodyDigest : UInt64
  response : Response
  storedAt : Nat
  deriving DecidableEq, Repr

structure HttpRequest where
  path : String
  (authorization idempotencyKey : Option String)
  prefersAsync : Bool
  body : List UInt8
  workspaceId : String
  /-- The peer's address is a loopback address. -/
  loopback : Bool
  /-- The clock when the request comes in and when it is answered. -/
  (now done : Nat)
  /-- What the runtime answers if it is asked. -/
  answer : String

structure ApiState where
  records : String → Option IdempotencyRecord
  metadata : String → Option WorkspaceMetadataV1

def ApiState.empty : ApiState := ⟨fun _ => none, fun _ => none⟩

structure Config where
  allowUnauthenticated : Bool
  idempotencyRetentionSeconds : Nat
  /-- The checks of a token at a clock reading, and the claims it carries. -/
  verifyJwt : Nat → String → Except ApiError Unit
  jwtIdentity : String → DerivedIdentity
  parseRuntimeRequest : List UInt8 → Except String Unit

/-! ## Credentials -/

def isJwtShaped (token : String) : Bool :=
  match token.toList.splitOn '.' with
  | [header, payload, signature] => !header.isEmpty && !payload.isEmpty && !signature.isEmpty
  | _ => false

def unauthorized (message : String) : ApiError := ⟨401, "Unauthorized", "unauthorized", message⟩

def bearerToken (authorization : Option String) : Option String :=
  (authorization.bind fun v =>
    if "Bearer ".toList.isPrefixOf v.toList then some (Text.trim (String.ofList (v.toList.drop 7)))
    else none).filter fun v => !v.toList.isEmpty

variable (config : Config)

def deriveIdentityFromJwt (now : Nat) (token : String) : Except ApiError DerivedIdentity :=
  (config.verifyJwt now token).map fun _ => config.jwtIdentity token

def subjectFromRequest (r : HttpRequest) : Except ApiError DerivedIdentity :=
  match bearerToken r.authorization with
  | some token =>
    if isJwtShaped token then deriveIdentityFromJwt config r.now token
    else .error (unauthorized "a signed JWT bearer token is required")
  | none =>
    if r.loopback && config.allowUnauthenticated then .ok ⟨"local", false, []⟩
    else .error (unauthorized "Bearer token required")

def identityHasScope (identity : DerivedIdentity) (scope : String) : Bool :=
  identity.isAdmin || identity.scopes.contains scope || identity.scopes.contains "*"

def validateWorkspaceId (id : String) : Except String Unit :=
  if (Text.trim id).toList.isEmpty then .error "workspace_id must be non-empty"
  else if 128 < id.utf8ByteSize then .error "workspace_id must be at most 128 characters"
  else if id.toList.contains '\x00' then .error "workspace_id must not contain null bytes"
  else if id.toList.all fun ch => ch.isAlphanum || ch == '-' || ch == '_' || ch == '.' then .ok ()
  else .error "workspace_id may contain only ASCII letters, digits, '-', '_', and '.'"

variable (metadata : String → Option WorkspaceMetadataV1)

/-- The first identity that comes to a workspace owns it. -/
def ensureWorkspaceAccess (workspaceId : String)
    (identity : DerivedIdentity) : Except ApiError (String → Option WorkspaceMetadataV1) :=
  if workspaceId = "system" ∧ identity.isAdmin = false then
    .error ⟨403, "Forbidden", "insufficient_privileges",
      "system workspace requires privileged role claim"⟩
  else
    match validateWorkspaceId workspaceId with
    | .error message => .error ⟨400, "Bad Request", "workspace_id_invalid", message⟩
    | .ok () =>
      let found := (metadata workspaceId).getD ⟨identity.subjectId, false, []⟩
      if found.ownerSubject = identity.subjectId ∨
          (found.shared = true ∧ identity.subjectId ∈ found.members) then
        .ok (update metadata workspaceId (some found))
      else
        .error ⟨403, "Forbidden", "unauthorized_workspace",
          "subject is not authorized for workspace"⟩

def scopeRuntimeExecute : String := "runtime:execute"

/-- Scopes are optional for a loopback peer. -/
def ensureWorkspaceAuthorized (workspaceId : String) (identity : DerivedIdentity) (scope : String)
    (loopback : Bool) :
    Except ApiError (String → Option WorkspaceMetadataV1) :=
  if !loopback && !identityHasScope identity scope then
    .error ⟨403, "Forbidden", "unauthorized", s!"missing required scope `{scope}`"⟩
  else ensureWorkspaceAccess metadata workspaceId identity

variable (s : ApiState) (r : HttpRequest)

/-- The two checks of `handle_execute_workspace`. -/
def authorize :
    Except ApiError (String → Option WorkspaceMetadataV1) :=
  match subjectFromRequest config r with
  | .error e => .error e
  | .ok identity =>
    ensureWorkspaceAuthorized s.metadata r.workspaceId identity scopeRuntimeExecute r.loopback

/-! ## Stored answers -/

def idempotencyKey (r : HttpRequest) : Option String :=
  (r.idempotencyKey.map Text.trim).filter fun key => !key.toList.isEmpty

def idempotencySubject : String := r.authorization.getD "local"

def idempotencyCacheKey (key : String) : String :=
  s!"workspace_execute|{r.workspaceId}|{idempotencySubject r}|{r.path}|{key}"

/-- `fnv1a64`, before it is written in hexadecimal. -/
def idempotencyBodyDigest : UInt64 :=
  r.body.foldl (fun digest byte => (digest ^^^ byte.toUInt64) * 0x100000001b3) 0xcbf29ce484222325

def pruneIdempotencyRecords (now : Nat)
    (records : String → Option IdempotencyRecord) : String → Option IdempotencyRecord :=
  fun key => (records key).filter fun record =>
    now - record.storedAt ≤ max config.idempotencyRetentionSeconds 60

/-- The stored answer under the request's cache key. -/
def storedRecord : Option IdempotencyRecord :=
  (idempotencyKey r).bind fun key =>
    pruneIdempotencyRecords config r.now s.records (idempotencyCacheKey r key)

def idempotencyReplayOrConflict :
    Option Response :=
  (storedRecord config s r).map fun record =>
    if record.bodyDigest = idempotencyBodyDigest r then record.response
    else ⟨409, "Conflict", "application/problem+json", .problem "idempotency_key_conflict"
      "Idempotency-Key was reused with a different request body"⟩

/-- Looking up prunes, if there is a key. -/
def pruned (now : Nat) : ApiState :=
  if (idempotencyKey r).isSome then
    { s with records := pruneIdempotencyRecords config now s.records }
  else s

def recordIdempotentSuccess (response : Response) : ApiState :=
  match idempotencyKey r with
  | none => s
  | some key =>
    let record : IdempotencyRecord := ⟨idempotencyBodyDigest r, response, r.done⟩
    let kept := pruneIdempotencyRecords config r.done s.records
    { s with records := update kept (idempotencyCacheKey r key) (some record) }

def problem (e : ApiError) : Response :=
  ⟨e.status, e.reason, "application/problem+json", .problem e.code e.message⟩

def handleExecuteWorkspace :
    Response × ApiState :=
  let s' := pruned config s r r.now
  match idempotencyReplayOrConflict config s r with
  | some replay => (replay, s')
  | none =>
    match config.parseRuntimeRequest r.body with
    | .error message => (problem ⟨400, "Bad Request", "invalid_request", message⟩, s')
    | .ok () =>
      match authorize config s r with
      | .error e => (problem e, s')
      | .ok metadata =>
        let response : Response :=
          ⟨if r.prefersAsync then 202 else 200, if r.prefersAsync then "Accepted" else "OK",
            "application/json", .execution r.answer⟩
        (response, recordIdempotentSuccess config { s' with metadata := metadata } r response)

def step : Option ApiState :=
  some (handleExecuteWorkspace config s r).2

/-! ## Who gets an execution -/

/-- The request's credentials are accepted now, for its workspace and the execute scope. -/
def Authorised : Prop :=
  (authorize config s r).toOption.isSome = true

/-- An execution is answered only to an authorised request. -/
def AnswersAuthorised : Prop :=
  (handleExecuteWorkspace config s r).1.carriesExecution = true → Authorised config s r

/-- The request finds a stored execution that fits it. -/
def Replays : Prop :=
  ∃ record, storedRecord config s r = some record ∧
    record.bodyDigest = idempotencyBodyDigest r ∧ record.response.carriesExecution = true

theorem answersAuthorised_iff :
    AnswersAuthorised config s r ↔ (Replays config s r → Authorised config s r) := by
  rw [AnswersAuthorised, Replays, handleExecuteWorkspace, idempotencyReplayOrConflict]
  cases storedRecord config s r with
  | some record =>
    by_cases hdigest : record.bodyDigest = idempotencyBodyDigest r
    · simp [hdigest]
    · simp [hdigest, Response.carriesExecution]
  | none =>
    -- nothing is replayed, and every other way to an execution passes both checks
    cases config.parseRuntimeRequest r.body with
    | error message => simp [problem, Response.carriesExecution]
    | ok u =>
      rw [Authorised]
      cases authorize config s r with
      | error e => simp [problem, Response.carriesExecution]
      | ok metadata => simp [Except.toOption]

/-- Without a token the peer is local; a token is accepted now, for the scope unless the peer is
local. -/
def Entitled : Bool :=
  match bearerToken r.authorization with
  | none => r.loopback
  | some token => (config.verifyJwt r.now token).toBool &&
    (r.loopback || identityHasScope (config.jwtIdentity token) scopeRuntimeExecute)

/-- Who a request is from, if its credentials are accepted. -/
def callerIdentity : Option DerivedIdentity :=
  match bearerToken r.authorization with
  | none => if config.allowUnauthenticated then some ⟨"local", false, []⟩ else none
  | some token => if isJwtShaped token then some (config.jwtIdentity token) else none

/-- Letting the caller into its workspace. -/
def access : Option (String → Option WorkspaceMetadataV1) :=
  (callerIdentity config r).bind fun identity =>
    (ensureWorkspaceAccess metadata r.workspaceId identity).toOption

theorem authorize_eq : (authorize config s r).toOption =
    if Entitled config r then access config s.metadata r else none := by
  rw [authorize, Entitled, access, subjectFromRequest, callerIdentity]
  cases bearerToken r.authorization with
  | none =>
    cases r.loopback <;> cases config.allowUnauthenticated <;>
      simp [Except.toOption, ensureWorkspaceAuthorized]
  | some token =>
    dsimp only [deriveIdentityFromJwt]
    cases isJwtShaped token with
    | false => simp [Except.toOption]
    | true =>
      simp only [if_true]
      cases config.verifyJwt r.now token with
      | error e => simp [Except.toOption, Except.toBool, Except.map]
      | ok u =>
        cases r.loopback <;>
          cases hscope : identityHasScope (config.jwtIdentity token) scopeRuntimeExecute <;>
            simp [Except.map, ensureWorkspaceAuthorized, Except.toOption, Except.toBool, hscope]

/-! ## What lasts -/

variable {config metadata s r} {s' : ApiState} {r' : HttpRequest} {key : String}
  {metadata' : String → Option WorkspaceMetadataV1}

/-- An entry never changes, and whoever is let in has one from then on. -/
theorem access_some (h : access config metadata r = some metadata') :
    (∀ w found, metadata w = some found → metadata' w = some found) ∧
      (metadata' r.workspaceId).isSome ∧ (access config metadata' r).isSome := by
  obtain ⟨identity, hcaller, h⟩ := Option.bind_eq_some_iff.mp h
  simp only [access, hcaller, Option.bind_some]
  unfold ensureWorkspaceAccess at h ⊢
  dsimp only at h
  split at h
  · cases h
  next hsystem =>
  split at h
  · cases h
  split at h
  · next hfound =>
    cases h
    refine ⟨fun w found hw => ?_, by simp, by simp [hsystem, hfound, Except.toOption]⟩
    by_cases hsame : w = r.workspaceId
    · subst hsame
      simp [hw]
    · simpa [hsame] using hw
  · cases h

theorem access_congr (hworkspace : r'.workspaceId = r.workspaceId)
    (htoken : bearerToken r'.authorization = bearerToken r.authorization)
    (hentry : metadata' r.workspaceId = metadata r.workspaceId) :
    (access config metadata' r').isSome = (access config metadata r).isSome := by
  rw [access, access, callerIdentity, htoken, ← callerIdentity, hworkspace]
  cases callerIdentity config r with
  | none => rfl
  | some identity =>
    simp only [Option.bind_some, ensureWorkspaceAccess, hentry]
    repeat' split
    all_goals rfl

/-- No separator in the texts that come before the path in a cache key. -/
def Plain (r : HttpRequest) : Prop :=
  '|' ∉ r.workspaceId.toList ∧ '|' ∉ (idempotencySubject r).toList

theorem cacheKey_toList (r : HttpRequest) (key : String) :
    (idempotencyCacheKey r key).toList = "workspace_execute|".toList ++ (r.workspaceId.toList ++
      '|' :: ((idempotencySubject r).toList ++ '|' :: (r.path.toList ++ '|' :: key.toList))) := by
  change ("workspace_execute|" ++ r.workspaceId ++ "|" ++ idempotencySubject r ++ "|" ++ r.path ++
    "|" ++ key).toList = _
  simp only [String.toList_append, List.append_assoc]
  rfl

theorem append_cons_inj {c : Char} {x y z w : List Char} (hx : c ∉ x) (hz : c ∉ z)
    (h : x ++ c :: y = z ++ c :: w) : x = z ∧ y = w := by
  rcases List.append_eq_append_iff.mp h with ⟨a, rfl, ha⟩ | ⟨a, rfl, ha⟩ <;> cases a <;> simp_all

/-- Plain requests with one cache key have one workspace and one token. -/
theorem cacheKey_inj {key' : String} (hr : Plain r) (hr' : Plain r')
    (h : idempotencyCacheKey r key = idempotencyCacheKey r' key') :
    r.workspaceId = r'.workspaceId ∧
      bearerToken r.authorization = bearerToken r'.authorization := by
  have htext := congrArg String.toList h
  rw [cacheKey_toList, cacheKey_toList] at htext
  obtain ⟨hworkspace, hrest⟩ := append_cons_inj hr.1 hr'.1 (List.append_cancel_left htext)
  have hsubject := String.toList_inj.mp (append_cons_inj hr.2 hr'.2 hrest).1
  refine ⟨String.toList_inj.mp hworkspace, ?_⟩
  -- `local` is no bearer token, so it does not matter whether it stands in a header
  have hgetD : ∀ v : Option String, bearerToken (some (v.getD "local")) = bearerToken v
    | none => by decide
    | some v => rfl
  rw [← hgetD, ← hgetD r'.authorization]
  exact congrArg (fun v => bearerToken (some v)) hsubject

/-- Whoever has stored an answer has an entry in the workspace's metadata that lets it in. -/
def Held (config : Config) (s : ApiState) : Prop :=
  ∀ text record, s.records text = some record → ∃ r key, Plain r ∧
    idempotencyCacheKey r key = text ∧ (s.metadata r.workspaceId).isSome ∧
    (access config s.metadata r).isSome

/-- Records that are pruned and entries that stay keep it. -/
theorem Held.mono (h : Held config s)
    (hrecords : ∀ text record, s'.records text = some record → s.records text = some record)
    (hmetadata : ∀ w found, s.metadata w = some found → s'.metadata w = some found) :
    Held config s' := by
  intro text record hrecord
  obtain ⟨r, key, hr, hkey, hsome, haccess⟩ := h text record (hrecords text record hrecord)
  obtain ⟨found, hfound⟩ := Option.isSome_iff_exists.mp hsome
  have hfound' := hmetadata _ found hfound
  refine ⟨r, key, hr, hkey, by simp [hfound'], ?_⟩
  rwa [access_congr rfl rfl (hfound'.trans hfound.symm)]

theorem pruneIdempotencyRecords_some {now : Nat} {records : String → Option IdempotencyRecord}
    {text : String} {record : IdempotencyRecord}
    (h : pruneIdempotencyRecords config now records text = some record) :
    records text = some record :=
  (Option.filter_eq_some_iff.mp h).1

theorem pruned_some {text : String} {record : IdempotencyRecord}
    (h : (pruned config s r r.now).records text = some record) : s.records text = some record := by
  unfold pruned at h
  split at h
  exacts [pruneIdempotencyRecords_some h, h]

theorem Held.record (h : Held config s) (hr : Plain r) (hsome : (s.metadata r.workspaceId).isSome)
    (haccess : (access config s.metadata r).isSome) (response : Response) :
    Held config (recordIdempotentSuccess config s r response) := by
  unfold recordIdempotentSuccess
  split
  · exact h
  next key hkey =>
  intro text record hrecord
  rcases update_eq_some hrecord with ⟨rfl, -⟩ | ⟨-, hkept⟩
  · exact ⟨r, key, hr, rfl, hsome, haccess⟩
  · exact h text record (pruneIdempotencyRecords_some hkept)

theorem Held.step (h : Held config s) (hr : Plain r) (hs : step config s r = some s') :
    Held config s' := by
  have hmetadata : (pruned config s r r.now).metadata = s.metadata := by
    unfold pruned
    split <;> rfl
  have hpruned : Held config (pruned config s r r.now) :=
    h.mono (fun _ _ => pruned_some) fun _ _ => by simp [hmetadata]
  cases hs
  unfold handleExecuteWorkspace
  dsimp only
  split
  · exact hpruned
  split
  · exact hpruned
  split
  · exact hpruned
  next metadata hok =>
  -- the request has passed both checks, so it has an entry that lets it in
  have hauthorize := authorize_eq config s r
  rw [hok] at hauthorize
  obtain ⟨-, haccess⟩ := Option.ite_none_right_eq_some.mp hauthorize.symm
  obtain ⟨hkept, hsome, hin⟩ := access_some haccess
  rw [← hmetadata] at hkept
  have hheld : Held config ⟨(pruned config s r r.now).records, metadata⟩ :=
    hpruned.mono (fun _ _ => id) hkept
  exact hheld.record hr hsome hin _

theorem Held.replays (h : Held config s) (hr : Plain r) (hreplays : Replays config s r) :
    (access config s.metadata r).isSome := by
  obtain ⟨record, hstored, -⟩ := hreplays
  obtain ⟨key, -, hrecord⟩ := Option.bind_eq_some_iff.mp hstored
  obtain ⟨r', key', hr', hkey, -, haccess⟩ := h _ record (pruneIdempotencyRecords_some hrecord)
  obtain ⟨hworkspace, htoken⟩ := cacheKey_inj hr hr' hkey.symm
  rwa [access_congr hworkspace htoken rfl]

/-! ## Replays -/

/-- Tokens are accepted until time 100. -/
def shortLived : Config where
  allowUnauthenticated := true
  idempotencyRetentionSeconds := 86400
  verifyJwt := fun now _ => if now < 100 then .ok () else .error (unauthorized "token expired")
  jwtIdentity := fun _ => ⟨"ana", false, ["runtime:execute"]⟩
  parseRuntimeRequest := fun _ => .ok ()

def executeRequest (authorization : Option String) (loopback : Bool) (now : Nat) : HttpRequest :=
  ⟨"/v1/workspaces/w/execute", authorization, some "k", false, [], "w", loopback, now, now,
    "the output"⟩

/-- From a server without stored answers on, in every history of requests without separators:
executions are answered to authorised requests only, exactly when every request that finds a stored
one is entitled to it by its own peer and token. -/
theorem workspace_execute_authorised_iff (config : Config)
    (metadata : String → Option WorkspaceMetadataV1) (rs : List HttpRequest)
    (hplain : ∀ r ∈ rs, Plain r) :
    Along (step config) (AnswersAuthorised config) ⟨fun _ => none, metadata⟩ rs ↔
      Along (step config) (fun s r => Replays config s r → Entitled config r = true)
        ⟨fun _ => none, metadata⟩ rs := by
  have hheld : Held config ⟨fun _ => none, metadata⟩ := nofun
  generalize (⟨fun _ => none, metadata⟩ : ApiState) = s at hheld ⊢
  induction rs generalizing s with
  | nil => rfl
  | cons r rs ih =>
    have hr := hplain r (by simp)
    have hrest := fun q hq => hplain q (List.mem_cons_of_mem r hq)
    refine and_congr ?_ (forall_congr' fun s' => imp_congr_right fun hs =>
      ih hrest s' (hheld.step hr hs))
    rw [answersAuthorised_iff, Authorised, authorize_eq]
    refine imp_congr_right fun hreplays => ?_
    have haccess := hheld.replays hr hreplays
    cases Entitled config r <;> simp [haccess]

/-- A request with a token that is sent again in time gets the answer again, from anywhere. -/
theorem workspace_execute_authorised_iff_again :
    Along (step shortLived) (AnswersAuthorised shortLived) .empty
      [executeRequest (some "Bearer a.b.c") true 0,
        executeRequest (some "Bearer a.b.c") false 1] := by
  refine (workspace_execute_authorised_iff shortLived _ _ ?_).mpr ?_
  · unfold Plain
    decide +kernel
  · refine ⟨fun _ => by decide +kernel, fun s hs => ⟨fun _ => by decide +kernel, ?_⟩⟩
    exact fun _ _ => trivial

/-- A remote peer without any token gets what a local one has stored, and a token that has expired
gets what it has stored before. -/
theorem replayed_without_credentials :
    (∃ s, run (step shortLived) .empty [executeRequest none true 0] = some s ∧
      (handleExecuteWorkspace shortLived s (executeRequest none false 1)).1.body =
        .execution "the output" ∧
      ¬ Authorised shortLived s (executeRequest none false 1)) ∧
    ∃ s, run (step shortLived) .empty [executeRequest (some "Bearer a.b.c") false 0] =
        some s ∧
      (handleExecuteWorkspace shortLived s
          (executeRequest (some "Bearer a.b.c") false 200)).1.body =
        .execution "the output" ∧
      ¬ Authorised shortLived s (executeRequest (some "Bearer a.b.c") false 200) := by
  unfold Authorised
  decide +kernel

end Traverse.Server

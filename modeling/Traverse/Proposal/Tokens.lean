import Traverse.Proposal.Quota

/-!
# Proposal.Tokens

`ApprovalTokenStore` and `authorize_and_reserve_quota`: a use of the token is recorded under the
lock of the store, and the quota is reserved afterwards. In between the token can be revoked, and
after it the quota can refuse the call.

* `token_accounting`: the uses are the executions that started, are about to start, or were refused
  by the quota; none starts after a revocation but those about to.
* `use_lost_and_late_start`: a use without an execution, and an execution after the revocation.
-/

namespace Traverse.Proposal

open Function List Machine

inductive EffectClass
  | pureRead
  | stateWrite
  | externalEffect
  | irreversibleEffect
  deriving DecidableEq, Repr

structure ApprovalTokenClaims where
  (tokenId issuer keyId audience principal workspaceId proposalDigest snapshotDigest : String)
  permittedEffects : List EffectClass
  permittedConnectors : List String
  maxUseCount : Nat
  expiryUnix : Int
  deriving DecidableEq, Repr

inductive ApprovalTokenErrorCode
  | malformed
  | algorithmNotAllowed
  | unknownKeyId
  | signatureVerificationFailed
  | issuerMismatch
  | audienceMismatch
  | expired
  | workspaceMismatch
  | proposalDigestMismatch
  | snapshotDigestMismatch
  | useCountExhausted
  | revoked
  | storeUnavailable
  deriving DecidableEq, Repr

structure ApprovalTokenError where
  code : ApprovalTokenErrorCode
  message : String
  deriving DecidableEq, Repr

structure TokenUsageRecord where
  useCount : Nat := 0
  revoked : Bool := false
  deriving DecidableEq, Repr

/-- A lock section; a poisoned lock is `none`. -/
def checkAndRecordUse (used : Option (String → TokenUsageRecord)) (claims : ApprovalTokenClaims) :
    Except ApprovalTokenError (String → TokenUsageRecord) :=
  match used with
  | none => .error ⟨.storeUnavailable, "approval token store is unavailable; failing closed"⟩
  | some used =>
    let record := used claims.tokenId
    if record.revoked then .error ⟨.revoked, "token has been revoked"⟩
    else if record.useCount ≥ claims.maxUseCount then
      .error ⟨.useCountExhausted, "token has reached its maximum use count"⟩
    else .ok (update used claims.tokenId { record with useCount := record.useCount + 1 })

def revoke (used : String → TokenUsageRecord) (tokenId : String) : String → TokenUsageRecord :=
  update used tokenId { used tokenId with revoked := true }

inductive Stage
  | pending
  | started
  | refused
  deriving DecidableEq, Repr

def Phase.stage : Phase → Stage
  | .reserving _ [] => .started
  | .reserving _ (_ :: _) => .pending
  | .undoing _ _ => .refused
  | .dropping _ => .started

theorem Phase.not_refused (taken rest : List Dimension) :
    (Phase.reserving taken rest).stage ≠ .refused := by
  cases rest <;> simp [stage]

/-- The shared stores of `execute_proposal_via_mcp`. -/
structure Serving where
  tracker : Tracker
  used : String → TokenUsageRecord

/-- A call is authorized with the claims of its token, or without one if it is
automatic-eligible. -/
inductive Event
  | authorize (keys : Dimension → String) (claims : Option ApprovalTokenClaims)
  | lock (call : Nat)
  | drop (call : Nat)
  | revoke (tokenId : String)

namespace Serving

def new : Serving := ⟨.new, fun _ => {}⟩

def step (limits : QuotaLimits) (s : Serving) : Event → Option Serving
  | .authorize keys none =>
    (s.tracker.step limits (.reserve keys none)).map fun tracker => ⟨tracker, s.used⟩
  | .authorize keys (some claims) =>
    match checkAndRecordUse (some s.used) claims with
    | .error _ => some s
    | .ok used =>
      (s.tracker.step limits (.reserve keys (some claims.tokenId))).map fun tracker =>
        ⟨tracker, used⟩
  | .lock i => (s.tracker.step limits (.lock i)).map fun tracker => ⟨tracker, s.used⟩
  | .drop i => (s.tracker.step limits (.drop i)).map fun tracker => ⟨tracker, s.used⟩
  | .revoke tokenId => some ⟨s.tracker, Proposal.revoke s.used tokenId⟩

end Serving

namespace Tracker

variable {limits : QuotaLimits} {s t : Tracker} {tokenId : String}

/-- The calls with the token that have got to a stage. -/
def under (s : Tracker) (tokenId : String) (stage : Stage) : Nat :=
  s.calls.countP fun call => call.token = some tokenId && call.phase.stage = stage

def total (s : Tracker) (tokenId : String) : Nat :=
  s.calls.countP fun call => call.token = some tokenId

theorem total_eq (s : Tracker) (tokenId : String) : s.total tokenId =
    s.under tokenId .started + s.under tokenId .pending + s.under tokenId .refused := by
  unfold total under
  induction s.calls with
  | nil => rfl
  | cons call calls ih =>
    simp only [countP_cons, ih]
    cases hstage : call.phase.stage <;> by_cases htoken : call.token = some tokenId <;>
      simp [htoken] <;> omega

/-- A call with the token is about to find a counter at its limit. -/
def denies (limits : QuotaLimits) (s : Tracker) (tokenId : String) : Label → Bool
  | .lock i =>
    match s.calls[i]? with
    | some ⟨keys, token, .reserving _ (d :: _)⟩ =>
      token = some tokenId && s.slots d (keys d) ≥ limits.max d
    | _ => false
  | _ => false

/-- One call goes on; it keeps its token, and is refused if it was or is now denied. -/
theorem step_moves {a : Label} (hnew : ∀ keys token, a ≠ .reserve keys token)
    (h : s.step limits a = some t) (tokenId : String) : ∃ i call phase, s.calls[i]? = some call ∧
      t.calls = s.calls.set i ⟨call.keys, call.token, phase⟩ ∧
      (call.token = some tokenId && phase.stage = .refused : Bool).toNat =
        (call.token = some tokenId && call.phase.stage = .refused : Bool).toNat +
          (s.denies limits tokenId a).toNat := by
  cases a with
  | reserve keys token => exact absurd rfl (hnew keys token)
  | drop i =>
    simp only [step] at h
    split at h
    case h_1 hcall =>
      cases h
      exact ⟨i, _, _, hcall, rfl, by simp [Phase.stage, denies]⟩
    · cases h
  | lock i =>
    simp only [step, reserveDimension] at h
    split at h
    case h_1 hcall =>
      split at h
      all_goals
        split_ifs at * with hfull
        cases h
        exact ⟨i, _, _, hcall, rfl, by
          simp [Phase.not_refused, denies, hcall, hfull, Phase.stage.eq_3]⟩
    case h_2 hcall | h_3 hcall =>
      cases h
      exact ⟨i, _, _, hcall, rfl, by simp [Phase.stage, denies, hcall]⟩
    · cases h

theorem step_total {a : Label} (hnew : ∀ keys token, a ≠ .reserve keys token)
    (h : s.step limits a = some t) (tokenId : String) :
    t.total tokenId = s.total tokenId ∧
      t.under tokenId .refused = s.under tokenId .refused + (s.denies limits tokenId a).toNat := by
  obtain ⟨i, call, phase, hcall, hcalls, hrefused⟩ := step_moves hnew h tokenId
  unfold total under
  rw [hcalls]
  constructor
  · have hcount := countP_replace (p := fun call => call.token = some tokenId) hcall
      ⟨call.keys, call.token, phase⟩
    exact Nat.add_right_cancel hcount
  · have hcount := countP_replace (p := fun call => call.token = some tokenId &&
      call.phase.stage = .refused) hcall ⟨call.keys, call.token, phase⟩
    dsimp only at hcount
    omega

end Tracker

namespace Serving

variable {limits : QuotaLimits} {s t : Serving} {tokenId : String} {max : Nat} {a : Event}

/-- A token that is presented under the id was signed for so many uses. -/
def Signed (tokenId : String) (max : Nat) : Event → Prop
  | .authorize _ (some claims) => claims.tokenId = tokenId → claims.maxUseCount = max
  | _ => True

/-- A call with the token is about to find a counter at its limit. -/
def denies (limits : QuotaLimits) (s : Serving) (tokenId : String) : Event → Bool
  | .lock i => s.tracker.denies limits tokenId (.lock i)
  | _ => false

/-- What one step does to the record and to the calls of a token, and to the counters. -/
structure Accounts (limits : QuotaLimits) (tokenId : String) (a : Event) (s t : Serving) :
    Prop where
  uses : (t.used tokenId).useCount + s.tracker.total tokenId =
    (s.used tokenId).useCount + t.tracker.total tokenId
  refused : t.tracker.under tokenId .refused =
    s.tracker.under tokenId .refused + (s.denies limits tokenId a).toNat
  consistent : s.tracker.Consistent limits → t.tracker.Consistent limits
  revoked : (s.used tokenId).revoked → (t.used tokenId).revoked ∧
    (t.used tokenId).useCount = (s.used tokenId).useCount
  bounded : ∀ max, Signed tokenId max a → (s.used tokenId).useCount ≤ max →
    (t.used tokenId).useCount ≤ max

theorem Accounts.of_used {tracker : Tracker}
    (htotal : tracker.total tokenId = s.tracker.total tokenId)
    (hrefused : tracker.under tokenId .refused =
      s.tracker.under tokenId .refused + (s.denies limits tokenId a).toNat)
    (hconsistent : s.tracker.Consistent limits → tracker.Consistent limits)
    {used : String → TokenUsageRecord}
      (hcount : (used tokenId).useCount = (s.used tokenId).useCount)
    (hrevoked : (s.used tokenId).revoked → (used tokenId).revoked) :
    Accounts limits tokenId a s ⟨tracker, used⟩ :=
  ⟨by simp only [htotal, hcount], hrefused, hconsistent, fun h => ⟨hrevoked h, hcount⟩,
    fun _ _ h => hcount ▸ h⟩

theorem step_accounts (h : s.step limits a = some t) (tokenId : String) :
    Accounts limits tokenId a s t := by
  cases a with
  | authorize keys claims =>
    have hreserve : ∀ token, s.tracker.Consistent limits → Tracker.Consistent limits
        { s.tracker with calls := s.tracker.calls ++ [⟨keys, token, .reserving [] order⟩] } :=
      fun token hs => hs.step (a := .reserve keys token) rfl
    cases claims with
    | none =>
      cases h
      exact .of_used (by simp [Tracker.total]) (by simp [Tracker.under, denies]) (hreserve _) rfl id
    | some claims =>
      simp only [step, checkAndRecordUse] at h
      split at h
      · cases h
        exact .of_used rfl rfl id rfl id
      case h_2 used hused =>
        cases h
        split at hused
        · cases hused
        case isFalse hrevoked =>
          split at hused
          · cases hused
          case isFalse hcount =>
            cases hused
            by_cases hid : tokenId = claims.tokenId
            · subst hid
              refine ⟨?_, ?_, hreserve _, fun h => absurd h hrevoked, fun max hmax _ => ?_⟩
              · simp [Tracker.total, Nat.add_assoc, Nat.add_comm 1]
              · simp [Tracker.under, Phase.stage, order, denies]
              · simpa [← hmax rfl, Nat.add_one_le_iff] using hcount
            · have hid' : claims.tokenId ≠ tokenId := Ne.symm hid
              exact .of_used (by simp [Tracker.total, hid']) (by simp [Tracker.under, hid', denies])
                (hreserve _) (by simp [hid]) (by simp [hid])
  | lock i | drop i =>
    obtain ⟨tracker, htracker, rfl⟩ := Option.map_eq_some_iff.1 h
    obtain ⟨htotal, hrefused⟩ := Tracker.step_total (by simp) htracker tokenId
    exact .of_used htotal (by exact hrefused) (·.step htracker) rfl id
  | revoke id =>
    cases h
    by_cases hid : tokenId = id
    · subst hid
      exact .of_used rfl rfl (·) (by simp [Proposal.revoke]) (by simp [Proposal.revoke])
    · exact .of_used rfl rfl (·) (by simp [Proposal.revoke, hid]) (by simp [Proposal.revoke, hid])

variable (tokenId) in
/-- The quota has refused no call with the token if it was never about to. -/
theorem refused_eq_zero_iff {as : List Event} (hrun : run (step limits) s as = some t) :
    t.tracker.under tokenId .refused = 0 ↔ s.tracker.under tokenId .refused = 0 ∧
      Along (step limits) (fun s a => s.denies limits tokenId a = false) s as := by
  induction as generalizing s with
  | nil =>
    cases hrun
    exact (and_iff_left trivial).symm
  | cons a as ih =>
    cases hstep : s.step limits a with
    | none => simp [run, hstep] at hrun
    | some u =>
      rw [run_cons_some _ as hstep] at hrun
      have hrefused := (step_accounts hstep tokenId).refused
      rw [ih hrun, hrefused, Nat.add_eq_zero_iff, Bool.toNat_eq_zero, and_assoc]
      simp [Along, hstep]

/-- A use of a token is a call with it. The signed count is kept; the uses are all executions,
started or about to start, exactly if no call with the token has found a counter at its limit; what
the quota counts is held by a call that was not refused or has not returned; and after a revocation
no execution starts but those that were about to. -/
theorem token_accounting (limits : QuotaLimits) (tokenId : String) (max : Nat) (as : List Event)
    (s : Serving) (hpath : Path (step limits) (fun _ => Signed tokenId max) new as s) :
    (s.used tokenId).useCount ≤ max ∧
      ((s.used tokenId).useCount = s.tracker.under tokenId .started +
        s.tracker.under tokenId .pending ↔
          Along (step limits) (fun s a => s.denies limits tokenId a = false) new as) ∧
      ((∀ d key, s.tracker.slots d key = s.tracker.calls.countP (·.holds d key)) ∧
        ∀ call ∈ s.tracker.calls, ∀ denial, call.phase = .undoing denial [] →
          ∀ d key, call.holds d key = false) ∧
      ∀ after t, run (step limits) s (.revoke tokenId :: after) = some t →
        t.tracker.under tokenId .started ≤
          s.tracker.under tokenId .started + s.tracker.under tokenId .pending := by
  have hmax := invariant (fun s : Serving => (s.used tokenId).useCount ≤ max)
    (fun s a t h hsigned hstep => (step_accounts hstep tokenId).bounded max hsigned h)
    (Nat.zero_le max) hpath.1 hpath.2
  have huses := invariant
    (fun s : Serving => (s.used tokenId).useCount = s.tracker.total tokenId)
    (fun s a t h _ hstep => by have := (step_accounts hstep tokenId).uses; omega)
    rfl hpath.1 hpath.2
  have hconsistent := invariant (fun s : Serving => s.tracker.Consistent limits)
    (fun s a t h _ hstep => (step_accounts hstep tokenId).consistent h)
    (Tracker.slots_consistent (run_nil _ _)) hpath.1 hpath.2
  have htotal := s.tracker.total_eq tokenId
  have hrefused := refused_eq_zero_iff tokenId hpath.2
  refine ⟨hmax, ?_, ⟨hconsistent.counts, fun call _ denial hdenied d key => ?_⟩,
    fun after t hrun => ?_⟩
  · rw [← (hrefused.trans (and_iff_right rfl))]
    omega
  · simp [Call.holds, hdenied, Phase.held]
  · have hrevoke : s.step limits (.revoke tokenId) =
        some ⟨s.tracker, Proposal.revoke s.used tokenId⟩ := rfl
    rw [run_cons_some _ after hrevoke] at hrun
    obtain ⟨-, hsame, hrefused, huses'⟩ := invariant (P := fun _ _ => True)
      (fun t : Serving => (t.used tokenId).revoked ∧
        (t.used tokenId).useCount = (s.used tokenId).useCount ∧
        s.tracker.under tokenId .refused ≤ t.tracker.under tokenId .refused ∧
        (t.used tokenId).useCount = t.tracker.total tokenId)
      (fun u a t hu _ hstep => by
        have h := step_accounts hstep tokenId
        obtain ⟨hrevoked, hcount⟩ := h.revoked hu.1
        have := h.uses
        have := h.refused
        exact ⟨hrevoked, hcount.trans hu.2.1, by omega, by omega⟩)
      (by simpa [Proposal.revoke] using huses) (.of_forall (fun _ _ => trivial) _ _) hrun
    have := t.tracker.total_eq tokenId
    omega

def sampleClaims (max : Nat) : ApprovalTokenClaims :=
  ⟨"t", "issuer", "k", "audience", "p", "w", "digest", "snapshot", [], [], max, 0⟩

/-- The second use of a token goes to a call that the quota refuses. -/
def usedTwice : List Event :=
  [.authorize (Tracker.sampleKeys "p" "a" "w") (some (sampleClaims 2)), .lock 0,
    .authorize (Tracker.sampleKeys "p" "b" "w") (some (sampleClaims 2)), .lock 0, .lock 1, .lock 0]

theorem token_accounting_twice : ∃ s, run (step ⟨1, 1, 1⟩) new usedTwice = some s ∧
    s.tracker.under "t" .started = 1 ∧ s.tracker.under "t" .refused = 1 ∧
    (s.used "t").useCount ≤ 2 ∧
    ∀ d key, s.tracker.slots d key = s.tracker.calls.countP (·.holds d key) := by
  obtain ⟨s, hs, hstarted, hrefused⟩ : ∃ s, run (step ⟨1, 1, 1⟩) new usedTwice = some s ∧
      s.tracker.under "t" .started = 1 ∧ s.tracker.under "t" .refused = 1 := by decide +kernel
  have hsigned : Along (step ⟨1, 1, 1⟩) (fun _ => Signed "t" 2) new usedTwice :=
    ⟨fun _ => rfl, fun _ _ => ⟨trivial, fun _ _ => ⟨fun _ => rfl, fun _ _ => ⟨trivial,
      fun _ _ => ⟨trivial, fun _ _ => ⟨trivial, fun _ _ => trivial⟩⟩⟩⟩⟩⟩
  obtain ⟨hmax, -, hcounts, -⟩ := token_accounting _ "t" 2 usedTwice s ⟨hsigned, hs⟩
  exact ⟨s, hs, hstarted, hrefused, hmax, hcounts.1⟩

/-- An execution of the principal is running. The call with the token is refused by the quota and
its use is gone; in the second run the token is revoked between the use and the execution. -/
theorem use_lost_and_late_start :
    (run (step ⟨1, 1, 1⟩) new [.authorize (Tracker.sampleKeys "p" "a" "w") none,
      .lock 0, .lock 0, .lock 0,
        .authorize (Tracker.sampleKeys "p" "a" "w") (some (sampleClaims 1)),
      .lock 1]).map (fun s => (s.tracker.under "t" .started, s.tracker.under "t" .pending,
        s.used "t")) = some (0, 0, ⟨1, false⟩) ∧
    (run (step ⟨1, 1, 1⟩) new
      [.authorize (Tracker.sampleKeys "p" "a" "w") (some (sampleClaims 1)), .revoke "t",
        .lock 0, .lock 0, .lock 0]).map (fun s => (s.tracker.under "t" .started, s.used "t")) =
      some (1, ⟨1, true⟩) := by
  refine ⟨by decide +kernel, by decide +kernel⟩

end Serving
end Traverse.Proposal

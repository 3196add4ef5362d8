import Traverse.Sys.Machine

/-!
# Server.Workspaces

The registry of a workspace in memory and on disk. The first request that touches a workspace loads
it, through `with_workspace_mut` or, for capabilities and events, `ensure_workspace_loaded`; each
registration changes the memory and, when it is to be persisted, appends to the journal what the
memory did not have.

* `first_request_irrelevant_iff`: both loaders do the same iff the workflows add nothing and the
  development configuration of `with_workspace_mut` is the right one or is replaced
  (`workflows_not_loaded`).
* `persisted_registrations_survive`: after a restart nothing comes back that was acknowledged as
  ephemeral only; and what was acknowledged as persisted does, if it was in the journal or was
  written to it. An artifact that the memory alone has is acknowledged and lost
  (`acknowledged_and_lost`).

A journal that was read is the list of its entries; time stamps and versions have been filled in.
-/

namespace Traverse.Server

open List Machine

inductive Kind where
  | capability
  | event
  | workflow
  deriving DecidableEq

/-- What a message calls an entry. -/
def Kind.noun : Kind → String
  | .capability => "entry"
  | .event => "event"
  | .workflow => "workflow"

inductive Security where
  | development
  | production
  deriving DecidableEq

def runtimeSecurityForAuthMode (authMode : String) : Security :=
  if authMode = "dev-loopback" ∨ authMode = "dev-any" then .development else .production

/-- The registries of a runtime, with the events, as the server uses them: `M` is their content.
A registration that succeeds adds its artifact and nothing else. -/
structure Registries (A M : Type) where
  kind : A → Kind
  empty : M
  derive : A → Except String Unit
  register : M → A → Except String M
  already : M → A → Bool
  holds : M → A → Prop
  holds_register : ∀ {m m' a}, register m a = .ok m' → ∀ b, holds m' b ↔ holds m b ∨ b = a
  /-- The saved application state, which replaces the runtime. -/
  saved : Except String (Option (M → M))
  authMode : String

structure Workspace (A M : Type) where
  memory : M
  security : Security
  persisted : List A
  loaded : Bool

inductive Loader where
  | ensureWorkspaceLoaded
  | withWorkspaceMut
  deriving DecidableEq

def Loader.kinds : Loader → List Kind
  | .ensureWorkspaceLoaded => [.capability, .event]
  | .withWorkspaceMut => [.capability, .event] ++ [.workflow]

variable {A M : Type} (S : Registries A M)

namespace Registries

def security : Security := runtimeSecurityForAuthMode S.authMode

/-- The workspace as a request that finds none constructs it. -/
def construct : Loader → Workspace A M
  | .ensureWorkspaceLoaded => ⟨S.empty, S.security, [], false⟩
  | .withWorkspaceMut => ⟨S.empty, .development, [], false⟩

def loadWorkspaceAppRuntime (ws : Workspace A M) : Except String Unit × Workspace A M :=
  match S.saved with
  | .error error => (.error ("workspace app state contains invalid entries: " ++ error), ws)
  | .ok none => (.ok (), ws)
  | .ok (some install) =>
    (.ok (), { ws with memory := install ws.memory, security := S.security })

def registerEach : List A → M → Except String Unit × M
  | [], m => (.ok (), m)
  | a :: as, m =>
    match S.derive a with
    | .error error =>
      (.error ("persisted registry contains invalid " ++ (S.kind a).noun ++ ": " ++ error), m)
    | .ok _ =>
      match S.register m a with
      | .error error => (.error error, m)
      | .ok m => registerEach as m

def ofKinds (kinds : List Kind) (disk : List A) : List A :=
  kinds.flatMap fun kind => disk.filter fun a => S.kind a = kind

/-- A load that fails is tried again by the next request. -/
def load (loader : Loader) (disk : List A) (ws : Workspace A M) :
    Except String Unit × Workspace A M :=
  if ws.loaded then (.ok (), ws)
  else
    match S.loadWorkspaceAppRuntime { ws with persisted := disk } with
    | (.error error, ws) => (.error error, ws)
    | (.ok _, ws) =>
      let (result, memory) := S.registerEach (S.ofKinds loader.kinds disk) ws.memory
      (result, { ws with memory := memory, loaded := result matches .ok _ })

/-- What the first request of a process finds. -/
def firstLoad (loader : Loader) (disk : List A) : Except String Unit × Workspace A M :=
  S.load loader disk (S.construct loader)

/-! ## The first request -/

variable {S}

theorem registerEach_append (as bs : List A) (m : M) :
    S.registerEach (as ++ bs) m =
      match S.registerEach as m with
      | (.error error, m) => (.error error, m)
      | (.ok _, m) => S.registerEach bs m := by
  induction as generalizing m with
  | nil => rfl
  | cons a as ih =>
    rw [cons_append, registerEach, registerEach]
    cases S.derive a with
    | error error => rfl
    | ok _ =>
      cases S.register m a with
      | error error => rfl
      | ok m' => exact ih m'

variable (S)

/-- All requests that come first find the same result and memory, and the security configuration
of the auth mode. -/
def FirstRequestIrrelevant (disk : List A) : Prop :=
  ∀ loader, (S.firstLoad loader disk).1 = (S.firstLoad .withWorkspaceMut disk).1 ∧
    (S.firstLoad loader disk).2.memory = (S.firstLoad .withWorkspaceMut disk).2.memory ∧
    ((S.firstLoad loader disk).1 = .ok () → (S.firstLoad loader disk).2.security = S.security)

/-- The memory that the saved application state leaves. -/
def appsMemory : Except String M := S.saved.map fun install => install.elim S.empty (· S.empty)

/-- The saved state can be read, and everything on disk registers after it. -/
def Loads (disk : List A) : Prop :=
  ∃ m, S.appsMemory = .ok m ∧
    (S.registerEach (S.ofKinds [.capability, .event, .workflow] disk) m).1 = .ok ()

/-- If the saved state can be read and the persisted capabilities and events register after it, then
the persisted workflows register after them and change nothing. -/
def WorkflowsAddNothing (disk : List A) : Prop :=
  ∀ m, S.appsMemory = .ok m → ∀ m',
    S.registerEach (S.ofKinds [.capability, .event] disk) m = (.ok (), m') →
    S.registerEach (S.ofKinds [.workflow] disk) m' = (.ok (), m')

theorem firstLoad_ok_iff (disk : List A) :
    (S.firstLoad .withWorkspaceMut disk).1 = .ok () ↔ S.Loads disk := by
  rw [Loads, appsMemory]
  rcases hsaved : S.saved with error | _ | install <;>
    simp [firstLoad, load, construct, loadWorkspaceAppRuntime, hsaved, Except.map, Loader.kinds]

theorem first_request_irrelevant_iff (disk : List A) :
    S.FirstRequestIrrelevant disk ↔ S.WorkflowsAddNothing disk ∧
      (S.Loads disk → S.security = .development ∨ S.saved ≠ .ok none) := by
  have hall : ∀ P : Loader → Prop, (∀ loader, P loader) ↔
      P .ensureWorkspaceLoaded ∧ P .withWorkspaceMut := fun P =>
    ⟨fun h => ⟨h _, h _⟩, fun h loader => by cases loader <;> simp [h]⟩
  have hsplit : ∀ m, S.registerEach (S.ofKinds Loader.withWorkspaceMut.kinds disk) m =
      match S.registerEach (S.ofKinds Loader.ensureWorkspaceLoaded.kinds disk) m with
      | (.error error, m) => (.error error, m)
      | (.ok _, m) => S.registerEach (S.ofKinds [.workflow] disk) m := by
    intro m
    rw [← registerEach_append]
    simp [ofKinds, Loader.kinds]
  rw [FirstRequestIrrelevant, hall, WorkflowsAddNothing, ← firstLoad_ok_iff, appsMemory,
    show [Kind.capability, .event] = Loader.ensureWorkspaceLoaded.kinds from rfl]
  rcases hsaved : S.saved with error | _ | install <;>
    simp only [firstLoad, load, construct, loadWorkspaceAppRuntime, hsaved, Bool.false_eq_true,
      if_false, hsplit, Except.map, Except.ok.injEq, forall_eq', Option.elim]
  · simp
  · rcases S.registerEach (S.ofKinds Loader.ensureWorkspaceLoaded.kinds disk) S.empty
      with ⟨error | _, m⟩
    · simp
    · rcases hw : S.registerEach (S.ofKinds [.workflow] disk) m with ⟨error | _, m'⟩
      · simp [hw]
      · simp [hw, eq_comm]
  · rcases S.registerEach (S.ofKinds Loader.ensureWorkspaceLoaded.kinds disk) (install S.empty)
      with ⟨error | _, m⟩
    · simp
    · rcases hw : S.registerEach (S.ofKinds [.workflow] disk) m with ⟨error | _, m'⟩
      · simp [hw]
      · simp [hw, eq_comm]

/-- Registries that keep what they are given. -/
def listed (authMode : String) : Registries (Kind × Nat) (List (Kind × Nat)) where
  kind := Prod.fst
  empty := []
  derive := fun _ => .ok ()
  register := fun m a => .ok (m ++ [a])
  already := fun m a => a ∈ m
  holds := fun m a => a ∈ m
  holds_register := by
    rintro m m' a ⟨⟩ b
    simp
  saved := .ok none
  authMode := authMode

/-- After the registration of a capability the workflow is not there; after any other request the
configuration is that of development. -/
theorem workflows_not_loaded :
    ((listed "bearer-required").firstLoad .ensureWorkspaceLoaded [(.workflow, 1)]).2.memory = [] ∧
      ((listed "bearer-required").firstLoad .withWorkspaceMut [(.workflow, 1)]).2.memory =
        [(.workflow, 1)] ∧
      ((listed "bearer-required").firstLoad .withWorkspaceMut [(.workflow, 1)]).2.security =
        .development ∧
      (listed "bearer-required").security = .production := by
  decide

/-! ## Registrations and a restart -/

end Registries

inductive RegistrationScope where
  | sessionEphemeral
  | workspacePersisted
  deriving DecidableEq

inductive Body (A : Type) where
  | single (a : A)
  | bundle (artifacts : List A)

structure Request (A : Type) where
  body : Body A
  scope : RegistrationScope
  /-- Whether an append of this request succeeds. -/
  appended : Bool

/-- What the request appends of what is new. -/
def Request.appends (q : Request A) (new : List A) : List A :=
  match q.scope with
  | .sessionEphemeral => []
  | .workspacePersisted => new

structure State (A M : Type) where
  disk : List A
  workspace : Option (Workspace A M)
  /-- The artifacts of the requests that were answered with success. -/
  acked : List (A × RegistrationScope)

/-- The workspace is not loaded yet, and its registry was written by earlier processes. -/
def State.start (disk : List A) : State A M := ⟨disk, none, disk.map (·, .workspacePersisted)⟩

namespace Registries

def loader : Body A → Loader
  | .single a => if S.kind a = .workflow then .withWorkspaceMut else .ensureWorkspaceLoaded
  | .bundle _ => .withWorkspaceMut

def artifacts : Body A → List A
  | .single a => [a]
  | .bundle artifacts => S.ofKinds [.event, .capability, .workflow] artifacts

/-- The memory with the artifacts, and those that it did not have. -/
def stage : List A → M → Except String (M × List A)
  | [], m => .ok (m, [])
  | a :: as, m => do
    S.derive a
    let (m', new) ← stage as (← S.register m a)
    pure (m', if S.already m a then new else a :: new)

/-- `apply_registration`, `apply_event_registration`, `apply_workflow_registration` and
`apply_bundle_registration`. -/
def request (s : State A M) (q : Request A) : Option (State A M) :=
  let loader := S.loader q.body
  match S.load loader s.disk (s.workspace.getD (S.construct loader)) with
  | (.error _, ws) => some { s with workspace := some ws }
  | (.ok _, ws) =>
    match S.stage (S.artifacts q.body) ws.memory with
    | .error _ => some { s with workspace := some ws }
    | .ok (memory, new) =>
      let new := q.appends new
      let committed := { ws with memory := memory, persisted := ws.persisted ++ new }
      let done : State A M :=
        ⟨s.disk ++ new, some committed, s.acked ++ (S.artifacts q.body).map (·, q.scope)⟩
      match q.body with
      | .single _ =>
        -- the memory has the artifact before it is written
        if new = [] ∨ q.appended then some done
        else some { s with workspace := some { ws with memory := memory } }
      | .bundle _ =>
        if q.scope = .sessionEphemeral ∨ q.appended then some done
        else some { s with workspace := some ws }

/-- What a request that is to be persisted finds in memory is in the journal or is written to it,
and the journal loads without what is ephemeral. -/
def Durable (s : State A M) (q : Request A) : Prop :=
  ∀ ws memory new,
    S.load (S.loader q.body) s.disk (s.workspace.getD (S.construct (S.loader q.body))) =
      (.ok (), ws) →
    S.stage (S.artifacts q.body) ws.memory = .ok (memory, new) → q.scope = .workspacePersisted →
    (∀ a ∈ S.artifacts q.body, a ∈ s.disk ∨ a ∈ new) ∧ S.Loads (s.disk ++ new)

variable {S} {s s' : State A M} {q : Request A}

theorem request_cases (h : S.request s q = some s') :
    (s'.disk = s.disk ∧ s'.acked = s.acked) ∨ ∃ ws memory new,
      S.load (S.loader q.body) s.disk (s.workspace.getD (S.construct (S.loader q.body))) =
        (.ok (), ws) ∧
      S.stage (S.artifacts q.body) ws.memory = .ok (memory, new) ∧
      s'.disk = s.disk ++ q.appends new ∧
      s'.acked = s.acked ++ (S.artifacts q.body).map (·, q.scope) := by
  unfold request at h
  dsimp only at h
  split at h
  · cases h
    exact .inl ⟨rfl, rfl⟩
  rename_i ws hload
  split at h
  · cases h
    exact .inl ⟨rfl, rfl⟩
  rename_i memory new hstage
  split at h <;> split at h <;> cases h
  · exact .inr ⟨ws, memory, new, hload, hstage, rfl, rfl⟩
  · exact .inl ⟨rfl, rfl⟩
  · exact .inr ⟨ws, memory, new, hload, hstage, rfl, rfl⟩
  · exact .inl ⟨rfl, rfl⟩

theorem stage_new {as new : List A} {m m' : M} (h : S.stage as m = .ok (m', new)) :
    ∀ a ∈ new, a ∈ as := by
  induction as generalizing m m' new with
  | nil =>
    cases h
    simp
  | cons a as ih =>
    rw [stage] at h
    cases hderive : S.derive a with
    | error error => simp [hderive, bind, Except.bind] at h
    | ok _ =>
      cases hregister : S.register m a with
      | error error => simp [hderive, hregister, bind, Except.bind] at h
      | ok m₁ =>
        cases hstage : S.stage as m₁ with
        | error error => simp [hderive, hregister, hstage, bind, Except.bind] at h
        | ok result =>
          simp only [hderive, hregister, hstage, bind, Except.bind, pure, Except.pure,
            Except.ok.injEq, Prod.mk.injEq] at h
          obtain ⟨-, rfl⟩ := h
          intro b hb
          split at hb
          · exact mem_cons_of_mem _ (ih hstage b hb)
          · rcases mem_cons.1 hb with rfl | hb
            · exact mem_cons_self
            · exact mem_cons_of_mem _ (ih hstage b hb)

/-- What the registries hold after a load, and all of it when the load succeeds. -/
theorem registerEach_holds (as : List A) (m : M) :
    (∀ b, S.holds (S.registerEach as m).2 b → S.holds m b ∨ b ∈ as) ∧
    ((S.registerEach as m).1 = .ok () →
      ∀ b, S.holds m b ∨ b ∈ as → S.holds (S.registerEach as m).2 b) := by
  induction as generalizing m with
  | nil => simp [registerEach]
  | cons a as ih =>
    rw [registerEach]
    cases S.derive a with
    | error error => exact ⟨fun b hb => .inl hb, by simp⟩
    | ok _ =>
      cases hregister : S.register m a with
      | error error => exact ⟨fun b hb => .inl hb, by simp⟩
      | ok m' =>
        have hholds := S.holds_register hregister
        obtain ⟨hsound, hall⟩ := ih m'
        refine ⟨fun b hb => ?_, fun hok b hb => hall hok b ?_⟩
        · rcases hsound b hb with hb | hb
          · rcases (hholds b).1 hb with hb | rfl
            · exact .inl hb
            · exact .inr mem_cons_self
          · exact .inr (mem_cons_of_mem _ hb)
        · rcases hb with hb | hb
          · exact .inl ((hholds b).2 (.inl hb))
          · rcases mem_cons.1 hb with rfl | hb
            · exact .inl ((hholds b).2 (.inr rfl))
            · exact .inr hb

variable (S)

/-- What the saved application state brings. -/
def fromApps (a : A) : Prop :=
  S.holds (S.loadWorkspaceAppRuntime (S.construct .withWorkspaceMut)).2.memory a

theorem mem_ofKinds (disk : List A) (a : A) :
    a ∈ S.ofKinds Loader.withWorkspaceMut.kinds disk ↔ a ∈ disk := by
  cases h : S.kind a <;> simp [ofKinds, Loader.kinds, h]

/-- What is there after a restart. -/
theorem restart_holds (disk : List A) :
    (∀ a, S.holds (S.firstLoad .withWorkspaceMut disk).2.memory a → S.fromApps a ∨ a ∈ disk) ∧
    ((S.firstLoad .withWorkspaceMut disk).1 = .ok () →
      ∀ a ∈ disk, S.holds (S.firstLoad .withWorkspaceMut disk).2.memory a) := by
  simp only [← S.mem_ofKinds disk]
  rcases hsaved : S.saved with error | _ | install <;>
    simp only [firstLoad, load, construct, loadWorkspaceAppRuntime, fromApps, hsaved,
      Bool.false_eq_true, if_false]
  · exact ⟨fun a ha => .inl ha, by simp⟩
  · obtain ⟨hsound, hall⟩ := registerEach_holds (S := S)
      (S.ofKinds Loader.withWorkspaceMut.kinds disk) S.empty
    exact ⟨hsound, fun hok a ha => hall hok a (.inr ha)⟩
  · obtain ⟨hsound, hall⟩ := registerEach_holds (S := S)
      (S.ofKinds Loader.withWorkspaceMut.kinds disk) (install S.empty)
    exact ⟨hsound, fun hok a ha => hall hok a (.inr ha)⟩

/-- After any requests and a restart, what is there was acknowledged as persisted or belongs to the
saved applications; and if all requests were durable, all that was acknowledged as persisted is
there. -/
theorem persisted_registrations_survive (disk : List A)
    (hdisk : (S.firstLoad .withWorkspaceMut disk).1 = .ok ()) (requests : List (Request A))
    (s : State A M) (hrun : run S.request (.start disk) requests = some s) :
    (∀ a, S.holds (S.firstLoad .withWorkspaceMut s.disk).2.memory a →
      S.fromApps a ∨ (a, .workspacePersisted) ∈ s.acked) ∧
    (Along S.request S.Durable (.start disk) requests →
      (S.firstLoad .withWorkspaceMut s.disk).1 = .ok () ∧
      ∀ a, (a, .workspacePersisted) ∈ s.acked →
        S.holds (S.firstLoad .withWorkspaceMut s.disk).2.memory a) := by
  constructor
  · have hacked : ∀ a ∈ s.disk, (a, .workspacePersisted) ∈ s.acked := by
      refine invariant (P := fun _ _ => True)
        (fun s : State A M => ∀ a ∈ s.disk, (a, RegistrationScope.workspacePersisted) ∈ s.acked)
        (fun s q s' hs _ hstep a ha => ?_) (fun a ha => mem_map.2 ⟨a, ha, rfl⟩)
        (.of_forall (fun _ _ => trivial) _ _) hrun
      obtain ⟨hdisk, hacked⟩ | ⟨ws, memory, new, -, hstage, hdisk, hacked⟩ := request_cases hstep
      · rw [hacked]
        exact hs a (hdisk ▸ ha)
      rw [hacked, mem_append]
      rw [hdisk, mem_append] at ha
      rcases ha with ha | ha
      · exact .inl (hs a ha)
      rw [Request.appends] at ha
      cases hscope : q.scope with
      | sessionEphemeral => simp [hscope] at ha
      | workspacePersisted =>
        simp only [hscope] at ha
        exact .inr (mem_map.2 ⟨a, stage_new hstage a ha, rfl⟩)
    exact fun a ha => ((S.restart_holds s.disk).1 a ha).imp_right (hacked a)
  · intro halong
    have hkept : (S.firstLoad .withWorkspaceMut s.disk).1 = .ok () ∧
        ∀ a, (a, .workspacePersisted) ∈ s.acked → a ∈ s.disk := by
      refine invariant
        (fun s : State A M => (S.firstLoad .withWorkspaceMut s.disk).1 = .ok () ∧
          ∀ a, (a, RegistrationScope.workspacePersisted) ∈ s.acked → a ∈ s.disk)
        (fun s q s' hs hdurable hstep => ?_) ⟨hdisk, fun a ha => ?_⟩ halong hrun
      · obtain ⟨hdisk, hacked⟩ | ⟨ws, memory, new, hload, hstage, hdisk, hacked⟩ :=
          request_cases hstep
        · rw [hdisk, hacked]
          exact hs
        · rw [hdisk, hacked]
          cases hscope : q.scope with
          | sessionEphemeral =>
            simp only [Request.appends, hscope, append_nil]
            refine ⟨hs.1, fun a ha => ?_⟩
            rcases mem_append.1 ha with ha | ha
            · exact hs.2 a ha
            · simp at ha
          | workspacePersisted =>
            obtain ⟨hfound, hloads⟩ := hdurable ws memory new hload hstage hscope
            simp only [Request.appends, hscope]
            refine ⟨(S.firstLoad_ok_iff _).2 hloads, fun a ha => ?_⟩
            rcases mem_append.1 ha with ha | ha
            · exact mem_append_left _ (hs.2 a ha)
            · exact mem_append.2 (hfound a (by simpa using ha))
      · obtain ⟨b, hb, hba⟩ := mem_map.1 ha
        cases hba
        exact hb
    exact ⟨hkept.1, fun a ha => (S.restart_holds s.disk).2 hkept.1 a (hkept.2 a ha)⟩

theorem persisted_registrations_survive_bundle :
    ∃ s, run (listed "dev-any").request (.start [(.capability, 0)])
        [⟨.bundle [(.workflow, 1), (.capability, 2)], .workspacePersisted, true⟩,
          ⟨.single (.event, 3), .workspacePersisted, true⟩] = some s ∧
      ∀ a ∈ [(.capability, 0), (.workflow, 1), (.capability, 2), (.event, 3)],
        a ∈ ((listed "dev-any").firstLoad .withWorkspaceMut s.disk).2.memory := by
  refine exists_run (P := fun _ _ => True) (D := fun s => ∀ a ∈ [(.capability, 0), (.workflow, 1),
    (.capability, 2), (.event, 3)], (a, .workspacePersisted) ∈ s.acked) (by decide) ?_
  intro s hpath hacked a ha
  refine ((persisted_registrations_survive _ _ rfl _ s hpath.2).2
    (.cons (fun ws memory new hload hstage _ => ?_) fun s' hs => .cons
      (fun ws memory new hload hstage _ => ?_) fun _ _ => .nil _)).2 a (hacked a ha)
  · cases hload
    cases hstage
    exact ⟨by decide, _, rfl, rfl⟩
  · cases hs
    cases hload
    cases hstage
    exact ⟨by decide, _, rfl, rfl⟩

/-- The capability is in memory from an ephemeral registration, so that the second one writes
nothing, and is acknowledged as persisted. -/
theorem acknowledged_and_lost :
    ∃ s, run (listed "dev-any").request (.start [])
        [⟨.single (.capability, 1), .sessionEphemeral, true⟩,
          ⟨.single (.capability, 1), .workspacePersisted, true⟩] = some s ∧
      ((Kind.capability, 1), .workspacePersisted) ∈ s.acked ∧
      (Kind.capability, 1) ∉ ((listed "dev-any").firstLoad .withWorkspaceMut s.disk).2.memory := by
  decide

end Registries
end Traverse.Server

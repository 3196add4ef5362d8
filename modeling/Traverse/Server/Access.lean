import Traverse.Server.Replay

/-!
# Server.Access

`ensure_workspace_access` when several workers handle requests for one workspace at once. The
metadata is looked for, written to a temporary file and renamed in three steps, without a lock. A
workspace has one owner if no request looks for its metadata while another one is creating it
(`unshared_one_owner`).
-/

namespace Traverse.Server

open List Function Machine

/-- A request that has found no metadata, and whether it has written the temporary file. -/
structure Creation where
  subject : String
  written : Bool

/-- The two metadata files of a workspace, the requests that are creating it and the subjects that
`ensure_workspace_access` has admitted. All requests write the same temporary file. -/
structure Ownership where
  (metadata tmp : Option WorkspaceMetadataV1)
  creating : Nat → Option Creation
  admitted : List String

inductive AccessStep where
  | load (call : Nat) (subject : String)
  | write (call : Nat)
  | rename (call : Nat)

/-- The second half of `ensure_workspace_access`. -/
def WorkspaceMetadataV1.admits (m : WorkspaceMetadataV1) (subject : String) : Bool :=
  m.ownerSubject = subject || (m.shared && m.members.contains subject)

/-- Renaming fails if another request has renamed the temporary file before. -/
def Ownership.step (s : Ownership) : AccessStep → Option Ownership
  | .load call subject =>
    match s.creating call, s.metadata with
    | some _, _ => none
    | none, some m =>
      some (if m.admits subject then { s with admitted := subject :: s.admitted } else s)
    | none, none => some { s with creating := update s.creating call (some ⟨subject, false⟩) }
  | .write call =>
    match s.creating call with
    | some ⟨subject, false⟩ =>
      some { s with
        tmp := some ⟨subject, false, []⟩
        creating := update s.creating call (some ⟨subject, true⟩) }
    | _ => none
  | .rename call =>
    match s.creating call, s.tmp with
    | some ⟨subject, true⟩, some m =>
      some ⟨some m, none, update s.creating call none, subject :: s.admitted⟩
    | some ⟨_, true⟩, none => some { s with creating := update s.creating call none }
    | _, _ => none

/-- No request looks for the metadata while another one is creating it. -/
def Undisturbed (s : Ownership) : AccessStep → Prop
  | .load _ _ => s.metadata = none → ∀ call, s.creating call = none
  | _ => True

/-- The stages of a workspace, with at most one request that creates it. -/
inductive Owned : Ownership → Prop
  | free (tmp : Option WorkspaceMetadataV1) : Owned ⟨none, tmp, fun _ => none, []⟩
  | found (tmp : Option WorkspaceMetadataV1) (call : Nat) (subject : String) :
      Owned ⟨none, tmp, update (fun _ => none) call (some ⟨subject, false⟩), []⟩
  | written (call : Nat) (subject : String) :
      Owned ⟨none, some ⟨subject, false, []⟩, update (fun _ => none) call (some ⟨subject, true⟩),
        []⟩
  | stored {m : WorkspaceMetadataV1} {admitted : List String} (tmp : Option WorkspaceMetadataV1)
      (unshared : m.shared = false) (owner : ∀ subject ∈ admitted, m.ownerSubject = subject) :
      Owned ⟨some m, tmp, fun _ => none, admitted⟩

theorem Owned.step {s s' : Ownership} {a : AccessStep} (h : Owned s) (hp : Undisturbed s a)
    (hs : s.step a = some s') : Owned s' := by
  cases h with
  | free tmp =>
    cases a with
    | load call subject =>
      cases hs
      exact .found tmp call subject
    | write => cases hs
    | rename => cases hs
  | found tmp call subject =>
    cases a with
    | load =>
      have hnone := hp rfl call
      simp at hnone
    | write other =>
      by_cases he : other = call
      · subst he
        simp only [Ownership.step, update_self, update_idem] at hs
        cases hs
        exact .written other subject
      · simp [Ownership.step, he] at hs
    | rename other =>
      by_cases he : other = call <;> simp [Ownership.step, he] at hs
  | written call subject =>
    cases a with
    | load =>
      have hnone := hp rfl call
      simp at hnone
    | write other => by_cases he : other = call <;> simp [Ownership.step, he] at hs
    | rename other =>
      by_cases he : other = call
      · subst he
        simp only [Ownership.step, update_self, update_idem] at hs
        cases hs
        rw [update_eq_self_iff.2 rfl]
        exact .stored none rfl (forall_mem_singleton.2 rfl)
      · simp [Ownership.step, he] at hs
  | @stored m admitted tmp unshared owner =>
    cases a with
    | load call subject =>
      cases hs
      split
      case isTrue hadmits =>
        have howner : m.ownerSubject = subject := by
          simpa [WorkspaceMetadataV1.admits, unshared] using hadmits
        exact .stored tmp unshared (forall_mem_cons.2 ⟨howner, owner⟩)
      · exact .stored tmp unshared owner
    | write => cases hs
    | rename => cases hs

/-- In every run in which no request looks for the metadata of a workspace while another one is
creating it, one subject is admitted, and the stored metadata names it. -/
theorem unshared_one_owner {metadata tmp : Option WorkspaceMetadataV1} {s : Ownership}
    {steps : List AccessStep} (hunshared : ∀ m, metadata = some m → m.shared = false)
    (h : Path Ownership.step Undisturbed ⟨metadata, tmp, fun _ => none, []⟩ steps s) :
    (∀ a ∈ s.admitted, ∀ b ∈ s.admitted, a = b) ∧
      ∀ m, s.metadata = some m → m.shared = false ∧ ∀ a ∈ s.admitted, m.ownerSubject = a := by
  have hstart : Owned ⟨metadata, tmp, fun _ => none, []⟩ := by
    cases metadata with
    | none => exact .free tmp
    | some m => exact .stored tmp (hunshared m rfl) (forall_mem_nil _)
  cases invariant Owned (fun _ _ _ hI hP hs => hI.step hP hs) hstart h.1 h.2 with
  | stored tmp unshared owner =>
    refine ⟨fun a ha b hb => (owner a ha).symm.trans (owner b hb), ?_⟩
    rintro m ⟨⟩
    exact ⟨unshared, owner⟩
  | _ => exact ⟨fun _ ha => absurd ha not_mem_nil, fun _ hm => by cases hm⟩

theorem unshared_one_owner_returns : ∃ s, Path Ownership.step Undisturbed
    ⟨none, none, fun _ => none, []⟩ [.load 0 "ana", .write 0, .rename 0, .load 1 "ana"] s ∧
    s.admitted = ["ana", "ana"] ∧ ∀ a ∈ s.admitted, ∀ b ∈ s.admitted, a = b := by
  have hpath : Path Ownership.step Undisturbed ⟨none, none, fun _ => none, []⟩
      [.load 0 "ana", .write 0, .rename 0, .load 1 "ana"] _ :=
    .cons (fun _ _ => rfl) rfl (.cons trivial rfl (.cons trivial rfl
      (.cons (fun h => by cases h) rfl (.nil _))))
  exact ⟨_, hpath, rfl, (unshared_one_owner (fun _ h => by cases h) hpath).1⟩

/-- Two first requests. Both are admitted, or one is admitted to a workspace that is stored for the
other. -/
theorem two_owners :
    (∃ s, run Ownership.step ⟨none, none, fun _ => none, []⟩
      [.load 0 "ana", .load 1 "bo", .write 0, .rename 0, .write 1, .rename 1] = some s ∧
      s.admitted = ["bo", "ana"]) ∧
    ∃ s, run Ownership.step ⟨none, none, fun _ => none, []⟩
      [.load 0 "ana", .load 1 "bo", .write 0, .write 1, .rename 0, .rename 1] = some s ∧
      s.admitted = ["ana"] ∧ s.metadata = some ⟨"bo", false, []⟩ :=
  ⟨⟨_, rfl, rfl⟩, _, rfl, rfl, rfl⟩

end Traverse.Server

import Mathlib.Data.Fintype.Card

/-!
# Graph.Cycle

Walks of a finite graph and depth-first search for a cycle. `R a b` is an edge from `a` to `b`, and
`Acc (flip R) a` says that no walk from `a` goes on for ever.

* `acc_of_acyclic`: where no cycle can be reached, no walk of a finite graph goes on for ever.
* `transGen_of_no_cycle_through`: a cycle that none of the edges in `E` is on has no edge in `E`.
* `search_iff`: a search from all nodes finds a cycle exactly if there is one.
* `dfsCycle_isSome`: the search returns.
-/

namespace Graph

open List

open Relation (TransGen ReflTransGen)

variable {α : Type}

section Walks

variable {R E : α → α → Prop}

variable {a : α}

theorem not_transGen_of_acc (h : Acc (flip R) a) : ¬ TransGen R a a := by
  have hself : ∀ b, Acc (TransGen (flip R)) b → ¬ TransGen (flip R) b b := by
    intro b hb
    induction hb with
    | intro b _ ih => exact fun hbb => ih b hbb hbb
  exact fun hcycle => hself a h.transGen (Relation.transGen_swap.2 hcycle)

/-- The nodes reachable from `a` get fewer with every edge. -/
theorem acc_of_acyclic (S : Finset α) (htarget : ∀ a b, R a b → b ∈ S)
    (hacyclic : ∀ b, ReflTransGen R a b → ¬ TransGen R b b) : Acc (flip R) a := by
  classical
  have hreach : ∀ (n : Nat) (a : α), (∀ b, ReflTransGen R a b → ¬ TransGen R b b) →
      (S.filter (TransGen R a)).card ≤ n → Acc (flip R) a := by
    intro n
    induction n with
    | zero =>
      intro a _ hcard
      refine .intro a fun b hab => ?_
      have hb : b ∈ S.filter (TransGen R a) := Finset.mem_filter.2 ⟨htarget a b hab, .single hab⟩
      rw [Finset.card_eq_zero.1 (Nat.le_zero.1 hcard)] at hb
      exact absurd hb (Finset.notMem_empty b)
    | succ n ih =>
      intro a hacyclic hcard
      refine .intro a fun b hab => ih b (fun c hbc => hacyclic c (.head hab hbc)) ?_
      have hfewer : S.filter (TransGen R b) ⊂ S.filter (TransGen R a) := by
        rw [Finset.ssubset_iff_of_subset]
        · refine ⟨b, Finset.mem_filter.2 ⟨htarget a b hab, .single hab⟩, ?_⟩
          exact fun hb => hacyclic b (.single hab) (Finset.mem_filter.1 hb).2
        · intro c hc
          obtain ⟨hcS, hbc⟩ := Finset.mem_filter.1 hc
          exact Finset.mem_filter.2 ⟨hcS, .head hab hbc⟩
      have := Finset.card_lt_card hfewer
      omega
  exact hreach _ a hacyclic le_rfl

/-- A walk that can be closed, when no edge of `E` that can be reached is on a cycle, has none. -/
theorem transGen_of_no_cycle_through {b : α} (h : TransGen (fun x y => R x y ∨ E x y) a b)
    (hE : ∀ c d, E c d → ReflTransGen (fun x y => R x y ∨ E x y) a c →
      ¬ ReflTransGen (fun x y => R x y ∨ E x y) d c)
    (hback : ReflTransGen (fun x y => R x y ∨ E x y) b a) : TransGen R a b := by
  induction h with
  | single hab =>
    obtain hR | hEab := hab
    · exact .single hR
    · exact absurd hback (hE _ _ hEab .refl)
  | @tail b c hab hbc ih =>
    obtain hR | hEbc := hbc
    · exact (ih (.head (.inl hR) hback)).tail hR
    · exact absurd (hback.trans hab.to_reflTransGen) (hE _ _ hEbc hab.to_reflTransGen)

/-- All nodes of a closed walk are left by an edge. -/
theorem transGen_within {S : α → Prop} (hsource : ∀ a b, R a b → S a) (h : TransGen R a a) :
    TransGen (fun x y => R x y ∧ S y) a a := by
  have hleft : ∀ b, TransGen R b a → S b := by
    intro b hb
    obtain ⟨c, hbc, -⟩ := TransGen.head'_iff.1 hb
    exact hsource b c hbc
  have hwalk : ∀ b, TransGen R b a → TransGen (fun x y => R x y ∧ S y) b a := by
    intro b hb
    induction hb using TransGen.head_induction_on with
    | single hba => exact .single ⟨hba, hleft a h⟩
    | head hbc hca ih => exact .head ⟨hbc, hleft _ hca⟩ ih
  exact hwalk a h

end Walks

/-! ## Depth-first search -/

section Search

/-- Visits one node after the other, up to the first that closes a cycle. -/
def anyCycle (visit : α → List α → Option (Bool × List α)) :
    List α → List α → Option (Bool × List α)
  | [], visited => some (false, visited)
  | node :: nodes, visited =>
    match visit node visited with
    | none => none
    | some (true, visited) => some (true, visited)
    | some (false, visited) => anyCycle visit nodes visited

/-- Whether a cycle can be reached from a node, and the nodes that are done with. `visiting` are
those on the way from where the search started. -/
def dfsCycle [DecidableEq α] (next : α → List α) : Nat → α → List α → List α →
    Option (Bool × List α)
  | 0, _, _, _ => none
  | fuel + 1, node, visiting, visited =>
    if node ∈ visited then some (false, visited)
    else if node ∈ visiting then some (true, visited)
    else
      (anyCycle (fun child visited => dfsCycle next fuel child (node :: visiting) visited)
        (next node) visited).map fun found => (found.1, node :: found.2)

/-- An edge that the search follows. -/
def Edge (next : α → List α) (a b : α) : Prop := b ∈ next a

variable {visit : α → List α → Option (Bool × List α)} {nodes visited visited' visiting : List α}
  {fuel : Nat} {node : α}

theorem anyCycle_false {good : List α → Prop}
    (hvisit : ∀ node visited visited', visit node visited = some (false, visited') →
      good visited → visited ⊆ visited' ∧ node ∈ visited' ∧ good visited')
    (h : anyCycle visit nodes visited = some (false, visited')) (hgood : good visited) :
    visited ⊆ visited' ∧ nodes ⊆ visited' ∧ good visited' := by
  induction nodes generalizing visited with
  | nil =>
    cases h
    exact ⟨List.Subset.refl _, nil_subset _, hgood⟩
  | cons node nodes ih =>
    unfold anyCycle at h
    split at h
    · cases h
    · cases h
    next visited₁ hnode =>
    obtain ⟨hsub₁, hmem₁, hgood₁⟩ := hvisit node visited visited₁ hnode hgood
    obtain ⟨hsub, hmem, hgood'⟩ := ih h hgood₁
    exact ⟨List.Subset.trans hsub₁ hsub, cons_subset.2 ⟨hsub hmem₁, hmem⟩, hgood'⟩

theorem anyCycle_isSome (hvisit : ∀ node ∈ nodes, ∀ visited, (visit node visited).isSome) :
    (anyCycle visit nodes visited).isSome := by
  induction nodes generalizing visited with
  | nil => rfl
  | cons node nodes ih =>
    have hnode := hvisit node mem_cons_self visited
    unfold anyCycle
    split
    case _ hnone =>
      rw [hnone] at hnode
      cases hnode
    · rfl
    · exact ih fun other hother => hvisit other (mem_cons_of_mem node hother)

theorem anyCycle_true (h : anyCycle visit nodes visited = some (true, visited')) :
    ∃ node ∈ nodes, ∃ visited, visit node visited = some (true, visited') := by
  induction nodes generalizing visited with
  | nil => cases h
  | cons node nodes ih =>
    unfold anyCycle at h
    split at h
    · cases h
    · cases h
      exact ⟨node, mem_cons_self, visited, by assumption⟩
    obtain ⟨other, hother, hvisit⟩ := ih h
    exact ⟨other, mem_cons_of_mem node hother, hvisit⟩

variable [DecidableEq α] {next : α → List α}

/-- A search that finds no cycle has seen only nodes with finite walks. -/
theorem dfsCycle_acc (h : dfsCycle next fuel node visiting visited = some (false, visited'))
    (hvisited : ∀ v ∈ visited, Acc (flip (Edge next)) v) :
    visited ⊆ visited' ∧ node ∈ visited' ∧ ∀ v ∈ visited', Acc (flip (Edge next)) v := by
  induction fuel generalizing node visiting visited visited' with
  | zero => cases h
  | succ fuel ih =>
    unfold dfsCycle at h
    split at h
    case isTrue hnode =>
      cases h
      exact ⟨List.Subset.refl _, hnode, hvisited⟩
    · split at h
      · cases h
      obtain ⟨⟨cyclic, visited₁⟩, hchildren, hfound⟩ := Option.map_eq_some_iff.1 h
      cases hfound
      obtain ⟨hsub, hmem, hacc⟩ := anyCycle_false
        (fun child visited visited' hchild hgood => ih hchild hgood) hchildren hvisited
      refine ⟨subset_cons_of_subset node hsub, mem_cons_self, ?_⟩
      intro v hv
      obtain rfl | hv := mem_cons.1 hv
      · exact .intro v fun b hb => hacc b (hmem hb)
      · exact hacc v hv

/-- A search that finds one has come back to a node that it came from. -/
theorem dfsCycle_closed (h : dfsCycle next fuel node visiting visited = some (true, visited'))
    (hway : ∀ v ∈ visiting, TransGen (Edge next) v node) : ∃ a, TransGen (Edge next) a a := by
  induction fuel generalizing node visiting visited visited' with
  | zero => cases h
  | succ fuel ih =>
    unfold dfsCycle at h
    split at h
    · cases h
    split at h
    case isTrue hnode => exact ⟨node, hway node hnode⟩
    obtain ⟨⟨cyclic, visited₁⟩, hchildren, hfound⟩ := Option.map_eq_some_iff.1 h
    cases hfound
    obtain ⟨child, hchild, visited₂, hsearch⟩ := anyCycle_true hchildren
    refine ih hsearch fun v hv => ?_
    obtain rfl | hv := mem_cons.1 hv
    · exact .single hchild
    · exact (hway v hv).tail hchild

theorem search_iff {found : Bool}
    (h : anyCycle (fun node visited => dfsCycle next fuel node [] visited) nodes [] =
      some (found, visited))
    (hnodes : ∀ a b, Edge next a b → a ∈ nodes) :
    found = true ↔ ∃ a, TransGen (Edge next) a a := by
  cases found with
  | true =>
    obtain ⟨node, -, _, hsearch⟩ := anyCycle_true h
    exact iff_of_true rfl (dfsCycle_closed hsearch (by simp))
  | false =>
    have hnone : ∀ v ∈ ([] : List α), Acc (flip (Edge next)) v := by simp
    obtain ⟨-, hseen, hacc⟩ := anyCycle_false
      (fun _ _ _ hnode hgood => dfsCycle_acc hnode hgood) h hnone
    refine iff_of_false Bool.false_ne_true fun ⟨a, hloop⟩ => ?_
    obtain ⟨b, hab, -⟩ := TransGen.head'_iff.1 hloop
    exact not_transGen_of_acc (hacc a (hseen (hnodes a b hab))) hloop

theorem dfsCycle_isSome (S : Finset α) (hclosed : ∀ a ∈ S, ∀ b ∈ next a, b ∈ S) (hnode : node ∈ S)
    (hfuel : (S.filter (· ∉ visiting)).card < fuel) :
    (dfsCycle next fuel node visiting visited).isSome := by
  induction fuel generalizing node visiting visited with
  | zero => omega
  | succ fuel ih =>
    unfold dfsCycle
    split
    · rfl
    split
    · rfl
    case isFalse hfresh =>
      rw [Option.isSome_map]
      refine anyCycle_isSome fun child hchild visited => ih (hclosed node hnode child hchild) ?_
      have hfewer : S.filter (· ∉ node :: visiting) ⊂ S.filter (· ∉ visiting) := by
        rw [Finset.ssubset_iff_of_subset]
        · exact ⟨node, Finset.mem_filter.2 ⟨hnode, hfresh⟩, by simp⟩
        · intro v hv
          simp only [Finset.mem_filter, mem_cons, not_or] at hv ⊢
          exact ⟨hv.1, hv.2.2⟩
      have := Finset.card_lt_card hfewer
      omega

end Search

end Graph

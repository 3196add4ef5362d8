import Mathlib.Data.List.Forall2
import Mathlib.Order.Bounds.Basic

/-!
# Sys.Gossip

Replicas that exchange maxima in pairs. `known` is what has reached a replica: after any sequence
of exchanges each one holds the greatest of the values known to it (`isGreatest_run`), so the
sequence matters only through what it makes known.
-/

namespace Gossip

open Function

variable {ι α : Type*} [DecidableEq ι]

/-- Both replicas of the pair get the given value. -/
def both {β : Type*} (f : ι → β) (p : ι × ι) (b : β) : ι → β :=
  update (update f p.1 b) p.2 b

variable {β : Type*} {p : ι × ι} {i : ι}

theorem both_of_mem (f : ι → β) (b : β) (h : i = p.1 ∨ i = p.2) : both f p b i = b := by
  by_cases h₂ : i = p.2
  · rw [both, h₂, update_self]
  · rw [both, update_of_ne h₂, h.resolve_right h₂, update_self]

theorem both_of_not_mem (f : ι → β) (b : β) (h : ¬(i = p.1 ∨ i = p.2)) : both f p b i = f i := by
  rw [not_or] at h
  rw [both, update_of_ne h.2, update_of_ne h.1]

def share (known : ι → Set ι) (p : ι × ι) : ι → Set ι := both known p (known p.1 ∪ known p.2)

/-- The replicas whose first values have reached each replica. -/
def known (ps : List (ι × ι)) : ι → Set ι := ps.foldl share fun i => {i}

theorem share_swap (k : ι → Set ι) (p : ι × ι) : share k p.swap = share k p := by
  funext i
  rw [share, share, Set.union_comm]
  by_cases h : i = p.1 ∨ i = p.2
  · rw [both_of_mem _ _ h, both_of_mem _ _ (Or.symm h)]
    rfl
  · rw [both_of_not_mem _ _ h, both_of_not_mem _ _ (mt Or.symm h)]

theorem known_swaps {ps qs : List (ι × ι)}
    (h : List.Forall₂ (fun p q => q = p ∨ q = p.swap) ps qs) : known qs = known ps := by
  have hfold : ∀ k : ι → Set ι, qs.foldl share k = ps.foldl share k := by
    induction h with
    | nil => intro k; rfl
    | cons hpq _ ih =>
      intro k
      rcases hpq with rfl | rfl
      · exact ih _
      · rw [List.foldl_cons, List.foldl_cons, share_swap]
        exact ih _
  exact hfold _

variable [LinearOrder α]

def exchange (v : ι → α) (p : ι × ι) : ι → α := both v p (max (v p.1) (v p.2))

theorem isGreatest_exchange {v₀ v : ι → α} {k : ι → Set ι}
    (h : ∀ i, IsGreatest (v₀ '' k i) (v i)) (p : ι × ι) (i : ι) :
    IsGreatest (v₀ '' share k p i) (exchange v p i) := by
  by_cases hi : i = p.1 ∨ i = p.2
  · rw [share, exchange, both_of_mem _ _ hi, both_of_mem _ _ hi, Set.image_union]
    exact (h p.1).union (h p.2)
  · rw [share, exchange, both_of_not_mem _ _ hi, both_of_not_mem _ _ hi]
    exact h i

theorem isGreatest_run (v : ι → α) (ps : List (ι × ι)) (i : ι) :
    IsGreatest (v '' known ps i) (ps.foldl exchange v i) := by
  -- what is known and what is held change together, so the induction is on both
  have hrun : ∀ (ps : List (ι × ι)) {k : ι → Set ι} {w : ι → α},
      (∀ j, IsGreatest (v '' k j) (w j)) →
      IsGreatest (v '' ps.foldl share k i) (ps.foldl exchange w i) := by
    intro ps
    induction ps with
    | nil => intro k w h; exact h i
    | cons p ps ih => intro k w h; exact ih (isGreatest_exchange h p)
  refine hrun ps fun j => ?_
  rw [Set.image_singleton]
  exact isGreatest_singleton

end Gossip

import Mathlib.Data.Fintype.EquivFin
import Mathlib.Data.Fintype.Lattice
import Mathlib.Tactic.FinCases
import Traverse.Storage.Sync
import Traverse.Sys.Gossip

/-!
# Storage.Converge

Replicas in memory that synchronize in pairs, in any order and with either side as the local one.
Per key, a synchronization is an exchange of maxima of the stamps (`ranks_syncAll`), so a replica
ends with a record of the greatest stamp that has reached it (`replica_holds_newest`). If no two
different records of a key have the same stamp, that determines the record and the replicas converge
(`sync_converges`); otherwise the local side wins (`tie_depends_on_side`).
-/

namespace Traverse.Storage

open Function Gossip

variable {ν ι : Type}

/-- The ranks of the records of one key. -/
def ranks (stores : ι → InMemoryDataStore ν) (k : String) (i : ι) : WithBot (Nat ×ₗ String) :=
  rank ((stores i).view k)

/-- Records of one key with the same stamp are the same. -/
def StampsDecide (stores : ι → InMemoryDataStore ν) : Prop :=
  ∀ k i j r r', (stores i).view k = some r → (stores j).view k = some r' → r.stamp = r'.stamp →
    r = r'

variable {stores : ι → InMemoryDataStore ν} {k : String} {i j : ι} {ps : List (ι × ι)}

theorem StampsDecide.view_eq (h : StampsDecide stores)
    (hrank : ranks stores k i = ranks stores k j) :
    (stores i).view k = (stores j).view k := by
  simp only [ranks, rank] at hrank
  cases hi : (stores i).view k with
  | none =>
    cases hj : (stores j).view k with
    | none => rfl
    | some r' => rw [hi, hj] at hrank; cases hrank
  | some r =>
    cases hj : (stores j).view k with
    | none => rw [hi, hj] at hrank; cases hrank
    | some r' =>
      rw [hi, hj] at hrank
      rw [h k i j r r' hi hj (Option.some.inj hrank)]

variable [DecidableEq ι]

/-- For every key and replica, a replica with a greatest record of the key has reached it. -/
def Covers (stores : ι → InMemoryDataStore ν) (ps : List (ι × ι)) : Prop :=
  ∀ k j, ∃ i ∈ known ps j, ∀ i', ranks stores k i' ≤ ranks stores k i

theorem covers_of_known [Finite ι] (h : ∀ i j, i ∈ known ps j) : Covers stores ps := by
  intro k j
  obtain ⟨i, hi⟩ := @Finite.exists_max ι _ _ ⟨j⟩ _ (ranks stores k)
  exact ⟨i, h i j, hi⟩

variable [DecidableEq ν]

def syncPair (stores : ι → InMemoryDataStore ν) (p : ι × ι) : ι → InMemoryDataStore ν :=
  let after := (syncAdapters inMemory inMemory (stores p.1) (stores p.2)).2
  update (update stores p.1 after.1) p.2 after.2

def syncAll (stores : ι → InMemoryDataStore ν) (ps : List (ι × ι)) : ι → InMemoryDataStore ν :=
  ps.foldl syncPair stores

theorem view_syncPair (stores : ι → InMemoryDataStore ν) (p : ι × ι) (i : ι) (k : String) :
    (syncPair stores p i).view k = both (fun j => (stores j).view k) p
      (merged ((stores p.1).view k) ((stores p.2).view k)) i := by
  obtain ⟨hl, hr⟩ := syncAdapters_inMemory_view (stores p.1) (stores p.2)
  by_cases h₂ : i = p.2
  · rw [both_of_mem _ _ (.inr h₂), syncPair, h₂, update_self]
    exact hr k
  by_cases h₁ : i = p.1
  · rw [both_of_mem _ _ (.inl h₁), syncPair, update_of_ne h₂, h₁,
      update_self]
    exact hl k
  · rw [both_of_not_mem _ _ (not_or.2 ⟨h₁, h₂⟩), syncPair, update_of_ne h₂,
      update_of_ne h₁]

theorem ranks_syncPair (stores : ι → InMemoryDataStore ν) (p : ι × ι) (k : String) :
    ranks (syncPair stores p) k = exchange (ranks stores k) p := by
  funext i
  rw [ranks, view_syncPair, exchange]
  by_cases h : i = p.1 ∨ i = p.2
  · rw [both_of_mem _ _ h, both_of_mem _ _ h, rank_merged]
    rfl
  · rw [both_of_not_mem _ _ h, both_of_not_mem _ _ h]
    rfl

theorem ranks_syncAll (k : String) (ps : List (ι × ι)) :
    ∀ stores : ι → InMemoryDataStore ν,
      ranks (syncAll stores ps) k = ps.foldl exchange (ranks stores k) := by
  induction ps with
  | nil => intro stores; rfl
  | cons p ps ih =>
    intro stores
    rw [List.foldl_cons, ← ranks_syncPair]
    exact ih (syncPair stores p)

/-- If every replica holds a record that has reached it, it still does after synchronizing. -/
theorem view_syncAll_known {first : ι → InMemoryDataStore ν} (ps : List (ι × ι)) :
    ∀ {K : ι → Set ι} {stores : ι → InMemoryDataStore ν},
      (∀ j, ∃ i ∈ K j, (stores j).view k = (first i).view k) →
      ∀ j, ∃ i ∈ ps.foldl share K j, (syncAll stores ps j).view k = (first i).view k := by
  induction ps with
  | nil => exact fun h => h
  | cons p ps ih =>
    intro K stores h
    refine ih fun j => ?_
    rw [view_syncPair, share]
    by_cases hj : j = p.1 ∨ j = p.2
    · rw [both_of_mem _ _ hj, both_of_mem _ _ hj]
      rcases merged_choice ((stores p.1).view k) ((stores p.2).view k) with hm | hm
      · obtain ⟨i, hi, hview⟩ := h p.1
        exact ⟨i, .inl hi, hm.trans hview⟩
      · obtain ⟨i, hi, hview⟩ := h p.2
        exact ⟨i, .inr hi, hm.trans hview⟩
    · rw [both_of_not_mem _ _ hj, both_of_not_mem _ _ hj]
      exact h j

theorem view_syncAll_mem (k : String) (ps : List (ι × ι))
    (stores : ι → InMemoryDataStore ν) (i : ι) :
    ∃ j ∈ known ps i, (syncAll stores ps i).view k = (stores j).view k :=
  view_syncAll_known ps (fun j => ⟨j, Set.mem_singleton j, rfl⟩) i

/-- Whatever the stamps are, and whoever synchronizes with whom: of every key a replica holds a
record that has reached it, and none that has reached it is newer. -/
theorem replica_holds_newest (stores : ι → InMemoryDataStore ν) (ps : List (ι × ι)) (k : String)
    (j : ι) : ∃ i ∈ known ps j, (syncAll stores ps j).view k = (stores i).view k ∧
      ∀ i' ∈ known ps j, ranks stores k i' ≤ ranks stores k i := by
  obtain ⟨i, hi, hview⟩ := view_syncAll_mem k ps stores j
  refine ⟨i, hi, hview, fun i' hi' => ?_⟩
  have hle := (isGreatest_run (ranks stores k) ps j).2 (Set.mem_image_of_mem _ hi')
  rw [← ranks_syncAll] at hle
  exact hle.trans_eq (congrArg rank hview)

/-- After any synchronizations, replicas with the same rank of a key hold the same record. -/
theorem StampsDecide.view_syncAll (h : StampsDecide stores) {ps' : List (ι × ι)}
    (hrank : ranks (syncAll stores ps) k i = ranks (syncAll stores ps') k j) :
    (syncAll stores ps i).view k = (syncAll stores ps' j).view k := by
  obtain ⟨i', -, hi⟩ := view_syncAll_mem k ps stores i
  obtain ⟨j', -, hj⟩ := view_syncAll_mem k ps' stores j
  rw [hi, hj]
  refine h.view_eq ?_
  rw [ranks, ranks, hi, hj] at hrank
  exact hrank

theorem Covers.greatest (h : Covers stores ps) (k : String) (j : ι) :
    IsGreatest (Set.range (ranks stores k)) (ranks (syncAll stores ps) k j) := by
  obtain ⟨i, hi, hmax⟩ := h k j
  have hrun := isGreatest_run (ranks stores k) ps j
  rw [← ranks_syncAll] at hrun
  refine ⟨Set.image_subset_range _ _ hrun.1, ?_⟩
  rintro _ ⟨i', rfl⟩
  exact (hmax i').trans (hrun.2 (Set.mem_image_of_mem _ hi))

/-- If stamps decide, then after every sequence of synchronizations that brings a greatest record
of each key to each replica all replicas hold the same, which is the same for all such sequences.
Which of the two stores is the local one makes no difference in any sequence, in particular in one
synchronization. -/
theorem sync_converges {stores : ι → InMemoryDataStore ν} (hstamps : StampsDecide stores) :
    (∀ ps qs, Covers stores ps → Covers stores qs →
      ∀ i j, syncAll stores ps i = syncAll stores qs j) ∧
    (∀ ps qs, List.Forall₂ (fun p q => q = p ∨ q = p.swap) ps qs →
      syncAll stores ps = syncAll stores qs) ∧
    ∀ i j, syncPair stores (i, j) = syncPair stores (j, i) := by
  have hsides : ∀ ps qs, List.Forall₂ (fun p q => q = p ∨ q = p.swap) ps qs →
      syncAll stores ps = syncAll stores qs := by
    intro ps qs hswaps
    refine funext fun i => InMemoryDataStore.ext_view (funext fun k => ?_)
    have hrun := isGreatest_run (ranks stores k) qs i
    rw [known_swaps hswaps] at hrun
    refine hstamps.view_syncAll ?_
    rw [ranks_syncAll, ranks_syncAll]
    exact (isGreatest_run (ranks stores k) ps i).unique hrun
  refine ⟨fun ps qs hps hqs i j => InMemoryDataStore.ext_view (funext fun k => ?_), hsides,
    fun i j => hsides [(i, j)] [(j, i)] (.cons (.inr rfl) .nil)⟩
  exact hstamps.view_syncAll ((hps.greatest k i).unique (hqs.greatest k j))

/-- One record for each of three replicas, two of them of the same key. -/
def threeRecords : Fin 3 → StateRecord Nat
  | 0 => stored "a" "writer-a" 1 10
  | 1 => stored "a" "writer-b" 2 20
  | 2 => stored "b" "writer-c" 1 30

def threeStores (i : Fin 3) : InMemoryDataStore Nat := .insert .new (threeRecords i)

theorem stampsDecide_threeStores : StampsDecide threeStores := by
  have hrecord : ∀ k i r, (threeStores i).view k = some r → r = threeRecords i := by
    intro k i r hr
    rw [threeStores, InMemoryDataStore.view_insert, Contents.put, update_apply] at hr
    split at hr
    · exact (Option.some.inj hr).symm
    · simp [InMemoryDataStore.view, InMemoryDataStore.new] at hr
  have hwriter : ∀ i j, (threeRecords i).writerId = (threeRecords j).writerId → i = j := by decide
  intro k i j r r' hi hj hstamp
  obtain rfl := hrecord k i r hi
  obtain rfl := hrecord k j r' hj
  rw [hwriter i j (congrArg Prod.snd (toLex.injective hstamp))]

theorem sync_converges_threeStores : StampsDecide threeStores ∧
    Covers threeStores [(0, 1), (1, 2), (0, 1)] ∧ Covers threeStores [(2, 1), (0, 1), (2, 0)] ∧
    syncAll threeStores [(0, 1), (1, 2), (0, 1)] 2 =
      syncAll threeStores [(2, 1), (0, 1), (2, 0)] 0 := by
  have hone : Covers threeStores [(0, 1), (1, 2), (0, 1)] := by
    refine covers_of_known fun i j => ?_
    fin_cases i <;> fin_cases j <;> simp [known, share, both]
  have htwo : Covers threeStores [(2, 1), (0, 1), (2, 0)] := by
    refine covers_of_known fun i j => ?_
    fin_cases i <;> fin_cases j <;> simp [known, share, both]
  exact ⟨stampsDecide_threeStores, hone, htwo,
    (sync_converges stampsDecide_threeStores).1 _ _ hone htwo 2 0⟩

/-- The local side wins between different records of one stamp. -/
theorem tie_depends_on_side : ∃ stores : Bool → InMemoryDataStore Nat,
    (syncPair stores (false, true) false).view "a" = some (stored "a" "writer-a" 1 10) ∧
    (syncPair stores (true, false) false).view "a" = some (stored "a" "writer-a" 1 20) :=
  ⟨fun i => .insert .new (if i then stored "a" "writer-a" 1 20 else stored "a" "writer-a" 1 10),
    rfl, rfl⟩

end Traverse.Storage

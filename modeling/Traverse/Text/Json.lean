import Mathlib.Data.String.Basic
import Traverse.Text.Lines

/-!
# Text.Json

Compact JSON without fractions. The printer escapes what a JSON writer must (quote, backslash,
control characters) and nothing else, so its output is one line (`newline_not_mem_encode`).
-/

namespace Json

open Lines List

inductive Value where
  | null
  | bool (b : Bool)
  | int (i : Int)
  | str (s : String)
  | arr (items : List Value)
  | obj (fields : List (String × Value))

/-! ## Printing -/

def hexDigit (n : Nat) : Char := (Nat.toDigits 16 n).headD '0'

def escape (c : Char) : List Char :=
  if c = '"' then ['\\', '"']
  else if c = '\\' then ['\\', '\\']
  else if c = '\n' then ['\\', 'n']
  else if c = '\r' then ['\\', 'r']
  else if c = '\t' then ['\\', 't']
  else if c = '\x08' then ['\\', 'b']
  else if c = '\x0c' then ['\\', 'f']
  else if c.toNat < 32 then ['\\', 'u', '0', '0', hexDigit (c.toNat / 16), hexDigit (c.toNat % 16)]
  else [c]

def printStr (s : List Char) : List Char := '"' :: s.flatMap escape ++ ['"']

def printInt (i : Int) : List Char :=
  if i < 0 then '-' :: Nat.toDigits 10 i.natAbs else Nat.toDigits 10 i.natAbs

mutual

def print : Value → List Char
  | .null => ['n', 'u', 'l', 'l']
  | .bool true => ['t', 'r', 'u', 'e']
  | .bool false => ['f', 'a', 'l', 's', 'e']
  | .int i => printInt i
  | .str s => printStr s.toList
  | .arr items => '[' :: (printItems items).tail ++ [']']
  | .obj fields => '{' :: (printFields fields).tail ++ ['}']

def printItems : List Value → List Char
  | [] => []
  | v :: vs => ',' :: print v ++ printItems vs

def printFields : List (String × Value) → List Char
  | [] => []
  | (k, v) :: fs => ',' :: printStr k.toList ++ ':' :: print v ++ printFields fs

end

/-! ## Bytes -/

def encode (v : Value) : Bytes := (print v).flatMap String.utf8EncodeChar

theorem newline_eq_ofNat {n : Nat} (h : newline = UInt8.ofNat n) : n % 256 = 10 := by
  have := congrArg UInt8.toNat h
  simpa [newline] using this.symm

theorem newline_not_mem_utf8 {c : Char} (hc : c ≠ '\n') : newline ∉ String.utf8EncodeChar c := by
  have hv : c.val.toNat ≠ 10 := fun h => hc (Char.ext (UInt32.toNat_inj.1 h))
  intro hm
  unfold String.utf8EncodeChar at hm
  simp only at hm
  split at hm
  · rw [mem_singleton] at hm
    have := newline_eq_ofNat hm
    omega
  split at hm
  · simp only [mem_cons, not_mem_nil, or_false] at hm
    rcases hm with hm | hm <;> have := newline_eq_ofNat hm <;> omega
  split at hm
  · simp only [mem_cons, not_mem_nil, or_false] at hm
    rcases hm with hm | hm | hm <;> have := newline_eq_ofNat hm <;> omega
  · simp only [mem_cons, not_mem_nil, or_false] at hm
    rcases hm with hm | hm | hm | hm <;> have := newline_eq_ofNat hm <;> omega

theorem hexDigit_ne_newline : ∀ n < 16, hexDigit n ≠ '\n' := by decide

theorem newline_not_mem_escape (c : Char) : '\n' ∉ escape c := by
  unfold escape
  repeat' split
  all_goals try decide
  · next h =>
    have h1 := hexDigit_ne_newline (c.toNat / 16) (by omega)
    have h2 := hexDigit_ne_newline (c.toNat % 16) (by omega)
    simp [h1.symm, h2.symm]
  · next h _ _ _ _ _ => simpa using fun e => h e.symm

theorem newline_not_mem_printStr (s : List Char) : '\n' ∉ printStr s := by
  have : '\n' ∉ s.flatMap escape := by
    intro h
    obtain ⟨c, _, hc⟩ := mem_flatMap.1 h
    exact newline_not_mem_escape c hc
  simp [printStr, this]

theorem newline_not_mem_printInt (i : Int) : '\n' ∉ printInt i := by
  have h : '\n' ∉ Nat.toDigits 10 i.natAbs := by
    intro hm
    have := Nat.isDigit_of_mem_toDigits (by decide) (Nat.le_refl 10) hm
    revert this
    decide
  unfold printInt
  split
  · simp [h]
  · exact h

mutual

theorem newline_not_mem_print : ∀ v : Value, '\n' ∉ print v
  | .null | .bool true | .bool false => by decide
  | .int i => newline_not_mem_printInt i
  | .str s => newline_not_mem_printStr s.toList
  | .arr items => by
    have h := newline_not_mem_printItems items
    simp only [print, cons_append, mem_cons, mem_append, not_mem_nil, or_false]
    rintro (h' | h' | h')
    · exact absurd h' (by decide)
    · exact h (mem_of_mem_tail h')
    · exact absurd h' (by decide)
  | .obj fields => by
    have h := newline_not_mem_printFields fields
    simp only [print, cons_append, mem_cons, mem_append, not_mem_nil, or_false]
    rintro (h' | h' | h')
    · exact absurd h' (by decide)
    · exact h (mem_of_mem_tail h')
    · exact absurd h' (by decide)

theorem newline_not_mem_printItems : ∀ vs : List Value, '\n' ∉ printItems vs
  | [] => by simp [printItems]
  | v :: vs => by
    simp [printItems, newline_not_mem_print v, newline_not_mem_printItems vs]

theorem newline_not_mem_printFields : ∀ fs : List (String × Value), '\n' ∉ printFields fs
  | [] => by simp [printFields]
  | (k, v) :: fs => by
    simp [printFields, newline_not_mem_printStr k.toList, newline_not_mem_print v,
      newline_not_mem_printFields fs]

end

theorem print_ne_nil (v : Value) : print v ≠ [] := by
  cases v with
  | bool b => cases b <;> exact cons_ne_nil _ _
  | int i =>
    unfold print printInt
    split
    · exact cons_ne_nil _ _
    · exact Nat.toDigits_ne_nil
  | null | str | arr | obj => exact cons_ne_nil _ _

theorem newline_not_mem_encode (v : Value) : newline ∉ encode v := by
  intro h
  obtain ⟨c, hc, hb⟩ := mem_flatMap.1 h
  refine newline_not_mem_utf8 (fun e => ?_) hb
  subst e
  exact newline_not_mem_print v hc

theorem isLine_encode (v : Value) : IsLine (encode v) where
  ne_nil := by
    obtain ⟨c, cs, h⟩ := exists_cons_of_ne_nil (print_ne_nil v)
    have hlen := String.length_utf8EncodeChar c
    have hpos := Char.utf8Size_pos c
    intro hnil
    rw [encode, h, flatMap_cons, append_eq_nil_iff] at hnil
    rw [hnil.1] at hlen
    simp at hlen
    omega
  no_newline := newline_not_mem_encode v

end Json

/-! ## Bytes as pairs of lower-case hexadecimal digits

Decoders differ in the digits they take, so the digit is a parameter of `pairs`. -/

namespace Hex

open Lines

def encode (bytes : Bytes) : List Char :=
  bytes.flatMap fun b => [Json.hexDigit (b.toNat / 16), Json.hexDigit (b.toNat % 16)]

def pairs (nibble : Char → Option Nat) : List Char → Option Bytes
  | [] => some []
  | [_] => none
  | high :: low :: cs =>
    match nibble high, nibble low, pairs nibble cs with
    | some h, some l, some bytes => some (UInt8.ofNat (h * 16 + l) :: bytes)
    | _, _, _ => none

theorem pairs_encode {nibble : Char → Option Nat}
    (h : ∀ n < 16, nibble (Json.hexDigit n) = some n) (bytes : Bytes) :
    pairs nibble (encode bytes) = some bytes := by
  induction bytes with
  | nil => rfl
  | cons b bytes ih =>
    have hb : b.toNat < 256 := b.toNat_lt
    have hhigh := h (b.toNat / 16) (by omega)
    have hlow := h (b.toNat % 16) (by omega)
    have hbyte : UInt8.ofNat (b.toNat / 16 * 16 + b.toNat % 16) = b := by
      rw [Nat.div_add_mod']
      exact UInt8.ofNat_toNat
    show pairs nibble (_ :: _ :: encode bytes) = _
    simp only [pairs, hhigh, hlow, ih, hbyte]

theorem utf8Size_hexDigit : ∀ n < 16, (Json.hexDigit n).utf8Size = 1 := by decide

theorem utf8Len_encode (bytes : Bytes) : String.utf8Len (encode bytes) = 2 * bytes.length := by
  induction bytes with
  | nil => rfl
  | cons b bytes ih =>
    have hb : b.toNat < 256 := b.toNat_lt
    have hhigh := utf8Size_hexDigit (b.toNat / 16) (by omega)
    have hlow := utf8Size_hexDigit (b.toNat % 16) (by omega)
    show String.utf8Len (_ :: _ :: encode bytes) = _
    rw [String.utf8Len_cons, String.utf8Len_cons, ih, hhigh, hlow, List.length_cons]
    omega

end Hex

import Traverse.Text.Json

/-!
# Text.JsonGrammar

The JSON grammar on documents whose numbers are integers: `Denotes p v text` says that `text` is one
of the texts of `v`, with any white space between the tokens and any way to escape a character; its
integers are those that meet `p`. In a document (`Element`) they fit 64 bits, signed or unsigned;
`-0` is not one of them.

`read` is a reader of the grammar (`read_of_element`), so a text has one meaning at most. What the
printer writes is a text of the value (`denotes_print`); `decode_encode` is the round trip on bytes.
-/

namespace Json

open Lines List

/-! ## The grammar -/

def isBlank (c : Char) : Bool := c = ' ' || c = '\t' || c = '\n' || c = '\r'

def Blank (text : List Char) : Prop := ∀ c ∈ text, isBlank c = true

def unescape : Char → Option Char
  | '"' => some '"'
  | '\\' => some '\\'
  | '/' => some '/'
  | 'n' => some '\n'
  | 'r' => some '\r'
  | 't' => some '\t'
  | 'b' => some '\x08'
  | 'f' => some '\x0c'
  | _ => none

def hexDigitValue (c : Char) : Option Nat :=
  if '0' ≤ c ∧ c ≤ '9' then some (c.toNat - 48)
  else if 'a' ≤ c ∧ c ≤ 'f' then some (c.toNat - 87)
  else if 'A' ≤ c ∧ c ≤ 'F' then some (c.toNat - 55)
  else none

/-- The code unit that four hexadecimal digits stand for. -/
def codeUnit (a b c d : Char) : Option Nat := do
  let a ← hexDigitValue a
  let b ← hexDigitValue b
  let c ← hexDigitValue c
  let d ← hexDigitValue d
  return a * 4096 + b * 256 + c * 16 + d

def isHighSurrogate (n : Nat) : Bool := 0xD800 ≤ n && n < 0xDC00

def isLowSurrogate (n : Nat) : Bool := 0xDC00 ≤ n && n < 0xE000

def ofSurrogates (high low : Nat) : Char :=
  Char.ofNat (0x10000 + (high - 0xD800) * 0x400 + (low - 0xDC00))

/-- What stands between the quotes for a string. -/
inductive StringText : List Char → List Char → Prop
  | nil : StringText [] []
  | plain {c : Char} {s text : List Char} : ¬c.toNat < 32 → c ≠ '"' → c ≠ '\\' →
      StringText s text → StringText (c :: s) (c :: text)
  | short {e c : Char} {s text : List Char} : unescape e = some c → StringText s text →
      StringText (c :: s) ('\\' :: e :: text)
  | unicode {a b c d : Char} {n : Nat} {s text : List Char} : codeUnit a b c d = some n →
      isHighSurrogate n = false → isLowSurrogate n = false → StringText s text →
      StringText (Char.ofNat n :: s) ('\\' :: 'u' :: a :: b :: c :: d :: text)
  | pair {a b c d e f g h : Char} {high low : Nat} {s text : List Char} :
      codeUnit a b c d = some high → isHighSurrogate high = true →
      codeUnit e f g h = some low → isLowSurrogate low = true → StringText s text →
      StringText (ofSurrogates high low :: s)
        ('\\' :: 'u' :: a :: b :: c :: d :: '\\' :: 'u' :: e :: f :: g :: h :: text)

mutual

variable (p : Int → Prop)

def Denotes : Value → List Char → Prop
  | .null, text => text = ['n', 'u', 'l', 'l']
  | .bool true, text => text = ['t', 'r', 'u', 'e']
  | .bool false, text => text = ['f', 'a', 'l', 's', 'e']
  | .int i, text => p i ∧ text = printInt i
  | .str s, text => ∃ body, StringText s.toList body ∧ text = '"' :: (body ++ ['"'])
  | .arr items, text =>
    (items = [] ∧ ∃ ws, Blank ws ∧ text = '[' :: (ws ++ [']'])) ∨
    ∃ body, DenotesItems items (',' :: body) ∧ text = '[' :: (body ++ [']'])
  | .obj fields, text =>
    (fields = [] ∧ ∃ ws, Blank ws ∧ text = '{' :: (ws ++ ['}'])) ∨
    ∃ body, DenotesFields fields (',' :: body) ∧ text = '{' :: (body ++ ['}'])

def DenotesItems : List Value → List Char → Prop
  | [], text => text = []
  | v :: vs, text => ∃ before body after rest, Blank before ∧ Denotes v body ∧ Blank after ∧
      DenotesItems vs rest ∧ text = ',' :: (before ++ body ++ after ++ rest)

def DenotesFields : List (String × Value) → List Char → Prop
  | [], text => text = []
  | (k, v) :: fs, text => ∃ lead name gap before body after rest, Blank lead ∧
      StringText k.toList name ∧ Blank gap ∧ Blank before ∧ Denotes v body ∧ Blank after ∧
      DenotesFields fs rest ∧
      text = ',' ::
        (lead ++ '"' :: (name ++ '"' :: (gap ++ ':' :: (before ++ body ++ after ++ rest))))

end

/-- An integer of 64 bits. -/
def Fits (i : Int) : Prop := -2 ^ 63 ≤ i ∧ i < 2 ^ 64

/-- A value with white space around it: a whole document. -/
def Element (v : Value) (text : List Char) : Prop :=
  ∃ before body after, Blank before ∧ Denotes Fits v body ∧ Blank after ∧
    text = before ++ body ++ after

/-! ## Reading -/

def skip (text : List Char) : List Char := text.dropWhile isBlank

def readString : List Char → Option (List Char × List Char)
  | [] => none
  | '"' :: cs => some ([], cs)
  | '\\' :: 'u' :: a :: b :: c :: d :: cs =>
    match codeUnit a b c d with
    | none => none
    | some n =>
      if isHighSurrogate n then
        match cs with
        | '\\' :: 'u' :: e :: f :: g :: h :: cs =>
          match codeUnit e f g h with
          | none => none
          | some low =>
            if isLowSurrogate low then
              (readString cs).map fun (s, rest) => (ofSurrogates n low :: s, rest)
            else none
        | _ => none
      else if isLowSurrogate n then none
      else (readString cs).map fun (s, rest) => (Char.ofNat n :: s, rest)
  | '\\' :: e :: cs =>
    match unescape e with
    | some c => (readString cs).map fun (s, rest) => (c :: s, rest)
    | none => none
  | c :: cs =>
    if c.toNat < 32 then none else (readString cs).map fun (s, rest) => (c :: s, rest)

def parseNat (cs : List Char) : Option (Nat × List Char) :=
  match cs.takeWhile Char.isDigit with
  | [] => none
  | ds => some (Nat.ofDigitChars 10 ds 0, cs.dropWhile Char.isDigit)

mutual

def readValue : Nat → List Char → Option (Value × List Char)
  | 0, _ => none
  | fuel + 1, cs =>
    match cs with
    | 'n' :: 'u' :: 'l' :: 'l' :: cs => some (.null, cs)
    | 't' :: 'r' :: 'u' :: 'e' :: cs => some (.bool true, cs)
    | 'f' :: 'a' :: 'l' :: 's' :: 'e' :: cs => some (.bool false, cs)
    | '"' :: cs => (readString cs).map fun (s, rest) => (.str (String.ofList s), rest)
    | '[' :: cs =>
      match skip cs with
      | ']' :: rest => some (.arr [], rest)
      | _ => (readItems fuel (',' :: cs)).map fun (vs, rest) => (.arr vs, rest)
    | '{' :: cs =>
      match skip cs with
      | '}' :: rest => some (.obj [], rest)
      | _ => (readFields fuel (',' :: cs)).map fun (fs, rest) => (.obj fs, rest)
    | '-' :: cs => (parseNat cs).map fun (n, rest) => (.int (-(n : Int)), rest)
    | cs => (parseNat cs).map fun (n, rest) => (.int n, rest)

def readItems : Nat → List Char → Option (List Value × List Char)
  | 0, _ => none
  | fuel + 1, cs =>
    match cs with
    | ']' :: cs => some ([], cs)
    | ',' :: cs =>
      match readValue fuel (skip cs) with
      | some (v, cs) => (readItems fuel (skip cs)).map fun (vs, rest) => (v :: vs, rest)
      | none => none
    | _ => none

def readFields : Nat → List Char → Option (List (String × Value) × List Char)
  | 0, _ => none
  | fuel + 1, cs =>
    match cs with
    | '}' :: cs => some ([], cs)
    | ',' :: cs =>
      match skip cs with
      | '"' :: cs =>
        match readString cs with
        | some (k, cs) =>
          match skip cs with
          | ':' :: cs =>
            match readValue fuel (skip cs) with
            | some (v, cs) =>
              (readFields fuel (skip cs)).map fun (fs, rest) => ((String.ofList k, v) :: fs, rest)
            | none => none
          | _ => none
        | none => none
      | _ => none
    | _ => none

end

/-- One value, white space around it, and nothing else. -/
def read (cs : List Char) : Option Value :=
  match readValue (cs.length + 1) (skip cs) with
  | some (v, rest) => if skip rest = [] then some v else none
  | none => none

/-! ## Tokens -/

variable {ws rest body : List Char} {c d : Char} {fuel : Nat} {p : Int → Prop}

theorem digit_head (n : Nat) : ∃ d ds, Nat.toDigits 10 n = d :: ds ∧ d.isDigit = true := by
  obtain ⟨d, ds, h⟩ := exists_cons_of_ne_nil (Nat.toDigits_ne_nil (n := n) (b := 10))
  have hmem : d ∈ Nat.toDigits 10 n := by rw [h]; simp
  exact ⟨d, ds, h, Nat.isDigit_of_mem_toDigits (by decide) (Nat.le_refl 10) hmem⟩

/-- A number printed before `rest` ends where it should. -/
def NoDigit (rest : List Char) : Prop := ∀ c ∈ rest.head?, c.isDigit = false

theorem takeWhile_digits {ds : List Char} (hd : ∀ c ∈ ds, c.isDigit = true) (hr : NoDigit rest) :
    (ds ++ rest).takeWhile Char.isDigit = ds ∧
      (ds ++ rest).dropWhile Char.isDigit = rest := by
  rw [takeWhile_append_of_pos hd, dropWhile_append_of_pos hd]
  cases rest with
  | nil => simp
  | cons c cs => simp [hr c rfl]

theorem parseNat_toDigits (n : Nat) (hr : NoDigit rest) :
    parseNat (Nat.toDigits 10 n ++ rest) = some (n, rest) := by
  have hd : ∀ c ∈ Nat.toDigits 10 n, c.isDigit = true := fun c hc =>
    Nat.isDigit_of_mem_toDigits (by decide) (Nat.le_refl 10) hc
  obtain ⟨h1, h2⟩ := takeWhile_digits hd hr
  unfold parseNat
  rw [h1, h2]
  cases h : Nat.toDigits 10 n with
  | nil => exact absurd h Nat.toDigits_ne_nil
  | cons d ds => simp only [← h, Nat.ofDigitChars_ten_toDigits]

theorem noDigit_cons (h : c.isDigit = false) (rest : List Char) : NoDigit (c :: rest) := by
  intro d hd
  cases hd
  exact h

theorem skip_blank (h : Blank ws) (rest : List Char) : skip (ws ++ rest) = skip rest := by
  rw [skip, dropWhile_append_of_pos h, skip]

theorem skip_cons (h : isBlank c = false) (rest : List Char) : skip (c :: rest) = c :: rest := by
  rw [skip, dropWhile_cons_of_neg (by simp [h])]

theorem readString_plain (hlow : ¬c.toNat < 32) (hquote : c ≠ '"') (hback : c ≠ '\\')
    (cs : List Char) :
    readString (c :: cs) = (readString cs).map fun (s, rest) => (c :: s, rest) := by
  rw [readString]
  · rw [if_neg hlow]
  all_goals simp_all

theorem readString_short {e c : Char} (h : unescape e = some c) (cs : List Char) :
    readString ('\\' :: e :: cs) = (readString cs).map fun (s, rest) => (c :: s, rest) := by
  have hu : e ≠ 'u' := by
    rintro rfl
    cases h
  rw [readString]
  · simp only [h]
  all_goals simp_all

theorem readString_of_stringText {s text : List Char} (h : StringText s text) (rest : List Char) :
    readString (text ++ '"' :: rest) = some (s, rest) := by
  induction h with
  | nil => rfl
  | plain hlow hquote hback _ ih =>
    rw [cons_append, readString_plain hlow hquote hback, ih]
    rfl
  | short hescape _ ih =>
    rw [cons_append, cons_append, readString_short hescape, ih]
    rfl
  | unicode hunit hhigh hlow _ ih =>
    simp only [cons_append, readString, hunit, hhigh, hlow, ih]
    rfl
  | pair hunit hhigh hunit' hlow _ ih =>
    simp only [cons_append, readString, hunit, hhigh, hunit', hlow, ih]
    rfl

/-- What follows a value: white space, then a token that is no number. -/
def Stops (rest : List Char) : Prop := ∀ c ∈ rest.head?, isBlank c = false ∧ c.isDigit = false

theorem Stops.skip (h : Stops rest) : Json.skip rest = rest := by
  cases rest with
  | nil => rfl
  | cons c cs => exact skip_cons (h c rfl).1 cs

theorem isDigit_of_isBlank (h : isBlank c = true) : c.isDigit = false := by
  simp only [isBlank, Bool.or_eq_true, decide_eq_true_eq] at h
  rcases h with ((rfl | rfl) | rfl) | rfl <;> decide

theorem Stops.noDigit (hws : Blank ws) (h : Stops rest) : NoDigit (ws ++ rest) := by
  cases ws with
  | nil => exact fun c hc => (h c hc).2
  | cons w ws => exact noDigit_cons (isDigit_of_isBlank (hws w mem_cons_self)) _

theorem stops_cons (hblank : isBlank c = false) (hdigit : c.isDigit = false) (rest : List Char) :
    Stops (c :: rest) := by
  intro d hd
  cases hd
  exact ⟨hblank, hdigit⟩

theorem stops_items {vs : List Value} {text : List Char} (h : DenotesItems p vs text)
    (rest : List Char) : Stops (text ++ ']' :: rest) := by
  cases vs with
  | nil =>
    rw [h]
    exact stops_cons (by decide) (by decide) _
  | cons v vs =>
    obtain ⟨_, _, _, _, _, _, _, _, rfl⟩ := h
    exact stops_cons (by decide) (by decide) _

theorem stops_fields {fs : List (String × Value)} {text : List Char} (h : DenotesFields p fs text)
    (rest : List Char) : Stops (text ++ '}' :: rest) := by
  cases fs with
  | nil =>
    rw [h]
    exact stops_cons (by decide) (by decide) _
  | cons f fs =>
    obtain ⟨_, _, _, _, _, _, _, _, _, _, _, _, _, _, rfl⟩ := h
    exact stops_cons (by decide) (by decide) _

/-! ## Values -/

theorem ne_of_isDigit (hc : c.isDigit = true) (hd : d.isDigit = false) : c ≠ d := by
  rintro rfl
  rw [hc] at hd
  cases hd

theorem isBlank_of_isDigit (h : c.isDigit = true) : isBlank c = false := by
  cases hb : isBlank c with
  | false => rfl
  | true =>
    rw [isDigit_of_isBlank hb] at h
    cases h

theorem denotes_head {v : Value} {text : List Char} (h : Denotes p v text) :
    ∃ c cs, text = c :: cs ∧ isBlank c = false ∧ c ≠ ']' := by
  cases v with
  | null =>
    exact ⟨_, _, h, by decide, by decide⟩
  | bool b =>
    cases b with
    | true | false =>
      exact ⟨_, _, h, by decide, by decide⟩
  | int i =>
    obtain ⟨-, rfl⟩ := h
    obtain ⟨d, ds, hd, hdigit⟩ := digit_head i.natAbs
    unfold printInt
    split
    · exact ⟨_, _, rfl, by decide, by decide⟩
    · exact ⟨d, ds, hd, isBlank_of_isDigit hdigit, ne_of_isDigit hdigit (by decide)⟩
  | str s =>
    obtain ⟨body, -, rfl⟩ := h
    exact ⟨_, _, rfl, by decide, by decide⟩
  | arr | obj =>
    obtain ⟨-, ws, -, rfl⟩ | ⟨body, -, rfl⟩ := h
    · exact ⟨_, _, rfl, by decide, by decide⟩
    · exact ⟨_, _, rfl, by decide, by decide⟩

theorem skip_denotes {v : Value} {before text : List Char} (hblank : Blank before)
    (h : Denotes p v text) (rest : List Char) : skip (before ++ (text ++ rest)) = text ++ rest := by
  obtain ⟨c, cs, rfl, hc, -⟩ := denotes_head h
  rw [skip_blank hblank, cons_append, skip_cons hc]

theorem readValue_digit (fuel : Nat) (hd : d.isDigit = true) (cs : List Char) :
    readValue (fuel + 1) (d :: cs) =
      (parseNat (d :: cs)).map fun (n, rest) => (.int n, rest) := by
  rw [readValue]
  all_goals
    intros
    rename_i heq
    exact ne_of_isDigit hd (by decide) (List.cons.inj heq).1

theorem readValue_int (fuel : Nat) (i : Int) (hr : NoDigit rest) :
    readValue (fuel + 1) (printInt i ++ rest) = some (.int i, rest) := by
  unfold printInt
  split
  · next h =>
    show readValue (fuel + 1) ('-' :: (Nat.toDigits 10 i.natAbs ++ rest)) = _
    rw [readValue, parseNat_toDigits _ hr]
    simp only [Option.map_some]
    congr 3
    omega
  · next h =>
    obtain ⟨d, ds, hd, hdigit⟩ := digit_head i.natAbs
    have hp := parseNat_toDigits i.natAbs hr
    rw [hd, cons_append] at hp ⊢
    rw [readValue_digit fuel hdigit, hp]
    simp only [Option.map_some]
    congr 3
    omega

/-- Past the bracket there is an item, so the array is not taken to be empty. -/
theorem readValue_arr {items : List Value} (h : DenotesItems p items (',' :: body))
    (hitems : readItems fuel (',' :: (body ++ ']' :: rest)) = some (items, rest)) :
    readValue (fuel + 1) ('[' :: (body ++ ']' :: rest)) = some (.arr items, rest) := by
  cases items with
  | nil => cases h
  | cons v vs =>
    obtain ⟨before, text, after, tail, hbefore, hv, -, -, hbody⟩ := h
    obtain ⟨c, cs, hc, -, hclose⟩ := denotes_head hv
    have hskip : skip (body ++ ']' :: rest) = c :: (cs ++ (after ++ (tail ++ ']' :: rest))) := by
      rw [(List.cons.inj hbody).2]
      simp only [append_assoc]
      rw [skip_denotes hbefore hv, hc, cons_append]
    rw [readValue, hskip, hitems]
    split
    · next heq => exact absurd (List.cons.inj heq).1 hclose
    · rfl

theorem readValue_obj {fields : List (String × Value)} (h : DenotesFields p fields (',' :: body))
    (hfields : readFields fuel (',' :: (body ++ '}' :: rest)) = some (fields, rest)) :
    readValue (fuel + 1) ('{' :: (body ++ '}' :: rest)) = some (.obj fields, rest) := by
  cases fields with
  | nil => cases h
  | cons f fs =>
    obtain ⟨lead, name, gap, before, text, after, tail, hlead, -, -, -, -, -, -, hbody⟩ := h
    have hskip : ∃ cs, skip (body ++ '}' :: rest) = '"' :: cs := by
      rw [(List.cons.inj hbody).2, append_assoc, skip_blank hlead, cons_append,
        skip_cons (by decide)]
      exact ⟨_, rfl⟩
    obtain ⟨cs, hskip⟩ := hskip
    rw [readValue, hskip, hfields]
    rfl

mutual

theorem readValue_of_denotes : ∀ (v : Value) (text : List Char) (fuel : Nat) (rest : List Char),
    Denotes p v text → text.length < fuel → (∀ i, v = .int i → NoDigit rest) →
      readValue fuel (text ++ rest) = some (v, rest)
  | _, _, 0, _, _, hf, _ => by cases hf
  | .null, _, _ + 1, _, h, _, _ => by
    rw [Denotes] at h
    rw [h]
    rfl
  | .bool true, _, _ + 1, _, h, _, _ | .bool false, _, _ + 1, _, h, _, _ => by
    rw [Denotes] at h
    rw [h]
    rfl
  | .int i, _, fuel + 1, rest, h, _, hr => by
    obtain ⟨-, rfl⟩ := h
    exact readValue_int fuel i (hr i rfl)
  | .str s, _, fuel + 1, rest, h, _, _ => by
    obtain ⟨body, hbody, rfl⟩ := h
    rw [cons_append, append_assoc, cons_append, nil_append, readValue,
      readString_of_stringText hbody]
    simp
  | .arr items, _, fuel + 1, rest, h, hf, _ => by
    obtain ⟨rfl, ws, hws, rfl⟩ | ⟨body, hbody, rfl⟩ := h
    · rw [cons_append, append_assoc, cons_append, nil_append, readValue,
        skip_blank hws, skip_cons (by decide)]
      rfl
    rw [cons_append, append_assoc, cons_append, nil_append]
    refine readValue_arr hbody ?_
    have hlength : (',' :: body).length < fuel := by
      simp only [length_cons, length_append, length_nil] at hf ⊢
      omega
    exact readItems_of_denotes items (',' :: body) fuel rest hbody hlength
  | .obj fields, _, fuel + 1, rest, h, hf, _ => by
    obtain ⟨rfl, ws, hws, rfl⟩ | ⟨body, hbody, rfl⟩ := h
    · rw [cons_append, append_assoc, cons_append, nil_append, readValue,
        skip_blank hws, skip_cons (by decide)]
      rfl
    rw [cons_append, append_assoc, cons_append, nil_append]
    refine readValue_obj hbody ?_
    have hlength : (',' :: body).length < fuel := by
      simp only [length_cons, length_append, length_nil] at hf ⊢
      omega
    exact readFields_of_denotes fields (',' :: body) fuel rest hbody hlength

theorem readItems_of_denotes : ∀ (vs : List Value) (text : List Char) (fuel : Nat)
    (rest : List Char), DenotesItems p vs text → text.length < fuel →
      readItems fuel (text ++ ']' :: rest) = some (vs, rest)
  | _, _, 0, _, _, hf => by cases hf
  | [], _, _ + 1, _, h, _ => by
    rw [DenotesItems] at h
    rw [h]
    rfl
  | v :: vs, _, fuel + 1, rest, h, hf => by
    obtain ⟨before, body, after, tail, hbefore, hv, hafter, hvs, rfl⟩ := h
    simp only [length_cons, length_append] at hf
    have hstops := stops_items hvs rest
    have hread := readValue_of_denotes v body fuel (after ++ (tail ++ ']' :: rest)) hv (by omega)
      fun _ _ => hstops.noDigit hafter
    have htail := readItems_of_denotes vs tail fuel rest hvs (by omega)
    simp only [cons_append, append_assoc, readItems, skip_denotes hbefore hv, hread,
      skip_blank hafter, hstops.skip, htail, Option.map_some]

theorem readFields_of_denotes : ∀ (fs : List (String × Value)) (text : List Char) (fuel : Nat)
    (rest : List Char), DenotesFields p fs text → text.length < fuel →
      readFields fuel (text ++ '}' :: rest) = some (fs, rest)
  | _, _, 0, _, _, hf => by cases hf
  | [], _, _ + 1, _, h, _ => by
    rw [DenotesFields] at h
    rw [h]
    rfl
  | (k, v) :: fs, _, fuel + 1, rest, h, hf => by
    obtain ⟨lead, name, gap, before, body, after, tail, hlead, hname, hgap, hbefore, hv, hafter,
      hfs, rfl⟩ := h
    simp only [length_cons, length_append] at hf
    have hstops := stops_fields hfs rest
    have hread := readValue_of_denotes v body fuel (after ++ (tail ++ '}' :: rest)) hv (by omega)
      fun _ _ => hstops.noDigit hafter
    have htail := readFields_of_denotes fs tail fuel rest hfs (by omega)
    simp only [cons_append, append_assoc, readFields, skip_blank hlead,
      skip_cons (show isBlank '"' = false by decide), readString_of_stringText hname,
      skip_blank hgap, skip_cons (show isBlank ':' = false by decide), skip_denotes hbefore hv,
      hread, skip_blank hafter, hstops.skip, htail, Option.map_some, String.ofList_toList]

end

variable {v : Value} {text : List Char} {fields : List (String × Value)}

theorem read_of_denotes {before after : List Char} (hbefore : Blank before) (hv : Denotes p v body)
    (hafter : Blank after) : read (before ++ body ++ after) = some v := by
  have hstops : Stops [] := by simp [Stops]
  have hdigit : NoDigit after := by simpa using hstops.noDigit hafter
  have hread := readValue_of_denotes v body ((before ++ body ++ after).length + 1) after hv
    (by simp only [length_append]; omega) fun _ _ => hdigit
  have hrest : skip after = [] := by
    rw [← append_nil after, skip_blank hafter]
    rfl
  rw [read, append_assoc before, skip_denotes hbefore hv, ← append_assoc, hread]
  simp [hrest]

/-- The reader accepts every document of the grammar and returns what it denotes. -/
theorem read_of_element (h : Element v text) : read text = some v := by
  obtain ⟨before, body, after, hbefore, hv, hafter, rfl⟩ := h
  exact read_of_denotes hbefore hv hafter

/-! ## Printed values -/

mutual

/-- Every number meets `p`. -/
def allInts (p : Int → Bool) : Value → Bool
  | .null => true
  | .bool _ => true
  | .int i => p i
  | .str _ => true
  | .arr items => allIntsItems p items
  | .obj fields => allIntsFields p fields

def allIntsItems (p : Int → Bool) : List Value → Bool
  | [] => true
  | v :: vs => allInts p v && allIntsItems p vs

def allIntsFields (p : Int → Bool) : List (String × Value) → Bool
  | [] => true
  | (_, v) :: fs => allInts p v && allIntsFields p fs

end

theorem hexDigitValue_hexDigit : ∀ n < 16, hexDigitValue (hexDigit n) = some n := by decide

theorem stringText_escape (c : Char) {s : List Char} (h : StringText s text) :
    StringText (c :: s) (escape c ++ text) := by
  unfold escape
  iterate 7
    split
    · next hc => subst hc; exact .short rfl h
  split
  · next hlow =>
    have hunit : codeUnit '0' '0' (hexDigit (c.toNat / 16)) (hexDigit (c.toNat % 16)) =
        some c.toNat := by
      have hzero : hexDigitValue '0' = some 0 := by decide
      rw [codeUnit, hzero, hexDigitValue_hexDigit _ (by omega), hexDigitValue_hexDigit _ (by omega)]
      show some (0 * 4096 + 0 * 256 + c.toNat / 16 * 16 + c.toNat % 16) = some c.toNat
      congr 1
      omega
    have hhigh : isHighSurrogate c.toNat = false := by
      simp only [isHighSurrogate, Bool.and_eq_false_iff, decide_eq_false_iff_not]
      omega
    have hsurrogate : isLowSurrogate c.toNat = false := by
      simp only [isLowSurrogate, Bool.and_eq_false_iff, decide_eq_false_iff_not]
      omega
    have := StringText.unicode hunit hhigh hsurrogate h
    rwa [Char.ofNat_toNat] at this
  · next hquote hback _ _ _ _ _ hlow => exact .plain hlow hquote hback h

theorem stringText_printed (s : List Char) : StringText s (s.flatMap escape) := by
  induction s with
  | nil => exact .nil
  | cons c s ih =>
    exact stringText_escape c ih

theorem blank_nil : Blank [] := fun _ h => by cases h

mutual

variable {q : Int → Bool}

theorem denotes_print (hp : ∀ i, q i = true → p i) :
    ∀ v : Value, allInts q v = true → Denotes p v (print v)
  | .null, _ | .bool true, _ | .bool false, _ => rfl
  | .int i, h => ⟨hp i h, rfl⟩
  | .str s, _ => ⟨s.toList.flatMap escape, stringText_printed _, rfl⟩
  | .arr [], _ => .inl ⟨rfl, [], blank_nil, rfl⟩
  | .arr (v :: vs), h => .inr ⟨print v ++ printItems vs, denotesItems_print hp (v :: vs) h, rfl⟩
  | .obj [], _ => .inl ⟨rfl, [], blank_nil, rfl⟩
  | .obj ((k, v) :: fs), h =>
    .inr ⟨printStr k.toList ++ ':' :: print v ++ printFields fs,
      denotesFields_print hp ((k, v) :: fs) h, rfl⟩

theorem denotesItems_print (hp : ∀ i, q i = true → p i) :
    ∀ vs : List Value, allIntsItems q vs = true → DenotesItems p vs (printItems vs)
  | [], _ => rfl
  | v :: vs, h => by
    rw [allIntsItems, Bool.and_eq_true] at h
    exact ⟨[], print v, [], printItems vs, blank_nil, denotes_print hp v h.1, blank_nil,
      denotesItems_print hp vs h.2, by simp [printItems]⟩

theorem denotesFields_print (hp : ∀ i, q i = true → p i) :
    ∀ fs : List (String × Value), allIntsFields q fs = true → DenotesFields p fs (printFields fs)
  | [], _ => rfl
  | (k, v) :: fs, h => by
    rw [allIntsFields, Bool.and_eq_true] at h
    exact ⟨[], k.toList.flatMap escape, [], [], print v, [], printFields fs, blank_nil,
      stringText_printed _, blank_nil, blank_nil, denotes_print hp v h.1, blank_nil,
      denotesFields_print hp fs h.2, by simp [printFields, printStr]⟩

end

mutual

theorem allInts_true : ∀ v : Value, allInts (fun _ => true) v = true
  | .null | .bool _ | .int _ | .str _ => rfl
  | .arr items => allIntsItems_true items
  | .obj fields => allIntsFields_true fields

theorem allIntsItems_true : ∀ vs : List Value, allIntsItems (fun _ => true) vs = true
  | [] => rfl
  | v :: vs => by rw [allIntsItems, allInts_true v, allIntsItems_true vs]; rfl

theorem allIntsFields_true : ∀ fs : List (String × Value), allIntsFields (fun _ => true) fs = true
  | [] => rfl
  | (_, v) :: fs => by rw [allIntsFields, allInts_true v, allIntsFields_true fs]; rfl

end

theorem denotes_printed (v : Value) : Denotes (fun _ => True) v (print v) :=
  denotes_print (q := fun _ => true) (fun _ _ => trivial) v (allInts_true v)

theorem read_print (v : Value) : read (print v) = some v := by
  simpa using read_of_denotes blank_nil (denotes_printed v) blank_nil

theorem print_injective {v w : Value} (h : print v = print w) : v = w :=
  Option.some.inj ((read_print v).symm.trans ((congrArg read h).trans (read_print w)))

/-- The text of an object is not the beginning of another text. -/
theorem append_of_print_obj (h : print v = print (.obj fields) ++ rest) : rest = [] := by
  have hobj := readValue_of_denotes (.obj fields) _ ((print v).length + 1) rest
    (denotes_printed _) (by rw [h, length_append]; omega) (fun _ h => nomatch h)
  have hv := readValue_of_denotes v _ ((print v).length + 1) [] (denotes_printed v)
    (Nat.lt_succ_self _) (fun _ _ => by simp [NoDigit])
  rw [append_nil] at hv
  cases hv.symm.trans ((congrArg (readValue _) h).trans hobj)
  rfl

/-- Decided on the texts. -/
instance : DecidableEq Value := fun v w =>
  decidable_of_iff (print v = print w) ⟨print_injective, congrArg print⟩

/-! ## Bytes -/

def utf8 (text : List Char) : Bytes := text.flatMap String.utf8EncodeChar

def decode (b : Bytes) : Option Value :=
  match b.toByteArray.utf8Decode? with
  | some cs => read cs.toList
  | none => none

theorem eq_append_of_utf8 {a b : List Char} {tail : Bytes} (h : utf8 b = utf8 a ++ tail) :
    ∃ rest, b = a ++ rest ∧ utf8 rest = tail := by
  induction a generalizing b with
  | nil => exact ⟨b, rfl, h⟩
  | cons c a ih =>
    cases b with
    | nil =>
      have hnil := (append_eq_nil_iff.1 (append_eq_nil_iff.1 h.symm).1).1
      exact (String.utf8EncodeChar_ne_nil hnil).elim
    | cons d b =>
      simp only [utf8, flatMap_cons, append_assoc] at h
      have hd := @ByteArray.utf8DecodeChar?_utf8EncodeChar_append (utf8 b).toByteArray d
      rw [← toByteArray_append, utf8, h, toByteArray_append,
        ByteArray.utf8DecodeChar?_utf8EncodeChar_append] at hd
      cases hd
      obtain ⟨rest, rfl, htail⟩ := ih (append_cancel_left h)
      exact ⟨rest, rfl, htail⟩

theorem length_le_of_take {k : Nat} (h : (encode v).take k = encode (.obj fields)) :
    (encode v).length ≤ k := by
  have hsplit : utf8 (print v) = utf8 (print (.obj fields)) ++ (encode v).drop k :=
    (take_append_drop k _).symm.trans (congrArg (· ++ _) h)
  obtain ⟨rest, hprint, hdrop⟩ := eq_append_of_utf8 hsplit
  rw [append_of_print_obj hprint] at hdrop
  exact drop_eq_nil_iff.1 hdrop.symm

theorem decode_of_element (h : Element v text) : decode (utf8 text) = some v := by
  have hdecode : (utf8 text).toByteArray.utf8Decode? = some text.toArray :=
    List.utf8Decode?_utf8Encode
  simp only [decode, hdecode, read_of_element h]

theorem decode_encode (v : Value) : decode (encode v) = some v := by
  have h : (encode v).toByteArray.utf8Decode? = some (print v).toArray :=
    List.utf8Decode?_utf8Encode
  simp only [decode, h, read_print]

theorem utf8EncodeChar_ascii {b : UInt8} (h : b < 128) :
    String.utf8EncodeChar (Char.ofNat b.toNat) = [b] := by
  have hb : b.toNat < 128 := h
  have hv : (Char.ofNat b.toNat).val.toNat = b.toNat := by
    rw [Char.ofNat, dif_pos (by left; omega)]
    rfl
  unfold String.utf8EncodeChar
  simp only [hv]
  rw [if_pos (by omega)]
  simp

/-- `decode`, with text that is all ASCII read one character a byte. -/
def decodeAscii (b : Bytes) : Option Value :=
  if b.all (· < 128) then read (b.map fun x => Char.ofNat x.toNat) else decode b

theorem decode_eq : decode = decodeAscii := by
  funext b
  unfold decodeAscii
  split
  case isTrue h =>
    have hb : b = (b.map fun x => Char.ofNat x.toNat).flatMap String.utf8EncodeChar := by
      rw [flatMap_map]
      induction b with
      | nil => rfl
      | cons x b ih =>
        rw [all_cons, Bool.and_eq_true, decide_eq_true_eq] at h
        rw [flatMap_cons, utf8EncodeChar_ascii h.1, ← ih h.2]
        rfl
    have hd : b.toByteArray.utf8Decode? = some (b.map fun x => Char.ofNat x.toNat).toArray := by
      conv_lhs => rw [hb]
      exact List.utf8Decode?_utf8Encode
    simp only [decode, hd]
  case isFalse => rfl

end Json

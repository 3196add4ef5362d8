import Traverse.Text.JsonGrammar
import Traverse.Text.JsonOrder

/-!
# Contracts.CanonicalJson

Canonical guest input: `toCanonicalJson` writes a value with the members of every object in the
order of their UTF-16 code units, and refuses integers beyond 2^53 - 1; `parseCanonicalizable` reads
bytes of a caller and refuses repeated member names. Numbers are integers here, so the layout of
doubles is left out. An integer that fits neither `u64` nor `i64` is held as a double, of magnitude
2^63 at least.

Writing is printing after sorting (`toCanonicalJson_eq`), so what is known of the two gives
`canonical_json_normal_form`. The reader is a parameter: `JsonReader` assumes that it reads the
JSON grammar, without a limit on the depth.
-/

namespace Traverse.Contracts

open Json Lines List Function
open scoped List

def maxSafeInteger : Nat := 9007199254740991

inductive CanonicalJsonError where
  | invalidJson
  | unsafeInteger
  | duplicateKey
  | invalidUnicode
  deriving DecidableEq, Repr

def inputNotCanonicalizable : String := "input_not_canonicalizable"

def CanonicalJsonError.code : CanonicalJsonError → String
  | .invalidJson => "invalid_json"
  | .unsafeInteger | .duplicateKey | .invalidUnicode => inputNotCanonicalizable

/-! ## Writing -/

def encodeUtf16 (c : Char) : List Nat :=
  if c.toNat < 0x10000 then [c.toNat]
  else [0xD800 + (c.toNat - 0x10000) / 0x400, 0xDC00 + (c.toNat - 0x10000) % 0x400]

def utf16 (s : String) : List Nat := s.toList.flatMap encodeUtf16

def writeChar (c : Char) : List Char :=
  if c = '"' then ['\\', '"']
  else if c = '\\' then ['\\', '\\']
  else if c = '\x08' then ['\\', 'b']
  else if c = '\t' then ['\\', 't']
  else if c = '\n' then ['\\', 'n']
  else if c = '\x0c' then ['\\', 'f']
  else if c = '\r' then ['\\', 'r']
  else if c.toNat < 0x20 then
    ['\\', 'u', '0', '0', hexDigit (c.toNat / 16), hexDigit (c.toNat % 16)]
  else [c]

def writeString (text : String) : List Char := '"' :: text.toList.flatMap writeChar ++ ['"']

def writeNumber (i : Int) : Except CanonicalJsonError (List Char) :=
  if 0 ≤ i ∧ i < 2 ^ 64 then
    if i.toNat > maxSafeInteger then .error .unsafeInteger else .ok (printInt i)
  else if -2 ^ 63 ≤ i ∧ i < 2 ^ 63 then
    if i.natAbs > maxSafeInteger then .error .unsafeInteger
    else .ok (printInt i)
  else .error .unsafeInteger

/-- One text after the other, up to the first that could not be written. -/
def commaSeparated : List (Except CanonicalJsonError (List Char)) →
    Except CanonicalJsonError (List Char)
  | [] => .ok []
  | [text] => text
  | text :: texts => do
    let text ← text
    let rest ← commaSeparated texts
    return text ++ ',' :: rest

def writeMember (member : String × Except CanonicalJsonError (List Char)) :
    Except CanonicalJsonError (List Char) :=
  member.2.map fun text => writeString member.1 ++ ':' :: text

mutual

def writeValue : Value → Except CanonicalJsonError (List Char)
  | .null => .ok ['n', 'u', 'l', 'l']
  | .bool flag => .ok (if flag then ['t', 'r', 'u', 'e'] else ['f', 'a', 'l', 's', 'e'])
  | .int i => writeNumber i
  | .str text => .ok (writeString text)
  | .arr items => (commaSeparated (writeItems items)).map fun text => '[' :: text ++ [']']
  | .obj members =>
    let entries := (writeMembers members).insertionSort fun left right =>
      utf16 left.1 ≤ utf16 right.1
    (commaSeparated (entries.map writeMember)).map fun text => '{' :: text ++ ['}']

def writeItems : List Value → List (Except CanonicalJsonError (List Char))
  | [] => []
  | v :: vs => writeValue v :: writeItems vs

/-- The values of the members are written on their own, so that the recursion sees them before they
are sorted. -/
def writeMembers : List (String × Value) → List (String × Except CanonicalJsonError (List Char))
  | [] => []
  | (k, v) :: fs => (k, writeValue v) :: writeMembers fs

end

def toCanonicalJson (v : Value) : Except CanonicalJsonError String :=
  (writeValue v).map String.ofList

/-! ## Writing is printing what is sorted -/

theorem char_valid (c : Char) : c.toNat < 0xD800 ∨ (0xDFFF < c.toNat ∧ c.toNat < 0x110000) :=
  c.valid

/-- A surrogate is no character, so the first code unit tells how many there are. -/
theorem encodeUtf16_inj {c d : Char} {us vs : List Nat}
    (h : encodeUtf16 c ++ us = encodeUtf16 d ++ vs) : c = d ∧ us = vs := by
  have hc := char_valid c
  have hd := char_valid d
  unfold encodeUtf16 at h
  split at h <;> split at h
  · obtain ⟨hunit, hrest⟩ := List.cons.inj h
    exact ⟨Char.toNat_inj.1 hunit, hrest⟩
  · have hunit := (List.cons.inj h).1
    omega
  · have hunit := (List.cons.inj h).1
    omega
  · obtain ⟨hhigh, hrest⟩ := List.cons.inj h
    obtain ⟨hlow, hrest⟩ := List.cons.inj hrest
    exact ⟨Char.toNat_inj.1 (by omega), hrest⟩

theorem encodeUtf16_ne_nil (c : Char) (us : List Nat) : encodeUtf16 c ++ us ≠ [] := by
  unfold encodeUtf16
  split <;> simp

theorem utf16_injective : Injective utf16 := by
  have hlists : ∀ {cs ds : List Char}, cs.flatMap encodeUtf16 = ds.flatMap encodeUtf16 →
      cs = ds := by
    intro cs
    induction cs with
    | nil =>
      intro ds h
      cases ds with
      | nil => rfl
      | cons d ds =>
        exact absurd h.symm (encodeUtf16_ne_nil d _)
    | cons c cs ih =>
      intro ds h
      cases ds with
      | nil =>
        exact absurd h (encodeUtf16_ne_nil c _)
      | cons d ds =>
        obtain ⟨rfl, hrest⟩ := encodeUtf16_inj h
        rw [ih hrest]
  intro s t h
  exact String.toList_injective (hlists h)

theorem writeChar_eq_escape (c : Char) : writeChar c = escape c := by
  unfold writeChar escape
  split_ifs <;> simp_all

theorem writeString_eq_printStr (s : String) : writeString s = printStr s.toList := by
  rw [writeString, printStr, show writeChar = escape from funext writeChar_eq_escape]

/-- An integer that `write_number` accepts. -/
def isSafe (i : Int) : Bool := i.natAbs ≤ maxSafeInteger

theorem writeNumber_eq (i : Int) :
    writeNumber i = if isSafe i then .ok (printInt i) else .error .unsafeInteger := by
  have hmax : maxSafeInteger < 2 ^ 63 := by decide
  unfold writeNumber isSafe
  split_ifs <;> simp_all <;> omega

variable {α : Type} {v : Value}

/-- Written one by one in order, the texts are joined or a failure is reported; all failures are
the same. -/
theorem commaSeparated_map (p : α → Bool) (f : α → List Char) (e : CanonicalJsonError)
    (xs : List α) :
    commaSeparated (xs.map fun x => if p x then .ok (f x) else .error e) =
      if xs.all p then .ok (xs.flatMap fun x => ',' :: f x).tail else .error e := by
  induction xs with
  | nil => rfl
  | cons x xs ih =>
    cases xs with
    | nil => simp [commaSeparated]
    | cons y ys =>
      rw [map_cons] at ih
      rw [map_cons, map_cons, commaSeparated, ih]
      · have hall : (x :: y :: ys).all p = (p x && (y :: ys).all p) := rfl
        rw [hall]
        by_cases hx : p x = true
        · by_cases hrest : (y :: ys).all p = true
          · rw [hx, hrest]
            rfl
          · rw [hx, Bool.eq_false_iff.2 hrest]
            rfl
        · rw [Bool.eq_false_iff.2 hx]
          rfl
      · simp

theorem printItems_eq_flatMap (vs : List Value) :
    printItems vs = vs.flatMap fun v => ',' :: print v := by
  induction vs with
  | nil => rfl
  | cons v vs ih => rw [printItems, ih, flatMap_cons]

theorem sortItems_eq_map (vs : List Value) : sortItems utf16 vs = vs.map (sortMembers utf16) := by
  induction vs with
  | nil => rfl
  | cons v vs ih => rw [sortItems, ih, map_cons]

theorem printFields_eq_flatMap (fs : List (String × Value)) :
    printFields fs = fs.flatMap fun f => ',' :: (writeString f.1 ++ ':' :: print f.2) := by
  induction fs with
  | nil => rfl
  | cons f fs ih => rw [printFields, ih, flatMap_cons, writeString_eq_printStr]; simp

theorem allIntsItems_eq_all (p : Int → Bool) (vs : List Value) :
    allIntsItems p vs = vs.all (allInts p) := by
  induction vs with
  | nil => rfl
  | cons v vs ih => rw [allIntsItems, ih, all_cons]

theorem allIntsFields_eq_all (p : Int → Bool) (fs : List (String × Value)) :
    allIntsFields p fs = fs.all fun f => allInts p f.2 := by
  induction fs with
  | nil => rfl
  | cons f fs ih => rw [allIntsFields, ih, all_cons]

/-- What `write_value` returns for a value. -/
def written (v : Value) : Except CanonicalJsonError (List Char) :=
  if allInts isSafe v then .ok (print (sortMembers utf16 v)) else .error .unsafeInteger

theorem writeValue_arr {vs : List Value} (h : writeItems vs = vs.map written) :
    writeValue (.arr vs) = written (.arr vs) := by
  have hitems : writeItems vs = vs.map fun v =>
      if allInts isSafe v then .ok (print (sortMembers utf16 v)) else .error .unsafeInteger := h
  rw [writeValue, hitems, commaSeparated_map, written, allInts, allIntsItems_eq_all]
  cases vs.all (allInts isSafe) with
  | false => rfl
  | true =>
    simp only [if_true, Except.map, sortMembers, print, printItems_eq_flatMap, sortItems_eq_map,
      flatMap_map]

/-- Members are compared by their names, before and after their values are written. -/
theorem insertionSort_map_members (f : Value → α) (fs : List (String × Value)) :
    (fs.map fun m => (m.1, f m.2)).insertionSort (fun m n => utf16 m.1 ≤ utf16 n.1) =
      (fs.insertionSort (byName utf16)).map fun m => (m.1, f m.2) :=
  (map_insertionSort (byName utf16) (fun m n : String × α => utf16 m.1 ≤ utf16 n.1) _ fs
    fun _ _ _ _ => Iff.rfl).symm

theorem writeValue_obj {fs : List (String × Value)}
    (h : writeMembers fs = fs.map fun f => (f.1, written f.2)) :
    writeValue (.obj fs) = written (.obj fs) := by
  have hperm := perm_insertionSort (byName utf16) fs
  have hmembers : ((writeMembers fs).insertionSort
        fun left right => utf16 left.1 ≤ utf16 right.1).map writeMember =
      (fs.insertionSort (byName utf16)).map fun f => if allInts isSafe f.2 then
        .ok (writeString f.1 ++ ':' :: print (sortMembers utf16 f.2))
          else .error .unsafeInteger := by
    rw [h, insertionSort_map_members, map_map]
    refine map_congr_left fun f hf => ?_
    rw [comp_apply, writeMember, written]
    cases allInts isSafe f.2 <;> rfl
  rw [writeValue, hmembers, commaSeparated_map, written, allInts, allIntsFields_eq_all,
    hperm.all_eq]
  cases fs.all fun f => allInts isSafe f.2 with
  | false => rfl
  | true =>
    have hsorted : (sortFields utf16 fs).insertionSort (byName utf16) =
        (fs.insertionSort (byName utf16)).map fun f => (f.1, sortMembers utf16 f.2) := by
      rw [sortFields_eq_map]
      exact insertionSort_map_members (sortMembers utf16) fs
    simp only [if_true, Except.map, sortMembers, print, hsorted, printFields_eq_flatMap,
      flatMap_map]

mutual

theorem writeValue_eq : ∀ v : Value, writeValue v = written v
  | .null | .bool true | .bool false => rfl
  | .int i => writeNumber_eq i
  | .str s => by rw [writeValue, writeString_eq_printStr]; rfl
  | .arr vs => writeValue_arr (writeItems_eq vs)
  | .obj fs => writeValue_obj (writeMembers_eq fs)

theorem writeItems_eq : ∀ vs : List Value, writeItems vs = vs.map written
  | [] => rfl
  | v :: vs => by rw [writeItems, writeValue_eq v, writeItems_eq vs, map_cons]

theorem writeMembers_eq : ∀ fs : List (String × Value),
    writeMembers fs = fs.map fun f => (f.1, written f.2)
  | [] => rfl
  | (k, v) :: fs => by rw [writeMembers, writeValue_eq v, writeMembers_eq fs, map_cons]

end

theorem toCanonicalJson_eq (v : Value) : toCanonicalJson v =
    if allInts isSafe v then .ok (String.ofList (print (sortMembers utf16 v)))
    else .error .unsafeInteger := by
  rw [toCanonicalJson, writeValue_eq, written]
  cases allInts isSafe v <;> rfl

/-! ## Reading -/

/-- `serde_json::from_slice`: a document, with all members of an object in the order they have
in the text. -/
structure JsonReader where
  fromSlice : Bytes → Option Value
  reads : ∀ {v : Value} {text : List Char}, Element v text → fromSlice (utf8 text) = some v

def jsonReader : JsonReader := ⟨decode, decode_of_element⟩

/-- The code unit of an escape, from the four bytes after it. -/
def escapedUnit (bytes : Bytes) : Option Nat :=
  match bytes.map fun byte => Char.ofNat byte.toNat with
  | [a, b, c, d] => codeUnit a b c d
  | _ => none

/-- The scan: whether it is inside a string, and whether a high surrogate waits for its pair. -/
def hasLoneSurrogateEscape.scan (inString pendingHigh : Bool) : Bytes → Bool
  | [] => pendingHigh
  | byte :: rest =>
    if !inString then scan (byte = '"'.toUInt8) pendingHigh rest
    else if byte = '\\'.toUInt8 ∧ rest.head? = some 'u'.toUInt8 then
      let next := rest.drop 5
      match escapedUnit ((rest.drop 1).take 4) with
      | some n =>
        if isHighSurrogate n ∧ !pendingHigh then scan true true next
        else if isLowSurrogate n ∧ pendingHigh then scan true false next
        else if isHighSurrogate n ∨ isLowSurrogate n then true
        else if pendingHigh then true
        else scan true pendingHigh next
      | none => if pendingHigh then true else scan true pendingHigh next
    else if pendingHigh then true
    else if byte = '\\'.toUInt8 then scan true pendingHigh (rest.drop 1)
    else scan (byte ≠ '"'.toUInt8) pendingHigh rest
  termination_by bytes => bytes.length
  decreasing_by all_goals grind

def hasLoneSurrogateEscape (bytes : Bytes) : Bool := hasLoneSurrogateEscape.scan false false bytes

mutual

/-- `StrictVisitor`: objects become maps, which are ordered by the names of their members. -/
def strictValue : Value → Option Value
  | .null => some .null
  | .bool b => some (.bool b)
  | .int i => some (.int i)
  | .str s => some (.str s)
  | .arr items => (strictItems items).map .arr
  | .obj members => (visitMap [] members).map .obj

def strictItems : List Value → Option (List Value)
  | [] => some []
  | v :: vs =>
    match strictValue v with
    | some v => (strictItems vs).map (v :: ·)
    | none => none

def visitMap (members : List (String × Value)) :
    List (String × Value) → Option (List (String × Value))
  | [] => some members
  | (key, v) :: fs =>
    match strictValue v with
    | none => none
    | some member =>
      if key ∈ members.map Prod.fst then none
      else visitMap (members.orderedInsert (byName id) (key, member)) fs

end

def parseCanonicalizable (R : JsonReader) (bytes : Bytes) : Except CanonicalJsonError Value :=
  match R.fromSlice bytes with
  | none =>
    .error (if bytes.toByteArray.utf8Decode?.isNone ∨ hasLoneSurrogateEscape bytes then
      .invalidUnicode else .invalidJson)
  | some document =>
    match strictValue document with
    | some v => .ok v
    | none => .error .duplicateKey

/-- `canonicalize_json_bytes`. -/
def canonicalizeJsonBytes (R : JsonReader) (bytes : Bytes) : Except CanonicalJsonError String := do
  toCanonicalJson (← parseCanonicalizable R bytes)

mutual

theorem strictValue_eq : ∀ {v : Value}, Distinct v → strictValue v = some (sortMembers id v)
  | .null, _ | .bool _, _ | .int _, _ | .str _, _ => rfl
  | .arr vs, h => by rw [strictValue, strictItems_eq h]; rfl
  | .obj fs, h => by
    rw [strictValue, visitMap_eq [] h.2 List.Pairwise.nil (by simpa using h.1)]
    rfl

theorem strictItems_eq : ∀ {vs : List Value}, DistinctItems vs →
    strictItems vs = some (sortItems id vs)
  | [], _ => rfl
  | v :: vs, h => by
    rw [strictItems, strictValue_eq h.1, strictItems_eq h.2]
    rfl

theorem visitMap_eq : ∀ {fs : List (String × Value)} (members : List (String × Value)),
    DistinctFields fs → members.Pairwise (byName id) →
    (members.map Prod.fst ++ fs.map Prod.fst).Nodup →
    visitMap members fs = some ((members ++ sortFields id fs).insertionSort (byName id))
  | [], members, _, hsorted, _ => by
    rw [visitMap, sortFields, append_nil, hsorted.insertionSort_eq]
  | (k, v) :: fs, members, h, hsorted, hnodup => by
    have hinsert := perm_orderedInsert (byName id) (k, sortMembers id v) members
    have hmoved : (members.orderedInsert (byName id) (k, sortMembers id v) ++ sortFields id fs).Perm
        (members ++ (k, sortMembers id v) :: sortFields id fs) :=
      (hinsert.append_right _).trans perm_middle.symm
    have hnames : (members.orderedInsert (byName id) (k, sortMembers id v)).map Prod.fst ++
        fs.map Prod.fst ~ members.map Prod.fst ++ k :: fs.map Prod.fst :=
      ((hinsert.map Prod.fst).append_right _).trans perm_middle.symm
    have hnew : k ∉ members.map Prod.fst := by
      rw [map_cons, nodup_append] at hnodup
      exact fun hk => hnodup.2.2 k hk k mem_cons_self rfl
    have hnodup' := hnames.nodup_iff.2 hnodup
    rw [visitMap, strictValue_eq h.1]
    simp only [if_neg hnew]
    rw [visitMap_eq _ h.2 (hsorted.orderedInsert _ _) hnodup', sortFields]
    congr 1
    refine insertionSort_eq_of_perm injective_id hmoved ?_
    rwa [map_append, map_fst_sortFields]

end

/-! ## The normal form -/

section

variable {κ : Type} [LinearOrder κ] (key : String → κ) (p : Int → Bool)

mutual

theorem allInts_sortMembers : ∀ v : Value, allInts p (sortMembers key v) = allInts p v
  | .null | .bool _ | .int _ | .str _ => rfl
  | .arr vs => allIntsItems_sortItems vs
  | .obj fs => by
    have hperm := perm_insertionSort (byName key) (sortFields key fs)
    rw [sortMembers, allInts, allIntsFields_eq_all, hperm.all_eq, ← allIntsFields_eq_all,
      allIntsFields_sortFields fs, allInts]

theorem allIntsItems_sortItems : ∀ vs : List Value,
    allIntsItems p (sortItems key vs) = allIntsItems p vs
  | [] => rfl
  | v :: vs => by
    rw [sortItems, allIntsItems, allInts_sortMembers v, allIntsItems_sortItems vs, allIntsItems]

theorem allIntsFields_sortFields : ∀ fs : List (String × Value),
    allIntsFields p (sortFields key fs) = allIntsFields p fs
  | [] => rfl
  | (_, v) :: fs => by
    rw [sortFields, allIntsFields, allInts_sortMembers v, allIntsFields_sortFields fs,
      allIntsFields]

end

end

/-- The maps of `serde_json` have no repeated names. -/
def JsonValue : Type := {v : Value // Distinct v}

theorem toCanonicalJson_ok {text : String} : toCanonicalJson v = .ok text ↔
    allInts isSafe v = true ∧ text = String.ofList (print (sortMembers utf16 v)) := by
  rw [toCanonicalJson_eq]
  cases allInts isSafe v with
  | false => simp
  | true => simp [eq_comm]

theorem isSafe_fits (i : Int) (h : isSafe i = true) : -2 ^ 63 ≤ i ∧ i < 2 ^ 64 := by
  have hmax : maxSafeInteger < 2 ^ 63 := by decide
  simp only [isSafe, decide_eq_true_eq] at h
  omega

/-- What was printed in some order is read as the value it was printed for, with its members in
order. -/
theorem parseCanonicalizable_print (R : JsonReader) {κ : Type} [LinearOrder κ] (key : String → κ)
    {p : Int → Bool} (hp : ∀ i, p i = true → -2 ^ 63 ≤ i ∧ i < 2 ^ 64) (hdistinct : Distinct v)
    (hints : allInts p v = true) :
    parseCanonicalizable R (utf8 (print (sortMembers key v))) =
      .ok (sortMembers id (sortMembers key v)) := by
  have hdenotes : Denotes Fits (sortMembers key v) (print (sortMembers key v)) :=
    denotes_print hp _ (by rw [allInts_sortMembers, hints])
  have helement : Element (sortMembers key v) (print (sortMembers key v)) :=
    ⟨[], _, [], blank_nil, hdenotes, blank_nil, by simp⟩
  rw [parseCanonicalizable, R.reads helement]
  simp only [strictValue_eq (distinct_sortMembers hdistinct)]

theorem toCanonicalJson_sortMembers {κ : Type} [LinearOrder κ] (key : String → κ)
    (h : Distinct v) : toCanonicalJson (sortMembers key v) = toCanonicalJson v := by
  rw [toCanonicalJson_eq, toCanonicalJson_eq, allInts_sortMembers,
    sortMembers_sortMembers utf16_injective key h]

/-- `to_canonical_json` succeeds exactly on safe integers, its output is the same exactly for values
that differ in the order of members only, and reading the output gives the value back, up to that
order, with the same output again. -/
theorem canonical_json_normal_form (R : JsonReader) (v w : JsonValue) :
    ((∃ text, toCanonicalJson v.1 = .ok text) ↔
      allInts (fun i => i.natAbs ≤ 2 ^ 53 - 1) v.1 = true) ∧
    (∀ text text', toCanonicalJson v.1 = .ok text → toCanonicalJson w.1 = .ok text' →
      (text = text' ↔ Same v.1 w.1)) ∧
    ∀ text, toCanonicalJson v.1 = .ok text → ∃ v',
      parseCanonicalizable R (utf8 text.toList) = .ok v' ∧ Same v.1 v' ∧
      toCanonicalJson v' = .ok text := by
  refine ⟨?_, fun text text' hv hw => ?_, fun text hv => ?_⟩
  · have hsafe : (fun i : Int => decide (i.natAbs ≤ 2 ^ 53 - 1)) = isSafe := rfl
    rw [hsafe]
    simp only [toCanonicalJson_ok, exists_and_left, exists_eq, and_true]
  · rw [(toCanonicalJson_ok.1 hv).2, (toCanonicalJson_ok.1 hw).2,
      ← sortMembers_eq_iff utf16_injective v.1 w.1 v.2]
    constructor
    · intro h
      exact print_injective (String.ofList_injective h)
    · intro h
      rw [h]
  · obtain ⟨hsafe, htext⟩ := toCanonicalJson_ok.1 hv
    have hsorted : Distinct (sortMembers utf16 v.1) := distinct_sortMembers v.2
    refine ⟨sortMembers id (sortMembers utf16 v.1), ?_, ?_, ?_⟩
    · rw [htext, String.toList_ofList]
      exact parseCanonicalizable_print R utf16 isSafe_fits v.2 hsafe
    · refine (sortMembers_eq_iff utf16_injective _ _ v.2).1 ?_
      rw [sortMembers_sortMembers utf16_injective id hsorted,
        sortMembers_sortMembers utf16_injective utf16 v.2]
    · rw [toCanonicalJson_sortMembers id hsorted, toCanonicalJson_sortMembers utf16 v.2, hv]

/-- The smiley is two code units, the first below those of the Hebrew letter. -/
def smiley : JsonValue :=
  ⟨.obj [("\ufb33", .int 1), ("😀", .arr [.int (-2), .str "a\n"])], by
    simp [Distinct, DistinctFields, DistinctItems]⟩

theorem canonical_json_normal_form_smiley : ∃ text v',
    toCanonicalJson smiley.1 = .ok text ∧
    text = "\x7b\"😀\":[-2,\"a\\n\"],\"\ufb33\":1\x7d" ∧
    parseCanonicalizable jsonReader (utf8 text.toList) = .ok v' ∧ Same smiley.1 v' ∧
    toCanonicalJson v' = .ok text := by
  have htext : toCanonicalJson smiley.1 =
      .ok "\x7b\"😀\":[-2,\"a\\n\"],\"\ufb33\":1\x7d" := by
    decide +kernel
  obtain ⟨v', hparse, hsame, hagain⟩ :=
    (canonical_json_normal_form jsonReader smiley smiley).2.2 _ htext
  exact ⟨_, v', htext, rfl, hparse, hsame, hagain⟩

end Traverse.Contracts

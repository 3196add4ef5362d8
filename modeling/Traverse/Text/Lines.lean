import Mathlib.Algebra.Order.Ring.Nat

/-!
# Text.Lines

Newline-terminated lines in a byte string. A writer appends `line ++ "\n"`; a reader splits at
newlines, drops empty pieces and looks at the last byte to tell whether the last piece is
terminated. `chunks_terminated` is the one fact a reader needs: what was written line by line,
followed by an unterminated rest, splits into exactly those lines and that rest.
-/

namespace Lines

open List

abbrev Bytes := List UInt8

def newline : UInt8 := 10

/-- The non-empty pieces between newlines. -/
def chunks (b : Bytes) : List Bytes :=
  (b.splitOnP (· == newline)).filter fun chunk => !chunk.isEmpty

def endsWithNewline (b : Bytes) : Bool := b.getLast? == some newline

def completeLines (b : Bytes) : List Bytes :=
  if endsWithNewline b then chunks b else (chunks b).dropLast

/-- A line body: non-empty and without a newline of its own. -/
structure IsLine (l : Bytes) : Prop where
  ne_nil : l ≠ []
  no_newline : newline ∉ l

/-- The bytes of a list of lines, each with its terminator. -/
def terminated : List Bytes → Bytes
  | [] => []
  | l :: ls => l ++ newline :: terminated ls

@[simp] theorem terminated_nil : terminated [] = [] := rfl

theorem terminated_append (ls ms : List Bytes) :
    terminated (ls ++ ms) = terminated ls ++ terminated ms := by
  induction ls with
  | nil => rfl
  | cons l ls ih => simp [terminated, ih]

theorem terminated_singleton (l : Bytes) : terminated [l] = l ++ [newline] := rfl

variable {ls : List Bytes} {b l tail : Bytes}

theorem terminated_eq_nil : terminated ls = [] ↔ ls = [] := by
  cases ls <;> simp [terminated]

theorem not_newline_of_not_mem (h : newline ∉ b) : ∀ x ∈ b, (x == newline) = false := by
  intro x hx
  simp only [beq_eq_false_iff_ne, ne_eq]
  rintro rfl; exact h hx

theorem chunks_of_no_newline (h : newline ∉ b) : chunks b = if b = [] then [] else [b] := by
  rw [chunks, splitOnP_eq_singleton (not_newline_of_not_mem h)]
  cases b <;> simp

theorem chunks_cons (hl : IsLine l) (rest : Bytes) :
    chunks (l ++ newline :: rest) = l :: chunks rest := by
  rw [chunks, splitOnP_append_cons_of_forall_mem (not_newline_of_not_mem hl.no_newline)
    newline (by simp)]
  simp [chunks, hl.ne_nil]

/-- Splitting undoes writing, whatever unterminated rest follows the last line. -/
theorem chunks_terminated (hls : ∀ l ∈ ls, IsLine l) (ht : newline ∉ tail) :
    chunks (terminated ls ++ tail) = ls ++ if tail = [] then [] else [tail] := by
  induction ls with
  | nil => simpa using chunks_of_no_newline ht
  | cons l ls ih =>
    rw [terminated, append_assoc, cons_append, chunks_cons (hls l (by simp)),
      ih fun m hm => hls m (by simp [hm])]
    rfl

theorem endsWithNewline_of_tail (ht : newline ∉ tail) (hne : tail ≠ []) :
    endsWithNewline (b ++ tail) = false := by
  have hlast : tail.getLast? ≠ some newline := fun h => ht (mem_of_getLast? h)
  simp [endsWithNewline, List.getLast?_append, hne, hlast]

theorem endsWithNewline_terminated (hne : ls ≠ []) : endsWithNewline (terminated ls) = true := by
  induction ls with
  | nil => exact absurd rfl hne
  | cons l ls ih =>
    by_cases h : ls = []
    · subst h; simp [endsWithNewline, terminated]
    · have hn : terminated ls ≠ [] := fun e => h (terminated_eq_nil.1 e)
      have hlast : (terminated ls).getLast? = some newline := by simpa [endsWithNewline] using ih h
      simp [endsWithNewline, terminated, List.getLast?_append, List.getLast?_cons_of_ne_nil hn,
        hlast]

theorem completeLines_terminated (hls : ∀ l ∈ ls, IsLine l) (ht : newline ∉ tail) :
    completeLines (terminated ls ++ tail) = ls := by
  unfold completeLines
  rw [chunks_terminated hls ht]
  by_cases htail : tail = []
  · subst htail
    by_cases hnil : ls = []
    · subst hnil; simp
    · rw [append_nil, endsWithNewline_terminated hnil]
      simp
  · rw [endsWithNewline_of_tail ht htail]
    simp [htail]

theorem no_newline_take (hl : newline ∉ l) {k : Nat} (hk : k ≤ l.length) :
    newline ∉ (l ++ [newline]).take k := by
  rw [take_append_of_le_length hk]
  exact fun h => hl (mem_of_mem_take h)

end Lines

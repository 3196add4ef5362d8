import Traverse.Sys.Machine
import Traverse.Text.JsonGrammar

/-!
# Server.RegistryJournal

The journal of registry mutations of a workspace: one line of JSON for each, and a load that skips
a last line that does not parse. A crash may leave any prefix of a line. The load does not remove
it, so the next append goes on in the same line, which is then not the last one any more and fails
every later load (`torn_line_joined`).

`registry_journal_survives`: as long as no append starts on such a rest, every load gives the
snapshot and the mutations that were acknowledged, in order; one that was interrupted is there as a
whole or not at all.
-/

namespace Traverse.Server

open Json Lines List Machine

/-- The entries of a snapshot or of one mutation. -/
structure Entries (ρ ε ω : Type) where
  registrations : List ρ
  events : List ε
  workflows : List ω
  deriving DecidableEq

variable {ρ ε ω : Type}

def Entries.extend (p m : Entries ρ ε ω) : Entries ρ ε ω :=
  ⟨p.registrations ++ m.registrations, p.events ++ m.events, p.workflows ++ m.workflows⟩

/-- `serde_json` for mutations. A text that ends too early is an error. -/
structure MutationCodec (ρ ε ω : Type) where
  toVec : Entries ρ ε ω → Bytes
  fromSlice : Bytes → Except String (Entries ρ ε ω)
  isLine : ∀ m, IsLine (toVec m)
  fromSlice_toVec : ∀ m, fromSlice (toVec m) = .ok m
  fromSlice_take : ∀ m k, k < (toVec m).length → ∃ e, fromSlice ((toVec m).take k) = .error e

/-- The two files of a workspace. The snapshot has been read. -/
structure RegistryFiles (ρ ε ω : Type) where
  snapshot : Entries ρ ε ω
  journal : Option Bytes

variable (codec : MutationCodec ρ ε ω)

/-- The loop of `load_registry_journal`. -/
def loadLines (path : String) : List Bytes → Entries ρ ε ω → Except String (Entries ρ ε ω)
  | [], p => .ok p
  | line :: rest, p =>
    if line.isEmpty then loadLines path rest p
    else
      match codec.fromSlice line with
      | .ok m => loadLines path rest (p.extend m)
      | .error e =>
        if rest.isEmpty then .ok p
        else .error s!"failed to parse persisted registry journal at {path}: {e}"

def loadPersistedRegistry (path : String) (w : RegistryFiles ρ ε ω) :
    Except String (Entries ρ ε ω) :=
  match w.journal with
  | none => .ok w.snapshot
  | some bytes => loadLines codec path (bytes.splitOnP (· == newline)) w.snapshot

/-- Calls of `append_registry_mutation`: one that returns, and one that the process does not
survive. -/
inductive AppendCall (ρ ε ω : Type) where
  | append (m : Entries ρ ε ω)
  | crash (m : Entries ρ ε ω) (written : Nat)

def written : AppendCall ρ ε ω → Bytes
  | .append m => codec.toVec m ++ [newline]
  | .crash m written => (codec.toVec m ++ [newline]).take written

def appendRegistryMutation (w : RegistryFiles ρ ε ω) (call : AppendCall ρ ε ω) :
    Option (RegistryFiles ρ ε ω) :=
  some { w with journal := some (w.journal.getD [] ++ written codec call) }

/-! ## What a load may give -/

/-- The mutations that calls leave behind: those that were acknowledged, and interrupted ones as a
whole or not at all. -/
inductive Recorded : List (AppendCall ρ ε ω) → List (Entries ρ ε ω) → Prop where
  | nil : Recorded [] []
  | acknowledged (m : Entries ρ ε ω) {calls : List (AppendCall ρ ε ω)} {ms : List (Entries ρ ε ω)}
      (h : Recorded calls ms) : Recorded (.append m :: calls) (m :: ms)
  | lost (m : Entries ρ ε ω) (k : Nat) {calls : List (AppendCall ρ ε ω)}
      {ms : List (Entries ρ ε ω)} (h : Recorded calls ms) : Recorded (.crash m k :: calls) ms
  | kept (m : Entries ρ ε ω) (k : Nat) {calls : List (AppendCall ρ ε ω)}
      {ms : List (Entries ρ ε ω)} (h : Recorded calls ms) : Recorded (.crash m k :: calls) (m :: ms)

/-- The journal does not end in the rest of an interrupted append. -/
def Unbroken (w : RegistryFiles ρ ε ω) (_ : AppendCall ρ ε ω) : Prop :=
  w.journal.getD [] = [] ∨ endsWithNewline (w.journal.getD []) = true
  deriving Decidable

section Load

variable {codec} {path : String} {w : RegistryFiles ρ ε ω}

theorem loadLines_append (ms : List (Entries ρ ε ω)) (rest : List Bytes) (p : Entries ρ ε ω) :
    loadLines codec path (ms.map codec.toVec ++ rest) p =
      loadLines codec path rest (ms.foldl Entries.extend p) := by
  induction ms generalizing p with
  | nil => rfl
  | cons m ms ih =>
    have hne : (codec.toVec m).isEmpty = false := by simpa using (codec.isLine m).ne_nil
    rw [map_cons, cons_append, loadLines, hne, codec.fromSlice_toVec]
    exact ih _

/-- What a load makes of whole lines and an unterminated rest. -/
theorem load_eq {ms : List (Entries ρ ε ω)} {tail : Bytes}
    (hjournal : w.journal.getD [] = terminated (ms.map codec.toVec) ++ tail)
    (htail : newline ∉ tail) :
    loadPersistedRegistry codec path w =
      loadLines codec path [tail] (ms.foldl Entries.extend w.snapshot) := by
  have hsplit : (w.journal.getD []).splitOnP (· == newline) = ms.map codec.toVec ++ [tail] := by
    rw [hjournal]
    clear hjournal
    induction ms with
    | nil => exact splitOnP_eq_singleton (not_newline_of_not_mem htail)
    | cons m ms ih =>
      rw [map_cons, terminated, append_assoc, cons_append, splitOnP_append_cons_of_forall_mem
        (not_newline_of_not_mem (codec.isLine m).no_newline) newline (by simp), ih, cons_append]
  rw [← loadLines_append, ← hsplit, loadPersistedRegistry]
  cases w.journal with
  | none | some => rfl

theorem load_torn (m : Entries ρ ε ω) (k : Nat) (p : Entries ρ ε ω) :
    loadLines codec path [(codec.toVec m).take k] p =
      .ok (if (codec.toVec m).length ≤ k then p.extend m else p) := by
  by_cases hk : (codec.toVec m).length ≤ k
  · have hne : (codec.toVec m).isEmpty = false := by simpa using (codec.isLine m).ne_nil
    rw [take_of_length_le hk, if_pos hk, loadLines, hne, codec.fromSlice_toVec]
    rfl
  · obtain ⟨e, he⟩ := codec.fromSlice_take m k (Nat.lt_of_not_le hk)
    rw [if_neg hk, loadLines, he]
    split <;> rfl

/-- From whole lines on, calls that start on whole lines leave what is recorded. -/
theorem load_recorded {calls : List (AppendCall ρ ε ω)} {w w' : RegistryFiles ρ ε ω}
    {ms : List (Entries ρ ε ω)} (hjournal : w.journal.getD [] = terminated (ms.map codec.toVec))
    (halong : Along (appendRegistryMutation codec) Unbroken w calls)
    (hrun : run (appendRegistryMutation codec) w calls = some w') :
    ∃ ms', Recorded calls ms' ∧ loadPersistedRegistry codec path w' =
      .ok ((ms ++ ms').foldl Entries.extend w.snapshot) := by
  induction calls generalizing w ms with
  | nil =>
    cases hrun
    refine ⟨[], .nil, ?_⟩
    rw [load_eq (hjournal.trans (append_nil _).symm) (by simp), append_nil]
    rfl
  | cons call calls ih =>
    have hrest := halong.2 _ rfl
    -- the call has added one line, nothing, or the rest that no further call starts on
    have hline : ∀ m, written codec call = codec.toVec m ++ [newline] →
        (∀ {calls ms}, Recorded calls ms → Recorded (call :: calls) (m :: ms)) →
        ∃ ms', Recorded (call :: calls) ms' ∧ loadPersistedRegistry codec path w' =
          .ok ((ms ++ ms').foldl Entries.extend w.snapshot) := by
      intro m hwritten hrecords
      have hlines : w.journal.getD [] ++ written codec call =
          terminated ((ms ++ [m]).map codec.toVec) := by
        rw [map_append, terminated_append, hjournal, hwritten]
        rfl
      obtain ⟨ms', hms', hload⟩ := @ih ⟨w.snapshot, some _⟩ (ms ++ [m]) hlines hrest hrun
      exact ⟨m :: ms', hrecords hms', by rw [hload, append_assoc]; rfl⟩
    cases call with
    | append m => exact hline m rfl (.acknowledged m)
    | crash m k =>
      rcases Nat.eq_zero_or_pos k with rfl | hpos
      · obtain ⟨ms', hms', hload⟩ := @ih ⟨w.snapshot, some _⟩ ms
          ((append_nil _).trans hjournal) hrest hrun
        exact ⟨ms', .lost m 0 hms', hload⟩
      by_cases hk : (codec.toVec m).length < k
      · exact hline m (take_of_length_le (by simp; omega)) (.kept m k)
      have htake : written codec (.crash m k) = (codec.toVec m).take k :=
        take_append_of_le_length (Nat.le_of_not_lt hk)
      have htail : newline ∉ (codec.toVec m).take k :=
        fun h => (codec.isLine m).no_newline (mem_of_mem_take h)
      have hne : (codec.toVec m).take k ≠ [] := by
        simp [(codec.isLine m).ne_nil, Nat.pos_iff_ne_zero.1 hpos]
      have hbroken : (w.journal.getD [] ++ written codec (.crash m k)) =
          terminated (ms.map codec.toVec) ++ (codec.toVec m).take k := by
        rw [hjournal, htake]
      cases calls with
      | nil =>
        cases hrun
        rw [@load_eq _ _ _ _ _ ⟨w.snapshot, some _⟩ _ _ hbroken htail, load_torn]
        by_cases hlen : (codec.toVec m).length ≤ k
        · exact ⟨[m], .kept m k .nil, by rw [if_pos hlen, foldl_append]; rfl⟩
        · exact ⟨[], .lost m k .nil, by rw [if_neg hlen, append_nil]⟩
      | cons next calls =>
        rcases hrest.1 with hnil | hends
        · exact absurd (append_eq_nil_iff.1 (hbroken.symm.trans hnil)).2 hne
        · exact absurd (hends.symm.trans (hbroken ▸ endsWithNewline_of_tail htail hne)) (by simp)

end Load

/-- In every run in which no append starts on the rest of an interrupted one, a load gives the
snapshot and what the calls have recorded. -/
theorem registry_journal_survives {codec : MutationCodec ρ ε ω} (path : String)
    {snapshot : Entries ρ ε ω} {calls : List (AppendCall ρ ε ω)} {w : RegistryFiles ρ ε ω}
    (halong : Along (appendRegistryMutation codec) Unbroken ⟨snapshot, none⟩ calls)
    (hrun : run (appendRegistryMutation codec) ⟨snapshot, none⟩ calls = some w) :
    ∃ ms, Recorded calls ms ∧
      loadPersistedRegistry codec path w = .ok (ms.foldl Entries.extend snapshot) :=
  load_recorded (show _ = terminated (map codec.toVec []) from rfl) halong hrun

/-! ## A journal of JSON lines -/

/-- The entries themselves are any JSON. -/
def mutationJson (m : Entries Value Value Value) : Value :=
  .obj [("registrations", .arr m.registrations), ("events", .arr m.events),
    ("workflows", .arr m.workflows)]

def mutationOf : Value → Option (Entries Value Value Value)
  | .obj [(_, .arr registrations), (_, .arr events), (_, .arr workflows)] =>
    some ⟨registrations, events, workflows⟩
  | _ => none

/-- Reads what it writes, and nothing else. -/
def jsonMutations : MutationCodec Value Value Value where
  toVec m := encode (mutationJson m)
  fromSlice b :=
    match (decodeAscii b).bind mutationOf with
    | some m => if b = encode (mutationJson m) then .ok m else .error "expected value"
    | none => .error "EOF while parsing"
  isLine m := isLine_encode _
  fromSlice_toVec m := by
    rw [← decode_eq, decode_encode]
    exact if_pos rfl
  fromSlice_take m k hk := by
    split
    · exact ⟨_, if_neg fun h => Nat.not_le_of_lt hk (length_le_of_take h)⟩
    · exact ⟨_, rfl⟩

/-- One registration is acknowledged; the append of another one is interrupted. -/
def interrupted : List (AppendCall Value Value Value) :=
  [.append ⟨[.str "pay"], [], []⟩, .crash ⟨[.str "ship"], [], []⟩ 20]

theorem registry_journal_survives_interrupted : ∃ w ms,
    run (appendRegistryMutation jsonMutations) ⟨⟨[], [], []⟩, none⟩ interrupted = some w ∧
    Recorded interrupted ms ∧ loadPersistedRegistry jsonMutations "capabilities.jsonl" w =
      .ok (ms.foldl Entries.extend ⟨[], [], []⟩) := by
  obtain ⟨ms, hms, hload⟩ := @registry_journal_survives _ _ _ jsonMutations "capabilities.jsonl"
    ⟨[], [], []⟩ interrupted _ (by decide +kernel) rfl
  exact ⟨_, ms, rfl, hms, hload⟩

/-- The next append is acknowledged, and no load succeeds any more. -/
theorem torn_line_joined : ∃ w, run (appendRegistryMutation jsonMutations) ⟨⟨[], [], []⟩, none⟩
      (interrupted ++ [.append ⟨[.str "ship"], [], []⟩]) = some w ∧
    loadPersistedRegistry jsonMutations "capabilities.jsonl" w = .error
      "failed to parse persisted registry journal at capabilities.jsonl: EOF while parsing" :=
  ⟨_, rfl, by decide +kernel⟩

end Traverse.Server

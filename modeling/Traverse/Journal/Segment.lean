import Traverse.Journal.Basic

/-!
# Journal.Segment

What reading one segment file returns. A file is described by the records whose lines are
complete and the unterminated rest after them:

* `readSegmentRecords_ok`: the recovery scan returns exactly the complete records, provided the
  rest is empty or a torn tail is allowed.
* `refreshSegmentCache_ok`: the incremental reader returns the same, from any cache entry that
  holds a first part of the records.
-/

namespace Traverse.Journal

open Lines List

section

variable {ε : Type} (c : RecordCodec ε)

/-- The bytes of a segment with complete records `rs` and unterminated rest `tail`. -/
def segmentBytes (rs : List (JournalRecordV1 ε)) (tail : Bytes) : Bytes :=
  terminated (rs.map c.toVec) ++ tail

/-- Sequence numbers increase strictly, starting above `last`. -/
def Ascending (last : Option Nat) (rs : List (JournalRecordV1 ε)) : Prop :=
  (∀ s ∈ last, ∀ r ∈ rs, s < r.seq) ∧ rs.Pairwise fun a b => a.seq < b.seq

theorem ascending_none {rs : List (JournalRecordV1 ε)} :
    Ascending none rs ↔ rs.Pairwise fun a b => a.seq < b.seq := by
  simp [Ascending]

variable {last : Option Nat}

theorem Ascending.tail {r : JournalRecordV1 ε} {rs : List (JournalRecordV1 ε)}
    (h : Ascending last (r :: rs)) : Ascending (some r.seq) rs := by
  obtain ⟨_, hp⟩ := h
  rw [pairwise_cons] at hp
  refine ⟨fun s hs x hx => ?_, hp.2⟩
  cases hs
  exact hp.1 x hx

theorem Ascending.right {rs ss : List (JournalRecordV1 ε)} (h : Ascending last (rs ++ ss)) :
    Ascending ((rs.getLast?.map (·.seq)).or last) ss := by
  obtain ⟨hl, hp⟩ := h
  rw [pairwise_append] at hp
  refine ⟨fun s hs x hx => ?_, hp.2.1⟩
  cases hr : rs.getLast? with
  | none =>
    rw [hr] at hs
    exact hl s (by simpa using hs) x (by simp [hx])
  | some r =>
    rw [hr] at hs
    cases hs
    exact hp.2.2 r (mem_of_getLast? hr) x hx

theorem isLine_map_toVec (rs : List (JournalRecordV1 ε)) : ∀ l ∈ rs.map c.toVec, IsLine l := by
  intro l hl
  obtain ⟨r, _, rfl⟩ := mem_map.1 hl
  exact c.isLine_toVec r

/-! ## The record loop -/

section Parse

variable {path : String} {allow ends : Bool}

variable {line : Nat} {rs : List (JournalRecordV1 ε)} {tail : Bytes}

theorem parseChunks_cons {r : JournalRecordV1 ε} {rest : List Bytes} (hn : ends = true ∨ rest ≠ [])
    (hl : ∀ s ∈ last, s < r.seq) :
    parseChunks c path allow ends line last (c.toVec r :: rest) =
      match parseChunks c path allow ends (line + 1) (some r.seq) rest with
      | .ok (records, bytes) => .ok (r :: records, (c.toVec r).length + 1 + bytes)
      | .error e => .error e := by
  have hfilter : last.filter (r.seq ≤ ·) = none := by
    cases last with
    | none => rfl
    | some s =>
      have := hl s rfl
      simp only [Option.filter, decide_eq_true_eq, ite_eq_right_iff, reduceCtorEq, imp_false]
      omega
  have htorn : (!ends && rest.isEmpty) = false := by
    rcases hn with h | h
    · simp [h]
    · simp [h]
  rw [parseChunks]
  cases hrest : parseChunks c path allow ends (line + 1) (some r.seq) rest with
  | error | ok => simp only [c.fromSlice_toVec, htorn, hfilter, hrest, Bool.false_eq_true, if_false]

theorem parseChunks_records :
    ∀ {line : Nat} {last : Option Nat} {rest : List Bytes}, ends = true ∨ rest ≠ [] →
      Ascending last rs →
      parseChunks c path allow ends line last (rs.map c.toVec ++ rest) =
        match parseChunks c path allow ends (line + rs.length)
            ((rs.getLast?.map (·.seq)).or last) rest with
        | .ok (records, bytes) =>
          .ok (rs ++ records, (terminated (rs.map c.toVec)).length + bytes)
        | .error e => .error e := by
  induction rs with
  | nil =>
    intro line last rest _ _
    simp only [map_nil, nil_append, length_nil, Nat.add_zero, terminated_nil,
      List.getLast?_nil, Option.map_none, Option.none_or, Nat.zero_add]
    cases parseChunks c path allow ends line last rest with
    | error | ok => rfl
  | cons r rs ih =>
    intro line last rest hn ha
    have hrest : ends = true ∨ rs.map c.toVec ++ rest ≠ [] := by
      rcases hn with h | h
      · exact .inl h
      · exact .inr (by simp [h])
    rw [map_cons, cons_append,
      parseChunks_cons c hrest (fun s hs => ha.1 s hs r (by simp)), ih hn ha.tail]
    have hlast : ((rs.getLast?.map (·.seq)).or (some r.seq)) =
        (((r :: rs).getLast?.map (·.seq)).or last) := by
      cases h : rs.getLast? with
      | none => simp [List.getLast?_eq_none_iff.1 h]
      | some s => simp [List.getLast?_cons, h]
    rw [hlast, show line + 1 + rs.length = line + (r :: rs).length by simp; omega]
    cases parseChunks c path allow ends (line + (r :: rs).length)
        (((r :: rs).getLast?.map (·.seq)).or last) rest with
    | error e => rfl
    | ok p =>
      simp only [terminated, length_append, length_cons, cons_append]
      congr 2; omega

theorem parseChunks_segment (ha : Ascending last rs) (ht : newline ∉ tail)
    (hallow : allow = true ∨ tail = []) :
    parseChunks c path allow (endsWithNewline (segmentBytes c rs tail)) line last
        (chunks (segmentBytes c rs tail)) =
      .ok (rs, (terminated (rs.map c.toVec)).length) := by
  rw [show chunks (segmentBytes c rs tail) = _ from chunks_terminated (isLine_map_toVec c rs) ht]
  by_cases htail : tail = []
  · subst htail
    by_cases hrs : rs = []
    · subst hrs; simp [parseChunks]
    have he : endsWithNewline (segmentBytes c rs []) = true := by
      rw [segmentBytes, append_nil]
      exact endsWithNewline_terminated (by simpa using hrs)
    rw [he, if_pos rfl, parseChunks_records c (.inl rfl) ha]
    simp [parseChunks]
  · have hallow' : allow = true := hallow.resolve_right htail
    have he : endsWithNewline (segmentBytes c rs tail) = false :=
      endsWithNewline_of_tail ht htail
    rw [he, if_neg htail, parseChunks_records c (.inr (by simp)) ha, hallow',
      parseChunks]
    -- the last, unterminated chunk ends the loop quietly
    cases c.fromSlice tail <;> simp

end Parse

/-! ## The recovery scan -/

section Read

variable {dir : Dir} {path : String} {rs : List (JournalRecordV1 ε)} {tail : Bytes}

variable {allow : Bool} {cache : SegmentReadCache ε}

theorem readSegmentRecords_ok (hf : dir.find path = some (segmentBytes c rs tail))
    (ha : Ascending none rs) (ht : newline ∉ tail) (hallow : allow = true ∨ tail = []) :
    readSegmentRecords c dir path allow = .ok rs := by
  simp only [readSegmentRecords, hf]
  rw [parseChunks_segment c ha ht hallow]

/-! ## The incremental reader -/

/-- A cache entry that has consumed the first `k` records. -/
def cacheAt (rs : List (JournalRecordV1 ε)) (k : Nat) : SegmentReadCache ε where
  consumedBytes := (terminated ((rs.take k).map c.toVec)).length
  consumedLines := k
  records := rs.take k

/-- The entry holds a first part of the records. -/
def Coherent (rs : List (JournalRecordV1 ε)) (cache : SegmentReadCache ε) : Prop :=
  ∃ k ≤ rs.length, cache = cacheAt c rs k

theorem coherent_default (rs : List (JournalRecordV1 ε)) : Coherent c rs .default :=
  ⟨0, Nat.zero_le _, by simp [cacheAt, SegmentReadCache.default]⟩

theorem Coherent.append (h : Coherent c rs cache) (ss : List (JournalRecordV1 ε)) :
    Coherent c (rs ++ ss) cache := by
  obtain ⟨k, hk, rfl⟩ := h
  exact ⟨k, by simp; omega, by simp [cacheAt, take_append_of_le_length hk]⟩

theorem segmentBytes_split (k : Nat) :
    segmentBytes c rs tail =
      terminated ((rs.take k).map c.toVec) ++ segmentBytes c (rs.drop k) tail := by
  simp only [segmentBytes, ← append_assoc, ← terminated_append, ← map_append, take_append_drop]

/-- What an entry at `k` has yet to read, and the number its next record must exceed. -/
theorem cacheAt_rest (ha : Ascending none rs) (tail : Bytes) (k : Nat) :
    (segmentBytes c rs tail).drop (cacheAt c rs k).consumedBytes =
        segmentBytes c (rs.drop k) tail ∧
      Ascending ((cacheAt c rs k).records.getLast?.map (·.seq)) (rs.drop k) := by
  constructor
  · rw [segmentBytes_split c k]; exact drop_left' rfl
  · have hsplit : Ascending none (rs.take k ++ rs.drop k) := by
      rw [take_append_drop]; exact ha
    simpa [cacheAt] using hsplit.right

section

variable (hf : dir.find path = some (segmentBytes c rs tail)) (ha : Ascending none rs)
  (ht : newline ∉ tail)

include hf ha ht

theorem refreshSegmentCache_ok (hallow : allow = true ∨ tail = []) (hc : Coherent c rs cache) :
    refreshSegmentCache c dir cache path allow = .ok (cacheAt c rs rs.length) := by
  obtain ⟨k, hk, rfl⟩ := hc
  obtain ⟨hdrop, hasc⟩ := cacheAt_rest c ha tail k
  have hlen : (segmentBytes c rs tail).length =
      (cacheAt c rs k).consumedBytes + (segmentBytes c (rs.drop k) tail).length := by
    rw [segmentBytes_split c k, length_append]
    rfl
  simp only [refreshSegmentCache, hf]
  by_cases hle : (segmentBytes c rs tail).length ≤ (cacheAt c rs k).consumedBytes
  · -- nothing is left to read, so the entry was already complete
    rw [if_pos hle]
    have hnil := length_eq_zero_iff.1 (show (segmentBytes c (rs.drop k) tail).length = 0 by omega)
    simp only [segmentBytes, append_eq_nil_iff, terminated_eq_nil, map_eq_nil_iff,
      drop_eq_nil_iff] at hnil
    rw [show k = rs.length by omega]
  · rw [if_neg hle, hdrop, parseChunks_segment c hasc ht hallow]
    simp only [cacheAt, take_append_drop, take_length, length_drop]
    congr 2
    · rw [← length_append, ← terminated_append, ← map_append, take_append_drop]
    · omega

theorem cachedSegmentRecords_ok {cache : String → SegmentReadCache ε}
    (hallow : allow = true ∨ tail = []) (hc : Coherent c rs (cache path)) :
    cachedSegmentRecords c dir cache path allow =
      (.ok rs, fun p => if p = path then cacheAt c rs rs.length else cache p) := by
  simp only [cachedSegmentRecords, refreshSegmentCache_ok c hf ha ht hallow hc]
  simp [cacheAt]

end

end Read

end

end Traverse.Journal

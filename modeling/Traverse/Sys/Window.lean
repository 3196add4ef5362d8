import Mathlib.Data.List.Nodup

/-!
# Sys.Window

Logs of which only the recent part can be read. Entries are appended in the order of their times;
an entry is found again by its cursor, and a reader that names one gets what comes after it.

`read_recent` is what such a reader relies on: as long as the entry is recent, what it gets is the
rest of the whole log. `find_expired` is the other half: the cursor of an entry that is not recent
is not found.
-/

namespace Window

open List

variable {α κ : Type*}

section Time

variable (time : α → Nat)

/-- What is not older than `floor`. -/
def recent (floor : Nat) (log : List α) : List α := log.filter fun a => floor ≤ time a

def Ordered (log : List α) : Prop := log.Pairwise fun a b => time a ≤ time b

variable {time} {floor : Nat} {log : List α}

variable {a : α}

theorem mem_recent : a ∈ recent time floor log ↔ a ∈ log ∧ floor ≤ time a := by
  simp [recent]

theorem Ordered.append (h : Ordered time log) (ha : ∀ b ∈ log, time b ≤ time a) :
    Ordered time (log ++ [a]) := by
  refine pairwise_append.2 ⟨h, pairwise_singleton _ _, fun b hb c hc => ?_⟩
  rw [mem_singleton.1 hc]
  exact ha b hb

theorem recent_eq_self (h : ∀ a ∈ log, floor ≤ time a) : recent time floor log = log :=
  filter_eq_self.2 fun a ha => decide_eq_true (h a ha)

theorem recent_append (log' : List α) :
    recent time floor (log ++ log') = recent time floor log ++ recent time floor log' :=
  filter_append ..

theorem dropWhile_eq_recent (h : Ordered time log) :
    log.dropWhile (fun a => time a < floor) = recent time floor log := by
  induction log with
  | nil => rfl
  | cons a log ih =>
    obtain ⟨ha, hlog⟩ := pairwise_cons.1 h
    by_cases hlt : time a < floor
    · have hrec : recent time floor (a :: log) = recent time floor log :=
        filter_cons_of_neg (by simpa using hlt)
      rw [dropWhile_cons_of_pos (by simpa using hlt), hrec]
      exact ih hlog
    · rw [dropWhile_cons_of_neg (by simpa using hlt)]
      refine (recent_eq_self fun b hb => ?_).symm
      rcases mem_cons.1 hb with rfl | hb
      · omega
      · have := ha b hb
        omega

theorem recent_recent {floor' : Nat} (h : floor ≤ floor') :
    recent time floor' (recent time floor log) = recent time floor' log := by
  simp only [recent, filter_filter]
  refine filter_congr fun a _ => ?_
  simp only [Bool.and_eq_left_iff_imp, decide_eq_true_eq]
  omega

theorem Ordered.recent (h : Ordered time log) : Ordered time (recent time floor log) :=
  List.Pairwise.filter _ h

end Time

section Cursor

variable [DecidableEq κ] {cursor : α → κ} {time : α → Nat} {floor : Nat} {log : List α}

variable {before rest : List α} {a : α}

theorem find_append (h : cursor a ∉ before.map cursor) :
    (before ++ a :: rest).findIdx? (fun b => cursor b = cursor a) = some before.length := by
  induction before with
  | nil => simp [List.findIdx?_cons]
  | cons b before ih =>
    rw [map_cons, mem_cons, not_or] at h
    rw [cons_append, List.findIdx?_cons, if_neg (by simpa using Ne.symm h.1), ih h.2]
    rfl

omit [DecidableEq κ] in
theorem nodup_recent (hn : (log.map cursor).Nodup) : ((recent time floor log).map cursor).Nodup :=
  hn.sublist (filter_sublist.map cursor)

/-- The entry is found among the recent ones, and after it comes the rest of the log. -/
theorem read_recent (ho : Ordered time (before ++ a :: rest))
    (hn : ((recent time floor (before ++ a :: rest)).map cursor).Nodup) (ha : floor ≤ time a) :
    ∃ i, (recent time floor (before ++ a :: rest)).findIdx? (fun b => cursor b = cursor a) =
      some i ∧ (recent time floor (before ++ a :: rest)).drop (i + 1) = rest := by
  have hlater : ∀ b ∈ a :: rest, floor ≤ time b := by
    intro b hb
    rcases mem_cons.1 hb with rfl | hb
    · exact ha
    · exact Nat.le_trans ha ((pairwise_cons.1 (pairwise_append.1 ho).2.1).1 b hb)
  rw [recent_append, recent_eq_self hlater] at hn ⊢
  have hfresh : cursor a ∉ (recent time floor before).map cursor := by
    rw [map_append, nodup_append] at hn
    exact fun hmem => hn.2.2 _ hmem _ (mem_cons_self ..) rfl
  exact ⟨_, find_append hfresh, by simp⟩

/-- An entry that is not recent has a cursor that is not found, unless the cursor is used twice. -/
theorem find_expired (hn : (log.map cursor).Nodup) (hmem : a ∈ log) (ha : time a < floor) :
    (recent time floor log).findIdx? (fun b => cursor b = cursor a) = none := by
  rw [List.findIdx?_eq_none_iff]
  intro b hb
  rw [mem_recent] at hb
  rw [decide_eq_false_iff_not]
  intro hcursor
  obtain rfl : b = a := inj_on_of_nodup_map hn hb.1 hmem hcursor
  omega

end Cursor

end Window

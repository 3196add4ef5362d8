import Traverse.Hosted.SideBySide

/-!
# Hosted.Interchange

The answers of the two transports are the same up to the names of cursors exactly as long as the
in-memory transport names things apart (`OwnCursor`, `transports_agree_iff`); it does not if it
accepts an operation after another has expired, see `transports_differ`.
-/

namespace Traverse.Hosted

open Lines Window List SharedRelay Machine
open AblyHostedSyncTransport (ablyChannelForScope)

namespace SideBySide

variable {sha256 : Bytes → Bytes} {scope : String} {tokens : String → List String} {s : SideBySide}

/-! ## Names of cursors -/

theorem deduplicated_cursor_toList (id : String) :
    (deduplicated id).cursor.toList = "cursor:".toList ++ id.toList := by
  simp [deduplicated, toString]

theorem deduplicated_cursor_ne_start (id : String) :
    (deduplicated id).cursor ≠ "0" ∧ (deduplicated id).cursor ≠ "" := by
  constructor <;>
  · intro h
    have := congrArg String.toList h
    rw [deduplicated_cursor_toList] at this
    simp at this

/-- A channel is no cursor of the in-memory transport: it starts with `ably`. -/
theorem channelCursor_ne_deduplicated (scope id : String) (seq : Nat) :
    InMemoryAblyEdge.channelCursor (ablyChannelForScope sha256 scope) seq ≠
      (deduplicated id).cursor := by
  intro h
  have := congrArg String.toList h
  rw [deduplicated_cursor_toList] at this
  simp [InMemoryAblyEdge.channelCursor, ablyChannelForScope,
    toString] at this

namespace Together

variable {pair : Publication × Publication} {p q : Publication}

variable (h : Together sha256 scope tokens s)

include h

/-- Over Ably an accepted publication has the cursor of its place in the channel. -/
theorem ably_cursor (hpair : pair ∈ s.ledger) (hrepeated : pair.1.repeated = false) :
    ∃ i < s.ably.accepted.length, pair.2.receipt.cursor = InMemoryAblyEdge.channelCursor
      (ablyChannelForScope sha256 scope) (i + 1) := by
  have hmem : pair.2.receipt.cursor ∈ s.ably.accepted.map (·.receipt.cursor) := by
    rw [h.accepted.2]
    exact mem_map_of_mem (mem_map_of_mem (mem_filter.2 ⟨hpair, by simp [hrepeated]⟩))
  rw [← AblyHostedSyncTransport.channelLog_eq_accepted sha256 h.oneScope, h.ably.cursors,
    AblyHostedSyncTransport.channelLog_eq_accepted sha256 h.oneScope] at hmem
  obtain ⟨i, hi, hcursor⟩ := mem_map.1 hmem
  exact ⟨i, mem_range.1 hi, hcursor.symm⟩

theorem cursor_ne_start (hpair : pair ∈ s.ledger) :
    (pair.1.receipt.cursor ≠ "0" ∧ pair.1.receipt.cursor ≠ "") ∧
      pair.2.receipt.cursor ≠ "0" ∧ pair.2.receipt.cursor ≠ "" := by
  cases hrepeated : pair.1.repeated with
  | true =>
    obtain ⟨hp, hq⟩ := (h.twins pair hpair).deduplicated hrepeated
    rw [hp, hq]
    exact ⟨deduplicated_cursor_ne_start _, deduplicated_cursor_ne_start _⟩
  | false =>
    obtain ⟨i, _, hcursor⟩ := h.ably_cursor hpair hrepeated
    obtain ⟨seq, hseq⟩ := h.relay.named pair.1
      (Run.mem_accepted.2 ⟨(of_mem_zip hpair).1, hrepeated⟩)
    rw [hcursor, hseq]
    exact ⟨cursorText_ne_start seq, InMemoryAblyEdge.channelCursor_ne_start _ _⟩

/-- Over Ably an acknowledgement has the cursor of an earlier one exactly if both are repetitions of
the same id. -/
theorem ably_names_apart (htwins : Twins p q)
    (hnew : Acknowledged sha256 scope s p q) (hpair : pair ∈ s.ledger) :
    pair.2.receipt.cursor = q.receipt.cursor ↔
      pair.1.repeated = true ∧ pair.1.operation.operationId = p.operation.operationId := by
  rcases hnew with ⟨_, hrepeated⟩ | ⟨hacc, _, _, hcursor⟩
  · rw [(htwins.deduplicated hrepeated).2]
    cases hold : pair.1.repeated with
    | true =>
      rw [((h.twins pair hpair).deduplicated hold).2]
      constructor
      · intro hsame
        have hcursors := congrArg String.toList hsame
        rw [deduplicated_cursor_toList, deduplicated_cursor_toList, append_cancel_left_eq]
          at hcursors
        exact ⟨rfl, String.toList_injective hcursors⟩
      · rintro ⟨_, hid⟩
        rw [hid]
    | false =>
      obtain ⟨i, _, hi⟩ := h.ably_cursor hpair hold
      rw [hi]
      refine ⟨fun hsame => absurd hsame (channelCursor_ne_deduplicated _ _ _), ?_⟩
      rintro ⟨htrue, _⟩
      cases htrue
  · rw [hcursor]
    constructor
    · intro hsame
      exfalso
      cases hold : pair.1.repeated with
      | true =>
        rw [((h.twins pair hpair).deduplicated hold).2] at hsame
        exact channelCursor_ne_deduplicated _ _ _ hsame.symm
      | false =>
        obtain ⟨i, hlt, hi⟩ := h.ably_cursor hpair hold
        rw [hi] at hsame
        have := InMemoryAblyEdge.channelCursor_injective _ hsame
        omega
    · rintro ⟨_, hid⟩
      exact absurd (hid ▸ h.relay.booked.first pair.1 (of_mem_zip hpair).1) hacc

/-- The in-memory transport does likewise if and only if it acknowledges with a cursor of its
own. -/
theorem ownCursor_iff {s₁ : SharedRelay} (htwins : Twins p q)
    (hpublish : (inMemory sha256).publish s.relay.transport p.operation = (.ok p.receipt, s₁))
    (hnew : Acknowledged sha256 scope s p q) :
    OwnCursor s (.publish p.operation) ↔ ∀ pair ∈ s.ledger,
      (pair.1.receipt.cursor = p.receipt.cursor ↔ pair.2.receipt.cursor = q.receipt.cursor) := by
  have hnext : s.publishCursor p.operation = some p.receipt.cursor := by
    rw [publishCursor_eq sha256, hpublish]
    rfl
  constructor
  · intro hown pair hpair
    rw [h.ably_names_apart htwins hnew hpair]
    refine ⟨hown _ hnext pair.1 (of_mem_zip hpair).1, fun ⟨hold, hid⟩ => ?_⟩
    rcases hnew with ⟨_, hrepeated⟩ | ⟨hacc, _⟩
    · rw [((h.twins pair hpair).deduplicated hold).1, (htwins.deduplicated hrepeated).1, hid]
    · exact absurd (hid ▸ h.relay.booked.first pair.1 (of_mem_zip hpair).1) hacc
  · intro hsame cursor hcursor₀ p₀ hp₀ hcursor
    cases hnext.symm.trans hcursor₀
    rw [← h.fst_ledger] at hp₀
    obtain ⟨pair, hpair, rfl⟩ := mem_map.1 hp₀
    exact (h.ably_names_apart htwins hnew hpair).1 ((hsame pair hpair).1 hcursor)

end Together

/-! ## Answers -/

/-- The cursors of two readers that name the same place in the log. -/
def SamePlace (log : List (Publication × Publication)) : Option String → Option String → Prop
  | none, none => True
  | some c, some c' =>
    (∀ pair ∈ log, pair.1.receipt.cursor = c ↔ pair.2.receipt.cursor = c') ∧
      ((c = "0" ∨ c = "") ↔ (c' = "0" ∨ c' = ""))
  | _, _ => False

variable {log : List (Publication × Publication)} {cursor cursor' : Option String}

theorem startOf_pairs (h : SamePlace log cursor cursor') :
    startOf (log.map Prod.fst) cursor = startOf (log.map Prod.snd) cursor' := by
  cases cursor with
  | none =>
    cases cursor' with
    | none => rfl
    | some _ => exact h.elim
  | some c =>
    cases cursor' with
    | none => exact h.elim
    | some c' =>
      have hfind : ((log.map Prod.fst).findIdx? fun p => p.receipt.cursor = c) =
          (log.map Prod.snd).findIdx? fun p => p.receipt.cursor = c' := by
        have hsame := h.1
        clear h
        induction log with
        | nil => rfl
        | cons pair log ih =>
          rw [forall_mem_cons] at hsame
          simp only [map_cons, List.findIdx?_cons, ih hsame.2, hsame.1]
      simp only [startOf, hfind, h.2]

/-- Two readers that name the same place get the same operations, or are both told that the place is
gone. -/
theorem answer_pairs (hlog : ∀ pair ∈ log, pair.1.operation = pair.2.operation)
    (h : SamePlace log cursor cursor') :
    (∃ operations c c', answer (log.map Prod.fst) cursor = .delivered operations c ∧
      answer (log.map Prod.snd) cursor' = .delivered operations c' ∧
      ((c, c') = (cursor.getD "0", cursor'.getD "0") ∨
        ∃ pair ∈ log, (c, c') = (pair.1.receipt.cursor, pair.2.receipt.cursor))) ∨
    (answer (log.map Prod.fst) cursor = .resyncRequired (log.head?.map (·.1.receipt.cursor)) ∧
      answer (log.map Prod.snd) cursor' =
        .resyncRequired (log.head?.map (·.2.receipt.cursor))) := by
  have hstart := startOf_pairs h
  simp only [answer, hstart]
  cases startOf (log.map Prod.snd) cursor' with
  | none =>
    refine .inr ⟨?_, ?_⟩ <;>
    · simp only [List.head?_map, Option.map_map]
      rfl
  | some i =>
    have hoperations : ((log.map Prod.snd).drop i).map (·.operation) =
        ((log.map Prod.fst).drop i).map (·.operation) := by
      rw [← map_drop, ← map_drop, map_map, map_map]
      exact map_congr_left fun pair hpair => (hlog pair (mem_of_mem_drop hpair)).symm
    simp only [hoperations]
    refine .inl ⟨_, _, _, rfl, rfl, ?_⟩
    rw [← map_drop, ← map_drop]
    rcases eq_nil_or_concat (log.drop i) with hnil | ⟨before, pair, hconcat⟩
    · rw [hnil]
      exact .inl rfl
    · refine .inr ⟨pair, mem_of_mem_drop (i := i) (by simp [hconcat]), ?_⟩
      simp [nextCursor, hconcat]

/-- As long as the in-memory transport names things apart, the two have answered alike, and every
cursor was handed out as the start or in an acknowledgement. -/
structure Alike (s : SideBySide) : Prop where
  indexed : SharedRelay.Indexed s.relay
  apart : ∀ pair ∈ s.ledger, ∀ other ∈ s.ledger,
    pair.1.receipt.cursor = other.1.receipt.cursor ↔ pair.2.receipt.cursor = other.2.receipt.cursor
  handed : ∀ pair ∈ s.handed, pair = ("0", "0") ∨
    ∃ p ∈ s.ledger, pair = (p.1.receipt.cursor, p.2.receipt.cursor)
  outcomes : ∀ outcome ∈ s.outcomes, outcome.1.erase = outcome.2.erase

namespace Together

theorem recent_pairs (h : Together sha256 scope tokens s) :
    ∃ log : List (Publication × Publication), (∀ pair ∈ log, pair ∈ s.ledger) ∧
      retained s.relay = log.map Prod.fst ∧
      recent (·.atMs) s.ably.transport.connection.floor s.ably.accepted = log.map Prod.snd := by
  let accepted := s.ledger.filter fun pair => !pair.1.repeated
  refine ⟨recent (·.1.atMs) s.relay.transport.connection.floor accepted, fun pair hpair => ?_,
    ?_, ?_⟩
  · exact mem_of_mem_filter (mem_recent.1 hpair).1
  · rw [retained, h.accepted.1, recent, filter_map]
    rfl
  · rw [h.connection, h.accepted.2, recent, filter_map]
    refine congrArg _ (filter_congr fun pair hpair => ?_)
    rw [Function.comp_apply, ← (h.twins pair (mem_of_mem_filter hpair)).atMs]

theorem replay (h : Together sha256 scope tokens s) (hindexed : SharedRelay.Indexed s.relay)
    (cursor : Option String) (hcursor : cursor' = none ∨ cursor' = some "0" ∨ s.ledger ≠ []) :
    (∃ e, (s.relay.transport.replayFrom cursor).1 = .error e ∧
      s.ably.transport.replayFrom sha256 cursor' = .error e) ∨
    ((s.relay.transport.replayFrom cursor).1 =
        .ok (answer (retained s.relay) cursor) ∧
      s.ably.transport.replayFrom sha256 cursor' = .ok (answer (recent (·.atMs)
        s.ably.transport.connection.floor s.ably.accepted) cursor')) := by
  cases hlive : s.relay.transport.connection.ensureLive with
  | error e =>
    refine .inl ⟨e, ?_, ?_⟩
    · simp only [replayFrom, hlive]
    · simp only [AblyHostedSyncTransport.replayFrom, h.connection, hlive]
  | ok session =>
    refine .inr ⟨by rw [replayFrom_answer h.relay hindexed hlive], ?_⟩
    have hscope := h.scope_of_live hlive
    have hlog := AblyHostedSyncTransport.channelLog_eq_accepted sha256 h.oneScope
    rw [← hscope] at hlog
    have htoken : session.token ∈ s.ably.transport.edge.tokens
        (ablyChannelForScope sha256 session.scope) := by
      rw [h.edgeTokens, hscope]
      exact h.session session (Connection.ensureLive_ok hlive).1
    rw [AblyHostedSyncTransport.replayFrom_answer h.ably (h.connection ▸ hlive) htoken, hlog]
    rcases hcursor with hnone | hzero | hledger
    · exact .inl hnone
    · exact .inr (.inl hzero)
    refine .inr (.inr ?_)
    rw [hlog]
    obtain ⟨pair, hpair⟩ := exists_mem_of_ne_nil _ hledger
    obtain ⟨q, hq, _⟩ := h.ably.booked.first pair.2 (of_mem_zip hpair).2
    exact ne_nil_of_mem hq

end Together

namespace Alike

theorem agrees (hs : Together sha256 scope tokens s) (h : Alike s) : s.Agrees where
  outcomes := h.outcomes
  names := by
    intro pair hpair other hother
    rcases h.handed pair hpair with rfl | ⟨p, hp, rfl⟩
    · rcases h.handed other hother with rfl | ⟨q, hq, rfl⟩
      · exact Iff.rfl
      · exact iff_of_false (Ne.symm (hs.cursor_ne_start hq).1.1)
          (Ne.symm (hs.cursor_ne_start hq).2.1)
    · rcases h.handed other hother with rfl | ⟨q, hq, rfl⟩
      · exact iff_of_false (hs.cursor_ne_start hp).1.1 (hs.cursor_ne_start hp).2.1
      · exact h.apart p hp q hq
  connectionState := by rw [hs.connection]
  lineage := hs.lineage

theorem start (tokens : String → List String) : Alike (start tokens) where
  indexed := .start
  apart := fun _ hpair => absurd hpair not_mem_nil
  handed := fun _ hpair => absurd hpair not_mem_nil
  outcomes := fun _ houtcome => absurd houtcome not_mem_nil

theorem samePlace (hs : Together sha256 scope tokens s) (h : Alike s)
    (hlog : ∀ pair ∈ log, pair ∈ s.ledger) {pair : String × String} (hpair : pair ∈ s.handed) :
    SamePlace log (some pair.1) (some pair.2) := by
  rcases h.handed pair hpair with rfl | ⟨p, hp, rfl⟩
  · exact ⟨fun other hother => iff_of_false (hs.cursor_ne_start (hlog other hother)).1.1
      (hs.cursor_ne_start (hlog other hother)).2.1, Iff.rfl⟩
  · have hstart := hs.cursor_ne_start hp
    exact ⟨fun other hother => h.apart other (hlog other hother) p hp,
      iff_of_false (not_or.2 hstart.1) (not_or.2 hstart.2)⟩

variable {s' : SideBySide}

/-- Outcomes that are the same up to the names of cursors, which are names of the ledger. -/
theorem extend (h : Alike s) {outcome : Outcome × Outcome} (hindexed : SharedRelay.Indexed s'.relay)
    (hledger : s'.ledger = s.ledger) (houtcomes : s'.outcomes = s.outcomes ++ [outcome])
    (herase : outcome.1.erase = outcome.2.erase)
    (hcursors : ∀ pair ∈ outcome.1.cursors.zip outcome.2.cursors, pair = ("0", "0") ∨
      pair ∈ s.handed ∨ ∃ p ∈ s.ledger, pair = (p.1.receipt.cursor, p.2.receipt.cursor)) :
    Alike s' where
  indexed := hindexed
  apart := by
    rw [hledger]
    exact h.apart
  handed := by
    intro pair hpair
    rw [hledger]
    rw [SideBySide.handed, houtcomes, flatMap_append, mem_append] at hpair
    rcases hpair with hold | hnew
    · exact h.handed pair hold
    rw [flatMap_singleton] at hnew
    rcases hcursors pair hnew with hzero | hold | hp
    · exact .inl hzero
    · exact h.handed pair hold
    · exact .inr hp
  outcomes := by
    intro other hother
    rw [houtcomes, mem_append, mem_singleton] at hother
    rcases hother with hold | rfl
    · exact h.outcomes other hold
    · exact herase

variable (hs : Together sha256 scope tokens s)

include hs

theorem replayed (h : Alike s) (hcursor : cursor = none ∧ cursor' = none ∨
      ∃ pair ∈ s.handed, cursor = some pair.1 ∧ cursor' = some pair.2) :
    Alike (s.after sha256 (.replayFrom cursor) (.replayFrom cursor')) := by
  obtain ⟨log, hlog, hretained, hrecent⟩ := hs.recent_pairs
  have hplace : SamePlace log cursor cursor' := by
    rcases hcursor with ⟨rfl, rfl⟩ | ⟨pair, hpair, rfl, rfl⟩
    · trivial
    · exact h.samePlace hs hlog hpair
  have hgiven : (cursor.getD "0", cursor'.getD "0") = ("0", "0") ∨
      (cursor.getD "0", cursor'.getD "0") ∈ s.handed := by
    rcases hcursor with ⟨rfl, rfl⟩ | ⟨pair, hpair, rfl, rfl⟩
    · exact .inl rfl
    · exact .inr hpair
  have hused : cursor' = none ∨ cursor' = some "0" ∨ s.ledger ≠ [] := by
    rcases hcursor with ⟨_, rfl⟩ | ⟨pair, hpair, _, rfl⟩
    · exact .inl rfl
    rcases h.handed pair hpair with rfl | ⟨p, hp, _⟩
    · exact .inr (.inl rfl)
    · exact .inr (.inr (ne_nil_of_mem hp))
  have hrelay : (s.after sha256 (.replayFrom cursor) (.replayFrom cursor')).relay = s.relay :=
    hs.relay.after_replayFrom cursor
  have hledger : (s.after sha256 (.replayFrom cursor) (.replayFrom cursor')).ledger = s.ledger := by
    rfl
  have hextend := fun outcome => @h.extend _ _ outcome (hrelay.symm ▸ h.indexed) hledger
  rcases hs.replay h.indexed cursor hused with ⟨e, he, he'⟩ | ⟨hok, hok'⟩
  · refine hextend (.replayed (.error e), .replayed (.error e)) ?_ rfl (by simp [Outcome.cursors])
    simp only [after, Outcome.of, inMemory, AblyHostedSyncTransport.ably, he, he']
  rw [hretained] at hok
  rw [hrecent] at hok'
  have houtcomes : (s.after sha256 (.replayFrom cursor) (.replayFrom cursor')).outcomes =
      s.outcomes ++ [(.replayed (.ok (answer (log.map Prod.fst) cursor)),
        .replayed (.ok (answer (log.map Prod.snd) cursor')))] := by
    simp only [after, Outcome.of, inMemory, AblyHostedSyncTransport.ably, hok, hok']
  rcases answer_pairs (fun pair hpair => (hs.twins pair (hlog pair hpair)).operation) hplace with
    ⟨operations, c, c', hc, hc', hcursors⟩ | ⟨hc, hc'⟩
  · refine hextend _ houtcomes (by rw [hc, hc']; rfl) fun pair hpair => ?_
    rw [hc, hc'] at hpair
    rw [mem_singleton.1 (hpair : pair ∈ [(c, c')])]
    rcases hcursors with hsame | ⟨p, hp, hsame⟩
    · rw [hsame]
      rcases hgiven with hzero | hmem
      · exact .inl hzero
      · exact .inr (.inl hmem)
    · exact .inr (.inr ⟨p, hlog p hp, hsame⟩)
  · refine hextend _ houtcomes ?_ fun pair hpair => ?_
    · rw [hc, hc']
      cases log <;> rfl
    · rw [hc, hc'] at hpair
      cases log with
      | nil => exact absurd hpair not_mem_nil
      | cons p log =>
        exact .inr (.inr ⟨p, hlog p (mem_cons_self ..), mem_singleton.1 hpair⟩)

theorem freshCursor {p q : Publication} {s₁ : SharedRelay}
    (hpublish : (inMemory sha256).publish s.relay.transport p.operation =
      (.ok p.receipt, s₁))
    (hnew : Acknowledged sha256 scope s p q) (hown : OwnCursor s (.publish p.operation)) :
    SharedRelay.FreshCursor s.relay (.publish p.operation) := by
  intro hacc m hm hcursor
  rw [hs.relay.messages] at hm
  obtain ⟨p₀, hp₀, rfl⟩ := mem_map.1 hm
  obtain ⟨hpublished, hrepeated⟩ := Run.mem_accepted.1 (mem_retained.1 hp₀).1
  rcases hnew with ⟨hacc', _⟩ | ⟨_, _, hp, _⟩
  · exact hacc hacc'
  have hnext : s.publishCursor p.operation = some p.receipt.cursor := by
    rw [publishCursor_eq sha256, hpublish]
    rfl
  have hold := (hown _ hnext p₀ hpublished (hcursor.trans hp.symm)).1
  rw [hrepeated] at hold
  cases hold

theorem published (h : Alike s)
    {operation : EncryptedSyncOperation} (hown : OwnCursor s (.publish operation)) :
    Alike (s.after sha256 (.publish operation) (.publish operation)) := by
  rcases hs.after_publish operation with ⟨e, hafter, _⟩ |
    ⟨p, q, s₁, s₂, hafter, htwins, rfl, hid, hpublish, hnew⟩
  · rw [hafter]
    exact h.extend h.indexed rfl rfl rfl (by simp [Outcome.cursors])
  have hindexed := h.indexed.after hs.relay (freshCursor hs hpublish hnew hown)
  have hsame := (hs.ownCursor_iff htwins hpublish hnew).1 hown
  have hrelay : s.relay.after (inMemory sha256) (.publish p.operation) =
      ⟨s₁, s.relay.published ++ [p]⟩ := congrArg SideBySide.relay hafter
  rw [hrelay] at hindexed
  rw [hafter]
  refine ⟨hindexed, ?_, ?_, ?_⟩
  · rw [hs.ledger_concat]
    intro pair hpair other hother
    rw [mem_append, mem_singleton] at hpair hother
    rcases hpair with hpair | rfl
    · rcases hother with hother | rfl
      · exact h.apart pair hpair other hother
      · exact hsame pair hpair
    · rcases hother with hother | rfl
      · rw [eq_comm, hsame other hother, eq_comm]
      · exact iff_of_true rfl rfl
  · rw [hs.ledger_concat]
    intro pair hpair
    rw [SideBySide.handed, flatMap_append, mem_append] at hpair
    rcases hpair with hpair | hpair
    · rcases h.handed pair hpair with hzero | ⟨p₀, hp₀, hcursors⟩
      · exact .inl hzero
      · exact .inr ⟨p₀, mem_append_left _ hp₀, hcursors⟩
    · exact .inr ⟨(p, q), mem_append_right _ (mem_singleton.2 rfl),
        mem_singleton.1 hpair⟩
  · intro outcome houtcome
    rcases mem_append.1 houtcome with hold | hlast
    · exact h.outcomes outcome hold
    · rw [mem_singleton.1 hlast]
      simp only [Outcome.erase, hid]

theorem step (h : Alike s) {call : PortCall}
    (hown : OwnCursor s call) (hstep : s.step sha256 call = some s') : Alike s' := by
  -- the calls that hand out no cursor
  have hquiet : ∀ c : Call, SharedRelay.FreshCursor s.relay c →
      (s.after sha256 c c).ledger = s.ledger →
      (Outcome.of (inMemory sha256) s.relay.transport c).erase =
        (Outcome.of (AblyHostedSyncTransport.ably sha256) s.ably.transport c).erase →
      (Outcome.of (inMemory sha256) s.relay.transport c).cursors = [] →
      Alike (s.after sha256 c c) := by
    intro c hfresh hledger herase hcursors
    refine h.extend (h.indexed.after hs.relay hfresh) hledger rfl herase fun pair hpair => ?_
    rw [hcursors] at hpair
    exact absurd hpair not_mem_nil
  cases call with
  | connect credential =>
    cases hstep
    refine hquiet (.connect credential) trivial rfl ?_ rfl
    exact congrArg (fun c => Outcome.session (Connection.connect c credential).1) hs.connection.symm
  | refreshCredential credential =>
    cases hstep
    refine hquiet (.refreshCredential credential) trivial rfl ?_ rfl
    exact congrArg (fun c => Outcome.session (Connection.refreshCredential sha256 c credential).1)
      hs.connection.symm
  | publish operation =>
    cases hstep
    exact h.published hs hown
  | replayFrom source =>
    obtain ⟨⟨call, call'⟩, hresolve, rfl⟩ := Option.map_eq_some_iff.1 hstep
    cases source with
    | none =>
      cases hresolve
      exact h.replayed hs (.inl ⟨rfl, rfl⟩)
    | some source =>
      obtain ⟨pair, hpair, hcalls⟩ := Option.map_eq_some_iff.1 hresolve
      cases hcalls
      exact h.replayed hs (.inr ⟨pair, mem_of_getElem? hpair, rfl, rfl⟩)
  | advanceClock nowMs =>
    cases hstep
    exact hquiet (.advanceClock nowMs) trivial rfl rfl rfl
  | setRelayAvailable available =>
    cases hstep
    exact hquiet (.setRelayAvailable available) trivial rfl rfl rfl

end Alike

/-- The other way round: Ably names things apart, so a cursor that the in-memory transport uses
again is a difference. -/
theorem Together.ownCursor_of_agrees (h : Together sha256 scope tokens s) {call : PortCall}
    (hagrees : ∀ s', s.step sha256 call = some s' → s'.Agrees) : OwnCursor s call := by
  cases call with
  | publish operation =>
    have hagree : (s.after sha256 (.publish operation) (.publish operation)).Agrees := hagrees _ rfl
    have hnames := hagree.names
    have hreceipts := (h.published operation).receipts
    rcases h.after_publish operation with ⟨e, _, hpublish⟩ |
      ⟨p, q, s₁, s₂, hafter, htwins, rfl, _, hpublish, hnew⟩
    · intro cursor hcursor
      rw [publishCursor_eq sha256, hpublish] at hcursor
      cases hcursor
    refine (h.ownCursor_iff htwins hpublish hnew).2 fun pair hpair => ?_
    have hledger := h.ledger_concat s₁ s₂ p q
      (s.outcomes ++ [(.published (.ok p.receipt), .published (.ok q.receipt))])
    rw [hafter, hledger] at hreceipts
    rw [hafter] at hnames
    exact hnames _ (hreceipts pair (mem_append_left _ hpair)) _
      (hreceipts (p, q) (mem_append_right _ (mem_singleton.2 rfl)))
  | connect | refreshCredential | replayFrom | advanceClock | setRelayAvailable => trivial

/-- For calls under one scope with authorised tokens, the two transports agree in every state of the
run if and only if the in-memory transport never acknowledges with a cursor that it has given out
for something else. -/
theorem transports_agree_iff (sha256 : Bytes → Bytes) (scope : String)
    (tokens : String → List String) (calls : List PortCall)
    (hcalls : ∀ call ∈ calls, Authorised sha256 scope tokens call) :
    (∀ earlier later s, calls = earlier ++ later →
      run (step sha256) (start tokens) earlier = some s → s.Agrees) ↔
    Along (step sha256) OwnCursor (start tokens) calls := by
  constructor
  · intro hagrees
    refine along_of_reached (Together sha256 scope tokens)
      (fun s call s' h hcall hstep => h.step hcall hstep)
      (fun s call h _ hreached => h.ownCursor_of_agrees hreached)
      (.start sha256 scope tokens) hcalls hagrees
  · rintro hown earlier later s rfl hrun
    have hboth : Together sha256 scope tokens s ∧ Alike s := by
      refine invariant (fun s => Together sha256 scope tokens s ∧ Alike s) ?_
        ⟨.start sha256 scope tokens, .start tokens⟩ (hown.and_mem hcalls).left hrun
      rintro s call s' ⟨hs, h⟩ ⟨howned, hcall⟩ hstep
      exact ⟨hs.step hcall hstep, h.step hs howned hstep⟩
    exact hboth.2.agrees hboth.1

open SharedRelay (syncOperation credentialFor)

def tokenA : String → List String := fun _ => ["token-a"]

def sentTwice : List PortCall :=
  [.connect (credentialFor "scope-a"), .publish (syncOperation "op-1"),
    .publish (syncOperation "op-1"), .replayFrom none]

theorem transports_agree_iff_repeated :
    (∀ call ∈ sentTwice, Authorised id "scope-a" tokenA call) ∧
    ∀ earlier later s, sentTwice = earlier ++ later →
      run (step id) (start tokenA) earlier = some s → s.Agrees := by
  have hcalls : ∀ call ∈ sentTwice, Authorised id "scope-a" tokenA call := by
    simp [sentTwice, Authorised, credentialFor, tokenA]
  refine ⟨hcalls, (transports_agree_iff id "scope-a" tokenA _ hcalls).2 ?_⟩
  refine .cons trivial fun s₁ h₁ => ?_
  cases h₁
  refine .cons ?_ fun s₂ h₂ => ?_
  · intro cursor _ p hp
    exact absurd hp not_mem_nil
  · cases h₂
    refine .cons ?_ fun s₃ h₃ => .cons trivial fun _ _ => trivial
    intro cursor hcursor p hp hsame
    cases hcursor
    cases mem_singleton.1 hp
    exact absurd hsame (by decide)

/-- `op-1` expires and `op-2` gets its cursor. A reader that continues after `op-1` is told over
Ably that it has to catch up elsewhere, and by the in-memory transport that there is nothing new. -/
theorem transports_differ :
    (∀ call ∈ ([.connect (credentialFor "scope-a"), .publish (syncOperation "op-1"),
      .advanceClock 200000, .publish (syncOperation "op-2"), .replayFrom (some 0)] : List PortCall),
      Authorised id "scope-a" tokenA call) ∧
    ∃ s, run (step id) (start tokenA) [.connect (credentialFor "scope-a"),
        .publish (syncOperation "op-1"), .advanceClock 200000, .publish (syncOperation "op-2"),
        .replayFrom (some 0)] = some s ∧
      (∃ cursor oldest, s.outcomes[4]? = some (.replayed (.ok (.delivered [] cursor)),
        .replayed (.ok (.resyncRequired oldest)))) ∧
      ¬s.Agrees := by
  refine ⟨by simp [Authorised, credentialFor, tokenA], _, rfl, ⟨_, _, rfl⟩, fun hagrees => ?_⟩
  cases hagrees.outcomes _ (mem_of_getElem? (i := 4) rfl)

end SideBySide

end Traverse.Hosted

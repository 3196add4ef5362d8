import Mathlib.Data.List.Dedup
import Traverse.Execution.Edges

/-!
# Server.Sessions

`app_sessions_response`: the sessions of an app, page by page.

A page names as its cursor the first session that is not on it, and a request starts after the
session that its cursor names. That session is never shown, so a client that follows the cursors
gets every session once exactly when all of them fit on the first page (`paging_exact_iff`,
`session_skipped`).

The sessions are taken out of a hash map: `keys` is the order in which it is iterated, for each
request another one.
-/

namespace Traverse.Server

open List
open Json (Doc)
open Execution (descend stripped)

structure AppSessionEvent where
  (appId sessionId state timestamp : String)
  output : Option Doc

structure AppSession where
  (sessionId currentState createdAt updatedAt : String)
  context : Doc

inductive SessionsOrder where
  | createdAsc
  | createdDesc

def projectListContext (output : Doc) (listContextFields : List String) : Doc :=
  .obj (listContextFields.foldl (fun context field =>
    match stripped "output." field with
    | none => context
    | some path =>
      match descend output ((path.toList.splitOn '.').map String.ofList) with
      | none => context
      | some value => Json.insertKey
          (String.ofList (path.toList.map fun c => if c = '.' then '_' else c)) value context) [])

/-- The arguments of `app_sessions_response` that stay the same from page to page. -/
structure SessionsQuery where
  events : List AppSessionEvent
  listContextFields : List String
  appId : String
  stateFilter : Option String
  limit : Nat
  order : SessionsOrder

namespace SessionsQuery

variable (q : SessionsQuery)

/-- The keys of the map `grouped`. -/
def sessionIds : List String :=
  ((q.events.filter (·.appId = q.appId)).map (·.sessionId)).dedup

def session (sessionId : String) : Option AppSession :=
  let events := (q.events.filter fun event =>
    event.appId = q.appId ∧ event.sessionId = sessionId).insertionSort (·.timestamp ≤ ·.timestamp)
  match events.head?, events.getLast? with
  | some first, some last => some {
      sessionId := sessionId
      currentState := last.state
      createdAt := first.timestamp
      updatedAt := last.timestamp
      context := match events.reverse.findSome? (·.output) with
        | none => .obj []
        | some output => projectListContext output q.listContextFields }
  | _, _ => none

variable (keys : List String)

def materializeAppSessions : List AppSession := keys.filterMap q.session

def matching : List AppSession :=
  (q.materializeAppSessions keys).filter fun session =>
    q.stateFilter.all (session.currentState = ·)

def Before (a b : AppSession) : Prop :=
  match q.order with
  | .createdAsc => a.createdAt ≤ b.createdAt
  | .createdDesc => b.createdAt ≤ a.createdAt

instance : DecidableRel q.Before := fun _ _ => by
  unfold Before
  split <;> infer_instance

def sorted : List AppSession := (q.matching keys).insertionSort q.Before

def rest (cursor : Option String) (sessions : List AppSession) : List AppSession :=
  match cursor.bind fun cursor => sessions.findIdx? (·.sessionId = cursor) with
  | some index => sessions.drop (index + 1)
  | none => sessions

structure Page where
  sessions : List AppSession
  total : Nat
  nextCursor : Option String

def appSessionsResponse (cursor : Option String) : Page where
  sessions := (rest cursor (q.sorted keys)).take q.limit
  total := (q.sorted keys).length
  nextCursor := (rest cursor (q.sorted keys))[q.limit]?.map (·.sessionId)

/-- A client that follows the cursors, from its request number `n` on, until there is none. -/
def follow (keys : Nat → List String) : Nat → Nat → Option String → Option (List Page)
  | 0, _, _ => none
  | fuel + 1, n, cursor =>
    match (q.appSessionsResponse (keys n) cursor).nextCursor with
    | none => some [q.appSessionsResponse (keys n) cursor]
    | some next =>
      (follow keys fuel (n + 1) (some next)).map (q.appSessionsResponse (keys n) cursor :: ·)

/-- Every session that matches is shown once, in the order asked for, on full pages. -/
structure Exact (pages : List Page) : Prop where
  once : (pages.flatMap (·.sessions)).Perm (q.matching q.sessionIds)
  ordered : (pages.flatMap (·.sessions)).Pairwise q.Before
  total : ∀ page ∈ pages, page.total = (q.matching q.sessionIds).length
  full : ∀ page ∈ pages.dropLast, page.sessions.length = q.limit

variable {q} {keys : List String} {cursor : Option String} {pages : List Page}

instance : Std.Total q.Before where
  total a b := by
    unfold Before
    split <;> exact le_total _ _

instance : IsTrans AppSession q.Before where
  trans a b c := by
    unfold Before
    split
    · exact le_trans
    · exact fun hab hbc => le_trans hbc hab

theorem sorted_perm (h : keys.Perm q.sessionIds) : (q.sorted keys).Perm (q.matching q.sessionIds) :=
  (perm_insertionSort _ _).trans ((h.filterMap _).filter _)

theorem session_sessionId {sessionId : String} {s : AppSession} (h : q.session sessionId = some s) :
    s.sessionId = sessionId := by
  unfold session at h
  simp only at h
  split at h
  · cases h
    rfl
  · cases h

theorem sorted_nodup (h : keys.Nodup) : ((q.sorted keys).map (·.sessionId)).Nodup := by
  refine ((perm_insertionSort _ _).map _).nodup_iff.2 ?_
  refine Nodup.sublist (filter_sublist.map _) (pairwise_map.2 (pairwise_filterMap.2 ?_))
  refine h.imp fun hne s hs s' hs' heq => hne ?_
  rw [← session_sessionId hs, ← session_sessionId hs', heq]

/-- The next page starts one session too late. -/
theorem rest_next {sessions : List AppSession} (h : (sessions.map (·.sessionId)).Nodup)
    {next : String} {limit : Nat}
    (hnext : (rest cursor sessions)[limit]?.map (·.sessionId) = some next) :
    rest (some next) sessions = (rest cursor sessions).drop (limit + 1) := by
  obtain ⟨j, hj⟩ : ∃ j, rest cursor sessions = sessions.drop j := by
    unfold rest
    split
    · exact ⟨_, rfl⟩
    · exact ⟨0, rfl⟩
  obtain ⟨s, hs, rfl⟩ := Option.map_eq_some_iff.1 hnext
  rw [hj, getElem?_drop, getElem?_eq_some_iff] at hs
  obtain ⟨hlt, rfl⟩ := hs
  have hfind : sessions.findIdx? (·.sessionId = sessions[j + limit].sessionId) =
      some (j + limit) := by
    refine findIdx?_eq_some_iff_getElem.2 ⟨hlt, decide_eq_true rfl, fun i hi heq => ?_⟩
    have hne := pairwise_iff_getElem.1 h i (j + limit) (by simp; omega) (by simpa using hlt) hi
    simp only [getElem_map] at hne
    exact hne (of_decide_eq_true heq)
  rw [rest, Option.bind_some, hfind, hj, drop_drop]
  rfl

/-- One session is lost at each page boundary. -/
theorem follow_length (h : keys.Nodup) : ∀ {fuel n : Nat} {cursor : Option String}
    {pages : List Page}, q.follow (fun _ => keys) fuel n cursor = some pages →
      (pages.flatMap (·.sessions)).length ≤ (rest cursor (q.sorted keys)).length ∧
        (q.limit < (rest cursor (q.sorted keys)).length →
          (pages.flatMap (·.sessions)).length < (rest cursor (q.sorted keys)).length) := by
  intro fuel
  induction fuel with
  | zero => exact nofun
  | succ fuel ih =>
    intro n cursor pages hfollow
    rw [follow] at hfollow
    split at hfollow
    · next hnone =>
      cases hfollow
      have hle : (rest cursor (q.sorted keys)).length ≤ q.limit := by
        simpa [appSessionsResponse] using hnone
      simp [appSessionsResponse, hle]
    · next next hsome =>
      obtain ⟨later, hlater, rfl⟩ := Option.map_eq_some_iff.1 hfollow
      have hle := (ih hlater).1
      rw [rest_next (sorted_nodup h) hsome, length_drop] at hle
      have hlt : q.limit < (rest cursor (q.sorted keys)).length := by
        obtain ⟨s, hs, _⟩ := Option.map_eq_some_iff.1 hsome
        exact (List.getElem?_eq_some_iff.1 hs).1
      have hpage : (q.appSessionsResponse keys cursor).sessions.length = q.limit := by
        simp [appSessionsResponse, Nat.le_of_lt hlt]
      rw [flatMap_cons, length_append, hpage]
      omega

/-- Paging is exact, whatever order the map is iterated in at each request, if and only if there is
one page. -/
theorem paging_exact_iff (q : SessionsQuery) :
    (∀ keys : Nat → List String, (∀ n, (keys n).Perm q.sessionIds) →
      ∃ fuel pages, q.follow keys fuel 0 none = some pages ∧ q.Exact pages) ↔
    (q.matching q.sessionIds).length ≤ q.limit := by
  constructor
  · intro h
    obtain ⟨fuel, pages, hfollow, hexact⟩ := h (fun _ => q.sessionIds) fun _ => .refl _
    have hnodup : q.sessionIds.Nodup := nodup_dedup _
    have hlost := (follow_length hnodup hfollow).2
    rw [hexact.once.length_eq, ← (sorted_perm (.refl _)).length_eq] at hlost
    rw [← (sorted_perm (.refl _)).length_eq]
    exact Nat.le_of_not_lt fun hlt => Nat.lt_irrefl _ (hlost hlt)
  · intro hle keys hkeys
    have hperm := sorted_perm (hkeys 0)
    rw [← hperm.length_eq] at hle
    have hshown : (q.appSessionsResponse (keys 0) none).sessions = q.sorted (keys 0) :=
      take_of_length_le hle
    have hlast : (q.appSessionsResponse (keys 0) none).nextCursor = none := by
      simp [appSessionsResponse, rest, hle]
    have hsorted : (q.sorted (keys 0)).Pairwise q.Before := pairwise_insertionSort _ _
    refine ⟨1, [q.appSessionsResponse (keys 0) none], by rw [follow, hlast], ?_⟩
    constructor
    · simpa [hshown] using hperm
    · simpa [hshown] using hsorted
    · simpa [appSessionsResponse] using hperm.length_eq
    · simp

/-- Two sessions of one second, one to a page. -/
def twoSessions : SessionsQuery where
  events := [⟨"app", "sess-1", "open", "2026-01-01T00:00:00Z", none⟩,
    ⟨"app", "sess-2", "open", "2026-01-01T00:00:00Z", none⟩]
  listContextFields := []
  appId := "app"
  stateFilter := none
  limit := 1
  order := .createdAsc

theorem session_skipped :
    (twoSessions.matching twoSessions.sessionIds).map (·.sessionId) = ["sess-1", "sess-2"] ∧
    ∃ first second, twoSessions.follow (fun _ => twoSessions.sessionIds) 2 0 none =
        some [first, second] ∧
      first.sessions.map (·.sessionId) = ["sess-1"] ∧ first.nextCursor = some "sess-2" ∧
      second.sessions.map (·.sessionId) = [] ∧ second.nextCursor = none ∧ second.total = 2 :=
  ⟨by decide, _, _, rfl, rfl, rfl, rfl, rfl, rfl⟩

end SessionsQuery

end Traverse.Server

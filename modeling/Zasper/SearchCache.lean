import Zasper.FileSearch
import Zasper.Runs

/-!
# The cache of the search

Searches of several browsers at a time. A search whose query is not in the cache, or was
stored five minutes ago or longer, walks the project, and stores what it has found when
it is done; between the two the files change, other searches start and end. What is
answered was found by a walk for this query, whose search has stored it less than five
minutes ago (`answers_recent`). The numbers of the searches have no counterpart in the
program.
-/
namespace Zasper.SearchCache
open Zasper.Runs Zasper.Programs Zasper.OperatingSystem Zasper.ContentManager Zasper.Volumes Zasper.Walks Zasper.FileSearch
set_option linter.unusedSimpArgs false

/-! ## Searches -/

/-- A search that has walked the project and has not stored yet. -/
structure Search where
  number : Nat
  query : String
  suggestions : List EntryModel

structure Server (Files : Type) where
  files : Files
  cache : String → Option FileCache
  searches : List Search
  /-- How many searches have been started. -/
  started : Nat
  /-- In nanoseconds. -/
  clock : Int

inductive Event (Files : Type) where
  | passes (time : Nat)
  | changes (files : Files)
  /-- A request; the recursion of its walk ends within `fuel` calls. -/
  | asks (query : String) (fuel : Nat)
  /-- The n-th of the searches stores and answers. -/
  | stores (n : Nat)

section
variable {Files : Type} (host : Host Files) (goString : FileInfo → String) (home : String)

/-- The result of the walk for a query. -/
def found (files : Files) (query : String) (fuel : Nat) : Except Stop (Option OsError × List EntryModel) :=
  ((filepathWalk (reporting (collect goString home query)) fuel home []).run host.answer files).2

/-- What is found waits to be stored. -/
def walks (s : Server Files) (query : String) (fuel : Nat) : Server Files × Option SearchResponse :=
  match found host goString home s.files query fuel with
  | .ok (none,suggestions) =>
    ({ s with searches := s.searches ++ [⟨s.started,query,suggestions⟩], started := s.started + 1 },none)
  | .ok (some err,_) => (s,some ⟨500,.text ("Error walking the directory tree: " ++ err.text)⟩)
  | .error _ => (s,none)

/-- A request, up to the walk. -/
def asks (s : Server Files) (query : String) (fuel : Nat) : Server Files × Option SearchResponse :=
  if query = "" then (s,some ⟨400,.text "Query parameter is required"⟩)
  else
    match s.cache query with
    | some cacheData =>
      if s.clock - cacheData.timestamp < cacheExpiry then (s,some ⟨200,.suggestions cacheData.data⟩)
      else walks host goString home s query fuel
    | none => walks host goString home s query fuel

def step (s : Server Files) : Event Files → Server Files × Option SearchResponse
  | .passes time => ({ s with clock := s.clock + time },none)
  | .changes files => ({ s with files := files },none)
  | .asks query fuel => asks host goString home s query fuel
  | .stores n =>
    match s.searches[n]? with
    | some search =>
      ({ s with
          cache := Function.update s.cache search.query (some ⟨search.suggestions,s.clock⟩)
          searches := s.searches.eraseIdx n }
      ,some ⟨200,.suggestions search.suggestions⟩)
    | none => (s,none)

def booted (files : Files) (clock : Int) : Server Files := ⟨files,fun _ => none,[],0,clock⟩

/-- Whose query an event is about. -/
def queryOf (s : Server Files) : Event Files → Option String
  | .asks query _ => some query
  | .stores n => s.searches[n]?.map Search.query
  | _ => none

/-! ## One search alone -/

theorem found_eq (files : Files) (query : String) (fuel : Nat) :
    (filepathWalk (reporting (collect goString home query)) fuel home []).run host.answer files =
      (files,found host goString home files query fuel) := by
  refine Prod.ext ?_ rfl
  rw [run_filepathWalk]
  split
  · rfl
  · exact run_walk_files _ _ _ _ _

/-- A request whose search, if it walks, stores at once. -/
def alone (s : Server Files) (query : String) (fuel : Nat) : Server Files × Option SearchResponse :=
  match asks host goString home s query fuel with
  | (s',none) => step host goString home s' (.stores s.searches.length)
  | answered => answered

theorem walks_eq {s : Server Files} {query : String} {fuel : Nat}
    (ends : ∀ stop, found host goString home s.files query fuel ≠ .error stop)
    (misses : asks host goString home s query fuel = walks host goString home s query fuel) :
    ∃ cache response started,
      (searchFiles goString home query fuel s.cache s.clock).run host.answer s.files = (s.files,.ok (cache,response)) ∧
        alone host goString home s query fuel = ({ s with cache := cache, started := started },some response) := by
  rw [searchFiles,Program.run_bind,found_eq,alone,misses,walks]
  cases walked : found host goString home s.files query fuel with
  | error stop => exact absurd walked (ends stop)
  | ok result =>
    obtain ⟨_ | err,suggestions⟩ := result
    · refine ⟨_,_,s.started + 1,rfl,?_⟩
      simp [step,List.eraseIdx_append_of_length_le]
    · exact ⟨_,_,s.started,rfl,rfl⟩

/-- A search that nothing comes between answers and stores as the handler does. -/
theorem alone_eq (s : Server Files) (query : String) (fuel : Nat)
    (ends : ∀ stop, found host goString home s.files query fuel ≠ .error stop) :
    ∃ cache response started,
      (getFileSuggestions goString home query fuel s.cache s.clock s.clock).run host.answer s.files = (s.files,.ok (cache,response)) ∧
        alone host goString home s query fuel = ({ s with cache := cache, started := started },some response) := by
  rw [getFileSuggestions]
  split_ifs with empty
  · exact ⟨s.cache,_,s.started,rfl,by simp [alone,asks,empty]⟩
  · cases cached : s.cache query with
    | none => exact walks_eq host goString home ends (by simp [asks,empty,cached])
    | some cacheData =>
      dsimp only
      split_ifs with recent
      · exact ⟨s.cache,_,s.started,rfl,by simp [alone,asks,empty,cached,recent]⟩
      · exact walks_eq host goString home ends (by simp [asks,empty,cached,recent])

/-! ## Where answers come from -/

/-- A walk for the query has found these in the files. -/
def Found (files : Files) (query : String) (suggestions : List EntryModel) : Prop :=
  ∃ fuel, found host goString home files query fuel = .ok (none,suggestions)

def serverAfter (s : Server Files) (events : List (Event Files)) : Server Files := (run (step host goString home) s events).1

theorem serverAfter_append (s : Server Files) (events : List (Event Files)) (e : Event Files) :
    serverAfter host goString home s (events ++ [e]) = (step host goString home (serverAfter host goString home s events) e).1 :=
  run_append ..

/-- The search was started by a request, and its walk has found what it holds in the files
    as they were then. -/
def Started (s : Server Files) (events : List (Event Files)) (search : Search) : Prop :=
  ∃ before fuel between, before ++ .asks search.query fuel :: between = events ∧
    Found host goString home (serverAfter host goString home s before).files search.query search.suggestions ∧
    search.number = (serverAfter host goString home s before).started

/-- The search has stored what it holds at the given time. -/
def Stored (s : Server Files) (events : List (Event Files)) (search : Search) (time : Int) : Prop :=
  ∃ past n, past ++ [.stores n] <+: events ∧ Started host goString home s past search ∧
    (serverAfter host goString home s past).searches[n]? = some search ∧
    (serverAfter host goString home s past).clock = time

/-- What is in the cache was stored, and what waits to be stored was found. -/
structure Inv (s : Server Files) (events : List (Event Files)) : Prop where
  cache : ∀ query cacheData, (serverAfter host goString home s events).cache query = some cacheData →
    ∃ number, Stored host goString home s events ⟨number,query,cacheData.data⟩ cacheData.timestamp
  searches : ∀ search ∈ (serverAfter host goString home s events).searches, Started host goString home s events search

variable {host goString home}

theorem Started.later {s : Server Files} {events : List (Event Files)} {search : Search}
    (started : Started host goString home s events search) (e : Event Files) :
    Started host goString home s (events ++ [e]) search := by
  obtain ⟨before,fuel,between,rfl,found,number⟩ := started
  exact ⟨before,fuel,between ++ [e],by simp,found,number⟩

theorem Stored.later {s : Server Files} {events : List (Event Files)} {search : Search} {time : Int}
    (stored : Stored host goString home s events search time) (e : Event Files) :
    Stored host goString home s (events ++ [e]) search time := by
  obtain ⟨past,n,before,started,there,clock⟩ := stored
  exact ⟨past,n,before.trans (List.prefix_append ..),started,there,clock⟩

/-- A search that waits to be stored has walked. -/
theorem walks_cases (s : Server Files) (query : String) (fuel : Nat) :
    (∃ answer, walks host goString home s query fuel = (s,answer) ∧
        ∀ suggestions, answer ≠ some ⟨200,.suggestions suggestions⟩) ∨
      ∃ suggestions, Found host goString home s.files query suggestions ∧
        walks host goString home s query fuel =
          ({ s with searches := s.searches ++ [⟨s.started,query,suggestions⟩], started := s.started + 1 },none) := by
  unfold walks
  split
  · rename_i suggestions ended
    exact .inr ⟨suggestions,⟨fuel,ended⟩,rfl⟩
  · exact .inl ⟨_,rfl,by simp⟩
  · exact .inl ⟨_,rfl,by simp⟩

/-- A request leaves the cache and the files alone; a search that it starts has walked. -/
theorem asks_cases (s : Server Files) (query : String) (fuel : Nat) :
    (∃ answer, asks host goString home s query fuel = (s,answer) ∧
        ∀ suggestions, answer = some ⟨200,.suggestions suggestions⟩ →
          ∃ cacheData, s.cache query = some cacheData ∧ s.clock - cacheData.timestamp < cacheExpiry ∧
            cacheData.data = suggestions) ∨
      ∃ suggestions, Found host goString home s.files query suggestions ∧
        asks host goString home s query fuel =
          ({ s with searches := s.searches ++ [⟨s.started,query,suggestions⟩], started := s.started + 1 },none) := by
  by_cases empty : query = ""
  · exact .inl ⟨_,by rw [asks,if_pos empty],by simp⟩
  by_cases hit : ∃ cacheData, s.cache query = some cacheData ∧ s.clock - cacheData.timestamp < cacheExpiry
  · obtain ⟨cacheData,cached,recent⟩ := hit
    refine .inl ⟨some ⟨200,.suggestions cacheData.data⟩,by simp [asks,empty,cached,recent],fun suggestions same => ?_⟩
    exact ⟨cacheData,cached,recent,by simpa using same⟩
  · have misses : asks host goString home s query fuel = walks host goString home s query fuel := by
      rw [asks,if_neg empty]
      cases cached : s.cache query with
      | none => rfl
      | some cacheData => exact if_neg (fun recent => hit ⟨cacheData,cached,recent⟩)
    rw [misses]
    rcases walks_cases s query fuel with ⟨answer,same,other⟩ | started
    · exact .inl ⟨answer,same,fun suggestions answered => absurd answered (other suggestions)⟩
    · exact .inr started

theorem inv_snoc {s : Server Files} {events : List (Event Files)} (inv : Inv host goString home s events) (e : Event Files) :
    Inv host goString home s (events ++ [e]) := by
  have cachedBefore : ∀ query cacheData, (serverAfter host goString home s events).cache query = some cacheData →
      ∃ number, Stored host goString home s (events ++ [e]) ⟨number,query,cacheData.data⟩ cacheData.timestamp :=
    fun query cacheData cached => (inv.cache query cacheData cached).imp (fun _ stored => stored.later e)
  -- What a step leaves alone was stored, or found, before it.
  have kept : (step host goString home (serverAfter host goString home s events) e).1.cache =
        (serverAfter host goString home s events).cache →
      (step host goString home (serverAfter host goString home s events) e).1.searches =
        (serverAfter host goString home s events).searches →
      Inv host goString home s (events ++ [e]) := by
    intro sameCache sameSearches
    constructor
    · rw [serverAfter_append,sameCache]
      exact cachedBefore
    · rw [serverAfter_append,sameSearches]
      exact fun search waits => (inv.searches search waits).later e
  cases e with
  | passes time => exact kept rfl rfl
  | changes files => exact kept rfl rfl
  | asks query fuel =>
    rcases @asks_cases _ host goString home (serverAfter host goString home s events) query fuel with
      ⟨answer,same,-⟩ | ⟨suggestions,found,started⟩
    · exact kept (by rw [step,same]) (by rw [step,same])
    · constructor
      · rw [serverAfter_append,step,started]
        exact cachedBefore
      · rw [serverAfter_append,step,started]
        intro search waits
        rcases List.mem_append.mp waits with old | new
        · exact (inv.searches search old).later _
        · obtain rfl := List.mem_singleton.mp new
          exact ⟨events,fuel,[],rfl,found,rfl⟩
  | stores n =>
    cases there : (serverAfter host goString home s events).searches[n]? with
    | none => exact kept (by simp only [step,there]) (by simp only [step,there])
    | some search =>
      have stored : Stored host goString home s (events ++ [.stores n]) search (serverAfter host goString home s events).clock :=
        ⟨events,n,List.prefix_rfl,inv.searches search (List.mem_of_getElem? there),there,rfl⟩
      constructor
      · simp only [serverAfter_append,step,there]
        intro query cacheData cached
        by_cases same : query = search.query
        · subst same
          rw [Function.update_self] at cached
          obtain rfl := Option.some.inj cached
          exact ⟨search.number,stored⟩
        · rw [Function.update_of_ne same] at cached
          exact cachedBefore query cacheData cached
      · simp only [serverAfter_append,step,there]
        exact fun other waits => (inv.searches other (List.mem_of_mem_eraseIdx waits)).later _

theorem inv_run (files : Files) (clock : Int) (events : List (Event Files)) :
    Inv host goString home (booted files clock) events := by
  induction events using List.reverseRecOn with
  | nil => exact ⟨by simp [serverAfter,run,booted],by simp [serverAfter,run,booted]⟩
  | append_singleton events e ih => exact inv_snoc ih e

variable (host goString home)

/-- However searches, changes of the files and the time go on: the suggestions of an
    answer were found by a search for the query of the request, in the files as they were
    when that search was started, and that search stored them with this answer or less
    than five minutes before it. -/
theorem answers_recent (files : Files) (clock : Int) (events : List (Event Files)) (e : Event Files) (suggestions : List EntryModel) :
    let after := serverAfter host goString home (booted files clock)
    (step host goString home (after events) e).2 = some ⟨200,.suggestions suggestions⟩ →
      ∃ query number time, queryOf (after events) e = some query ∧
        Stored host goString home (booted files clock) (events ++ [e]) ⟨number,query,suggestions⟩ time ∧
        (after events).clock - time < cacheExpiry := by
  intro after answered
  have inv : Inv host goString home (booted files clock) events := inv_run files clock events
  cases e with
  | passes time => cases answered
  | changes files => cases answered
  | asks query fuel =>
    rcases @asks_cases _ host goString home (after events) query fuel with ⟨answer,same,cached⟩ | ⟨_,-,started⟩
    · rw [step,same] at answered
      obtain ⟨cacheData,there,recent,rfl⟩ := cached suggestions answered
      obtain ⟨number,stored⟩ := inv.cache query cacheData there
      exact ⟨query,number,cacheData.timestamp,rfl,stored.later _,recent⟩
    · rw [step,started] at answered
      cases answered
  | stores n =>
    cases there : (after events).searches[n]? with
    | none =>
      simp only [step,there] at answered
      cases answered
    | some search =>
      simp only [step,there] at answered
      obtain rfl : search.suggestions = suggestions := by simpa using answered
      refine ⟨search.query,search.number,(after events).clock,by simp [queryOf,there],
        ⟨events,n,List.prefix_rfl,inv.searches search (List.mem_of_getElem? there),there,rfl⟩,?_⟩
      rw [Int.sub_self]
      decide

end

/-- A search of a project that is one file, and its answer. -/
theorem readme_recent :
    let after := serverAfter (project [DirectoryOrder.readme]) (·.modTime) "/home/u/a.txt" (booted () 0)
    let suggestions := [suggestion (·.modTime) "/home/u/a.txt" "/home/u/a.txt" ⟨"a.txt",false,0,"2025-01-01T00:00:00Z"⟩]
    ∃ query number time, queryOf (after [.asks "a" 1]) (.stores 0) = some query ∧
      Stored (project [DirectoryOrder.readme]) (·.modTime) "/home/u/a.txt" (booted () 0) [.asks "a" 1,.stores 0]
        ⟨number,query,suggestions⟩ time ∧
      (after [.asks "a" 1]).clock - time < cacheExpiry := by
  have name : Paths.base "/home/u/a.txt" = "a.txt" := by decide
  have entry := project_entry [DirectoryOrder.readme] "/home/u/a.txt" (by decide) (by decide)
  rw [name] at entry
  have hit : Strings.contains "/home/u/a.txt" ".git" = false := by decide
  have named : Strings.contains "a.txt" "a" = true := by decide
  have walked : found (project [DirectoryOrder.readme]) (·.modTime) "/home/u/a.txt" () "a" 1 =
      .ok (none,[suggestion (·.modTime) "/home/u/a.txt" "/home/u/a.txt" ⟨"a.txt",false,0,"2025-01-01T00:00:00Z"⟩]) := by
    rw [found,run_filepathWalk,entry]
    simp [walk,reporting,collect,hit,named]
  apply answers_recent (project [DirectoryOrder.readme]) (·.modTime) "/home/u/a.txt" () 0 [.asks "a" 1] (.stores 0)
  simp [serverAfter,run,step,asks,walks,walked,booted]

end Zasper.SearchCache

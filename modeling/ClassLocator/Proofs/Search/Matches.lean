import ClassLocator.Proofs.FileTree.Routes
import ClassLocator.Proofs.Search.Events
import ClassLocator.Report

namespace ClassLocator

/-- The declarations of the methods named `filter`, as far as the content of this kind can be read.
Whatever is not a source is read as a class file. -/
def Candidate.Kind.declarations (kind : Kind) (content : ByteArray) (filter : String) :
    List Declaration :=
  match kind with
  | .source =>
    match Java.declarations (Text.Utf8.decodeLossy content) filter with
    | .ok found => found
    | .error _ => []
  | _ =>
    match ClassFile.declarations content filter with
    | .ok outcomes => outcomes.filterMap (·.toOption)
    | .error _ => []

/-- The matches of a candidate that the query matched: itself, or one for each method asked for. -/
def Candidate.results (query : Query) (c : Candidate) (content : Except Failure ByteArray) :
    List Match :=
  match query.methodFilter with
  | none => [⟨c, none⟩]
  | some filter =>
    match content with
    | .error _ => []
    | .ok content => (c.kind.declarations content filter).map fun d => ⟨c, some d.render⟩

def Archive.entryResults (query : Query) (locator : String) (a : Archive) (h : Header) : List Match :=
  match openEntry a h with
  | .error _ => []
  | .ok entry =>
    if !h.isDirectory && Candidate.isMatch query h.name h.name then
      Candidate.results query ⟨h.name, locator, .ofName h.name⟩ entry.read
    else []

theorem Archive.exists_of_mem_entryResults {query : Query} {locator : String} {a : Archive} {h : Header}
    {m : Match} (hm : m ∈ a.entryResults query locator h) :
    ∃ c content, m ∈ Candidate.results query c content := by
  unfold entryResults at hm
  split at hm
  · cases hm
  · split at hm
    · exact ⟨_, _, hm⟩
    · cases hm

namespace FileTree

def fileResults (query : Query) (tree : FileTree) (path : String) : List Match :=
  match Path.fileName? path with
  | none => []
  | some name =>
    let locator := Path.absolute tree.workingDirectory path
    match Candidate.Kind.ofName name with
    | .container =>
      match Searcher.openArchive tree locator with
      | .error _ => []
      | .ok archive => archive.headers.flatMap (archive.entryResults query locator)
    | kind =>
      if Candidate.isMatch query name locator then
        Candidate.results query ⟨name, locator, kind⟩ (Searcher.readFile tree locator)
      else []

def results (query : Query) (tree : FileTree) (recursive : Bool) (directory : String) : List Match :=
  match tree.candidates directory recursive with
  | .error _ => []
  | .ok files => files.flatMap (tree.fileResults query)

section
variable {query : Query} {tree : FileTree} {path : String} {m : Match}

theorem exists_of_mem_fileResults (hm : m ∈ tree.fileResults query path) :
    ∃ c content, m ∈ Candidate.results query c content := by
  unfold fileResults at hm
  dsimp only at hm
  split at hm
  · cases hm
  · split at hm
    · split at hm
      · cases hm
      · obtain ⟨h, -, hm⟩ := List.mem_flatMap.mp hm
        exact Archive.exists_of_mem_entryResults hm
    · split at hm
      · exact ⟨_, _, hm⟩
      · cases hm

theorem exists_of_mem_results {recursive : Bool} {directory : String}
    (hm : m ∈ tree.results query recursive directory) :
    ∃ c content, m ∈ Candidate.results query c content := by
  unfold results at hm
  split at hm
  · cases hm
  · obtain ⟨path, -, hm⟩ := List.mem_flatMap.mp hm
    exact exists_of_mem_fileResults hm

end

section
variable {path p : String}

theorem isSearchable_of_mem_filesAt {node : Node} (h : p ∈ node.filesAt path) :
    Candidate.isSearchable p := by
  rw [Node.filesAt_eq] at h
  obtain ⟨names, hn, rfl⟩ := List.mem_map.mp h
  exact (List.mem_filter.mp hn).2

theorem exists_fileName {path : String} (h : Candidate.isSearchable path) :
    ∃ name, Path.fileName? path = some name := by
  cases hn : Path.fileName? path with
  | some name => exact ⟨name, rfl⟩
  | none => simp [Candidate.isSearchable, Candidate.smallExtension?, Path.extension?, hn] at h

theorem isSearchable_of_mem_filesDirectlyIn {entries : List (String × Node)}
    (h : p ∈ filesDirectlyIn path entries) : Candidate.isSearchable p := by
  rw [Node.filesDirectlyIn_eq] at h
  obtain ⟨names, hn, rfl⟩ := List.mem_map.mp h
  exact (List.mem_filter.mp (List.mem_of_mem_filter hn)).2

theorem isSearchable_of_mem_candidates {tree : FileTree} {directory : String} {recursive : Bool}
    {files : List String} (h : tree.candidates directory recursive = .ok files) (hp : p ∈ files) :
    Candidate.isSearchable p := by
  unfold candidates at h
  split at h
  · cases h
  · cases h
    split at hp
    · cases hp
    · split at hp
      · exact isSearchable_of_mem_filesAt hp
      · split at hp
        · exact isSearchable_of_mem_filesAt hp
        · exact isSearchable_of_mem_filesDirectlyIn hp

end

end FileTree

section Told

open Report (match?)

variable (query : Query)

theorem Scope.filterMap_events (scope : Scope) (e : Failure) :
    (scope.events e).filterMap match? = [] := rfl

theorem Candidate.filterMap_methodEvents (filter : String) (c : Candidate)
    (outcome : Except Failure Declaration) :
    (c.methodEvents filter outcome).filterMap match? =
      outcome.toOption.toList.map fun d => ⟨c, some d.render⟩ := by
  cases outcome <;> rfl

/-- A content that cannot be read as a whole has no declarations. -/
theorem Candidate.Kind.declarations_eq (kind : Kind) (content : ByteArray) (filter : String) :
    kind.declarations content filter =
      match kind.outcomes filter content with
      | .ok outcomes => outcomes.filterMap (·.toOption)
      | .error _ => [] := by
  cases kind with
  | source =>
    unfold declarations outcomes
    cases Java.declarations (Text.Utf8.decodeLossy content) filter with
    | error e => rfl
    | ok ds =>
      have hds : (ds.map Except.ok).filterMap (fun o : Except Failure Declaration => o.toOption) =
          ds := by
        rw [List.filterMap_map]
        exact List.filterMap_some
      exact hds.symm
  | compiled | container => rfl

theorem Finding.filterMap_events (scope : Scope) (c : Candidate)
    (content : Except Failure ByteArray) :
    ((matched scope c content).events query).filterMap match? = c.results query content := by
  unfold events Candidate.results
  cases query.methodFilter with
  | none => rfl
  | some filter =>
    cases content with
    | error e => exact scope.filterMap_events e
    | ok content =>
      simp only [Except.bind, Candidate.Kind.declarations_eq]
      cases c.kind.outcomes filter content with
      | error e => exact scope.filterMap_events e
      | ok outcomes =>
        have hm : (outcomes.filterMap (·.toOption)).map (fun d => Match.mk c (some d.render)) =
            outcomes.flatMap fun o => o.toOption.toList.map fun d => ⟨c, some d.render⟩ := by
          rw [List.filterMap_eq_flatMap_toList, List.map_flatMap]
        rw [hm, List.filterMap_flatMap]
        simp only [Candidate.filterMap_methodEvents]

theorem Finding.filterMap_events_ite (hit : Bool) (scope : Scope) (c : Candidate)
    (content : Except Failure ByteArray) :
    ((if hit then [matched scope c content] else []).flatMap (events query)).filterMap match? =
      if hit then c.results query content else [] := by
  cases hit with
  | true =>
    simp only [if_true, List.flatMap_singleton]
    exact filterMap_events query scope c content
  | false => rfl

theorem Archive.filterMap_events (locator : String) (a : Archive) (h : Header) :
    (a.events query locator h).filterMap match? = a.entryResults query locator h := by
  unfold events findings entryResults
  cases openEntry a h with
  | error fault => rfl
  | ok entry =>
    cases h.isDirectory with
    | true => rfl
    | false =>
      simp only [Bool.false_or, Bool.not_false, Bool.true_and]
      rw [← Finding.filterMap_events_ite]
      cases Candidate.isMatch query h.name h.name <;> rfl

namespace FileTree

variable (t : FileTree)

/-- A file with a name, so that the name that stands in for a missing one is not used. -/
theorem filterMap_events {path : String} (hp : Candidate.isSearchable path) :
    (t.events query path).filterMap match? = t.fileResults query path := by
  obtain ⟨name, hn⟩ := exists_fileName hp
  rw [events_eq]
  unfold findings fileResults
  simp only [hn, Option.getD_some]
  generalize Path.absolute t.workingDirectory path = locator
  cases Candidate.Kind.ofName name with
  | compiled => exact Finding.filterMap_events_ite query _ _ _ _
  | source => exact Finding.filterMap_events_ite query _ _ _ _
  | container =>
    cases Searcher.openArchive t locator with
    | error e => rfl
    | ok archive =>
      rw [List.flatMap_assoc, List.filterMap_flatMap]
      exact List.flatMap_congr fun h _ => archive.filterMap_events query locator h

theorem filterMap_directoryEvents (recursive : Bool) (directory : String) :
    (t.directoryEvents query recursive directory).filterMap match? =
      t.results query recursive directory := by
  unfold directoryEvents results
  cases hf : t.candidates directory recursive with
  | error e => rfl
  | ok files =>
    show (files.flatMap (t.events query)).filterMap match? = _
    rw [List.filterMap_flatMap]
    exact List.flatMap_congr fun path hp =>
      t.filterMap_events query (isSearchable_of_mem_candidates hf hp)

end FileTree

end Told

namespace Searcher

variable (s : Searcher)

def found : List Match := s.events.filterMap Report.match?

/-- Uses of a search that leave its query and its files as they are and tell `ms` behind the matches
told before. -/
structure Tells (s s' : Searcher) (ms : List Match) : Prop where
  query : s'.query = s.query
  tree : s'.tree = s.tree
  found : s'.found = s.found ++ ms

theorem tells_after (n : Nat) (as : List Activity) :
    Tells s (s.after n as) ((as.filterMap (·.event?)).filterMap Report.match?) :=
  ⟨s.query_after n as, s.tree_after n as, by simp [found]⟩

theorem tells_searchDirectories (directories : List String) (recursive : Bool) :
    Tells s (s.searchDirectories directories recursive)
      (directories.flatMap (s.tree.results s.query recursive)) := by
  have hm : (((Call.directories directories recursive).activities s.query s.tree).filterMap
      (·.event?)).filterMap Report.match? =
        directories.flatMap (s.tree.results s.query recursive) := by
    simp [Call.filterMap_activities, Call.events, List.filterMap_flatMap, List.filterMap_cons,
      Report.match?, FileTree.filterMap_directoryEvents]
  rw [← hm, s.searchDirectories_eq directories recursive]
  exact s.tells_after _ _

/-- Each match that a search tells is one of some candidate that it came across. -/
theorem exists_of_mem_found {query : Query} {tree : FileTree} {directories : List String}
    {recursive : Bool} {m : Match} (hm : m ∈ (search query tree directories recursive).found) :
    ∃ c content, m ∈ Candidate.results query c content := by
  have htells := tells_searchDirectories { query, tree } directories recursive
  have hfound : (search query tree directories recursive).found =
      directories.flatMap (tree.results query recursive) := htells.found
  rw [hfound] at hm
  obtain ⟨directory, -, hm⟩ := List.mem_flatMap.mp hm
  exact FileTree.exists_of_mem_results hm

end Searcher

/-- The matches that a search tells are those of all files below its directories, in order and each of them
once, whatever fails on the way. -/
theorem found_search (query : Query) (tree : FileTree) (directories : List String)
    (recursive : Bool) :
    (search query tree directories recursive).events.filterMap Report.match? =
      directories.flatMap (tree.results query recursive) := by
  have h := Searcher.tells_searchDirectories { query, tree } directories recursive
  exact h.found

end ClassLocator

import ClassLocator.Proofs.Search.Calls

namespace ClassLocator

theorem flatMap_eq_of_forall₂ {α β γ : Type} {R : α → β → Prop} {f : α → List γ} {g : β → List γ}
    {xs : List α} {ys : List β} (h : List.Forall₂ R xs ys) (hfg : ∀ x y, R x y → f x = g y) :
    xs.flatMap f = ys.flatMap g := by
  induction h with
  | nil => rfl
  | cons hxy _ ih => rw [List.flatMap_cons, List.flatMap_cons, hfg _ _ hxy, ih]

def Scope.events (scope : Scope) (e : Failure) : List Event :=
  [.verbose (scope.detail e.message), .failed scope.locator (scope.message e.message)]

def Candidate.Kind.outcomes (filter : String) (content : ByteArray) :
    Kind → Except Failure (List (Except Failure Declaration))
  | .source => (Java.declarations (Text.Utf8.decodeLossy content) filter).map fun ds => ds.map .ok
  | _ => ClassFile.declarations content filter

def Candidate.methodEvents (filter : String) (c : Candidate) : Except Failure Declaration → List Event
  | .ok d => [.found ⟨c, some d.render⟩]
  | .error e => (Scope.method filter c).events e

/-- The events of a finding. Without a filter the content is not looked at. -/
def Finding.events (query : Query) : Finding → List Event
  | unopened scope e => scope.events e
  | matched scope c content =>
    match query.methodFilter with
    | none => [.found ⟨c, none⟩]
    | some filter =>
      match content.bind fun bytes => c.kind.outcomes filter bytes with
      | .ok outcomes => outcomes.flatMap (c.methodEvents filter)
      | .error e => scope.events e

@[simp] theorem Scope.filterMap_activities (scope : Scope) (e : Failure) :
    (scope.activities e).filterMap (·.event?) = scope.events e := rfl

theorem Candidate.filterMap_methodActivities (filter : String) (c : Candidate)
    (outcome : Except Failure Declaration) :
    (c.methodActivities filter outcome).filterMap (·.event?) = c.methodEvents filter outcome := by
  cases outcome <;> rfl

/-- Remarks are no events, so only what becomes of the methods is told. -/
theorem Candidate.filterMap_contentActivities (filter : String) (c : Candidate) (content : ByteArray) :
    (c.contentActivities filter content).map (·.filterMap (·.event?)) =
      (c.kind.outcomes filter content).map (·.flatMap (c.methodEvents filter)) := by
  have hcompiled : (c.classFileActivities filter content).map (·.filterMap (·.event?)) =
      (ClassFile.declarations content filter).map (·.flatMap (c.methodEvents filter)) := by
    unfold classFileActivities
    cases ClassFile.declarations content filter with
    | error e => rfl
    | ok outcomes =>
      simp [Except.map, List.filterMap_flatMap, filterMap_methodActivities, Function.comp_def]
  unfold contentActivities Kind.outcomes
  cases c.kind with
  | source =>
    unfold sourceActivities
    cases Java.declarations (Text.Utf8.decodeLossy content) filter with
    | error e => rfl
    | ok ds =>
      have hfound : (ds.map fun d => Activity.event (.found ⟨c, some d.render⟩)).filterMap (·.event?) =
          (ds.map Except.ok).flatMap (c.methodEvents filter) := by
        rw [List.flatMap_map, List.filterMap_map]
        exact (congrFun List.filterMap_eq_map ds).trans List.map_eq_flatMap
      exact congrArg Except.ok hfound
  | compiled => exact hcompiled
  | container => exact hcompiled

theorem Finding.filterMap_activities (query : Query) (f : Finding) :
    (f.activities query).filterMap (·.event?) = f.events query := by
  cases f with
  | unopened scope e => rfl
  | matched scope c content =>
    simp only [activities, events, Candidate.activities]
    cases query.methodFilter with
    | none => rfl
    | some filter =>
      cases content with
      | error e => rfl
      | ok content =>
        have h := c.filterMap_contentActivities filter content
        simp only [Except.bind]
        cases ha : c.contentActivities filter content <;>
          cases ho : c.kind.outcomes filter content <;> simp_all [Except.map]

theorem FileTree.events_eq (query : Query) (t : FileTree) (path : String) :
    t.events query path = (t.findings query path).flatMap (·.events query) := by
  simp only [events, activities, List.filterMap_flatMap, Finding.filterMap_activities]

def Archive.events (query : Query) (locator : String) (a : Archive) (h : Header) : List Event :=
  (a.findings query locator h).flatMap (·.events query)

namespace Searcher

variable (s : Searcher)

theorem events_searchFile (path : String) :
    (s.searchFile path).events = s.events ++ s.tree.events s.query path := by
  rw [s.searchFile_eq, events_after]
  rfl

theorem events_searchEntry (a : Archive) (locator : String) (h : Archive.Header) :
    (searchEntry a locator s h).events = s.events ++ a.events s.query locator h := by
  rw [s.searchEntry_eq, events_after, List.filterMap_flatMap]
  simp only [Finding.filterMap_activities, Archive.events]

theorem events_searchEntries (a : Archive) (locator : String) (headers : List Archive.Header) :
    (headers.foldl (searchEntry a locator) s).events =
      s.events ++ headers.flatMap (a.events s.query locator) := by
  induction headers generalizing s with
  | nil => simp
  | cons h headers ih =>
    have hq : (searchEntry a locator s h).query = s.query := by rw [s.searchEntry_eq, query_after]
    rw [List.foldl_cons, ih, events_searchEntry, hq, List.flatMap_cons, List.append_assoc]

end Searcher

/-- A finding that is made in the file at `locator`: its failures are those of the file or, by its name,
of an entry in it. -/
def Finding.IsAt (locator : String) : Finding → Prop
  | unopened scope _ => scope.locator = locator
  | matched scope c _ =>
    c.locator = locator ∧ (scope = .file c.locator ∨ scope = .entry c.displayName c.locator)

theorem Archive.isAt_of_mem_findings {query : Query} {a : Archive} {locator : String} {h : Header}
    {f : Finding} (hf : f ∈ a.findings query locator h) : f.IsAt locator := by
  unfold findings at hf
  split at hf
  · obtain rfl := List.mem_singleton.mp hf
    rfl
  · split at hf
    · cases hf
    · obtain rfl := List.mem_singleton.mp hf
      exact ⟨rfl, .inr rfl⟩

theorem FileTree.isAt_of_mem_findings {query : Query} {t : FileTree} {path : String} {f : Finding}
    (hf : f ∈ t.findings query path) : f.IsAt (Path.absolute t.workingDirectory path) := by
  unfold findings at hf
  dsimp only at hf
  generalize Path.absolute t.workingDirectory path = locator at hf
  split at hf
  · split at hf
    · obtain rfl := List.mem_singleton.mp hf
      rfl
    · obtain ⟨header, -, hf⟩ := List.mem_flatMap.mp hf
      exact Archive.isAt_of_mem_findings hf
  · split at hf
    · obtain rfl := List.mem_singleton.mp hf
      exact ⟨rfl, .inl rfl⟩
    · cases hf

section Findings

variable {query : Query}

theorem FileTree.findings_of_getD {t : FileTree} {path name locator : String}
    (hl : Path.absolute t.workingDirectory path = locator)
    (hn : (Path.fileName? path).getD locator = name) (hk : Candidate.Kind.ofName name ≠ .container) :
    t.findings query path =
      if Candidate.isMatch query name locator then
        [.matched (.file locator) ⟨name, locator, .ofName name⟩ (Searcher.readFile t locator)]
      else [] := by
  -- The kind is that of no archive, which decides the first match.
  unfold findings
  simp only [hl, hn]

theorem FileTree.findings_of_kind {t : FileTree} {path name locator : String}
    (hl : Path.absolute t.workingDirectory path = locator) (hn : Path.fileName? path = some name)
    (hk : Candidate.Kind.ofName name ≠ .container) :
    t.findings query path =
      if Candidate.isMatch query name locator then
        [.matched (.file locator) ⟨name, locator, .ofName name⟩ (Searcher.readFile t locator)]
      else [] :=
  findings_of_getD hl (by rw [hn, Option.getD_some]) hk

section Container

variable {t : FileTree} {path locator : String} (hl : Path.absolute t.workingDirectory path = locator)
  (hk : Candidate.Kind.ofName ((Path.fileName? path).getD locator) = .container)

include hl hk

theorem FileTree.findings_of_unopened {e : Failure} (ho : Searcher.openArchive t locator = .error e) :
    t.findings query path = [.unopened (.file locator) e] := by
  unfold findings
  simp only [hl, hk, ho]

theorem FileTree.findings_of_openArchive {a : Archive} (ho : Searcher.openArchive t locator = .ok a) :
    t.findings query path = a.headers.flatMap (a.findings query locator) := by
  unfold findings
  simp only [hl, hk, ho]

end Container

theorem Archive.findings_of_openEntry {a : Archive} {header : Header} {entry : Entry}
    (ho : openEntry a header = .ok entry) (hd : header.isDirectory = false) (locator : String) :
    a.findings query locator header =
      if Candidate.isMatch query header.name header.name then
        [.matched (.entry header.name locator) ⟨header.name, locator, .ofName header.name⟩ entry.read]
      else [] := by
  unfold findings
  rw [ho]
  cases hm : Candidate.isMatch query header.name header.name <;> simp [hd]

end Findings

theorem summary_search (query : Query) (tree : FileTree) (directories : List String) (recursive : Bool) :
    (search query tree directories recursive).summary =
      .ofEvents (directories.flatMap (tree.listed recursive)).length
        (search query tree directories recursive).events := by
  have h := Searcher.summary_after_of_eq { query, tree } (n := 0) rfl
    (directories.flatMap (tree.listed recursive)).length
    ((Call.directories directories recursive).activities query tree)
  rwa [← Searcher.searchDirectories_eq { query, tree }, Nat.zero_add] at h

end ClassLocator

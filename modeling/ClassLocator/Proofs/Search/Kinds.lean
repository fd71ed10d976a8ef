import ClassLocator.Proofs.Candidate
import ClassLocator.Proofs.Search.Events

namespace ClassLocator

variable {query : Query} {m : Match} {c : Candidate} {scope : Scope} {filter : String}

theorem Scope.found_not_mem (e : Failure) : .found m ∉ scope.events e := by
  simp [Scope.events]

theorem Candidate.of_mem_methodEvents {outcome : Except Failure Declaration}
    (h : .found m ∈ c.methodEvents filter outcome) : m.candidate = c := by
  cases outcome with
  | ok d =>
    have hm : m = ⟨c, some d.render⟩ := by simpa [methodEvents] using h
    rw [hm]
  | error e => exact absurd h (Scope.found_not_mem e)

theorem Finding.of_mem_events {f : Finding} (h : .found m ∈ f.events query) :
    ∃ scope content, f = .matched scope m.candidate content := by
  cases f with
  | unopened scope e => exact absurd h (Scope.found_not_mem e)
  | matched scope c content =>
    have hc : m.candidate = c := by
      simp only [Finding.events] at h
      split at h
      · have hm : m = ⟨c, none⟩ := by simpa using h
        rw [hm]
      · split at h
        · obtain ⟨outcome, -, h⟩ := List.mem_flatMap.mp h
          exact Candidate.of_mem_methodEvents h
        · exact absurd h (Scope.found_not_mem _)
    exact ⟨scope, content, by rw [hc]⟩

namespace FileTree

variable {tree : FileTree} {path : String}

theorem of_mem_fileEvents (h : .found m ∈ tree.events query path) :
    ∃ scope content, .matched scope m.candidate content ∈ tree.findings query path := by
  rw [events_eq] at h
  obtain ⟨f, hf, h⟩ := List.mem_flatMap.mp h
  obtain ⟨scope, content, rfl⟩ := Finding.of_mem_events h
  exact ⟨scope, content, hf⟩

theorem of_mem_directoryEvents {recursive : Bool} {directory : String}
    (h : .found m ∈ tree.directoryEvents query recursive directory) :
    ∃ path, .found m ∈ tree.events query path := by
  unfold directoryEvents at h
  split at h
  · obtain ⟨path, -, h⟩ := List.mem_flatMap.mp h
    exact ⟨path, h⟩
  · simp at h

theorem of_mem_callEvents {call : Call} (h : .found m ∈ call.events query tree) :
    ∃ path, .found m ∈ tree.events query path := by
  cases call with
  | directories ds recursive =>
    have hd : .found m ∈ ds.flatMap (tree.directoryEvents query recursive) := by
      simpa [Call.events] using h
    obtain ⟨d, -, hd⟩ := List.mem_flatMap.mp hd
    exact of_mem_directoryEvents hd
  | files paths =>
    obtain ⟨path, -, h⟩ := List.mem_flatMap.mp h
    exact ⟨path, h⟩
  | file path => exact ⟨path, h⟩

theorem of_mem_events {calls : List Call} {m : Match}
    (h : .found m ∈ (Searcher.calls { query, tree } calls).events) :
    ∃ path scope content, .matched scope m.candidate content ∈ tree.findings query path := by
  rw [Searcher.events_calls] at h
  obtain ⟨call, -, hcall⟩ := List.mem_flatMap.mp h
  obtain ⟨path, hpath⟩ := of_mem_callEvents hcall
  exact ⟨path, of_mem_fileEvents hpath⟩

variable {raw : String} {caseSensitive : Bool} {method : Option String}

theorem kind_of_mem_entry (hq : Query.new raw caseSensitive method = .ok query) {a : Archive}
    {header : Archive.Header} {locator : String} {content : Except Failure ByteArray}
    (h : .matched scope c content ∈ a.findings query locator header) :
    c.kind = .container ↔ Candidate.Nameless query c.displayName := by
  unfold Archive.findings at h
  split at h
  · simp at h
  · split at h
    · cases h
    · rename_i hmatch
      obtain ⟨-, hc, -⟩ : _ ∧ c = ⟨header.name, locator, .ofName header.name⟩ ∧ _ := by
        simpa using h
      have hm : Candidate.isMatch query header.name header.name := by
        simp only [Bool.or_eq_true, Bool.not_eq_true'] at hmatch
        simpa using fun hf => hmatch (.inr hf)
      rw [hc]
      exact (Candidate.kind_iff_nameless hq (.inl rfl) hm).1

/-- An entry that matched is an archive only by a name that is an extension alone, and a file that
is an archive by its name is opened and never matched itself. -/
theorem kind_of_mem_findings (hq : Query.new raw caseSensitive method = .ok query)
    {content : Except Failure ByteArray} (h : .matched scope c content ∈ tree.findings query path) :
    c.kind = .container ↔ Candidate.Nameless query c.displayName := by
  unfold findings at h
  dsimp only at h
  generalize Path.absolute tree.workingDirectory path = locator at h
  generalize (Path.fileName? path).getD locator = name at h
  split at h
  · split at h
    · simp at h
    · obtain ⟨header, -, h⟩ := List.mem_flatMap.mp h
      exact kind_of_mem_entry hq h
  · rename_i hkind
    split at h
    · obtain ⟨-, rfl, -⟩ := by simpa using h
      exact ⟨fun hc => absurd hc hkind, fun hn => absurd hn.kind.1 hkind⟩
    · cases h

/-- What is read as a class file is one by its name, or has no name but an extension. -/
theorem read_of_mem_findings (hq : Query.new raw caseSensitive method = .ok query)
    {content : Except Failure ByteArray} (h : .matched scope c content ∈ tree.findings query path) :
    c.kind = .compiled ∨ Candidate.Nameless query c.displayName ∨
      ∀ (s : Searcher) filter bytes,
        s.reportMethods filter c bytes = (c.sourceActivities filter bytes).map (s.after 0) := by
  cases hk : c.kind with
  | compiled => exact .inl rfl
  | source =>
    refine .inr (.inr fun s filter bytes => ?_)
    rw [s.reportMethods_eq, Candidate.contentActivities, hk]
  | container => exact .inr (.inl ((kind_of_mem_findings hq h).mp hk))

end FileTree

/-- A name that matches is one of a class file or a source and is searchable, unless it is an extension
alone and the target ends in a slash; then it is taken for an archive. So it is for each match that a search
tells. What matches and is neither a class file nor such a name is read as a source. -/
theorem kind_of_isMatch {raw : String} {caseSensitive : Bool} {method : Option String}
    (hq : Query.new raw caseSensitive method = .ok query) :
    (∀ name path, name = path ∨ Path.fileName? path = some name →
      Candidate.isMatch query name path →
        (Candidate.Kind.ofName name = .container ↔ Candidate.Nameless query name) ∧
          (Candidate.isSearchable name ↔ ¬Candidate.Nameless query name)) ∧
    (∀ tree calls m, .found m ∈ (Searcher.calls { query, tree } calls).events →
      (m.candidate.kind = .container ↔ Candidate.Nameless query m.candidate.displayName)) ∧
    ∀ tree path scope c content, .matched scope c content ∈ FileTree.findings query tree path →
      c.kind = .compiled ∨ Candidate.Nameless query c.displayName ∨
        ∀ (s : Searcher) filter bytes,
          s.reportMethods filter c bytes = (c.sourceActivities filter bytes).map (s.after 0) := by
  refine ⟨fun name path hname hm => Candidate.kind_iff_nameless hq hname hm, fun tree calls m h => ?_,
    fun tree path scope c content h => FileTree.read_of_mem_findings hq h⟩
  obtain ⟨path, scope, content, hf⟩ := FileTree.of_mem_events h
  exact FileTree.kind_of_mem_findings hq hf

/-- An entry and a source of a class in a package. -/
theorem kind_of_isMatch_package :
    let query : Query := ⟨"util.Random", "util/random", true, false, none⟩
    let tree : FileTree := ⟨.directory [("util", .directory [("Random.java", .file .empty)])], "/"⟩
    let c : Candidate := ⟨"Random.java", "/util/Random.java", .source⟩
    Query.new "util.Random" false none = .ok query ∧
      Candidate.isMatch query "lib/util/Random.class" "lib/util/Random.class" ∧
      .found ⟨c, none⟩ ∈ (Searcher.calls { query, tree } [.file "/util/Random.java"]).events ∧
      Candidate.isSearchable "lib/util/Random.class" ∧ ¬Candidate.Nameless query "Random.java" ∧
      ∃ path scope content, .matched scope c content ∈ tree.findings query path ∧
        ∀ (s : Searcher) filter bytes,
          s.reportMethods filter c bytes = (c.sourceActivities filter bytes).map (s.after 0) := by
  intro query tree c
  have hq : Query.new "util.Random" false none = .ok query := by decide +kernel
  have hm : Candidate.isMatch query "lib/util/Random.class" "lib/util/Random.class" := by
    decide +kernel
  have he : .found ⟨c, none⟩ ∈
      (Searcher.calls { query, tree } [.file "/util/Random.java"]).events := by
    decide +kernel
  have hlast : query.target.toList.getLast? ≠ some '/' := by decide
  have hnameless : ∀ name, ¬Candidate.Nameless query name := fun name h => hlast h.1
  obtain ⟨hnames, hevents, hreads⟩ := kind_of_isMatch hq
  have hsearch := (hnames _ _ (.inl rfl) hm).2.mpr (hnameless _)
  have hname : ¬Candidate.Nameless query "Random.java" := by
    rw [← hevents tree _ _ he]
    decide
  obtain ⟨path, scope, content, hf⟩ := FileTree.of_mem_events he
  have hread := ((hreads tree path scope c content hf).resolve_left (by decide)).resolve_left hname
  exact ⟨hq, hm, he, hsearch, hname, path, scope, content, hf, hread⟩

/-- An archive of one empty entry with the name `a/.class`. -/
def archiveOfExtension : ByteArray := ⟨#[
  80, 75, 3, 4, 20, 0, 0, 0, 0, 0, 0, 0, 33, 0, 0, 0, 0, 0, 0, 0, 0, 0, 0, 0, 0, 0, 8, 0, 0, 0,
  97, 47, 46, 99, 108, 97, 115, 115,
  80, 75, 1, 2, 20, 3, 20, 0, 0, 0, 0, 0, 0, 0, 33, 0, 0, 0, 0, 0, 0, 0, 0, 0, 0, 0, 0, 0, 8, 0, 0,
  0, 0, 0, 0, 0, 0, 0, 0, 0, 128, 1, 0, 0, 0, 0, 97, 47, 46, 99, 108, 97, 115, 115,
  80, 75, 5, 6, 0, 0, 0, 0, 1, 0, 1, 0, 54, 0, 0, 0, 38, 0, 0, 0, 0, 0]⟩

/-- A class name that is a dot finds an entry whose name is an extension alone, and tells an archive. -/
theorem found_container :
    let tree : FileTree := ⟨.directory [("x.jar", .file archiveOfExtension)], "/"⟩
    ∃ query, Query.new "." false none = .ok query ∧ Candidate.isMatch query "a/.class" "a/.class" ∧
      Candidate.Kind.ofName "a/.class" = .container ∧ ¬Candidate.isSearchable "a/.class" ∧
      (Searcher.calls { query, tree } [.file "/x.jar"]).events =
        [.found ⟨⟨"a/.class", "/x.jar", .container⟩, none⟩] :=
  ⟨_, rfl, by decide +kernel, by decide +kernel, by decide +kernel, by decide +kernel⟩

end ClassLocator

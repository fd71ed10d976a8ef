import ClassLocator.Proofs.FileTree
import ClassLocator.Proofs.Search.Events
import ClassLocator.Proofs.Search.Matches

namespace ClassLocator

namespace Searcher

open FileTree

theorem agree_openArchive {t t' : FileTree} (h : t.Alike t') {path name : String}
    (hn : Path.fileName? path = some name) (hk : Candidate.Kind.ofName name = .container) :
    Agree (fun a a' => a.outline = a'.outline)
      (openArchive t (Path.absolute t.workingDirectory path))
      (openArchive t' (Path.absolute t.workingDirectory path)) := by
  have hfind := agree_find h (Path.absolute t.workingDirectory path)
  have hlast : Candidate.Kind.ofName
      ((steps t.workingDirectory (Path.absolute t.workingDirectory path)).getLast?.getD "") =
        .container := by
    rcases getLast?_steps t.workingDirectory hn with hl | hl
    · rw [hl]
      exact hk
    · rw [hl]
      decide +kernel
  unfold openArchive FileTree.map
  generalize t.find _ = found, t'.find _ = found' at hfind ⊢
  cases hfind with
  | error fault => exact .error _
  | @ok n n' halike =>
    cases halike with
    | directory => exact .error _
    | @file _ b b' hopen =>
      dsimp only [bind, Except.bind, pure, Except.pure]
      have hbytes := (hopen hlast).agree
      generalize Archive.ofBytes b = a, Archive.ofBytes b' = a' at hbytes ⊢
      cases hbytes with
      | error fault => exact .error _
      | ok ha => exact .ok ha

end Searcher

section Unfiltered

variable {query : Query} (hq : query.methodFilter = none)

include hq

theorem Finding.events_matched (scope : Scope) (c : Candidate) (content : Except Failure ByteArray) :
    (Finding.matched scope c content).events query = [.found ⟨c, none⟩] := by
  simp only [events, hq]

theorem Archive.events_eq_of_outline {a a' : Archive} (h : a.outline = a'.outline) (locator : String) :
    (a.headers.flatMap (a.findings query locator)).flatMap (·.events query) =
      (a'.headers.flatMap (a'.findings query locator)).flatMap (·.events query) := by
  rw [List.flatMap_assoc, List.flatMap_assoc]
  rw [outline, outline, ← List.forall₂_eq_eq_eq, List.forall₂_map_left_iff, List.forall₂_map_right_iff] at h
  refine flatMap_eq_of_forall₂ h fun header header' he => ?_
  obtain ⟨hname, hopen⟩ := Prod.mk.inj he
  have hdir : header.isDirectory = header'.isDirectory := by
    simp only [Header.isDirectory, hname]
  unfold findings
  cases ho : openEntry a header <;> cases ho' : openEntry a' header' <;> simp only [ho, ho'] at hopen
  · obtain rfl := Option.some.inj hopen
    rfl
  · cases hopen
  · cases hopen
  · simp only [hdir, hname]
    split
    · rfl
    · simp only [List.flatMap_singleton, Finding.events_matched hq]

theorem FileTree.events_eq_of_alike {t t' : FileTree} (h : t.Alike t') {path : String}
    (hp : Candidate.isSearchable path) : t.events query path = t'.events query path := by
  obtain ⟨name, hn⟩ := exists_fileName hp
  rw [events_eq, events_eq]
  by_cases hk : Candidate.Kind.ofName name = .container
  · have hopen := Searcher.agree_openArchive h hn hk
    unfold findings
    simp only [hn, Option.getD_some, hk, ← h.workingDirectory]
    generalize Searcher.openArchive t _ = a, Searcher.openArchive t' _ = a' at hopen ⊢
    cases hopen with
    | error e => rfl
    | ok ho => exact Archive.events_eq_of_outline hq ho _
  · rw [findings_of_kind rfl hn hk, findings_of_kind rfl hn hk, ← h.workingDirectory]
    split
    · simp only [List.flatMap_singleton, Finding.events_matched hq]
    · rfl

theorem FileTree.directoryEvents_eq_of_alike {t t' : FileTree} (h : t.Alike t') (recursive : Bool)
    (directory : String) :
    t.directoryEvents query recursive directory = t'.directoryEvents query recursive directory := by
  unfold directoryEvents
  rw [← candidates_eq_of_alike h]
  split
  · rename_i files hf
    exact List.flatMap_congr fun path hp =>
      events_eq_of_alike hq h (isSearchable_of_mem_candidates hf hp)
  · rfl

end Unfiltered

/-- What is at `locator` is no archive, or one with an entry that cannot be opened. -/
def FileTree.CannotOpen (t : FileTree) (locator message : String) : Prop :=
  (∃ e, Searcher.openArchive t locator = .error e ∧ message = e.message) ∨
    ∃ a, Searcher.openArchive t locator = .ok a ∧ ∃ header ∈ a.headers, ∃ fault,
      Archive.openEntry a header = .error fault ∧ message = (Failure.archive fault).message

theorem Scope.failed_mem_events {scope : Scope} {e : Failure} {locator message : String} :
    .failed locator message ∈ scope.events e ↔
      locator = scope.locator ∧ message = scope.message e.message := by
  simp [Scope.events]

section Failed

variable {query : Query} (hq : query.methodFilter = none) {t : FileTree} {locator message : String}

include hq

theorem Archive.cannotOpen_of_failed {a : Archive} {place : String}
    (ha : Searcher.openArchive t place = .ok a) {header : Header} (hh : header ∈ a.headers)
    (hm : .failed locator message ∈ (a.findings query place header).flatMap (·.events query)) :
    t.CannotOpen locator message := by
  unfold findings at hm
  split at hm
  · rename_i fault hfault
    rw [List.flatMap_singleton] at hm
    obtain ⟨rfl, hmessage⟩ := Scope.failed_mem_events.mp hm
    exact .inr ⟨a, ha, header, hh, fault, hfault, hmessage⟩
  · split at hm
    · simp at hm
    · simp [Finding.events_matched hq] at hm

/-- Without a filter only what is opened can fail. -/
theorem FileTree.cannotOpen_of_failed {path : String} (hm : .failed locator message ∈ t.events query path) :
    t.CannotOpen locator message := by
  rw [events_eq] at hm
  unfold findings at hm
  dsimp only at hm
  generalize Path.absolute t.workingDirectory path = place at hm
  split at hm
  · split at hm
    · rename_i e he
      rw [List.flatMap_singleton] at hm
      obtain ⟨rfl, hmessage⟩ := Scope.failed_mem_events.mp hm
      exact .inl ⟨e, he, hmessage⟩
    · rename_i a ha
      rw [List.flatMap_assoc] at hm
      obtain ⟨header, hh, hm⟩ := List.mem_flatMap.mp hm
      exact Archive.cannotOpen_of_failed hq ha hh hm
  · split at hm
    · simp [Finding.events_matched hq] at hm
    · simp at hm

theorem FileTree.failed_of_mem_directoryEvents {recursive : Bool} {directory : String}
    (hm : .failed locator message ∈ t.directoryEvents query recursive directory) :
    (∃ e, t.candidates directory recursive = .error e ∧ locator = directory ∧ message = e.message) ∨
      t.CannotOpen locator message := by
  unfold directoryEvents at hm
  split at hm
  · obtain ⟨path, -, hm⟩ := List.mem_flatMap.mp hm
    exact .inr (cannotOpen_of_failed hq hm)
  · rename_i e he
    obtain ⟨rfl, rfl⟩ : locator = directory ∧ message = e.message := by simpa using hm
    exact .inl ⟨e, he, rfl, rfl⟩

end Failed

/-- A search for classes alone gives the same events and counters over files and archives of the same
names, whatever their classes, sources and entries hold. It fails only where a directory cannot be listed
or where an archive or an entry of it cannot be opened. -/
theorem search_eq_of_alike {query : Query} (hq : query.methodFilter = none) {tree tree' : FileTree}
    (h : tree.Alike tree') (directories : List String) (recursive : Bool) :
    let s := search query tree directories recursive
    let s' := search query tree' directories recursive
    s.events = s'.events ∧ s.summary = s'.summary ∧
      ∀ locator message, .failed locator message ∈ s.events →
        (∃ directory ∈ directories, ∃ e, tree.candidates directory recursive = .error e ∧
          locator = directory ∧ message = e.message) ∨ tree.CannotOpen locator message := by
  intro s s'
  have hs : ∀ tree, (search query tree directories recursive).events =
      .verbose "Building directory search tree..." ::
        directories.flatMap (tree.directoryEvents query recursive) ++ [.verbose "Finished search"] :=
    fun tree => Searcher.events_searchDirectories { query, tree } directories recursive
  have hdirectory : tree.directoryEvents query recursive = tree'.directoryEvents query recursive :=
    funext fun directory => tree.directoryEvents_eq_of_alike hq h recursive directory
  have hevents : s.events = s'.events := by
    simp only [s, s', hs, hdirectory]
  have hlisted : tree.listed recursive = tree'.listed recursive := by
    funext directory
    rw [FileTree.listed, FileTree.listed, FileTree.candidates_eq_of_alike h]
  refine ⟨hevents, ?_, fun locator message hm => ?_⟩
  · have hsum := summary_search query tree directories recursive
    have hsum' := summary_search query tree' directories recursive
    rw [← hlisted] at hsum'
    exact hsum.trans ((congrArg _ hevents).trans hsum'.symm)
  · rw [hs tree] at hm
    obtain ⟨directory, hd, hm⟩ : ∃ directory ∈ directories,
        .failed locator message ∈ tree.directoryEvents query recursive directory := by
      simpa using hm
    exact (FileTree.failed_of_mem_directoryEvents hq hm).imp_left fun he => ⟨directory, hd, he⟩

/-- A class and a source that are none, an entry with a wrong checksum, and a file that is no archive. -/
theorem search_eq_of_alike_garbage :
    let tree : FileTree := ⟨.directory [("a", .directory [("A.class", .file .empty)]),
      ("b", .directory [("A.java", .file .empty)]),
      ("c", .directory [("x.jar", .file (Archive.ofByte 0))]),
      ("d", .directory [("y.jar", .file .empty)])], "/"⟩
    let tree' : FileTree := ⟨.directory [("a", .directory [("A.class", .file ⟨#[1, 2, 3]⟩)]),
      ("b", .directory [("A.java", .file ⟨#[125]⟩)]),
      ("c", .directory [("x.jar", .file (Archive.ofByte 1))]),
      ("d", .directory [("y.jar", .file .empty)])], "/"⟩
    let query : Query := ⟨"A", "a", false, false, none⟩
    let directories := ["/a", "/b", "/c", "/d"]
    let message := "cannot read archive: invalid Zip archive: Invalid zip header"
    query.methodFilter = none ∧ tree.Alike tree' ∧
      (search query tree directories true).events = (search query tree' directories true).events ∧
      (search query tree directories true).summary = ⟨4, 3, 1⟩ ∧
      .failed "/d/y.jar" message ∈ (search query tree directories true).events ∧
      tree.CannotOpen "/d/y.jar" message := by
  intro tree tree' query directories message
  have hclass : Candidate.Kind.ofName "A.class" = .compiled := by decide +kernel
  have hjava : Candidate.Kind.ofName "A.java" = .source := by decide +kernel
  have hjar : Archive.OpenAlike (Archive.ofByte 0) (Archive.ofByte 1) := by decide +kernel
  have halike : tree.Alike tree' := by
    refine ⟨.directory (.cons (.directory (.cons (.file fun h => ?_) .nil))
      (.cons (.directory (.cons (.file fun h => ?_) .nil))
        (.cons (.directory (.cons (.file fun _ => hjar) .nil))
          (.cons (.directory (.cons (.file fun _ => rfl) .nil)) .nil)))), rfl⟩
    · simp [hclass] at h
    · simp [hjava] at h
  have hfailed : .failed "/d/y.jar" message ∈ (search query tree directories true).events := by
    decide +kernel
  have hquery : query.methodFilter = none := rfl
  obtain ⟨hevents, -, hmissing⟩ := search_eq_of_alike hquery halike directories true
  refine ⟨hquery, halike, hevents, by decide +kernel, hfailed, (hmissing _ _ hfailed).resolve_left ?_⟩
  rintro ⟨directory, hd, e, -, rfl, -⟩
  exact absurd hd (by decide)

end ClassLocator

import ClassLocator.Proofs.Candidate.Parts
import ClassLocator.Proofs.FileTree
import ClassLocator.Proofs.Search.Events
import ClassLocator.Report
/-!
A class or source that stands alone and the same one in an archive. Main statement: where the query asks
for a simple name, both are told alike, but for the names and places in what is told.
-/

namespace ClassLocator

theorem Text.cons_suffix_iff {c : Char} {w front last : List Char} (hw : c ∉ w) (hl : c ∉ last) :
    c :: w <:+ front ++ c :: last ↔ last = w := by
  constructor
  · rintro ⟨before, h⟩
    have hs := congrArg (separated c) h
    rw [separated_append hw, separated_append hl] at hs
    exact (List.singleton_inj.mp (List.append_inj_right' hs rfl)).symm
  · rintro rfl
    exact List.suffix_append front _

namespace Candidate

variable {query : Query} {name : String}

theorem slash_not_mem_comparable (b : Bool) (hs : '/' ∉ name.toList) (hb : '\\' ∉ name.toList) :
    '/' ∉ (comparable b name).toList := by
  have hsame : slashed name = name.toList := by
    have hkept : ∀ c ∈ name.toList, (if c = '\\' then '/' else c) = id c := by
      intro c hc
      have hne : c ≠ '\\' := fun h => hb (h ▸ hc)
      exact if_neg hne
    exact (List.map_congr_left hkept).trans (List.map_id _)
  cases b with
  | true => rwa [toList_comparable_true, hsame]
  | false =>
    rw [toList_comparable_false, hsame]
    exact fun h => hs (Text.slash_mem_of_mem_lowerAfter h)

def IsNamed (query : Query) (name : String) : Prop :=
  ∃ ext ∈ classExtensions,
    (comparable query.caseSensitive name).toList = query.target.toList ++ '.' :: ext.toList

section Unqualified

variable (hu : query.qualified = false) (ht : '/' ∉ query.target.toList) (hs : '/' ∉ name.toList)
  (hb : '\\' ∉ name.toList)

include hu ht hs hb in
theorem isMatch_iff_isNamed {path : String} {before : List Char}
    (hp : path.toList = before ++ '/' :: name.toList ∨
      path.toList = (before ++ '/' :: name.toList) ++ ['/']) :
    isMatch query name path ↔ IsNamed query name := by
  rw [isMatch_iff]
  refine exists_congr fun ext => and_congr_right fun hext => ?_
  have hfile := slash_not_mem_fileName ht hext
  simp only [hu, Bool.false_eq_true, if_false]
  rcases hp with hp | hp
  · obtain ⟨front, hfront⟩ := toList_comparable_append query.caseSensitive hp
    rw [hfront, Text.cons_suffix_iff hfile (slash_not_mem_comparable _ hs hb), or_self]
  · have hp' : path.toList = (before ++ '/' :: name.toList) ++ '/' :: "".toList := hp
    obtain ⟨front, hfront⟩ := toList_comparable_append query.caseSensitive hp'
    have hempty : (comparable query.caseSensitive "").toList = [] := by
      cases query.caseSensitive <;> simp [comparable, Text.lower, Text.lowerAfter]
    rw [hfront, hempty, Text.cons_suffix_iff hfile (by simp)]
    simp

include hu ht hs hb in
/-- The name of an entry may have directories in front; only its last part decides. -/
theorem isMatch_entry_iff_isNamed {entryName : String}
    (hn : entryName = name ∨ ∃ front, entryName = front ++ "/" ++ name) :
    isMatch query entryName entryName ↔ IsNamed query name := by
  rw [isMatch_iff]
  refine exists_congr fun ext => and_congr_right fun hext => ?_
  have hfile := slash_not_mem_fileName ht hext
  have hname := slash_not_mem_comparable query.caseSensitive hs hb
  simp only [hu, Bool.false_eq_true, if_false]
  rcases hn with rfl | ⟨p, rfl⟩
  · refine or_iff_left fun h => hname ?_
    exact h.subset List.mem_cons_self
  · have hp : (p ++ "/" ++ name).toList = p.toList ++ '/' :: name.toList := by simp
    obtain ⟨front, hfront⟩ := toList_comparable_append query.caseSensitive hp
    rw [hfront, Text.cons_suffix_iff hfile hname]
    refine or_iff_right fun h => hfile ?_
    rw [← h]
    simp

end Unqualified

end Candidate

inductive Scope.Moved (c c' : Candidate) : Scope → Scope → Prop
  | whole : Moved c c' (.file c.locator) (.entry c'.displayName c'.locator)
  | method (filter : String) : Moved c c' (.method filter c) (.method filter c')

/-- What is told of a file, and the same told of an entry: only the candidate is another one, and with it
the names and places in the texts. -/
inductive Event.Moved (c c' : Candidate) : Event → Event → Prop
  | found (signature : Option String) : Moved c c' (.found ⟨c, signature⟩) (.found ⟨c', signature⟩)
  | detail {scope scope' : Scope} (h : scope.Moved c c' scope') (why : String) :
      Moved c c' (.verbose (scope.detail why)) (.verbose (scope'.detail why))
  | failed {scope scope' : Scope} (h : scope.Moved c c' scope') (why : String) :
      Moved c c' (.failed scope.locator (scope.message why))
        (.failed scope'.locator (scope'.message why))

section Moved

variable {c c' : Candidate}

theorem moved_scopeEvents {scope scope' : Scope} (h : Scope.Moved c c' scope scope') (e : Failure) :
    List.Forall₂ (Event.Moved c c') (scope.events e) (scope'.events e) :=
  .cons (.detail h _) (.cons (.failed h _) .nil)

theorem moved_methodEvents (filter : String) (outcome : Except Failure Declaration) :
    List.Forall₂ (Event.Moved c c') (c.methodEvents filter outcome)
      (c'.methodEvents filter outcome) := by
  cases outcome with
  | ok d => exact .cons (.found _) .nil
  | error e => exact moved_scopeEvents (.method filter) e

theorem moved_outcomes (filter : String) (outcomes : List (Except Failure Declaration)) :
    List.Forall₂ (Event.Moved c c') (outcomes.flatMap (c.methodEvents filter))
      (outcomes.flatMap (c'.methodEvents filter)) := by
  induction outcomes with
  | nil => exact .nil
  | cons outcome outcomes ih => exact List.rel_append (moved_methodEvents filter outcome) ih

theorem moved_finding (hkind : c.kind = c'.kind) (query : Query)
    (content : Except Failure ByteArray) :
    List.Forall₂ (Event.Moved c c')
      ((Finding.matched (.file c.locator) c content).events query)
      ((Finding.matched (.entry c'.displayName c'.locator) c' content).events query) := by
  simp only [Finding.events, hkind]
  split
  · exact .cons (.found none) .nil
  · split
    · exact moved_outcomes _ _
    · exact moved_scopeEvents .whole _

theorem Event.Moved.isFailed {e e' : Event} (h : e.Moved c c' e') : e.isFailed = e'.isFailed := by
  cases h <;> rfl

variable {loose packed : List Event}

theorem map_isFailed (h : List.Forall₂ (Event.Moved c c') loose packed) :
    loose.map (·.isFailed) = packed.map (·.isFailed) := by
  induction h with
  | nil => rfl
  | cons he _ ih => simp [he.isFailed, ih]

theorem map_matches (h : List.Forall₂ (Event.Moved c c') loose packed) (hkind : c.kind = c'.kind) :
    (loose.filterMap Report.match?).map (fun m => (m.candidate.kind, m.signature)) =
      (packed.filterMap Report.match?).map fun m => (m.candidate.kind, m.signature) := by
  induction h with
  | nil => rfl
  | cons he _ ih =>
    cases he with
    | found signature => simp [Report.match?, hkind, ih]
    | detail => simpa [Report.match?, List.filterMap_cons] using ih
    | failed => simpa [Report.match?, List.filterMap_cons] using ih

end Moved

/-- The entry with this header holds the class or source at `path`, in whichever directory of the
archive. -/
structure Archive.Holds (a : Archive) (header : Archive.Header) (t : FileTree) (path name : String) :
    Prop where
  fileName : Path.fileName? path = some name
  noBackslash : '\\' ∉ name.toList
  kind : Candidate.Kind.ofName name ≠ .container
  entryName : header.name = name ∨ ∃ front, header.name = front ++ "/" ++ name
  content : ∃ content entry,
    Searcher.readFile t (Path.absolute t.workingDirectory path) = .ok content ∧
      openEntry a header = .ok entry ∧ entry.read = .ok content

namespace Archive.Holds

variable {a : Archive} {header : Archive.Header} {t : FileTree} {path name : String}

theorem fileName_entry (h : a.Holds header t path name) :
    Path.fileName? header.name = some name := by
  rcases h.entryName with he | ⟨front, he⟩
  · rw [he]
    exact Path.fileName?_fileName? h.fileName
  · have hb : front.toList ++ ['/'] = [] ∨ ∃ ds, front.toList ++ ['/'] = ds ++ ['/'] := .inr ⟨_, rfl⟩
    have hsame : String.ofList (front.toList ++ ['/'] ++ name.toList) = header.name := by
      simp [he, ← String.toList_inj]
    rw [← hsame]
    exact Path.fileName?_append h.fileName hb

theorem kind_entry (h : a.Holds header t path name) :
    Candidate.Kind.ofName header.name = Candidate.Kind.ofName name := by
  simp only [Candidate.Kind.ofName, Candidate.smallExtension?,
    Path.extension?_eq_of_fileName? h.fileName_entry]

/-- The last character of a file name is no slash, so an entry that has it is no directory. -/
theorem isDirectory (h : a.Holds header t path name) : header.isDirectory = false := by
  obtain ⟨-, -, hs, hne, -⟩ := Path.of_fileName? h.fileName
  obtain ⟨before, hname⟩ : ∃ before, header.name.toList = before ++ name.toList := by
    rcases h.entryName with he | ⟨front, he⟩
    · exact ⟨[], by simp [he]⟩
    · exact ⟨front.toList ++ ['/'], by simp [he]⟩
  have hlast : header.name.toList.getLast? = some (name.toList.getLast hne) := by
    rw [hname, List.getLast?_append_of_ne_nil _ hne, List.getLast?_eq_some_getLast hne]
  have hmem := List.getLast_mem hne
  have hslash : name.toList.getLast hne ≠ '/' := fun he => hs (he ▸ hmem)
  have hback : name.toList.getLast hne ≠ '\\' := fun he => h.noBackslash (he ▸ hmem)
  simp [Header.isDirectory, hlast, hslash, hback]

end Archive.Holds

/-- A class or source gives the same answer alone and in an archive, in whichever directory there, if the
query asks for a simple name: event by event the same, but for the names and places told. -/
theorem moved_searchEntry {raw : String} {caseSensitive : Bool} {method : Option String} {query : Query}
    (hq : Query.new raw caseSensitive method = .ok query) (hu : query.qualified = false)
    (s s' : Searcher) (hs : s.query = query) (hs' : s'.query = query) {a : Archive}
    {header : Archive.Header} {path name : String} (h : a.Holds header s.tree path name)
    (locator : String) :
    ∃ loose packed,
      (s.searchFile path).events = s.events ++ loose ∧
      (Searcher.searchEntry a locator s' header).events = s'.events ++ packed ∧
      List.Forall₂ (Event.Moved ⟨name, Path.absolute s.tree.workingDirectory path, .ofName name⟩
        ⟨header.name, locator, .ofName name⟩) loose packed ∧
      (loose.filterMap Report.match?).map (fun m => (m.candidate.kind, m.signature)) =
        (packed.filterMap Report.match?).map (fun m => (m.candidate.kind, m.signature)) ∧
      loose.map (·.isFailed) = packed.map (·.isFailed) := by
  obtain ⟨content, entry, hfile, hopen, hread⟩ := h.content
  obtain ⟨-, -, hslash, -⟩ := Path.of_fileName? h.fileName
  obtain ⟨before, habsolute⟩ := Path.toList_absolute s.tree.workingDirectory h.fileName
  have ht := Candidate.slash_not_mem_target hq hu
  have hloose := Candidate.isMatch_iff_isNamed hu ht hslash h.noBackslash habsolute
  have hpacked := Candidate.isMatch_entry_iff_isNamed hu ht hslash h.noBackslash h.entryName
  have hmoved : List.Forall₂ (Event.Moved ⟨name, Path.absolute s.tree.workingDirectory path, .ofName name⟩
      ⟨header.name, locator, .ofName name⟩) (s.tree.events query path)
      ((a.findings query locator header).flatMap (·.events query)) := by
    rw [FileTree.events_eq, FileTree.findings_of_kind rfl h.fileName h.kind,
      Archive.findings_of_openEntry hopen h.isDirectory, h.kind_entry, hfile, hread]
    by_cases hn : Candidate.IsNamed query name
    · simp only [hloose.mpr hn, hpacked.mpr hn, if_true, List.flatMap_singleton]
      have hkind : (Candidate.mk name (Path.absolute s.tree.workingDirectory path) (.ofName name)).kind =
          (Candidate.mk header.name locator (.ofName name)).kind := rfl
      exact moved_finding hkind query (.ok content)
    · simp only [mt hloose.mp hn, mt hpacked.mp hn, Bool.false_eq_true, if_false, List.flatMap_nil]
      exact .nil
  refine ⟨_, _, ?_, ?_, hmoved, map_matches hmoved rfl, map_isFailed hmoved⟩
  · rw [s.searchFile_eq, s.events_after, hs]
    rfl
  · rw [s'.searchEntry_eq, s'.events_after, hs', List.filterMap_flatMap]
    simp only [Finding.filterMap_activities]

/-- A class file that is cut short, searched for its methods. -/
theorem moved_searchEntry_broken :
    let query : Query := ⟨"A", "a", false, false, some "run"⟩
    let tree : FileTree := ⟨.directory [("d", .directory [("A.class", .file ⟨#[0]⟩)])], "/"⟩
    let s : Searcher := { query, tree }
    let header : Archive.Header := ⟨"p/A.class", 0, 0, 0xD202EF8D, 1, 1, 0⟩
    let a : Archive := ⟨Archive.ofByte 0, [header]⟩
    let packed : List Event :=
      [.verbose "Error reading p/A.class from /x.jar: class file truncated at offset 0",
        .failed "/x.jar" "p/A.class: class file truncated at offset 0"]
    Query.new "A" false (some "run") = .ok query ∧ query.qualified = false ∧
      a.Holds header tree "/d/A.class" "A.class" ∧
      (Searcher.searchEntry a "/x.jar" s header).events = packed ∧
      ∃ loose, (s.searchFile "/d/A.class").events = loose ∧
        List.Forall₂ (Event.Moved ⟨"A.class", "/d/A.class", .compiled⟩
          ⟨"p/A.class", "/x.jar", .compiled⟩) loose packed := by
  intro query tree s header a packed
  have hq : Query.new "A" false (some "run") = .ok query := by decide +kernel
  have hkind : Candidate.Kind.ofName "A.class" = .compiled := by decide +kernel
  have hread : (Archive.openEntry a header).toOption.map (·.read) = some (.ok ⟨#[0]⟩) := by
    decide +kernel
  have hentry : ∃ entry, Archive.openEntry a header = .ok entry ∧ entry.read = .ok ⟨#[0]⟩ := by
    cases ho : Archive.openEntry a header with
    | error fault => simp [ho, Except.toOption] at hread
    | ok entry => exact ⟨entry, rfl, by simpa [ho, Except.toOption] using hread⟩
  obtain ⟨entry, hopen, hread⟩ := hentry
  have hholds : a.Holds header tree "/d/A.class" "A.class" := {
    fileName := by decide +kernel
    noBackslash := by decide
    kind := by simp [hkind]
    entryName := .inr ⟨"p", by decide⟩
    content := ⟨⟨#[0]⟩, entry, by decide +kernel, hopen, hread⟩ }
  have hpacked : (Searcher.searchEntry a "/x.jar" s header).events = packed := by decide +kernel
  obtain ⟨loose, packed', hl, hp, hmoved, -⟩ :=
    moved_searchEntry hq rfl s s rfl rfl hholds "/x.jar"
  have hstart : s.events = [] := rfl
  have hplace : Path.absolute s.tree.workingDirectory "/d/A.class" = "/d/A.class" := by decide +kernel
  rw [hstart, List.nil_append] at hl hp
  rw [← hp, hpacked, hkind, hplace] at hmoved
  exact ⟨hq, rfl, hholds, hpacked, loose, hl, hmoved⟩

end ClassLocator

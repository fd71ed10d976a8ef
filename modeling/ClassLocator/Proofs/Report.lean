import ClassLocator.Proofs.Java.Line
import ClassLocator.Proofs.Search.Matches
import ClassLocator.Proofs.Text.Json
import ClassLocator.Proofs.Text.Lines
import ClassLocator.Report
import Mathlib.Data.List.Forall2
/-!
The output of a search, read back. Main statements: as JSON each match is one line, an object from which the
match is read back; in columns a match whose signature holds neither a line feed nor a tab is read back from
one line if and only if its name and its place hold neither.
-/

namespace ClassLocator

def Candidate.Kind.named? (name : String) : Option Kind :=
  [compiled, source, container].find? (·.name == name)

def Text.IsPrintable (line : String) : Prop := ∀ c ∈ line.toList, 0x20 ≤ c.toNat

namespace Report

theorem output_eq (format : Format) (events : List Event) :
    output format events = Text.unlines ((events.filterMap match?).map (line format)) := by
  rw [output, Text.unlines, List.map_map]
  rfl

/-- The members of an object tell a match: its fields under keys of their own, with a signature exactly if
the match has one. -/
structure IsObjectOf (members : List (String × String)) (m : Match) : Prop where
  distinct : (members.map (·.1)).Nodup
  displayName : members.lookup "display_name" = some m.candidate.displayName
  locator : members.lookup "locator_path" = some m.candidate.locator
  kind : (members.lookup "kind").bind Candidate.Kind.named? = some m.candidate.kind
  signature : members.lookup "signature" = m.signature

/-- A line of printable characters that is an object of strings and tells a match. -/
def IsLineOf (line : String) (m : Match) : Prop :=
  Text.IsPrintable line ∧ ∃ members, Text.Json.object? line = some members ∧ IsObjectOf members m

theorem named?_name (kind : Candidate.Kind) : Candidate.Kind.named? kind.name = some kind := by
  cases kind <;> decide

theorem isObjectOf_fields (m : Match) : IsObjectOf (fields m) m := by
  obtain ⟨⟨displayName, locator, kind⟩, signature⟩ := m
  have hkind := named?_name kind
  cases signature with
  | none => exact ⟨by simp [fields], rfl, rfl, hkind, rfl⟩
  | some line => exact ⟨by simp [fields], rfl, rfl, hkind, rfl⟩

theorem IsObjectOf.unique {members : List (String × String)} {m m' : Match} (h : IsObjectOf members m)
    (h' : IsObjectOf members m') : m = m' := by
  obtain ⟨⟨displayName, locator, kind⟩, signature⟩ := m
  obtain ⟨⟨displayName', locator', kind'⟩, signature'⟩ := m'
  obtain rfl := Option.some.inj (h.displayName.symm.trans h'.displayName)
  obtain rfl := Option.some.inj (h.locator.symm.trans h'.locator)
  obtain rfl := Option.some.inj (h.kind.symm.trans h'.kind)
  obtain rfl := h.signature.symm.trans h'.signature
  rfl

theorem IsLineOf.unique {line : String} {m m' : Match} (h : IsLineOf line m) (h' : IsLineOf line m') :
    m = m' := by
  obtain ⟨-, members, ho, hm⟩ := h
  obtain ⟨-, members', ho', hm'⟩ := h'
  obtain rfl := Option.some.inj (ho.symm.trans ho')
  exact hm.unique hm'

theorem isPrintable_jsonLine (m : Match) : Text.IsPrintable (jsonLine m) := by
  have hobject : jsonLine m = Text.Json.encodeObject (fields m) := rfl
  intro c hc
  rw [hobject] at hc
  exact Text.Json.printable_encodeObject hc

theorem isLineOf_jsonLine (m : Match) : IsLineOf (jsonLine m) m :=
  ⟨isPrintable_jsonLine m, fields m, Text.Json.object?_encodeObject (by simp [fields]),
    isObjectOf_fields m⟩

theorem exists_jsonLines (events : List Event) :
    ∃ lines, Text.lines? (output .json events) = some lines ∧
      List.Forall₂ IsLineOf lines (events.filterMap match?) := by
  refine ⟨(events.filterMap match?).map jsonLine, ?_, ?_⟩
  · rw [output_eq, Text.lines?_unlines, Text.flatMap_stretches]
    · rfl
    · intro text ht hfeed
      obtain ⟨m, -, rfl⟩ := List.mem_map.mp ht
      have hprintable := isPrintable_jsonLine m '\n' hfeed
      exact absurd hprintable (by decide)
  · rw [List.forall₂_map_left_iff, List.forall₂_same]
    exact fun m _ => isLineOf_jsonLine m

/-- The output has one line for each match, in order: a line of printable characters that is an object with
the name, the place and the kind of the match, and with its signature if it has one. The outputs of two
lists of events are equal if and only if their matches are. -/
theorem output_json (events : List Event) :
    (∃ lines, Text.lines? (output .json events) = some lines ∧
      List.Forall₂ IsLineOf lines (events.filterMap match?)) ∧
    ∀ events', output .json events = output .json events' ↔
      events.filterMap match? = events'.filterMap match? := by
  refine ⟨exists_jsonLines events, fun events' => ⟨fun h => ?_, fun h => ?_⟩⟩
  · obtain ⟨lines, hl, hm⟩ := exists_jsonLines events
    obtain ⟨lines', hl', hm'⟩ := exists_jsonLines events'
    rw [h] at hl
    obtain rfl := Option.some.inj (hl.symm.trans hl')
    have hunique : Relator.RightUnique IsLineOf := fun _ _ _ => IsLineOf.unique
    exact List.right_unique_forall₂' hunique hm hm'
  · rw [output, output, h]

/-- What stands between the tabs of a line. -/
def columns (m : Match) : List String := m.candidate.displayName :: m.candidate.locator :: m.signature.toList

def Lacks (m : Match) (c : Char) : Prop := ∀ column ∈ columns m, c ∉ column.toList

/-- The signature of a match, if it has one, holds neither a line feed nor a tab. -/
def HasPlainSignature (m : Match) : Prop :=
  ∀ signature ∈ m.signature, '\n' ∉ signature.toList ∧ '\t' ∉ signature.toList

/-- Neither the name nor the place of a match holds a character. -/
def NamesLack (m : Match) (c : Char) : Prop :=
  c ∉ m.candidate.displayName.toList ∧ c ∉ m.candidate.locator.toList

instance (m : Match) (c : Char) : Decidable (NamesLack m c) := instDecidableAnd

/-- The lines that a match is written on: those of its row. They are one line if and only if the name and the
place of the match hold no line feed, and one line that is cut into the columns if and only if they hold no
tab either. -/
structure IsBlockOf (block : List String) (m : Match) : Prop where
  eq_stretches : block = Text.stretches '\n' ("\t".intercalate (columns m))
  length_iff : block.length = 1 ↔ NamesLack m '\n'
  cells_row_iff : Text.cells ("\t".intercalate (columns m)) = columns m ↔ NamesLack m '\t'
  cells_iff : block.map Text.cells = [columns m] ↔ NamesLack m '\n' ∧ NamesLack m '\t'

theorem columns_ne_nil (m : Match) : columns m ≠ [] := List.cons_ne_nil _ _

theorem textLine_eq (m : Match) : textLine m = (String.singleton '\t').intercalate (columns m) := by
  obtain ⟨c, signature⟩ := m
  cases signature with
  | none => simp [textLine, columns]
  | some line => simp [textLine, columns, String.append_assoc]

theorem cells_textLine_iff (m : Match) : Text.cells (textLine m) = columns m ↔ Lacks m '\t' := by
  rw [textLine_eq, Text.cells, Text.stretches_intercalate_eq_iff (columns_ne_nil m)]
  rfl

theorem feed_not_mem_textLine_iff (m : Match) : '\n' ∉ (textLine m).toList ↔ Lacks m '\n' := by
  rw [textLine_eq, Text.mem_intercalate_iff (by decide)]
  simp [Lacks]

theorem lines?_output_text (events : List Event) :
    Text.lines? (output .text events) =
      some ((events.filterMap match?).flatMap fun m => Text.stretches '\n' (textLine m)) := by
  rw [output_eq, Text.lines?_unlines, List.flatMap_map]
  rfl

theorem length_lines_iff (ms : List Match) :
    (ms.flatMap fun m => Text.stretches '\n' (textLine m)).length = ms.length ↔
      ∀ m ∈ ms, Lacks m '\n' := by
  have hrows : ms.flatMap (fun m => Text.stretches '\n' (textLine m)) =
      (ms.map textLine).flatMap (Text.stretches '\n') := by rw [List.flatMap_map]
  have hlength : ms.length = (ms.map textLine).length := (List.length_map textLine).symm
  rw [hrows, hlength, Text.length_flatMap_stretches_iff]
  simp [feed_not_mem_textLine_iff]

/-- A table of cells is the columns only if it has as many lines as there are matches. -/
theorem cells_lines_iff (ms : List Match) :
    (ms.flatMap fun m => Text.stretches '\n' (textLine m)).map Text.cells = ms.map columns ↔
      ∀ m ∈ ms, Lacks m '\n' ∧ Lacks m '\t' := by
  have hrows : (∀ m ∈ ms, Lacks m '\n') →
      ms.flatMap (fun m => Text.stretches '\n' (textLine m)) = ms.map textLine := by
    intro h
    rw [List.map_eq_flatMap]
    refine List.flatMap_congr fun m hm => ?_
    exact Text.stretches_of_not_mem ((feed_not_mem_textLine_iff m).mpr (h m hm))
  constructor
  · intro h
    have hfeed : ∀ m ∈ ms, Lacks m '\n' := by
      rw [← length_lines_iff]
      simpa using congrArg List.length h
    rw [hrows hfeed, List.map_map] at h
    intro m hm
    exact ⟨hfeed m hm, (cells_textLine_iff m).mp (List.map_inj_left.mp h m hm)⟩
  · intro h
    rw [hrows fun m hm => (h m hm).1, List.map_map]
    exact List.map_inj_left.mpr fun m hm => (cells_textLine_iff m).mpr (h m hm).2

theorem countP_isFound (events : List Event) :
    events.countP (·.isFound) = (events.filterMap match?).length := by
  have hfound : Event.isFound = fun e => (match? e).isSome := by
    funext e
    cases e <;> rfl
  rw [List.length_filterMap_eq_countP, ← hfound]

theorem HasPlainSignature.lacks_iff {m : Match} (h : HasPlainSignature m) {c : Char}
    (hc : c = '\n' ∨ c = '\t') : Lacks m c ↔ NamesLack m c := by
  simp only [Lacks, columns, List.forall_mem_cons, Option.mem_toList, NamesLack]
  refine and_congr_right fun _ => and_iff_left fun signature hs => ?_
  obtain ⟨hfeed, htab⟩ := h signature hs
  rcases hc with rfl | rfl
  · exact hfeed
  · exact htab

theorem HasPlainSignature.isBlockOf {m : Match} (h : HasPlainSignature m) :
    IsBlockOf (Text.stretches '\n' (textLine m)) m where
  eq_stretches := by
    rw [textLine_eq]
    rfl
  length_iff := by
    rw [← h.lacks_iff (.inl rfl)]
    simpa using length_lines_iff [m]
  cells_row_iff := by
    rw [← h.lacks_iff (.inr rfl), ← cells_textLine_iff, textLine_eq]
    rfl
  cells_iff := by
    rw [← h.lacks_iff (.inl rfl), ← h.lacks_iff (.inr rfl)]
    simpa using cells_lines_iff [m]

theorem hasPlainSignature_render {c : Candidate} {d : Declaration} (h : d.IsTidy) :
    HasPlainSignature ⟨c, some d.render⟩ := by
  intro signature hs
  obtain rfl : d.render = signature := Option.some.inj hs
  obtain ⟨-, -, htidy⟩ := h.render
  have hfeed : Text.isBlank '\n' := by decide
  have htab : Text.isBlank '\t' := by decide
  exact ⟨fun hmem => absurd (htidy.eq_space _ hmem hfeed) (by decide),
    fun hmem => absurd (htidy.eq_space _ hmem htab) (by decide)⟩

theorem hasPlainSignature_of_mem_results {query : Query} {c : Candidate}
    {content : Except Failure ByteArray} {m : Match} (hm : m ∈ c.results query content)
    (h : query.methodFilter = none ∨ m.candidate.kind = .source) : HasPlainSignature m := by
  unfold Candidate.results at hm
  cases hfilter : query.methodFilter with
  | none =>
    rw [hfilter] at hm
    obtain rfl := List.mem_singleton.mp hm
    intro signature hs
    cases hs
  | some filter =>
    rw [hfilter] at h hm
    cases content with
    | error e => cases hm
    | ok bytes =>
      obtain ⟨d, hd, rfl⟩ := List.mem_map.mp hm
      have hsource : c.kind = .source := h.resolve_left nofun
      simp only [Candidate.Kind.declarations, hsource] at hd
      cases hfound : Java.declarations (Text.Utf8.decodeLossy bytes) filter with
      | error e =>
        rw [hfound] at hd
        cases hd
      | ok ds =>
        rw [hfound] at hd
        exact hasPlainSignature_render (Java.isTidy_of_declarations hfound d hd)

/-- The output of a search in columns has a block of lines for each match that is counted, in order. If the
signature of a match holds neither a line feed nor a tab, `IsBlockOf` tells its lines; that is so without a
method filter and for each match in a Java source. If it is so for all matches, there are as many lines as
matches if and only if no name and no place holds a line feed, and the lines are cut into the columns of the
matches if and only if none of them holds a tab either. -/
theorem output_text (query : Query) (tree : FileTree) (directories : List String) (recursive : Bool) :
    let s := search query tree directories recursive
    let ms := s.events.filterMap match?
    s.summary.matched = ms.length ∧
    (∀ m ∈ ms, query.methodFilter = none ∨ m.candidate.kind = .source → HasPlainSignature m) ∧
    ∃ blocks : List (List String), Text.lines? (output .text s.events) = some blocks.flatten ∧
      List.Forall₂ (fun block m => HasPlainSignature m → IsBlockOf block m) blocks ms ∧
      ((∀ m ∈ ms, HasPlainSignature m) →
        (blocks.flatten.length = s.summary.matched ↔ ∀ m ∈ ms, NamesLack m '\n') ∧
        (blocks.flatten.map Text.cells = ms.map columns ↔
          ∀ m ∈ ms, NamesLack m '\n' ∧ NamesLack m '\t')) := by
  intro s ms
  have hcount : s.summary.matched = ms.length := by
    have hs := congrArg Summary.matched (summary_search query tree directories recursive)
    exact hs.trans (countP_isFound s.events)
  have hflatten : (ms.map fun m => Text.stretches '\n' (textLine m)).flatten =
      ms.flatMap fun m => Text.stretches '\n' (textLine m) := List.flatMap_def.symm
  refine ⟨hcount, fun m hm h => ?_, ms.map fun m => Text.stretches '\n' (textLine m), ?_, ?_, fun h => ?_⟩
  · obtain ⟨c, content, hm⟩ := Searcher.exists_of_mem_found hm
    exact hasPlainSignature_of_mem_results hm h
  · rw [hflatten, lines?_output_text]
  · rw [List.forall₂_map_left_iff, List.forall₂_same]
    exact fun m _ => HasPlainSignature.isBlockOf
  · rw [hflatten, hcount, length_lines_iff, cells_lines_iff]
    constructor
    · exact forall₂_congr fun m hm => (h m hm).lacks_iff (.inl rfl)
    · refine forall₂_congr fun m hm => ?_
      exact and_congr ((h m hm).lacks_iff (.inl rfl)) ((h m hm).lacks_iff (.inr rfl))

/-- A method of a source that is found behind a directory whose name has a blank. -/
theorem output_text_plain :
    let query : Query := ⟨"A", "A", false, true, some "f"⟩
    let source := "class A \x7b\n\tvoid f(\n\t\tint x) \x7b\x7d \x7d".toUTF8
    let tree : FileTree := ⟨.directory [("a b", .directory [("A.java", .file source)])], "/"⟩
    let s := search query tree ["/"] true
    let m : Match := ⟨⟨"A.java", "/a b/A.java", .source⟩, some "void f(int x);"⟩
    s.events.filterMap match? = [m] ∧ HasPlainSignature m ∧ NamesLack m '\n' ∧ NamesLack m '\t' ∧
      (Text.lines? (output .text s.events)).map (·.map Text.cells) =
        some [["A.java", "/a b/A.java", "void f(int x);"]] := by
  intro query source tree s m
  have hm : s.events.filterMap match? = [m] := by decide +kernel
  have hfeed : NamesLack m '\n' := by decide +kernel
  have htab : NamesLack m '\t' := by decide +kernel
  obtain ⟨-, hsource, blocks, hl, -, hread⟩ := output_text query tree ["/"] true
  simp only [s] at hm
  rw [hm] at hsource hread
  have hplain : HasPlainSignature m := hsource m (List.mem_singleton_self m) (.inr rfl)
  have hcells := (hread (List.forall_mem_singleton.mpr hplain)).2.mpr
    (List.forall_mem_singleton.mpr ⟨hfeed, htab⟩)
  refine ⟨hm, hplain, hfeed, htab, ?_⟩
  rw [hl, Option.map_some, hcells]
  rfl

/-- An archive of one empty entry with a line feed and a tab in its name. -/
def archiveOfParts : ByteArray := ⟨#[
  80, 75, 3, 4, 20, 0, 0, 0, 0, 0, 0, 0, 33, 0, 0, 0, 0, 0, 0, 0, 0, 0, 0, 0, 0, 0, 13, 0, 0, 0,
  112, 10, 113, 9, 114, 47, 65, 46, 99, 108, 97, 115, 115,
  80, 75, 1, 2, 20, 0, 20, 0, 0, 0, 0, 0, 0, 0, 33, 0, 0, 0, 0, 0, 0, 0, 0, 0, 0, 0, 0, 0, 13, 0, 0,
  0, 0, 0, 0, 0, 0, 0, 0, 0, 0, 0, 0, 0, 0, 0, 112, 10, 113, 9, 114, 47, 65, 46, 99, 108, 97, 115, 115,
  80, 75, 5, 6, 0, 0, 0, 0, 1, 0, 1, 0, 59, 0, 0, 0, 43, 0, 0, 0, 0, 0]⟩

/-- One match makes two lines, and its columns are cut apart. -/
theorem output_text_torn :
    let tree : FileTree := ⟨.directory [("x.jar", .file archiveOfParts)], "/"⟩
    let s := search ⟨"A", "A", false, true, none⟩ tree ["/"] false
    let m : Match := ⟨⟨"p\nq\tr/A.class", "/x.jar", .compiled⟩, none⟩
    s.events.filterMap match? = [m] ∧ s.summary.matched = 1 ∧
      (Text.lines? (output .text s.events)).map (·.map Text.cells) =
        some [["p"], ["q", "r/A.class", "/x.jar"]] ∧
      (Text.lines? (output .text s.events)).map (·.map Text.cells) ≠ some [columns m] := by
  decide +kernel

end Report

end ClassLocator

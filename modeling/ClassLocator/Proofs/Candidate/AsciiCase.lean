import ClassLocator.Proofs.Candidate
import ClassLocator.Proofs.Text.AsciiCase

namespace ClassLocator

open Text (lowerAscii lowerAsciiOnly)

namespace Query

variable {raw raw' s t : String} {method method' : Option String} {query query' : Query}

theorem unclosed_map (cs : List Char) : unclosed (cs.map lowerAscii) = (unclosed cs).map lowerAscii := by
  have hkept : ((· == ';') ∘ lowerAscii) = (· == ';') :=
    funext fun c => Text.apply_lowerAscii (· == ';') (by decide) c
  simp only [unclosed, List.rdropWhile, ← List.map_reverse, List.dropWhile_map, hkept]

theorem not_isBlank_lowerAsciiOnly (h : ∀ c ∈ raw.toList, ¬Text.isBlank c) :
    ∀ c ∈ (lowerAsciiOnly raw).toList, ¬Text.isBlank c := by
  rw [Text.toList_lowerAsciiOnly]
  intro c hc
  obtain ⟨d, hd, rfl⟩ := List.mem_map.mp hc
  rw [Text.isBlank_lowerAscii]
  exact h d hd

/-- The word for an import ends in a blank, so without one its case does not matter either. -/
theorem normalize_lowerAsciiOnly (h : ∀ c ∈ raw.toList, ¬Text.isBlank c) :
    normalize (lowerAsciiOnly raw) = lowerAsciiOnly (normalize raw) := by
  rw [← String.toList_inj, toList_normalize_of_not_isBlank (not_isBlank_lowerAsciiOnly h),
    Text.toList_lowerAsciiOnly, Text.toList_lowerAsciiOnly, toList_normalize_of_not_isBlank h,
    unclosed_map]

theorem asPath_lowerAsciiOnly (s : String) : asPath (lowerAsciiOnly s) = lowerAsciiOnly (asPath s) :=
  (Text.lowerAsciiOnly_replace (by decide) (by decide) (by decide) s).symm

theorem any_isSeparator_lowerAsciiOnly (s : String) :
    (lowerAsciiOnly s).toList.any isSeparator = s.toList.any isSeparator := by
  have hkept : (isSeparator ∘ lowerAscii) = isSeparator :=
    funext fun c => Text.apply_lowerAscii isSeparator (by decide) c
  rw [Text.toList_lowerAsciiOnly, List.any_map, hkept]

theorem lowerAsciiOnly_eq_empty_iff : lowerAsciiOnly s = "" ↔ s = "" := by
  rw [← String.toList_eq_nil_iff, Text.toList_lowerAsciiOnly, List.map_eq_nil_iff,
    String.toList_eq_nil_iff]

theorem eq_of_className_alike (hq : Query.new raw false method = .ok query)
    (hq' : Query.new raw' false method' = .ok query')
    (h : lowerAsciiOnly query.className = lowerAsciiOnly query'.className) :
    query.target = query'.target ∧ query.qualified = query'.qualified := by
  constructor
  · have hpath : lowerAsciiOnly (asPath query.className) = lowerAsciiOnly (asPath query'.className) := by
      rw [← asPath_lowerAsciiOnly, h, asPath_lowerAsciiOnly]
    have hsmall := congrArg String.toList (Text.lower_eq_of_lowerAsciiOnly_eq hpath)
    rw [← String.toList_inj, toList_target hq, toList_target hq']
    simpa [Text.lower] using hsmall
  · rw [qualified_of_new hq, qualified_of_new hq', ← any_isSeparator_lowerAsciiOnly, h,
      any_isSeparator_lowerAsciiOnly]

end Query

namespace Candidate

variable {name name' path path' raw raw' : String}

theorem comparable_lowerAsciiOnly (name : String) :
    comparable false (lowerAsciiOnly name) = comparable false name := by
  have hslashed := Text.lowerAsciiOnly_replace (a := '\\') (b := '/') (by decide) (by decide) (by decide) name
  simp only [comparable, Bool.false_eq_true, if_false, ← hslashed, Text.lower_lowerAsciiOnly]

theorem smallExtension?_lowerAsciiOnly (name : String) :
    smallExtension? (lowerAsciiOnly name) = smallExtension? name := by
  have hslash : ∀ c, lowerAscii c = '/' ↔ c = '/' := fun c =>
    Text.lowerAscii_eq_iff (by decide) (by decide)
  have hdot : ∀ c, lowerAscii c = '.' ↔ c = '.' := fun c =>
    Text.lowerAscii_eq_iff (by decide) (by decide)
  have hsame : (lowerAsciiOnly ∘ String.map lowerAscii) = lowerAsciiOnly :=
    funext Text.lowerAsciiOnly_lowerAsciiOnly
  have hext : Path.extension? (lowerAsciiOnly name) = (Path.extension? name).map (String.map lowerAscii) :=
    Path.extension?_map hslash hdot name
  rw [smallExtension?, smallExtension?, hext, Option.map_map, hsame]

/-- Without regard to case, class names without blanks that differ only in the case of ASCII letters are
both accepted or both refused. Their queries have the same target, and give the same answer for names and
paths that differ only so. Such names also have the same kind, and both or neither are searchable. -/
theorem isMatch_asciiCase (hraw : lowerAsciiOnly raw = lowerAsciiOnly raw')
    (hname : lowerAsciiOnly name = lowerAsciiOnly name')
    (hpath : lowerAsciiOnly path = lowerAsciiOnly path') (hsolid : ∀ c ∈ raw.toList, ¬Text.isBlank c)
    (method method' : Option String) :
    ((∃ query, Query.new raw false method = .ok query) ↔
      ∃ query', Query.new raw' false method' = .ok query') ∧
    (∀ query query', Query.new raw false method = .ok query → Query.new raw' false method' = .ok query' →
      query.target = query'.target ∧ query.qualified = query'.qualified ∧
      isMatch query name path = isMatch query' name' path') ∧
    Kind.ofName name = Kind.ofName name' ∧ isSearchable name = isSearchable name' := by
  have hsolid' : ∀ c ∈ raw'.toList, ¬Text.isBlank c := by
    have hsmall := Query.not_isBlank_lowerAsciiOnly hsolid
    rw [hraw, Text.toList_lowerAsciiOnly] at hsmall
    intro c hc
    rw [← Text.isBlank_lowerAscii]
    exact hsmall _ (List.mem_map_of_mem hc)
  have hnames : lowerAsciiOnly (Query.normalize raw) = lowerAsciiOnly (Query.normalize raw') := by
    rw [← Query.normalize_lowerAsciiOnly hsolid, hraw, Query.normalize_lowerAsciiOnly hsolid']
  have hempty : Query.normalize raw = "" ↔ Query.normalize raw' = "" := by
    rw [← Query.lowerAsciiOnly_eq_empty_iff, hnames, Query.lowerAsciiOnly_eq_empty_iff]
  have hext : smallExtension? name = smallExtension? name' := by
    rw [← smallExtension?_lowerAsciiOnly, hname, smallExtension?_lowerAsciiOnly]
  have hcomparable : ∀ {s t : String}, lowerAsciiOnly s = lowerAsciiOnly t →
      comparable false s = comparable false t := by
    intro s t h
    rw [← comparable_lowerAsciiOnly, h, comparable_lowerAsciiOnly]
  refine ⟨?_, fun query query' hq hq' => ?_, ?_, ?_⟩
  · rw [Query.exists_new_iff, Query.exists_new_iff]
    exact not_congr hempty
  · have hcase := Query.caseSensitive_of_new hq
    have hcase' := Query.caseSensitive_of_new hq'
    have hclass : lowerAsciiOnly query.className = lowerAsciiOnly query'.className := by
      rw [Query.className_of_new hq, hnames, Query.className_of_new hq']
    obtain ⟨ht, hu⟩ := Query.eq_of_className_alike hq hq' hclass
    refine ⟨ht, hu, ?_⟩
    simp only [isMatch, ht, hu, hcase, hcase', hcomparable hname, hcomparable hpath]
  · simp only [Kind.ofName, hext]
  · simp only [isSearchable, hext]

/-- A sigma behind a letter in either case, and a semicolon. -/
theorem isMatch_asciiCase_sigma :
    let query : Query := ⟨"aΣ.B", "aς/b", true, false, none⟩
    let query' : Query := ⟨"AΣ.b", "aς/b", true, false, none⟩
    lowerAsciiOnly "aΣ.B;" = lowerAsciiOnly "AΣ.b;" ∧
      lowerAsciiOnly "B.Class" = lowerAsciiOnly "b.CLASS" ∧
      lowerAsciiOnly "/x\\aΣ/B.Class" = lowerAsciiOnly "/X\\AΣ/b.CLASS" ∧
      (∀ c ∈ "aΣ.B;".toList, ¬Text.isBlank c) ∧
      Query.new "aΣ.B;" false none = .ok query ∧ Query.new "AΣ.b;" false none = .ok query' ∧
      isMatch query "B.Class" "/x\\aΣ/B.Class" ∧ isMatch query' "b.CLASS" "/X\\AΣ/b.CLASS" ∧
      Kind.ofName "b.CLASS" = .compiled := by
  intro query query'
  have hraw : lowerAsciiOnly "aΣ.B;" = lowerAsciiOnly "AΣ.b;" :=
    Text.lowerAsciiOnly_eq_iff.mpr (by decide)
  have hname : lowerAsciiOnly "B.Class" = lowerAsciiOnly "b.CLASS" :=
    Text.lowerAsciiOnly_eq_iff.mpr (by decide)
  have hpath : lowerAsciiOnly "/x\\aΣ/B.Class" = lowerAsciiOnly "/X\\AΣ/b.CLASS" :=
    Text.lowerAsciiOnly_eq_iff.mpr (by decide)
  have hsolid : ∀ c ∈ "aΣ.B;".toList, ¬Text.isBlank c :=
    Text.forall_not_isBlank_iff.mpr (by decide)
  have hq : Query.new "aΣ.B;" false none = .ok query := by decide +kernel
  have hq' : Query.new "AΣ.b;" false none = .ok query' := by decide +kernel
  have hm : isMatch query "B.Class" "/x\\aΣ/B.Class" := by decide +kernel
  have hkind : Kind.ofName "B.Class" = .compiled := by decide +kernel
  obtain ⟨-, hsame, hk, -⟩ := isMatch_asciiCase hraw hname hpath hsolid none none
  obtain ⟨-, -, hboth⟩ := hsame query query' hq hq'
  exact ⟨hraw, hname, hpath, hsolid, hq, hq', hm, hboth.symm.trans hm, hk.symm.trans hkind⟩

end Candidate

end ClassLocator

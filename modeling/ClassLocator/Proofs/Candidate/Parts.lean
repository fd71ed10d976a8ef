import ClassLocator.Proofs.Candidate
import ClassLocator.Proofs.Text.Parts
/-!
Which parts of a path decide whether a query finds it. Main statements: for a simple name the last part
decides alone; for a name with packages the path has to end in it, where only in front of its first part
other characters may stand; and a query finds whatever it finds with more packages in front.
-/

namespace ClassLocator.Candidate

variable {query : Query} {name path : String}

theorem toList_comparable_append (b : Bool) {path : String} {before : List Char}
    (hp : path.toList = before ++ '/' :: name.toList) :
    ∃ front, (comparable b path).toList = front ++ '/' :: (comparable b name).toList := by
  obtain ⟨front, hsep⟩ : ∃ front, slashed path = front ++ '/' :: slashed name :=
    ⟨before.map fun c => if c = '\\' then '/' else c, by simp [slashed, hp]⟩
  cases b with
  | true => exact ⟨front, by rw [toList_comparable_true, toList_comparable_true, hsep]⟩
  | false =>
    refine ⟨Text.lowerBetween [] front ('/' :: slashed name), ?_⟩
    rw [toList_comparable_false, toList_comparable_false, hsep, Text.lowerAfter_append_slash]

variable {raw : String} {caseSensitive : Bool} {method : Option String}

theorem slash_not_mem_target (hq : Query.new raw caseSensitive method = .ok query)
    (hu : query.qualified = false) : '/' ∉ query.target.toList := by
  have hpath : '/' ∉ (Query.asPath query.className).toList := by
    rw [Query.qualified_of_new hq] at hu
    intro h
    rw [Query.asPath, String.toList_map] at h
    obtain ⟨c, hc, he⟩ := List.mem_map.mp h
    have hsep := List.any_eq_false.mp hu c hc
    split at he
    · rename_i hdot
      simp [Query.isSeparator, hdot] at hsep
    · simp [Query.isSeparator, he] at hsep
  rw [Query.toList_target hq]
  cases caseSensitive with
  | true => exact hpath
  | false => exact fun h => hpath (Text.slash_mem_of_mem_lowerAfter h)

theorem slash_not_mem_fileName (ht : '/' ∉ query.target.toList) {ext : String}
    (hext : ext ∈ classExtensions) : '/' ∉ query.target.toList ++ '.' :: ext.toList := by
  have hslash : ∀ ext ∈ classExtensions, '/' ∉ ext.toList := by decide
  simp [ht, hslash ext hext]

theorem qualified_iff (hq : Query.new raw caseSensitive method = .ok query) :
    query.qualified ↔ '.' ∈ query.className.toList ∨ '/' ∈ query.className.toList := by
  rw [Query.qualified_of_new hq]
  simp only [List.any_eq_true, Query.isSeparator, Bool.or_eq_true, beq_iff_eq]
  constructor
  · rintro ⟨c, hc, rfl | rfl⟩
    · exact .inl hc
    · exact .inr hc
  · rintro (h | h)
    · exact ⟨_, h, .inl rfl⟩
    · exact ⟨_, h, .inr rfl⟩

theorem fileName_inj {s t : List Char} {ext ext' : String} (hext : ext ∈ classExtensions)
    (hext' : ext' ∈ classExtensions) (h : s ++ '.' :: ext.toList = t ++ '.' :: ext'.toList) : s = t := by
  have ht : t ++ '.' :: ext'.toList <:+ s ++ '.' :: ext.toList := ⟨[], h.symm⟩
  obtain rfl := extension_inj hext hext' (List.suffix_refl _) ht
  exact List.append_cancel_right h

/-- The name of a candidate: of an entry the whole path, of a file the last part of it. -/
def Names (name path : String) : Prop := name = path ∨ name.toList = lastPart '/' path.toList

theorem Names.eq_or_append (h : Names name path) :
    name = path ∨ ∃ before, path.toList = before ++ '/' :: name.toList := by
  rcases h with h | h
  · exact .inl h
  · have hs := Text.not_mem_lastPart '/' path.toList
    rw [← h] at hs
    rcases (Text.lastPart_eq_iff hs).mp h.symm with hwhole | ⟨before, hpath⟩
    · exact .inl (String.toList_inj.mp hwhole.symm)
    · exact .inr ⟨before, hpath.symm⟩

theorem Names.lastPart_comparable (h : Names name path) (b : Bool) :
    lastPart '/' (comparable b path).toList = lastPart '/' (comparable b name).toList := by
  rcases h.eq_or_append with rfl | ⟨before, hpath⟩
  · rfl
  · obtain ⟨front, hfront⟩ := toList_comparable_append b hpath
    rw [hfront, Text.lastPart_append_cons]

section Unqualified

variable (hu : query.qualified = false) (ht : '/' ∉ query.target.toList)

include hu ht

theorem isMatch_iff_of_names (hn : Names name path) :
    isMatch query name path ↔ ∃ ext ∈ classExtensions,
      lastPart '/' (comparable query.caseSensitive path).toList =
        query.target.toList ++ '.' :: ext.toList := by
  rw [isMatch_iff]
  refine exists_congr fun ext => and_congr_right fun hext => ?_
  have hfile := slash_not_mem_fileName ht hext
  simp only [hu, Bool.false_eq_true, if_false]
  rw [Text.lastPart_eq_iff hfile]
  rcases hn.eq_or_append with rfl | ⟨before, hpath⟩
  · rfl
  · obtain ⟨front, hfront⟩ := toList_comparable_append query.caseSensitive hpath
    rw [hfront]
    constructor
    · rintro (hname | hend)
      · exact .inr (hname ▸ List.suffix_append front _)
      · exact .inr hend
    · rintro (hwhole | hend)
      · refine absurd ?_ hfile
        rw [← hwhole]
        exact List.mem_append_right _ List.mem_cons_self
      · exact .inr hend

end Unqualified

/-- A query for a simple name finds a candidate if and only if the last part of its path is the target with
the extension of a class file or a source. So the directories make no difference, and a longer name with the
target in it is not found. -/
theorem isMatch_iff_lastPart (hq : Query.new raw caseSensitive method = .ok query)
    (hdot : '.' ∉ query.className.toList) (hslash : '/' ∉ query.className.toList)
    (hn : Names name path) :
    (isMatch query name path ↔ ∃ ext ∈ classExtensions,
      lastPart '/' (comparable query.caseSensitive path).toList =
        query.target.toList ++ '.' :: ext.toList) ∧
    (∀ name' path', Names name' path' → lastPart '/' path'.toList = lastPart '/' path.toList →
      (isMatch query name' path' ↔ isMatch query name path)) ∧
    ∀ front back, ∀ ext ∈ classExtensions, front ++ back ≠ [] →
      lastPart '/' (comparable query.caseSensitive path).toList =
        front ++ query.target.toList ++ back ++ '.' :: ext.toList →
      ¬isMatch query name path := by
  have hu : query.qualified = false := by
    rw [← Bool.not_eq_true, qualified_iff hq]
    exact not_or.mpr ⟨hdot, hslash⟩
  have ht := slash_not_mem_target hq hu
  have hiff := isMatch_iff_of_names hu ht hn
  refine ⟨hiff, fun name' path' hn' hsame => ?_, fun front back ext hext hne hlonger hm => ?_⟩
  · have hlast : Names (String.ofList (lastPart '/' path.toList)) path := .inr String.toList_ofList
    have hlast' : Names (String.ofList (lastPart '/' path.toList)) path' := by
      rw [← hsame]
      exact .inr String.toList_ofList
    rw [hiff, isMatch_iff_of_names hu ht hn', hlast.lastPart_comparable, hlast'.lastPart_comparable]
  · obtain ⟨ext', hext', hlast⟩ := hiff.mp hm
    have h := congrArg List.length (fileName_inj hext hext' (hlonger.symm.trans hlast))
    refine hne (List.length_eq_zero_iff.mp ?_)
    simp only [List.length_append] at h ⊢
    omega

/-- A class in directories of its own. -/
theorem isMatch_iff_lastPart_directories :
    let query : Query := ⟨"Foo", "foo", false, false, none⟩
    Query.new "Foo" false none = .ok query ∧ '.' ∉ query.className.toList ∧
      '/' ∉ query.className.toList ∧ Names "Foo.class" "/x/Foo.class" ∧
      isMatch query "Foo.class" "/x/Foo.class" ∧ isMatch query "d/Foo.class" "d/Foo.class" := by
  intro query
  have hq : Query.new "Foo" false none = .ok query := by decide +kernel
  have hdot : '.' ∉ query.className.toList := by decide
  have hslash : '/' ∉ query.className.toList := by decide
  have hn : Names "Foo.class" "/x/Foo.class" := .inr (by decide +kernel)
  obtain ⟨hiff, hsame, -⟩ := isMatch_iff_lastPart hq hdot hslash hn
  have hm : isMatch query "Foo.class" "/x/Foo.class" :=
    hiff.mpr ⟨"class", by decide, by decide +kernel⟩
  exact ⟨hq, hdot, hslash, hn, hm, (hsame "d/Foo.class" "d/Foo.class" (.inl rfl) (by decide +kernel)).mpr hm⟩

theorem slash_mem_target (hq : Query.new raw caseSensitive method = .ok query) (hu : query.qualified) :
    '/' ∈ query.target.toList := by
  have hpath : '/' ∈ (Query.asPath query.className).toList := by
    rw [Query.asPath, String.toList_map]
    rcases (qualified_iff hq).mp hu with h | h
    · exact List.mem_map.mpr ⟨'.', h, rfl⟩
    · exact List.mem_map.mpr ⟨'/', h, rfl⟩
  rw [Query.toList_target hq]
  cases caseSensitive with
  | true => exact hpath
  | false => exact Text.slash_mem_lowerAfter hpath []

/-- A query for a name with packages finds a candidate if and only if the last parts of its path are those
of the target with the extension of a class file or a source, where other characters, the `stub`, may stand
in front of the first of them. The stub is empty if and only if the path is the target with its extension or
ends in it behind a slash. The last part of the path is always that of the target with its extension. -/
theorem isMatch_iff_endsBehind (hq : Query.new raw caseSensitive method = .ok query)
    (hu : query.qualified) (name path : String) :
    let fileName := fun ext : String => query.target.toList ++ '.' :: ext.toList
    let whole := (comparable query.caseSensitive path).toList
    (isMatch query name path ↔
      ∃ ext ∈ classExtensions, ∃ stub, Text.EndsBehind '/' stub (fileName ext) whole) ∧
    (∀ ext, Text.EndsBehind '/' [] (fileName ext) whole ↔
      whole = fileName ext ∨ '/' :: fileName ext <:+ whole) ∧
    (isMatch query name path →
      ∃ ext ∈ classExtensions, lastPart '/' whole = lastPart '/' (fileName ext)) := by
  intro fileName whole
  have hiff : isMatch query name path ↔
      ∃ ext ∈ classExtensions, ∃ stub, Text.EndsBehind '/' stub (fileName ext) whole := by
    simp only [isMatch_iff, hu, if_true, Text.suffix_iff_endsBehind '/', fileName, whole]
  refine ⟨hiff, fun ext => Text.endsBehind_nil_iff, fun hm => ?_⟩
  obtain ⟨ext, hext, stub, h⟩ := hiff.mp hm
  exact ⟨ext, hext, h.lastPart_eq (List.mem_append_left _ (slash_mem_target hq hu))⟩

/-- The first package is found at the end of a longer name. -/
theorem isMatch_iff_endsBehind_stub :
    let query : Query := ⟨"java.util.Random", "java/util/Random", true, true, none⟩
    let path := "/x/notjava/util/Random.class"
    Query.new "java.util.Random" true none = .ok query ∧ query.qualified ∧
      isMatch query "Random.class" path ∧
      ∀ ext ∈ classExtensions, ¬Text.EndsBehind '/' [] (query.target.toList ++ '.' :: ext.toList)
        (comparable query.caseSensitive path).toList := by
  intro query path
  have hq : Query.new "java.util.Random" true none = .ok query := by decide +kernel
  have hu : query.qualified := rfl
  obtain ⟨hiff, hwhole, -⟩ := isMatch_iff_endsBehind hq hu "Random.class" path
  refine ⟨hq, hu, hiff.mpr ⟨"class", by decide, "not".toList, ["".toList, "x".toList], "java".toList,
    ["util".toList, "Random.class".toList], by decide +kernel, by decide +kernel⟩, fun ext hext h => ?_⟩
  have hnone : ∀ ext ∈ classExtensions, ¬((comparable query.caseSensitive path).toList =
      query.target.toList ++ '.' :: ext.toList ∨ '/' :: (query.target.toList ++ '.' :: ext.toList) <:+
        (comparable query.caseSensitive path).toList) := by decide +kernel
  exact hnone ext hext ((hwhole ext).mp h)

/-- This path is another class's. -/
theorem isMatch_beyond_part :
    ∃ query, Query.new "java.util.Random" true none = .ok query ∧ query.qualified ∧
      query.target.toList.head? ≠ some '/' ∧
      isMatch query "Random.class" "/x/notjava/util/Random.class" ∧
      ∀ ext ∈ classExtensions, ¬(
        let fileName := query.target.toList ++ '.' :: ext.toList
        let whole := (comparable query.caseSensitive "/x/notjava/util/Random.class").toList
        whole = fileName ∨ '/' :: fileName <:+ whole) :=
  ⟨_, rfl, by decide +kernel, by decide +kernel, by decide +kernel, by decide +kernel⟩

section Dropped

variable {query' : Query} {raw' : String} {method' : Option String} {separator : Char} {front : List Char}

theorem exists_target_append (hq : Query.new raw caseSensitive method = .ok query)
    (hq' : Query.new raw' caseSensitive method' = .ok query') (hs : separator = '.' ∨ separator = '/')
    (hname : query.className.toList = front ++ separator :: query'.className.toList) :
    ∃ before, query.target.toList = before ++ '/' :: query'.target.toList := by
  have hslash : (if separator = '.' then '/' else separator) = '/' := by
    rcases hs with rfl | rfl
    · rfl
    · rfl
  obtain ⟨start, hpath⟩ : ∃ start, (Query.asPath query.className).toList =
      start ++ '/' :: (Query.asPath query'.className).toList :=
    ⟨front.map fun c => if c = '.' then '/' else c, by
      simp [Query.asPath, String.toList_map, hname, hslash]⟩
  rw [Query.toList_target hq, Query.toList_target hq', hpath]
  cases caseSensitive with
  | true => exact ⟨start, rfl⟩
  | false => exact ⟨_, Text.lowerAfter_append_slash [] start _⟩

/-- If a query finds a candidate, then the query for the rest of its class name behind any separator finds
it too. This rest is accepted as it is, with or without packages, unless it ends in a semicolon. -/
theorem isMatch_dropPackages {rest : String} (hq : Query.new raw caseSensitive method = .ok query)
    (hs : separator = '.' ∨ separator = '/')
    (hname : query.className.toList = front ++ separator :: rest.toList) (hne : rest ≠ "")
    (hend : rest.toList.getLast? ≠ some ';') (method' : Option String) :
    ∃ query', Query.new rest caseSensitive method' = .ok query' ∧ query'.className = rest ∧
      (∃ before, query.target.toList = before ++ '/' :: query'.target.toList) ∧
      ∀ name path, isMatch query name path → isMatch query' name path := by
  have hsolid : ∀ c ∈ rest.toList, ¬Text.isBlank c := by
    intro c hc
    have hm : c ∈ (Query.normalize raw).toList := by
      rw [← Query.className_of_new hq, hname]
      exact List.mem_append_right _ (List.mem_cons_of_mem _ hc)
    exact Query.not_isBlank_of_mem_normalize hm
  obtain ⟨query', hq', hrest, -⟩ := Query.exists_new_of_read hsolid hne hend
    (Query.normalize_eq_self hsolid hend) caseSensitive method'
  obtain ⟨before, htarget⟩ := exists_target_append hq hq' hs (hrest.symm ▸ hname)
  refine ⟨query', hq', hrest, ⟨before, htarget⟩, fun name path hm => ?_⟩
  have hu : query.qualified := by
    rw [qualified_iff hq, hname]
    rcases hs with rfl | rfl
    · exact .inl (by simp)
    · exact .inr (by simp)
  have hcase : query'.caseSensitive = query.caseSensitive := by
    rw [Query.caseSensitive_of_new hq, Query.caseSensitive_of_new hq']
  rw [isMatch_iff] at hm ⊢
  obtain ⟨ext, hext, hm⟩ := hm
  rw [if_pos hu, htarget, List.append_assoc] at hm
  have hslash : '/' :: (query'.target.toList ++ '.' :: ext.toList) <:+
      (comparable query'.caseSensitive path).toList := by
    rw [hcase]
    exact (List.suffix_append before _).trans hm
  refine ⟨ext, hext, ?_⟩
  split
  · exact (List.suffix_cons _ _).trans hslash
  · exact .inr hslash

/-- An empty part, and a sigma that ends its word in front of a dollar sign. -/
theorem isMatch_dropPackages_sigma :
    let query : Query := ⟨"a..ΟΣ$Σ", "a//ος$σ", true, false, none⟩
    let query' : Query := ⟨"ΟΣ$Σ", "ος$σ", false, false, none⟩
    Query.new "a..ΟΣ$Σ" false none = .ok query ∧
      query.className.toList = "a.".toList ++ '.' :: "ΟΣ$Σ".toList ∧
      "ΟΣ$Σ".toList.getLast? ≠ some ';' ∧ Query.new "ΟΣ$Σ" false none = .ok query' ∧
      isMatch query "x" "/A//ΟΣ$σ.class" ∧ isMatch query' "x" "/A//ΟΣ$σ.class" := by
  intro query query'
  have hq : Query.new "a..ΟΣ$Σ" false none = .ok query := by decide +kernel
  have hname : query.className.toList = "a.".toList ++ '.' :: "ΟΣ$Σ".toList := by decide
  have hend : "ΟΣ$Σ".toList.getLast? ≠ some ';' := by decide
  have hq' : Query.new "ΟΣ$Σ" false none = .ok query' := by decide +kernel
  have hm : isMatch query "x" "/A//ΟΣ$σ.class" := by decide +kernel
  obtain ⟨p, hp, -, -, hkept⟩ := isMatch_dropPackages hq (.inl rfl) hname (by decide) hend none
  obtain rfl := Except.ok.inj (hq'.symm.trans hp)
  exact ⟨hq, hname, hend, hq', hm, hkept _ _ hm⟩

end Dropped

end ClassLocator.Candidate

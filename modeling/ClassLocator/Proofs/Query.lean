import ClassLocator.Query
import ClassLocator.Proofs.Text.Blank

namespace ClassLocator.Query

variable {raw raw' : String} {caseSensitive : Bool} {method : Option String} {query : Query}
variable {cs front : List Char}

theorem eq_of_new (h : Query.new raw caseSensitive method = .ok query) :
    query = {
      className := normalize raw
      target := if caseSensitive then asPath (normalize raw) else Text.lower (asPath (normalize raw))
      qualified := (normalize raw).toList.any isSeparator
      caseSensitive
      methodFilter := filterOf method } ∧ normalize raw ≠ "" := by
  unfold Query.new at h
  dsimp only at h
  split at h
  · cases h
  · rename_i hne
    refine ⟨(Except.ok.inj h).symm, fun he => hne ?_⟩
    rw [he]
    rfl

theorem className_of_new (h : Query.new raw caseSensitive method = .ok query) :
    query.className = normalize raw := by
  rw [(eq_of_new h).1]

theorem qualified_of_new (h : Query.new raw caseSensitive method = .ok query) :
    query.qualified = query.className.toList.any isSeparator := by
  rw [(eq_of_new h).1]

theorem caseSensitive_of_new (h : Query.new raw caseSensitive method = .ok query) :
    query.caseSensitive = caseSensitive := by
  rw [(eq_of_new h).1]

theorem toList_target (h : Query.new raw caseSensitive method = .ok query) :
    query.target.toList =
      if caseSensitive then (asPath query.className).toList
      else Text.lowerAfter [] (asPath query.className).toList := by
  rw [(eq_of_new h).1]
  cases caseSensitive with
  | true => rfl
  | false => simp [Text.lower]

theorem new_eq_error_iff :
    Query.new raw caseSensitive method = .error .emptyClassName ↔ normalize raw = "" := by
  unfold Query.new
  dsimp only
  split
  · rename_i h
    simpa using h
  · rename_i h
    simpa using h

theorem new_congr (h : normalize raw = normalize raw') (caseSensitive : Bool) (method : Option String) :
    Query.new raw caseSensitive method = Query.new raw' caseSensitive method := by
  simp only [Query.new, h]

theorem exists_new (h : normalize raw ≠ "") (caseSensitive : Bool) (method : Option String) :
    ∃ query, Query.new raw caseSensitive method = .ok query ∧ query.className = normalize raw := by
  cases hq : Query.new raw caseSensitive method with
  | ok query => exact ⟨query, rfl, className_of_new hq⟩
  | error e =>
    unfold Query.new at hq
    dsimp only at hq
    rw [if_neg (by simpa using h)] at hq
    cases hq

theorem exists_new_iff :
    (∃ query, Query.new raw caseSensitive method = .ok query) ↔ normalize raw ≠ "" := by
  constructor
  · rintro ⟨query, hq⟩
    exact (eq_of_new hq).2
  · intro h
    obtain ⟨query, hq, -⟩ := exists_new h caseSensitive method
    exact ⟨query, hq⟩

theorem new_eq (raw : String) (caseSensitive : Bool) (method : Option String) :
    Query.new raw caseSensitive method =
      (Query.new raw caseSensitive none).map fun q => { q with methodFilter := filterOf method } := by
  unfold Query.new
  dsimp only
  by_cases h : (normalize raw).isEmpty
  · rw [if_pos h, if_pos h, Except.map]
  · rw [if_neg h, if_neg h, Except.map]

theorem methodFilter_of_new (h : Query.new raw caseSensitive method = .ok query) :
    query.methodFilter = filterOf method := by
  rw [(eq_of_new h).1]

theorem filterOf_eq_some {f : String} (hf : ∃ c ∈ f.toList, ¬Text.isBlank c) :
    filterOf (some f) = some (String.ofList (Text.trim f.toList)) := by
  obtain ⟨c, hc, hb⟩ := hf
  have hne : Text.trim f.toList ≠ [] := List.ne_nil_of_mem (Text.mem_trim hc hb)
  simp [filterOf, hne]

/-- A text without the semicolons at its end. -/
def unclosed (cs : List Char) : List Char := cs.rdropWhile (· == ';')

theorem not_isBlank_semicolon : ¬Text.isBlank ';' := by decide

theorem exists_unclosed (cs : List Char) : ∃ n, cs = unclosed cs ++ List.replicate n ';' := by
  refine ⟨(cs.rtakeWhile (· == ';')).length, ?_⟩
  have hall : ∀ c ∈ cs.rtakeWhile (· == ';'), c = ';' := by
    intro c hc
    simpa using List.mem_rtakeWhile_imp hc
  rw [← List.eq_replicate_of_mem hall]
  exact List.rdropWhile_append_rtakeWhile.symm

theorem mem_of_mem_unclosed {c : Char} (h : c ∈ unclosed cs) : c ∈ cs :=
  (List.rdropWhile_prefix _ _).subset h

theorem getLast?_unclosed (cs : List Char) : (unclosed cs).getLast? ≠ some ';' := by
  intro h
  obtain ⟨ds, hds⟩ := List.getLast?_eq_some_iff.mp h
  have hne : cs.rdropWhile (· == ';') ≠ [] := by
    rw [unclosed] at hds
    simp [hds]
  refine List.rdropWhile_last_not _ _ hne ?_
  rw [unclosed, List.getLast?_eq_some_getLast hne] at h
  simpa using h

theorem unclosed_append_replicate (h : cs.getLast? ≠ some ';') (n : Nat) :
    unclosed (cs ++ List.replicate n ';') = cs := by
  induction n with
  | zero =>
    rw [List.replicate_zero, List.append_nil, unclosed, List.rdropWhile_eq_self_iff]
    intro hne hlast
    rw [List.getLast?_eq_some_getLast hne] at h
    exact h (congrArg some (by simpa using hlast))
  | succ n ih =>
    rw [List.replicate_succ', ← List.append_assoc, unclosed, List.rdropWhile_concat_pos _ _ _ (by simp)]
    exact ih

theorem unclosed_eq_self (h : cs.getLast? ≠ some ';') : unclosed cs = cs := by
  have hnone := unclosed_append_replicate h 0
  rwa [List.replicate_zero, List.append_nil] at hnone

theorem dropSemicolons_of_getLast? (h : cs.getLast? = some ';') :
    dropSemicolons cs = Text.trim (unclosed cs) := if_pos h

theorem dropSemicolons_concat (h : cs.getLast? ≠ some ';') :
    dropSemicolons (cs ++ [';']) = Text.trim cs := by
  have hone := unclosed_append_replicate h 1
  rw [List.replicate_one] at hone
  rw [dropSemicolons_of_getLast? List.getLast?_concat, hone]

theorem isTight_dropSemicolons (h : Text.IsTight cs) : Text.IsTight (dropSemicolons cs) := by
  unfold dropSemicolons
  split
  · exact Text.isTight_trim _
  · exact h

/-- A text ends in semicolons that blanks part into two groups. -/
def ClosedTwice (cs : List Char) : Prop :=
  ∃ blanks n, blanks ≠ [] ∧ (∀ c ∈ blanks, Text.isBlank c) ∧
    ';' :: (blanks ++ List.replicate (n + 1) ';') <:+ cs

theorem closedTwice_append (hf : ';' ∉ front) : ClosedTwice (front ++ cs) ↔ ClosedTwice cs := by
  simp only [ClosedTwice, Text.cons_suffix_of_append hf]

/-- The semicolons are dropped up to a blank, so one in front of it is the last character then. -/
theorem getLast?_dropSemicolons_of_closedTwice (h : ClosedTwice cs) :
    (dropSemicolons cs).getLast? = some ';' := by
  obtain ⟨blanks, n, hne, hb, front, rfl⟩ := h
  have hlast : (front ++ ';' :: blanks).getLast? ≠ some ';' := by
    intro h
    rw [List.getLast?_append_of_ne_nil _ (by simp), List.getLast?_cons] at h
    obtain ⟨ds, c, rfl⟩ := (List.eq_nil_or_concat' blanks).resolve_left hne
    simp only [List.getLast?_concat, Option.getD_some, Option.some.injEq] at h
    exact not_isBlank_semicolon (hb ';' (by simp [h]))
  have hsplit : front ++ ';' :: (blanks ++ List.replicate (n + 1) ';') =
      (front ++ ';' :: blanks) ++ List.replicate (n + 1) ';' := by simp
  have hend : (front ++ ';' :: blanks ++ List.replicate (n + 1) ';').getLast? = some ';' := by
    rw [List.replicate_succ', ← List.append_assoc, List.getLast?_concat]
  rw [hsplit, dropSemicolons_of_getLast? hend, unclosed_append_replicate hlast,
    Text.trim_append_cons front not_isBlank_semicolon hb, List.getLast?_concat]

theorem closedTwice_of_getLast? (h : (dropSemicolons cs).getLast? = some ';') : ClosedTwice cs := by
  have hlast : cs.getLast? = some ';' := by
    by_contra hne
    rw [dropSemicolons, if_neg hne] at h
    exact hne h
  rw [dropSemicolons_of_getLast? hlast] at h
  obtain ⟨front, hfront⟩ := List.getLast?_eq_some_iff.mp h
  obtain ⟨n, hn⟩ := exists_unclosed cs
  obtain ⟨w, w', -, hw', htrim⟩ := Text.exists_trim (unclosed cs)
  rw [hfront] at htrim
  -- Without blanks behind it the semicolon would have been dropped with the others.
  have hne : w' ≠ [] := by
    rintro rfl
    refine getLast?_unclosed cs ?_
    rw [htrim]
    simp
  cases n with
  | zero =>
    rw [List.replicate_zero, List.append_nil] at hn
    exact absurd (hn ▸ hlast) (getLast?_unclosed cs)
  | succ n =>
    refine ⟨w', n, hne, hw', w ++ front, ?_⟩
    conv_rhs => rw [hn, htrim]
    simp

theorem getLast?_dropSemicolons_iff : (dropSemicolons cs).getLast? = some ';' ↔ ClosedTwice cs :=
  ⟨closedTwice_of_getLast?, getLast?_dropSemicolons_of_closedTwice⟩

theorem dropImport_append (cs : List Char) : dropImport (importWord ++ cs) = Text.trim cs := by
  simp [dropImport]

theorem dropImport_of_not_isBlank (h : ∀ c ∈ cs, ¬Text.isBlank c) : dropImport cs = cs := by
  refine if_neg fun hp => ?_
  have hspace : ' ' ∈ importWord := by decide
  exact h ' ' ((List.isPrefixOf_iff_prefix.mp hp).subset hspace) (by decide)

theorem isTight_dropImport (h : Text.IsTight cs) : Text.IsTight (dropImport cs) := by
  unfold dropImport
  split
  · exact Text.isTight_trim _
  · exact h

theorem exists_dropImport (h : Text.IsTight cs) :
    ∃ front, ';' ∉ front ∧ cs = front ++ dropImport cs := by
  by_cases hp : importWord.isPrefixOf cs
  · obtain ⟨rest, rfl⟩ := List.isPrefixOf_iff_prefix.mp hp
    obtain ⟨w, w', hw, hw', hrest⟩ := Text.exists_trim rest
    have hnil : w' = [] := by
      rcases List.eq_nil_or_concat' w' with hnil | ⟨ds, c, rfl⟩
      · exact hnil
      · refine absurd (hw' c (by simp)) (h.2 c ?_)
        rw [hrest, ← List.append_assoc, ← List.append_assoc, List.getLast?_concat]
    refine ⟨importWord ++ w, fun hm => ?_, ?_⟩
    · rcases List.mem_append.mp hm with hm | hm
      · exact absurd hm (by decide)
      · exact not_isBlank_semicolon (hw _ hm)
    · rw [dropImport_append, List.append_assoc]
      conv_lhs => rw [hrest, hnil, List.append_nil]
  · exact ⟨[], List.not_mem_nil, by rw [dropImport, if_neg hp, List.nil_append]⟩

theorem toList_normalize (raw : String) :
    (normalize raw).toList =
      Text.withoutBlanks (dropSemicolons (dropImport (Text.trim raw.toList))) := by
  rw [normalize, String.toList_ofList, Text.withoutBlanks]

theorem getLast?_normalize_iff (raw : String) :
    (normalize raw).toList.getLast? = some ';' ↔ ClosedTwice (Text.trim raw.toList) := by
  have htight := Text.isTight_trim raw.toList
  obtain ⟨front, hf, hcs⟩ := exists_dropImport htight
  rw [toList_normalize,
    (isTight_dropSemicolons (isTight_dropImport htight)).getLast?_withoutBlanks,
    getLast?_dropSemicolons_iff]
  conv_rhs => rw [hcs, closedTwice_append hf]

theorem toList_normalize_of_not_isBlank (h : ∀ c ∈ raw.toList, ¬Text.isBlank c) :
    (normalize raw).toList = unclosed raw.toList := by
  have hkept : ∀ c ∈ unclosed raw.toList, ¬Text.isBlank c := fun c hc => h c (mem_of_mem_unclosed hc)
  have hdrop : dropSemicolons raw.toList = unclosed raw.toList := by
    unfold dropSemicolons
    split
    · exact (Text.isTight_of_not_isBlank hkept).trim_eq
    · rename_i hlast
      exact (unclosed_eq_self hlast).symm
  rw [toList_normalize, (Text.isTight_of_not_isBlank h).trim_eq, dropImport_of_not_isBlank h, hdrop,
    Text.withoutBlanks_eq_self hkept]

theorem normalize_eq_self (h : ∀ c ∈ raw.toList, ¬Text.isBlank c)
    (hend : raw.toList.getLast? ≠ some ';') : normalize raw = raw := by
  rw [← String.toList_inj, toList_normalize_of_not_isBlank h, unclosed_eq_self hend]

theorem not_isBlank_of_mem_normalize {c : Char} (hc : c ∈ (normalize raw).toList) :
    ¬Text.isBlank c := by
  rw [toList_normalize] at hc
  exact Text.not_isBlank_of_mem hc

/-- A class name that was read has no blank. If it is given again, the query is the same if and only if the
name does not end in a semicolon, and it ends in one if and only if the line it was read from ends in
semicolons with blanks between them. Such a name is refused if it is made of semicolons alone; otherwise it
is read without the semicolons at its end, and the name that this gives is read as itself. -/
theorem new_className (hq : Query.new raw caseSensitive method = .ok query) :
    (∀ c ∈ query.className.toList, ¬Text.isBlank c) ∧
    (Query.new query.className caseSensitive method = .ok query ↔
      query.className.toList.getLast? ≠ some ';') ∧
    (query.className.toList.getLast? = some ';' ↔ ClosedTwice (Text.trim raw.toList)) ∧
    (Query.new query.className caseSensitive method = .error .emptyClassName ↔
      ∀ c ∈ query.className.toList, c = ';') ∧
    ∀ query', Query.new query.className caseSensitive method = .ok query' →
      query'.className.toList = unclosed query.className.toList ∧
      Query.new query'.className caseSensitive method = .ok query' := by
  have hname := className_of_new hq
  have hsolid : ∀ c ∈ query.className.toList, ¬Text.isBlank c := fun c hc =>
    not_isBlank_of_mem_normalize (hname ▸ hc)
  have hagain := toList_normalize_of_not_isBlank hsolid
  refine ⟨hsolid, ⟨fun h => ?_, fun hend => ?_⟩, ?_, ?_, fun query' hq' => ?_⟩
  · rw [className_of_new h, hagain]
    exact getLast?_unclosed _
  · rw [← hq]
    refine new_congr ?_ caseSensitive method
    rw [normalize_eq_self hsolid hend, hname]
  · rw [hname, getLast?_normalize_iff]
  · rw [new_eq_error_iff, ← String.toList_eq_nil_iff, hagain, unclosed, List.rdropWhile_eq_nil_iff]
    simp
  · have hname' := className_of_new hq'
    have hlist : query'.className.toList = unclosed query.className.toList := by rw [hname', hagain]
    refine ⟨hlist, ?_⟩
    rw [← hq']
    refine new_congr ?_ caseSensitive method
    rw [← hname']
    refine normalize_eq_self (fun c hc => hsolid c ?_) ?_
    · rw [hlist] at hc
      exact mem_of_mem_unclosed hc
    · rw [hlist]
      exact getLast?_unclosed _

/-- Three semicolons, the last of them behind a blank. -/
theorem new_className_spaced :
    let query : Query := ⟨"a.B;;", "a/b;;", true, false, none⟩
    let query' : Query := ⟨"a.B", "a/b", true, false, none⟩
    Query.new "import a. B;; ;" false none = .ok query ∧
      Query.new query.className false none = .ok query' ∧
      Query.new query'.className false none = .ok query' ∧
      ClosedTwice (Text.trim "import a. B;; ;".toList) := by
  intro query query'
  have hq : Query.new "import a. B;; ;" false none = .ok query := by decide +kernel
  have hq' : Query.new query.className false none = .ok query' := by decide +kernel
  obtain ⟨-, -, hclosed, -, hagain⟩ := new_className hq
  exact ⟨hq, hq', (hagain query' hq').2, hclosed.mp (by decide +kernel)⟩

/-- A class name with a semicolon that it loses when it is given again. -/
theorem className_keeps_semicolon :
    ∃ query query', Query.new "Foo; ;" false none = .ok query ∧
      query.className.toList.getLast? = some ';' ∧
      Query.new query.className false none = .ok query' ∧ query'.className ≠ query.className :=
  ⟨_, _, rfl, by decide +kernel, rfl, by decide +kernel⟩

theorem withoutBlanks_dropSemicolons (h : (Text.withoutBlanks cs).getLast? ≠ some ';') :
    Text.withoutBlanks (dropSemicolons (cs ++ [';'])) = Text.withoutBlanks cs := by
  have hend : cs.getLast? ≠ some ';' := fun hl =>
    h (Text.getLast?_withoutBlanks not_isBlank_semicolon hl)
  rw [dropSemicolons_concat hend, Text.withoutBlanks_trim]

theorem trim_closed {w w' : List Char} {c : Char} (hw : ∀ c ∈ w, Text.isBlank c)
    (hw' : ∀ c ∈ w', Text.isBlank c) (hc : ¬Text.isBlank c) (cs : List Char) :
    Text.trim (w ++ c :: (cs ++ ';' :: w')) = c :: cs ++ [';'] := by
  have hsplit : w ++ c :: (cs ++ ';' :: w') = (w ++ c :: cs) ++ ';' :: w' := by simp
  rw [hsplit, Text.trim_append_cons _ not_isBlank_semicolon hw', Text.trimStart_append_cons w cs hc,
    Text.trimStart_of_isBlank hw, List.nil_append]

theorem dropImport_of_ne {c : Char} (hc : c ≠ ' ') (cs : List Char) :
    dropImport ("import".toList ++ c :: cs) = "import".toList ++ c :: cs := by
  have hword : importWord = "import".toList ++ [' '] := by decide
  refine if_neg fun hp => ?_
  obtain ⟨rest, hrest⟩ := List.isPrefixOf_iff_prefix.mp hp
  rw [hword, List.append_assoc] at hrest
  exact hc (List.cons.inj (List.append_cancel_left hrest)).1.symm

/-- The word is dropped if a space stands behind it, and kept in front of the name if another blank does. -/
theorem withoutBlanks_importLine {c : Char} (hc : Text.isBlank c)
    (hend : (Text.withoutBlanks cs).getLast? ≠ some ';') (hne : Text.withoutBlanks cs ≠ []) :
    Text.withoutBlanks (dropSemicolons (dropImport ("import".toList ++ c :: cs ++ [';']))) =
      if c = ' ' then Text.withoutBlanks cs else "import".toList ++ Text.withoutBlanks cs := by
  split
  · rename_i hspace
    have hword : "import".toList ++ c :: cs ++ [';'] = importWord ++ (cs ++ [';']) := by
      rw [hspace]
      rfl
    have htrim : Text.trim (cs ++ [';']) = Text.trimStart cs ++ [';'] :=
      Text.trim_append_cons cs not_isBlank_semicolon (by simp)
    rw [hword, dropImport_append, htrim, withoutBlanks_dropSemicolons, Text.withoutBlanks_trimStart]
    rwa [Text.withoutBlanks_trimStart]
  · rename_i hother
    have hsolid : ∀ c ∈ "import".toList, ¬Text.isBlank c :=
      Text.forall_not_isBlank_iff.mpr (by decide)
    have hcs : Text.withoutBlanks ("import".toList ++ c :: cs) =
        "import".toList ++ Text.withoutBlanks cs := by
      rw [Text.withoutBlanks_append, Text.withoutBlanks_eq_self hsolid, ← List.singleton_append,
        Text.withoutBlanks_append, Text.withoutBlanks_of_isBlank (by simpa using hc), List.nil_append]
    have hkept : dropImport ("import".toList ++ c :: cs ++ [';']) =
        "import".toList ++ c :: cs ++ [';'] := by
      rw [List.append_assoc, List.cons_append]
      exact dropImport_of_ne hother _
    rw [hkept, withoutBlanks_dropSemicolons, hcs]
    rwa [hcs, List.getLast?_append_of_ne_nil _ hne]

theorem exists_new_of_read {line name : String} (hsolid : ∀ c ∈ name.toList, ¬Text.isBlank c)
    (hne : name ≠ "") (hend : name.toList.getLast? ≠ some ';') (hread : normalize line = name)
    (caseSensitive : Bool) (method : Option String) :
    ∃ query, Query.new name caseSensitive method = .ok query ∧ query.className = name ∧
      Query.new line caseSensitive method = .ok query := by
  have hself := normalize_eq_self hsolid hend
  obtain ⟨query, hq, hname⟩ := exists_new (hself.symm ▸ hne) caseSensitive method
  refine ⟨query, hq, hname.trans hself, ?_⟩
  rw [new_congr (hread.trans hself.symm), hq]

section ImportLine

variable {w₀ w₁ w₂ w₃ spaced name : String}
variable (hw : ∀ w ∈ [w₀, w₁, w₂, w₃], ∀ c ∈ w.toList, Text.isBlank c) (hw₁ : w₁ ≠ "")
variable (hspaced : Text.withoutBlanks spaced.toList = name.toList) (hne : name ≠ "")
variable (hend : name.toList.getLast? ≠ some ';')

include hw hw₁ hspaced hne hend

theorem normalize_importLine :
    normalize (w₀ ++ "import" ++ w₁ ++ spaced ++ w₂ ++ ";" ++ w₃) =
      if w₁.toList.head? = some ' ' then name else "import" ++ name := by
  simp only [List.forall_mem_cons, List.not_mem_nil, false_imp_iff, implies_true, and_true] at hw
  obtain ⟨hw₀, hw₁', hw₂, hw₃⟩ := hw
  obtain ⟨c, u, hcu⟩ := List.exists_cons_of_ne_nil fun h => hw₁ (String.toList_eq_nil_iff.mp h)
  have hblank : ∀ d ∈ c :: u, Text.isBlank d := hcu ▸ hw₁'
  have hbody : Text.withoutBlanks (u ++ spaced.toList ++ w₂.toList) = name.toList := by
    rw [Text.withoutBlanks_append, Text.withoutBlanks_append, hspaced,
      Text.withoutBlanks_of_isBlank fun d hd => hblank d (List.mem_cons_of_mem c hd),
      Text.withoutBlanks_of_isBlank hw₂, List.nil_append, List.append_nil]
  have hname : name.toList ≠ [] := fun h => hne (String.toList_eq_nil_iff.mp h)
  have htrim : Text.trim (w₀ ++ "import" ++ w₁ ++ spaced ++ w₂ ++ ";" ++ w₃).toList =
      "import".toList ++ c :: (u ++ spaced.toList ++ w₂.toList) ++ [';'] := by
    have h := trim_closed hw₀ hw₃ (by decide : ¬Text.isBlank 'i')
      ("mport".toList ++ c :: (u ++ spaced.toList ++ w₂.toList))
    simpa [hcu] using h
  rw [← String.toList_inj, toList_normalize, htrim,
    withoutBlanks_importLine (hblank c List.mem_cons_self) (by rwa [hbody]) (by rwa [hbody]), hbody, hcu,
    List.head?_cons, apply_ite String.toList, String.toList_append]
  simp only [Option.some.injEq]

/-- A line of the word `import`, a class name and a semicolon, with blanks around the word, in the name and
around the semicolon. If a space is the first blank behind the word, it is read as the name alone; if
another blank is, it is read as the name with the word in front of it. -/
theorem new_importLine (caseSensitive : Bool) (method : Option String) :
    let line := w₀ ++ "import" ++ w₁ ++ spaced ++ w₂ ++ ";" ++ w₃
    (w₁.toList.head? = some ' ' → ∃ query,
      Query.new name caseSensitive method = .ok query ∧ query.className = name ∧
        Query.new line caseSensitive method = .ok query) ∧
    (w₁.toList.head? ≠ some ' ' → ∃ query,
      Query.new ("import" ++ name) caseSensitive method = .ok query ∧
        query.className = "import" ++ name ∧ Query.new line caseSensitive method = .ok query) := by
  intro line
  have hread := normalize_importLine hw hw₁ hspaced hne hend
  have hsolid : ∀ c ∈ name.toList, ¬Text.isBlank c := by
    rw [← hspaced]
    exact fun c hc => Text.not_isBlank_of_mem hc
  constructor
  · intro hspace
    rw [if_pos hspace] at hread
    exact exists_new_of_read hsolid hne hend hread caseSensitive method
  · intro hother
    rw [if_neg hother] at hread
    have hword : ∀ c ∈ "import".toList, ¬Text.isBlank c :=
      Text.forall_not_isBlank_iff.mpr (by decide)
    have hname : name.toList ≠ [] := fun h => hne (String.toList_eq_nil_iff.mp h)
    have hsolid' : ∀ c ∈ ("import" ++ name).toList, ¬Text.isBlank c := by
      rw [String.toList_append, List.forall_mem_append]
      exact ⟨hword, hsolid⟩
    have hne' : "import" ++ name ≠ "" := by simp [← String.toList_inj]
    have hend' : ("import" ++ name).toList.getLast? ≠ some ';' := by
      rwa [String.toList_append, List.getLast?_append_of_ne_nil _ hname]
    exact exists_new_of_read hsolid' hne' hend' hread caseSensitive method

end ImportLine

/-- A line pasted with wide blanks, and the same line with a tab behind the word. -/
theorem new_importLine_wide :
    let query : Query := ⟨"java.util.Random", "java/util/random", true, false, none⟩
    let query' : Query := ⟨"importjava.util.Random", "importjava/util/random", true, false, none⟩
    (∀ w ∈ ["\u3000", " \t", " ", "\n"], ∀ c ∈ w.toList, Text.isBlank c) ∧
      (∀ w ∈ ["\u3000", "\t", " ", "\n"], ∀ c ∈ w.toList, Text.isBlank c) ∧
      Text.withoutBlanks "java.util.\u00a0Random".toList = "java.util.Random".toList ∧
      "java.util.Random".toList.getLast? ≠ some ';' ∧
      Query.new "java.util.Random" false none = .ok query ∧
      Query.new "\u3000import \tjava.util.\u00a0Random ;\n" false none = .ok query ∧
      Query.new "\u3000import\tjava.util.\u00a0Random ;\n" false none = .ok query' := by
  intro query query'
  have hspace : ∀ w ∈ ["\u3000", " \t", " ", "\n"], ∀ c ∈ w.toList, Text.isBlank c := by
    simp only [Text.forall_isBlank_iff]
    decide
  have htab : ∀ w ∈ ["\u3000", "\t", " ", "\n"], ∀ c ∈ w.toList, Text.isBlank c := by
    simp only [Text.forall_isBlank_iff]
    decide
  have hspaced : Text.withoutBlanks "java.util.\u00a0Random".toList = "java.util.Random".toList := by
    decide +kernel
  have hend : "java.util.Random".toList.getLast? ≠ some ';' := by decide +kernel
  have hq : Query.new "java.util.Random" false none = .ok query := by decide +kernel
  have hq' : Query.new "importjava.util.Random" false none = .ok query' := by decide +kernel
  obtain ⟨p, hp, -, hline⟩ :=
    (new_importLine hspace (by decide) hspaced (by decide) hend false none).1 (by decide)
  obtain ⟨p', hp', -, hline'⟩ :=
    (new_importLine htab (by decide) hspaced (by decide) hend false none).2 (by decide)
  obtain rfl := Except.ok.inj (hq.symm.trans hp)
  obtain rfl := Except.ok.inj (hq'.symm.trans hp')
  exact ⟨hspace, htab, hspaced, hend, hq, hline, hline'⟩

/-- The class that a line imports is not the one searched for. -/
theorem className_keeps_import :
    ∃ query query', Query.new "Foo" false none = .ok query ∧
      Query.new "import\tFoo;" false none = .ok query' ∧
      query'.className ≠ query.className ∧ query'.target ≠ query.target :=
  ⟨_, _, rfl, rfl, by decide +kernel, by decide +kernel⟩

end ClassLocator.Query

import ClassLocator.Proofs.Java.Line

namespace ClassLocator

open Text (isBlank)

/-- A comment begins so, and no modifier or type does. -/
def isComment (s : String) : Bool :=
  ['/', '/'].isPrefixOf s.toList || ['/', '*'].isPrefixOf s.toList

def Declaration.withoutComments (d : Declaration) : Declaration :=
  { d with
    modifiers := d.modifiers.filter (!isComment ·)
    thrown := d.thrown.filter (!isComment ·) }

namespace Java

open Grammar (rules)

def linesOf (c d : Construct) (t : Source) : List String :=
  ((((t.child? c).map (·.children)).getD []).filter (Source.is d)).map (·.line)

/-- What a method or a constructor declares, with nothing but modifiers and types in the lists. -/
def bareDeclarationOf (owner : String) (member method : Source) : Declaration :=
  { declarationOf owner member method with
    modifiers := linesOf .modifiers .modifier member
    thrown := linesOf .throwsClause .type method }

section

variable {source : String} {c : Construct} {cs : List Source} {t u member method : Source}

theorem isComment_squeeze {s : String} (h : Text.Pattern.Fits Lexer.comment s.toList) :
    isComment (Text.squeeze s) := by
  rw [isComment, Bool.or_eq_true, List.isPrefixOf_iff_prefix, List.isPrefixOf_iff_prefix]
  obtain ⟨m, hm, -⟩ | ⟨m, hm, -⟩ := Lexer.fits_comment_iff.mp h
  · exact .inl (Text.prefix_squeeze (by simp) (Text.forall_not_isBlank_iff.mpr (by decide)) ⟨m, hm.symm⟩)
  · exact .inr (Text.prefix_squeeze (by simp) (Text.forall_not_isBlank_iff.mpr (by decide)) ⟨m, hm.symm⟩)

theorem isComment_of_mem_comments (h : t.IsSound source) :
    ∀ s ∈ t.comments.map Text.squeeze, isComment s := by
  intro s hs
  obtain ⟨comment, hcomment, rfl⟩ := List.mem_map.mp hs
  exact isComment_squeeze (h.fits_comment comment hcomment)

theorem not_isComment_squeeze {s : String} {a : Char} (ha : ¬isBlank a) (hslash : a ≠ '/')
    (h : s.toList.head? = some a) : isComment (Text.squeeze s) = false := by
  obtain ⟨cs, hs⟩ := List.head?_eq_some_iff.mp h
  obtain ⟨ds, hds⟩ := Text.prefix_squeeze (u := [a]) (by simp) (by simpa using ha) ⟨cs, hs.symm⟩
  rw [isComment, ← hds]
  simp [List.isPrefixOf, Ne.symm hslash]

theorem not_isComment_line (h : Source.IsSound source (.node c cs)) (hc : c ∈ openConstructs) :
    isComment (Source.line (.node c cs)) = false := by
  have hfull : ∀ c ∈ openConstructs, c ∈ fullConstructs := by decide
  obtain ⟨token, tokens, htokens⟩ := List.exists_cons_of_ne_nil (h.conforms.tokensOf_ne_nil (hfull c hc))
  have hopening : isOpening token.kind token.text :=
    h.conforms.isOpening hc token (by rw [htokens]; rfl)
  have hhead : ∃ a, token.text.toList.head? = some a ∧ ¬isBlank a ∧ a ≠ '/' := by
    rcases hopening with hword | hmark
    · have hmem := h.mem_lex token (by rw [Tree.tokens, htokens]; exact List.mem_cons_self)
      have hsound := (sound_of_mem_lex hmem).1 (by simp [hword])
      obtain ⟨a, ha, hblank⟩ := hsound.begins (by simp [hword])
      have havoids : Lexer.wordPattern.avoids '/' := by decide +kernel
      have hslash := (hsound.word hword).not_mem havoids
      exact ⟨a, ha, hblank, fun heq => hslash (heq ▸ List.mem_of_head? ha)⟩
    · exact ⟨'@', hmark, by decide, by decide⟩
  obtain ⟨a, ha, hblank, hslash⟩ := hhead
  refine not_isComment_squeeze hblank hslash ?_
  rw [Tree.text, Tree.tokens, htokens, String.toList_append, List.head?_append, ha]
  rfl

theorem filter_comments (h : t.IsSound source) (lines : List String) :
    (t.comments.map Text.squeeze ++ lines).filter (!isComment ·) = lines.filter (!isComment ·) := by
  rw [List.filter_append, List.filter_eq_nil_iff.mpr, List.nil_append]
  intro s hs
  simp [isComment_of_mem_comments h s hs]

theorem filter_modifiersOf (h : member.IsSound source) :
    (modifiersOf member).filter (!isComment ·) = linesOf .modifiers .modifier member := by
  rw [modifiersOf, linesOf]
  cases hms : member.child? .modifiers with
  | none => rfl
  | some ms =>
    obtain ⟨hsound, items, rfl⟩ := h.of_child? hms
    have hmodifier : ∀ m ∈ items, Source.is .modifier m ∧ isComment (Source.line m) = false := by
      intro m hm
      obtain ⟨d, us, rfl, hd⟩ := hsound.conforms.exists_node (by decide) m hm
      have hrefs : ∀ d ∈ (rules .modifiers).refs, d = .modifier := by decide
      obtain rfl := hrefs d hd
      exact ⟨rfl, not_isComment_line (hsound.of_mem hm) (by decide)⟩
    simp only [Option.map_some, Option.getD_some, Source.children]
    rw [List.filter_eq_self.mpr fun m hm => (hmodifier m hm).1]
    cases items with
    | nil => rfl
    | cons first rest =>
      rw [List.forall_mem_cons] at hmodifier
      have hrest : ∀ m ∈ rest,
          (m.comments.map Text.squeeze ++ [Source.line m]).filter (!isComment ·) = [Source.line m] := by
        intro m hm
        rw [filter_comments (hsound.of_mem (List.mem_cons_of_mem _ hm))]
        simp [(hmodifier.2 m hm).2]
      rw [List.filter_cons_of_pos (by simp [hmodifier.1.2]), List.filter_flatMap,
        List.flatMap_congr hrest, ← List.map_eq_flatMap]
      rfl

theorem filter_thrownBy (h : method.IsSound source) :
    (thrownBy method).filter (!isComment ·) = linesOf .throwsClause .type method := by
  rw [thrownBy, linesOf]
  cases hclause : method.child? .throwsClause with
  | none => rfl
  | some clause =>
    obtain ⟨hsound, items, rfl⟩ := h.of_child? hclause
    obtain ⟨us, rest, hus, -, rfl⟩ := Rule.fits_both_iff.mp hsound.conforms
    obtain ⟨announcing, -, rfl⟩ := Rule.fits_token_iff.mp hus
    have hrest : ∀ t ∈ rest, (t.comments.map Text.squeeze ++
        if Source.is .type t then [Source.line t] else []).filter (!isComment ·) =
          if Source.is .type t then [Source.line t] else [] := by
      intro t ht
      have htsound := hsound.of_mem (List.mem_append_right [.leaf announcing] ht)
      rw [filter_comments htsound]
      split
      · rename_i htype
        rw [Source.is_eq_isOneOf] at htype
        obtain ⟨d, us, hd, rfl⟩ := exists_of_isOneOf htype
        obtain rfl := List.mem_singleton.mp hd
        simp [not_isComment_line htsound (by decide)]
      · rfl
    have hfirst : Source.is .type (.leaf announcing) = false := rfl
    simp only [Option.map_some, Option.getD_some, Source.children, List.singleton_append]
    rw [List.filter_flatMap, List.flatMap_congr hrest, List.filter_cons_of_neg (by simp [hfirst]),
      List.map_eq_flatMap, flatMap_filter]

theorem withoutComments_declarationOf (owner : String) (hmember : member.IsSound source)
    (hmethod : method.IsSound source) : (declarationOf owner member method).withoutComments =
      bareDeclarationOf owner member method := by
  rw [Declaration.withoutComments, bareDeclarationOf, ← filter_modifiersOf hmember, ← filter_thrownBy hmethod]
  rfl

end

end Java

end ClassLocator

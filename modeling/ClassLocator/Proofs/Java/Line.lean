import ClassLocator.Proofs.Java.Members
import ClassLocator.Proofs.Java.Tokens

namespace ClassLocator

open Text (Tidy forall_not_isBlank_iff tidy_of_not_isBlank tidy_symbol tidy_spaces tidy_commas
  tidy_spacedCommas)

namespace Declaration

structure IsTidy (d : Declaration) : Prop where
  owner : Tidy d.owner.toList
  modifiers : ∀ s ∈ d.modifiers, Tidy s.toList
  typeParameters : ∀ s ∈ d.typeParameters, Tidy s.toList
  result : d.result ≠ "" → Tidy d.result.toList
  name : Tidy d.name.toList
  parameters : ∀ s ∈ d.parameters, Tidy s.toList
  thrown : ∀ s ∈ d.thrown, Tidy s.toList

variable {d : Declaration} {name : String}

theorem toList_map_ne_nil {ss : List String} (h : ss.isEmpty = false) : ss.map String.toList ≠ [] := by
  simpa [List.isEmpty_eq_false_iff] using h

theorem forall_mem_toList {ss : List String} (h : ∀ s ∈ ss, Tidy s.toList) :
    ∀ cs ∈ ss.map String.toList, Tidy cs := by
  simpa using h

theorem IsTidy.head (h : d.IsTidy) (hname : Tidy name.toList) : Tidy (d.head name).toList := by
  have hopen : Tidy (name.toList ++ ['(']) := hname.append (tidy_symbol (by decide))
  rw [Declaration.head, String.toList_append, String.toList_append, String.toList_append,
    String.toList_intercalate]
  refine .append ?_ (tidy_symbol (by decide))
  cases hparameters : d.parameters.isEmpty with
  | true =>
    rw [List.isEmpty_iff.mp hparameters]
    simpa using hopen
  | false =>
    exact hopen.append (tidy_commas (toList_map_ne_nil hparameters) (forall_mem_toList h.parameters))

theorem IsTidy.tokens (h : d.IsTidy) : d.tokens ≠ [] ∧ ∀ s ∈ d.tokens, Tidy s.toList := by
  have hgeneric : ∀ s ∈ (if d.typeParameters.isEmpty then []
      else ["<" ++ ",".intercalate d.typeParameters ++ ">"]), Tidy s.toList := by
    intro s hs
    cases hempty : d.typeParameters.isEmpty with
    | true => simp [hempty] at hs
    | false =>
      obtain rfl : s = _ := by simpa [hempty] using hs
      rw [String.toList_append, String.toList_append, String.toList_intercalate]
      have hlist := tidy_commas (toList_map_ne_nil hempty) (forall_mem_toList h.typeParameters)
      exact ((tidy_symbol (by decide)).append hlist).append (tidy_symbol (by decide))
  have hresult : ∀ s ∈ (if d.result.isEmpty then [] else [d.result]), Tidy s.toList := by
    intro s hs
    by_cases hempty : d.result.isEmpty
    · simp [hempty] at hs
    · obtain rfl : s = d.result := by simpa [hempty] using hs
      exact h.result (by simpa using hempty)
  rw [Declaration.tokens]
  cases d.role with
  | staticInitializer =>
    refine ⟨by simp, List.forall_mem_append.mpr ⟨h.modifiers, ?_⟩⟩
    rw [List.forall_mem_singleton]
    exact tidy_of_not_isBlank (by decide) (forall_not_isBlank_iff.mpr (by decide))
  | constructor =>
    refine ⟨by simp, List.forall_mem_append.mpr ⟨h.modifiers, List.forall_mem_append.mpr ⟨hgeneric, ?_⟩⟩⟩
    rw [List.forall_mem_singleton]
    exact h.head h.owner
  | method =>
    refine ⟨by simp, List.forall_mem_append.mpr ⟨h.modifiers, List.forall_mem_append.mpr ⟨?_, ?_⟩⟩⟩
    · exact List.forall_mem_append.mpr ⟨hgeneric, hresult⟩
    · rw [List.forall_mem_singleton]
      exact h.head h.name

theorem IsTidy.render (h : d.IsTidy) : ∃ cs, d.render.toList = cs ++ [';'] ∧ Tidy d.render.toList := by
  obtain ⟨hne, htokens⟩ := h.tokens
  have hwords : Tidy (" ".intercalate d.tokens).toList := by
    rw [String.toList_intercalate]
    exact tidy_spaces (by simpa using hne) (forall_mem_toList htokens)
  have hfront : Tidy ((" ".intercalate d.tokens).toList ++ d.throwsClause.toList) := by
    rw [throwsClause]
    split
    · simpa using hwords
    · rename_i hthrown
      obtain ⟨-, hthrown⟩ := not_or.mp hthrown
      have hlist := tidy_spacedCommas (toList_map_ne_nil (by simpa using hthrown)) (forall_mem_toList h.thrown)
      have hclause : Tidy ("throws".toList ++ ' ' :: ", ".toList.intercalate (d.thrown.map String.toList)) :=
        (tidy_of_not_isBlank (by decide) (forall_not_isBlank_iff.mpr (by decide))).spaced hlist
      have htext : (" throws " ++ ", ".intercalate d.thrown).toList =
          ' ' :: ("throws".toList ++ ' ' :: ", ".toList.intercalate (d.thrown.map String.toList)) := by
        rw [String.toList_append, String.toList_intercalate]
        rfl
      rw [htext]
      exact hwords.spaced hclause
  have hline : d.render.toList =
      (" ".intercalate d.tokens).toList ++ d.throwsClause.toList ++ [';'] := by
    rw [Declaration.render, String.toList_append, String.toList_append]
    rfl
  exact ⟨_, hline, hline ▸ hfront.append (tidy_symbol (by decide))⟩

end Declaration

namespace Java

open Grammar (rules)
open Text (Begins isBlank tidy_squeeze)

namespace Source

variable {c : Construct} {cs : List Source} {t u : Source}

/-- A tree that conforms to the grammar and has its tokens from a text. -/
structure IsSound (source : String) (t : Source) : Prop where
  conforms : t.Conforms
  mem_lex : ∀ token ∈ t.tokens, token ∈ Lexer.lex source

variable {source : String}

theorem IsSound.of_mem (h : t.IsSound source) (hu : u ∈ t.children) : u.IsSound source where
  conforms := h.conforms.of_mem hu
  mem_lex token htoken := by
    refine h.mem_lex token ?_
    cases t with
    | leaf _ => simp [children] at hu
    | node c cs => exact Tree.mem_tokensOf hu htoken

theorem IsSound.text_begins (h : IsSound source (.node c cs)) (hc : c ∈ fullConstructs) :
    Begins (Tree.text (.node c cs)).toList := by
  obtain ⟨token, tokens, htokens⟩ := List.exists_cons_of_ne_nil (h.conforms.tokensOf_ne_nil hc)
  have hmem : token ∈ Tree.tokensOf cs := htokens ▸ List.mem_cons_self
  have hfile : ∀ c ∈ fullConstructs, c ≠ .file := by decide
  have hkind := h.conforms.kind_mem (hfile c hc) token hmem
  have hplain : ∀ kind ∈ knownKinds, kind ≠ .ending ∧ kind ≠ .unknown := by decide
  obtain ⟨hending, hunknown⟩ := hplain _ hkind
  have hsound := (sound_of_mem_lex (h.mem_lex token hmem)).1 hending
  rw [Tree.text, Tree.tokens, htokens, String.toList_append]
  exact (hsound.begins hunknown).append _

theorem IsSound.tidy_line (h : IsSound source (.node c cs)) (hc : c ∈ fullConstructs) :
    Tidy (Source.line (.node c cs)).toList := tidy_squeeze (h.text_begins hc)

theorem IsSound.fits_comment (h : IsSound source t) :
    ∀ s ∈ t.comments, Text.Pattern.Fits Lexer.comment s.toList := by
  intro s hs
  rw [Tree.comments] at hs
  cases hfirst : t.tokens.head? with
  | none => simp [hfirst] at hs
  | some token =>
    rw [hfirst] at hs
    exact (sound_of_mem_lex (h.mem_lex token (List.mem_of_head? hfirst))).2 s hs

theorem IsSound.tidy_comments (h : IsSound source t) :
    ∀ s ∈ t.comments.map Text.squeeze, Tidy s.toList := by
  intro s hs
  obtain ⟨comment, hcomment, rfl⟩ := List.mem_map.mp hs
  obtain ⟨m, hm⟩ := Lexer.exists_cons_of_comment (h.fits_comment comment hcomment)
  exact tidy_squeeze (hm ▸ Text.begins_cons (by decide) m)

theorem IsSound.tidy_word {token : Token} (h : IsSound source (.leaf token)) (hk : token.kind = .word) :
    Tidy token.text.toList := by
  have hsound := (sound_of_mem_lex (h.mem_lex token (List.mem_singleton_self _))).1 (by simp [hk])
  obtain ⟨c, hc, -⟩ := hsound.begins (by simp [hk])
  rw [hk] at hsound
  refine tidy_of_not_isBlank ?_ hsound.not_isBlank
  rintro hnil
  rw [hnil] at hc
  cases hc

theorem IsSound.of_child? (h : t.IsSound source) (hu : t.child? c = some u) :
    u.IsSound source ∧ ∃ us, u = .node c us := by
  refine ⟨h.of_mem (List.mem_of_find?_eq_some hu), ?_⟩
  have hc := List.find?_some hu
  cases u with
  | leaf token => simp [is, construct?] at hc
  | node d us => exact ⟨us, by simpa [is, construct?] using hc⟩

theorem IsSound.tidy_modifiers (h : t.IsSound source) : ∀ s ∈ modifiersOf t, Tidy s.toList := by
  rw [modifiersOf]
  cases hms : t.child? .modifiers with
  | none => simp
  | some ms =>
    obtain ⟨hsound, items, rfl⟩ := h.of_child? hms
    have hlines : ∀ m ∈ items, Tidy (Source.line m).toList := by
      intro m hm
      obtain ⟨d, us, rfl, hd⟩ := hsound.conforms.exists_node (by decide) m hm
      have hmodifier : ∀ d ∈ (rules .modifiers).refs, d ∈ fullConstructs := by decide
      exact (hsound.of_mem hm).tidy_line (hmodifier d hd)
    cases items with
    | nil => simp [children]
    | cons first rest =>
      rw [List.forall_mem_cons] at hlines
      refine List.forall_mem_cons.mpr ⟨hlines.1, fun s hs => ?_⟩
      obtain ⟨m, hm, hs⟩ := List.mem_flatMap.mp hs
      rcases List.mem_append.mp hs with hs | hs
      · exact (hsound.of_mem (List.mem_cons_of_mem _ hm)).tidy_comments s hs
      · rw [List.mem_singleton.mp hs]
        exact hlines.2 m hm

theorem IsSound.tidy_thrown (h : t.IsSound source) : ∀ s ∈ thrownBy t, Tidy s.toList := by
  rw [thrownBy]
  cases hclause : t.child? .throwsClause with
  | none => simp
  | some clause =>
    obtain ⟨hsound, items, rfl⟩ := h.of_child? hclause
    cases items with
    | nil => simp [children]
    | cons first rest =>
      intro s hs
      obtain ⟨u, hu, hs⟩ := List.mem_flatMap.mp hs
      have husound := hsound.of_mem (List.mem_cons_of_mem first hu)
      rcases List.mem_append.mp hs with hs | hs
      · exact husound.tidy_comments s hs
      · by_cases htype : u.is .type
        · rw [if_pos htype, List.mem_singleton] at hs
          obtain ⟨us, rfl⟩ : ∃ us, u = .node .type us := by
            cases u with
            | leaf token => cases htype
            | node d us => exact ⟨us, by simpa [is, construct?] using htype⟩
          exact hs ▸ husound.tidy_line (by decide)
        · simp [htype] at hs

theorem IsSound.tidy_children {ds : List Construct} (h : t.IsSound source) (hds : ds ⊆ fullConstructs) :
    ∀ s ∈ ((((t.child? c).map (·.children)).getD []).filter (isOneOf ds)).map (·.line), Tidy s.toList := by
  intro s hs
  obtain ⟨u, hu, rfl⟩ := List.mem_map.mp hs
  obtain ⟨hu, hd⟩ := List.mem_filter.mp hu
  cases hlist : t.child? c with
  | none => simp [hlist] at hu
  | some list =>
    rw [hlist] at hu
    obtain ⟨d, us, hmem, rfl⟩ := exists_of_isOneOf hd
    exact ((h.of_child? hlist).1.of_mem hu).tidy_line (hds hmem)

theorem is_eq_isOneOf (c : Construct) : Source.is c = isOneOf [c] := by
  funext t
  cases t with
  | leaf token => rfl
  | node d us => simp [is, isOneOf, construct?, Bool.beq_eq_decide_eq]

theorem IsSound.tidy_result (h : t.IsSound source) {s : String}
    (hs : ((t.child? .plainType).map (·.line)).getD "" = s) (hne : s ≠ "") : Tidy s.toList := by
  cases htype : t.child? .plainType with
  | none => simp [htype, hne.symm] at hs
  | some type =>
    obtain ⟨hsound, us, rfl⟩ := h.of_child? htype
    rw [htype] at hs
    exact hs ▸ hsound.tidy_line (by decide)

theorem IsSound.tidy_declaredName (h : t.IsSound source) (hne : t.declaredName ≠ "") :
    Tidy t.declaredName.toList := by
  rw [declaredName] at hne ⊢
  cases hname : t.children.findSome? _ with
  | none => simp [hname] at hne
  | some name =>
    obtain ⟨u, hu, hword⟩ := List.exists_of_findSome?_eq_some hname
    cases u with
    | node c us => cases hword
    | leaf token =>
      by_cases hk : token.kind = .word
      · obtain rfl : token.text = name := by simpa [hk] using hword
        exact (h.of_mem hu).tidy_word hk
      · simp [hk] at hword

end Source

section

variable {source filter : String} {file type member : Source} {ds : List Declaration}

theorem isOneOf_of_subset {cs ds : List Construct} {t : Source} (hsub : cs ⊆ ds) (h : isOneOf cs t) :
    isOneOf ds t := by
  obtain ⟨c, ts, hc, rfl⟩ := exists_of_isOneOf h
  exact List.contains_iff_mem.mpr (hsub hc)

def wayConstructs : List Construct :=
  [.file, .fileItem, .statement, .statementDeclaration, .declaration, .enumMembers] ++
    typeConstructs ++ bodyConstructs ++ memberConstructs

def Descends (t u : Source) : Prop := isOneOf wayConstructs t ∧ u ∈ t.children

def Reaches : Source → Source → Prop := Relation.ReflTransGen Descends

theorem Reaches.isSound {t u : Source} (h : Reaches t u) (ht : t.IsSound source) : u.IsSound source := by
  induction h with
  | refl => exact ht
  | tail _ hstep ih => exact ih.of_mem hstep.2

theorem reaches_of_mem_within {path : List Construct} {t : Source} (hpath : path ⊆ wayConstructs)
    (ht : isOneOf wayConstructs t) (h : type ∈ topLevelTypes.within path t) :
    Reaches t type ∧ isOneOf typeConstructs type := by
  induction path generalizing t with
  | nil =>
    obtain ⟨hmem, htype⟩ := List.mem_filter.mp h
    exact ⟨.single ⟨ht, hmem⟩, htype⟩
  | cons c path ih =>
    rw [List.cons_subset] at hpath
    obtain ⟨u, hu, h⟩ := List.mem_flatMap.mp h
    obtain ⟨hmem, hc⟩ := List.mem_filter.mp hu
    rw [Source.is_eq_isOneOf] at hc
    obtain ⟨hreaches, htype⟩ := ih hpath.2 (isOneOf_of_subset (by simpa using hpath.1) hc) h
    exact ⟨.head ⟨ht, hmem⟩ hreaches, htype⟩

theorem reaches_of_mem_types (hfile : parse source = .ok file) (h : type ∈ topLevelTypes file) :
    Reaches file type ∧ isOneOf typeConstructs type := by
  obtain ⟨hnode, -⟩ := of_parse hfile
  refine reaches_of_mem_within (by decide) ?_ h
  rw [isOneOf, hnode]
  decide

theorem reaches_of_mem_members (htype : isOneOf typeConstructs type) (h : member ∈ members type) :
    Reaches type member := by
  obtain ⟨t, ht, hmember⟩ := List.mem_flatMap.mp (List.mem_of_mem_filter h)
  cases hbody : type.children.find? (isOneOf bodyConstructs) with
  | none => simp [hbody] at ht
  | some body =>
    rw [hbody] at ht
    have hway : isOneOf wayConstructs body := isOneOf_of_subset (by decide) (List.find?_some hbody)
    have hreaches : Reaches type t :=
      .head ⟨isOneOf_of_subset (by decide) htype, List.mem_of_find?_eq_some hbody⟩ (.single ⟨hway, ht⟩)
    split at hmember
    · rename_i henum
      rw [Source.is_eq_isOneOf] at henum
      exact hreaches.tail ⟨isOneOf_of_subset (by decide) henum, hmember⟩
    · exact List.mem_singleton.mp hmember ▸ hreaches

theorem reaches_member (hfile : parse source = .ok file) (htype : type ∈ topLevelTypes file)
    (hmember : member ∈ members type) : Reaches file member := by
  obtain ⟨hreaches, hkind⟩ := reaches_of_mem_types hfile htype
  exact hreaches.trans (reaches_of_mem_members hkind hmember)

theorem tidy_typeName (h : type.IsSound source) (htype : isOneOf typeConstructs type) :
    Tidy (typeName type).toList := by
  have hname : ∀ {k : Token.Kind} {f g : String → Bool} {rule : Rule Construct} {c : Construct}
      {cs : List Source}, Source.IsSound source (.node c cs) →
      (Rule.both (.token k f) (.both (.token .word g) rule)).Fits rules cs →
        Tidy (typeName (.node c cs)).toList := by
    intro k f g rule c cs hsound hfits
    obtain ⟨us, vs, hus, hvs, rfl⟩ := Rule.fits_both_iff.mp hfits
    obtain ⟨ws, xs, hws, -, rfl⟩ := Rule.fits_both_iff.mp hvs
    obtain ⟨first, -, rfl⟩ := Rule.fits_token_iff.mp hus
    obtain ⟨name, ⟨hk, -⟩, rfl⟩ := Rule.fits_token_iff.mp hws
    exact (hsound.of_mem (u := .leaf name) (by simp [Source.children])).tidy_word hk
  obtain ⟨c, cs, hc, rfl⟩ := exists_of_isOneOf htype
  have hcases : c = .classDeclaration ∨ c = .interfaceDeclaration ∨ c = .enumDeclaration ∨
      c = .recordDeclaration ∨ c = .annotationDeclaration := by
    simpa [typeConstructs] using hc
  rcases hcases with rfl | rfl | rfl | rfl | rfl
  all_goals exact hname h h.conforms

theorem isTidy_declarationOf {owner : String} {method : Source} (howner : Tidy owner.toList)
    (hmember : member.IsSound source) (hmethod : method.IsSound source) (hname : method.declaredName ≠ "") :
    (declarationOf owner member method).IsTidy where
  owner := howner
  modifiers := hmember.tidy_modifiers
  typeParameters := by
    rw [declarationOf, typeParametersOf, Source.is_eq_isOneOf]
    exact hmethod.tidy_children (by decide)
  result := hmethod.tidy_result rfl
  name := hmethod.tidy_declaredName hname
  parameters := hmethod.tidy_children (by decide)
  thrown := hmethod.tidy_thrown

theorem isSound_of_parse (hfile : parse source = .ok file) : file.IsSound source := by
  obtain ⟨-, hconforms, rest, htokens⟩ := of_parse hfile
  exact ⟨hconforms, fun t ht => htokens ▸ List.mem_append_left rest ht⟩

theorem exists_member {d : Declaration} (hfile : parse source = .ok file)
    (h : declarations source filter = .ok ds) (hd : d ∈ ds) : ∃ type member method,
      (topLevelTypes file).head? = some type ∧ member ∈ members type ∧ method ∈ member.children ∧
      d = declarationOf (typeName type) member method ∧ method.declaredName ≠ "" := by
  by_cases hfilter : filter = ""
  · subst hfilter
    obtain rfl : [] = ds := Except.ok.inj h
    cases hd
  · rw [declarations_of_types hfilter hfile] at h
    obtain rfl := Except.ok.inj h
    cases htypes : (topLevelTypes file).head? with
    | none => simp [htypes] at hd
    | some type =>
      rw [htypes] at hd
      obtain ⟨hd, hname⟩ := List.mem_filter.mp hd
      obtain ⟨member, hmember, hdecl⟩ := List.mem_filterMap.mp hd
      obtain ⟨method, hmethod, rfl⟩ := Option.map_eq_some_iff.mp hdecl
      have hfound : method.declaredName = filter := beq_iff_eq.mp hname
      exact ⟨type, member, method, rfl, hmember, List.mem_of_find?_eq_some hmethod, rfl, hfound ▸ hfilter⟩

theorem isTidy_of_declarations (h : declarations source filter = .ok ds) : ∀ d ∈ ds, d.IsTidy := by
  intro d hd
  cases hfile : parse source with
  | error e =>
    by_cases hfilter : filter = ""
    · subst hfilter
      obtain rfl : [] = ds := Except.ok.inj h
      cases hd
    · unfold declarations at h
      rw [if_neg (by simpa using hfilter), hfile] at h
      cases h
  | ok file =>
    obtain ⟨type, member, method, htype, hmember, hmethod, rfl, hname⟩ := exists_member hfile h hd
    have hsound := isSound_of_parse hfile
    have hmem := List.mem_of_head? htype
    obtain ⟨hreaches, hkind⟩ := reaches_of_mem_types hfile hmem
    have hmsound := (reaches_member hfile hmem hmember).isSound hsound
    have howner := tidy_typeName (hreaches.isSound hsound) hkind
    exact isTidy_declarationOf howner hmsound (hmsound.of_mem hmethod) hname

/-- Each declaration prints one line: its only blanks are single spaces, it neither begins nor ends with
one, and it ends in a semicolon. -/
theorem render_declarations (h : declarations source filter = .ok ds) : ∀ d ∈ ds,
    (∀ c ∈ d.render.toList, isBlank c → c = ' ') ∧ ¬[' ', ' '] <:+: d.render.toList ∧
    d.render.toList.head? ≠ some ' ' ∧ d.render.toList.getLast? = some ';' := by
  intro d hd
  obtain ⟨cs, hline, htidy⟩ := (isTidy_of_declarations h d hd).render
  refine ⟨htidy.eq_space, htidy.not_spaces, fun hspace => ?_, by simp [hline]⟩
  exact htidy.tight.1 ' ' hspace (by decide)

end

def wideMethod : String :=
  "class A \x7b\n @X(\n\"a\t \x85b\" )\n\tpublic  // first\n\tstatic\r\n < T\n extends  B >\n List\n<T>  f (\n" ++
  "  final\n int x ,\n\n B ...\ny )\n throws\n  E ,\n\x0bF ; \x7d"

theorem render_declarations_wideMethod : ∃ ds, declarations wideMethod "f" = .ok ds ∧
    ds.map (·.render) =
      ["@X( \"a b\" ) public // first static <T extends B> List <T> f(final int x,B ... y) throws E, F;"] ∧
    ∀ d ∈ ds, (∀ c ∈ d.render.toList, isBlank c → c = ' ') ∧ ¬[' ', ' '] <:+: d.render.toList ∧
      d.render.toList.head? ≠ some ' ' ∧ d.render.toList.getLast? = some ';' := by
  have hlines : (declarations wideMethod "f").toOption.map (·.map (·.render)) = some
      ["@X( \"a b\" ) public // first static <T extends B> List <T> f(final int x,B ... y) throws E, F;"] := by
    decide +kernel
  cases h : declarations wideMethod "f" with
  | error e =>
    rw [h] at hlines
    cases hlines
  | ok ds =>
    rw [h] at hlines
    exact ⟨ds, rfl, Option.some.inj hlines, render_declarations h⟩

end Java

end ClassLocator

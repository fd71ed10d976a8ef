import ClassLocator.Proofs.Java.Alike
import ClassLocator.Proofs.Java.Between
import ClassLocator.Proofs.Java.Elements
import ClassLocator.Proofs.Java.Uncommented

namespace ClassLocator

open List (Forall₂)

/-- Declarations of one name whose parts are related one by one. -/
structure Declaration.Related (S : String → String → Prop) (d e : Declaration) : Prop where
  owner : d.owner = e.owner
  modifiers : Forall₂ S d.modifiers e.modifiers
  typeParameters : Forall₂ S d.typeParameters e.typeParameters
  result : S d.result e.result
  name : d.name = e.name
  parameters : Forall₂ S d.parameters e.parameters
  thrown : Forall₂ S d.thrown e.thrown
  role : d.role = e.role

theorem Declaration.Related.eq {d e : Declaration} (h : d.Related (· = ·) e) : d = e := by
  obtain ⟨howner, hmodifiers, htypeParameters, hresult, hname, hparameters, hthrown, hrole⟩ := h
  simp only [List.forall₂_eq_eq_eq] at hmodifiers htypeParameters hparameters hthrown
  cases d
  cases e
  simp_all

namespace Java

open Lexer (lex respelled piecesOf Same)

/-- A relation of trees that tells the constructs and words of one by the other, and relates the lines that
stand in declarations. -/
structure Carries (S : String → String → Prop) (R : Source → Source → Prop) : Prop where
  empty : S "" ""
  construct {x y : Source} (h : R x y) : x.construct? = y.construct?
  children {x y : Source} (h : R x y) : Forall₂ R x.children y.children
  token {s t : Token} (h : R (.leaf s) (.leaf t)) : s.kind = t.kind ∧ s.text = t.text
  line {x y : Source} (h : R x y) (hx : isOneOf partConstructs x) : S x.line y.line

section

variable {S : String → String → Prop} {R : Source → Source → Prop} {x y member member' : Source}
  {xs ys : List Source} {c d : Construct} {ds path : List Construct} {owner filter : String}

theorem option_rel_find? {p : Source → Bool} (hp : ∀ x y, R x y → p x = p y) (h : Forall₂ R xs ys) :
    Option.Rel (fun x y => R x y ∧ p x) (xs.find? p) (ys.find? p) := by
  induction h with
  | nil => exact .none
  | @cons x y _ _ hxy _ ih =>
    rw [List.find?_cons, List.find?_cons, ← hp x y hxy]
    cases hx : p x with
    | true => exact .some ⟨hxy, hx⟩
    | false => exact ih

theorem rel_map_getD {α : Type} {T : α → α → Prop} {o o' : Option Source} {f : Source → α} {z : α}
    (h : Option.Rel R o o') (hf : ∀ x y, R x y → T (f x) (f y)) (hz : T z z) :
    T ((o.map f).getD z) ((o'.map f).getD z) := by
  cases h with
  | some h => exact hf _ _ h
  | none => exact hz

theorem findSome?_eq_of_rel {α : Type} {f : Source → Option α} (hf : ∀ x y, R x y → f x = f y)
    (h : Forall₂ R xs ys) : xs.findSome? f = ys.findSome? f := by
  induction h with
  | nil => rfl
  | cons hxy _ ih => rw [List.findSome?_cons, List.findSome?_cons, hf _ _ hxy, ih]

theorem forall₂_map_filter {p : Source → Bool} {f : Source → String} (hp : ∀ x y, R x y → p x = p y)
    (hf : ∀ x y, R x y → p x → S (f x) (f y)) (h : Forall₂ R xs ys) :
    Forall₂ S ((xs.filter p).map f) ((ys.filter p).map f) := by
  induction h with
  | nil => exact .nil
  | @cons x y _ _ hxy _ ih =>
    rw [List.filter_cons, List.filter_cons, ← hp x y hxy]
    split
    · rename_i hx
      exact .cons (hf x y hxy hx) ih
    · exact ih

namespace Carries

theorem isOneOf_eq (hR : Carries S R) (ds : List Construct) (x y : Source) (h : R x y) :
    isOneOf ds x = isOneOf ds y := by
  rw [isOneOf, isOneOf, hR.construct h]

theorem is_eq (hR : Carries S R) (c : Construct) (x y : Source) (h : R x y) :
    Source.is c x = Source.is c y := by
  rw [Source.is, Source.is, hR.construct h]

theorem filter_isOneOf (hR : Carries S R) (h : Forall₂ R xs ys) :
    Forall₂ R (xs.filter (isOneOf ds)) (ys.filter (isOneOf ds)) :=
  List.rel_filter (fun x y hxy => Bool.eq_iff_iff.mp (hR.isOneOf_eq ds x y hxy)) h

theorem filter_is (hR : Carries S R) (h : Forall₂ R xs ys) :
    Forall₂ R (xs.filter (Source.is c)) (ys.filter (Source.is c)) :=
  List.rel_filter (fun x y hxy => Bool.eq_iff_iff.mp (hR.is_eq c x y hxy)) h

theorem childrenOf (hR : Carries S R) {p : Source → Bool} (hp : ∀ x y, R x y → p x = p y) (h : R x y) :
    Forall₂ R (((x.children.find? p).map (·.children)).getD [])
      (((y.children.find? p).map (·.children)).getD []) :=
  rel_map_getD (option_rel_find? hp (hR.children h)) (fun _ _ h => hR.children h.1) .nil

theorem types (hR : Carries S R) (h : R x y) :
    Forall₂ R (topLevelTypes.within path x) (topLevelTypes.within path y) := by
  induction path generalizing x y with
  | nil => exact hR.filter_isOneOf (hR.children h)
  | cons c path ih => exact List.rel_flatMap (hR.filter_is (hR.children h)) fun x y hxy => ih hxy

theorem members (hR : Carries S R) (h : R x y) : Forall₂ R (members x) (members y) := by
  have hbody := hR.childrenOf (hR.isOneOf_eq bodyConstructs) h
  refine hR.filter_isOneOf (List.rel_flatMap hbody fun x y hxy => ?_)
  rw [hR.is_eq .enumMembers x y hxy]
  split
  · exact hR.children hxy
  · exact .cons hxy .nil

theorem lines (hR : Carries S R) (hds : ds ⊆ partConstructs) (h : R x y) :
    Forall₂ S (((((x.child? c).map (·.children)).getD []).filter (isOneOf ds)).map (·.line))
      (((((y.child? c).map (·.children)).getD []).filter (isOneOf ds)).map (·.line)) := by
  have hchildren := hR.childrenOf (hR.is_eq c) h
  refine forall₂_map_filter (hR.isOneOf_eq ds) (fun x y hxy hx => hR.line hxy ?_) hchildren
  exact isOneOf_of_subset hds hx

theorem linesOf (hR : Carries S R) (hd : d ∈ partConstructs) (h : R x y) :
    Forall₂ S (linesOf c d x) (linesOf c d y) := by
  rw [Java.linesOf, Java.linesOf, Source.is_eq_isOneOf]
  exact hR.lines (by simpa using hd) h

theorem result (hR : Carries S R) (h : R x y) : S (((x.child? .plainType).map (·.line)).getD "")
    (((y.child? .plainType).map (·.line)).getD "") := by
  refine rel_map_getD (option_rel_find? (hR.is_eq .plainType) (hR.children h)) (fun u v huv => ?_) hR.empty
  obtain ⟨huv, hu⟩ := huv
  rw [Source.is_eq_isOneOf] at hu
  exact hR.line huv (isOneOf_of_subset (by decide) hu)

theorem leaf_or_node (hR : Carries S R) (h : R x y) :
    (∃ s t, x = .leaf s ∧ y = .leaf t ∧ s.kind = t.kind ∧ s.text = t.text) ∨
      ∃ c d xs ys, x = .node c xs ∧ y = .node d ys := by
  have hconstruct := hR.construct h
  cases x with
  | leaf s =>
    cases y with
    | leaf t => exact .inl ⟨s, t, rfl, rfl, hR.token h⟩
    | node d ys => cases hconstruct
  | node c xs =>
    cases y with
    | leaf t => cases hconstruct
    | node d ys => exact .inr ⟨c, d, xs, ys, rfl, rfl⟩

theorem declaredName (hR : Carries S R) (h : R x y) : x.declaredName = y.declaredName := by
  refine congrArg (·.getD "") (findSome?_eq_of_rel (fun x y hxy => ?_) (hR.children h))
  rcases hR.leaf_or_node hxy with ⟨s, t, rfl, rfl, hkind, htext⟩ | ⟨c, d, xs, ys, rfl, rfl⟩
  · simp only [hkind, htext]
  · rfl

theorem typeName (hR : Carries S R) (h : R x y) : typeName x = typeName y := by
  have hchildren := hR.children h
  rw [Java.typeName, Java.typeName]
  generalize x.children = xs at hchildren ⊢
  generalize y.children = ys at hchildren ⊢
  cases hchildren with
  | nil => rfl
  | cons _ hrest =>
    cases hrest with
    | nil => rfl
    | cons hxy _ =>
      rcases hR.leaf_or_node hxy with ⟨s, t, rfl, rfl, -, htext⟩ | ⟨c, d, xs, ys, rfl, rfl⟩
      · exact htext
      · rfl

theorem bareDeclarationOf (hR : Carries S R) (hmember : R member member') (h : R x y) :
    (bareDeclarationOf owner member x).Related S (bareDeclarationOf owner member' y) where
  owner := rfl
  modifiers := hR.linesOf (by decide) hmember
  typeParameters := hR.linesOf (by decide) h
  result := hR.result h
  name := hR.declaredName h
  parameters := hR.lines (by decide) h
  thrown := hR.linesOf (by decide) h
  role := by
    rw [Java.bareDeclarationOf, Java.bareDeclarationOf, declarationOf, declarationOf,
      hR.is_eq .constructor x y h]

end Carries

def bareDeclaration? (owner : String) (member : Source) : Option Declaration :=
  (member.children.find? (isOneOf methodConstructs)).map (bareDeclarationOf owner member)

def bareDeclarations (file : Source) (filter : String) : List Declaration :=
  ((topLevelTypes file).head?.map fun type =>
    ((members type).filterMap (bareDeclaration? (typeName type))).filter (·.name == filter)).getD []

theorem Carries.bareDeclaration? (hR : Carries S R) (h : R member member') : Option.Rel (Declaration.Related S)
    (bareDeclaration? owner member) (bareDeclaration? owner member') := by
  have hfound := option_rel_find? (hR.isOneOf_eq methodConstructs) (hR.children h)
  rw [Java.bareDeclaration?, Java.bareDeclaration?]
  generalize member.children.find? (isOneOf methodConstructs) = o at hfound ⊢
  generalize member'.children.find? (isOneOf methodConstructs) = o' at hfound ⊢
  cases hfound with
  | none => exact .none
  | some hmethod => exact .some (hR.bareDeclarationOf h hmethod.1)

theorem Carries.bareDeclarations (hR : Carries S R) (h : R x y) :
    Forall₂ (Declaration.Related S) (bareDeclarations x filter) (bareDeclarations y filter) := by
  have htypes : Forall₂ R (topLevelTypes x) (topLevelTypes y) := hR.types h
  rw [Java.bareDeclarations, Java.bareDeclarations]
  generalize topLevelTypes x = types at htypes ⊢
  generalize topLevelTypes y = types' at htypes ⊢
  cases htypes with
  | nil => exact .nil
  | @cons type type' _ _ htype _ =>
    have hname : Java.typeName type = Java.typeName type' := hR.typeName htype
    simp only [List.head?_cons, Option.map_some, Option.getD_some, hname]
    refine List.rel_filter (fun d e hde => ?_) ?_
    · show d.name == filter ↔ e.name == filter
      rw [hde.name]
    · exact List.rel_filterMap (fun member member' hm => hR.bareDeclaration? hm) (hR.members htype)

end

theorem map_withoutComments {source filter : String} {file : Source} {ds : List Declaration}
    (hfilter : filter ≠ "") (hfile : parse source = .ok file) (h : declarations source filter = .ok ds) :
    ds.map Declaration.withoutComments = bareDeclarations file filter := by
  have hsound := isSound_of_parse hfile
  rw [declarations_of_types hfilter hfile] at h
  obtain rfl := Except.ok.inj h
  rw [bareDeclarations]
  cases htypes : topLevelTypes file with
  | nil => rfl
  | cons type types =>
    have htype : type ∈ topLevelTypes file := htypes ▸ List.mem_cons_self
    have hmembers : ∀ member ∈ members type,
        (declaration? (typeName type) member).map Declaration.withoutComments =
          bareDeclaration? (typeName type) member := by
      intro member hmember
      have hmsound := (reaches_member hfile htype hmember).isSound hsound
      have hmethod : declaration? (typeName type) member = (member.children.find? (isOneOf methodConstructs)).map
          (declarationOf (typeName type) member) := rfl
      rw [hmethod, bareDeclaration?]
      cases hfound : member.children.find? (isOneOf methodConstructs) with
      | none => rfl
      | some method =>
        have hsoundMethod := hmsound.of_mem (List.mem_of_find?_eq_some hfound)
        exact congrArg some (withoutComments_declarationOf _ hmsound hsoundMethod)
    simp only [List.head?_cons, Option.map_some, Option.getD_some]
    rw [← List.filterMap_congr hmembers, ← List.map_filterMap, List.filter_map]
    rfl

structure AlikeBut (t : Token) (x y : Token) : Prop where
  kind : x.kind = y.kind
  text : x.text = y.text
  isGlued : x.isGlued = y.isGlued
  lead : x ≠ t → x.lead = y.lead

theorem respects_alikeBut (t : Token) : Rule.Respects (AlikeBut t) where
  kind := AlikeBut.kind
  text := AlikeBut.text
  isGlued := AlikeBut.isGlued

section

variable {t : Token} {xs ys : List Token}

theorem children_alike {R : Token → Token → Prop} {x y : Source} (h : Tree.Alike R x y) :
    Forall₂ (Tree.Alike R) x.children y.children := by
  cases h with
  | leaf => exact .nil
  | node h => exact h

theorem construct?_alike {R : Token → Token → Prop} {x y : Source} (h : Tree.Alike R x y) :
    x.construct? = y.construct? := by
  cases h with
  | leaf => rfl
  | node => rfl

theorem AlikeBut.of_leaf {s s' : Token} (h : Tree.Alike (ν := Construct) (AlikeBut t) (.leaf s) (.leaf s')) :
    s.kind = s'.kind ∧ s.text = s'.text := by
  cases h with
  | leaf h => exact ⟨h.kind, h.text⟩

theorem carries_alike (t : Token) : Carries (fun _ _ => True) (Tree.Alike (AlikeBut t)) where
  empty := trivial
  construct := construct?_alike
  children := children_alike
  token := AlikeBut.of_leaf
  line _ _ := trivial

theorem map_text_eq (h : Forall₂ (AlikeBut t) xs ys) (ht : t ∉ xs) :
    xs.map (fun s => s.leadText ++ s.text) = ys.map fun s => s.leadText ++ s.text := by
  induction h with
  | nil => rfl
  | cons hxy _ ih =>
    simp only [List.mem_cons, not_or] at ht
    rw [List.map_cons, List.map_cons, Token.leadText, Token.leadText, hxy.lead (Ne.symm ht.1), hxy.text,
      ih ht.2]

/-- Trees that are alike have one text where nothing that is different stands between their tokens. -/
theorem text_eq_of_alike {x y : Source} (h : Tree.Alike (AlikeBut t) x y) (ht : t ∉ x.tokens.tail) :
    x.text = y.text := by
  have htokens := h.tokens
  rw [Tree.text, Tree.text]
  generalize x.tokens = xs at htokens ht ⊢
  generalize y.tokens = ys at htokens ⊢
  cases htokens with
  | nil => rfl
  | cons hfirst hrest =>
    simp only [List.tail_cons] at ht
    simp only [hfirst.text, map_text_eq hrest ht]

theorem carries_standsFree (t : Token) :
    Carries (· = ·) fun x y => StandsFree t x ∧ Tree.Alike (AlikeBut t) x y where
  empty := rfl
  construct h := construct?_alike h.2
  children h := (List.forall₂_and_left _ _).mpr ⟨(standsFree_iff.mp h.1).2, children_alike h.2⟩
  token h := AlikeBut.of_leaf h.2
  line h hx := congrArg Text.squeeze (text_eq_of_alike h.2 ((standsFree_iff.mp h.1).1 hx))

end

theorem parse_alike {source source' : String} {file : Source} {R : Token → Token → Prop}
    (hR : Rule.Respects R) (h : Forall₂ R (lex source) (lex source')) (hfile : parse source = .ok file) :
    ∃ file', parse source' = .ok file' ∧ Tree.Alike R file file' := by
  have hread : Rule.Outcome.Alike R (readFile (lex source)) (readFile (lex source')) := by
    rw [readFile, readFile, h.length_eq]
    exact Rule.read_alike hR h .nil
  unfold parse at hfile ⊢
  generalize readFile (lex source) = o at hfile hread
  generalize readFile (lex source') = o' at hread ⊢
  cases hread with
  | refused => cases hfile
  | taken _ htrees =>
    cases htrees with
    | nil => cases hfile
    | cons htree _ =>
      obtain rfl := Except.ok.inj hfile
      exact ⟨_, rfl, htree⟩

theorem eq_nil_of_ending {source : String} {ts us : List Token} {t : Token} (hlex : lex source = ts ++ t :: us)
    (ht : t.kind = .ending) : us = [] := by
  -- The pieces in front of the last one are sound, and the ending is not.
  obtain ⟨front, hpieces, hsound⟩ := (Lexer.lexed_lex source).1.exists_front
  rcases List.eq_nil_or_concat' us with rfl | ⟨us, u, rfl⟩
  · rfl
  · rw [hlex, Lexer.piecesOf_append, Lexer.piecesOf_cons, Lexer.piecesOf_append, Lexer.piecesOf_cons] at hpieces
    have hconcat : piecesOf ts ++ (t.lead.map .gap ++ .token t.kind t.text ::
        (piecesOf us ++ u.lead.map .gap)) ++ [.token u.kind u.text] = front ++ [.ending] := by
      simpa [Lexer.piecesOf] using hpieces
    have hfront := (List.append_inj' hconcat rfl).1
    have hending := hsound (.token t.kind t.text) (by simp [← hfront])
    exact absurd ht hending.ne_ending

theorem kind_mem_of_parse {source : String} {file : Source} (hfile : parse source = .ok file) :
    ∀ x ∈ lex source, x.kind ∈ .ending :: knownKinds := by
  obtain ⟨hnode, hconforms, rest, htokens⟩ := of_parse hfile
  cases file with
  | leaf token => cases hnode
  | node c cs =>
    obtain rfl : c = .file := Option.some.inj hnode
    obtain ⟨items, last, hitems, hlast, rfl⟩ := Rule.fits_both_iff.mp hconforms
    obtain ⟨t, ⟨hkind, -⟩, rfl⟩ := Rule.fits_token_iff.mp hlast
    rw [Tree.tokens, Tree.tokensOf_append] at htokens
    have hlex : lex source = Tree.tokensOf items ++ t :: rest := by
      simpa [Tree.tokensOf, Tree.tokens] using htokens
    obtain rfl := eq_nil_of_ending hlex hkind
    have hknown := Rule.Fits.kind_mem (fun d hd => ⟨d.kinds_subset hd, fun _ => Construct.ne_file_of_mem_refs⟩)
      (List.nil_subset _) (by simp [Rule.refs]) hitems
    rw [hlex]
    refine List.forall_mem_append.mpr ⟨fun x hx => List.mem_cons_of_mem _ (hknown x hx), ?_⟩
    simp [hkind]

theorem alikeBut_of_same {ts us ys : List Token} {t : Token} {lead : List Trivia}
    (hglued : lead.isEmpty = t.isGlued) (h : Forall₂ Same (ts ++ { t with lead } :: us) ys) :
    Forall₂ (AlikeBut t) (ts ++ t :: us) ys := by
  have hsame (x y : Token) (hxy : Same x y) : AlikeBut t x y :=
    ⟨hxy.kind, hxy.text, by rw [Token.isGlued, Token.isGlued, hxy.lead], fun _ => hxy.lead⟩
  induction ts generalizing ys with
  | nil =>
    cases h with
    | @cons _ y _ _ ht hus =>
      have htoken : AlikeBut t t y :=
        ⟨ht.kind, ht.text, by rw [← hglued, Token.isGlued, ← ht.lead], fun hne => absurd rfl hne⟩
      exact .cons htoken (hus.imp hsame)
  | cons x ts ih =>
    cases h with
    | cons hx hrest => exact .cons (hsame _ _ hx) (ih hrest)

/-- The text with a space in place of a comment can be read as well, as a tree that is alike. -/
theorem exists_parse_spaced {source s : String} {file : Source} {ts us : List Token} {t : Token}
    {a b : List Trivia} (hfile : parse source = .ok file) (hlex : lex source = ts ++ t :: us)
    (hlead : t.lead = a ++ .comment s :: b) : ∃ file',
      parse (respelled source (ts ++ { t with lead := a ++ .blanks " " :: b } :: us)) = .ok file' ∧
        Tree.Alike (AlikeBut t) file file' := by
  have hknown : ∀ x ∈ ts, x.kind ≠ .unknown := by
    intro x hx hk
    have hkinds := kind_mem_of_parse hfile x (hlex ▸ List.mem_append_left _ hx)
    rw [hk] at hkinds
    exact absurd hkinds (by decide)
  obtain ⟨lead, hne, hpieces⟩ := Lexer.piecesOf_lex_spaced hlex hlead hknown
  have hglued : lead.isEmpty = t.isGlued := by
    rw [Token.isGlued, hlead, List.isEmpty_eq_false_iff.mpr hne]
    simp
  have hsame := alikeBut_of_same hglued (Lexer.same_of_piecesOf hpieces.symm)
  rw [← hlex] at hsame
  exact parse_alike (respects_alikeBut t) hsame hfile

theorem exists_declarations {source : String} {file : Source} (hfile : parse source = .ok file)
    (filter : String) : ∃ ds, declarations source filter = .ok ds := by
  by_cases hfilter : filter = ""
  · subst hfilter
    exact ⟨[], rfl⟩
  · exact ⟨_, declarations_of_types hfilter hfile⟩

/-- Of each declaration, the elements that are no comments are the modifiers and the thrown types of its
method, each once and in order. If a space takes the place of any comment in the text, then, with comments
left out, there are as many declarations as before, each with lists of the same lengths. They are even equal
if the comment stood in front of a modifier or in a throws clause, or if it stood in none of the parts that
are printed. -/
theorem declarations_comments {source filter : String} {file : Source} (hfile : parse source = .ok file) :
    ∃ ds, declarations source filter = .ok ds ∧
      (∀ d ∈ ds, ∃ type member method, (topLevelTypes file).head? = some type ∧ member ∈ members type ∧
        method ∈ member.children ∧ d = declarationOf (typeName type) member method ∧
        d.withoutComments = bareDeclarationOf (typeName type) member method) ∧
      ∀ ts us t a b s, lex source = ts ++ t :: us → t.lead = a ++ .comment s :: b →
        ∃ ds', declarations (respelled source (ts ++ { t with lead := a ++ .blanks " " :: b } :: us)) filter =
            .ok ds' ∧
          Forall₂ (Declaration.Related fun _ _ => True) (ds.map Declaration.withoutComments)
            (ds'.map Declaration.withoutComments) ∧
          (t ∈ elementStarts file ∨ StandsFree t file →
            ds'.map Declaration.withoutComments = ds.map Declaration.withoutComments) := by
  obtain ⟨ds, hds⟩ := exists_declarations hfile filter
  refine ⟨ds, hds, fun d hd => ?_, fun ts us t a b s hlex hlead => ?_⟩
  · obtain ⟨type, member, method, htype, hmember, hmethod, rfl, -⟩ := exists_member hfile hds hd
    have hreaches := reaches_member hfile (List.mem_of_head? htype) hmember
    have hmsound := hreaches.isSound (isSound_of_parse hfile)
    exact ⟨type, member, method, htype, hmember, hmethod, rfl,
      withoutComments_declarationOf _ hmsound (hmsound.of_mem hmethod)⟩
  obtain ⟨file', hfile', halike⟩ := exists_parse_spaced hfile hlex hlead
  obtain ⟨ds', hds'⟩ := exists_declarations hfile' filter
  refine ⟨ds', hds', ?_⟩
  by_cases hfilter : filter = ""
  · subst hfilter
    obtain rfl : [] = ds := Except.ok.inj hds
    obtain rfl : [] = ds' := Except.ok.inj hds'
    exact ⟨.nil, fun _ => rfl⟩
  · rw [map_withoutComments hfilter hfile hds, map_withoutComments hfilter hfile' hds']
    refine ⟨(carries_alike t).bareDeclarations halike, fun hplace => ?_⟩
    have hfree : StandsFree t file := hplace.elim (standsFree_of_mem_elementStarts hfile) id
    have heq : Forall₂ (· = ·) (bareDeclarations file filter) (bareDeclarations file' filter) :=
      ((carries_standsFree t).bareDeclarations ⟨hfree, halike⟩).imp fun _ _ h => h.eq
    rw [List.forall₂_eq_eq_eq] at heq
    exact heq.symm

def commentedMethod : String :=
  "class A \x7b public /* x */ static void f() throws // y\n E \x7b\x7d \x7d"

def spacedMethod : String :=
  "class A \x7b public   static void f() throws // y\n E \x7b\x7d \x7d"

def commentedToken : Token where
  kind := .word
  text := "static"
  lead := [.blanks " ", .comment "/* x */", .blanks " "]
  after := ⟨1, 25⟩

theorem declarations_comments_spacedMethod : ∃ file ds ds', parse commentedMethod = .ok file ∧
    commentedToken ∈ elementStarts file ∧ declarations commentedMethod "f" = .ok ds ∧
    declarations spacedMethod "f" = .ok ds' ∧
    ds'.map Declaration.withoutComments = ds.map Declaration.withoutComments := by
  have hstarts : ((parse commentedMethod).toOption.map fun file =>
      (elementStarts file).contains commentedToken) = some true := by
    decide +kernel
  have hlex : lex commentedMethod = (lex commentedMethod).take 4 ++ commentedToken ::
      (lex commentedMethod).drop 5 := by
    decide +kernel
  have hspaced : respelled commentedMethod ((lex commentedMethod).take 4 ++
      { commentedToken with lead := [.blanks " "] ++ .blanks " " :: [.blanks " "] } ::
        (lex commentedMethod).drop 5) = spacedMethod := by
    decide +kernel
  cases hfile : parse commentedMethod with
  | error e =>
    rw [hfile] at hstarts
    cases hstarts
  | ok file =>
    rw [hfile] at hstarts
    have hmem : commentedToken ∈ elementStarts file := List.contains_iff_mem.mp (Option.some.inj hstarts)
    obtain ⟨ds, hds, -, htwo⟩ := @declarations_comments _ "f" _ hfile
    obtain ⟨ds', hds', -, hsame⟩ := htwo _ _ _ [.blanks " "] [.blanks " "] "/* x */" hlex rfl
    rw [hspaced] at hds'
    exact ⟨file, ds, ds', rfl, hmem, hds, hds', hsame (.inl hmem)⟩

/-- Comments stand among the modifiers and thrown types, and are gone when a space takes their place. -/
theorem declarations_hold_comments :
    (declarations commentedMethod "f").toOption.map (·.map fun d => (d.modifiers, d.thrown)) =
      some [(["public", "/* x */", "static"], ["// y", "E"])] ∧
    (declarations spacedMethod "f").toOption.map (·.map fun d => (d.modifiers, d.thrown)) =
      some [(["public", "static"], ["// y", "E"])] := by
  decide +kernel

end Java

end ClassLocator

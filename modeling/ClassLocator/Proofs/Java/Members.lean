import ClassLocator.Proofs.Java.Grammar
import Mathlib.Data.List.Flatten

namespace ClassLocator.Java

open Grammar (rules)

/-- A part of a tree, with the nodes around it, the nearest one first. -/
structure Part where
  around : List Source
  tree : Source

namespace Part

mutual

def within (around : List Source) : Source → List Part
  | .leaf token => [⟨around, .leaf token⟩]
  | .node c cs => ⟨around, .node c cs⟩ :: withinAll (.node c cs :: around) cs

def withinAll (around : List Source) : List Source → List Part
  | [] => []
  | t :: ts => within around t ++ withinAll around ts

end

def parent (p : Part) : Source := p.around.headD p.tree

def fileConstructs : List Construct :=
  [.file, .fileItem, .statement, .statementDeclaration, .declaration]

def isTopLevel (p : Part) : Bool :=
  isOneOf typeConstructs p.tree && p.around.all (isOneOf fileConstructs)

def isFree (cs : List Construct) (p : Part) : Bool :=
  isOneOf cs p.tree && p.around.all (!isOneOf bodyConstructs ·)

end Part

/-- The first type of a file that nothing else of the file stands around. -/
def firstType? (file : Source) : Option Source :=
  ((Part.within [] file).find? Part.isTopLevel).map (·.tree)

/-- What stands directly in the body of a type, of some constructs: no other body is in between. -/
def declaredIn (cs : List Construct) (type : Source) : List Part :=
  ((type.children.find? (isOneOf bodyConstructs)).map fun body =>
    (Part.withinAll [] body.children).filter (Part.isFree cs)).getD []

def methodConstructs : List Construct := [.method, .constructor]

namespace Part

theorem withinAll_eq (around : List Source) (ts : List Source) :
    withinAll around ts = ts.flatMap (within around) := by
  induction ts with
  | nil => rfl
  | cons t ts ih => rw [withinAll, ih, List.flatMap_cons]

theorem filter_withinAll (f : Part → Bool) (around : List Source) (ts : List Source) :
    (withinAll around ts).filter f = ts.flatMap fun t => (within around t).filter f := by
  rw [withinAll_eq, List.filter_flatMap]

variable {around : List Source} {c : Construct} {cs : List Source} {t : Source}

theorem suffix_of_mem_within {p : Part} (h : p ∈ within around t) : around <:+ p.around := by
  induction t using Tree.induction generalizing around with
  | leaf token =>
    simp only [within, List.mem_singleton] at h
    exact h ▸ List.suffix_rfl
  | node c cs ih =>
    simp only [within, withinAll_eq, List.mem_cons, List.mem_flatMap] at h
    obtain rfl | ⟨t, ht, hp⟩ := h
    · exact List.suffix_rfl
    · exact (List.suffix_cons _ _).trans (ih t ht hp)

theorem conforms_of_mem_within {p : Part} (ht : t.Conforms) (h : p ∈ within around t) :
    p.tree.Conforms := by
  induction t using Tree.induction generalizing around with
  | leaf token =>
    simp only [within, List.mem_singleton] at h
    exact h ▸ ht
  | node c cs ih =>
    simp only [within, withinAll_eq, List.mem_cons, List.mem_flatMap] at h
    obtain rfl | ⟨t, htc, hp⟩ := h
    · exact ht
    · exact ih t htc (ht.of_mem htc) hp

section

variable {f : Source → Bool} {g : Source → Bool}

/-- No part of a tree passes if a node around the tree may not be around the parts that pass. -/
theorem filter_within_eq_nil {a : Source} (ha : a ∈ around) (hg : g a = false) :
    (within around t).filter (fun p => f p.tree && p.around.all g) = [] := by
  refine List.filter_eq_nil_iff.mpr fun p hp => ?_
  have hall : p.around.all g = false :=
    List.all_eq_false.mpr ⟨a, (suffix_of_mem_within hp).subset ha, by simp [hg]⟩
  simp [hall]

/-- Of a node that may not be around the parts that pass, the node itself passes or nothing does. -/
theorem filter_within_of_not (hg : g t = false) :
    (within around t).filter (fun p => f p.tree && p.around.all g) =
      if f t && around.all g then [⟨around, t⟩] else [] := by
  cases t with
  | leaf token => simp [within, List.filter_cons]
  | node c cs =>
    have hnil : (withinAll (.node c cs :: around) cs).filter (fun p => f p.tree && p.around.all g) = [] := by
      rw [filter_withinAll]
      exact List.flatMap_eq_nil_iff.mpr fun t _ => filter_within_eq_nil List.mem_cons_self hg
    rw [within, List.filter_cons, hnil]

theorem filter_within_of_passed (hf : f (.node c cs) = false) :
    (within around (.node c cs)).filter (fun p => f p.tree && p.around.all g) =
      cs.flatMap fun t => (within (.node c cs :: around) t).filter
        (fun p => f p.tree && p.around.all g) := by
  rw [within, List.filter_cons_of_neg (by simp [hf]), filter_withinAll]

end

end Part

theorem isOneOf_node {cs : List Construct} {c : Construct} {ts : List Source} :
    isOneOf cs (.node c ts) = cs.contains c := rfl

theorem flatMap_filter {α β : Type} (q : α → Bool) (f : α → List β) (as : List α) :
    (as.filter q).flatMap f = as.flatMap fun a => if q a then f a else [] := by
  induction as with
  | nil => rfl
  | cons a as ih =>
    rw [List.filter_cons, List.flatMap_cons]
    split
    · rw [List.flatMap_cons, ih]
    · rw [ih, List.nil_append]

def PathToTypes (c : Construct) (path : List Construct) : Prop :=
  ∀ (around cs : List Source), Source.Conforms (.node c cs) →
    around.all (isOneOf Part.fileConstructs) = true →
    ((Part.withinAll (.node c cs :: around) cs).filter Part.isTopLevel).map (·.tree) =
      topLevelTypes.within path (.node c cs)

section

variable {around cs : List Source} {c : Construct}

theorem all_fileConstructs (hc : c ∈ Part.fileConstructs)
    (h : around.all (isOneOf Part.fileConstructs) = true) :
    (Tree.node c cs :: around).all (isOneOf Part.fileConstructs) = true := by
  rw [List.all_cons, h, Bool.and_true, isOneOf_node]
  exact List.contains_iff_mem.mpr hc

theorem filter_isTopLevel_of_not {t : Source} (ht : isOneOf Part.fileConstructs t = false)
    (h : around.all (isOneOf Part.fileConstructs) = true) :
    ((Part.within around t).filter Part.isTopLevel).map (·.tree) =
      if isOneOf typeConstructs t then [t] else [] := by
  have hfilter : (Part.within around t).filter Part.isTopLevel = _ :=
    Part.filter_within_of_not (f := isOneOf typeConstructs) ht
  rw [hfilter, h, Bool.and_true]
  split
  · rfl
  · rfl

end

theorem pathToTypes_declaration : PathToTypes .declaration [] := by
  intro around cs hconforms haround
  have hrefs : ∀ e ∈ (rules .declaration).refs, e ∉ Part.fileConstructs := by decide
  rw [Part.filter_withinAll, List.map_flatMap, topLevelTypes.within, Source.children,
    ← List.flatMap_singleton' (cs.filter _), flatMap_filter]
  refine List.flatMap_congr fun t ht => ?_
  refine filter_isTopLevel_of_not ?_ (all_fileConstructs (by decide) haround)
  cases t with
  | leaf token => rfl
  | node e es => simpa [isOneOf_node] using hrefs e (hconforms.mem_refs ht)

theorem PathToTypes.cons {c d : Construct} {path : List Construct} (h : PathToTypes d path)
    (hc : c ∈ Part.fileConstructs)
    (hrefs : ∀ e ∈ (rules c).refs, e ∉ typeConstructs ∧ (e ∈ Part.fileConstructs → e = d)) :
    PathToTypes c (d :: path) := by
  intro around cs hconforms haround
  have hall : (Tree.node c cs :: around).all (isOneOf Part.fileConstructs) = true :=
    all_fileConstructs hc haround
  rw [Part.filter_withinAll, List.map_flatMap, topLevelTypes.within, Source.children, flatMap_filter]
  refine List.flatMap_congr fun t ht => ?_
  cases t with
  | leaf token => exact filter_isTopLevel_of_not rfl hall
  | node e es =>
    obtain ⟨htype, hfile⟩ := hrefs e (hconforms.mem_refs ht)
    have hnot : isOneOf typeConstructs (.node e es) = false := by simpa [isOneOf_node] using htype
    by_cases hed : e = d
    · subst hed
      have hpassed : (Part.within (.node c cs :: around) (.node e es)).filter Part.isTopLevel = _ :=
        Part.filter_within_of_passed (f := isOneOf typeConstructs) hnot
      rw [hpassed, if_pos (by simp [Source.is, Source.construct?])]
      rw [← h (.node c cs :: around) es (hconforms.of_mem ht) hall, Part.filter_withinAll]
      rfl
    · have hother : Source.is d (.node e es) = false := by simpa [Source.is, Source.construct?] using hed
      have houtside : isOneOf Part.fileConstructs (.node e es) = false := by
        simpa [isOneOf_node] using mt hfile hed
      rw [filter_isTopLevel_of_not houtside hall, hnot, hother]
      rfl

theorem pathToTypes_file :
    PathToTypes .file [.fileItem, .statement, .statementDeclaration, .declaration] :=
  (((pathToTypes_declaration.cons (by decide) (by decide)).cons (by decide) (by decide)).cons
    (by decide) (by decide)).cons (by decide) (by decide)

/-- The first of the types among the items of a file is its first type at all on that level. -/
theorem firstType?_eq {file : Source} (hfile : file.construct? = some .file) (h : file.Conforms) :
    firstType? file = (topLevelTypes file).head? := by
  obtain ⟨cs, rfl⟩ : ∃ cs, file = .node .file cs := by
    cases file with
    | leaf token => cases hfile
    | node c cs =>
      cases hfile
      exact ⟨cs, rfl⟩
  have hpassed : (Part.within [] (.node .file cs)).filter Part.isTopLevel = _ :=
    Part.filter_within_of_passed (f := isOneOf typeConstructs) rfl
  rw [firstType?, ← List.head?_filter, topLevelTypes, ← pathToTypes_file [] cs h rfl,
    Part.filter_withinAll, List.head?_map, hpassed]
  rfl

def memberLevels : List Construct :=
  methodConstructs ++ [.memberDeclaration, .interfaceMember, .enumMembers, .fileItem, .file]

def memberPlaces : List Construct :=
  [.file, .fileItem, .memberDeclaration, .interfaceMember, .enumMembers, .classBody, .interfaceBody,
    .annotationBody, .enumBody]

theorem mem_memberPlaces {c e : Construct} (he : e ∈ memberLevels) (h : e ∈ (rules c).refs) :
    c ∈ memberPlaces := by
  have hparents : ∀ e ∈ memberLevels, ∃ parents, e.parents? = some parents ∧
      parents ⊆ memberPlaces := by
    simp only [memberLevels, methodConstructs]
    decide
  obtain ⟨parents, hp, hsub⟩ := hparents e he
  exact hsub (c.mem_parents e h parents hp)

theorem not_isOneOf_memberLevels {c : Construct} {cs : List Source} {t : Source}
    (h : Source.Conforms (.node c cs)) (hc : c ∉ memberPlaces) (ht : t ∈ cs) :
    isOneOf memberLevels t = false := by
  cases t with
  | leaf token => rfl
  | node e es =>
    refine Bool.eq_false_iff.mpr fun he => hc ?_
    exact mem_memberPlaces (List.contains_iff_mem.mp he) (h.mem_refs ht)

theorem not_isOneOf_methodConstructs {t : Source} (h : isOneOf memberLevels t = false) :
    isOneOf methodConstructs t = false := by
  cases t with
  | leaf token => rfl
  | node c cs =>
    simp only [isOneOf_node, memberLevels, List.contains_eq_mem, decide_eq_false_iff_not,
      List.mem_append, not_or] at h ⊢
    exact h.1

section

variable {around cs : List Source} {c : Construct} {t : Source}

/-- No method is free within what methods do not stand in. -/
theorem filter_isFree_eq_nil (ht : t.Conforms) (hlevel : isOneOf memberLevels t = false) :
    (Part.within around t).filter (Part.isFree methodConstructs) = [] := by
  induction t using Tree.induction generalizing around with
  | leaf token => rfl
  | node c cs ih =>
    have hmethod := not_isOneOf_methodConstructs hlevel
    by_cases hbody : c ∈ bodyConstructs
    · have hnot : (!isOneOf bodyConstructs (.node c cs)) = false := by simpa [isOneOf_node] using hbody
      have h : (Part.within around (.node c cs)).filter (Part.isFree methodConstructs) = _ :=
        Part.filter_within_of_not (f := isOneOf methodConstructs) hnot
      rw [h, hmethod]
      rfl
    · have h : (Part.within around (.node c cs)).filter (Part.isFree methodConstructs) = _ :=
        Part.filter_within_of_passed (f := isOneOf methodConstructs) hmethod
      have hplaces : ∀ c ∈ memberPlaces, c ∈ bodyConstructs ∨ c ∈ memberLevels := by
        simp only [memberLevels, methodConstructs]
        decide
      have hc : c ∉ memberPlaces := by
        intro hc
        have hin : c ∈ memberLevels := (hplaces c hc).resolve_left hbody
        rw [isOneOf_node, List.contains_iff_mem.mpr hin] at hlevel
        cases hlevel
      rw [h]
      exact List.flatMap_eq_nil_iff.mpr fun t htc =>
        ih t htc (ht.of_mem htc) (not_isOneOf_memberLevels ht hc htc)

theorem filter_isFree_method (ht : t.Conforms) (hmethod : isOneOf methodConstructs t)
    (h : around.all (!isOneOf bodyConstructs ·)) :
    (Part.within around t).filter (Part.isFree methodConstructs) = [⟨around, t⟩] := by
  cases t with
  | leaf token => cases hmethod
  | node c cs =>
    have hc : c ∈ methodConstructs := List.contains_iff_mem.mp hmethod
    have houtside : ∀ c ∈ methodConstructs, c ∉ memberPlaces := by decide
    have hfree : Part.isFree methodConstructs ⟨around, .node c cs⟩ = true :=
      Bool.and_eq_true_iff.mpr ⟨hmethod, h⟩
    rw [Part.within, List.filter_cons_of_pos hfree, Part.filter_withinAll]
    refine congrArg (_ :: ·) (List.flatMap_eq_nil_iff.mpr fun t htc => ?_)
    exact filter_isFree_eq_nil (ht.of_mem htc) (not_isOneOf_memberLevels ht (houtside c hc) htc)

theorem filter_isFree_member (ht : Source.Conforms (.node c cs)) (hc : c ∈ memberConstructs)
    (h : around.all (!isOneOf bodyConstructs ·)) :
    (Part.within around (.node c cs)).filter (Part.isFree methodConstructs) =
      (cs.filter (isOneOf methodConstructs)).map (⟨.node c cs :: around, ·⟩) := by
  have hplain : ∀ c ∈ memberConstructs, c ∉ methodConstructs ∧ c ∉ bodyConstructs ∧
      ∀ e ∈ (rules c).refs, e ∈ memberLevels → e ∈ methodConstructs := by
    simp only [memberLevels, methodConstructs]
    decide
  obtain ⟨hmethod, hbody, hrefs⟩ := hplain c hc
  have hnot : isOneOf methodConstructs (.node c cs) = false := by simpa [isOneOf_node] using hmethod
  have hpassed : (Part.within around (.node c cs)).filter (Part.isFree methodConstructs) = _ :=
    Part.filter_within_of_passed (f := isOneOf methodConstructs) hnot
  have hall : (Tree.node c cs :: around).all (!isOneOf bodyConstructs ·) := by
    rw [List.all_cons, h, Bool.and_true]
    simpa [isOneOf_node] using hbody
  rw [hpassed, ← List.flatMap_singleton' (cs.filter _), flatMap_filter, List.map_flatMap]
  refine List.flatMap_congr fun t htc => ?_
  by_cases hm : isOneOf methodConstructs t
  · rw [if_pos hm]
    exact filter_isFree_method (ht.of_mem htc) hm hall
  · rw [if_neg hm]
    refine filter_isFree_eq_nil (ht.of_mem htc) ?_
    cases t with
    | leaf token => rfl
    | node e es =>
      refine Bool.eq_false_iff.mpr fun he => hm ?_
      exact List.contains_iff_mem.mpr (hrefs e (ht.mem_refs htc) (List.contains_iff_mem.mp he))

def EndsInOne (cs : List Source) : Prop :=
  ∃ front last, cs = front ++ [last] ∧ ∀ t ∈ front, isOneOf methodConstructs t = false

theorem EndsInOne.of_isSingle {rule : Rule Construct} (h : rule.Fits rules cs) (hr : rule.isSingle) :
    EndsInOne cs := by
  obtain ⟨t, rfl⟩ := h.exists_of_isSingle hr
  exact ⟨[], t, rfl, by simp⟩

theorem EndsInOne.of_modified {rule : Rule Construct} (hr : rule.isSingle)
    (h : (Rule.both (Grammar.opt (.ref .modifiers)) rule).Fits rules cs) : EndsInOne cs := by
  obtain ⟨front, rest, hfront, hrest, rfl⟩ := Rule.fits_both_iff.mp h
  obtain ⟨t, rfl⟩ := hrest.exists_of_isSingle hr
  refine ⟨front, t, rfl, ?_⟩
  cases Rule.fits_either_iff.mp hfront with
  | inl hmodifiers =>
    obtain ⟨ms, -, rfl⟩ := Rule.fits_ref_iff.mp hmodifiers
    simp only [List.mem_singleton, forall_eq]
    rfl
  | inr hempty =>
    rw [Rule.fits_empty_iff.mp hempty]
    simp

theorem endsInOne_memberDeclaration (h : Source.Conforms (.node .memberDeclaration cs)) :
    EndsInOne cs := by
  have hrule : Rule.Fits rules (.either _ (.either _ (.either _ _))) cs := h
  cases Rule.fits_either_iff.mp hrule with
  | inl h => exact .of_isSingle h rfl
  | inr h =>
    cases Rule.fits_either_iff.mp h with
    | inl h => exact .of_isSingle h rfl
    | inr h =>
      cases Rule.fits_either_iff.mp h with
      | inl h => exact .of_isSingle h rfl
      | inr h => exact .of_modified rfl h

theorem endsInOne_interfaceMember (h : Source.Conforms (.node .interfaceMember cs)) :
    EndsInOne cs := by
  have hrule : Rule.Fits rules (.either _ _) cs := h
  cases Rule.fits_either_iff.mp hrule with
  | inl h => exact .of_isSingle h rfl
  | inr h => exact .of_modified rfl h

/-- Only the last child of a member can be a method. -/
theorem filter_methods_member (ht : Source.Conforms (.node c cs)) (hc : c ∈ memberConstructs) :
    cs.filter (isOneOf methodConstructs) = (cs.find? (isOneOf methodConstructs)).toList := by
  have hends (h : EndsInOne cs) :
      cs.filter (isOneOf methodConstructs) = (cs.find? (isOneOf methodConstructs)).toList := by
    obtain ⟨front, last, rfl, hfront⟩ := h
    have hnil : front.filter (isOneOf methodConstructs) = [] :=
      List.filter_eq_nil_iff.mpr fun t htf => by simp [hfront t htf]
    have hnone : front.find? (isOneOf methodConstructs) = none :=
      List.find?_eq_none.mpr fun t htf => by simp [hfront t htf]
    rw [List.filter_append, hnil, List.find?_append, hnone]
    by_cases hm : isOneOf methodConstructs last <;> simp [hm]
  have hcases : c = .memberDeclaration ∨ c = .interfaceMember ∨ c = .annotationMember := by
    simpa [memberConstructs] using hc
  rcases hcases with rfl | rfl | rfl
  · exact hends (endsInOne_memberDeclaration ht)
  · exact hends (endsInOne_interfaceMember ht)
  · have hrefs : ∀ e ∈ (rules .annotationMember).refs, e ∉ methodConstructs := by decide
    have hnone : ∀ t ∈ cs, isOneOf methodConstructs t = false := by
      intro t htc
      cases t with
      | leaf token => rfl
      | node e es => simpa [isOneOf_node] using hrefs e (ht.mem_refs htc)
    rw [List.filter_eq_nil_iff.mpr fun t htc => by simp [hnone t htc],
      List.find?_eq_none.mpr fun t htc => by simp [hnone t htc]]
    rfl

theorem filterMap_declaration? {owner : String} (ht : Source.Conforms (.node c cs))
    (hc : c ∈ memberConstructs) (h : around.all (!isOneOf bodyConstructs ·)) :
    ((Part.within around (.node c cs)).filter (Part.isFree methodConstructs)).map
      (fun p => declarationOf owner p.parent p.tree) = (declaration? owner (.node c cs)).toList := by
  rw [filter_isFree_member ht hc h, filter_methods_member ht hc, List.map_map, declaration?,
    Option.toList_map]
  rfl

def heldMembers (t : Source) : List Source :=
  (if t.is .enumMembers then t.children else [t]).filter (isOneOf memberConstructs)

theorem map_filter_isFree_child {owner : String} (ht : t.Conforms)
    (hchild : ∀ e es, t = .node e es → e ∈ .enumMembers :: .enumConstant :: memberConstructs) :
    ((Part.within [] t).filter (Part.isFree methodConstructs)).map
      (fun p => declarationOf owner p.parent p.tree) =
        (heldMembers t).filterMap (declaration? owner) := by
  cases t with
  | leaf token => rfl
  | node e es =>
    obtain rfl | rfl | he : e = .enumMembers ∨ e = .enumConstant ∨ e ∈ memberConstructs := by
      simpa only [List.mem_cons] using hchild e es rfl
    · have hpassed : (Part.within [] (.node .enumMembers es)).filter (Part.isFree methodConstructs) = _ :=
        Part.filter_within_of_passed (f := isOneOf methodConstructs) rfl
      have hheld : heldMembers (.node .enumMembers es) = es.filter (isOneOf memberConstructs) := rfl
      rw [hpassed, hheld, List.map_flatMap, List.filterMap_eq_flatMap_toList, flatMap_filter]
      refine List.flatMap_congr fun t htc => ?_
      cases t with
      | leaf token => rfl
      | node d ds =>
        have hrefs : ∀ d ∈ (rules .enumMembers).refs, d = .memberDeclaration := by decide
        obtain rfl := hrefs d (ht.mem_refs htc)
        exact filterMap_declaration? (ht.of_mem htc) (by decide) rfl
    · have hnil : (Part.within [] (.node .enumConstant es)).filter (Part.isFree methodConstructs) = [] :=
        filter_isFree_eq_nil ht rfl
      rw [hnil]
      rfl
    · have hplain : ∀ e ∈ memberConstructs, e ≠ .enumMembers := by decide
      have hheld : heldMembers (.node e es) = [.node e es] := by
        have hnot : Source.is .enumMembers (.node e es) = false := by
          simpa [Source.is, Source.construct?] using hplain e he
        have hin : isOneOf memberConstructs (.node e es) := List.contains_iff_mem.mpr he
        rw [heldMembers, hnot, if_neg (by simp), List.filter_singleton, hin]
        rfl
      rw [filterMap_declaration? ht he rfl, hheld, List.filterMap_eq_flatMap_toList,
        List.flatMap_singleton]

theorem exists_of_isOneOf {cs : List Construct} (h : isOneOf cs t) : ∃ c ts, c ∈ cs ∧ t = .node c ts := by
  cases t with
  | leaf token => cases h
  | node c ts => exact ⟨c, ts, List.contains_iff_mem.mp h, rfl⟩

/-- The declarations of the members of a type are those of the methods that stand in its body. -/
theorem map_declaredIn {owner : String} (ht : t.Conforms) :
    (declaredIn methodConstructs t).map (fun p => declarationOf owner p.parent p.tree) =
      (members t).filterMap (declaration? owner) := by
  rw [declaredIn, members]
  cases hbody : t.children.find? (isOneOf bodyConstructs) with
  | none => rfl
  | some body =>
    obtain ⟨b, bs, hb, rfl⟩ := exists_of_isOneOf (List.find?_some hbody)
    have hconforms := ht.of_mem (List.mem_of_find?_eq_some hbody)
    have hrefs : ∀ b ∈ bodyConstructs, (rules b).refs ⊆ .enumMembers :: .enumConstant :: memberConstructs := by
      decide
    simp only [Option.map_some, Option.getD_some, Source.children]
    rw [Part.filter_withinAll, List.map_flatMap, List.filter_flatMap, List.filterMap_flatMap]
    refine List.flatMap_congr fun t htb => ?_
    refine map_filter_isFree_child (hconforms.of_mem htb) fun e es he => ?_
    exact hrefs b hb (hconforms.mem_refs (he ▸ htb))

theorem declaredIn_annotation (ht : Source.Conforms (.node .annotationDeclaration cs)) :
    declaredIn methodConstructs (.node .annotationDeclaration cs) = [] := by
  rw [declaredIn]
  cases hbody : cs.find? (isOneOf bodyConstructs) with
  | none =>
    rw [Source.children, hbody]
    rfl
  | some body =>
    obtain ⟨b, bs, hb, rfl⟩ := exists_of_isOneOf (List.find?_some hbody)
    have hmem := List.mem_of_find?_eq_some hbody
    have hconforms := ht.of_mem hmem
    have hown : ∀ b ∈ (rules .annotationDeclaration).refs, b = .annotationBody := by decide
    obtain rfl := hown b (ht.mem_refs hmem)
    rw [Source.children, hbody, Option.map_some, Option.getD_some, Source.children, Part.filter_withinAll]
    refine List.flatMap_eq_nil_iff.mpr fun t htb => ?_
    cases t with
    | leaf token => rfl
    | node e es =>
      have hmembers : ∀ e ∈ (rules .annotationBody).refs, e = .annotationMember := by decide
      obtain rfl := hmembers e (hconforms.mem_refs htb)
      have hnone : ∀ d ∈ (rules .annotationMember).refs, d ∉ methodConstructs := by decide
      have hchildren : es.filter (isOneOf methodConstructs) = [] := by
        refine List.filter_eq_nil_iff.mpr fun u hu hm => ?_
        obtain ⟨d, ds, hd, rfl⟩ := exists_of_isOneOf hm
        exact hnone d ((hconforms.of_mem htb).mem_refs hu) hd
      rw [filter_isFree_member (hconforms.of_mem htb) (by decide) rfl, hchildren]
      rfl

end

theorem declarations_of_types {source filter : String} {file : Source} (hfilter : filter ≠ "")
    (hfile : parse source = .ok file) : declarations source filter =
      .ok (((topLevelTypes file).head?.map fun type =>
        ((members type).filterMap (declaration? (typeName type))).filter (·.name == filter)).getD []) := by
  have hne : filter.isEmpty = false := by simpa using hfilter
  unfold declarations
  rw [hne, hfile]
  show (match topLevelTypes file with
    | [] => _
    | type :: _ => _) = _
  cases topLevelTypes file with
  | nil => rfl
  | cons type types => rfl

/-- The declarations for a name are those of the methods and constructors of this name that stand in the
body of the first type, with no other body in between, in the order of the text. A method of another type
has none, wherever it stands, and an annotation type has none at all. -/
theorem declarations_declaredIn {source filter : String} {file : Source} (hfilter : filter ≠ "")
    (hfile : parse source = .ok file) :
    (firstType? file = none → declarations source filter = .ok []) ∧
    ∀ type, firstType? file = some type →
      declarations source filter =
        .ok (((declaredIn methodConstructs type).filter (·.tree.declaredName == filter)).map
          fun p => declarationOf (typeName type) p.parent p.tree) ∧
      (type.is .annotationDeclaration → declarations source filter = .ok []) := by
  obtain ⟨hnode, hconforms, -⟩ := of_parse hfile
  have h := declarations_of_types hfilter hfile
  rw [← firstType?_eq hnode hconforms] at h
  constructor
  · intro hnone
    rw [h, hnone]
    rfl
  · intro type htype
    have hown : type.Conforms := by
      obtain ⟨p, hp, rfl⟩ := Option.map_eq_some_iff.mp htype
      exact Part.conforms_of_mem_within hconforms (List.mem_of_find?_eq_some hp)
    have hall : declarations source filter =
        .ok (((declaredIn methodConstructs type).filter (·.tree.declaredName == filter)).map
          fun p => declarationOf (typeName type) p.parent p.tree) := by
      rw [h, htype, Option.map_some, Option.getD_some, ← map_declaredIn hown, List.filter_map]
      rfl
    refine ⟨hall, fun hkind => ?_⟩
    cases type with
    | leaf token => cases hkind
    | node c cs =>
      obtain rfl : c = .annotationDeclaration := by simpa [Source.is, Source.construct?] using hkind
      rw [hall, declaredIn_annotation hown]
      rfl

def nestedMethods : String :=
  "enum E \x7b A \x7b void f() \x7b\x7d \x7d; " ++
  "E f() \x7b new B() \x7b int f() \x7b\x7d \x7d; \x7d " ++
  "class C \x7b long f() \x7b\x7d \x7d \x7d " ++
  "interface I \x7b char f(); \x7d"

theorem exists_firstType (source : String)
    (h : ((parse source).toOption.bind firstType?).isSome) :
    ∃ file type, parse source = .ok file ∧ firstType? file = some type := by
  obtain ⟨type, htype⟩ := Option.isSome_iff_exists.mp h
  obtain ⟨file, hfile, htype⟩ := Option.bind_eq_some_iff.mp htype
  cases hparse : parse source with
  | error e =>
    rw [hparse] at hfile
    cases hfile
  | ok tree =>
    rw [hparse] at hfile
    obtain rfl : tree = file := Option.some.inj hfile
    exact ⟨tree, type, rfl, htype⟩

theorem declarations_declaredIn_nested : "f" ≠ "" ∧ ∃ file type, parse nestedMethods = .ok file ∧
    firstType? file = some type ∧
    declarations nestedMethods "f" = .ok (((declaredIn methodConstructs type).filter
      (·.tree.declaredName == "f")).map fun p => declarationOf (typeName type) p.parent p.tree) ∧
    (declarations nestedMethods "f").toOption.map (·.map (·.result)) = some ["E"] := by
  obtain ⟨file, type, hfile, htype⟩ := exists_firstType nestedMethods (by decide +kernel)
  have hname : "f" ≠ "" := by decide
  have hall := ((declarations_declaredIn hname hfile).2 type htype).1
  exact ⟨hname, file, type, hfile, htype, hall, by decide +kernel⟩

/-- The element of an annotation type and the compact constructor of a record stand directly in the body of
the first type, but there is no declaration of them. -/
theorem declarations_lost_members :
    (((parse "@interface A \x7b int f(); \x7d").toOption.bind firstType?).map fun type =>
      (declaredIn [.element] type).map (·.tree.declaredName)) = some ["f"] ∧
    (declarations "@interface A \x7b int f(); \x7d" "f").toOption = some [] ∧
    (((parse "record P(int x) \x7b P \x7b\x7d \x7d").toOption.bind firstType?).map fun type =>
      (declaredIn [.compactConstructor] type).map (·.tree.declaredName)) = some ["P"] ∧
    (declarations "record P(int x) \x7b P \x7b\x7d \x7d" "P").toOption = some [] := by
  decide +kernel

end ClassLocator.Java

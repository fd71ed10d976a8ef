import ClassLocator.Proofs.Java.Line
import ClassLocator.Proofs.Java.Places
/-!
What stands between the parts of a declaration. Main statement: what is in front of a modifier, or within a
throws clause in front of a type or a comma, is in no part that stands in a declaration.
-/

namespace ClassLocator.Java

open Grammar (rules)
open Lexer (lex)

variable {t : Token} {x u v type member : Source} {cs : List Source} {c : Construct}

def partConstructs : List Construct :=
  [.modifier, .typeParameter, .plainType, .formalParameter, .spreadParameter, .receiverParameter, .type]

/-- In each part of the tree that a declaration prints, the token is the first one or none, so what stands
in front of it is not printed. -/
def StandsFree (t : Token) (x : Source) : Prop :=
  ∀ p ∈ Part.within [] x, isOneOf partConstructs p.tree → t ∉ p.tree.tokens.tail

theorem exists_mem_within {around : List Source} {p : Part} (h : p ∈ Part.within around x)
    (around' : List Source) : ∃ q ∈ Part.within around' x, q.tree = p.tree := by
  induction x using Tree.induction generalizing around around' with
  | leaf token =>
    obtain rfl := List.mem_singleton.mp h
    exact ⟨_, List.mem_singleton_self _, rfl⟩
  | node c cs ih =>
    simp only [Part.within, Part.withinAll_eq, List.mem_cons, List.mem_flatMap] at h ⊢
    obtain rfl | ⟨u, hu, hp⟩ := h
    · exact ⟨_, .inl rfl, rfl⟩
    · obtain ⟨q, hq, htree⟩ := ih u hu hp (.node c cs :: around')
      exact ⟨q, .inr ⟨u, hu, hq⟩, htree⟩

theorem standsFree_iff : StandsFree t x ↔
    (isOneOf partConstructs x → t ∉ x.tokens.tail) ∧ ∀ u ∈ x.children, StandsFree t u := by
  cases x with
  | leaf token => simp [StandsFree, Part.within, Source.children]
  | node c cs =>
    simp only [StandsFree, Part.within, Part.withinAll_eq, List.forall_mem_cons, List.mem_flatMap,
      Source.children]
    refine and_congr_right fun _ => ⟨fun h u hu p hp => ?_, fun h p hp => ?_⟩
    · obtain ⟨q, hq, htree⟩ := exists_mem_within hp [.node c cs]
      exact htree ▸ h q ⟨u, hu, hq⟩
    · obtain ⟨u, hu, hp⟩ := hp
      obtain ⟨q, hq, htree⟩ := exists_mem_within hp []
      exact htree ▸ h u hu q hq

theorem tokens_sublist_tokensOf (hu : u ∈ cs) : u.tokens.Sublist (Tree.tokensOf cs) := by
  induction cs with
  | nil => cases hu
  | cons v cs ih =>
    rcases List.mem_cons.mp hu with rfl | hu
    · exact List.sublist_append_left _ _
    · exact (ih hu).trans (List.sublist_append_right _ _)

theorem tokens_sublist (hu : u ∈ x.children) : u.tokens.Sublist x.tokens := by
  cases x with
  | leaf token => simp [Source.children] at hu
  | node c cs => exact tokens_sublist_tokensOf hu

theorem eq_of_mem_tokens (h : (Tree.tokensOf cs).Nodup) (hu : u ∈ cs) (hv : v ∈ cs) (htu : t ∈ u.tokens)
    (htv : t ∈ v.tokens) : u = v := by
  induction cs with
  | nil => cases hu
  | cons w cs ih =>
    obtain ⟨-, hrest, hapart⟩ := List.nodup_append.mp h
    have hnot {y : Source} (hy : y ∈ cs) (hty : t ∈ y.tokens) : t ∉ w.tokens :=
      fun htw => hapart t htw t (Tree.mem_tokensOf hy hty) rfl
    rcases List.mem_cons.mp hu with rfl | hurest
    · rcases List.mem_cons.mp hv with rfl | hvrest
      · rfl
      · exact absurd htu (hnot hvrest htv)
    · rcases List.mem_cons.mp hv with rfl | hvrest
      · exact absurd htv (hnot hurest htu)
      · exact ih hrest hurest hvrest

theorem sublist_of_mem_within {around : List Source} {p : Part} (h : p ∈ Part.within around x) :
    p.tree.tokens.Sublist x.tokens := by
  induction x using Tree.induction generalizing around with
  | leaf token =>
    obtain rfl := List.mem_singleton.mp h
    exact .refl _
  | node c cs ih =>
    simp only [Part.within, Part.withinAll_eq, List.mem_cons, List.mem_flatMap] at h
    obtain rfl | ⟨u, hu, hp⟩ := h
    · exact .refl _
    · exact (ih u hu hp).trans (tokens_sublist_tokensOf hu)

structure IsFreeIn (t : Token) (x : Source) : Prop where
  mem : t ∈ x.tokens
  free : StandsFree t x

theorem isFreeIn_of_head? (hnodup : x.tokens.Nodup) (ht : x.tokens.head? = some t) : IsFreeIn t x := by
  refine ⟨List.mem_of_head? ht, fun p hp _ htail => ?_⟩
  have hsub := sublist_of_mem_within hp
  obtain ⟨rest, hx⟩ := List.head?_eq_some_iff.mp ht
  rw [hx] at hsub hnodup
  cases htokens : p.tree.tokens with
  | nil => simp [htokens] at htail
  | cons a as =>
    rw [htokens] at hsub htail
    exact (List.nodup_cons.mp hnodup).1 (hsub.tail.subset htail)

theorem IsFreeIn.of_child (h : IsFreeIn t u) (hu : u ∈ x.children) (hnodup : x.tokens.Nodup)
    (hx : isOneOf partConstructs x = false) : IsFreeIn t x := by
  refine ⟨(tokens_sublist hu).subset h.mem, standsFree_iff.mpr ⟨fun hpart => by simp [hx] at hpart, ?_⟩⟩
  intro v hv
  by_cases htv : t ∈ v.tokens
  · cases x with
    | leaf token => simp [Source.children] at hu
    | node c cs => exact eq_of_mem_tokens hnodup hu hv h.mem htv ▸ h.free
  · exact fun p hp _ htail => htv ((sublist_of_mem_within hp).subset (List.mem_of_mem_tail htail))

theorem not_isOneOf_partConstructs {ds : List Construct} (hds : ∀ d ∈ ds, d ∉ partConstructs)
    (hx : isOneOf ds x) : isOneOf partConstructs x = false := by
  obtain ⟨d, us, hd, rfl⟩ := exists_of_isOneOf hx
  simpa [isOneOf_node] using hds d hd

theorem Reaches.tokens_sublist (h : Reaches x u) : u.tokens.Sublist x.tokens := by
  induction h with
  | refl => exact .refl _
  | tail _ hstep ih => exact (Java.tokens_sublist hstep.2).trans ih

theorem Reaches.isFreeIn (h : Reaches x u) (hnodup : x.tokens.Nodup) (hfree : IsFreeIn t u) :
    IsFreeIn t x := by
  induction h using Relation.ReflTransGen.head_induction_on with
  | refl => exact hfree
  | head hstep _ ih =>
    have hchild := ih (hnodup.sublist (Java.tokens_sublist hstep.2))
    exact hchild.of_child hstep.2 hnodup (not_isOneOf_partConstructs (by decide) hstep.1)

def startsIn (c : Construct) (x : Source) : List Token :=
  (((x.child? c).map (·.children)).getD []).filterMap (·.tokens.head?)

theorem isFreeIn_of_startsIn (h : t ∈ startsIn c x) (hc : c ∉ partConstructs) (hnodup : x.tokens.Nodup)
    (hx : isOneOf partConstructs x = false) : IsFreeIn t x := by
  obtain ⟨u, hu, ht⟩ := List.mem_filterMap.mp h
  cases hlist : x.child? c with
  | none => simp [hlist] at hu
  | some list =>
    rw [hlist] at hu
    have hmem := List.mem_of_find?_eq_some hlist
    have hlistNodup := hnodup.sublist (tokens_sublist hmem)
    have hfound := List.find?_some hlist
    rw [Source.is_eq_isOneOf] at hfound
    have hnot : isOneOf partConstructs list = false := not_isOneOf_partConstructs (by simpa using hc) hfound
    exact ((isFreeIn_of_head? (hlistNodup.sublist (tokens_sublist hu)) ht).of_child hu hlistNodup hnot).of_child
      hmem hnodup hx

/-- The first tokens of the modifiers in front of the members of the first type, and the first tokens of
what stands in their throws clauses. -/
def elementStarts (file : Source) : List Token :=
  ((topLevelTypes file).head?.map fun type => (members type).flatMap fun member =>
    startsIn .modifiers member ++ member.children.flatMap (startsIn .throwsClause)).getD []

theorem not_part_of_throws {source : String} (h : x.IsSound source) (ht : t ∈ startsIn .throwsClause x) :
    isOneOf partConstructs x = false := by
  rw [startsIn] at ht
  cases hclause : x.child? .throwsClause with
  | none => simp [hclause] at ht
  | some clause =>
    obtain ⟨-, us, rfl⟩ := h.of_child? hclause
    refine Bool.eq_false_iff.mpr fun hpart => ?_
    obtain ⟨d, ds, hd, rfl⟩ := exists_of_isOneOf hpart
    have hrefs : ∀ d ∈ partConstructs, .throwsClause ∉ (rules d).refs := by decide
    exact hrefs d hd (h.conforms.mem_refs (List.mem_of_find?_eq_some hclause))

theorem standsFree_of_mem_elementStarts {source : String} {file : Source} (hfile : parse source = .ok file)
    (h : t ∈ elementStarts file) : StandsFree t file := by
  obtain ⟨-, -, rest, htokens⟩ := of_parse hfile
  have hnodup : file.tokens.Nodup := (htokens ▸ Lexer.nodup_lex source).sublist (List.sublist_append_left _ _)
  cases htypes : (topLevelTypes file).head? with
  | none => simp [elementStarts, htypes] at h
  | some type =>
    simp only [elementStarts, htypes, Option.map_some, Option.getD_some, List.mem_flatMap,
      List.mem_append] at h
    obtain ⟨member, hmember, ht⟩ := h
    have hreaches := reaches_member hfile (List.mem_of_head? htypes) hmember
    have hconstruct := (List.mem_filter.mp hmember).2
    rcases ht with ht | ⟨method, hmethod, ht⟩
    · have hnot := not_isOneOf_partConstructs (by decide) hconstruct
      have hfree := isFreeIn_of_startsIn ht (by decide) (hnodup.sublist hreaches.tokens_sublist) hnot
      exact (hreaches.isFreeIn hnodup hfree).free
    · have hmethodReaches : Reaches file method :=
        hreaches.tail ⟨isOneOf_of_subset (by decide) hconstruct, hmethod⟩
      have hnot := not_part_of_throws (hmethodReaches.isSound (isSound_of_parse hfile)) ht
      have hfree := isFreeIn_of_startsIn ht (by decide) (hnodup.sublist hmethodReaches.tokens_sublist) hnot
      exact (hmethodReaches.isFreeIn hnodup hfree).free

end ClassLocator.Java

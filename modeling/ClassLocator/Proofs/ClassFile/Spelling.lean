import ClassLocator.ClassFile.Declarations
import ClassLocator.Proofs.Text.Parts
import Mathlib.Data.List.TakeWhile
import Mathlib.Data.Nat.Bitwise

namespace ClassLocator

def ellipsized? : List Char → Option (List Char)
  | [] => none
  | c :: cs =>
    match ellipsized? cs with
    | some ds => some (c :: ds)
    | none => if c = '[' ∧ cs.head? = some ']' then some ('.' :: '.' :: '.' :: cs.tail) else none

def hasBrackets (parameter : String) : Bool := (ellipsized? parameter.toList).isSome

def withEllipsis : List String → List String
  | [] => []
  | p :: ps =>
    if ps.any hasBrackets then p :: withEllipsis ps
    else
      match ellipsized? p.toList with
      | some cs => String.ofList cs :: ps
      | none => p :: ps

def spaced : List String → String
  | [] => ""
  | w :: ws => w ++ " " ++ spaced ws

namespace variadic

theorem ellipsis?_cons {r : Char} {rs : List Char} (h : r ≠ ']' ∨ rs.head? ≠ some '[') :
    ellipsis? (r :: rs) = (ellipsis? rs).map (r :: ·) := by
  rw [ellipsis?]
  intro cs hr hs
  subst hr hs
  simp at h

theorem ellipsis?_append (rs : List Char) (c : Char) :
    ellipsis? (rs ++ [c]) =
      match ellipsis? rs with
      | some ds => some (ds ++ [c])
      | none =>
        if c = '[' ∧ rs.getLast? = some ']' then some (rs.dropLast ++ ['.', '.', '.']) else none := by
  fun_induction ellipsis? rs with
  | case1 cs => simp [ellipsis?]
  | case2 r rs h ih =>
    cases rs with
    | nil =>
      by_cases hb : r = ']' ∧ c = '['
      · obtain ⟨rfl, rfl⟩ := hb
        rfl
      · have hne : r ≠ ']' ∨ [c].head? ≠ some '[' := by
          simpa using Decidable.not_and_iff_or_not.mp hb
        have hc : ¬(c = '[' ∧ r = ']') := fun hn => hb ⟨hn.2, hn.1⟩
        simp [ellipsis?_cons hne, ellipsis?, hc]
    | cons s rest =>
      -- The first two characters stay the same, and they are no pair.
      have hne : r ≠ ']' ∨ (s :: rest ++ [c]).head? ≠ some '[' := by
        by_cases hr : r = ']'
        · refine .inr fun hs => h rest hr ?_
          simp at hs
          rw [hs]
        · exact .inl hr
      rw [List.cons_append, ellipsis?_cons hne, ih]
      cases ellipsis? (s :: rest) with
      | some ds => rfl
      | none =>
        simp only [Option.map_none, List.getLast?_cons_cons, List.dropLast_cons_cons]
        split
        · rfl
        · rfl
  | case3 => simp [ellipsis?]

/-- Looking for the last brackets from the back finds them where looking from the front does. -/
theorem ellipsis?_reverse (cs : List Char) :
    ellipsis? cs.reverse = (ellipsized? cs).map List.reverse := by
  induction cs with
  | nil => rfl
  | cons c cs ih =>
    rw [List.reverse_cons, ellipsis?_append, ih, ellipsized?]
    cases ellipsized? cs with
    | some ds => simp
    | none =>
      simp only [Option.map_none, List.getLast?_reverse]
      split
      · cases cs <;> simp
      · rfl

theorem inReverse_append (qs : List String) (p : String) :
    inReverse (qs ++ [p]) =
      if qs.any hasBrackets then inReverse qs ++ [p] else qs ++ withEllipsis [p] := by
  have hfind : ∀ q : String, ellipsis? q.toList.reverse = (ellipsized? q.toList).map List.reverse :=
    fun q => ellipsis?_reverse q.toList
  induction qs with
  | nil =>
    simp only [List.nil_append, List.any_nil, inReverse, withEllipsis, hfind]
    cases ellipsized? p.toList <;> simp
  | cons q qs ih =>
    simp only [List.cons_append, List.any_cons, inReverse, hfind, hasBrackets]
    cases ellipsized? q.toList with
    | some ds => simp
    | none =>
      simp only [Option.map_none, Option.isSome_none, Bool.false_or]
      rw [ih]
      split
      · rfl
      · rfl

end variadic

theorem variadic_eq_withEllipsis (ps : List String) : variadic ps = withEllipsis ps := by
  induction ps with
  | nil => rfl
  | cons p ps ih =>
    rw [variadic] at ih ⊢
    rw [List.reverse_cons, variadic.inReverse_append, List.any_reverse]
    cases hps : ps.any hasBrackets with
    | true => simp [withEllipsis, hps, ih]
    | false =>
      simp only [withEllipsis, hps, List.any_nil, Bool.false_eq_true, if_false, List.reverse_append,
        List.reverse_reverse]
      cases ellipsized? p.toList <;> rfl

namespace ClassFile

theorem afterLast_eq_lastPart (c : Char) (cs : List Char) : afterLast c cs = lastPart c cs := by
  induction cs with
  | nil => rfl
  | cons d cs ih =>
    unfold afterLast at ih ⊢
    rw [List.reverse_cons]
    by_cases h : c ∈ cs
    · have hne : (cs.reverse.takeWhile (· != c)).length ≠ cs.reverse.length := by
        intro he
        have hall := List.takeWhile_eq_self_iff.mp ((List.takeWhile_prefix _).eq_of_length he)
        simpa using hall c (List.mem_reverse.mpr h)
      rw [lastPart_cons_of_mem h, ← ih, List.takeWhile_append, if_neg hne]
    · have hall : ∀ e ∈ cs.reverse, (e != c) = true := by
        intro e he
        rw [bne_iff_ne]
        intro hec
        exact h (hec ▸ List.mem_reverse.mp he)
      rw [List.takeWhile_append_of_pos hall, lastPart, Text.separated, Text.separated_of_not_mem h]
      by_cases hd : d = c
      · simp [hd]
      · simp [hd]

end ClassFile

theorem intercalate_append (ws : List String) (w : String) :
    " ".intercalate (ws ++ [w]) = spaced ws ++ w := by
  induction ws with
  | nil => simp [spaced]
  | cons v ws ih =>
    rw [List.cons_append, String.intercalate_cons_of_ne_nil (by simp), ih]
    simp only [spaced, String.append_assoc]

theorem spaced_append (ws ws' : List String) : spaced (ws ++ ws') = spaced ws ++ spaced ws' := by
  induction ws with
  | nil => simp [spaced]
  | cons w ws ih => simp only [List.cons_append, spaced, ih, String.append_assoc]

theorem spaced_ite (c : Prop) [Decidable c] (w : String) :
    spaced (if c then [] else [w]) = if c then "" else w ++ " " := by
  split
  · rfl
  · simp [spaced]

def keywordBits : List (Nat × String) :=
  [(0, "public"), (1, "private"), (2, "protected"), (3, "static"), (4, "final"), (5, "synchronized"),
   (8, "native"), (10, "abstract"), (11, "strictfp")]

def keywords (flags : Nat) : List String :=
  (keywordBits.filter fun k => flags.testBit k.1).map (·.2)

theorem modifiers_eq_keywords (flags : Nat) : ClassFile.modifiers flags = keywords flags := by
  have hm : ClassFile.methodModifiers = keywordBits.map fun k => (2 ^ k.1, k.2) := rfl
  have hb : ∀ k : Nat × String, decide (flags &&& 2 ^ k.1 ≠ 0) = flags.testBit k.1 := by
    intro k
    rw [Nat.and_two_pow]
    cases flags.testBit k.1 <;> simp
  rw [ClassFile.modifiers, keywords, hm, List.filter_map, List.map_map]
  simp only [Function.comp_def, hb]

namespace Declaration

variable {d : Declaration}

theorem render_staticInitializer (h : d.role = .staticInitializer) :
    d.render = spaced d.modifiers ++ "\x7b\x7d;" := by
  have ht : d.tokens = d.modifiers ++ ["\x7b\x7d"] := by simp [tokens, h]
  rw [render, ht, intercalate_append, throwsClause, if_pos (.inl h), String.append_empty,
    String.append_assoc]
  rfl

def wordsBefore (d : Declaration) : List String :=
  d.modifiers ++ (if d.typeParameters = [] then [] else ["<" ++ ",".intercalate d.typeParameters ++ ">"])
    ++ (if d.role = .constructor ∨ d.result = "" then [] else [d.result])

theorem tokens_eq (h : d.role ≠ .staticInitializer) :
    d.tokens = d.wordsBefore ++ [d.head (if d.role = .constructor then d.owner else d.name)] := by
  unfold tokens wordsBefore
  cases hr : d.role with
  | staticInitializer => exact absurd hr h
  | method => simp [List.append_assoc]
  | constructor => simp [List.append_assoc]

theorem render_of_ne (h : d.role ≠ .staticInitializer) :
    d.render = spaced d.wordsBefore ++
      (if d.role = .constructor then d.owner else d.name) ++
      "(" ++ ",".intercalate d.parameters ++ ")" ++
      (if d.thrown = [] then "" else " throws " ++ ", ".intercalate d.thrown) ++ ";" := by
  have ht : d.throwsClause =
      if d.thrown = [] then "" else " throws " ++ ", ".intercalate d.thrown := by
    simp [throwsClause, h]
  rw [render, tokens_eq h, intercalate_append, head, ht]
  simp only [String.append_assoc]

end Declaration

end ClassLocator

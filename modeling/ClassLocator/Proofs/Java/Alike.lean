import ClassLocator.Proofs.Java.Rule
import Mathlib.Data.List.Forall2
/-!
Trees that differ only in their tokens. Main statement: tokens that are alike one by one, in kind and text and
in whether anything stands in front of them, are read as trees that are alike.
-/

namespace ClassLocator.Java

open List (Forall₂)

variable {ν : Type} {grammar : ν → Rule ν} {R : Token → Token → Prop}

namespace Tree

/-- Trees of one shape whose tokens are related one by one. -/
inductive Alike (R : Token → Token → Prop) : Tree ν → Tree ν → Prop where
  | leaf {x y : Token} (h : R x y) : Alike R (.leaf x) (.leaf y)
  | node {name : ν} {ts us : List (Tree ν)} (h : Forall₂ (Alike R) ts us) :
      Alike R (.node name ts) (.node name us)

theorem Alike.tokens {t u : Tree ν} (h : Alike R t u) : Forall₂ R t.tokens u.tokens := by
  induction t using Tree.induction generalizing u with
  | leaf token =>
    cases h with
    | leaf h => exact .cons h .nil
  | node name ts ih =>
    cases h with
    | @node _ _ us h =>
      rw [Tree.tokens, Tree.tokens]
      induction h with
      | nil => exact .nil
      | cons ht hs ihs =>
        rw [List.forall_mem_cons] at ih
        exact List.rel_append (ih.1 ht) (ihs ih.2)

end Tree

namespace Rule

inductive Outcome.Alike (R : Token → Token → Prop) : Outcome ν → Outcome ν → Prop where
  | taken {rest rest' : List Token} {trees trees' : List (Tree ν)} {furthest furthest' : Location}
      (hrest : Forall₂ R rest rest') (htrees : Forall₂ (Tree.Alike R) trees trees') :
      Alike R (.taken rest trees furthest) (.taken rest' trees' furthest')
  | refused {furthest furthest' : Location} : Alike R (.refused furthest) (.refused furthest')

/-- A relation of tokens that reading cannot tell apart. -/
structure Respects (R : Token → Token → Prop) : Prop where
  kind {x y : Token} (h : R x y) : x.kind = y.kind
  text {x y : Token} (h : R x y) : x.text = y.text
  isGlued {x y : Token} (h : R x y) : x.isGlued = y.isGlued

variable {tokens tokens' : List Token} {trees trees' : List (Tree ν)} {furthest furthest' : Location}

theorem takeIf_alike {test : Token → Bool} (htest : ∀ x y, R x y → test x = test y)
    (htokens : Forall₂ R tokens tokens') (htrees : Forall₂ (Tree.Alike R) trees trees') :
    Outcome.Alike R (takeIf test tokens trees furthest) (takeIf test tokens' trees' furthest') := by
  cases htokens with
  | nil => exact .refused
  | @cons x y _ _ h hrest =>
    rw [takeIf, takeIf, htest x y h]
    cases test y with
    | true => exact .taken hrest (.cons (.leaf h) htrees)
    | false => exact .refused

/-- What is done next may depend on the outcome so far. -/
theorem Outcome.Alike.next {o o' : Outcome ν} {onRefused onRefused' : Location → Outcome ν}
    {onTaken onTaken' : List Token → List (Tree ν) → Location → Outcome ν}
    (hrefused : ∀ f f', Outcome.Alike R (onRefused f) (onRefused' f'))
    (htaken : ∀ {rest rest' us us'} f f', Forall₂ R rest rest' → Forall₂ (Tree.Alike R) us us' →
      Outcome.Alike R (onTaken rest us f) (onTaken' rest' us' f')) :
    Outcome.Alike R o o' → Outcome.Alike R
      (match o with
        | .refused f => onRefused f
        | .taken rest us f => onTaken rest us f)
      (match o' with
        | .refused f => onRefused' f
        | .taken rest us f => onTaken' rest us f) := by
  intro h
  cases h with
  | refused => exact hrefused _ _
  | taken hrest htrees => exact htaken _ _ hrest htrees

/-- Tokens that reading cannot tell apart are read alike. -/
theorem read_alike (hR : Respects R) {fuel : Nat} {rule : Rule ν} (htokens : Forall₂ R tokens tokens')
    (htrees : Forall₂ (Tree.Alike R) trees trees') :
    Outcome.Alike R (rule.read grammar fuel tokens trees furthest)
      (rule.read grammar fuel tokens' trees' furthest') := by
  -- A repetition reads by itself again, so the induction is on the fuel and not on the rule.
  induction fuel generalizing rule tokens tokens' trees trees' furthest furthest' with
  | zero => exact .refused
  | succ fuel ih =>
    cases rule with
    | token kind accepts =>
      exact takeIf_alike (fun x y h => by rw [hR.kind h, hR.text h]) htokens htrees
    | glued kind accepts =>
      exact takeIf_alike (fun x y h => by rw [hR.kind h, hR.text h, hR.isGlued h]) htokens htrees
    | empty => exact .taken htokens htrees
    | both first second =>
      simp only [Rule.read]
      exact (ih htokens htrees).next (fun _ _ => .refused) fun _ _ hrest hread => ih hrest hread
    | either first second =>
      -- What the first rule takes is passed on as it is, so it stays one outcome.
      have hfirst : Outcome.Alike R (first.read grammar fuel tokens trees furthest)
          (first.read grammar fuel tokens' trees' furthest') := ih htokens htrees
      simp only [Rule.read]
      generalize Rule.read grammar fuel first tokens trees furthest = o at hfirst ⊢
      generalize Rule.read grammar fuel first tokens' trees' furthest' = o' at hfirst ⊢
      cases hfirst with
      | refused => exact ih htokens htrees
      | taken hrest hread => exact .taken hrest hread
    | many item =>
      simp only [Rule.read]
      exact (ih htokens htrees).next (fun _ _ => .taken htokens htrees)
        fun _ _ hrest hread => ih hrest hread
    | ahead rule =>
      simp only [Rule.read]
      exact (ih htokens .nil).next (fun _ _ => .refused) fun _ _ _ _ => .taken htokens htrees
    | notAhead rule =>
      simp only [Rule.read]
      exact (ih htokens .nil).next (fun _ _ => .taken htokens htrees) fun _ _ _ _ => .refused
    | ref name =>
      simp only [Rule.read]
      refine (ih htokens .nil).next (fun _ _ => .refused) fun _ _ hrest hinner => ?_
      exact .taken hrest (.cons (.node (List.rel_reverse hinner)) htrees)

end Rule

end ClassLocator.Java

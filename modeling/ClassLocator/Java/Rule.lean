import ClassLocator.Java.Token
/-!
Grammars as values, and reading a list of tokens by one. A rule either takes tokens from the front or
refuses them; where a choice is given the first rule that takes some decides, and a repetition goes on
as long as it can. The nonterminals of the grammar are the labels of the tree.
-/

namespace ClassLocator.Java

inductive Rule (ν : Type) where
  | token (kind : Token.Kind) (accepts : String → Bool)
  | glued (kind : Token.Kind) (accepts : String → Bool)
  | empty
  | both (first second : Rule ν)
  | either (first second : Rule ν)
  | many (item : Rule ν)
  /-- Takes nothing, where the rule would take something. -/
  | ahead (rule : Rule ν)
  /-- Takes nothing, where the rule would be refused. -/
  | notAhead (rule : Rule ν)
  | ref (name : ν)

inductive Tree (ν : Type) where
  | leaf (token : Token)
  | node (name : ν) (children : List (Tree ν))

namespace Rule

variable {ν : Type}

/-- What reading by a rule comes to: the tokens left and the trees read, the last one first, or a
refusal. Either way `furthest` is the place behind the last token that fitted. -/
inductive Outcome (ν : Type) where
  | taken (rest : List Token) (trees : List (Tree ν)) (furthest : Location)
  | refused (furthest : Location)

def takeIf (test : Token → Bool) (tokens : List Token) (trees : List (Tree ν))
    (furthest : Location) : Outcome ν :=
  match tokens with
  | [] => .refused furthest
  | t :: rest =>
    if test t then .taken rest (.leaf t :: trees) furthest
    else .refused (furthest.max t.after)

/-- Reads by a rule. The trees read before, the last one first, are `trees`. Each step down takes one
of `fuel`. -/
def read (grammar : ν → Rule ν) : (fuel : Nat) → (rule : Rule ν) → (tokens : List Token) →
    (trees : List (Tree ν)) → (furthest : Location) → Outcome ν
  | 0, _, _, _, furthest => .refused furthest
  | fuel + 1, rule, tokens, trees, furthest =>
    match rule with
    | token kind accepts => takeIf (fun t => t.kind == kind && accepts t.text) tokens trees furthest
    | glued kind accepts =>
      takeIf (fun t => t.kind == kind && accepts t.text && t.isGlued) tokens trees furthest
    | empty => .taken tokens trees furthest
    | both first second =>
      match read grammar fuel first tokens trees furthest with
      | .refused furthest => .refused furthest
      | .taken rest trees furthest => read grammar fuel second rest trees furthest
    | either first second =>
      match read grammar fuel first tokens trees furthest with
      | .refused furthest => read grammar fuel second tokens trees furthest
      | taken => taken
    | many item =>
      match read grammar fuel item tokens trees furthest with
      | .refused furthest => .taken tokens trees furthest
      | .taken rest trees furthest => read grammar fuel (many item) rest trees furthest
    | ahead rule =>
      match read grammar fuel rule tokens [] furthest with
      | .refused _ => .refused furthest
      | .taken .. => .taken tokens trees furthest
    | notAhead rule =>
      match read grammar fuel rule tokens [] furthest with
      | .refused _ => .taken tokens trees furthest
      | .taken .. => .refused furthest
    | ref name =>
      match read grammar fuel (grammar name) tokens [] furthest with
      | .refused furthest => .refused furthest
      | .taken rest inner furthest => .taken rest (.node name inner.reverse :: trees) furthest

end Rule

namespace Tree

variable {ν : Type}

mutual

def tokens : Tree ν → List Token
  | leaf t => [t]
  | node _ children => tokensOf children

def tokensOf : List (Tree ν) → List Token
  | [] => []
  | t :: ts => t.tokens ++ tokensOf ts

end

def text (t : Tree ν) : String :=
  match t.tokens with
  | [] => ""
  | first :: rest => first.text ++ String.join (rest.map fun t => t.leadText ++ t.text)

def comments (t : Tree ν) : List String := (t.tokens.head?.map (·.comments)).getD []

end Tree

end ClassLocator.Java

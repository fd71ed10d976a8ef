import ClassLocator.Declaration
import ClassLocator.Failure
import ClassLocator.Java.Grammar
import ClassLocator.Java.Lexer
import ClassLocator.Text.Blank

namespace ClassLocator.Java

abbrev Source := Tree Construct

/-- The steps down that reading one token can take. -/
def stepsPerToken : Nat := 256

def readFile (tokens : List Token) : Rule.Outcome Construct :=
  (Rule.ref Construct.file).read Grammar.rules (stepsPerToken * (tokens.length + 1)) tokens [] {}

/-- The tree of a text. A text that does not fit the grammar fails right behind the last token that
fits, or behind the comments that follow it. -/
def parse (source : String) : Except Failure Source :=
  match readFile (Lexer.lex source) with
  | .taken _ (tree :: _) _ => .ok tree
  | .taken _ [] furthest | .refused furthest =>
    .error (.sourceSyntax furthest.line furthest.column)

namespace Source

def children : Source → List Source
  | .leaf _ => []
  | .node _ cs => cs

def construct? : Source → Option Construct
  | .leaf _ => none
  | .node c _ => some c

def is (c : Construct) (t : Source) : Bool := t.construct? == some c

def child? (t : Source) (c : Construct) : Option Source := t.children.find? (is c)

def line (t : Source) : String := Text.squeeze t.text

def declaredName (t : Source) : String :=
  (t.children.findSome? fun
    | .leaf token => if token.kind = .word then some token.text else none
    | .node .. => none).getD ""

end Source

def typeConstructs : List Construct :=
  [.classDeclaration, .interfaceDeclaration, .enumDeclaration, .recordDeclaration,
    .annotationDeclaration]

def bodyConstructs : List Construct := [.classBody, .interfaceBody, .annotationBody, .enumBody]

def memberConstructs : List Construct :=
  [.memberDeclaration, .interfaceMember, .annotationMember]

def isOneOf (cs : List Construct) (t : Source) : Bool := (t.construct?.map cs.contains).getD false

/-- The types among the items of a file, in order. A type within a statement is no item. -/
def topLevelTypes (file : Source) : List Source :=
  within [.fileItem, .statement, .statementDeclaration, .declaration] file
where
  within : List Construct → Source → List Source
    | [], t => t.children.filter (isOneOf typeConstructs)
    | c :: path, t => (t.children.filter (Source.is c)).flatMap (within path)

def typeName (type : Source) : String :=
  match type.children with
  | _ :: .leaf name :: _ => name.text
  | _ => ""

/-- The members in the body of a type. Those of an enumeration stand behind its constants. -/
def members (type : Source) : List Source :=
  let body := ((type.children.find? (isOneOf bodyConstructs)).map (·.children)).getD []
  (body.flatMap fun t => if t.is .enumMembers then t.children else [t]).filter
    (isOneOf memberConstructs)

def modifiersOf (member : Source) : List String :=
  match (member.child? .modifiers).map (·.children) with
  | some (first :: rest) =>
    first.line :: rest.flatMap fun m => m.comments.map Text.squeeze ++ [m.line]
  | _ => []

/-- The thrown types of a method, and the comments between the word that announces them and the last
of them. -/
def thrownBy (method : Source) : List String :=
  match (method.child? .throwsClause).map (·.children) with
  | some (_ :: rest) =>
    rest.flatMap fun t =>
      t.comments.map Text.squeeze ++ (if t.is .type then [t.line] else [])
  | _ => []

def typeParametersOf (method : Source) : List String :=
  ((((method.child? .typeParameters).map (·.children)).getD []).filter
    (Source.is .typeParameter)).map (·.line)

def parametersOf (method : Source) : List String :=
  ((((method.child? .formalParameters).map (·.children)).getD []).filter
    (isOneOf [.formalParameter, .spreadParameter, .receiverParameter])).map (·.line)

def declarationOf (owner : String) (member method : Source) : Declaration where
  owner
  modifiers := modifiersOf member
  typeParameters := typeParametersOf method
  result := ((method.child? .plainType).map (·.line)).getD ""
  name := method.declaredName
  parameters := parametersOf method
  thrown := thrownBy method
  role := if method.is .constructor then .constructor else .method

def declaration? (owner : String) (member : Source) : Option Declaration :=
  (member.children.find? (isOneOf [.method, .constructor])).map (declarationOf owner member)

/-- The methods and constructors named `filter` in the first type of a text, in order. An empty filter
names no method, and the text is not looked at. -/
def declarations (source filter : String) : Except Failure (List Declaration) := do
  if filter.isEmpty then return []
  let file ← parse source
  match topLevelTypes file with
  | [] => return []
  | type :: _ =>
    return ((members type).filterMap (declaration? (typeName type))).filter (·.name == filter)

end ClassLocator.Java

import ClassLocator.Java.Rule
/-!
The grammar of Java texts. It is wider than the language: statements and methods may stand beside the
types of a file, any body may be missing, and modifiers are not held against what they modify.

A word is a keyword only where the grammar can go on with that keyword, and a name everywhere else. So
each rule that takes a name says which words it leaves out, and what may begin with a name says so of its
first word; the same word may be a name elsewhere.
-/

namespace ClassLocator.Java

/-- What an arrow behind a name or behind a name in parentheses does in an expression. -/
inductive Arrows where
  | free
  | first
  /-- The first one ends it that the rest of a rule of a switch may follow; those before make lambdas. -/
  | fitting
  deriving DecidableEq, Repr

inductive Construct where
  -- texts
  | file | fileItem
  -- names and types
  | qualifiedName | primitive | namedType | genericType | outerType | literalType | simpleType
  | plainType | type | dimensions | typeArguments | typeArgument | wildcard | typeParameters
  | typeParameter
  -- annotations and modifiers
  | annotationUse | elementValue | elementPairs | elementArray | modifier | modifiers
  | looseModifiers
  -- declarations
  | moduleDeclaration | moduleDirective | packageDeclaration | importDeclaration
  | declaration | memberDeclaration | interfaceMember | annotationMember
  | classDeclaration | interfaceDeclaration | enumDeclaration | recordDeclaration
  | annotationDeclaration | superclass | interfaces | extendedInterfaces | permitted
  | classBody | interfaceBody | annotationBody | enumBody | enumConstant | enumMembers
  | staticInitializer | constructor | constructorBody | constructorCall | compactConstructor
  | method | field | element | defaultValue | declarator | declaratorName | arrayInitializer
  | initializer | formalParameters | formalParameter | spreadParameter | receiverParameter
  | throwsClause
  -- statements
  | block | statement | localVariable | statementDeclaration | expressionStatement | labeled
  | ifStatement | whileStatement | doStatement | forStatement | forEachStatement
  | assertStatement | jumpStatement | returnStatement | yieldStatement | throwStatement
  | synchronizedStatement | switchStatement | tryStatement | catchClause | finallyClause
  | resources | resource
  -- switches
  | switchBlock | switchRule | switchGroup | ruleLabel (arrows : Arrows) | groupLabel
  | casePattern | typePattern | recordPattern | patternComponent
  -- expressions
  | expressionWith (arrows : Arrows) | operand (arrows : Arrows) | operation (arrows : Arrows)
  | lambda (arrows : Arrows) | castExpression (arrows : Arrows)
  | tail (arrows : Arrows) | assignableTail (arrows : Arrows) | assignment (arrows : Arrows)
  | operator | typeTest | inferredParameters | switchExpression | primary | start | superField
  | typeReference | access | call | fieldTail | creation | arguments | textLiteral
  deriving DecidableEq, Repr

namespace Grammar

abbrev R := Rule Construct

def seq : List R → R
  | [] => .empty
  | [r] => r
  | r :: rs => .both r (seq rs)

/-- The first of several rules that takes something decides. -/
def alt : List R → R
  | [] => .notAhead .empty
  | [r] => r
  | r :: rs => .either r (alt rs)

def opt (r : R) : R := .either r .empty

def some1 (r : R) : R := .both r (.many r)

def sym (s : String) : R := .token .symbol (· == s)

def gluedSym (s : String) : R := .glued .symbol (· == s)

def gluedWord : R := .glued .word fun _ => true

def symIn (ss : List String) : R := .token .symbol ss.contains

def kw (s : String) : R := .token .word (· == s)

def kwIn (ss : List String) : R := .token .word ss.contains

def anyOf (kind : Token.Kind) : R := .token kind fun _ => true

def nameBut (ss : List String) : R := .token .word (!ss.contains ·)

def name : R := nameBut []

def avoiding (ss : List String) (r : R) : R := .both (.notAhead (kwIn ss)) r

/-- What a keyword begins, or nothing. That keyword leaves no choice. -/
def clause (keyword : String) (r : R) : R := .either r (.notAhead (kw keyword))

def sepBy1 (separator : String) (r : R) : R := .both r (.many (.both (sym separator) r))

def commas1 (r : R) : R := sepBy1 "," r

def commas (r : R) : R := opt (commas1 r)

def parens (r : R) : R := seq [sym "(", r, sym ")"]

def braces (r : R) : R := seq [sym "\x7b", r, sym "\x7d"]

def brackets (r : R) : R := seq [sym "[", r, sym "]"]

def commaList (r : R) : R := .both (commas r) (opt (sym ","))

def primitiveWords : List String :=
  ["byte", "short", "int", "long", "char", "float", "double", "boolean", "void"]

def firmModifiers : List String :=
  ["public", "protected", "private", "abstract", "static", "final", "strictfp", "default",
    "synchronized", "native", "transient", "volatile"]

def modifierWords : List String := "sealed" :: firmModifiers

def valueWords : List String := ["this", "super", "new", "true", "false", "null", "switch"]

def resourceWords : List String := valueWords.erase "switch"

/-- The words that are names in an expression, but not of a type where an expression may stand. -/
def softWords : List String := ["open", "module", "record", "with", "sealed", "yield"]

def declarationWords : List String := ["class", "interface", "enum"]

def statementWords : List String :=
  ["if", "while", "for", "assert", "do", "break", "continue", "return", "throw", "try", "package",
    "import"] ++ declarationWords ++ firmModifiers

def nonSealed : R := seq [kw "non", gluedSym "-", .glued .word (· == "sealed")]

def nonSealedStart : R :=
  seq [kw "non", gluedSym "-", .glued .word fun w => "sealed".toList.isPrefixOf w.toList]

/-- A name with which an expression begins. Two words that touch are one that was cut behind `non-`. -/
def valueName : R :=
  alt [.both (kw "sealed") gluedWord, nameBut (valueWords ++ primitiveWords)]

def typeName : R := nameBut primitiveWords

def constructorName : R := nameBut ("record" :: primitiveWords ++ declarationWords)

def methodName : R := nameBut ["_"]

open Construct

local instance : Coe Construct R := ⟨Rule.ref⟩

def expression : R := expressionWith .free

def annotations : R := .many annotationUse

def closing : R := sym ">"

def closingOperator : R :=
  seq [sym ">", alt [
    seq [gluedSym ">", opt (gluedSym ">"), .notAhead (gluedSym "=")],
    seq [.notAhead (gluedSym ">"), opt (gluedSym "=")]]]

def assignmentOperator : R :=
  alt [
    symIn ["=", "+=", "-=", "*=", "/=", "&=", "|=", "^=", "%=", "<<="],
    seq [sym ">", gluedSym ">", opt (gluedSym ">"), gluedSym "="]]

def literal : R :=
  alt [anyOf .number, anyOf .character, textLiteral, kwIn ["true", "false", "null"]]

def typeDeclaration : R :=
  alt [classDeclaration, interfaceDeclaration, enumDeclaration, recordDeclaration,
    annotationDeclaration]

/-- A type where an expression may stand as well. Words that could go on with a name as an expression are
not left for what the type is of. -/
def expressionType (others : List String) : R :=
  .both (.notAhead (.both typeName (kwIn others))) (avoiding (valueWords ++ softWords) plainType)

def plainAnnotationUse : R := .both (.notAhead (sym "@interface")) annotationUse

/-- A rule behind annotations. Behind the first of them modifiers could go on. -/
def annotated (r : R) : R :=
  .both annotationUse (alt [.both (some1 annotationUse) r, avoiding modifierWords r])

def notAnnotated (ss : List String) : R :=
  .notAhead (.both plainAnnotationUse (kwIn ss))

def unmodified (r : R) : R :=
  seq [.notAhead nonSealedStart, notAnnotated modifierWords, avoiding firmModifiers r]

def unitWords : List String := ["module", "open", "package"]

def sealedOtherwise : R := .notAhead (.both (kw "sealed") (kw "instanceof"))

def atStatement (r : R) : R :=
  .both (.notAhead (sym "@interface")) (unmodified (avoiding statementWords r))

def leadingType : R := avoiding statementWords (expressionType ["instanceof"])

def memberType : R := avoiding ("record" :: declarationWords ++ modifierWords) plainType

def methodOf (resultType : R) : R :=
  seq [alt [seq [typeParameters, annotations, plainType, name], .both resultType methodName],
    formalParameters, opt dimensions, opt throwsClause, alt [block, sym ";"]]

def variablesOf (type : R) : R := seq [type, commas1 declarator, sym ";"]

def modifiedType (unmodifiedType : R) : R :=
  alt [seq [sealedOtherwise, looseModifiers, plainType], unmodified unmodifiedType]

def loopType : R := modifiedType (expressionType ["instanceof", "when"])

def methodReference : R := seq [sym "::", opt typeArguments, name]

def fieldBut (ss : List String) : R :=
  alt [kw "this", .both (nameBut ss) (.notAhead (sym "("))]

def callBut (ss : List String) : R :=
  .both (alt [.both typeArguments name, nameBut ss]) arguments

def throughSuper (r : R) : R := seq [kw "super", sym ".", r]

def lambdaParameters : R :=
  .both (.notAhead (.both (sym "(") (alt [kwIn (valueWords ++ softWords.erase "sealed"),
    .both (nameBut (primitiveWords ++ firmModifiers)) (kw "instanceof")]))) formalParameters

/-- A word that begins a condition of a label, since an expression cannot go on behind it. -/
def caseGuard : R :=
  .both (kw "when") (alt [nameBut ["instanceof"], literal, symIn ["!", "~"]])

def ruleBody : R := .both (sym "->") (alt [throwStatement, block,
    .both (avoiding ["throw"] expression) (sym ";")])

def wholeRuleBody : R := .both ruleBody (.ahead (alt [kwIn ["case", "default"], sym "\x7d"]))

def labelOf (following : R) (e : R) : R :=
  alt [kw "default",
    seq [kw "case", alt [
        .both casePattern (.ahead (alt [following, .both (kw "when") (.notAhead following)])),
        .both (.notAhead (.both (some1 (.both valueName (sym "("))) (kw "_"))) (commas1 e)],
      opt (.both (kw "when") e)]]

def rules : Construct → R
  -- texts
  | file => .both (.many fileItem) (anyOf .ending)
  | fileItem =>
    alt [statement, seq [notAnnotated unitWords, modifiers, method], methodOf leadingType]
  -- names and types
  | qualifiedName => sepBy1 "." name
  | primitive => kwIn primitiveWords
  | namedType =>
    seq [typeName, opt typeArguments, .many (seq [sym ".", annotations, name, opt typeArguments])]
  | genericType =>
    seq [typeName, .many (seq [opt typeArguments, sym ".", annotations, name]), typeArguments]
  | outerType =>
    seq [typeName, .many (seq [opt typeArguments, sym ".", annotations, name]), .ahead (sym "<")]
  | literalType =>
    let annotatedName := .both (some1 annotationUse) name
    seq [typeName, .many (.both (sym ".") (nameBut ["new"])),
      alt [typeArguments,
        seq [sym ".", alt [annotatedName, kw "new"], opt typeArguments]],
      .many (seq [sym ".", alt [annotatedName, nameBut ["class"]], opt typeArguments])]
  | simpleType => alt [primitive, namedType]
  | plainType => .both simpleType (opt dimensions)
  | type => .both annotations plainType
  | dimensions => some1 (.both annotations (.both (sym "[") (sym "]")))
  | typeArguments => seq [sym "<", commas typeArgument, closing]
  | typeArgument => alt [wildcard, type]
  | wildcard => seq [annotations, sym "?", opt (.both (kwIn ["extends", "super"]) type)]
  | typeParameters => seq [sym "<", commas1 typeParameter, closing]
  | typeParameter => seq [annotations, name, opt (.both (kw "extends") (sepBy1 "&" type))]
  -- annotations and modifiers
  | annotationUse =>
    .both (alt [.both (sym "@") qualifiedName,
        seq [sym "@interface", opt gluedWord, .many (.both (sym ".") name)]])
      (opt (parens (alt [elementPairs,
        .both (.notAhead (.both name (sym "="))) elementValue, .empty])))
  | elementPairs =>
    let pairOf (key : R) := seq [key, sym "=", elementValue]
    .both (pairOf (nameBut (valueWords ++ primitiveWords))) (.many (.both (sym ",") (pairOf name)))
  | elementValue =>
    alt [elementArray,
      .both annotationUse (alt [.ahead (symIn [",", ")", "\x7d", ";"]),
        seq [annotations, plainType, methodReference, opt (tail .free), .many (operation .free)]]),
      .both (.notAhead (sym "@")) expression]
  | elementArray => braces (commaList elementValue)
  | modifier =>
    alt [plainAnnotationUse, kwIn modifierWords, nonSealed]
  | modifiers => some1 modifier
  | looseModifiers => some1 (alt [annotationUse, kwIn modifierWords, nonSealed])
  -- declarations
  | moduleDeclaration =>
    seq [.notAhead (.both (kw "module") (kw "instanceof")), .many plainAnnotationUse, opt (kw "open"),
      kw "module", qualifiedName, braces (.many moduleDirective)]
  | moduleDirective =>
    .both (alt [
      seq [kw "requires", .many (kwIn ["transitive", "static"]), qualifiedName],
      seq [kwIn ["exports", "opens"], qualifiedName,
        opt (.both (kw "to") (commas1 qualifiedName))],
      .both (kw "uses") qualifiedName,
      seq [kw "provides", qualifiedName, kw "with", commas1 qualifiedName]]) (sym ";")
  | packageDeclaration =>
    seq [.many plainAnnotationUse, kw "package", qualifiedName, sym ";"]
  | importDeclaration =>
    seq [kw "import", opt (kw "static"), qualifiedName, opt (.both (sym ".") (sym "*")), sym ";"]
  | declaration => .both (opt modifiers) typeDeclaration
  | memberDeclaration =>
    alt [sym ";", block, staticInitializer,
      .both (opt modifiers)
        (alt [typeDeclaration, constructor, compactConstructor, method, field])]
  | interfaceMember =>
    alt [sym ";", .both (opt modifiers) (alt [typeDeclaration, method, field])]
  | annotationMember =>
    let memberType := avoiding (declarationWords ++ modifierWords) plainType
    alt [sym ";", .both (opt modifiers)
      (alt [classDeclaration, interfaceDeclaration, enumDeclaration, annotationDeclaration,
        .both (.ahead (.both memberType methodName)) element, variablesOf memberType])]
  | classDeclaration =>
    seq [kw "class", name, opt typeParameters, opt superclass, opt interfaces, opt permitted,
      classBody]
  | interfaceDeclaration =>
    seq [kw "interface", name, opt typeParameters, opt extendedInterfaces, opt permitted,
      interfaceBody]
  | enumDeclaration => seq [kw "enum", name, opt interfaces, enumBody]
  | recordDeclaration =>
    seq [kw "record", name, opt typeParameters, formalParameters, opt interfaces, classBody]
  | annotationDeclaration => seq [sym "@interface", name, annotationBody]
  | superclass => .both (kw "extends") type
  | interfaces => .both (kw "implements") (commas1 type)
  | extendedInterfaces => .both (kw "extends") (commas1 type)
  | permitted => .both (kw "permits") (commas1 type)
  | classBody => braces (.many memberDeclaration)
  | interfaceBody => braces (.many interfaceMember)
  | annotationBody => braces (.many annotationMember)
  | enumBody => braces (.both (commaList enumConstant) (opt enumMembers))
  | enumConstant => seq [opt looseModifiers, name, opt arguments, opt classBody]
  | enumMembers => .both (sym ";") (.many memberDeclaration)
  | staticInitializer => .both (kw "static") block
  | constructor =>
    seq [alt [.both typeParameters typeName, constructorName], formalParameters,
      opt throwsClause, constructorBody]
  | constructorBody => braces (opt (.both (alt [statement, constructorCall]) (.many statement)))
  | constructorCall =>
    .both (alt [seq [opt typeArguments, kwIn ["this", "super"], arguments],
      seq [atStatement primary, sym ".", opt typeArguments, kw "super",
        arguments]]) (sym ";")
  | compactConstructor => .both constructorName block
  | method => methodOf memberType
  | field => variablesOf memberType
  | element =>
    seq [plainType, methodName, sym "(", sym ")", opt dimensions, opt defaultValue, sym ";"]
  | defaultValue => .both (kw "default") elementValue
  | declarator => .both declaratorName (opt (.both (sym "=") initializer))
  | declaratorName => .both name (opt dimensions)
  | initializer => alt [arrayInitializer, expression]
  | arrayInitializer => braces (commaList initializer)
  | formalParameters =>
    let parameters := commas (alt [spreadParameter, formalParameter])
    parens (alt [.both receiverParameter (opt (.both (sym ",") parameters)),
      .both (.notAhead (.both (.notAhead annotationUse) receiverParameter)) parameters])
  | formalParameter => seq [opt looseModifiers, plainType, declaratorName]
  | spreadParameter => seq [opt looseModifiers, plainType, sym "...", annotations, declarator]
  | receiverParameter =>
    let qualifier := .both (nameBut ["this"]) (sym ".")
    .both (alt [annotated (.both plainType (.many qualifier)),
        seq [avoiding modifierWords plainType,
          opt (.both (avoiding ("_" :: softWords) qualifier) (.many qualifier))]])
      (kw "this")
  | throwsClause => .both (kw "throws") (commas1 type)
  -- statements
  | block => braces (.many statement)
  | statement =>
    alt [block, sym ";", ifStatement, whileStatement, doStatement, forEachStatement, forStatement,
      assertStatement, jumpStatement, returnStatement, throwStatement, synchronizedStatement,
      tryStatement, switchStatement,
      packageDeclaration, importDeclaration, moduleDeclaration, statementDeclaration,
      yieldStatement, labeled, expressionStatement]
  | statementDeclaration =>
    seq [.notAhead (.both (kwIn ["record", "sealed"]) (kw "instanceof")), notAnnotated unitWords,
      alt [declaration, localVariable]]
  | localVariable => variablesOf (alt [.both modifiers memberType, unmodified leadingType])
  | expressionStatement =>
    seq [notAnnotated ("record" :: declarationWords ++ unitWords),
      atStatement (avoiding ["switch"] expression), sym ";"]
  | labeled =>
    seq [nameBut (statementWords ++ valueWords ++ primitiveWords ++ softWords), sym ":",
      statement]
  | ifStatement =>
    seq [kw "if", parens expression, statement, clause "else" (.both (kw "else") statement)]
  | whileStatement => seq [kw "while", parens expression, statement]
  | doStatement => seq [kw "do", statement, kw "while", parens expression, sym ";"]
  | forStatement =>
    seq [kw "for", sym "(", alt [
        variablesOf loopType,
        .both (opt (unmodified (commas1 expression))) (sym ";")],
      opt expression, sym ";", commas expression, sym ")", statement]
  | forEachStatement =>
    seq [kw "for", sym "(", loopType, declaratorName, sym ":", expression, sym ")", statement]
  | assertStatement =>
    seq [kw "assert", expression, opt (.both (sym ":") expression), sym ";"]
  | jumpStatement => seq [kwIn ["break", "continue"], opt name, sym ";"]
  | returnStatement => seq [kw "return", opt expression, sym ";"]
  | yieldStatement => seq [kw "yield", avoiding ["instanceof"] expression, sym ";"]
  | throwStatement => seq [kw "throw", expression, sym ";"]
  | synchronizedStatement => seq [kw "synchronized", parens expression, block]
  | switchStatement =>
    .both switchExpression
      (alt [.both (.many (operation .free)) (sym ";"), .notAhead (kw "instanceof")])
  | tryStatement =>
    .both (kw "try") (alt [
      seq [resources, block, .many catchClause, .notAhead (kw "catch"),
        clause "finally" finallyClause],
      .both block (alt [
        seq [some1 catchClause, .notAhead (kw "catch"), clause "finally" finallyClause],
        finallyClause])])
  | catchClause =>
    seq [kw "catch", parens (seq [opt looseModifiers, sepBy1 "|" plainType, declaratorName]), block]
  | finallyClause => .both (kw "finally") block
  | resources => parens (.both (sepBy1 ";" resource) (opt (sym ";")))
  | resource =>
    alt [
      seq [modifiedType (avoiding (resourceWords ++ softWords) plainType), declaratorName, sym "=",
        expression],
      unmodified (alt [
        .both (alt [parens expression, .both (kw "switch") arguments, start]) fieldTail,
        .both superField (opt fieldTail),
        .both (nameBut (resourceWords ++ primitiveWords)) fieldTail]),
      nameBut (resourceWords ++ primitiveWords ++ softWords ++ firmModifiers)]
  -- switches
  | switchBlock =>
    braces (alt [.both (some1 switchRule) (.ahead (sym "\x7d")), .many switchGroup])
  | switchRule => alt [.both (ruleLabel .first) wholeRuleBody, .both (ruleLabel .fitting) ruleBody]
  | switchGroup =>
    .both (some1 (.both groupLabel (sym ":")))
      (.many (avoiding ["case", "default"] statement))
  | ruleLabel arrows => labelOf (sym "->") (expressionWith arrows)
  | groupLabel => labelOf (sym ":") expression
  | casePattern =>
    let argument := alt [kwIn valueWords, .both typeName (kw "instanceof")]
    alt [seq [.notAhead (.both (some1 (.both (nameBut valueWords) (sym "("))) argument),
        avoiding valueWords recordPattern],
      typePattern]
  | typePattern => .both (expressionType ["instanceof", "when"]) name
  | recordPattern =>
    .both (alt [.both typeName (.ahead (sym "(")), avoiding softWords genericType])
      (parens (commas patternComponent))
  | patternComponent =>
    alt [.both (kw "_") (.ahead (symIn [",", ")"])), avoiding ["_"] recordPattern,
      .both (avoiding ("_" :: softWords) plainType) name]
  -- expressions
  | expressionWith arrows => .both (operand arrows) (.many (operation arrows))
  | operand arrows =>
    alt [lambda arrows, .both (symIn ["+", "-", "!", "~", "++", "--"]) (operand arrows),
      castExpression arrows, switchExpression, .both start (opt (tail arrows)),
      .both (alt [superField, valueName]) (opt (assignableTail arrows))]
  | operation arrows =>
    alt [.both operator (operand arrows), typeTest,
      seq [sym "?", expression, sym ":", expressionWith arrows], symIn ["++", "--"]]
  | lambda arrows =>
    let body := alt [block, expressionWith arrows]
    let oneName := alt [valueName, parens (unmodified valueName)]
    let several := alt [inferredParameters, lambdaParameters]
    match arrows with
    | .free => seq [alt [oneName, several], sym "->", body]
    | .first => seq [several, sym "->", body]
    | .fitting =>
      seq [alt [several, .both oneName (.notAhead wholeRuleBody)], sym "->", body]
  | castExpression arrows =>
    let first := alt [annotated plainType, unmodified (avoiding (valueWords ++ softWords) plainType)]
    seq [sym "(", first, alt [
      seq [sym ")", .notAhead (.both (opt (symIn ["++", "--"])) typeTest), .notAhead caseGuard,
        operand arrows],
      seq [some1 (.both (sym "&") type), sym ")", alt [lambda arrows, primary,
        .both (kw "switch") (alt [.both (sym "->") (alt [block, expressionWith arrows]),
          .both (opt arguments) (.many (alt [access, call]))])]]]]
  | tail arrows =>
    alt [.both access (opt (assignableTail arrows)), .both call (opt (tail arrows))]
  | assignableTail arrows => alt [assignment arrows, tail arrows]
  | assignment arrows => .both assignmentOperator (expressionWith arrows)
  | operator =>
    alt [symIn ["<", "<=", "==", "!=", "&&", "||", "+", "-", "*", "/", "&", "|", "^", "%", "<<"],
      closingOperator]
  | typeTest =>
    let following := alt [nameBut ["instanceof", "when"], anyOf .number, anyOf .character, textLiteral,
      symIn ["(", ".", "[", "::", "!", "~", "@", "="]]
    let tested (type : R) := avoiding softWords (.both annotations type)
    seq [kw "instanceof", opt (kw "final"), alt [recordPattern,
      seq [tested plainType, opt (nameBut ["instanceof", "when"]), .notAhead following],
      tested outerType]]
  | inferredParameters =>
    parens (.both (unmodified valueName) (some1 (.both (sym ",") name)))
  | switchExpression => seq [kw "switch", parens expression, switchBlock]
  | primary => .both (alt [start, superField, valueName]) (.many (alt [access, call]))
  | start =>
    alt [literal, .both (kw "this") (.notAhead (sym "(")),
      .both (kw "super") (alt [methodReference,
        .both (sym ".") (alt [throughSuper (callBut ["this"]), callBut ["this", "super"]])]),
      parens (unmodified expression), creation, .both valueName arguments, typeReference]
  | superField =>
    seq [kw "super", sym ".", alt [throughSuper (fieldBut ["this"]), fieldBut ["this", "super"]]]
  | typeReference =>
    avoiding (valueWords ++ softWords) (alt [.both type methodReference,
      seq [simpleType, dimensions, sym ".", kw "class"],
      seq [alt [primitive, literalType], sym ".", kw "class"]])
  | access =>
    alt [brackets expression,
      .both (sym ".") (alt [throughSuper (fieldBut ["this"]), fieldBut ["this", "super", "new"]])]
  | call =>
    alt [
      .both (sym ".") (alt [throughSuper (callBut ["this"]), callBut ["this", "super", "new"]]),
      .both (sym ".") creation,
      .both (sym ".") textLiteral,
      methodReference]
  | fieldTail =>
    alt [.both (.both (.notAhead (sym "[")) access) (opt fieldTail),
      .both (alt [access, call]) fieldTail]
  | creation =>
    seq [kw "new", annotations, opt (.both typeArguments annotations), simpleType,
      alt [.both arguments (opt classBody),
        .both dimensions arrayInitializer,
        .both (some1 (.both annotations (brackets expression)))
          (opt (.both dimensions (.notAhead (sym "["))))]]
  | arguments => parens (commas expression)
  | textLiteral =>
    alt [anyOf .text,
      seq [anyOf .textStart, expression, .many (.both (anyOf .textMiddle) expression),
        anyOf .textEnd]]

end Grammar

end ClassLocator.Java

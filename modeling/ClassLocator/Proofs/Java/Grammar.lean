import ClassLocator.Java.Declarations
import ClassLocator.Proofs.Java.Rule

namespace ClassLocator.Java

open Grammar (rules)

/-- The constructs that may be right around one, for those that are told by them. -/
def Construct.parents? : Construct → Option (List Construct)
  | .file => some []
  | .fileItem => some [.file]
  | .statementDeclaration => some [.statement]
  | .declaration => some [.statementDeclaration]
  | .classDeclaration | .interfaceDeclaration | .enumDeclaration | .annotationDeclaration =>
    some [.declaration, .memberDeclaration, .interfaceMember, .annotationMember]
  | .recordDeclaration => some [.declaration, .memberDeclaration, .interfaceMember]
  | .memberDeclaration => some [.classBody, .enumMembers]
  | .interfaceMember => some [.interfaceBody]
  | .annotationMember => some [.annotationBody]
  | .enumMembers => some [.enumBody]
  | .method => some [.fileItem, .memberDeclaration, .interfaceMember]
  | .constructor => some [.memberDeclaration]
  | _ => none

theorem Construct.mem_parents (c : Construct) :
    ∀ d ∈ (rules c).refs, ∀ parents ∈ d.parents?, c ∈ parents := by
  cases c with
  | ruleLabel arrows | expressionWith arrows | operand arrows | operation arrows | lambda arrows
  | castExpression arrows | tail arrows | assignableTail arrows | assignment arrows =>
    cases arrows <;> decide
  | _ => decide

def knownKinds : List Token.Kind :=
  [.word, .number, .character, .text, .textStart, .textMiddle, .textEnd, .symbol]

theorem Construct.kinds_subset (c : Construct) (hc : c ≠ .file) : (rules c).kinds ⊆ knownKinds := by
  cases c with
  | file => exact absurd rfl hc
  | ruleLabel arrows | expressionWith arrows | operand arrows | operation arrows | lambda arrows
  | castExpression arrows | tail arrows | assignableTail arrows | assignment arrows =>
    cases arrows <;> decide
  | _ => decide

theorem Construct.ne_file_of_mem_refs {c d : Construct} (h : d ∈ (rules c).refs) : d ≠ .file := by
  rintro rfl
  simpa using c.mem_parents .file h [] rfl

def fullConstructs : List Construct :=
  [.modifier, .annotationUse, .typeParameter, .type, .plainType, .simpleType, .primitive, .namedType,
    .formalParameter, .spreadParameter, .receiverParameter]

theorem Construct.isFull : ∀ c ∈ fullConstructs, (rules c).isFull fullConstructs.contains := by
  decide

def isOpening (kind : Token.Kind) (s : String) : Prop := kind = .word ∨ s.toList.head? = some '@'

def openConstructs : List Construct :=
  [.modifier, .annotationUse, .type, .plainType, .simpleType, .primitive, .namedType]

theorem Construct.opens : ∀ c ∈ openConstructs,
    (rules c).Opens isOpening openConstructs.contains fullConstructs.contains := by
  have hword (s : String) : isOpening .word s := .inl rfl
  have hmark (mark s : String) (hmark : mark.toList.head? = some '@') (h : (s == mark) = true) :
      isOpening .symbol s := by
    rw [beq_iff_eq] at h
    exact .inr (h ▸ hmark)
  intro c hc
  simp only [openConstructs, List.mem_cons, List.not_mem_nil, or_false] at hc
  rcases hc with rfl | rfl | rfl | rfl | rfl | rfl | rfl
  · exact ⟨⟨trivial, .inr rfl⟩, fun s _ => hword s, fun s _ => hword s, .inl rfl⟩
  · exact ⟨⟨⟨fun s => hmark "@" s rfl, .inl rfl⟩, fun s => hmark "@interface" s rfl, .inl rfl⟩, .inl rfl⟩
  · exact ⟨rfl, .inr rfl⟩
  · exact ⟨rfl, .inl rfl⟩
  · exact ⟨rfl, rfl⟩
  · exact fun s _ => hword s
  · exact ⟨fun s _ => hword s, .inl rfl⟩

namespace Source

/-- The children of a node fit the rule of its construct. -/
def Conforms : Source → Prop
  | .leaf _ => True
  | .node c cs => (rules c).Fits rules cs

theorem Conforms.of_mem {t u : Source} (h : t.Conforms) (hu : u ∈ t.children) : u.Conforms := by
  cases t with
  | leaf token => simp [children] at hu
  | node c cs =>
    cases u with
    | leaf token => trivial
    | node d ds => exact (Rule.Fits.of_mem h hu).2

theorem Conforms.mem_refs {c d : Construct} {cs ds : List Source} (h : Conforms (.node c cs))
    (hd : .node d ds ∈ cs) : d ∈ (rules c).refs := (Rule.Fits.of_mem h hd).1

theorem Conforms.exists_node {c : Construct} {cs : List Source} (h : Conforms (.node c cs))
    (hc : (rules c).kinds = []) : ∀ t ∈ cs, ∃ d ds, t = .node d ds ∧ d ∈ (rules c).refs :=
  Rule.Fits.exists_node h hc

theorem Conforms.kind_mem {c : Construct} {cs : List Source} (h : Conforms (.node c cs)) (hc : c ≠ .file) :
    ∀ t ∈ Tree.tokensOf cs, t.kind ∈ knownKinds :=
  Rule.Fits.kind_mem (fun d hd => ⟨d.kinds_subset hd, fun _ => Construct.ne_file_of_mem_refs⟩)
    (c.kinds_subset hc) (fun _ => Construct.ne_file_of_mem_refs) h

theorem Conforms.tokensOf_ne_nil {c : Construct} {cs : List Source} (h : Conforms (.node c cs))
    (hc : c ∈ fullConstructs) : Tree.tokensOf cs ≠ [] :=
  Rule.Fits.tokensOf_ne_nil (fun d hd => d.isFull (List.contains_iff_mem.mp hd)) h (c.isFull hc)

theorem Conforms.isOpening {c : Construct} {cs : List Source} (h : Conforms (.node c cs))
    (hc : c ∈ openConstructs) : ∀ t ∈ (Tree.tokensOf cs).head?, isOpening t.kind t.text :=
  Rule.Fits.head?_tokensOf (fun d hd => d.isFull (List.contains_iff_mem.mp hd))
    (fun d hd => d.opens (List.contains_iff_mem.mp hd)) h (c.opens hc)

end Source

theorem of_parse {source : String} {file : Source} (h : parse source = .ok file) :
    file.construct? = some .file ∧ file.Conforms ∧ ∃ rest, Lexer.lex source = file.tokens ++ rest := by
  unfold parse at h
  cases hread : readFile (Lexer.lex source) with
  | refused furthest =>
    rw [hread] at h
    cases h
  | taken rest trees furthest =>
    rw [hread] at h
    obtain ⟨read, hfits, rfl, htokens⟩ := Rule.fits_of_read hread
    obtain ⟨cs, hcs, rfl⟩ := Rule.fits_ref_iff.mp hfits
    cases h
    exact ⟨rfl, hcs, rest, by simpa [Tree.tokensOf] using htokens⟩

end ClassLocator.Java

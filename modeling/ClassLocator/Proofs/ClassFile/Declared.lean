import ClassLocator.Proofs.ClassFile.Assembly
import ClassLocator.Proofs.ClassFile.Spelling
import ClassLocator.Proofs.MethodType.Descriptor
import ClassLocator.Proofs.MethodType.Signature

namespace ClassLocator

namespace MethodType

theorem withDimensions_ne {element : String} {n : Nat} (h : element ≠ "" ∨ n ≠ 0) :
    withDimensions element n ≠ "" := by
  unfold withDimensions
  intro he
  obtain ⟨h₁, h₂⟩ := String.append_eq_empty_iff.mp he
  cases n with
  | zero => exact h.elim (· h₁) (· rfl)
  | succ n =>
    rw [List.replicate_succ, String.join_cons, String.append_eq_empty_iff] at h₂
    exact absurd h₂.1 (by decide)

theorem name_ne {stops : List Char} {name : String} (h : IsName stops name) : name ≠ "" := by
  intro hn
  exact h.1 (by simp [hn])

theorem dotted_ne {stops : List Char} {name : String} (h : IsName stops name) :
    dotted name ≠ "" := fun hd => name_ne h (String.map_eq_empty.mp hd)

theorem keyword_ne (t : BaseType) : t.keyword ≠ "" := by
  cases t <;> decide

theorem FieldType.render_ne {t : FieldType} (h : t.WellFormed) : t.render ≠ "" := by
  obtain ⟨n, element⟩ := t
  refine withDimensions_ne (.inl ?_)
  cases element with
  | base t => exact keyword_ne t
  | object name => exact dotted_ne h.element

theorem Descriptor.result_ne {d : Descriptor} (h : d.WellFormed) : d.render.result ≠ "" := by
  cases hr : d.result with
  | none => simp [render, hr, voidKeyword]
  | some t =>
    simp only [render, hr, Option.map_some, Option.getD_some]
    exact FieldType.render_ne (h.result t hr)

theorem GenericType.render_ne {t : GenericType} (h : t.WellFormed) : t.render ≠ "" := by
  cases t with
  | base t => exact keyword_ne t
  | parameter name => exact name_ne h
  | ofClass outer inner =>
    obtain ⟨name, arguments⟩ := outer
    intro hr
    rw [render, String.append_assoc] at hr
    exact dotted_ne h.1 (String.append_eq_empty_iff.mp hr).1
  | array n element =>
    rw [render]
    have hn : 1 ≤ n := h.1
    exact withDimensions_ne (.inr (by omega))

theorem Signature.result_ne {s : Signature} (h : s.WellFormed) : s.render.result ≠ "" := by
  cases hr : s.result with
  | none => simp [render, hr, voidKeyword]
  | some t =>
    simp only [render, hr, Option.map_some, Option.getD_some]
    exact GenericType.render_ne (h.result t hr).wellFormed

end MethodType

namespace ClassFile

/-- The name of a class in source: the last part of its internal name, unless that is empty. -/
def ownName (internalName : String) : String :=
  let base := lastPart '/' internalName.toList
  let inner := lastPart '$' base
  String.ofList (if inner = [] then base else inner)

namespace MethodSource

structure WellFormed (m : MethodSource) : Prop where
  descriptor : m.descriptor.WellFormed
  signature : ∀ s ∈ m.signature, s.WellFormed

def types (m : MethodSource) : MethodType := (m.signature.map (·.render)).getD m.descriptor.render

def thrown (m : MethodSource) : List String :=
  if m.types.thrown = [] then (m.exceptions.getD []).map MethodType.dotted else m.types.thrown

def line (owner : String) (m : MethodSource) : String :=
  if m.name = "<clinit>" then spaced (keywords m.accessFlags) ++ "\x7b\x7d;"
  else
    spaced (keywords m.accessFlags) ++
    (if m.types.typeParameters = [] then "" else "<" ++ ",".intercalate m.types.typeParameters ++ "> ") ++
    (if m.name = "<init>" then owner else m.types.result ++ " " ++ m.name) ++
    "(" ++ ",".intercalate (withEllipsis m.types.parameters) ++ ")" ++
    (if m.thrown = [] then "" else " throws " ++ ", ".intercalate m.thrown) ++ ";"

def declaration (owner : String) (m : MethodSource) : Declaration :=
  if m.name = classInitializer then
    { owner, modifiers := modifiers m.accessFlags, name := m.name, role := .staticInitializer }
  else
    { owner
      modifiers := modifiers m.accessFlags
      typeParameters := m.types.typeParameters
      result := if m.name = objectInitializer then "" else m.types.result
      name := m.name
      parameters := variadic m.types.parameters
      thrown := m.thrown
      role := if m.name = objectInitializer then .constructor else .method }

theorem result_ne {m : MethodSource} (h : m.WellFormed) : m.types.result ≠ "" := by
  unfold types
  cases hs : m.signature with
  | none => exact MethodType.Descriptor.result_ne h.descriptor
  | some s => exact MethodType.Signature.result_ne (h.signature s hs)

theorem render_declaration {m : MethodSource} (h : m.WellFormed) (owner : String) :
    (m.declaration owner).render = m.line owner := by
  by_cases hc : m.name = "<clinit>"
  · have hi : m.name = classInitializer := hc
    rw [declaration, if_pos hi, line, if_pos hc, Declaration.render_staticInitializer rfl,
      modifiers_eq_keywords]
  · have hi : ¬m.name = classInitializer := hc
    rw [declaration, if_neg hi, line, if_neg hc]
    have hr := result_ne h
    have hgt : ("> " : String) = ">" ++ " " := rfl
    by_cases ho : m.name = "<init>"
    · have hoi : m.name = objectInitializer := ho
      rw [Declaration.render_of_ne (by simp [hoi])]
      simp only [Declaration.wordsBefore, if_pos hoi, if_pos ho, true_or, if_true, spaced_append,
        spaced_ite, modifiers_eq_keywords, variadic_eq_withEllipsis, hgt, String.append_assoc, spaced,
        String.empty_append]
    · have hoi : ¬m.name = objectInitializer := ho
      rw [Declaration.render_of_ne (by simp [hoi])]
      simp only [Declaration.wordsBefore, if_neg hoi, if_neg ho, reduceCtorEq, hr, or_self, if_false,
        spaced_append, spaced_ite, modifiers_eq_keywords, variadic_eq_withEllipsis, hgt,
        String.append_assoc, spaced, String.append_empty]

end MethodSource

section
variable {pool : ConstantPool} {m : MethodSource} {x : Member}

theorem mapM_dotted {names : List String} {indexes : List Nat}
    (h : List.Forall₂ (fun s index => pool.className index = .ok s) names indexes) :
    indexes.mapM (fun index => MethodType.dotted <$> pool.className index) =
      .ok (names.map MethodType.dotted) := by
  induction h with
  | nil => rfl
  | cons hab _ ih =>
    rw [List.mapM_cons, hab, ih]
    rfl

namespace Member.Holds

theorem erasedType (h : x.Holds pool m) (hw : m.WellFormed) :
    (x.method pool).erasedType pool = .ok m.descriptor.render := by
  have hd : pool.utf8 (x.method pool).descriptorIndex = .ok m.descriptor.encode := h.descriptor
  rw [Method.erasedType, hd]
  exact parseDescriptor_encode hw.descriptor

theorem genericType (h : x.Holds pool m) (hw : m.WellFormed) (hp : pool.entries.size < 2 ^ 16) :
    (x.method pool).genericType? pool = m.signature.map (·.render) := by
  have hr := h.signatureIndex hp
  have hs := hw.signature
  rw [Method.genericType?]
  generalize (x.method pool).signatureIndex = index at hr ⊢
  generalize m.signature = signature at hr hs ⊢
  cases hr with
  | none => rfl
  | some ht =>
    simp [ClassFile.genericType, ht, parseSignature_encode (hs _ rfl), Except.toOption]

theorem exceptions (h : x.Holds pool m) (hf : m.Fits) (hp : pool.entries.size < 2 ^ 16) :
    (x.method pool).exceptions pool = .ok ((m.exceptions.getD []).map MethodType.dotted) := by
  have hr := h.exceptionIndexes hf hp
  rw [Method.exceptions]
  generalize (x.method pool).exceptionIndexes = indexes at hr ⊢
  generalize m.exceptions = names at hr ⊢
  cases hr with
  | none => rfl
  | some hn => exact mapM_dotted hn

theorem describe (h : x.Holds pool m) (hw : m.WellFormed) (hf : m.Fits)
    (hp : pool.entries.size < 2 ^ 16) (owner : String) :
    (x.method pool).describe pool owner m.name = .ok (m.declaration owner) := by
  have hflags : (x.method pool).accessFlags = m.accessFlags := h.accessFlags
  unfold Method.describe MethodSource.declaration
  rw [hflags]
  by_cases hc : m.name = classInitializer
  · rw [if_pos hc, if_pos hc]
    rfl
  · have ht : (if m.types.thrown.isEmpty then (m.exceptions.getD []).map MethodType.dotted
        else m.types.thrown) = m.thrown := by
      cases hs : m.types.thrown <;> simp [MethodSource.thrown, hs]
    rw [if_neg hc, if_neg hc, h.erasedType hw, h.exceptions hf hp, h.genericType hw hp, ← ht]
    rfl

theorem outcome (h : x.Holds pool m) (hw : m.WellFormed) (hf : m.Fits)
    (hp : pool.entries.size < 2 ^ 16) (owner filter : String) :
    (x.method pool).outcome? pool owner filter =
      if m.name = filter then some (.ok (m.declaration owner)) else none := by
  have hn : pool.utf8 (x.method pool).nameIndex = .ok m.name := h.name
  simp only [Method.outcome?, hn, h.describe hw hf hp]

end Member.Holds

theorem filterMap_outcome {ms : List MethodSource} {xs : List Member}
    (h : List.Forall₂ (fun m x => Member.Holds pool m x) ms xs) (hw : ∀ m ∈ ms, m.WellFormed)
    (hf : ∀ m ∈ ms, m.Fits) (hp : pool.entries.size < 2 ^ 16) (owner filter : String) :
    (xs.map (Member.method pool)).filterMap (·.outcome? pool owner filter) =
      (ms.filter (·.name = filter)).map fun m => .ok (m.declaration owner) := by
  induction h with
  | nil => rfl
  | @cons m x ms xs hab _ ih =>
    obtain ⟨hw, hws⟩ := List.forall_mem_cons.mp hw
    obtain ⟨hf, hfs⟩ := List.forall_mem_cons.mp hf
    have ho := hab.outcome hw hf hp owner filter
    by_cases hn : m.name = filter
    · rw [if_pos hn] at ho
      rw [List.map_cons, List.filterMap_cons_some ho, ih hws hfs,
        List.filter_cons_of_pos (by simpa using hn), List.map_cons]
    · rw [if_neg hn] at ho
      rw [List.map_cons, List.filterMap_cons_none ho, ih hws hfs,
        List.filter_cons_of_neg (by simpa using hn)]

end

theorem simpleName_eq_ownName (internalName : String) : simpleName internalName = ownName internalName := by
  simp only [simpleName, ownName, afterLast_eq_lastPart, List.isEmpty_iff]

section

variable {bytes : ByteArray} {filter : String} (hf : filter ≠ "")

include hf in
theorem declarations_of_parse {c : ClassFile} {internalName : String} (hp : parse bytes = .ok c)
    (hn : c.name = .ok internalName) :
    declarations bytes filter =
      .ok (c.methods.filterMap (·.outcome? c.constantPool (ownName internalName) filter)) := by
  have hempty : ¬filter.isEmpty = true := by rwa [String.isEmpty_iff]
  rw [declarations, if_neg hempty, hp]
  simp only [bind, Except.bind, hn, simpleName_eq_ownName]
  rfl

include hf in
theorem declarations_eq_error_iff {e : Failure} :
    declarations bytes filter = .error e ↔
      parse bytes = .error e ∨ ∃ c, parse bytes = .ok c ∧ c.name = .error e := by
  cases hp : parse bytes with
  | error e' => simp [declarations, hf, hp, bind, Except.bind]
  | ok c =>
    cases hn : c.name with
    | error e' => simp [declarations, hf, hp, hn, bind, Except.bind]
    | ok internalName => simp [declarations_of_parse hf hp hn, hn]

end

theorem declarations_eq {d : ClassSource} {others : List (List Entry)} {filter : String}
    (hw : ∀ m ∈ d.methods, m.WellFormed) (hf : d.Fits others) (hne : filter ≠ "")
    (rest : List UInt8) :
    declarations ⟨((d.layout others).wire ++ rest).toArray⟩ filter =
      .ok ((d.methods.filter (·.name = filter)).map fun m => .ok (m.declaration (ownName d.name))) := by
  obtain ⟨hthis, hmethods⟩ := ClassSource.layout_writes hf
  have hsize := ClassSource.layout_pool_size hf
  have hp := parse_wire (ClassSource.layout_wellFormed hf) rest
  have hname : (d.layout others).classFile.name = .ok d.name := hthis
  rw [declarations_of_parse hne hp hname]
  exact congrArg Except.ok (filterMap_outcome hmethods hw hf.methods hsize (ownName d.name) filter)

/-- The class file assembled from a source gives one declaration for each method of the name asked for, in
order, and each prints the line that its source describes. Constants of other origin among those of the
class make no difference, nor do bytes behind it. -/
theorem declarations_layout (d : ClassSource) (others : List (List Entry)) (rest : List UInt8)
    (filter : String) (hw : ∀ m ∈ d.methods, m.WellFormed) (hf : d.Fits others)
    (hne : filter ≠ "") :
    ∃ ds : List Declaration,
      declarations ⟨((d.layout others).wire ++ rest).toArray⟩ filter = .ok (ds.map .ok) ∧
      ds.map (·.render) =
        (d.methods.filter (·.name = filter)).map (MethodSource.line (ownName d.name)) := by
  refine ⟨(d.methods.filter (·.name = filter)).map (MethodSource.declaration (ownName d.name)), ?_, ?_⟩
  · rw [declarations_eq hw hf hne rest, List.map_map]
    rfl
  · rw [List.map_map]
    refine List.map_congr_left fun m hm => ?_
    exact MethodSource.render_declaration (hw m (List.mem_of_mem_filter hm)) (ownName d.name)

section
open MethodType

def pairs : ClassSource where
  name := "util/Outer$Pairs"
  methods := [
    { accessFlags := 0x0001, name := "<init>", descriptor := ⟨[⟨0, .base .int⟩], none⟩ },
    { accessFlags := 0x0089
      name := "swap"
      descriptor := ⟨[⟨1, .object "java/lang/Object"⟩, ⟨2, .base .int⟩], none⟩
      signature := some ⟨[⟨"T", some (.ofClass (.mk "java/lang/Object" []) []), []⟩],
        [.array 1 (.parameter "T"), .array 2 (.base .int)], none, []⟩
      exceptions := some ["java/io/IOException"] }]

def pairsOthers : List (List Entry) :=
  [[], [.other 5 [0, 0, 0, 0, 0, 0, 0, 42]], [], [.utf8 [0xC0, 0x80], .classRef 3]]

theorem pairs_fits : pairs.Fits pairsOthers where
  name := by decide
  methodCount := by decide
  methods := by
    intro m hm
    simp only [pairs, List.mem_cons, List.not_mem_nil, or_false] at hm
    rcases hm with rfl | rfl
    · exact ⟨by decide, by decide, by decide, by simp, by simp, by simp⟩
    · exact ⟨by decide, by decide, by decide +kernel, by decide +kernel, by simp, by decide +kernel⟩
  poolCount := by decide +kernel
  others := by decide

theorem pairs_wellFormed : ∀ m ∈ pairs.methods, m.WellFormed := by
  have hobject : IsName [';'] "java/lang/Object" := by decide
  have hbound : GenericType.IsBound (.ofClass (.mk "java/lang/Object" []) []) :=
    ⟨⟨⟨by decide, trivial, trivial⟩, by decide⟩, trivial⟩
  have hname : IsName [':', '>'] "T" := by decide
  have hvariable : IsName [';'] "T" := by decide
  have hvariables : GenericType.Admissible (.array 1 (.parameter "T")) :=
    ⟨⟨by decide, by decide, id, hvariable⟩, by decide⟩
  have hints : GenericType.Admissible (.array 2 (.base .int)) :=
    ⟨⟨by decide, by decide, id, trivial⟩, by decide⟩
  intro m hm
  simp only [pairs, List.mem_cons, List.not_mem_nil, or_false] at hm
  rcases hm with rfl | rfl
  · refine ⟨⟨?_, by simp⟩, by simp⟩
    simpa using ⟨by decide, trivial⟩
  · refine ⟨⟨?_, by simp⟩, ?_⟩
    · simpa using ⟨⟨by decide, hobject⟩, by decide, trivial⟩
    · intro s hs
      obtain rfl := Option.some.inj hs
      exact ⟨by simpa using ⟨hname, by simpa using hbound, by simp⟩, by simp,
        by simpa using ⟨hvariables, hints⟩, by simp, by simp⟩

theorem declarations_layout_swap :
    (∀ m ∈ pairs.methods, m.WellFormed) ∧ pairs.Fits pairsOthers ∧ "swap" ≠ "" ∧
    ∃ ds : List Declaration,
      declarations ⟨((pairs.layout pairsOthers).wire ++ [0, 0]).toArray⟩ "swap" = .ok (ds.map .ok) ∧
      ds.map (·.render) = ["public static <T> void swap(T[],int[]...) throws java.io.IOException;"] := by
  have hline : (pairs.methods.filter (·.name = "swap")).map (MethodSource.line (ownName pairs.name)) =
      ["public static <T> void swap(T[],int[]...) throws java.io.IOException;"] := by decide +kernel
  rw [← hline]
  exact ⟨pairs_wellFormed, pairs_fits, by decide,
    declarations_layout pairs pairsOthers [0, 0] "swap" pairs_wellFormed pairs_fits (by decide)⟩

end

end ClassFile

end ClassLocator

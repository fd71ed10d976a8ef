import ClassLocator.Proofs.ClassFile.Declared
import Mathlib.Data.List.ReduceOption

namespace ClassLocator.ClassFile

namespace ConstantPool

def HoldsText (pool : ConstantPool) (index : Nat) (text : String) : Prop :=
  pool.get? index = some (.utf8 text)

def HoldsClass (pool : ConstantPool) (index : Nat) (name : String) : Prop :=
  ∃ nameIndex, pool.get? index = some (.classRef nameIndex) ∧ pool.HoldsText nameIndex name

def HoldsDescriptor (pool : ConstantPool) (index : Nat) (types : MethodType) : Prop :=
  ∃ text, pool.HoldsText index text ∧ parseDescriptor text = .ok types

def HoldsSignature (pool : ConstantPool) (index : Nat) (types : MethodType) : Prop :=
  ∃ text, pool.HoldsText index text ∧ parseSignature text = .ok types

variable {pool : ConstantPool} {index : Nat} {s : String}

theorem utf8_eq_ok_iff : pool.utf8 index = .ok s ↔ pool.HoldsText index s := by
  unfold utf8 HoldsText
  split
  · next t ht => simp [ht]
  · next hn =>
    constructor
    · intro h
      cases h
    · intro h
      exact absurd h (hn s)

theorem utf8_of_not_holdsText (h : ∀ s, ¬pool.HoldsText index s) :
    pool.utf8 index = .error (.badConstantRef index .utf8) := by
  unfold utf8
  split
  · next t ht => exact absurd ht (h t)
  · rfl

theorem className_eq_ok_iff : pool.className index = .ok s ↔ pool.HoldsClass index s := by
  unfold className HoldsClass
  split
  · next nameIndex hn => simp [hn, utf8_eq_ok_iff]
  · next hn =>
    constructor
    · intro h
      cases h
    · intro h
      obtain ⟨nameIndex, h, -⟩ := h
      exact absurd h (hn nameIndex)

theorem holdsSignature_iff {types : MethodType} :
    pool.HoldsSignature index types ↔ (genericType pool index).toOption = some types := by
  unfold HoldsSignature genericType
  cases hu : pool.utf8 index with
  | error e =>
    have hn : ∀ text, ¬pool.HoldsText index text := by
      intro text ht
      cases hu.symm.trans (utf8_eq_ok_iff.mpr ht)
    simp [hn, Except.toOption]
  | ok text =>
    have ht : ∀ text', pool.HoldsText index text' ↔ text = text' := by
      intro text'
      rw [← utf8_eq_ok_iff, hu, Except.ok.injEq]
    cases hp : parseSignature text <;> simp [ht, hp, Except.toOption]

end ConstantPool

namespace Method

def HasGeneric (pool : ConstantPool) (m : Method) (types : MethodType) : Prop :=
  ∃ index, m.signatureIndex = some index ∧ pool.HoldsSignature index types

/-- The types of a method: all of them from its signature, or all from its descriptor. -/
inductive HasTypes (pool : ConstantPool) (m : Method) : MethodType → Prop
  | generic {types : MethodType} (h : m.HasGeneric pool types) : HasTypes pool m types
  | erased {types : MethodType} (hn : ∀ generic, ¬m.HasGeneric pool generic)
      (h : pool.HoldsDescriptor m.descriptorIndex types) : HasTypes pool m types

def HasExceptions (pool : ConstantPool) (m : Method) (names : List String) : Prop :=
  List.Forall₂ pool.HoldsClass (m.exceptionIndexes.getD []) names

/-- Everything that a method must tell resolves. -/
structure Resolves (pool : ConstantPool) (m : Method) : Prop where
  descriptor : ∃ types, pool.HoldsDescriptor m.descriptorIndex types
  exceptions : ∀ index ∈ m.exceptionIndexes.getD [], ∃ name, pool.HoldsClass index name

/-- The first thing that does not resolve, and the failure that comes of it. -/
inductive Fails (pool : ConstantPool) (m : Method) : Failure → Prop
  | unresolved (h : ∀ text, ¬pool.HoldsText m.descriptorIndex text) :
      Fails pool m (.badConstantRef m.descriptorIndex .utf8)
  | unreadable {text : String} {e : Failure} (h : pool.HoldsText m.descriptorIndex text)
      (he : parseDescriptor text = .error e) : Fails pool m e
  | exception {before after : List Nat} {index : Nat} {e : Failure}
      (h : ∃ types, pool.HoldsDescriptor m.descriptorIndex types)
      (hi : m.exceptionIndexes.getD [] = before ++ index :: after)
      (hb : ∀ i ∈ before, ∃ name, pool.HoldsClass i name) (he : pool.className index = .error e) :
      Fails pool m e

/-- The declaration of a method with these types and exceptions. A constructor has no result, and exceptions
in the types stand in place of the others. -/
def declared (owner name : String) (m : Method) (types : MethodType) (exceptions : List String) :
    Declaration where
  owner
  modifiers := keywords m.accessFlags
  typeParameters := types.typeParameters
  result := if name = "<init>" then "" else types.result
  name
  parameters := withEllipsis types.parameters
  thrown := if types.thrown = [] then exceptions.map MethodType.dotted else types.thrown
  role := if name = "<init>" then .constructor else .method

/-- What becomes of a method where the methods named `filter` are asked for. -/
inductive Outcome (pool : ConstantPool) (owner filter : String) (m : Method) :
    Option (Except Failure Declaration) → Prop
  | unnamed (h : ∀ name, ¬pool.HoldsText m.nameIndex name) :
      Outcome pool owner filter m (some (.error (.badConstantRef m.nameIndex .utf8)))
  | other {name : String} (h : pool.HoldsText m.nameIndex name) (hn : name ≠ filter) :
      Outcome pool owner filter m none
  | initializer (h : pool.HoldsText m.nameIndex filter) (hc : filter = "<clinit>") :
      Outcome pool owner filter m (some (.ok
        { owner, modifiers := keywords m.accessFlags, name := filter, role := .staticInitializer }))
  | described {types : MethodType} {exceptions : List String}
      (h : pool.HoldsText m.nameIndex filter) (hc : filter ≠ "<clinit>") (hr : m.Resolves pool)
      (ht : m.HasTypes pool types) (he : m.HasExceptions pool exceptions) :
      Outcome pool owner filter m (some (.ok (m.declared owner filter types exceptions)))
  | failed {e : Failure} (h : pool.HoldsText m.nameIndex filter) (hc : filter ≠ "<clinit>")
      (hf : m.Fails pool e) : Outcome pool owner filter m (some (.error e))

variable {pool : ConstantPool} {m : Method}

theorem Fails.not_resolves {e : Failure} (h : m.Fails pool e) : ¬m.Resolves pool := by
  intro hr
  cases h with
  | unresolved h =>
    obtain ⟨-, text, ht, -⟩ := hr.descriptor
    exact h text ht
  | unreadable ht he =>
    obtain ⟨types, text, ht', hp⟩ := hr.descriptor
    obtain rfl := Constant.utf8.inj (Option.some.inj (ht.symm.trans ht'))
    cases he.symm.trans hp
  | @exception _ _ index _ _ hi _ he =>
    obtain ⟨name, hn⟩ := hr.exceptions index (by simp [hi])
    cases he.symm.trans (ConstantPool.className_eq_ok_iff.mpr hn)

/-- A method of the name asked for that is no static initializer has a declaration if and only if all that it
tells resolves. -/
theorem Outcome.isOk_iff {owner filter : String} {slot : Option (Except Failure Declaration)}
    (h : m.Outcome pool owner filter slot) (hn : pool.HoldsText m.nameIndex filter)
    (hc : filter ≠ "<clinit>") : (∃ d, slot = some (.ok d)) ↔ m.Resolves pool := by
  cases h with
  | unnamed h => exact absurd hn (h filter)
  | other h hne => exact absurd (Constant.utf8.inj (Option.some.inj (h.symm.trans hn))) hne
  | initializer _ hi => exact absurd hi hc
  | described _ _ hr => exact ⟨fun _ => hr, fun _ => ⟨_, rfl⟩⟩
  | failed _ _ hf => simpa using hf.not_resolves

theorem erasedType_cases (pool : ConstantPool) (m : Method) :
    (∃ types, m.erasedType pool = .ok types ∧ pool.HoldsDescriptor m.descriptorIndex types) ∨
      ∃ e, m.erasedType pool = .error e ∧ m.Fails pool e := by
  by_cases hx : ∃ text, pool.HoldsText m.descriptorIndex text
  · obtain ⟨text, ht⟩ := hx
    have hu := ConstantPool.utf8_eq_ok_iff.mpr ht
    simp only [erasedType, hu, bind, Except.bind]
    cases hp : parseDescriptor text with
    | ok types => exact .inl ⟨types, rfl, text, ht, hp⟩
    | error e => exact .inr ⟨e, rfl, .unreadable ht hp⟩
  · have hn := not_exists.mp hx
    have hu := ConstantPool.utf8_of_not_holdsText hn
    exact .inr ⟨_, by simp only [erasedType, hu, bind, Except.bind], .unresolved hn⟩

theorem dotted_className_cases (pool : ConstantPool) (indexes : List Nat) :
    (∃ names, indexes.mapM (fun index => MethodType.dotted <$> pool.className index) =
        .ok (names.map MethodType.dotted) ∧ List.Forall₂ pool.HoldsClass indexes names) ∨
      ∃ before index after e, indexes = before ++ index :: after ∧
        (∀ i ∈ before, ∃ name, pool.HoldsClass i name) ∧ pool.className index = .error e ∧
        indexes.mapM (fun index => MethodType.dotted <$> pool.className index) = .error e := by
  induction indexes with
  | nil => exact .inl ⟨[], rfl, .nil⟩
  | cons index indexes ih =>
    simp only [List.mapM_cons]
    cases hn : pool.className index with
    | error e => exact .inr ⟨[], index, indexes, e, rfl, by simp, hn, rfl⟩
    | ok name =>
      have hc := ConstantPool.className_eq_ok_iff.mp hn
      rcases ih with ⟨names, hm, hf⟩ | ⟨before, i, after, e, rfl, hb, he, hm⟩
      · exact .inl ⟨name :: names, by rw [hm]; rfl, .cons hc hf⟩
      · exact .inr ⟨index :: before, i, after, e, rfl, List.forall_mem_cons.mpr ⟨⟨name, hc⟩, hb⟩, he,
          by rw [hm]; rfl⟩

theorem exists_of_hasExceptions {exceptions : List String} (h : m.HasExceptions pool exceptions) :
    ∀ index ∈ m.exceptionIndexes.getD [], ∃ name, pool.HoldsClass index name := by
  intro index hi
  obtain ⟨name, -, hc⟩ := exists_of_forall₂ (List.Forall₂.flip h) index hi
  exact ⟨name, hc⟩

theorem hasGeneric_iff {types : MethodType} :
    m.HasGeneric pool types ↔ m.genericType? pool = some types := by
  unfold HasGeneric genericType?
  cases hi : m.signatureIndex with
  | none => simp
  | some index => simp [ConstantPool.holdsSignature_iff]

theorem hasTypes_getD {erased : MethodType} (h : pool.HoldsDescriptor m.descriptorIndex erased) :
    m.HasTypes pool ((m.genericType? pool).getD erased) := by
  cases hg : m.genericType? pool with
  | none =>
    refine .erased (fun generic hn => ?_) h
    cases hg.symm.trans (hasGeneric_iff.mp hn)
  | some types => exact .generic (hasGeneric_iff.mpr hg)

theorem describe_of_ok {owner name : String} {erased : MethodType} {exceptions : List String}
    (hc : name ≠ "<clinit>") (ht : m.erasedType pool = .ok erased)
    (hx : m.exceptions pool = .ok (exceptions.map MethodType.dotted)) :
    m.describe pool owner name =
      .ok (m.declared owner name ((m.genericType? pool).getD erased) exceptions) := by
  have hi : ¬name = classInitializer := hc
  rw [describe, if_neg hi, ht, hx]
  simp only [declared, ← modifiers_eq_keywords, ← variadic_eq_withEllipsis, ← List.isEmpty_iff]
  rfl

theorem outcome_of_holdsText {owner filter : String} (hn : pool.HoldsText m.nameIndex filter) :
    m.Outcome pool owner filter (some (m.describe pool owner filter)) := by
  by_cases hc : filter = "<clinit>"
  · have hi : filter = classInitializer := hc
    rw [describe, if_pos hi, modifiers_eq_keywords]
    exact .initializer hn hc
  · have hi : ¬filter = classInitializer := hc
    rcases erasedType_cases pool m with ⟨erased, ht, herased⟩ | ⟨e, ht, hf⟩
    · rcases dotted_className_cases pool (m.exceptionIndexes.getD []) with
        ⟨exceptions, hm, hx⟩ | ⟨before, index, after, e, hindexes, hb, he, hm⟩
      · rw [describe_of_ok hc ht hm]
        exact .described hn hc ⟨⟨erased, herased⟩, exists_of_hasExceptions hx⟩ (hasTypes_getD herased) hx
      · rw [describe, if_neg hi, ht, exceptions, hm]
        exact .failed hn hc (.exception ⟨erased, herased⟩ hindexes hb he)
    · rw [describe, if_neg hi, ht]
      exact .failed hn hc hf

theorem outcome_outcome? (pool : ConstantPool) (owner filter : String) (m : Method) :
    m.Outcome pool owner filter (m.outcome? pool owner filter) := by
  unfold outcome?
  by_cases hx : ∃ name, pool.HoldsText m.nameIndex name
  · obtain ⟨name, hn⟩ := hx
    rw [ConstantPool.utf8_eq_ok_iff.mpr hn]
    dsimp only
    split
    · next hname =>
      subst hname
      exact outcome_of_holdsText hn
    · next hne => exact .other hn hne
  · have hn := not_exists.mp hx
    rw [ConstantPool.utf8_of_not_holdsText hn]
    exact .unnamed hn

end Method

def slots (c : ClassFile) (owner filter : String) : List (Option (Except Failure Declaration)) :=
  c.methods.map (·.outcome? c.constantPool owner filter)

theorem forall₂_slots (c : ClassFile) (owner filter : String) :
    List.Forall₂ (fun m slot => m.Outcome c.constantPool owner filter slot) c.methods
      (c.slots owner filter) := by
  rw [slots, List.forall₂_map_right_iff, List.forall₂_same]
  exact fun m _ => m.outcome_outcome? c.constantPool owner filter

theorem declarations_eq_slots {bytes : ByteArray} {c : ClassFile} {internalName filter : String}
    (hp : parse bytes = .ok c) (hn : c.name = .ok internalName) (hf : filter ≠ "") :
    declarations bytes filter = .ok (c.slots (ownName internalName) filter).reduceOption := by
  rw [declarations_of_parse hf hp hn, slots, List.reduceOption, List.filterMap_map]
  rfl

/-- Each method has a slot, and the outcomes are those of the filled slots, in order. The slot of a method
that has the name asked for, and of one whose name does not resolve, is filled; other slots are empty. A
method of that name that is no static initializer has a declaration if and only if its descriptor and its
exceptions resolve. A slot depends on the pool, the name of the class and the method alone, so it is the
same in any class file with the same pool and name that has this method in this place. -/
theorem declarations_outcomes {bytes : ByteArray} {c : ClassFile} {internalName filter : String}
    (hp : parse bytes = .ok c) (hn : c.name = .ok internalName) (hf : filter ≠ "") :
    ∃ slots, declarations bytes filter = .ok slots.reduceOption ∧
      List.Forall₂ (fun m slot => m.Outcome c.constantPool (ownName internalName) filter slot ∧
        (c.constantPool.HoldsText m.nameIndex filter → filter ≠ "<clinit>" →
          ((∃ d, slot = some (.ok d)) ↔ m.Resolves c.constantPool))) c.methods slots ∧
      ∀ bytes' c', parse bytes' = .ok c' → c'.constantPool = c.constantPool →
        c'.name = .ok internalName → ∃ slots' : List (Option _),
          declarations bytes' filter = .ok slots'.reduceOption ∧ slots'.length = c'.methods.length ∧
          ∀ i : Nat, c'.methods[i]? = c.methods[i]? → slots'[i]? = slots[i]? := by
  refine ⟨c.slots (ownName internalName) filter, declarations_eq_slots hp hn hf, ?_, ?_⟩
  · exact (c.forall₂_slots (ownName internalName) filter).imp fun m slot h => ⟨h, h.isOk_iff⟩
  · intro bytes' c' hp' hpool hn'
    refine ⟨c'.slots (ownName internalName) filter, declarations_eq_slots hp' hn' hf, by simp [slots],
      fun i hi => ?_⟩
    simp only [slots, List.getElem?_map, hi, hpool]

def patchy : Layout where
  minorVersion := 0
  majorVersion := 52
  poolCount := 7
  constants := [.utf8 "A".toUTF8.toList, .classRef 1, .utf8 "f".toUTF8.toList, .utf8 "([I)V".toUTF8.toList,
    .utf8 "Signature".toUTF8.toList, .utf8 "(TT;)V".toUTF8.toList]
  accessFlags := 0x21
  thisClass := 2
  superClass := 0
  interfaces := []
  fields := []
  methods := [⟨0x1, 3, 4, []⟩, ⟨0x1, 3, 9, []⟩, ⟨0x1, 9, 4, []⟩, ⟨0x8, 1, 4, []⟩]

theorem patchy_wellFormed : patchy.WellFormed where
  minorVersion := by decide
  majorVersion := by decide
  poolCount := by decide
  fills := fills_slotCount 1 patchy.constants
  constants := by decide +kernel
  accessFlags := by decide
  thisClass := by decide
  superClass := by decide
  interfaceCount := by decide
  interfaces := by decide
  fieldCount := by decide
  fields := by simp [patchy]
  methodCount := by decide
  methods := by
    intro m hm
    simp only [patchy, List.mem_cons, List.not_mem_nil, or_false] at hm
    rcases hm with rfl | rfl | rfl | rfl <;>
      exact ⟨⟨by decide, by decide, by decide, by decide, by simp⟩, by simp⟩

theorem declarations_outcomes_patchy :
    let bytes : ByteArray := ⟨(patchy.wire ++ []).toArray⟩
    let c := patchy.classFile
    let d : Declaration :=
      { owner := "A", modifiers := ["public"], result := "void", name := "f", parameters := ["int..."] }
    parse bytes = .ok c ∧ c.name = .ok "A" ∧ "f" ≠ "" ∧
      declarations bytes "f" =
        .ok [.ok d, .error (.badConstantRef 9 .utf8), .error (.badConstantRef 9 .utf8)] ∧
      ∃ slots, declarations bytes "f" = .ok slots.reduceOption ∧
        List.Forall₂ (fun m slot => m.Outcome c.constantPool "A" "f" slot) c.methods slots := by
  intro bytes c d
  have hp : parse bytes = .ok c := parse_wire patchy_wellFormed []
  have hn : c.name = .ok "A" := by decide +kernel
  obtain ⟨slots, hs, hm, -⟩ := declarations_outcomes hp hn (by decide : "f" ≠ "")
  have howner : ownName "A" = "A" := by decide +kernel
  rw [howner] at hm
  exact ⟨hp, hn, by decide, by decide +kernel, slots, hs, hm.imp fun _ _ h => h.1⟩

end ClassLocator.ClassFile

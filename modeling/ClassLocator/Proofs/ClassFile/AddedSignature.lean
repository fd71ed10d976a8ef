import ClassLocator.Proofs.ClassFile.Outcomes

namespace ClassLocator

def Declaration.withTypes (d : Declaration) (types : MethodType) : Declaration :=
  if d.role = .staticInitializer then d
  else
    { d with
      typeParameters := types.typeParameters
      result := if d.role = .constructor then "" else types.result
      parameters := withEllipsis types.parameters
      thrown := if types.thrown = [] then d.thrown else types.thrown }

namespace ClassFile

def Method.withSignature (m : Method) (index : Nat) : Method := { m with signatureIndex := some index }

def Member.addAttribute (m : Member) (a : Attribute) : Member :=
  { m with attributes := m.attributes ++ [a] }

def Layout.addAttribute (k : Layout) (i : Nat) (a : Attribute) : Layout :=
  { k with methods := k.methods.modify i (·.addAttribute a) }

section Method

variable {pool : ConstantPool} {m : Member} {a : Attribute}

theorem Member.signatureIndex_eq_none (h : ∀ a ∈ m.attributes, a.isNamed pool "Signature" = false) :
    (m.method pool).signatureIndex = none := by
  have hf : m.attributes.filter (·.isNamed pool "Signature") = [] :=
    List.filter_eq_nil_iff.mpr fun a ha => by simp [h a ha]
  simp [method, lastBody?, hf]

theorem Member.method_addAttribute (hn : pool.HoldsText a.nameIndex "Signature") :
    (m.addAttribute a).method pool = (m.method pool).withSignature (word a.body) := by
  have hu := ConstantPool.utf8_eq_ok_iff.mpr hn
  have hs : a.isNamed pool "Signature" = true := Attribute.isNamed_of_ok hu _
  have he : a.isNamed pool "Exceptions" = false := Attribute.isNamed_of_ok hu _
  simp [method, Method.withSignature, addAttribute, lastBody?, List.filter_append, hs, he]

end Method

namespace Method

variable {pool : ConstantPool} {m : Method} {types : MethodType}

theorem thrown_erasedType (h : m.erasedType pool = .ok types) : types.thrown = [] := by
  rcases erasedType_cases pool m with ⟨erased, ht, text, -, hp⟩ | ⟨e, he, -⟩
  · obtain rfl := Except.ok.inj (ht.symm.trans h)
    obtain ⟨d, -, -, hd⟩ := parseDescriptor_eq_ok_iff.mp hp
    exact congrArg MethodType.thrown hd
  · cases he.symm.trans h

theorem withTypes_declared {erased : MethodType} (h : erased.thrown = []) (owner name : String)
    (exceptions : List String) :
    (m.declared owner name erased exceptions).withTypes types =
      m.declared owner name types exceptions := by
  by_cases hn : name = "<init>" <;> simp [declared, Declaration.withTypes, hn, h]

variable {index : Nat}

theorem erasedType_withSignature : (m.withSignature index).erasedType pool = m.erasedType pool := rfl

theorem exceptions_withSignature : (m.withSignature index).exceptions pool = m.exceptions pool := rfl

theorem genericType?_withSignature :
    (m.withSignature index).genericType? pool = (genericType pool index).toOption := rfl

variable (hs : m.signatureIndex = none)

include hs in
theorem genericType?_eq_none : m.genericType? pool = none := by
  rw [genericType?, hs]
  rfl

include hs in
/-- A signature that can be read gives the types, and all else is as it is without one. -/
theorem describe_withSignature (h : pool.HoldsSignature index types) (owner name : String) :
    (m.withSignature index).describe pool owner name =
      (m.describe pool owner name).map (·.withTypes types) := by
  have hsome : (m.withSignature index).genericType? pool = some types :=
    genericType?_withSignature.trans (ConstantPool.holdsSignature_iff.mp h)
  by_cases hc : name = "<clinit>"
  · have hi : name = classInitializer := hc
    rw [describe, describe, if_pos hi, if_pos hi]
    rfl
  · have hi : ¬name = classInitializer := hc
    cases ht : m.erasedType pool with
    | error e =>
      rw [describe, describe, if_neg hi, if_neg hi, erasedType_withSignature, ht]
      rfl
    | ok erased =>
      rcases dotted_className_cases pool (m.exceptionIndexes.getD []) with
        ⟨exceptions, hm, -⟩ | ⟨-, -, -, e, -, -, -, hm⟩
      · have hx : m.exceptions pool = .ok (exceptions.map MethodType.dotted) := hm
        rw [describe_of_ok hc (erasedType_withSignature.trans ht) (exceptions_withSignature.trans hx),
          describe_of_ok hc ht hx, genericType?_eq_none hs, hsome]
        exact congrArg Except.ok (withTypes_declared (thrown_erasedType ht) owner name exceptions).symm
      · have hx : m.exceptions pool = .error e := hm
        rw [describe, describe, if_neg hi, if_neg hi, erasedType_withSignature,
          exceptions_withSignature, ht, hx]
        rfl

include hs in
/-- A signature that cannot be read is passed over. -/
theorem describe_withSignature_of_not (h : ∀ types, ¬pool.HoldsSignature index types)
    (owner name : String) :
    (m.withSignature index).describe pool owner name = m.describe pool owner name := by
  have hnone : (m.withSignature index).genericType? pool = none := by
    refine Option.eq_none_iff_forall_ne_some.mpr fun types ht => ?_
    exact h types (ConstantPool.holdsSignature_iff.mpr (genericType?_withSignature.symm.trans ht))
  rw [describe, describe, erasedType_withSignature, exceptions_withSignature,
    genericType?_eq_none hs, hnone]
  rfl

/-- The outcome `slot'` is `slot` with the types of the signature in a slot of the pool, or `slot` itself if
no signature can be read there. -/
def Amends (pool : ConstantPool) (index : Nat) (slot slot' : Option (Except Failure Declaration)) : Prop :=
  (∃ types, pool.HoldsSignature index types ∧
    slot' = slot.map (Except.map (·.withTypes types))) ∨
  (∀ types, ¬pool.HoldsSignature index types) ∧ slot' = slot

include hs in
theorem amends_outcome? (pool : ConstantPool) (index : Nat) (owner filter : String) :
    Amends pool index (m.outcome? pool owner filter)
      ((m.withSignature index).outcome? pool owner filter) := by
  have hname : (m.withSignature index).nameIndex = m.nameIndex := rfl
  unfold outcome?
  rw [hname]
  by_cases h : ∃ types, pool.HoldsSignature index types
  · obtain ⟨types, ht⟩ := h
    refine .inl ⟨types, ht, ?_⟩
    simp only [describe_withSignature hs ht]
    split
    · rfl
    · split <;> rfl
  · refine .inr ⟨not_exists.mp h, ?_⟩
    simp only [describe_withSignature_of_not hs (not_exists.mp h)]

end Method

section Failing

variable {pool : ConstantPool} {a : Attribute} (ha : a.Fits)
  (hn : pool.HoldsText a.nameIndex "Signature") (hb : a.body.length < 2)

include hb in
theorem fails_signatureBody (bs : List UInt8) :
    FailsAt Input.Before (Reader.within ⟨a.body.toArray⟩ Reader.u2) bs (.truncated 0) := by
  intro i _
  have hsize : ¬0 + 2 ≤ (⟨a.body.toArray⟩ : ByteArray).size := Nat.not_le.mpr hb
  simp only [Reader.within, Reader.u2, Reader.number, if_neg hsize]

include ha hn hb in
theorem fails_methodAttribute (m : Method) (tail : List UInt8) :
    FailsAt Input.Before (methodAttribute pool m) (a.wire ++ tail) (.truncated 0) := by
  have hu := ConstantPool.utf8_eq_ok_iff.mpr hn
  refine Reader.reads_u2.bind_fails (a := a.nameIndex) ⟨ha.1, by simp [Attribute.wire]; rfl⟩ ?_
  refine Reader.reads_u4.bind_fails (a := a.body.length) ⟨ha.2, rfl⟩ ?_
  refine (Reader.reads_take _).bind_fails (a := ⟨a.body.toArray⟩) ⟨rfl, rfl⟩ ?_
  rw [hu]
  exact (fails_signatureBody hb tail).bind

include ha hn hb in
theorem fails_attributes {as : List Attribute} (has : ∀ a ∈ as, a.Fits ∧ a.Readable pool)
    (m : Method) (tail : List UInt8) :
    FailsAt Input.Before (attributes pool (as ++ [a]).length m)
      ((as ++ [a]).flatMap Attribute.wire ++ tail) (.truncated 0) := by
  induction as generalizing m with
  | nil =>
    simp only [List.nil_append, List.flatMap_cons, List.flatMap_nil, List.append_nil]
    exact (fails_methodAttribute ha hn hb m tail).bind
  | cons b as ih =>
    obtain ⟨hb', has⟩ := List.forall_mem_cons.mp has
    simp only [List.cons_append, List.flatMap_cons, List.append_assoc]
    exact (reads_methodAttribute pool m).bind_fails ⟨b, hb', rfl, rfl⟩ (ih has _)

include ha hn hb in
theorem fails_method {m : Member} (hm : m.Fits ∧ ∀ a ∈ m.attributes, a.Readable pool)
    (hc : m.attributes.length + 1 < 2 ^ 16) (tail : List UInt8) :
    FailsAt Input.Before (method pool) ((m.addAttribute a).wire ++ tail) (.truncated 0) := by
  obtain ⟨hf, hr⟩ := hm
  have hcount : (m.attributes ++ [a]).length < 2 ^ 16 := by simpa using hc
  simp only [Member.wire, Member.addAttribute, List.append_assoc]
  refine Reader.reads_u2.bind_fails ⟨hf.accessFlags, rfl⟩ ?_
  refine Reader.reads_u2.bind_fails ⟨hf.nameIndex, rfl⟩ ?_
  refine Reader.reads_u2.bind_fails ⟨hf.descriptorIndex, rfl⟩ ?_
  refine Reader.reads_u2.bind_fails ⟨hcount, rfl⟩ ?_
  exact fails_attributes ha hn hb (fun a h => ⟨hf.attributes a h, hr a h⟩) _ tail

end Failing

section Tables

variable {k : Layout} (hk : k.WellFormed)

include hk in
theorem fails_reader {ms : List Member} (hc : ms.length < 2 ^ 16) {e : Failure} (rest : List UInt8)
    (hf : FailsAt Input.Before (Reader.times (method k.pool) ms.length)
      (ms.flatMap Member.wire ++ rest) e) :
    FailsAt Input.Before reader (Layout.wire { k with methods := ms } ++ rest) e := by
  simp only [Layout.wire, List.append_assoc]
  refine Reader.reads_u4.bind_fails ⟨by decide, rfl⟩ ?_
  refine (Reader.reads_skip_number 2).bind_fails ⟨k.minorVersion, hk.minorVersion, rfl, rfl⟩ ?_
  refine (Reader.reads_skip_number 2).bind_fails ⟨k.majorVersion, hk.majorVersion, rfl, rfl⟩ ?_
  refine reads_pool.bind_fails
    ⟨(k.poolCount, k.constants), ⟨hk.poolCount, hk.fills, hk.constants⟩, rfl, (List.append_assoc ..).symm⟩ ?_
  refine (Reader.reads_skip_number 2).bind_fails ⟨k.accessFlags, hk.accessFlags, rfl, rfl⟩ ?_
  refine Reader.reads_u2.bind_fails ⟨hk.thisClass, rfl⟩ ?_
  refine (Reader.reads_skip_number 2).bind_fails ⟨k.superClass, hk.superClass, rfl, rfl⟩ ?_
  refine Reader.reads_u2.bind_fails ⟨hk.interfaceCount, rfl⟩ ?_
  refine (Reader.reads_skip_words _).bind_fails ⟨k.interfaces, ⟨rfl, hk.interfaces⟩, rfl, rfl⟩ ?_
  refine Reader.reads_u2.bind_fails ⟨hk.fieldCount, rfl⟩ ?_
  refine (reads_skippedItems reads_skippedField _).bind_fails
    ⟨k.fields, ⟨rfl, hk.fields⟩, rfl, rfl⟩ ?_
  refine Reader.reads_u2.bind_fails ⟨hc, rfl⟩ ?_
  exact hf.bind

variable {i : Nat} {m : Member} {a : Attribute} (hm : k.methods[i]? = some m)
  (hc : m.attributes.length + 1 < 2 ^ 16) (ha : a.Fits)
  (hn : k.pool.HoldsText a.nameIndex "Signature")

include hm in
theorem Layout.methods_addAttribute :
    (k.addAttribute i a).methods = k.methods.take i ++ m.addAttribute a :: k.methods.drop (i + 1) := by
  obtain ⟨hi, rfl⟩ := List.getElem?_eq_some_iff.mp hm
  exact List.modify_eq_take_cons_drop hi

include hk hm hc ha hn in
theorem Layout.wellFormed_addAttribute (hb : 2 ≤ a.body.length) :
    (k.addAttribute i a).WellFormed := by
  have hu := ConstantPool.utf8_eq_ok_iff.mpr hn
  have he : a.isNamed k.pool "Exceptions" = false := Attribute.isNamed_of_ok hu _
  have hr : a.Readable k.pool := ⟨fun _ => hb, by simp [he]⟩
  have hmem : ∀ x ∈ (k.addAttribute i a).methods, x ∈ k.methods ∨ x = m.addAttribute a := by
    intro x hx
    rw [methods_addAttribute hm, List.mem_append, List.mem_cons] at hx
    rcases hx with hx | rfl | hx
    · exact .inl (List.mem_of_mem_take hx)
    · exact .inr rfl
    · exact .inl (List.mem_of_mem_drop hx)
  refine { hk with methodCount := by simpa [addAttribute] using hk.methodCount, methods := ?_ }
  intro x hx
  rcases hmem x hx with hx | rfl
  · exact hk.methods x hx
  · obtain ⟨hf, hrm⟩ := hk.methods m (List.mem_of_getElem? hm)
    refine ⟨{ hf with count := by simpa [Member.addAttribute] using hc, attributes := ?_ }, ?_⟩
    · exact List.forall_mem_append.mpr ⟨hf.attributes, List.forall_mem_singleton.mpr ha⟩
    · exact List.forall_mem_append.mpr ⟨hrm, List.forall_mem_singleton.mpr hr⟩

include hk hm hc ha hn in
theorem parse_addAttribute_of_short (hb : a.body.length < 2) (rest : List UInt8) :
    parse ⟨((k.addAttribute i a).wire ++ rest).toArray⟩ = .error (.truncated 0) := by
  have hmethod := hk.methods m (List.mem_of_getElem? hm)
  have hbefore : ∀ x ∈ k.methods.take i, x.Fits ∧ ∀ a ∈ x.attributes, a.Readable k.pool :=
    fun x hx => hk.methods x (List.mem_of_mem_take hx)
  have hlt : (k.methods.take i).length < (k.addAttribute i a).methods.length := by
    rw [Layout.methods_addAttribute hm, List.length_append, List.length_cons]
    omega
  have hcount : (k.addAttribute i a).methods.length < 2 ^ 16 := by
    simpa [Layout.addAttribute] using hk.methodCount
  have htimes : FailsAt Input.Before
      (Reader.times (method k.pool) (k.addAttribute i a).methods.length)
      ((k.addAttribute i a).methods.flatMap Member.wire ++ rest) (.truncated 0) := by
    refine Reader.fails_timesAfter (reads_method k.pool) hlt
      (repeated_described.mpr ⟨k.methods.take i, ⟨rfl, hbefore⟩, rfl, ?_⟩)
      (fails_method ha hn hb hmethod hc ((k.methods.drop (i + 1)).flatMap Member.wire ++ rest)) []
    simp [Layout.methods_addAttribute hm]
  have hread : reader ⟨⟨((k.addAttribute i a).wire ++ rest).toArray⟩, 0⟩ = .error (.truncated 0) :=
    fails_reader hk hcount rest htimes _ (Input.Before.start _)
  unfold parse StateT.run
  rw [hread]
  rfl

end Tables

section Added

variable {k : Layout} {i : Nat} {m : Member} {a : Attribute} (hm : k.methods[i]? = some m)
  (hn : k.pool.HoldsText a.nameIndex "Signature")

include hm hn in
theorem slots_addAttribute (owner filter : String) :
    (k.addAttribute i a).classFile.slots owner filter =
      (k.classFile.slots owner filter).set i
        (((m.method k.pool).withSignature (word a.body)).outcome? k.pool owner filter) := by
  have hpool : (k.addAttribute i a).pool = k.pool := rfl
  obtain ⟨hi, rfl⟩ := List.getElem?_eq_some_iff.mp hm
  simp only [slots, Layout.classFile, hpool, List.map_map, Layout.methods_addAttribute hm,
    List.map_append, List.map_cons, Member.method_addAttribute hn]
  rw [List.set_eq_take_append_cons_drop, if_pos (by simpa using hi), List.map_take, List.map_drop]

end Added

/-- A `Signature` attribute is added to a method that has none. If its body has two bytes or more, the
outcomes of the other methods are the same, and the method is told with the types of the signature if that
can be read and as before if not. If the body is shorter, the whole class fails. -/
theorem declarations_addAttribute {k : Layout} (hk : k.WellFormed) (rest : List UInt8) {i : Nat}
    {m : Member} (hm : k.methods[i]? = some m)
    (hs : ∀ a ∈ m.attributes, a.isNamed k.pool "Signature" = false)
    (hc : m.attributes.length + 1 < 2 ^ 16) {a : Attribute} (ha : a.Fits)
    (hn : k.pool.HoldsText a.nameIndex "Signature") {filter : String} (hf : filter ≠ "")
    {outcomes : List (Except Failure Declaration)}
    (ho : declarations ⟨(k.wire ++ rest).toArray⟩ filter = .ok outcomes) :
    (2 ≤ a.body.length → ∃ internalName slots slot slot',
      k.classFile.name = .ok internalName ∧ outcomes = slots.reduceOption ∧
      List.Forall₂ (fun m slot => m.Outcome k.pool (ownName internalName) filter slot)
        k.classFile.methods slots ∧
      slots[i]? = some slot ∧ Method.Amends k.pool (word a.body) slot slot' ∧
      declarations ⟨((k.addAttribute i a).wire ++ rest).toArray⟩ filter =
        .ok (slots.set i slot').reduceOption) ∧
    (a.body.length < 2 →
      declarations ⟨((k.addAttribute i a).wire ++ rest).toArray⟩ filter = .error (.truncated 0)) := by
  have hp := parse_wire hk rest
  obtain ⟨internalName, hname⟩ : ∃ internalName, k.classFile.name = .ok internalName := by
    cases hn : k.classFile.name with
    | ok internalName => exact ⟨internalName, rfl⟩
    | error e =>
      have he := (declarations_eq_error_iff hf).mpr (.inr ⟨_, hp, hn⟩)
      cases ho.symm.trans he
  have hold := declarations_eq_slots hp hname hf
  refine ⟨fun hb => ?_, fun hb => ?_⟩
  · have hname' : (k.addAttribute i a).classFile.name = .ok internalName := hname
    have hp' := parse_wire (Layout.wellFormed_addAttribute hk hm hc ha hn hb) rest
    have hnew := declarations_eq_slots hp' hname' hf
    rw [slots_addAttribute hm hn] at hnew
    refine ⟨internalName, k.classFile.slots (ownName internalName) filter, _, _, hname,
      Except.ok.inj (ho.symm.trans hold), k.classFile.forall₂_slots (ownName internalName) filter, ?_,
      Method.amends_outcome? (Member.signatureIndex_eq_none hs) k.pool (word a.body) _ filter, hnew⟩
    simp [slots, Layout.classFile, hm]
  · have he := parse_addAttribute_of_short hk hm hc ha hn hb rest
    exact (declarations_eq_error_iff hf).mpr (.inl he)

/-- A byte behind the index of a signature makes no difference. -/
theorem declarations_addAttribute_patchy :
    let m : Member := ⟨0x1, 3, 4, []⟩
    let a : Attribute := ⟨5, [0, 6, 0xFF]⟩
    let bytes : ByteArray := ⟨(patchy.wire ++ []).toArray⟩
    let bytes' : ByteArray := ⟨((patchy.addAttribute 0 a).wire ++ []).toArray⟩
    let d : Declaration :=
      { owner := "A", modifiers := ["public"], result := "void", name := "f", parameters := ["int..."] }
    let errors : List (Except Failure Declaration) :=
      [.error (.badConstantRef 9 .utf8), .error (.badConstantRef 9 .utf8)]
    patchy.WellFormed ∧ patchy.methods[0]? = some m ∧
      (∀ a ∈ m.attributes, a.isNamed patchy.pool "Signature" = false) ∧
      m.attributes.length + 1 < 2 ^ 16 ∧ a.Fits ∧ patchy.pool.HoldsText a.nameIndex "Signature" ∧
      "f" ≠ "" ∧ declarations bytes "f" = .ok (.ok d :: errors) ∧
      (∃ (slots : List _) (slot slot' : _), slots[0]? = some slot ∧ Method.Amends patchy.pool 6 slot slot' ∧
        declarations bytes' "f" = .ok (slots.set 0 slot').reduceOption) ∧
      declarations bytes' "f" = .ok (.ok { d with parameters := ["T"] } :: errors) := by
  intro m a bytes bytes' d errors
  have ha : a.Fits := ⟨by decide, by decide⟩
  have hn : patchy.pool.HoldsText a.nameIndex "Signature" := by
    rw [← ConstantPool.utf8_eq_ok_iff]
    decide +kernel
  have ho : declarations bytes "f" = .ok (.ok d :: errors) := by decide +kernel
  have hadded := declarations_addAttribute patchy_wellFormed [] (rfl : patchy.methods[0]? = some m)
    (by simp) (by decide) ha hn (by decide) ho
  obtain ⟨-, slots, slot, slot', -, -, -, hslot, hamends, hnew⟩ := hadded.1 (by decide)
  exact ⟨patchy_wellFormed, rfl, by simp [m], by decide, ha, hn, by decide, ho,
    ⟨slots, slot, slot', hslot, hamends, hnew⟩, by decide +kernel⟩

/-- A signature without an index takes the outcomes of all methods with it. -/
theorem declarations_refused_signature :
    let bytes : ByteArray := ⟨patchy.wire.toArray⟩
    let bytes' : ByteArray := ⟨(patchy.addAttribute 0 ⟨5, []⟩).wire.toArray⟩
    let d : Declaration :=
      { owner := "A", modifiers := ["public"], result := "void", name := "f", parameters := ["int..."] }
    parse bytes = .ok patchy.classFile ∧ patchy.pool.HoldsText 5 "Signature" ∧
      declarations bytes "f" =
        .ok [.ok d, .error (.badConstantRef 9 .utf8), .error (.badConstantRef 9 .utf8)] ∧
      declarations bytes' "f" = .error (.truncated 0) := by
  intro bytes bytes' d
  have hn : patchy.pool.HoldsText 5 "Signature" := by
    rw [← ConstantPool.utf8_eq_ok_iff]
    decide +kernel
  have hp := parse_wire patchy_wellFormed []
  rw [List.append_nil] at hp
  exact ⟨hp, hn, by decide +kernel, by decide +kernel⟩

end ClassFile

end ClassLocator

import ClassLocator.ClassFile.Declarations
import ClassLocator.Proofs.MethodType.Wire

namespace ClassLocator.MethodType

open Text Reader

def typeStarts : List Char := ['[', 'L', 'T', 'B', 'C', 'D', 'F', 'I', 'J', 'S', 'Z']

theorem code_mem_typeStarts (b : BaseType) : b.code ∈ typeStarts := by cases b <;> decide

theorem code_isAscii (b : BaseType) : IsAscii b.code := by cases b <;> decide

theorem replicate_bracket_append (n : Nat) (cs : List Char) :
    n = 0 ∧ List.replicate n '[' ++ cs = cs ∨
      1 ≤ n ∧ (List.replicate n '[' ++ cs).head? = some '[' := by
  cases n with
  | zero => exact .inl ⟨rfl, rfl⟩
  | succ n => exact .inr ⟨by omega, by simp [List.replicate_succ]⟩

def Element.spelling : Element → List Char
  | .base t => t.keyword.toList
  | .object name => name.toList.map fun c => if c = '/' then '.' else c

def FieldType.spelling (t : FieldType) : List Char :=
  t.element.spelling ++ (List.replicate t.dimensions ['[', ']']).flatten

theorem FieldType.render_eq (t : FieldType) : t.render = String.ofList t.spelling := by
  have he : t.element.render = String.ofList t.element.spelling := by
    cases t.element with
    | base b => simp [Element.render, Element.spelling]
    | object name => simp [Element.render, Element.spelling, dotted, ← String.toList_inj]
  have hn : String.join (List.replicate t.dimensions "[]") =
      String.ofList (List.replicate t.dimensions ['[', ']']).flatten := by
    simp [← String.toList_inj, List.flatMap_def]
  rw [render, withDimensions, he, hn, spelling, String.ofList_append]

theorem FieldType.begins_wire (t : FieldType) : Begins typeStarts t.wire := by
  rcases replicate_bracket_append t.dimensions t.element.wire with ⟨-, h⟩ | ⟨-, h⟩
  · rw [wire, h]
    cases he : t.element with
    | base b => exact ⟨b.code, code_mem_typeStarts b, rfl⟩
    | object name => exact ⟨'L', by decide, rfl⟩
  · exact ⟨'[', by decide, h⟩

namespace Reader

variable {n : Nat}

theorem ofCode?_byte {c : Char} (hc : IsAscii c) :
    BaseType.ofCode? (Char.ofNat (byte c).toNat) = BaseType.ofCode? c := by
  rw [byte_toNat hc, Char.ofNat_toNat]

theorem reads_baseType {c : Char} (hc : IsAscii c) :
    ReadsAs (Cursor.Before n) (baseType (byte c)) fun cs t tail => c = t.code ∧ tail = cs := by
  unfold baseType
  rw [ofCode?_byte hc]
  cases h : BaseType.ofCode? c with
  | none =>
    refine (ReadsAs.fails fun s => ⟨_, rfl⟩).congr fun cs t tail => ?_
    refine ⟨False.elim, fun ht => ?_⟩
    rw [ht.1, BaseType.ofCode?_code] at h
    cases h
  | some t =>
    refine (ReadsAs.pure t).congr fun cs u tail => ?_
    constructor
    · intro hu
      obtain ⟨rfl, rfl⟩ := hu
      exact ⟨(BaseType.code_of_ofCode? h).symm, rfl⟩
    · intro hu
      obtain ⟨rfl, rfl⟩ := hu
      rw [BaseType.ofCode?_code] at h
      cases h
      exact ⟨rfl, rfl⟩

theorem baseType_of_wide {b : UInt8} (hb : 128 ≤ b.toNat) (s : Cursor) :
    ∃ e, baseType b s = .error e := by
  unfold baseType
  cases h : BaseType.ofCode? (Char.ofNat b.toNat) with
  | none => exact ⟨_, rfl⟩
  | some t =>
    exfalso
    have hc := code_isAscii t
    have hlt := b.toNat_lt
    have hv : Nat.isValidChar b.toNat := Or.inl (by omega)
    rw [BaseType.code_of_ofCode? h, IsAscii, toNat_ofNat hv] at hc
    omega

theorem reads_name {α : Type} (f : String → α) :
    ReadsAs (Cursor.Before n) (identifier [';'] >>= fun name => expect ';' >>= fun _ => pure (f name))
      fun cs a tail => ∃ name, IsName [';'] name ∧ a = f name ∧ cs = name.toList ++ ';' :: tail := by
  refine ((reads_identifier (by simp [IsAscii])).bind fun name =>
    (reads_expect (by decide)).bind fun _ => .pure (f name)).congr fun cs a tail => ?_
  constructor
  · intro h
    obtain ⟨name, m, ⟨hn, rfl, -⟩, -, m', rfl, rfl, rfl⟩ := h
    exact ⟨name, hn, rfl, rfl⟩
  · intro h
    obtain ⟨name, hn, rfl, rfl⟩ := h
    refine ⟨name, ';' :: tail, ⟨hn, rfl, ?_⟩, (), tail, rfl, rfl, rfl⟩
    intro c hc
    cases hc
    simp

end Reader

namespace Descriptor

variable {n : Nat}

theorem render_eq (d : Descriptor) :
    d.render = ⟨[], d.parameters.map fun t => String.ofList t.spelling,
      (d.result.map fun t => String.ofList t.spelling).getD "void", []⟩ := by
  simp only [render, FieldType.render_eq, voidKeyword]

theorem reads_fieldType :
    ReadsAs (Cursor.Before n) fieldType (Written FieldType.WellFormed FieldType.wire) := by
  unfold fieldType
  have hL : IsAscii 'L' := by decide
  refine (reads_dimensions.bind fun k => reads_next_bind (P := fun c rest t tail =>
      if c = 'L' then ∃ name, IsName [';'] name ∧ t = ⟨k, .object name⟩ ∧
        rest = name.toList ++ ';' :: tail
      else ∃ b : BaseType, t = ⟨k, .base b⟩ ∧ c = b.code ∧ tail = rest)
    (fun c hc => ?_) fun b hb s => ?_).congr fun cs t tail => ?_
  · simp only [byte_beq hc hL, decide_eq_true_eq]
    refine .ite _ (fun _ => reads_name _) fun _ => ?_
    refine ((reads_baseType hc).bind fun b => .pure _).congr fun cs t tail => ?_
    constructor
    · intro h
      obtain ⟨b, m, ⟨rfl, rfl⟩, rfl, rfl⟩ := h
      exact ⟨b, rfl, rfl, rfl⟩
    · intro h
      obtain ⟨b, rfl, rfl, rfl⟩ := h
      exact ⟨b, _, ⟨rfl, rfl⟩, rfl, rfl⟩
  · simp only [beq_byte_of_wide hb hL, Bool.false_eq_true, if_false]
    obtain ⟨e, he⟩ := baseType_of_wide hb s
    exact ⟨e, by simp [bind, StateT.bind, he, Except.bind]⟩
  · constructor
    · intro h
      obtain ⟨k, m, ⟨hk, rfl, hm⟩, c, rest, rfl, hc, h⟩ := h
      split at h
      · next hcL =>
        obtain ⟨name, hn, rfl, rfl⟩ := h
        exact ⟨⟨hk, hn⟩, by simp [FieldType.wire, Element.wire, hcL]⟩
      · obtain ⟨b, rfl, rfl, rfl⟩ := h
        exact ⟨⟨hk, trivial⟩, by simp [FieldType.wire, Element.wire]⟩
    · intro h
      obtain ⟨⟨hk, he⟩, rfl⟩ := h
      obtain ⟨k, e⟩ := t
      refine ⟨k, e.wire ++ tail, ⟨hk, by simp [FieldType.wire], ?_⟩, ?_⟩
      · cases e with
        | base b => cases b <;> simp [Element.wire, BaseType.code]
        | object name => simp [Element.wire]
      · cases e with
        | base b =>
          refine ⟨b.code, tail, rfl, code_isAscii b, ?_⟩
          rw [if_neg (by cases b <;> decide)]
          exact ⟨b, rfl, rfl, rfl⟩
        | object name =>
          refine ⟨'L', name.toList ++ ';' :: tail, by simp [Element.wire], hL, ?_⟩
          exact ⟨name, he, rfl, rfl⟩

theorem reads_descriptor :
    ReadsAs (Cursor.Before n) (reader n) fun cs d tail =>
      d.WellFormed ∧ cs = d.wire ∧ tail = [] := by
  unfold reader
  have hbegins : ∀ t : FieldType, t.WellFormed → Begins typeStarts t.wire := fun t _ => t.begins_wire
  refine ((reads_expect (by decide)).bind fun _ =>
    (reads_untilWritten (by decide) (by decide) hbegins reads_fieldType).bind fun parameters =>
      (reads_expect (by decide)).bind fun _ =>
        (reads_orVoid (by decide) hbegins reads_fieldType).bind fun result =>
          reads_finish.bind fun _ => .pure (⟨parameters, result⟩ : Descriptor)).congr
    fun cs d tail => ?_
  constructor
  · intro h
    obtain ⟨-, _, rfl, parameters, _, ⟨hp, rfl, -⟩, -, _, rfl, result, _, ⟨hr, rfl⟩, -, _,
      ⟨rfl, rfl⟩, rfl, rfl⟩ := h
    exact ⟨⟨hp, hr⟩, by simp [wire], rfl⟩
  · intro h
    obtain ⟨⟨hp, hr⟩, rfl, rfl⟩ := h
    exact ⟨(), _, rfl, d.parameters, _, ⟨hp, rfl, rfl⟩, (), _, rfl, d.result, [],
      ⟨hr, (List.append_nil _).symm⟩, (), [], ⟨rfl, rfl⟩, rfl, rfl⟩

theorem read_eq_ok_iff {text : String} {d : Descriptor} :
    read text = .ok d ↔ d.WellFormed ∧ text = d.encode :=
  onText_eq_ok_iff fun _ => reads_descriptor

end Descriptor

end ClassLocator.MethodType

namespace ClassLocator.ClassFile

open MethodType

theorem parseDescriptor_eq_ok_iff {text : String} {types : MethodType} :
    parseDescriptor text = .ok types ↔
      ∃ d : Descriptor, d.WellFormed ∧ text = d.encode ∧ types = d.render := by
  constructor
  · intro h
    unfold parseDescriptor at h
    split at h
    · next d hd =>
      obtain ⟨hw, he⟩ := Descriptor.read_eq_ok_iff.mp hd
      exact ⟨d, hw, he, (Except.ok.inj h).symm⟩
    · cases h
  · intro h
    obtain ⟨d, hw, rfl, rfl⟩ := h
    simp only [parseDescriptor, Descriptor.read_eq_ok_iff.mpr ⟨hw, rfl⟩]

theorem parseDescriptor_encode {d : Descriptor} (h : d.WellFormed) :
    parseDescriptor d.encode = .ok d.render :=
  parseDescriptor_eq_ok_iff.mpr ⟨d, h, rfl, rfl⟩

/-- A text is read as a descriptor if and only if it encodes a well-formed one: types with up to 255
dimensions each, over a base type or a class whose name has no semicolon. The types read are then spelled as
in source. Any other text is refused with an error that tells it. -/
theorem parseDescriptor_exact (text : String) :
    (∀ types, parseDescriptor text = .ok types ↔
      ∃ d : Descriptor, d.WellFormed ∧ text = d.encode ∧
        types = ⟨[], d.parameters.map fun t => String.ofList t.spelling,
          (d.result.map fun t => String.ofList t.spelling).getD "void", []⟩) ∧
    ((∃ fault, parseDescriptor text = .error (.badDescriptor text fault)) ↔
      ∀ d : Descriptor, d.WellFormed → text ≠ d.encode) := by
  constructor
  · intro types
    simp only [parseDescriptor_eq_ok_iff, Descriptor.render_eq]
  · constructor
    · intro h d hw he
      obtain ⟨fault, h⟩ := h
      rw [he, parseDescriptor_encode hw] at h
      cases h
    · intro h
      unfold parseDescriptor
      split
      · next d hd =>
        obtain ⟨hw, he⟩ := Descriptor.read_eq_ok_iff.mp hd
        exact absurd he (h d hw)
      · next fault hd => exact ⟨fault, rfl⟩

end ClassLocator.ClassFile

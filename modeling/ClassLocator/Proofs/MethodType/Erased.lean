import ClassLocator.Proofs.MethodType.Signature
import Mathlib.Data.Set.List
/-!
Signatures that say no more than descriptors. A descriptor is itself a signature, as long as no name in
it has a character that ends names there, and the signatures without generics are all of this kind. So
the two readers agree on the texts that both are made for.
-/

namespace ClassLocator.MethodType

/-- No character of a class name ends it in a signature. -/
def Element.IsPlain : Element → Prop
  | .base _ => True
  | .object name => '<' ∉ name.toList ∧ '.' ∉ name.toList

def Element.generic : Element → GenericType
  | .base b => .base b
  | .object name => .ofClass (.mk name []) []

def FieldType.generic (t : FieldType) : GenericType :=
  match t.dimensions with
  | 0 => t.element.generic
  | n + 1 => .array (n + 1) t.element.generic

def GenericType.IsErased : GenericType → Prop
  | .base _ => True
  | .parameter _ => False
  | .ofClass (.mk _ arguments) inner => arguments = [] ∧ inner = []
  | .array _ element => element.IsErased

structure Descriptor.IsPlain (d : Descriptor) : Prop where
  parameters : ∀ t ∈ d.parameters, t.element.IsPlain
  result : ∀ t ∈ d.result, t.element.IsPlain

def Descriptor.signature (d : Descriptor) : Signature :=
  ⟨[], d.parameters.map (·.generic), d.result.map (·.generic), []⟩

/-- A signature without type parameters, thrown types and generic types. -/
structure Signature.IsErased (s : Signature) : Prop where
  typeParameters : s.typeParameters = []
  parameters : ∀ t ∈ s.parameters, t.IsErased
  result : ∀ t ∈ s.result, t.IsErased
  thrown : s.thrown = []

namespace Element

theorem wire_generic (e : Element) : e.generic.wire = e.wire := by
  cases e with
  | base b => simp [generic, GenericType.wire, wire]
  | object name => simp [generic, GenericType.wire, TypeArgument.wireList, ClassPart.wireInner, wire]

theorem render_generic (e : Element) : e.generic.render = e.render := by
  cases e with
  | base b => simp [generic, GenericType.render, render]
  | object name =>
    simp [generic, GenericType.render, TypeArgument.renderList, ClassPart.renderInner, render]

theorem depth_generic (e : Element) : e.generic.depth = 0 := by
  cases e with
  | base b => simp [generic, GenericType.depth]
  | object name => simp [generic, GenericType.depth, TypeArgument.depthList, ClassPart.depthInner]

theorem isErased_generic (e : Element) : e.generic.IsErased := by
  cases e <;> simp [generic, GenericType.IsErased]

theorem not_isArray_generic (e : Element) : ¬e.generic.IsArray := by
  cases e <;> simp [generic, GenericType.IsArray]

theorem isName_iff (name : String) :
    IsName ['<', '.', ';'] name ↔ IsName [';'] name ∧ '<' ∉ name.toList ∧ '.' ∉ name.toList := by
  simp only [IsName, List.mem_cons, List.not_mem_nil, or_false, not_or]
  grind

theorem wellFormed_generic (e : Element) : e.generic.WellFormed ↔ e.WellFormed ∧ e.IsPlain := by
  cases e with
  | base b => simp [generic, GenericType.WellFormed, WellFormed, IsPlain]
  | object name =>
    simp [generic, GenericType.WellFormed, TypeArgument.WellFormedList, ClassPart.WellFormedInner,
      isName_iff, WellFormed, IsPlain]

theorem exists_generic {t : GenericType} (h : t.IsErased) (hn : ¬t.IsArray) :
    ∃ e : Element, e.generic = t := by
  cases t with
  | base b => exact ⟨.base b, rfl⟩
  | parameter name => exact h.elim
  | ofClass outer inner =>
    obtain ⟨name, arguments⟩ := outer
    obtain ⟨rfl, rfl⟩ := h
    exact ⟨.object name, rfl⟩
  | array n element => exact absurd trivial hn

end Element

namespace FieldType

theorem wire_generic (t : FieldType) : t.generic.wire = t.wire := by
  obtain ⟨n, e⟩ := t
  cases n with
  | zero => simp [generic, wire, e.wire_generic]
  | succ n => simp [generic, wire, GenericType.wire, e.wire_generic]

theorem render_generic (t : FieldType) : t.generic.render = t.render := by
  obtain ⟨n, e⟩ := t
  cases n with
  | zero => simp [generic, render, withDimensions, e.render_generic]
  | succ n => simp [generic, render, GenericType.render, e.render_generic]

theorem isErased_generic (t : FieldType) : t.generic.IsErased := by
  obtain ⟨n, e⟩ := t
  cases n with
  | zero => exact e.isErased_generic
  | succ n => simpa [generic, GenericType.IsErased] using e.isErased_generic

theorem admissible_generic (t : FieldType) :
    t.generic.Admissible ↔ t.WellFormed ∧ t.element.IsPlain := by
  obtain ⟨n, e⟩ := t
  have hw := e.wellFormed_generic
  have hd := e.depth_generic
  have ha := e.not_isArray_generic
  cases n with
  | zero =>
    constructor
    · intro h
      obtain ⟨he, hp⟩ := hw.mp h.wellFormed
      exact ⟨⟨Nat.zero_le _, he⟩, hp⟩
    · intro h
      obtain ⟨⟨-, he⟩, hp⟩ := h
      exact ⟨hw.mpr ⟨he, hp⟩, by simp [generic, hd]⟩
  | succ n =>
    constructor
    · intro h
      obtain ⟨-, hn, -, hg⟩ : 1 ≤ n + 1 ∧ n + 1 ≤ maxDimensions ∧ ¬e.generic.IsArray ∧
          e.generic.WellFormed := by simpa [generic, GenericType.WellFormed] using h.wellFormed
      obtain ⟨he, hp⟩ := hw.mp hg
      exact ⟨⟨hn, he⟩, hp⟩
    · intro h
      obtain ⟨⟨hn, he⟩, hp⟩ := h
      refine ⟨?_, by simp [generic, GenericType.depth, hd]⟩
      have hn : n + 1 ≤ maxDimensions := hn
      simpa [generic, GenericType.WellFormed, ha, hn] using hw.mpr ⟨he, hp⟩

/-- Only arrays have dimensions, and their elements are no arrays. -/
theorem exists_generic {t : GenericType} (hw : t.WellFormed) (h : t.IsErased) :
    ∃ f : FieldType, f.generic = t := by
  by_cases ha : t.IsArray
  · cases t with
    | array n element =>
      obtain ⟨hn, -, hna, -⟩ : 1 ≤ n ∧ n ≤ maxDimensions ∧ ¬element.IsArray ∧ element.WellFormed := by
        simpa [GenericType.WellFormed] using hw
      have he : element.IsErased := by simpa [GenericType.IsErased] using h
      obtain ⟨e, rfl⟩ := Element.exists_generic he hna
      obtain ⟨k, rfl⟩ := Nat.exists_eq_add_of_le' hn
      exact ⟨⟨k + 1, e⟩, rfl⟩
    | _ => exact ha.elim
  · obtain ⟨e, rfl⟩ := Element.exists_generic h ha
    exact ⟨⟨0, e⟩, rfl⟩

end FieldType

namespace Descriptor

theorem encode_signature (d : Descriptor) : d.signature.encode = d.encode := by
  obtain ⟨parameters, result⟩ := d
  simp [Signature.encode, encode, Signature.wire, wire, signature, TypeParameter.wireList,
    List.flatMap_map, FieldType.wire_generic, Option.map_map, Function.comp_def]

theorem render_signature (d : Descriptor) : d.signature.render = d.render := by
  obtain ⟨parameters, result⟩ := d
  simp [Signature.render, render, signature, FieldType.render_generic, Option.map_map,
    Function.comp_def]

theorem isErased_signature (d : Descriptor) : d.signature.IsErased where
  typeParameters := rfl
  parameters := by
    intro t ht
    obtain ⟨f, -, rfl⟩ := List.mem_map.mp ht
    exact f.isErased_generic
  result := by
    intro t ht
    obtain ⟨f, -, rfl⟩ := Option.mem_map.mp ht
    exact f.isErased_generic
  thrown := rfl

theorem wellFormed_signature (d : Descriptor) :
    d.signature.WellFormed ↔ d.WellFormed ∧ d.IsPlain := by
  constructor
  · intro h
    have hp : ∀ t ∈ d.parameters, t.WellFormed ∧ t.element.IsPlain := fun t ht =>
      t.admissible_generic.mp (h.parameters _ (List.mem_map_of_mem ht))
    have hr : ∀ t ∈ d.result, t.WellFormed ∧ t.element.IsPlain := fun t ht =>
      t.admissible_generic.mp (h.result _ (Option.mem_map_of_mem _ ht))
    exact ⟨⟨fun t ht => (hp t ht).1, fun t ht => (hr t ht).1⟩,
      ⟨fun t ht => (hp t ht).2, fun t ht => (hr t ht).2⟩⟩
  · intro h
    obtain ⟨hw, hp⟩ := h
    refine ⟨by simp [signature], by simp [signature], fun t ht => ?_, fun t ht => ?_, by simp [signature]⟩
    · obtain ⟨f, hf, rfl⟩ := List.mem_map.mp ht
      exact f.admissible_generic.mpr ⟨hw.parameters f hf, hp.parameters f hf⟩
    · obtain ⟨f, hf, rfl⟩ := Option.mem_map.mp ht
      exact f.admissible_generic.mpr ⟨hw.result f hf, hp.result f hf⟩

theorem exists_signature {s : Signature} (hw : s.WellFormed) (h : s.IsErased) :
    ∃ d : Descriptor, d.signature = s := by
  have hparameters : s.parameters ∈ Set.range (List.map FieldType.generic) := by
    rw [Set.range_list_map]
    exact fun t ht => FieldType.exists_generic (hw.parameters t ht).wellFormed (h.parameters t ht)
  obtain ⟨parameters, hp⟩ := hparameters
  obtain ⟨result, hr⟩ : ∃ result, Option.map FieldType.generic result = s.result := by
    cases hs : s.result with
    | none => exact ⟨none, rfl⟩
    | some t =>
      obtain ⟨f, rfl⟩ := FieldType.exists_generic (hw.result t hs).wellFormed (h.result t hs)
      exact ⟨some f, rfl⟩
  refine ⟨⟨parameters, result⟩, ?_⟩
  obtain ⟨typeParameters, _, _, thrown⟩ := s
  obtain rfl : typeParameters = [] := h.typeParameters
  obtain rfl : thrown = [] := h.thrown
  simp only [signature, hp, hr]

end Descriptor

end ClassLocator.MethodType

namespace ClassLocator.ClassFile

open MethodType

/-- A text is read as a descriptor with plain names if and only if it is read as a signature without
generics, and both give the same types. -/
theorem parseSignature_iff_parseDescriptor (text : String) (types : MethodType) :
    (parseDescriptor text = .ok types ∧ ∃ d, Descriptor.read text = .ok d ∧ d.IsPlain) ↔
      parseSignature text = .ok types ∧ ∃ s, Signature.read text = .ok s ∧ s.IsErased := by
  constructor
  · rintro ⟨hparse, d, hread, hplain⟩
    obtain ⟨hw, rfl⟩ := Descriptor.read_eq_ok_iff.mp hread
    rw [parseDescriptor_encode hw] at hparse
    obtain rfl := Except.ok.inj hparse
    have hs := d.wellFormed_signature.mpr ⟨hw, hplain⟩
    rw [← d.encode_signature, ← d.render_signature]
    exact ⟨parseSignature_encode hs, d.signature, Signature.read_eq_ok_iff.mpr ⟨hs, rfl⟩,
      d.isErased_signature⟩
  · rintro ⟨hparse, s, hread, herased⟩
    obtain ⟨hs, rfl⟩ := Signature.read_eq_ok_iff.mp hread
    rw [parseSignature_encode hs] at hparse
    obtain rfl := Except.ok.inj hparse
    obtain ⟨d, rfl⟩ := Descriptor.exists_signature hs herased
    obtain ⟨hw, hplain⟩ := d.wellFormed_signature.mp hs
    rw [d.encode_signature, d.render_signature]
    exact ⟨parseDescriptor_encode hw, d, Descriptor.read_eq_ok_iff.mpr ⟨hw, rfl⟩, hplain⟩

end ClassLocator.ClassFile

import ClassLocator.Proofs.MethodType.Descriptor
/-!
The types of generic signatures. A reader of types that may nest lists of type arguments `levels` deep
takes the texts of the well-formed types of that depth; the levels are what the induction is on, since
reading a list of arguments recurses on them alone.
-/

namespace ClassLocator.MethodType

open Text Reader

def ClassPart.wire : ClassPart → List Char
  | .mk name arguments => name.toList ++ TypeArgument.wireList arguments

def ClassPart.Within (levels : Nat) : ClassPart → Prop
  | .mk name arguments => IsName ['<', '.', ';'] name ∧ TypeArgument.WellFormedList arguments ∧
    TypeArgument.depthList arguments ≤ levels

def ClassPart.arguments : ClassPart → List TypeArgument
  | .mk _ arguments => arguments

def ClassPart.InnerWithin (levels : Nat) (parts : List ClassPart) : Prop :=
  ClassPart.WellFormedInner parts ∧ ClassPart.depthInner parts ≤ levels

def GenericType.Within (levels : Nat) (t : GenericType) : Prop := t.WellFormed ∧ t.depth ≤ levels

def TypeArgument.Within (levels : Nat) (a : TypeArgument) : Prop := a.WellFormed ∧ a.depth ≤ levels

def TypeArgument.ListWithin (levels : Nat) (arguments : List TypeArgument) : Prop :=
  arguments ≠ [] ∧ TypeArgument.WellFormedList arguments ∧ TypeArgument.depthList arguments ≤ levels

theorem ClassPart.innerWithin_cons {levels : Nat} {part : ClassPart} {parts : List ClassPart} :
    InnerWithin levels (part :: parts) ↔ part.Within levels ∧ InnerWithin levels parts := by
  obtain ⟨name, arguments⟩ := part
  simp only [InnerWithin, WellFormedInner, depthInner, Within, Nat.max_le]
  constructor
  · intro h
    obtain ⟨⟨hn, ha, hp⟩, hda, hdp⟩ := h
    exact ⟨⟨hn, ha, hda⟩, hp, hdp⟩
  · intro h
    obtain ⟨⟨hn, ha, hda⟩, hp, hdp⟩ := h
    exact ⟨⟨hn, ha, hp⟩, hda, hdp⟩

theorem ClassPart.wireInner_cons (part : ClassPart) (parts : List ClassPart) :
    wireInner (part :: parts) = '.' :: part.wire ++ wireInner parts := by
  obtain ⟨name, arguments⟩ := part
  simp [wireInner, wire]

theorem ClassPart.wireInner_append_head? (parts : List ClassPart) (tail : List Char) :
    Stopped ['.', ';'] (wireInner parts ++ tail) := by
  intro c hc
  cases parts with
  | nil =>
    cases hc
    simp
  | cons part parts =>
    rw [wireInner_cons] at hc
    cases hc
    simp

theorem TypeArgument.listWithin_succ {levels : Nat} {arguments : List TypeArgument} :
    ListWithin (levels + 1) arguments ↔ arguments ≠ [] ∧ ∀ a ∈ arguments, a.Within levels := by
  have h : WellFormedList arguments ∧ depthList arguments ≤ levels + 1 ↔
      ∀ a ∈ arguments, a.Within levels := by
    induction arguments with
    | nil => simp [WellFormedList, depthList]
    | cons a rest ih =>
      rw [List.forall_mem_cons, ← ih]
      simp only [WellFormedList, depthList, Nat.max_le, Within, Nat.add_le_add_iff_right]
      constructor
      · intro h
        obtain ⟨⟨ha, hr⟩, hda, hdr⟩ := h
        exact ⟨⟨ha, hda⟩, hr, hdr⟩
      · intro h
        obtain ⟨⟨ha, hda⟩, hr, hdr⟩ := h
        exact ⟨⟨ha, hr⟩, hda, hdr⟩
  rw [ListWithin, h]

theorem TypeArgument.not_listWithin_zero (arguments : List TypeArgument) :
    ¬ListWithin 0 arguments := by
  intro h
  obtain ⟨hne, -, hd⟩ := h
  cases arguments with
  | nil => exact hne rfl
  | cons a rest =>
    simp only [depthList] at hd
    omega

theorem TypeArgument.wireMore_eq (arguments : List TypeArgument) :
    wireMore arguments = arguments.flatMap wire ++ ['>'] := by
  induction arguments with
  | nil => simp [wireMore]
  | cons a rest ih => simp [wireMore, ih]

theorem TypeArgument.wireList_eq {arguments : List TypeArgument} (h : arguments ≠ []) :
    wireList arguments = '<' :: arguments.flatMap wire ++ ['>'] := by
  cases arguments with
  | nil => exact absurd rfl h
  | cons a rest => simp [wireList, wireMore_eq]

namespace GenericType

def start : GenericType → Char
  | .base b => b.code
  | .parameter _ => 'T'
  | .ofClass _ _ => 'L'
  | .array _ _ => '['

theorem head?_wire {t : GenericType} (h : t.WellFormed) (tail : List Char) :
    (t.wire ++ tail).head? = some t.start := by
  cases t with
  | base b => rfl
  | parameter name => rfl
  | ofClass outer inner =>
    obtain ⟨name, list⟩ := outer
    rfl
  | array k element =>
    obtain ⟨j, rfl⟩ := Nat.exists_eq_add_of_le' h.1
    simp [wire, start, List.replicate_succ]

theorem start_eq_bracket {t : GenericType} : t.start = '[' ↔ t.IsArray := by
  cases t with
  | base b => cases b <;> simp [start, IsArray, BaseType.code]
  | _ => simp [start, IsArray]

theorem sees_bracket_iff {t : GenericType} (h : t.WellFormed) {tail : List Char} :
    decide ((t.wire ++ tail).head? = some '[') = true ↔ t.IsArray := by
  rw [head?_wire h, decide_eq_true_eq, Option.some.injEq, start_eq_bracket]

theorem start_mem_typeStarts (t : GenericType) : t.start ∈ typeStarts := by
  cases t with
  | base b => exact code_mem_typeStarts b
  | _ => simp [start, typeStarts]

theorem begins_wire {t : GenericType} (h : t.WellFormed) : Begins typeStarts t.wire :=
  ⟨t.start, t.start_mem_typeStarts, by simpa using head?_wire h []⟩

end GenericType

theorem TypeArgument.begins_wire {a : TypeArgument} (h : a.WellFormed) :
    Begins ('*' :: '+' :: '-' :: typeStarts) a.wire := by
  cases a with
  | any => exact ⟨'*', by simp, rfl⟩
  | extending t => exact ⟨'+', by simp, rfl⟩
  | superOf t => exact ⟨'-', by simp, rfl⟩
  | exactly t =>
    obtain ⟨c, hc, hh⟩ := GenericType.begins_wire h.2
    exact ⟨c, by simp [hc], hh⟩

namespace Signature

section
variable {n levels : Nat} {arguments : Reader (List TypeArgument)}
  (ha : ReadsAs (Cursor.Before n) arguments
    (Written (TypeArgument.ListWithin levels) TypeArgument.wireList))
include ha

theorem reads_classPart {k : Nat} (hk : k ≤ n) :
    ReadsAs (Cursor.Before k) (classPart arguments) fun cs part tail =>
      part.Within levels ∧ cs = part.wire ++ tail ∧
        (part.arguments = [] → Stopped ['.', ';'] tail) := by
  unfold classPart
  refine ((reads_identifier (by simp [IsAscii])).bind fun name => (reads_sees (by decide)).bind fun b =>
    .ite (b = true) (fun _ => (reads_of_le hk ha).bind fun list => .pure (ClassPart.mk name list))
      fun _ => .pure (ClassPart.mk name [])).congr fun cs part tail => ?_
  constructor
  · intro h
    obtain ⟨name, m, ⟨hn, rfl, hst⟩, b, m', ⟨rfl, rfl⟩, h⟩ := h
    by_cases hh : m'.head? = some '<'
    · simp only [hh, decide_true, if_true] at h
      obtain ⟨list, m, ⟨⟨hne, hwf, hd⟩, rfl⟩, rfl, rfl⟩ := h
      exact ⟨⟨hn, hwf, hd⟩, by simp [ClassPart.wire], fun h => absurd h hne⟩
    · simp only [hh, decide_false, Bool.false_eq_true, if_false] at h
      obtain ⟨rfl, rfl⟩ := h
      -- The name stopped at one of three characters, and an angle bracket was looked for.
      refine ⟨⟨hn, trivial, Nat.zero_le _⟩, by simp [ClassPart.wire, TypeArgument.wireList], ?_⟩
      intro _ c hc
      have hin := hst c hc
      simp only [List.mem_cons] at hin ⊢
      rcases hin with rfl | hin
      · exact absurd hc hh
      · exact hin
  · intro h
    obtain ⟨name, list⟩ := part
    obtain ⟨⟨hn, hwf, hd⟩, rfl, hst⟩ := h
    refine ⟨name, TypeArgument.wireList list ++ tail, ⟨hn, by simp [ClassPart.wire], ?_⟩, _, _,
      ⟨rfl, rfl⟩, ?_⟩
    · cases list with
      | nil =>
        intro c hc
        exact List.mem_cons_of_mem _ (hst rfl c hc)
      | cons a rest =>
        intro c hc
        cases hc
        simp
    · cases list with
      | nil =>
        have hh : tail.head? ≠ some '<' := fun h => absurd (hst rfl _ h) (by decide)
        simp [TypeArgument.wireList, hh]
      | cons a rest =>
        have hh : (TypeArgument.wireList (a :: rest) ++ tail).head? = some '<' := rfl
        simp only [hh, decide_true, if_true]
        exact ⟨a :: rest, tail, ⟨⟨by simp, hwf, hd⟩, rfl⟩, rfl, rfl⟩

theorem reads_innerParts (fuel : Nat) (hf : fuel ≤ n) :
    ReadsAs (Cursor.Before fuel) (innerParts arguments fuel)
      (Written (ClassPart.InnerWithin levels) ClassPart.wireInner) := by
  induction fuel with
  | zero => exact ⟨fun hs => absurd hs.2 (by omega), fun hs => absurd hs.2 (by omega)⟩
  | succ fuel ih =>
    unfold innerParts
    have hs : IsAscii ';' := by decide
    have hd : IsAscii '.' := by decide
    refine (reads_next_bind_le (Nat.le_succ fuel) (Nat.le_refl _) (P := fun c rest parts tail =>
      if c = ';' then parts = [] ∧ tail = rest
      else if c = '.' then ∃ part m, (part.Within levels ∧ rest = part.wire ++ m ∧
        (part.arguments = [] → Stopped ['.', ';'] m)) ∧ ∃ more,
          Written (ClassPart.InnerWithin levels) ClassPart.wireInner m more tail ∧
            parts = part :: more
      else False) (fun c hc => ?_) fun b hb s => ?_).congr fun cs parts tail => ?_
    · simp only [byte_beq hc hs, byte_beq hc hd, decide_eq_true_eq]
      refine .ite _ (fun _ => .pure []) fun _ => .ite _ (fun _ => ?_) fun _ => .fails fun s => ⟨_, rfl⟩
      refine ((reads_classPart ha (by omega)).bind fun part =>
        (ih (by omega)).map (part :: ·)).congr fun cs parts tail => Iff.rfl
    · simp only [beq_byte_of_wide hb hs, beq_byte_of_wide hb hd, Bool.false_eq_true, if_false]
      exact ⟨_, rfl⟩
    · constructor
      · intro h
        obtain ⟨c, rest, rfl, hc, h⟩ := h
        split at h
        · next hcs =>
          obtain ⟨rfl, rfl⟩ := h
          exact ⟨⟨trivial, Nat.zero_le _⟩, by simp [ClassPart.wireInner, hcs]⟩
        split at h
        · next hcd =>
          obtain ⟨part, m, ⟨hp, rfl, -⟩, more, ⟨hm, rfl⟩, rfl⟩ := h
          exact ⟨ClassPart.innerWithin_cons.mpr ⟨hp, hm⟩, by simp [ClassPart.wireInner_cons, hcd]⟩
        · exact h.elim
      · intro h
        obtain ⟨hp, rfl⟩ := h
        cases parts with
        | nil => exact ⟨';', tail, rfl, hs, rfl, rfl⟩
        | cons part more =>
          obtain ⟨hp, hm⟩ := ClassPart.innerWithin_cons.mp hp
          refine ⟨'.', part.wire ++ (ClassPart.wireInner more ++ tail), ?_, hd, ?_⟩
          · simp [ClassPart.wireInner_cons]
          · rw [if_neg (by decide), if_pos rfl]
            exact ⟨part, _, ⟨hp, rfl, fun _ => ClassPart.wireInner_append_head? more tail⟩,
              more, ⟨hm, rfl⟩, rfl⟩

theorem reads_elementType :
    ReadsAs (Cursor.Before n) (elementType n arguments)
      (Written (fun t => t.Within levels ∧ t.IsReference ∧ ¬t.IsArray) GenericType.wire) := by
  unfold elementType
  have hL : IsAscii 'L' := by decide
  have hT : IsAscii 'T' := by decide
  refine (reads_next_bind (P := fun c rest t tail =>
    if c = 'L' then ∃ outer m, (outer.Within levels ∧ rest = outer.wire ++ m ∧
      (outer.arguments = [] → Stopped ['.', ';'] m)) ∧ ∃ inner,
        Written (ClassPart.InnerWithin levels) ClassPart.wireInner m inner tail ∧
          t = .ofClass outer inner
    else if c = 'T' then ∃ name, IsName [';'] name ∧ t = .parameter name ∧
      rest = name.toList ++ ';' :: tail
    else False) (fun c hc => ?_) fun b hb s => ?_).congr fun cs t tail => ?_
  · simp only [byte_beq hc hL, byte_beq hc hT, decide_eq_true_eq]
    refine .ite _ (fun _ => ?_) fun _ => .ite _ (fun _ => reads_name _) fun _ => .fails fun s => ⟨_, rfl⟩
    exact ((reads_classPart ha (Nat.le_refl n)).bind fun outer =>
      (reads_innerParts ha n (Nat.le_refl n)).map (GenericType.ofClass outer)).congr fun cs t tail => Iff.rfl
  · simp only [beq_byte_of_wide hb hL, beq_byte_of_wide hb hT, Bool.false_eq_true, if_false]
    exact ⟨_, rfl⟩
  · constructor
    · intro h
      obtain ⟨c, rest, rfl, hc, h⟩ := h
      split at h
      · next hcL =>
        obtain ⟨⟨name, list⟩, m, ⟨⟨hn, hl, hdl⟩, rfl, -⟩, inner, ⟨⟨hi, hdi⟩, rfl⟩, rfl⟩ := h
        refine ⟨⟨⟨⟨hn, hl, hi⟩, Nat.max_le.mpr ⟨hdl, hdi⟩⟩, trivial, id⟩, ?_⟩
        simp [GenericType.wire, ClassPart.wire, hcL]
      split at h
      · next hcT =>
        obtain ⟨name, hn, rfl, rfl⟩ := h
        exact ⟨⟨⟨hn, Nat.zero_le _⟩, trivial, id⟩, by simp [GenericType.wire, hcT]⟩
      · exact h.elim
    · intro h
      obtain ⟨⟨⟨hw, hd⟩, hr, hna⟩, rfl⟩ := h
      cases t with
      | base b => exact hr.elim
      | parameter name =>
        refine ⟨'T', name.toList ++ ';' :: tail, by simp [GenericType.wire], hT, ?_⟩
        rw [if_neg (by decide), if_pos rfl]
        exact ⟨name, hw, rfl, rfl⟩
      | ofClass outer inner =>
        obtain ⟨name, list⟩ := outer
        obtain ⟨hn, hl, hi⟩ := hw
        obtain ⟨hdl, hdi⟩ := Nat.max_le.mp hd
        refine ⟨'L', ClassPart.wire (.mk name list) ++ (ClassPart.wireInner inner ++ tail),
          by simp [GenericType.wire, ClassPart.wire], hL, ?_⟩
        rw [if_pos rfl]
        exact ⟨.mk name list, _, ⟨⟨hn, hl, hdl⟩, rfl,
          fun _ => ClassPart.wireInner_append_head? inner tail⟩, inner, ⟨⟨hi, hdi⟩, rfl⟩, rfl⟩
      | array k element => exact (hna trivial).elim

theorem reads_plainType :
    ReadsAs (Cursor.Before n) (plainType n arguments)
      (Written (fun t => t.Within levels ∧ ¬t.IsArray) GenericType.wire) := by
  unfold plainType
  refine ((reads_sees (by decide)).bind fun b => (reads_sees (by decide)).bind fun b' =>
    .ite ((b || b') = true) (fun _ => reads_elementType ha) fun _ =>
      reads_next_bind (P := fun c rest t tail => ∃ b : BaseType, (c = b.code ∧ tail = rest) ∧
        t = GenericType.base b) (fun c hc => (reads_baseType hc).map GenericType.base) fun b hb s => ?_).congr
    fun cs t tail => ?_
  · obtain ⟨e, he⟩ := baseType_of_wide hb s
    exact ⟨e, by simp [bind, StateT.bind, he, Except.bind]⟩
  · constructor
    · intro h
      obtain ⟨b, m, ⟨rfl, rfl⟩, b', m', ⟨rfl, rfl⟩, h⟩ := h
      split at h
      · obtain ⟨⟨hw, -, hna⟩, rfl⟩ := h
        exact ⟨⟨hw, hna⟩, rfl⟩
      · obtain ⟨c, rest, rfl, -, b, ⟨rfl, rfl⟩, rfl⟩ := h
        exact ⟨⟨⟨trivial, Nat.zero_le _⟩, id⟩, rfl⟩
    · intro h
      obtain ⟨⟨hw, hna⟩, rfl⟩ := h
      refine ⟨_, _, ⟨rfl, rfl⟩, _, _, ⟨rfl, rfl⟩, ?_⟩
      rw [GenericType.head?_wire hw.1]
      cases t with
      | base b =>
        rw [if_neg (by cases b <;> simp [GenericType.start, BaseType.code])]
        exact ⟨b.code, tail, rfl, code_isAscii b, b, ⟨rfl, rfl⟩, rfl⟩
      | parameter name => exact ⟨⟨hw, trivial, id⟩, rfl⟩
      | ofClass outer inner => exact ⟨⟨hw, trivial, id⟩, rfl⟩
      | array k element => exact (hna trivial).elim

theorem reads_referenceType :
    ReadsAs (Cursor.Before n) (referenceType n arguments)
      (Written (fun t => t.Within levels ∧ t.IsReference) GenericType.wire) := by
  unfold referenceType
  refine ((reads_sees (by decide)).bind fun b => .ite (b = true)
    (fun _ => reads_dimensions.bind fun k => (reads_plainType ha).map (GenericType.array k))
    fun _ => reads_elementType ha).congr fun cs t tail => ?_
  constructor
  · intro h
    obtain ⟨b, m, ⟨rfl, rfl⟩, h⟩ := h
    split at h
    · next hh =>
      obtain ⟨k, m', ⟨hk, rfl, hm⟩, t, ⟨⟨⟨hw, hd⟩, hna⟩, rfl⟩, rfl⟩ := h
      refine ⟨⟨⟨⟨?_, hk, hna, hw⟩, hd⟩, trivial⟩, by simp [GenericType.wire]⟩
      rcases replicate_bracket_append k (t.wire ++ tail) with ⟨rfl, h⟩ | ⟨hk, -⟩
      · rw [h] at hh
        exact absurd (of_decide_eq_true hh) hm
      · exact hk
    · obtain ⟨⟨hw, hr, -⟩, rfl⟩ := h
      exact ⟨⟨hw, hr⟩, rfl⟩
  · intro h
    obtain ⟨⟨⟨hw, hd⟩, hr⟩, rfl⟩ := h
    refine ⟨_, _, ⟨rfl, rfl⟩, ?_⟩
    by_cases hta : t.IsArray
    · rw [if_pos ((GenericType.sees_bracket_iff hw).mpr hta)]
      cases t with
      | array k element =>
        obtain ⟨hk, hle, hna, hw⟩ := hw
        refine ⟨k, element.wire ++ tail, ⟨hle, by simp [GenericType.wire], ?_⟩, element,
          ⟨⟨⟨hw, hd⟩, hna⟩, rfl⟩, rfl⟩
        rw [GenericType.head?_wire hw]
        exact fun h => hna (GenericType.start_eq_bracket.mp (Option.some.inj h))
      | _ => exact hta.elim
    · rw [if_neg (mt (GenericType.sees_bracket_iff hw).mp hta)]
      exact ⟨⟨⟨hw, hd⟩, hr, hta⟩, rfl⟩

theorem reads_anyType :
    ReadsAs (Cursor.Before n) (anyType n arguments)
      (Written (GenericType.Within levels) GenericType.wire) := by
  unfold anyType
  refine ((reads_sees (by decide)).bind fun b => .ite (b = true)
    (fun _ => reads_referenceType ha) fun _ => reads_plainType ha).congr fun cs t tail => ?_
  constructor
  · intro h
    obtain ⟨b, m, ⟨rfl, rfl⟩, h⟩ := h
    split at h
    · exact ⟨h.1.1, h.2⟩
    · exact ⟨h.1.1, h.2⟩
  · intro h
    obtain ⟨⟨hw, hd⟩, rfl⟩ := h
    refine ⟨_, _, ⟨rfl, rfl⟩, ?_⟩
    by_cases hta : t.IsArray
    · rw [if_pos ((GenericType.sees_bracket_iff hw).mpr hta)]
      cases t with
      | array k element => exact ⟨⟨⟨hw, hd⟩, trivial⟩, rfl⟩
      | _ => exact hta.elim
    · rw [if_neg (mt (GenericType.sees_bracket_iff hw).mp hta)]
      exact ⟨⟨⟨hw, hd⟩, hta⟩, rfl⟩

theorem reads_typeArgument :
    ReadsAs (Cursor.Before n) (typeArgument n arguments)
      (Written (TypeArgument.Within levels) TypeArgument.wire) := by
  unfold typeArgument
  have ht := reads_referenceType ha
  refine (reads_next_of_seen (by decide) (.pure TypeArgument.any)
    (reads_next_of_seen (by decide) (ht.map TypeArgument.extending)
      (reads_next_of_seen (by decide) (ht.map TypeArgument.superOf)
        (ht.map TypeArgument.exactly)))).congr fun cs a tail => ?_
  constructor
  · intro h
    rcases h with ⟨rest, rfl, rfl, rfl⟩ | ⟨-, h⟩
    · exact ⟨⟨trivial, Nat.zero_le _⟩, rfl⟩
    rcases h with ⟨rest, rfl, t, ⟨⟨⟨hw, hd⟩, hr⟩, rfl⟩, rfl⟩ | ⟨-, h⟩
    · exact ⟨⟨⟨hr, hw⟩, hd⟩, rfl⟩
    rcases h with ⟨rest, rfl, t, ⟨⟨⟨hw, hd⟩, hr⟩, rfl⟩, rfl⟩ | ⟨-, t, ⟨⟨⟨hw, hd⟩, hr⟩, rfl⟩, rfl⟩
    · exact ⟨⟨⟨hr, hw⟩, hd⟩, rfl⟩
    · exact ⟨⟨⟨hr, hw⟩, hd⟩, rfl⟩
  · intro h
    obtain ⟨⟨hw, hd⟩, rfl⟩ := h
    cases a with
    | any => exact .inl ⟨tail, rfl, rfl, rfl⟩
    | extending t =>
      exact .inr ⟨by simp [TypeArgument.wire], .inl ⟨_, rfl, t, ⟨⟨⟨hw.2, hd⟩, hw.1⟩, rfl⟩, rfl⟩⟩
    | superOf t =>
      exact .inr ⟨by simp [TypeArgument.wire], .inr ⟨by simp [TypeArgument.wire],
        .inl ⟨_, rfl, t, ⟨⟨⟨hw.2, hd⟩, hw.1⟩, rfl⟩, rfl⟩⟩⟩
    | exactly t =>
      have hb := GenericType.begins_wire hw.2
      exact .inr ⟨hb.head?_append_ne (by decide) tail, .inr ⟨hb.head?_append_ne (by decide) tail,
        .inr ⟨hb.head?_append_ne (by decide) tail, t, ⟨⟨⟨hw.2, hd⟩, hw.1⟩, rfl⟩, rfl⟩⟩⟩

end

variable {n : Nat}

theorem reads_typeArguments (levels : Nat) :
    ReadsAs (Cursor.Before n) (typeArguments n levels)
      (Written (TypeArgument.ListWithin levels) TypeArgument.wireList) := by
  induction levels with
  | zero =>
    refine (ReadsAs.fails fun s => ⟨_, rfl⟩).congr fun cs list tail => ?_
    exact ⟨False.elim, fun h => TypeArgument.not_listWithin_zero list h.1⟩
  | succ levels ih =>
    unfold typeArguments
    refine ((reads_expect (by decide)).bind fun _ => (reads_untilWritten (by decide) (by decide)
      (fun a ha => TypeArgument.begins_wire ha.1) (reads_typeArgument ih)).bind
        fun list => (reads_expect (by decide)).bind fun _ => .ite (list.isEmpty = true)
          (fun _ => .fails fun s => ⟨_, rfl⟩) fun _ => .pure list).congr fun cs list tail => ?_
    constructor
    · intro h
      obtain ⟨-, m, rfl, list', m', ⟨hl, rfl, -⟩, -, m', rfl, h⟩ := h
      split at h
      · exact h.elim
      · next he =>
        obtain ⟨rfl, rfl⟩ := h
        have hne : list ≠ [] := by simpa using he
        exact ⟨TypeArgument.listWithin_succ.mpr ⟨hne, hl⟩, by simp [TypeArgument.wireList_eq hne]⟩
    · intro h
      obtain ⟨hl, rfl⟩ := h
      obtain ⟨hne, hl⟩ := TypeArgument.listWithin_succ.mp hl
      refine ⟨(), _, ?_, list, '>' :: tail, ⟨hl, rfl, rfl⟩, (), tail, rfl, ?_⟩
      · simp [TypeArgument.wireList_eq hne]
      · simp [hne]

end Signature

end ClassLocator.MethodType

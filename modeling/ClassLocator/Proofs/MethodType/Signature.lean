import ClassLocator.ClassFile.Declarations
import ClassLocator.Proofs.MethodType.GenericType

namespace ClassLocator.MethodType

open Text Reader

namespace Signature

variable {n : Nat}

theorem isBound_iff {t : GenericType} :
    t.IsBound ↔ t.Within maxArgumentDepth ∧ t.IsReference :=
  ⟨fun h => ⟨⟨h.wellFormed, h.depth_le⟩, h.isReference⟩, fun h => ⟨⟨h.1.1, h.1.2⟩, h.2⟩⟩

theorem admissible_iff {t : GenericType} : t.Admissible ↔ t.Within maxArgumentDepth :=
  ⟨fun h => ⟨h.wellFormed, h.depth_le⟩, fun h => ⟨h.1, h.2⟩⟩

theorem reads_bound :
    ReadsAs (Cursor.Before n) (bound n) (Written GenericType.IsBound GenericType.wire) :=
  (reads_referenceType (reads_typeArguments maxArgumentDepth)).congr fun cs t tail => by
    simp only [Written, isBound_iff]

/-- A type parameter in front of `tail`. Without a bound it only ends where the list does. -/
def TakesTypeParameter (cs : List Char) (p : TypeParameter) (tail : List Char) : Prop :=
  (p.WellFormed ∧ cs = p.wire ++ tail) ∧ tail.head? ≠ some ':' ∧
    (¬p.IsBounded → tail.head? = some '>')

theorem reads_typeParameter :
    ReadsAs (Cursor.Before n) (typeParameter n) TakesTypeParameter := by
  unfold typeParameter
  have hbounds : ReadsAs (Cursor.Before n) (eachAfter ':' (bound n) n) _ :=
    reads_eachWritten (by decide) reads_bound
  refine ((reads_identifier (by simp [IsAscii])).bind fun name => (reads_expect (by decide)).bind fun _ =>
    (reads_sees (by decide)).bind fun b => (reads_sees (by decide)).bind fun b' =>
      .ite ((b || b') = true)
        (fun _ => (ReadsAs.pure none).bind fun classBound => hbounds.map
          (TypeParameter.mk name classBound))
        fun _ => (reads_bound.map some).bind fun classBound => hbounds.map
          (TypeParameter.mk name classBound)).congr fun cs p tail => ?_
  constructor
  · intro h
    obtain ⟨name, m, ⟨hn, rfl, -⟩, -, m, rfl, b, m', ⟨rfl, rfl⟩, b', m'', ⟨rfl, rfl⟩, h⟩ := h
    split at h
    · next hb =>
      obtain ⟨_, m, ⟨rfl, rfl⟩, ts, ⟨hts, rfl, ht⟩, rfl⟩ := h
      refine ⟨⟨⟨hn, by simp, hts⟩, by simp [TypeParameter.wire]⟩, ht, fun hnb => ?_⟩
      -- The byte behind the colon was no colon, so it ends the list.
      have hnil : ts = [] := by simpa [TypeParameter.IsBounded] using hnb
      subst hnil
      simpa [ht] using hb
    · obtain ⟨_, m, ⟨t, ⟨htb, rfl⟩, rfl⟩, ts, ⟨hts, rfl, ht⟩, rfl⟩ := h
      exact ⟨⟨⟨hn, by simpa using htb, hts⟩, by simp [TypeParameter.wire]⟩, ht,
        fun hnb => absurd (.inl (by simp)) hnb⟩
  · intro h
    obtain ⟨⟨⟨hn, hc, hts⟩, rfl⟩, ht, hend⟩ := h
    obtain ⟨name, classBound, ts⟩ := p
    refine ⟨name, _, ⟨hn, by simp [TypeParameter.wire]; rfl, ?_⟩, (), _, rfl, _, _, ⟨rfl, rfl⟩, _, _,
      ⟨rfl, rfl⟩, ?_⟩
    · intro c h
      cases h
      simp
    · cases classBound with
      | none =>
        rw [if_pos]
        · exact ⟨none, _, ⟨rfl, rfl⟩, ts, ⟨hts, by simp, ht⟩, rfl⟩
        · cases ts with
          | nil => simpa using .inr (hend (by simp [TypeParameter.IsBounded]))
          | cons t ts => simp
      | some t =>
        have htb := hc t rfl
        have hb := GenericType.begins_wire htb.wellFormed
        rw [if_neg]
        · exact ⟨some t, _, ⟨t, ⟨htb, by simp⟩, rfl⟩, ts, ⟨hts, rfl, ht⟩, rfl⟩
        · simp only [Option.map_some, Option.getD_some, Bool.or_eq_true, decide_eq_true_eq, not_or]
          exact ⟨hb.head?_append_ne (by decide) _, hb.head?_append_ne (by decide) _⟩

theorem typeParameters_head? {ps : List TypeParameter} (h : ∀ p ∈ ps, p.WellFormed)
    {tail : List Char} (ht : tail.head? = some '>') :
    (ps.flatMap TypeParameter.wire ++ tail).head? ≠ some ':' ∧
      (ps ≠ [] → (ps.flatMap TypeParameter.wire ++ tail).head? ≠ some '>') := by
  cases ps with
  | nil => simp [ht]
  | cons p ps =>
    have hn := (h p (by simp)).name
    simp only [List.flatMap_cons, TypeParameter.wire, List.append_assoc, List.cons_append]
    exact ⟨head?_name_ne hn (by simp) _, fun _ => head?_name_ne hn (by simp) _⟩

/-- Only the last of several type parameters can be without a bound. -/
theorem until_typeParameters (ps : List TypeParameter) (cs tail : List Char) :
    Until '>' TakesTypeParameter cs ps tail ↔
      ((∀ p ∈ ps, p.WellFormed) ∧ ∀ p ∈ ps.dropLast, p.IsBounded) ∧
        cs = ps.flatMap TypeParameter.wire ++ tail ∧ tail.head? = some '>' := by
  induction ps generalizing cs with
  | nil =>
    constructor
    · intro h
      obtain ⟨hc, rfl⟩ := h
      exact ⟨⟨by simp, by simp⟩, rfl, hc⟩
    · intro h
      obtain ⟨-, rfl, hc⟩ := h
      exact ⟨hc, rfl⟩
  | cons p ps ih =>
    simp only [Until, ih, TakesTypeParameter, List.flatMap_cons, List.append_assoc]
    constructor
    · intro h
      obtain ⟨-, m, ⟨⟨hp, rfl⟩, -, hend⟩, ⟨hps, hb⟩, rfl, ht⟩ := h
      refine ⟨⟨by simpa using ⟨hp, hps⟩, ?_⟩, rfl, ht⟩
      cases ps with
      | nil => simp
      | cons q ps =>
        -- Without a bound `p` would stand at the end of the list, where `q` begins.
        have hpb : p.IsBounded := by
          apply Classical.byContradiction
          intro hnb
          exact (typeParameters_head? hps ht).2 (by simp) (hend hnb)
        simp only [List.dropLast_cons_cons, List.forall_mem_cons]
        exact ⟨hpb, hb⟩
    · intro h
      obtain ⟨⟨hw, hb⟩, rfl, ht⟩ := h
      obtain ⟨hp, hps⟩ := List.forall_mem_cons.mp hw
      refine ⟨?_, _, ⟨⟨hp, rfl⟩, (typeParameters_head? hps ht).1, ?_⟩, ⟨hps, ?_⟩, rfl, ht⟩
      · simp only [TypeParameter.wire, List.append_assoc]
        exact head?_name_ne hp.name (by simp) _
      · cases ps with
        | nil => exact fun _ => by simpa using ht
        | cons q ps => exact fun hnb => absurd (hb p (by simp)) hnb
      · cases ps with
        | nil => simp
        | cons q ps => exact fun r hr => hb r (by simp [hr])

theorem reads_typeParameterList :
    ReadsAs (Cursor.Before n) (typeParameterList n) fun cs ps tail =>
      ((∀ p ∈ ps, p.WellFormed) ∧ ∀ p ∈ ps.dropLast, p.IsBounded) ∧
        cs = TypeParameter.wireList ps ++ tail ∧ (ps = [] → tail.head? ≠ some '<') := by
  unfold typeParameterList
  have hlen : ∀ cs p m, TakesTypeParameter cs p m → m.length < cs.length := by
    intro cs p m h
    rw [h.1.2]
    simp [TypeParameter.wire]
    omega
  refine ((reads_sees (by decide)).bind fun b => .ite (b = true)
    (fun _ => (reads_expect (by decide)).bind fun _ =>
      (reads_untilStop (by decide) reads_typeParameter hlen).bind fun list =>
        (reads_expect (by decide)).bind fun _ => .ite (list.isEmpty = true)
          (fun _ => .fails fun s => ⟨_, rfl⟩) fun _ => .pure list)
    fun _ => .pure []).congr fun cs ps tail => ?_
  simp only [until_typeParameters]
  constructor
  · intro h
    obtain ⟨b, m, ⟨rfl, rfl⟩, h⟩ := h
    split at h
    · obtain ⟨-, m, rfl, list, m', ⟨hps, rfl, -⟩, -, m', rfl, h⟩ := h
      split at h
      · exact h.elim
      · next he =>
        obtain ⟨rfl, rfl⟩ := h
        have hne : ps ≠ [] := by simpa using he
        refine ⟨hps, ?_, fun h => absurd h hne⟩
        cases ps with
        | nil => exact absurd rfl hne
        | cons p ps => simp [TypeParameter.wireList]
    · next hh =>
      obtain ⟨rfl, rfl⟩ := h
      exact ⟨by simp, rfl, fun _ => by simpa using hh⟩
  · intro h
    obtain ⟨hps, rfl, ht⟩ := h
    refine ⟨_, _, ⟨rfl, rfl⟩, ?_⟩
    cases ps with
    | nil =>
      have hh : ¬decide ((TypeParameter.wireList [] ++ tail).head? = some '<') = true :=
        fun h => ht rfl (of_decide_eq_true h)
      rw [if_neg hh]
      exact ⟨rfl, rfl⟩
    | cons p ps =>
      rw [if_pos (by simp [TypeParameter.wireList])]
      refine ⟨(), _, rfl, p :: ps, '>' :: tail, ⟨hps, by simp, rfl⟩, (), tail, rfl, ?_⟩
      simp

theorem reads_type :
    ReadsAs (Cursor.Before n) (anyType n (outermostArguments n))
      (Written GenericType.Admissible GenericType.wire) :=
  (reads_anyType (reads_typeArguments maxArgumentDepth)).congr fun cs t tail => by
    simp only [Written, admissible_iff]

theorem reads_signature :
    ReadsAs (Cursor.Before n) (reader n) fun cs s tail =>
      s.WellFormed ∧ cs = s.wire ∧ tail = [] := by
  unfold reader
  have hbegins : ∀ t : GenericType, t.Admissible → Begins typeStarts t.wire :=
    fun t ht => GenericType.begins_wire ht.wellFormed
  refine (reads_typeParameterList.bind fun declared => (reads_expect (by decide)).bind fun _ =>
    (reads_untilWritten (by decide) (by decide) hbegins reads_type).bind fun parameters =>
      (reads_expect (by decide)).bind fun _ =>
        (reads_orVoid (by decide) hbegins reads_type).bind fun result =>
          (reads_eachWritten (by decide) reads_bound).bind fun thrown => reads_finish.bind fun _ =>
            .pure (⟨declared, parameters, result, thrown⟩ : Signature)).congr fun cs s tail => ?_
  constructor
  · intro h
    obtain ⟨declared, _, ⟨⟨hd, hb⟩, rfl, -⟩, -, _, rfl, parameters, _, ⟨hp, rfl, -⟩, -, _, rfl,
      result, _, ⟨hr, rfl⟩, thrown, _, ⟨ht, rfl, -⟩, -, _, ⟨rfl, rfl⟩, rfl, rfl⟩ := h
    exact ⟨⟨hd, hb, hp, hr, ht⟩, by simp [wire], rfl⟩
  · intro h
    obtain ⟨⟨hd, hb, hp, hr, ht⟩, rfl, rfl⟩ := h
    exact ⟨s.typeParameters, _, ⟨⟨hd, hb⟩, by simp [wire], fun _ => by simp⟩, (), _, rfl,
      s.parameters, _, ⟨hp, rfl, rfl⟩, (), _, rfl, s.result, _, ⟨hr, rfl⟩, s.thrown, [],
      ⟨ht, (List.append_nil _).symm, by simp⟩, (), [], ⟨rfl, rfl⟩, rfl, rfl⟩

theorem read_eq_ok_iff {text : String} {s : Signature} :
    read text = .ok s ↔ s.WellFormed ∧ text = s.encode :=
  onText_eq_ok_iff fun _ => reads_signature

end Signature

end ClassLocator.MethodType

namespace ClassLocator.ClassFile

open MethodType

theorem parseSignature_encode {s : Signature} (h : s.WellFormed) :
    parseSignature s.encode = .ok s.render := by
  simp only [parseSignature, Signature.read_eq_ok_iff.mpr ⟨h, rfl⟩]

/-- A text is read as a signature if and only if it encodes a well-formed one, whose types are then read.
Any other text is refused with an error that tells it. -/
theorem parseSignature_exact (text : String) :
    (∀ types, parseSignature text = .ok types ↔
      ∃ s : Signature, s.WellFormed ∧ text = s.encode ∧ types = s.render) ∧
    ((∃ fault, parseSignature text = .error (.badSignature text fault)) ↔
      ∀ s : Signature, s.WellFormed → text ≠ s.encode) := by
  constructor
  · intro types
    constructor
    · intro h
      unfold parseSignature at h
      split at h
      · next s hs =>
        cases h
        obtain ⟨hw, rfl⟩ := Signature.read_eq_ok_iff.mp hs
        exact ⟨s, hw, rfl, rfl⟩
      · cases h
    · intro h
      obtain ⟨s, hw, rfl, rfl⟩ := h
      exact parseSignature_encode hw
  · constructor
    · intro h s hw he
      obtain ⟨fault, h⟩ := h
      rw [he, parseSignature_encode hw] at h
      cases h
    · intro h
      unfold parseSignature
      split
      · next s hs =>
        obtain ⟨hw, he⟩ := Signature.read_eq_ok_iff.mp hs
        exact absurd he (h s hw)
      · next fault hs => exact ⟨fault, rfl⟩

end ClassLocator.ClassFile

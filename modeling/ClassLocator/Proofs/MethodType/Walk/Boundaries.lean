import ClassLocator.Proofs.MethodType.Walk.Signature
/-!
Where the walks over descriptors and signatures stand and cut. They go over bytes, but what they cut out is
made of whole characters. Only while the bytes of a name are looked at one by one may a walk stand within a
character and go on; anywhere else it ends in a fault there.
-/

namespace ClassLocator.MethodType

open Text
open Reader (byte)

variable {k : Context} {n : Nat} {head : Option UInt8}

theorem Divides.isValid {text : String} {place : Nat} (h : Divides text.toList place) :
    (⟨place⟩ : String.Pos.Raw).IsValid text := by
  obtain ⟨before, after, ht, rfl⟩ := h
  rw [String.Pos.Raw.isValid_iff_exists_append]
  refine ⟨String.ofList before, String.ofList after, ?_, ?_⟩
  · apply String.toList_injective
    simpa using ht
  · rw [String.rawEndPos, ← length_utf8]

theorem Lawful.of_append {text : List Char} {fs gs : List Footprint} (h : Lawful text (fs ++ gs)) :
    Lawful text gs := by
  induction fs with
  | nil => exact h
  | cons f fs ih =>
    cases f with
    | stands m => exact ih h.2
    | cuts start stop => exact ih h.2
    | returns routine before after => exact ih h
    | turns start stop => exact ih h
    | stalls => exact ih h

/-- What the footprints of a walk over a text say of its characters. -/
structure Walked.KeepsCharacters {α : Type} (text : String) (w : Walked α) : Prop where
  inText : ∀ m, .stands m ∈ w.footprints → m.position ≤ text.utf8ByteSize
  cuts : ∀ start stop, .cuts start stop ∈ w.footprints → start < stop ∧
    (⟨start⟩ : String.Pos.Raw).IsValid text ∧ (⟨stop⟩ : String.Pos.Raw).IsValid text
  /-- Within a character of a name the walk is on its way to cut out this name. -/
  inName : ∀ before m after, w.footprints = before ++ .stands m :: after → m.inName = true →
    ¬(⟨m.position⟩ : String.Pos.Raw).IsValid text →
      ∃ start stop, .cuts start stop ∈ after ∧ start < m.position ∧ m.position < stop
  /-- Within any other character the walk ends in a fault, and it cuts out nothing anymore. -/
  elsewhere : ∀ before m after, w.footprints = before ++ .stands m :: after → m.inName = false →
    ¬(⟨m.position⟩ : String.Pos.Raw).IsValid text →
      (∃ e, w.outcome = .error e) ∧ ∀ start stop, .cuts start stop ∉ after
  seen : ∀ place, 0 < place → place ≤ w.last.position →
    ∃ m, .stands m ∈ w.footprints ∧ m.position = place

/-- A moment is lawful, or it belongs to the end of a walk that fails. -/
theorem Walked.Sound.lawful_or_idle {α : Type} {text : List Char} {r : Reader α} {least : Nat}
    {w : Walked α} {before after : List Footprint} {m : Moment}
    (h : w.Sound (.start text) r least { rest := utf8 text })
    (hm : w.footprints = before ++ .stands m :: after) :
    (Divides text m.position ∨ m.inName = true ∧ ∃ start stop, .cuts start stop ∈ after ∧
      start < m.position ∧ m.position < stop) ∨
    m.inName = false ∧ (∃ e, w.outcome = .error e) ∧ ∀ start stop, .cuts start stop ∉ after := by
  obtain ⟨front, back, hfb, hfront, hback, hnil⟩ := h.settled
  have hend : ∀ mid, back = mid ++ .stands m :: after →
      m.inName = false ∧ (∃ e, w.outcome = .error e) ∧ ∀ start stop, .cuts start stop ∉ after := by
    intro mid hmid
    refine ⟨hback (.stands m) (by simp [hmid]), ?_, fun start stop hc => ?_⟩
    · cases ho : w.outcome with
      | error e => exact ⟨e, rfl⟩
      | ok a => simp [hnil a ho] at hmid
    · exact hback (.cuts start stop) (by simp [hmid, hc])
  rw [hfb, List.append_eq_append_iff] at hm
  rcases hm with ⟨mid, -, hm⟩ | ⟨mid, rfl, hm⟩
  · exact .inr (hend mid hm)
  rcases List.cons_eq_append_iff.mp hm with ⟨-, hm⟩ | ⟨mid, rfl, rfl⟩
  · exact .inr (hend [] hm)
  · refine .inl (hfront.of_append.1.imp_right fun hname => ⟨hname.1, ?_⟩)
    obtain ⟨start, stop, hc, hlt⟩ := hname.2
    exact ⟨start, stop, List.mem_append_left _ hc, hlt⟩

theorem Walked.Sound.keepsCharacters {α : Type} {text : String} {r : Reader α} {least : Nat}
    {w : Walked α} (h : w.Sound (.start text.toList) r least { rest := utf8 text.toList }) :
    w.KeepsCharacters text where
  inText := by
    intro m hm
    have hsize : (utf8 text.toList).length = text.utf8ByteSize := by
      rw [length_utf8, String.ofList_toList]
    exact hsize ▸ (h.modest _ hm).1
  cuts := by
    intro start stop hc
    obtain ⟨front, back, hfb, hfront, hback, -⟩ := h.settled
    rw [hfb, List.mem_append] at hc
    obtain ⟨before, after, rfl⟩ := List.append_of_mem (hc.resolve_right fun hc => hback _ hc)
    obtain ⟨hlt, hstart, hstop⟩ := hfront.of_append.1
    exact ⟨hlt, hstart.isValid, hstop.isValid⟩
  inName := by
    intro before m after hm hname hv
    rcases h.lawful_or_idle hm with (hd | hcut) | ⟨hidle, -⟩
    · exact absurd hd.isValid hv
    · exact hcut.2
    · simp [hname] at hidle
  elsewhere := by
    intro before m after hm hname hv
    rcases h.lawful_or_idle hm with (hd | hcut) | hidle
    · exact absurd hd.isValid hv
    · simp [hname] at hcut
    · exact hidle.2
  seen := h.seen

namespace Descriptor

theorem follows_fieldWalk : Follows k n head fieldWalk fieldType 1 := by
  have hL : IsAscii 'L' := by decide
  refine follows_dimensions_bind fun count head _ => follows_next_bind (fun c hc head => ?_)
    fun b hb => ?_
  · refine .ite _ (fun _ => ?_) fun _ => ?_
    · exact (follows_name fun name => (⟨count, .object name⟩ : FieldType)).least_le (Nat.zero_le _)
    · exact (follows_baseType _).bind fun t _ => follows_pure (⟨count, .base t⟩ : FieldType)
  · simp only [beq_byte_of_wide hb hL, Bool.false_eq_true, if_false]
    exact (bothFail_baseType hb).bind _ _

theorem follows_walk {turns fuel : Nat} (ht : n ≤ turns) (hf : n ≤ fuel) :
    Follows k n head (walk turns) (reader fuel) 3 :=
  (follows_expect (by decide)).bind fun _ _ =>
    (follows_untilStop ht hf fun _ => follows_fieldWalk).bind fun parameters _ =>
      (follows_expect (by decide)).bind fun _ _ =>
        (follows_orVoid fun _ => follows_fieldWalk).bind fun result _ =>
          follows_finish.bind fun _ _ => follows_pure (⟨parameters, result⟩ : Descriptor)

end Descriptor

/-- The walks over a descriptor and over a signature come to what the readers come to, and cut no character
apart: one that stands within a character is on its way to cut out a whole name, or it ends in a fault and
cuts out nothing anymore. -/
theorem characters_kept (text : String) :
    let d := (Descriptor.walk (text.utf8ByteSize + 1)).onText text
    let s := (Signature.walk (text.utf8ByteSize + 1) 390).onText text
    (d.outcome = Descriptor.read text ∧ d.KeepsCharacters text) ∧
      s.outcome = Signature.read text ∧ s.KeepsCharacters text := by
  intro d s
  constructor
  · obtain ⟨hs, hread⟩ := sound_onText text fun _ => Descriptor.follows_walk
      (Nat.le_refl _) (Nat.le_refl _)
    exact ⟨hread, hs.keepsCharacters⟩
  · obtain ⟨hs, hread⟩ := sound_onText text fun _ => Signature.follows_walk
      (Nat.le_refl _) (Nat.le_refl _) (Signature.within_start text.toList (Nat.le_refl 390))
    exact ⟨hread, hs.keepsCharacters⟩

/-- A name is gone over byte by byte, so that a walk may stand within a character of it and end well. -/
theorem stands_within_name :
    .stands ⟨3, 0, [], true⟩ ∈ ((Descriptor.walk 8).onText "(Lé;)V").footprints ∧
      ¬(⟨3⟩ : String.Pos.Raw).IsValid "(Lé;)V" ∧
      .cuts 2 4 ∈ ((Descriptor.walk 8).onText "(Lé;)V").footprints ∧
      ((Descriptor.walk 8).onText "(Lé;)V").outcome = .ok ⟨[⟨0, .object "é"⟩], none⟩ ∧
      Descriptor.read "(Lé;)V" = .ok ⟨[⟨0, .object "é"⟩], none⟩ :=
  ⟨by decide, by decide, by decide, rfl, rfl⟩

end ClassLocator.MethodType

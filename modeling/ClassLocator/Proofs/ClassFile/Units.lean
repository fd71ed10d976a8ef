import ClassLocator.Proofs.ClassFile.ModifiedUtf8

namespace ClassLocator.ClassFile.ModifiedUtf8

/-- Text from units, the first of which decides: a character takes its one or two units, and half a
surrogate pair without the other half is replaced. -/
inductive StandFor : List Nat → List Char → Prop
  | nil : StandFor [] []
  | char (c : Char) {us : List Nat} {cs : List Char} (h : StandFor us cs) :
      StandFor (charUnits c ++ us) (c :: cs)
  | unpaired {u : Nat} {us : List Nat} {cs : List Char} (hu : 0xD800 ≤ u ∧ u < 0xE000)
      (hp : u < 0xDC00 → ∀ v ∈ us.head?, ¬(0xDC00 ≤ v ∧ v < 0xE000)) (h : StandFor us cs) :
      StandFor (u :: us) ('\uFFFD' :: cs)

theorem isHighSurrogate_iff {u : Nat} : isHighSurrogate u = true ↔ 0xD800 ≤ u ∧ u < 0xDC00 := by
  simp [isHighSurrogate]

theorem isLowSurrogate_iff {u : Nat} : isLowSurrogate u = true ↔ 0xDC00 ≤ u ∧ u < 0xE000 := by
  simp [isLowSurrogate]

theorem lone_of_surrogate {u : Nat} (h : 0xD800 ≤ u ∧ u < 0xE000) : lone u = '\uFFFD' := by
  have hs : (isHighSurrogate u || isLowSurrogate u) = true := by
    simp only [Bool.or_eq_true, isHighSurrogate_iff, isLowSurrogate_iff]
    omega
  rw [lone, hs]
  rfl

theorem ofUnits_cons_of_not_pair {u : Nat} {us : List Nat}
    (h : ∀ v ∈ us.head?, ¬(isHighSurrogate u = true ∧ isLowSurrogate v = true)) :
    ofUnits (u :: us) = lone u :: ofUnits us := by
  cases us with
  | nil => rfl
  | cons v us =>
    have hv := h v rfl
    rw [ofUnits, if_neg (by simpa using hv)]

theorem ofUnits_eq_of_standFor {us : List Nat} {cs : List Char} (h : StandFor us cs) :
    ofUnits us = cs := by
  induction h with
  | nil => rfl
  | char c _ ih => rw [ofUnits_charUnits, ih]
  | unpaired hu hp _ ih =>
    rw [ofUnits_cons_of_not_pair, lone_of_surrogate hu, ih]
    intro v hv hpair
    rw [isHighSurrogate_iff, isLowSurrogate_iff] at hpair
    exact hp hpair.1.2 v hv hpair.2

theorem charUnits_of_lt {u : Nat} (h : u < 0xD800 ∨ 0xDFFF < u ∧ u < 0x10000) :
    charUnits (Char.ofNat u) = [u] := by
  have hn : (Char.ofNat u).toNat = u := Text.toNat_ofNat (by simp only [Nat.isValidChar]; omega)
  rw [charUnits, hn, if_pos (by omega)]

theorem charUnits_of_pair {u v : Nat} (hu : 0xD800 ≤ u ∧ u < 0xDC00) (hv : 0xDC00 ≤ v ∧ v < 0xE000) :
    charUnits (Char.ofNat (0x10000 + (u - 0xD800) * 0x400 + (v - 0xDC00))) = [u, v] := by
  have hn : (Char.ofNat (0x10000 + (u - 0xD800) * 0x400 + (v - 0xDC00))).toNat =
      0x10000 + (u - 0xD800) * 0x400 + (v - 0xDC00) :=
    Text.toNat_ofNat (by simp only [Nat.isValidChar]; omega)
  have hhigh : 0xD800 + (0x10000 + (u - 0xD800) * 0x400 + (v - 0xDC00) - 0x10000) / 0x400 = u := by
    omega
  have hlow : 0xDC00 + (0x10000 + (u - 0xD800) * 0x400 + (v - 0xDC00) - 0x10000) % 0x400 = v := by
    omega
  rw [charUnits, hn, if_neg (by omega), hhigh, hlow]

theorem standFor_lone {u : Nat} {us : List Nat} {cs : List Char} (hu : u < 0x10000)
    (hp : ∀ v ∈ us.head?, ¬(isHighSurrogate u = true ∧ isLowSurrogate v = true))
    (h : StandFor us cs) : StandFor (u :: us) (lone u :: cs) := by
  by_cases hs : 0xD800 ≤ u ∧ u < 0xE000
  · rw [lone_of_surrogate hs]
    refine .unpaired hs (fun hlt v hv hlow => hp v hv ?_) h
    exact ⟨isHighSurrogate_iff.mpr ⟨hs.1, hlt⟩, isLowSurrogate_iff.mpr hlow⟩
  · have hn : (isHighSurrogate u || isLowSurrogate u) = false := by
      rw [Bool.eq_false_iff, ne_eq, Bool.or_eq_true, isHighSurrogate_iff, isLowSurrogate_iff]
      omega
    have hc := StandFor.char (Char.ofNat u) h
    rw [charUnits_of_lt (by omega)] at hc
    rw [lone, hn]
    exact hc

theorem standFor_ofUnits {us : List Nat} (h : ∀ u ∈ us, u < 0x10000) : StandFor us (ofUnits us) := by
  fun_induction ofUnits us with
  | case1 => exact .nil
  | case2 u => exact standFor_lone (h u (by simp)) (by simp) .nil
  | case3 u v rest hpair ih =>
    rw [Bool.and_eq_true, isHighSurrogate_iff, isLowSurrogate_iff] at hpair
    have hrest := ih fun w hw => h w (by simp [hw])
    have hc := StandFor.char (Char.ofNat (0x10000 + (u - 0xD800) * 0x400 + (v - 0xDC00))) hrest
    rwa [charUnits_of_pair hpair.1 hpair.2] at hc
  | case4 u v rest hpair ih =>
    have hrest := ih fun w hw => h w (by simp_all)
    exact standFor_lone (h u (by simp)) (by simpa using hpair) hrest

theorem standFor_iff {us : List Nat} (h : ∀ u ∈ us, u < 0x10000) {cs : List Char} :
    StandFor us cs ↔ ofUnits us = cs := by
  constructor
  · exact ofUnits_eq_of_standFor
  · intro he
    exact he ▸ standFor_ofUnits h

def encodeUnits (us : List UInt16) : ByteArray :=
  ⟨(us.flatMap fun u => encodeUnit u.toNat).toArray⟩

theorem toNat_lt_of_mem {us : List UInt16} : ∀ u ∈ us.map UInt16.toNat, u < 0x10000 := by
  intro u hu
  obtain ⟨v, -, rfl⟩ := List.mem_map.mp hu
  exact v.toNat_lt

theorem encodeUnits_eq (us : List UInt16) :
    encodeUnits us = ⟨((us.map UInt16.toNat).flatMap encodeUnit).toArray⟩ := by
  rw [encodeUnits, List.flatMap_map]

/-- The bytes of any units, unpaired halves among them, decode to the text that the units stand for. If the
bytes are plain UTF-8, decoding them unit by unit gives the same text. The bytes of a text decode to that
text. -/
theorem decode_encodeUnits (us : List UInt16) (s : String) :
    (∀ text : String, decode (encodeUnits us) = text ↔ StandFor (us.map UInt16.toNat) text.toList) ∧
    (∀ t, String.fromUTF8? (encodeUnits us) = some t →
      String.ofList (ofUnits (units (encodeUnits us).data.toList)) = t) ∧
    decode ⟨(encode s).toArray⟩ = s := by
  have hdecode : decode (encodeUnits us) = String.ofList (ofUnits (us.map UInt16.toNat)) := by
    rw [encodeUnits_eq, decode_flatMap toNat_lt_of_mem]
  refine ⟨fun text => ?_, fun t ht => ?_, decode_encode s⟩
  · rw [hdecode, standFor_iff toNat_lt_of_mem]
    constructor
    · intro h
      rw [← h, String.toList_ofList]
    · intro h
      rw [h, String.ofList_toList]
  · have hplain : decode (encodeUnits us) = t := by simp [decode, ht]
    rw [← hplain, hdecode, encodeUnits_eq]
    simp only [units_encodeUnits toNat_lt_of_mem]

end ClassLocator.ClassFile.ModifiedUtf8

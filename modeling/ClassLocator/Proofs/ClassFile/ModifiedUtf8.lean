import ClassLocator.ClassFile.ModifiedUtf8
import ClassLocator.Proofs.Text.Bytes
/-!
The bytes that stand for a name in a class file, and that they decode to the name. Plain UTF-8 is
taken as such, which is of no harm: bytes that happen to be both stand for the same text.
-/

namespace ClassLocator.ClassFile.ModifiedUtf8

open Text (utf8)

/-- The bytes of a UTF-16 unit. The zero unit takes two of them. -/
def encodeUnit (u : Nat) : List UInt8 :=
  if u ≠ 0 ∧ u < 0x80 then [UInt8.ofNat u]
  else if u < 0x800 then [UInt8.ofNat (u / 64 % 32 + 0xC0), UInt8.ofNat (u % 64 + 0x80)]
  else [UInt8.ofNat (u / 4096 % 16 + 0xE0), UInt8.ofNat (u / 64 % 64 + 0x80),
    UInt8.ofNat (u % 64 + 0x80)]

def charUnits (c : Char) : List Nat :=
  if c.toNat < 0x10000 then [c.toNat]
  else [0xD800 + (c.toNat - 0x10000) / 0x400, 0xDC00 + (c.toNat - 0x10000) % 0x400]

def encodeChar (c : Char) : List UInt8 := (charUnits c).flatMap encodeUnit

def encode (s : String) : List UInt8 := s.toList.flatMap encodeChar

theorem leads_ascii {b : UInt8} (h : b.toNat < 0x80) :
    leadsPair b = false ∧ leadsTriple b = false := by
  have hall : ∀ n < 0x80,
      leadsPair (UInt8.ofNat n) = false ∧ leadsTriple (UInt8.ofNat n) = false := by decide
  simpa using hall b.toNat h

theorem leads_pair {k : Nat} (h : k < 32) : leadsPair (UInt8.ofNat (k + 0xC0)) = true := by
  revert k
  decide

theorem leads_triple {k : Nat} (h : k < 16) :
    leadsPair (UInt8.ofNat (k + 0xE0)) = false ∧ leadsTriple (UInt8.ofNat (k + 0xE0)) = true := by
  revert k
  decide

theorem units_ascii {b : UInt8} (h : b.toNat < 0x80) (rest : List UInt8) :
    units (b :: rest) = b.toNat :: units rest := by
  obtain ⟨hp, ht⟩ := leads_ascii h
  have ha : alone b = b.toNat := if_pos h
  match rest with
  | [] => simp [units, ha]
  | [c] => simp [units, hp, ha]
  | c :: d :: rest => simp [units, hp, ht, ha]

theorem units_pair {b c : UInt8} (h : leadsPair b = true) (rest : List UInt8) :
    units (b :: c :: rest) = pair b c :: units rest := by
  cases rest with
  | nil => simp [units, h]
  | cons d rest => simp [units, h]

theorem units_encodeUnit {u : Nat} (h : u < 0x10000) (rest : List UInt8) :
    units (encodeUnit u ++ rest) = u :: units rest := by
  unfold encodeUnit
  split
  · rename_i hu
    have hb : (UInt8.ofNat u).toNat = u := by
      simp only [UInt8.toNat_ofNat']
      omega
    rw [List.singleton_append, units_ascii (by omega), hb]
  split
  · have hp : leadsPair (UInt8.ofNat (u / 64 % 32 + 0xC0)) = true :=
      leads_pair (Nat.mod_lt _ (by decide))
    simp only [List.cons_append, List.nil_append, units_pair hp, pair, tail, UInt8.toNat_ofNat']
    congr 1
    omega
  · obtain ⟨hp, ht⟩ := leads_triple (Nat.mod_lt (u / 4096) (by decide : 0 < 16))
    simp only [List.cons_append, List.nil_append, units, hp, ht, Bool.false_eq_true, if_false, if_true,
      triple, tail, UInt8.toNat_ofNat']
    congr 1
    omega

theorem lone_toNat (c : Char) : lone c.toNat = c := by
  have hs : (isHighSurrogate c.toNat || isLowSurrogate c.toNat) = false := by
    have hv : c.toNat < 0xD800 ∨ 0xDFFF < c.toNat ∧ c.toNat < 0x110000 := c.valid
    simp only [isHighSurrogate, isLowSurrogate, Bool.or_eq_false_iff, Bool.and_eq_false_iff,
      decide_eq_false_iff_not]
    omega
  rw [lone, hs]
  exact Char.ofNat_toNat c

theorem ofUnits_charUnits (c : Char) (us : List Nat) :
    ofUnits (charUnits c ++ us) = c :: ofUnits us := by
  have hv : c.toNat < 0xD800 ∨ 0xDFFF < c.toNat ∧ c.toNat < 0x110000 := c.valid
  unfold charUnits
  split
  · have hh : isHighSurrogate c.toNat = false := by
      simp only [isHighSurrogate, Bool.and_eq_false_iff, decide_eq_false_iff_not]
      omega
    cases us with
    | nil => simp [ofUnits, lone_toNat]
    | cons v us => simp [ofUnits, hh, lone_toNat]
  · rename_i hc
    have hh : isHighSurrogate (0xD800 + (c.toNat - 0x10000) / 0x400) = true := by
      simp only [isHighSurrogate, Bool.and_eq_true, decide_eq_true_eq]
      omega
    have hl : isLowSurrogate (0xDC00 + (c.toNat - 0x10000) % 0x400) = true := by
      simp only [isLowSurrogate, Bool.and_eq_true, decide_eq_true_eq]
      omega
    have hn : 0x10000 + (0xD800 + (c.toNat - 0x10000) / 0x400 - 0xD800) * 0x400 +
        (0xDC00 + (c.toNat - 0x10000) % 0x400 - 0xDC00) = c.toNat := by omega
    simp only [List.cons_append, List.nil_append, ofUnits, hh, hl, Bool.and_self, if_true, hn,
      Char.ofNat_toNat]

theorem charUnits_lt (c : Char) : ∀ u ∈ charUnits c, u < 0x10000 := by
  have hv : c.toNat < 0xD800 ∨ 0xDFFF < c.toNat ∧ c.toNat < 0x110000 := c.valid
  unfold charUnits
  split
  · intro u hu
    simp only [List.mem_singleton] at hu
    omega
  · intro u hu
    simp only [List.mem_cons, List.not_mem_nil, or_false] at hu
    omega

theorem units_flatMap {us : List Nat} (h : ∀ u ∈ us, u < 0x10000) (rest : List UInt8) :
    units (us.flatMap encodeUnit ++ rest) = us ++ units rest := by
  induction us with
  | nil => rfl
  | cons u us ih =>
    obtain ⟨hu, hus⟩ := List.forall_mem_cons.mp h
    rw [List.flatMap_cons, List.append_assoc, units_encodeUnit hu, ih hus, List.cons_append]

theorem units_encodeUnits {us : List Nat} (h : ∀ u ∈ us, u < 0x10000) :
    units (us.flatMap encodeUnit) = us := by
  simpa [units] using units_flatMap h []

theorem ofUnits_flatMap (cs : List Char) : ofUnits (cs.flatMap charUnits) = cs := by
  induction cs with
  | nil => rfl
  | cons c cs ih => rw [List.flatMap_cons, ofUnits_charUnits, ih]

theorem utf8EncodeChar_unit {c : Char} (ha : ¬Text.IsAscii c) (h : c.toNat < 0x10000) :
    String.utf8EncodeChar c = encodeUnit c.toNat := by
  have hc : ¬c.toNat < 0x80 := ha
  have h₁ : ¬c.val.toNat ≤ 0x7F := fun hle => hc (Nat.lt_succ_of_le hle)
  have h₃ : c.val.toNat ≤ 0xFFFF := Nat.le_of_lt_succ h
  have hu : ¬(c.toNat ≠ 0 ∧ c.toNat < 0x80) := fun hn => hc hn.2
  rw [encodeUnit, if_neg hu]
  simp only [String.utf8EncodeChar, if_neg h₁, if_pos h₃]
  by_cases h₂ : c.toNat < 0x800
  · have hle : c.val.toNat ≤ 0x7FF := Nat.le_of_lt_succ h₂
    rw [if_pos hle, if_pos h₂]
    rfl
  · have hle : ¬c.val.toNat ≤ 0x7FF := fun hle => h₂ (Nat.lt_succ_of_le hle)
    rw [if_neg hle, if_neg h₂]
    rfl

theorem ofUnits_utf8 {cs : List Char} (h : ∀ c ∈ cs, c.toNat < 0x10000) :
    ofUnits (units (utf8 cs)) = cs := by
  induction cs with
  | nil => rfl
  | cons c cs ih =>
    obtain ⟨hc, hcs⟩ := List.forall_mem_cons.mp h
    have hu : units (String.utf8EncodeChar c ++ utf8 cs) = c.toNat :: units (utf8 cs) := by
      by_cases ha : Text.IsAscii c
      · have hb := Text.byte_toNat ha
        rw [Text.utf8EncodeChar_ascii ha, List.singleton_append, units_ascii (by rw [hb]; exact ha), hb]
      · rw [utf8EncodeChar_unit ha hc, units_encodeUnit hc]
    have ho := ofUnits_charUnits c (units (utf8 cs))
    rw [charUnits, if_pos hc] at ho
    rw [Text.utf8_cons, hu, ← List.singleton_append, ho, ih hcs]

theorem encodeUnit_lt {u : Nat} : ∀ b ∈ encodeUnit u, b.toNat < 0xF0 := by
  intro b hb
  unfold encodeUnit at hb
  split at hb
  · simp only [List.mem_singleton] at hb
    subst hb
    simp only [UInt8.toNat_ofNat']
    omega
  split at hb
  · simp only [List.mem_cons, List.not_mem_nil, or_false] at hb
    rcases hb with rfl | rfl <;> simp only [UInt8.toNat_ofNat'] <;> omega
  · simp only [List.mem_cons, List.not_mem_nil, or_false] at hb
    rcases hb with rfl | rfl | rfl <;> simp only [UInt8.toNat_ofNat'] <;> omega

/-- Only characters beyond one unit have a byte that begins a group of four. -/
theorem exists_lead_of_le {c : Char} (h : 0x10000 ≤ c.toNat) :
    ∃ b ∈ String.utf8EncodeChar c, 0xF0 ≤ b.toNat := by
  have hv : 0x10000 ≤ c.val.toNat := h
  refine ⟨UInt8.ofNat (c.val.toNat / 262144 % 0x08 + 0xF0), ?_, ?_⟩
  · simp only [String.utf8EncodeChar]
    rw [if_neg (by omega), if_neg (by omega), if_neg (by omega)]
    simp
  · simp only [UInt8.toNat_ofNat']
    omega

/-- Units are read back, paired or not. Bytes of theirs that happen to be plain UTF-8 are bytes of the same
text. -/
theorem decode_flatMap {us : List Nat} (h : ∀ u ∈ us, u < 0x10000) :
    decode ⟨(us.flatMap encodeUnit).toArray⟩ = String.ofList (ofUnits us) := by
  unfold decode
  cases hv : String.fromUTF8? ⟨(us.flatMap encodeUnit).toArray⟩ with
  | none => simp [units_encodeUnits h]
  | some t =>
    have hb : t.toByteArray = ⟨(us.flatMap encodeUnit).toArray⟩ := by
      unfold String.fromUTF8? at hv
      split at hv
      · cases hv
        rfl
      · cases hv
    have hu : utf8 t.toList = us.flatMap encodeUnit := by
      rw [← String.utf8Encode_toList, Text.utf8Encode_eq] at hb
      simpa using hb
    -- The bytes are UTF-8 of `t`, but none of them begins a group of four.
    have ht : ∀ c ∈ t.toList, c.toNat < 0x10000 := by
      intro c hc
      refine Nat.lt_of_not_le fun hle => ?_
      obtain ⟨b, hb, hlead⟩ := exists_lead_of_le hle
      have hm : b ∈ us.flatMap encodeUnit := hu ▸ List.mem_flatMap.mpr ⟨c, hc, hb⟩
      obtain ⟨u, -, hd⟩ := List.mem_flatMap.mp hm
      exact Nat.not_le.mpr (encodeUnit_lt b hd) hlead
    have hts : ofUnits us = t.toList := by rw [← ofUnits_utf8 ht, hu, units_encodeUnits h]
    simp [hts]

theorem encode_eq (s : String) : encode s = (s.toList.flatMap charUnits).flatMap encodeUnit :=
  List.flatMap_assoc.symm

theorem decode_encode (s : String) : decode ⟨(encode s).toArray⟩ = s := by
  have hlt : ∀ u ∈ s.toList.flatMap charUnits, u < 0x10000 := by
    intro u hu
    obtain ⟨c, -, hc⟩ := List.mem_flatMap.mp hu
    exact charUnits_lt c u hc
  rw [encode_eq, decode_flatMap hlt, ofUnits_flatMap, String.ofList_toList]

end ClassLocator.ClassFile.ModifiedUtf8

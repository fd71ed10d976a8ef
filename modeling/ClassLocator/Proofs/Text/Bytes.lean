import ClassLocator.MethodType.Cursor

namespace ClassLocator.Text

open MethodType.Reader (byte)

def utf8 (cs : List Char) : List UInt8 := cs.flatMap String.utf8EncodeChar

@[simp] theorem utf8_nil : utf8 [] = [] := rfl

@[simp] theorem utf8_cons (c : Char) (cs : List Char) :
    utf8 (c :: cs) = String.utf8EncodeChar c ++ utf8 cs := rfl

theorem toNat_ofNat {n : Nat} (h : n.isValidChar) : (Char.ofNat n).toNat = n := by
  rw [Char.ofNat, dif_pos h]
  rfl

def IsAscii (c : Char) : Prop := c.toNat < 128

instance (c : Char) : Decidable (IsAscii c) := inferInstanceAs (Decidable (c.toNat < 128))

theorem byte_toNat {c : Char} (h : IsAscii c) : (byte c).toNat = c.toNat := by
  simp only [byte, IsAscii, Nat.toUInt8, UInt8.toNat_ofNat'] at *
  omega

theorem byte_inj {c d : Char} (hc : IsAscii c) (hd : IsAscii d) : byte c = byte d ↔ c = d := by
  rw [← UInt8.toNat_inj, byte_toNat hc, byte_toNat hd, Char.toNat_inj]

theorem utf8EncodeChar_ascii {c : Char} (h : IsAscii c) : String.utf8EncodeChar c = [byte c] := by
  have hv : c.val.toNat ≤ 127 := Nat.le_of_lt_succ h
  simp only [String.utf8EncodeChar, if_pos hv]
  rfl

theorem utf8EncodeChar_wide {c : Char} (h : ¬IsAscii c) :
    ∀ b ∈ String.utf8EncodeChar c, 128 ≤ b.toNat := by
  have hv : ¬c.val.toNat ≤ 127 := fun hle => h (Nat.lt_succ_of_le hle)
  intro b hb
  simp only [String.utf8EncodeChar, if_neg hv] at hb
  split at hb
  · simp only [List.mem_cons, List.not_mem_nil, or_false] at hb
    rcases hb with rfl | rfl <;> simp only [UInt8.toNat_ofNat'] <;> omega
  split at hb
  · simp only [List.mem_cons, List.not_mem_nil, or_false] at hb
    rcases hb with rfl | rfl | rfl <;> simp only [UInt8.toNat_ofNat'] <;> omega
  · simp only [List.mem_cons, List.not_mem_nil, or_false] at hb
    rcases hb with rfl | rfl | rfl | rfl <;> simp only [UInt8.toNat_ofNat'] <;> omega

theorem beq_byte_of_wide {b : UInt8} (hb : 128 ≤ b.toNat) {c : Char} (hc : IsAscii c) :
    (b == byte c) = false := by
  rw [beq_eq_false_iff_ne]
  intro h
  rw [h, byte_toNat hc] at hb
  exact Nat.not_le.mpr hc hb

theorem byte_beq {c d : Char} (hc : IsAscii c) (hd : IsAscii d) :
    (byte c == byte d) = decide (c = d) := by
  rw [Bool.eq_iff_iff]
  simpa using byte_inj hc hd

theorem utf8EncodeChar_eq_cons (c : Char) : ∃ b bs, String.utf8EncodeChar c = b :: bs :=
  List.exists_cons_of_ne_nil String.utf8EncodeChar_ne_nil

theorem length_le_length_utf8 (cs : List Char) : cs.length ≤ (utf8 cs).length := by
  induction cs with
  | nil => simp
  | cons c cs ih =>
    obtain ⟨b, bs, hb⟩ := utf8EncodeChar_eq_cons c
    simp [hb]
    omega

theorem head?_utf8 {c : Char} (hc : IsAscii c) (cs : List Char) :
    (utf8 cs).head? = some (byte c) ↔ cs.head? = some c := by
  cases cs with
  | nil => simp
  | cons d cs =>
    by_cases hd : IsAscii d
    · simp [utf8EncodeChar_ascii hd, byte_inj hd hc]
    · obtain ⟨b, bs, hb⟩ := utf8EncodeChar_eq_cons d
      have hw := utf8EncodeChar_wide hd b (by simp [hb])
      have hne : b ≠ byte c := by
        intro h
        obtain rfl := h
        rw [byte_toNat hc] at hw
        exact Nat.not_le.mpr hc hw
      have hdc : d ≠ c := fun h => hd (h ▸ hc)
      simp [hb, hne, hdc]

/-- A test that goes by the character for ASCII bytes and lets all other bytes pass splits the bytes of
a text where the test on characters splits the text. -/
theorem span_utf8 {p : UInt8 → Bool} {q : Char → Bool} (ha : ∀ c, IsAscii c → p (byte c) = q c)
    (hp : ∀ b : UInt8, 128 ≤ b.toNat → p b = true) (hq : ∀ c, ¬IsAscii c → q c = true)
    (cs : List Char) :
    (utf8 cs).takeWhile p = utf8 (cs.takeWhile q) ∧
      (utf8 cs).dropWhile p = utf8 (cs.dropWhile q) := by
  induction cs with
  | nil => simp
  | cons c cs ih =>
    by_cases hc : IsAscii c
    · rw [utf8_cons, utf8EncodeChar_ascii hc]
      cases h : q c <;> simp [h, (ha c hc).trans h, utf8EncodeChar_ascii hc, ih]
    · have hb : ∀ b ∈ String.utf8EncodeChar c, p b = true :=
        fun b hb => hp b (utf8EncodeChar_wide hc b hb)
      rw [utf8_cons, List.takeWhile_append_of_pos hb, List.dropWhile_append_of_pos hb]
      simp [hq c hc, ih]

theorem span_utf8_stops {stops : List Char} (hs : ∀ c ∈ stops, IsAscii c) (cs : List Char) :
    (utf8 cs).takeWhile (fun b => !(stops.map byte).contains b) =
        utf8 (cs.takeWhile fun c => !stops.contains c) ∧
      (utf8 cs).dropWhile (fun b => !(stops.map byte).contains b) =
        utf8 (cs.dropWhile fun c => !stops.contains c) := by
  apply span_utf8
  · intro c hc
    rw [Bool.not_inj_iff, Bool.eq_iff_iff]
    simp only [List.contains_iff_mem, List.mem_map]
    constructor
    · intro h
      obtain ⟨d, hd, he⟩ := h
      exact (byte_inj (hs d hd) hc).mp he ▸ hd
    · intro h
      exact ⟨c, h, rfl⟩
  · intro b hb
    simp only [Bool.not_eq_true', ← Bool.not_eq_true, List.contains_iff_mem, List.mem_map]
    intro h
    obtain ⟨d, hd, rfl⟩ := h
    rw [byte_toNat (hs d hd)] at hb
    exact Nat.not_le.mpr (hs d hd) hb
  · intro c hc
    simp only [Bool.not_eq_true', ← Bool.not_eq_true, List.contains_iff_mem]
    exact fun h => hc (hs c h)

theorem utf8Encode_eq (cs : List Char) : cs.utf8Encode = ⟨(utf8 cs).toArray⟩ :=
  ByteArray.ext List.data_toByteArray

theorem length_utf8 (cs : List Char) : (utf8 cs).length = (String.ofList cs).utf8ByteSize := by
  rw [String.utf8ByteSize, String.toByteArray_ofList, utf8Encode_eq, ByteArray.size, List.size_toArray]

theorem decodeLossy_utf8 (cs : List Char) :
    Utf8.decodeLossy ⟨(utf8 cs).toArray⟩ = String.ofList cs := by
  rw [← utf8Encode_eq]
  have hv : cs.utf8Encode.IsValidUTF8 := ByteArray.isValidUTF8_utf8Encode
  have h : String.fromUTF8? cs.utf8Encode = some (String.ofList cs) := by
    simp only [String.fromUTF8?, hv, dite_true]
    rfl
  simp [Utf8.decodeLossy, h]

end ClassLocator.Text

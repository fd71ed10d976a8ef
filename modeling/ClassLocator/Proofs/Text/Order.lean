import ClassLocator.Proofs.Text.Bytes
import Mathlib.Data.String.Basic

namespace ClassLocator.Text

theorem toNat_lt (c : Char) : c.toNat < 0x110000 := by
  rcases c.valid with h | ⟨-, h⟩
  · exact Nat.lt_trans h (by decide)
  · exact h

/-- Of two numbers the smaller one has the smaller digit where their digits first differ. -/
theorem digits_lt {m n : Nat} (h : m < n) (hn : n < 0x200000) :
    m / 262144 % 8 < n / 262144 % 8 ∨ m / 262144 % 8 = n / 262144 % 8 ∧
      (m / 4096 % 64 < n / 4096 % 64 ∨ m / 4096 % 64 = n / 4096 % 64 ∧
        (m / 64 % 64 < n / 64 % 64 ∨ m / 64 % 64 = n / 64 % 64 ∧ m % 64 < n % 64)) := by
  rcases Nat.lt_or_ge (m / 262144) (n / 262144) with h1 | h1
  · omega
  rcases Nat.lt_or_ge (m / 4096) (n / 4096) with h2 | h2
  · omega
  rcases Nat.lt_or_ge (m / 64) (n / 64) with h3 | h3
  · omega
  · omega

/-- The bytes of two characters differ at one place at the latest where the shorter ends, and there the
smaller character has the smaller byte. -/
theorem utf8EncodeChar_append_lt {c d : Char} (h : c < d) (bs bs' : List UInt8) :
    String.utf8EncodeChar c ++ bs < String.utf8EncodeChar d ++ bs' := by
  have hlt : c.val.toNat < d.val.toNat := h
  have hd : d.val.toNat < 0x110000 := toNat_lt d
  unfold String.utf8EncodeChar
  generalize c.val.toNat = m, d.val.toNat = n at hlt hd
  have hdigits := digits_lt hlt (by omega)
  simp only
  split_ifs <;>
    simp (disch := omega) only [List.cons_append, List.nil_append, List.cons_lt_cons_iff,
      UInt8.lt_iff_toNat_lt, ← UInt8.toNat_inj, UInt8.toNat_ofNat', Nat.mod_eq_of_lt] <;>
    omega

theorem utf8_lt_of_lt {cs ds : List Char} (h : cs < ds) : utf8 cs < utf8 ds := by
  induction h with
  | nil =>
    rename_i d ds
    obtain ⟨b, bs, hb⟩ := utf8EncodeChar_eq_cons d
    rw [utf8_cons, hb]
    exact .nil
  | rel h => exact utf8EncodeChar_append_lt h _ _
  | cons _ ih =>
    rw [utf8_cons, utf8_cons]
    exact List.append_left_lt ih

theorem utf8_lt_iff {cs ds : List Char} : utf8 cs < utf8 ds ↔ cs < ds := by
  constructor
  · intro h
    by_contra hn
    rcases List.le_iff_lt_or_eq.mp (List.not_lt.mp hn) with hlt | rfl
    · exact List.lt_asymm h (utf8_lt_of_lt hlt)
    · exact List.lt_irrefl _ h
  · exact utf8_lt_of_lt

theorem utf8_toList_lt_iff {a b : String} : utf8 a.toList < utf8 b.toList ↔ a < b :=
  utf8_lt_iff.trans String.lt_iff_toList_lt.symm

end ClassLocator.Text

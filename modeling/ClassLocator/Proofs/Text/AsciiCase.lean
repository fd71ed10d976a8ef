import ClassLocator.Proofs.Text.LetterCase
import ClassLocator.Text.Blank

namespace ClassLocator.Text

variable {c : Char} {cs before after : List Char} {s t : String}

/-- A function that gives the same for each capital of ASCII and its small letter does not change its value
where capitals of ASCII become small. -/
theorem apply_lowerAscii {α : Type} (f : Char → α)
    (h : ∀ n < 26, f (Char.ofNat (n + 97)) = f (Char.ofNat (n + 65))) (c : Char) :
    f (lowerAscii c) = f c := by
  unfold lowerAscii
  split
  · rename_i hc
    simp only [Char.le_def, UInt32.le_iff_toNat_le] at hc
    have hbounds : 65 ≤ c.toNat ∧ c.toNat ≤ 90 := hc
    have hletter := h (c.toNat - 65) (by omega)
    have hsmall : c.toNat - 65 + 97 = c.toNat + 32 := by omega
    have hcapital : c.toNat - 65 + 65 = c.toNat := by omega
    rwa [hsmall, hcapital, Char.ofNat_toNat] at hletter
  · rfl

theorem lowerAscii_lowerAscii (c : Char) : lowerAscii (lowerAscii c) = lowerAscii c :=
  apply_lowerAscii lowerAscii (by decide +kernel) c

theorem lowerChar_lowerAscii (c : Char) : lowerChar (lowerAscii c) = lowerChar c :=
  apply_lowerAscii lowerChar (by decide +kernel) c

theorem isBlank_lowerAscii (c : Char) : isBlank (lowerAscii c) = isBlank c :=
  apply_lowerAscii isBlank (by decide +kernel) c

theorem caseIgnorables_lowerAscii (c : Char) :
    caseIgnorables.contains (lowerAscii c) = caseIgnorables.contains c :=
  apply_lowerAscii caseIgnorables.contains (by decide +kernel) c

theorem casedLetters_lowerAscii (c : Char) :
    casedLetters.contains (lowerAscii c) = casedLetters.contains c :=
  apply_lowerAscii casedLetters.contains (by decide +kernel) c

theorem lowerAscii_eq_iff {x : Char} (hx : ¬('a' ≤ x ∧ x ≤ 'z')) (hkept : lowerAscii x = x) :
    lowerAscii c = x ↔ c = x :=
  ⟨fun h => eq_of_lowerAscii h hx, fun h => h ▸ hkept⟩

theorem meetsCased_map (cs : List Char) : meetsCased (cs.map lowerAscii) = meetsCased cs := by
  induction cs with
  | nil => rfl
  | cons c cs ih =>
    by_cases hc : caseIgnorables.contains c
    · simpa [meetsCased, caseIgnorables_lowerAscii, hc] using ih
    · simp [meetsCased, caseIgnorables_lowerAscii, casedLetters_lowerAscii, hc]

theorem formOf_map (before : List Char) (c : Char) (after : List Char) :
    formOf (before.map lowerAscii) (lowerAscii c) (after.map lowerAscii) = formOf before c after := by
  have hsigma : lowerAscii c = 'Σ' ↔ c = 'Σ' := lowerAscii_eq_iff (by decide) (by decide)
  simp only [formOf, hsigma, meetsCased_map, lowerChar_lowerAscii]

theorem lowerAfter_map (before cs : List Char) :
    lowerAfter (before.map lowerAscii) (cs.map lowerAscii) = lowerAfter before cs := by
  induction cs generalizing before with
  | nil => rfl
  | cons c cs ih =>
    rw [List.map_cons, lowerAfter_cons, lowerAfter_cons, formOf_map, ← List.map_cons, ih]

theorem toList_lowerAsciiOnly (s : String) : (lowerAsciiOnly s).toList = s.toList.map lowerAscii := by
  rw [lowerAsciiOnly, String.toList_map]

theorem lowerAsciiOnly_eq_iff :
    lowerAsciiOnly s = lowerAsciiOnly t ↔ s.toList.map lowerAscii = t.toList.map lowerAscii := by
  rw [← String.toList_inj, toList_lowerAsciiOnly, toList_lowerAsciiOnly]

theorem lower_lowerAsciiOnly (s : String) : lower (lowerAsciiOnly s) = lower s := by
  have h := lowerAfter_map [] s.toList
  rw [List.map_nil] at h
  rw [lower, lower, toList_lowerAsciiOnly, h]

theorem lower_eq_of_lowerAsciiOnly_eq (h : lowerAsciiOnly s = lowerAsciiOnly t) : lower s = lower t := by
  rw [← lower_lowerAsciiOnly s, h, lower_lowerAsciiOnly]

theorem lowerAsciiOnly_lowerAsciiOnly (s : String) :
    lowerAsciiOnly (lowerAsciiOnly s) = lowerAsciiOnly s := by
  rw [← String.toList_inj, toList_lowerAsciiOnly, toList_lowerAsciiOnly, List.map_map]
  exact List.map_congr_left fun c _ => lowerAscii_lowerAscii c

theorem lowerAsciiOnly_replace {a b : Char} (ha : ¬('a' ≤ a ∧ a ≤ 'z')) (hkept : lowerAscii a = a)
    (hb : lowerAscii b = b) (s : String) :
    lowerAsciiOnly (s.map fun c => if c = a then b else c) =
      (lowerAsciiOnly s).map fun c => if c = a then b else c := by
  simp only [← String.toList_inj, toList_lowerAsciiOnly, String.toList_map, List.map_map]
  refine List.map_congr_left fun c _ => ?_
  have hc : lowerAscii c = a ↔ c = a := lowerAscii_eq_iff ha hkept
  simp only [Function.comp_apply, hc]
  split
  · exact hb
  · rfl

end ClassLocator.Text

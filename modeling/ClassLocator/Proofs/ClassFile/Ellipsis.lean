import ClassLocator.Proofs.ClassFile.Spelling
import Mathlib.Data.List.Infix

namespace ClassLocator

/-- The last occurrence of `pattern` in a text gives way to `new`. A text without one stays as it is. -/
inductive Text.ReplacesLast (pattern new : List Char) : List Char → List Char → Prop
  | absent {cs : List Char} (h : ¬pattern <:+: cs) : ReplacesLast pattern new cs cs
  | last {before after : List Char} (h : ¬pattern <:+: pattern.tail ++ after) :
      ReplacesLast pattern new (before ++ pattern ++ after) (before ++ new ++ after)

def arrayMark : List Char := ['[', ']']

def ellipsis : List Char := ['.', '.', '.']

/-- The `i`-th parameter is the last one that has a pair of brackets. -/
structure IsLastArray (ps : List String) (i : Nat) : Prop where
  marked : ∃ p, ps[i]? = some p ∧ arrayMark <:+: p.toList
  last : ∀ (j : Nat) p, i < j → ps[j]? = some p → ¬arrayMark <:+: p.toList

open Text (ReplacesLast)

section Texts

variable {cs ds before after : List Char} {c : Char}

theorem arrayMark_prefix_iff : arrayMark <+: c :: cs ↔ c = '[' ∧ cs.head? = some ']' := by
  cases cs <;> simp [arrayMark, List.cons_prefix_cons, eq_comm]

/-- A pair of brackets is not cut off by what the bracket before it closes. -/
theorem arrayMark_infix_tail_iff : arrayMark <:+: arrayMark.tail ++ after ↔ arrayMark <:+: after := by
  have hcons : arrayMark.tail ++ after = ']' :: after := rfl
  simp [hcons, List.infix_cons_iff, arrayMark_prefix_iff]

theorem ellipsized?_eq_none_iff : ellipsized? cs = none ↔ ¬arrayMark <:+: cs := by
  induction cs with
  | nil => simp [ellipsized?, arrayMark]
  | cons c cs ih =>
    rw [List.infix_cons_iff, arrayMark_prefix_iff, not_or, ← ih, ellipsized?]
    cases ellipsized? cs with
    | some ds => simp
    | none => simp

theorem hasBrackets_iff {p : String} : hasBrackets p ↔ arrayMark <:+: p.toList := by
  rw [hasBrackets, ← not_iff_not, ← ellipsized?_eq_none_iff]
  simp

theorem ellipsized?_append (before : List Char) (h : ¬arrayMark <:+: after) :
    ellipsized? (before ++ arrayMark ++ after) = some (before ++ ellipsis ++ after) := by
  induction before with
  | nil =>
    have hclosed : ellipsized? (']' :: after) = none := by
      rw [ellipsized?_eq_none_iff]
      exact arrayMark_infix_tail_iff.not.mpr h
    show ellipsized? ('[' :: ']' :: after) = _
    rw [ellipsized?, hclosed]
    rfl
  | cons c before ih => simp only [List.cons_append, ellipsized?, ih]

theorem exists_of_ellipsized? (h : ellipsized? cs = some ds) :
    ∃ before after, cs = before ++ arrayMark ++ after ∧ ¬arrayMark <:+: after ∧
      ds = before ++ ellipsis ++ after := by
  induction cs generalizing ds with
  | nil => cases h
  | cons c cs ih =>
    rw [ellipsized?] at h
    split at h
    · next es hes =>
      obtain ⟨before, after, rfl, ha, rfl⟩ := ih hes
      obtain rfl := Option.some.inj h
      exact ⟨c :: before, after, rfl, ha, rfl⟩
    · next hnone =>
      split at h
      · next hc =>
        obtain ⟨rfl, hhead⟩ := hc
        obtain ⟨after, rfl⟩ := List.head?_eq_some_iff.mp hhead
        obtain rfl := Option.some.inj h
        exact ⟨[], after, rfl, arrayMark_infix_tail_iff.not.mp (ellipsized?_eq_none_iff.mp hnone), rfl⟩
      · cases h

theorem replacesLast_iff :
    ReplacesLast arrayMark ellipsis cs ds ↔ ds = (ellipsized? cs).getD cs := by
  constructor
  · intro h
    cases h with
    | absent h => rw [ellipsized?_eq_none_iff.mpr h, Option.getD_none]
    | last h => rw [ellipsized?_append _ (arrayMark_infix_tail_iff.not.mp h), Option.getD_some]
  · rintro rfl
    cases hcs : ellipsized? cs with
    | none => exact .absent (ellipsized?_eq_none_iff.mp hcs)
    | some ds =>
      obtain ⟨before, after, rfl, ha, rfl⟩ := exists_of_ellipsized? hcs
      exact .last (arrayMark_infix_tail_iff.not.mpr ha)

/-- A comma parts brackets, so a pair of them stands on one of its sides. -/
theorem ellipsized?_comma (cs ds : List Char) :
    ellipsized? (cs ++ ',' :: ds) =
      match ellipsized? ds with
      | some es => some (cs ++ ',' :: es)
      | none => (ellipsized? cs).map (· ++ ',' :: ds) := by
  induction cs with
  | nil =>
    simp only [List.nil_append, ellipsized?]
    cases ellipsized? ds with
    | some es => rfl
    | none => rfl
  | cons c cs ih =>
    rw [List.cons_append, ellipsized?, ih]
    cases ellipsized? ds with
    | some es => rfl
    | none =>
      rw [ellipsized?]
      cases ellipsized? cs with
      | some es => rfl
      | none =>
        cases cs with
        | nil => simp
        | cons d cs =>
          by_cases hc : c = '[' ∧ d = ']'
          · simp [hc]
          · simp [hc]

end Texts

variable {ps : List String} {p : String}

theorem toList_intercalate_cons (h : ps ≠ []) :
    (",".intercalate (p :: ps)).toList = p.toList ++ ',' :: (",".intercalate ps).toList := by
  simp [String.intercalate_cons_of_ne_nil h]

theorem length_withEllipsis (ps : List String) : (withEllipsis ps).length = ps.length := by
  induction ps with
  | nil => rfl
  | cons p ps ih =>
    rw [withEllipsis]
    split
    · rw [List.length_cons, List.length_cons, ih]
    · split
      · rfl
      · rfl

theorem withEllipsis_ne_nil (h : ps ≠ []) : withEllipsis ps ≠ [] := by
  intro hnil
  have hl := length_withEllipsis ps
  rw [hnil] at hl
  exact h (List.eq_nil_of_length_eq_zero hl.symm)

theorem ellipsized?_intercalate (ps : List String) :
    ellipsized? (",".intercalate ps).toList =
      if ps.any hasBrackets then some (",".intercalate (withEllipsis ps)).toList else none := by
  have hsingle : ∀ p : String, ellipsized? p.toList =
      if hasBrackets p then some (",".intercalate (withEllipsis [p])).toList else none := by
    intro p
    rw [hasBrackets, withEllipsis]
    cases ellipsized? p.toList <;> simp
  induction ps with
  | nil => rfl
  | cons p ps ih =>
    by_cases hnil : ps = []
    · subst hnil
      simpa using hsingle p
    · rw [toList_intercalate_cons hnil, ellipsized?_comma, ih, withEllipsis, List.any_cons]
      cases hany : ps.any hasBrackets with
      | true =>
        simp only [Bool.or_true, if_true]
        rw [toList_intercalate_cons (withEllipsis_ne_nil hnil)]
      | false =>
        simp only [Bool.or_false, Bool.false_eq_true, if_false, hasBrackets]
        cases ellipsized? p.toList with
        | none => rfl
        | some cs => simp [toList_intercalate_cons hnil]

theorem toList_intercalate_withEllipsis (ps : List String) :
    (",".intercalate (withEllipsis ps)).toList =
      (ellipsized? (",".intercalate ps).toList).getD (",".intercalate ps).toList := by
  rw [ellipsized?_intercalate]
  split
  · rfl
  · next hany =>
    suffices h : withEllipsis ps = ps by rw [h, Option.getD_none]
    induction ps with
    | nil => rfl
    | cons p ps ih =>
      simp only [List.any_cons, Bool.or_eq_true, not_or] at hany
      have hp : ellipsized? p.toList = none := by simpa [hasBrackets] using hany.1
      rw [withEllipsis, if_neg hany.2, hp]

theorem getElem?_withEllipsis {i : Nat} (h : ¬IsLastArray ps i) : (withEllipsis ps)[i]? = ps[i]? := by
  induction ps generalizing i with
  | nil => rfl
  | cons p ps ih =>
    rw [withEllipsis]
    split
    · cases i with
      | zero => rfl
      | succ i =>
        simp only [List.getElem?_cons_succ]
        refine ih fun hlast => h ⟨hlast.marked, fun j q hj hq => ?_⟩
        obtain ⟨j, rfl⟩ := Nat.exists_eq_succ_of_ne_zero (Nat.ne_zero_of_lt hj)
        exact hlast.last j q (Nat.succ_lt_succ_iff.mp hj) hq
    · next hany =>
      split
      · next cs hcs =>
        cases i with
        | succ i => rfl
        | zero =>
          -- The first parameter has a pair and none behind it has one.
          refine absurd ⟨⟨p, rfl, hasBrackets_iff.mp (by simp [hasBrackets, hcs])⟩, ?_⟩ h
          intro j q hj hq hmark
          obtain ⟨j, rfl⟩ := Nat.exists_eq_succ_of_ne_zero (Nat.ne_zero_of_lt hj)
          exact hany (List.any_eq_true.mpr
            ⟨q, List.mem_of_getElem? hq, hasBrackets_iff.mpr hmark⟩)
      · rfl

/-- There are as many parameters as before. Their line is that of the parameters before with three dots in
place of its last pair of brackets, or the same line if it has no such pair. Every parameter but the last
one with a pair of brackets is as before. -/
theorem variadic_intercalate (ps : List String) :
    (variadic ps).length = ps.length ∧
    (∀ line : String,
      ReplacesLast arrayMark ellipsis (",".intercalate ps).toList line.toList ↔
        line = ",".intercalate (variadic ps)) ∧
    ∀ i : Nat, ¬IsLastArray ps i → (variadic ps)[i]? = ps[i]? := by
  rw [variadic_eq_withEllipsis]
  refine ⟨length_withEllipsis ps, fun line => ?_, fun i h => getElem?_withEllipsis h⟩
  rw [replacesLast_iff, ← toList_intercalate_withEllipsis, String.toList_inj]

/-- Two arrays and a bracket that a comma parts from its counterpart. -/
theorem variadic_intercalate_parted :
    let ps := ["int[]", "a[", "]b[][]", "long"]
    ¬IsLastArray ps 0 ∧ (variadic ps)[0]? = some "int[]" ∧
      ",".intercalate (variadic ps) = "int[],a[,]b[]...,long" := by
  intro ps
  have hlast : ¬IsLastArray ps 0 := fun h => h.last 2 "]b[][]" (by decide) rfl ⟨"]b[]".toList, [], rfl⟩
  have hjoined : (",".intercalate ps).toList = "int[],a[,]b[]".toList ++ arrayMark ++ ",long".toList := by
    decide +kernel
  have hline : "int[],a[,]b[]...,long".toList = "int[],a[,]b[]".toList ++ ellipsis ++ ",long".toList := by
    decide +kernel
  obtain ⟨-, hiff, hsame⟩ := variadic_intercalate ps
  refine ⟨hlast, hsame 0 hlast, ((hiff _).mp ?_).symm⟩
  rw [hjoined, hline]
  exact .last (by decide)

end ClassLocator

import ClassLocator.Text.Blank
import Mathlib.Data.List.DropRight
import Mathlib.Data.List.TakeWhile

namespace ClassLocator.Text

variable {c : Char} {cs ds front w w' : List Char}

def blanks : List Char :=
  ([9, 10, 11, 12, 13, 0x20, 0x85, 0xA0, 0x1680] ++ List.range' 0x2000 11 ++
    [0x2028, 0x2029, 0x202F, 0x205F, 0x3000]).map Char.ofNat

theorem mem_blanks (h : isBlank c) : c ∈ blanks := by
  refine List.mem_map.mpr ⟨c.toNat, ?_, Char.ofNat_toNat c⟩
  simp only [isBlank, Bool.or_eq_true, Bool.and_eq_true, decide_eq_true_eq, beq_iff_eq] at h
  simp only [List.mem_append, List.mem_cons, List.not_mem_nil, or_false, List.mem_range'_1]
  omega

def withoutBlanks (cs : List Char) : List Char := cs.filter (!isBlank ·)

theorem withoutBlanks_append (cs ds : List Char) :
    withoutBlanks (cs ++ ds) = withoutBlanks cs ++ withoutBlanks ds := List.filter_append _ _

theorem withoutBlanks_of_isBlank (hw : ∀ c ∈ w, isBlank c) : withoutBlanks w = [] := by
  simpa [withoutBlanks] using hw

theorem withoutBlanks_eq_self (h : ∀ c ∈ cs, ¬isBlank c) : withoutBlanks cs = cs := by
  simpa [withoutBlanks] using h

theorem not_isBlank_of_mem (h : c ∈ withoutBlanks cs) : ¬isBlank c := by
  simpa using (List.mem_filter.mp h).2

theorem forall_isBlank_iff : (∀ c ∈ cs, isBlank c) ↔ cs.all isBlank := List.all_eq_true.symm

theorem forall_not_isBlank_iff : (∀ c ∈ cs, ¬isBlank c) ↔ cs.all (!isBlank ·) := by
  simp [List.all_eq_true]

theorem withoutBlanks_concat (cs : List Char) (hc : ¬isBlank c) :
    withoutBlanks (cs ++ [c]) = withoutBlanks cs ++ [c] := by
  have hkept : ∀ d ∈ [c], ¬isBlank d := by simpa using hc
  rw [withoutBlanks_append, withoutBlanks_eq_self hkept]

theorem getLast?_withoutBlanks (hc : ¬isBlank c) (h : cs.getLast? = some c) :
    (withoutBlanks cs).getLast? = some c := by
  obtain ⟨ds, rfl⟩ := List.getLast?_eq_some_iff.mp h
  rw [withoutBlanks_concat ds hc, List.getLast?_concat]

theorem exists_trimStart (cs : List Char) : ∃ w, (∀ c ∈ w, isBlank c) ∧ cs = w ++ trimStart cs :=
  ⟨cs.takeWhile isBlank, fun _ hc => List.mem_takeWhile_imp hc, List.takeWhile_append_dropWhile.symm⟩

theorem exists_trimEnd (cs : List Char) : ∃ w, (∀ c ∈ w, isBlank c) ∧ cs = trimEnd cs ++ w :=
  ⟨cs.rtakeWhile isBlank, fun _ hc => List.mem_rtakeWhile_imp hc, List.rdropWhile_append_rtakeWhile.symm⟩

theorem exists_trim (cs : List Char) :
    ∃ w w', (∀ c ∈ w, isBlank c) ∧ (∀ c ∈ w', isBlank c) ∧ cs = w ++ trim cs ++ w' := by
  obtain ⟨w, hw, hstart⟩ := exists_trimStart cs
  obtain ⟨w', hw', hend⟩ := exists_trimEnd (trimStart cs)
  exact ⟨w, w', hw, hw', by rw [List.append_assoc, trim, ← hend, ← hstart]⟩

theorem withoutBlanks_trimStart (cs : List Char) : withoutBlanks (trimStart cs) = withoutBlanks cs := by
  obtain ⟨w, hw, hcs⟩ := exists_trimStart cs
  conv_rhs => rw [hcs, withoutBlanks_append, withoutBlanks_of_isBlank hw, List.nil_append]

theorem withoutBlanks_trim (cs : List Char) : withoutBlanks (trim cs) = withoutBlanks cs := by
  obtain ⟨w, w', hw, hw', hcs⟩ := exists_trim cs
  conv_rhs => rw [hcs, withoutBlanks_append, withoutBlanks_append, withoutBlanks_of_isBlank hw,
    withoutBlanks_of_isBlank hw', List.nil_append, List.append_nil]

theorem mem_trim (hc : c ∈ cs) (hb : ¬isBlank c) : c ∈ trim cs := by
  have hm : c ∈ withoutBlanks (trim cs) := by
    rw [withoutBlanks_trim]
    exact List.mem_filter.mpr ⟨hc, by simpa using hb⟩
  exact List.mem_of_mem_filter hm

theorem trimStart_append_cons (cs ds : List Char) (hc : ¬isBlank c) :
    trimStart (cs ++ c :: ds) = trimStart cs ++ c :: ds := by
  have hstop : (c :: ds).dropWhile isBlank = c :: ds := List.dropWhile_cons_of_neg hc
  rw [trimStart, List.dropWhile_append]
  split
  · rename_i hnil
    rw [hstop, trimStart, List.isEmpty_iff.mp hnil, List.nil_append]
  · rfl

theorem trimEnd_append_cons (cs : List Char) (hc : ¬isBlank c) (hw : ∀ c ∈ w, isBlank c) :
    trimEnd (cs ++ c :: w) = cs ++ [c] := by
  have hr : (cs ++ c :: w).reverse = w.reverse ++ c :: cs.reverse := by simp
  rw [trimEnd, hr, List.dropWhile_append_of_pos (by simpa using hw), List.dropWhile_cons_of_neg hc]
  simp

theorem trim_append_cons (cs : List Char) (hc : ¬isBlank c) (hw : ∀ c ∈ w, isBlank c) :
    trim (cs ++ c :: w) = trimStart cs ++ [c] := by
  rw [trim, trimStart_append_cons cs w hc, trimEnd_append_cons _ hc hw]

theorem trimStart_of_isBlank (hw : ∀ c ∈ w, isBlank c) : trimStart w = [] :=
  List.dropWhile_eq_nil_iff.mpr hw

def IsTight (cs : List Char) : Prop :=
  (∀ c, cs.head? = some c → ¬isBlank c) ∧ ∀ c, cs.getLast? = some c → ¬isBlank c

theorem isTight_of_not_isBlank (h : ∀ c ∈ cs, ¬isBlank c) : IsTight cs :=
  ⟨fun c hc => h c (List.mem_of_mem_head? hc), fun c hc => h c (List.mem_of_getLast? hc)⟩

theorem IsTight.trimStart_eq (h : IsTight cs) : trimStart cs = cs := by
  cases cs with
  | nil => rfl
  | cons c cs => exact List.dropWhile_cons_of_neg (h.1 c rfl)

theorem IsTight.trim_eq (h : IsTight cs) : trim cs = cs := by
  rcases List.eq_nil_or_concat' cs with rfl | ⟨ds, c, rfl⟩
  · rfl
  · have hc : ¬isBlank c := h.2 c List.getLast?_concat
    rw [trim, h.trimStart_eq]
    exact trimEnd_append_cons ds hc (by simp)

theorem isTight_trim (cs : List Char) : IsTight (trim cs) := by
  have hstart : ∀ ds c, (trimStart ds).head? = some c → ¬isBlank c := by
    intro ds c hc
    have h := List.head?_dropWhile_not isBlank ds
    rw [trimStart] at hc
    simpa [hc] using h
  constructor
  · intro c hc
    obtain ⟨w, -, hcs⟩ := exists_trimEnd (trimStart cs)
    refine hstart cs c ?_
    rw [trim] at hc
    rw [hcs, List.head?_append, hc, Option.some_or]
  · intro c hc
    rw [trim, trimEnd, List.getLast?_reverse] at hc
    exact hstart _ c hc

theorem IsTight.getLast?_withoutBlanks (h : IsTight cs) :
    (withoutBlanks cs).getLast? = cs.getLast? := by
  cases hl : cs.getLast? with
  | none => simp [List.getLast?_eq_none_iff.mp hl, withoutBlanks]
  | some c => exact Text.getLast?_withoutBlanks (h.2 c hl) hl

theorem cons_suffix_of_append (hc : c ∉ front) : c :: ds <:+ front ++ cs ↔ c :: ds <:+ cs := by
  constructor
  · intro h
    induction front with
    | nil => exact h
    | cons d front ih =>
      simp only [List.mem_cons, not_or] at hc
      rcases List.suffix_cons_iff.mp h with heq | htail
      · exact absurd (List.cons.inj heq).1 hc.1
      · exact ih hc.2 htail
  · exact fun h => h.trans (List.suffix_append _ _)

end ClassLocator.Text

import ClassLocator.Proofs.Text.Bytes
import ClassLocator.Text.LetterCase
import Mathlib.Data.List.Basic
/-!
What lower-casing keeps of a text. Main statements: a character of ASCII comes from one of ASCII, the
letters i and k apart; and only a capital sigma depends on what stands around it, so a text has the same
small form alone and inside another text unless a sigma at its edge is read differently there.
-/

namespace ClassLocator.Text

namespace CaseRun

variable {runs : Array CaseRun} {n : Nat} {r : CaseRun}

theorem mem_of_go {lo hi : Nat} (h : at?.go runs n lo hi = some r) : r ∈ runs := by
  fun_induction at?.go runs n lo hi with
  | case1 lo hi hlt mid hle ih => exact ih h
  | case2 lo hi hlt mid hle ih => exact ih h
  | case3 => cases h
  | case4 => exact Array.mem_of_getElem? h

def IsWide (r : CaseRun) : Prop :=
  (0x80 ≤ r.image ∧ (r.image + (r.last - r.first) < 0xd800 ∨
    0xe000 ≤ r.image ∧ r.image + (r.last - r.first) < 0x110000)) ∨ (r.image = 0x6b ∧ r.first = r.last)

instance (r : CaseRun) : Decidable r.IsWide := by unfold IsWide; infer_instance

theorem isWide_capitals : ∀ r ∈ capitals, r.IsWide := by decide +kernel

theorem isWide_at? {r : CaseRun} (h : at? capitals n = some r) : r.IsWide :=
  isWide_capitals r (mem_of_go h)

end CaseRun

theorem eq_of_lowerAscii {c x : Char} (h : lowerAscii c = x) (hx : ¬('a' ≤ x ∧ x ≤ 'z')) : c = x := by
  unfold lowerAscii at h
  split at h
  · rename_i hc
    simp only [Char.le_def, UInt32.le_iff_toNat_le] at hc hx
    have hbounds : 65 ≤ c.toNat ∧ c.toNat ≤ 90 := hc
    have hvalid : (c.toNat + 32).isValidChar := by
      unfold Nat.isValidChar
      omega
    have hn : x.val.toNat = c.toNat + 32 := by
      rw [← h]
      exact toNat_ofNat hvalid
    have ha : 'a'.val.toNat = 97 := rfl
    have hz : 'z'.val.toNat = 122 := rfl
    omega
  · exact h

theorem lowerChar_ne_nil (c : Char) : lowerChar c ≠ [] := by
  unfold lowerChar
  split
  · simp
  split
  · simp
  split <;> simp

theorem lowerChar_of_isAscii {c : Char} (h : IsAscii c) : lowerChar c = [lowerAscii c] := if_pos h

theorem mem_lowerChar_ascii {c x : Char} (hx : x ∈ lowerChar c) (ha : IsAscii x) (hi : x ≠ 'i')
    (hk : x ≠ 'k') : IsAscii c ∧ x = lowerAscii c := by
  unfold lowerChar at hx
  split at hx
  · rename_i hc
    exact ⟨hc, List.mem_singleton.mp hx⟩
  split at hx
  · have hm : ¬IsAscii '\u0307' := by decide
    simp only [List.mem_cons, List.not_mem_nil, or_false] at hx
    rcases hx with rfl | rfl
    · exact absurd rfl hi
    · exact absurd ha hm
  rename_i hc hdot
  split at hx
  · rename_i n hn
    obtain ⟨r, hr, hl⟩ := Option.bind_eq_some_iff.mp hn
    obtain rfl := List.mem_singleton.mp hx
    unfold CaseRun.lower? at hl
    split at hl
    · rename_i hrun
      obtain rfl := Option.some.inj hl
      rcases CaseRun.isWide_at? hr with ⟨hw, hv⟩ | ⟨hkelvin, hone⟩
      · have hvalid : (r.image + (c.toNat - r.first)).isValidChar := by
          unfold Nat.isValidChar
          omega
        rw [IsAscii, toNat_ofNat hvalid] at ha
        omega
      · have hz : c.toNat - r.first = 0 := by omega
        rw [hkelvin, hz] at hk
        exact absurd rfl hk
    · cases hl
  · obtain rfl := List.mem_singleton.mp hx
    exact absurd ha hc

/-- The small form of a character between those before it, nearest first, and those behind it. -/
def formOf (before : List Char) (c : Char) (after : List Char) : List Char :=
  if c = 'Σ' then [if meetsCased before && !meetsCased after then 'ς' else 'σ'] else lowerChar c

theorem formOf_ne_nil (before : List Char) (c : Char) (after : List Char) :
    formOf before c after ≠ [] := by
  unfold formOf
  split
  · simp
  · exact lowerChar_ne_nil c

theorem formOf_of_mem_ascii {before after : List Char} {c x : Char} (hx : x ∈ formOf before c after)
    (ha : IsAscii x) (hi : x ≠ 'i') (hk : x ≠ 'k') :
    formOf before c after = [x] ∧ lowerAscii c = x := by
  have hsigma : ¬IsAscii 'ς' ∧ ¬IsAscii 'σ' := by decide
  unfold formOf at hx ⊢
  split at hx
  · obtain rfl := List.mem_singleton.mp hx
    split at ha
    · exact absurd ha hsigma.1
    · exact absurd ha hsigma.2
  · rename_i hne
    obtain ⟨hc, rfl⟩ := mem_lowerChar_ascii hx ha hi hk
    rw [if_neg hne, lowerChar_of_isAscii hc]
    exact ⟨rfl, rfl⟩

theorem lowerAfter_cons (before : List Char) (c : Char) (cs : List Char) :
    lowerAfter before (c :: cs) = formOf before c cs ++ lowerAfter (c :: before) cs := rfl

def lowerBetween (before : List Char) : (cs after : List Char) → List Char
  | [], _ => []
  | c :: cs, after => formOf before c (cs ++ after) ++ lowerBetween (c :: before) cs after

variable {before before' after after' cs ds : List Char}

theorem lowerAfter_append (before cs after : List Char) :
    lowerAfter before (cs ++ after) =
      lowerBetween before cs after ++ lowerAfter (cs.reverse ++ before) after := by
  induction cs generalizing before with
  | nil => rfl
  | cons c cs ih => simp [lowerAfter_cons, lowerBetween, ih]

theorem lowerBetween_nil (before cs : List Char) : lowerBetween before cs [] = lowerAfter before cs := by
  have h := lowerAfter_append before cs []
  simpa [lowerAfter] using h.symm

theorem lowerBetween_append (before cs ds after : List Char) :
    lowerBetween before (cs ++ ds) after =
      lowerBetween before cs (ds ++ after) ++ lowerBetween (cs.reverse ++ before) ds after := by
  induction cs generalizing before with
  | nil => rfl
  | cons c cs ih => simp [lowerBetween, ih]

theorem length_formOf (before before' : List Char) (c : Char) (after after' : List Char) :
    (formOf before c after).length = (formOf before' c after').length := by
  unfold formOf
  split <;> rfl

theorem length_lowerBetween (before before' cs after after' : List Char) :
    (lowerBetween before cs after).length = (lowerBetween before' cs after').length := by
  induction cs generalizing before before' with
  | nil => rfl
  | cons c cs ih =>
    have hc := length_formOf before before' c (cs ++ after) (cs ++ after')
    have hcs := ih (c :: before) (c :: before')
    simp [lowerBetween, hc, hcs]

def allIgnored (cs : List Char) : Bool := cs.all caseIgnorables.contains

theorem meetsCased_append (cs ds : List Char) :
    meetsCased (cs ++ ds) = if allIgnored cs then meetsCased ds else meetsCased cs := by
  induction cs with
  | nil => rfl
  | cons c cs ih =>
    by_cases hc : caseIgnorables.contains c
    · simpa [meetsCased, allIgnored, hc] using ih
    · simp [meetsCased, allIgnored, hc]

theorem meetsCased_of_allIgnored (h : allIgnored cs) : meetsCased cs = false := by
  have hm := meetsCased_append cs []
  rw [List.append_nil, if_pos h] at hm
  exact hm

theorem allIgnored_reverse : allIgnored cs.reverse = allIgnored cs := List.all_reverse

/-- Only a sigma can look different between other neighbours. -/
theorem lowerBetween_congr
    (h : ∀ as bs, cs = as ++ 'Σ' :: bs →
      (meetsCased (as.reverse ++ before) && !meetsCased (bs ++ after)) =
        (meetsCased (as.reverse ++ before') && !meetsCased (bs ++ after'))) :
    lowerBetween before cs after = lowerBetween before' cs after' := by
  induction cs generalizing before before' with
  | nil => rfl
  | cons c cs ih =>
    have hform : formOf before c (cs ++ after) = formOf before' c (cs ++ after') := by
      by_cases hc : c = 'Σ'
      · subst hc
        have hs := h [] cs rfl
        simp only [List.reverse_nil, List.nil_append] at hs
        simp [formOf, hs]
      · simp [formOf, hc]
    have hrest : lowerBetween (c :: before) cs after = lowerBetween (c :: before') cs after' := by
      refine ih fun as bs hcs => ?_
      have hs := h (c :: as) bs (by simp [hcs])
      simpa using hs
    simp [lowerBetween, hform, hrest]

theorem lowerAfter_of_not_meetsCased (h : meetsCased before = false) :
    lowerAfter before cs = lowerAfter [] cs := by
  rw [← lowerBetween_nil, ← lowerBetween_nil]
  refine lowerBetween_congr fun as bs _ => ?_
  have hnil : meetsCased [] = false := rfl
  simp only [meetsCased_append, h, hnil]

theorem slash_mem_of_mem_lowerAfter (h : '/' ∈ lowerAfter before cs) : '/' ∈ cs := by
  induction cs generalizing before with
  | nil => cases h
  | cons c cs ih =>
    rw [lowerAfter_cons, List.mem_append] at h
    rcases h with hform | hrest
    · obtain ⟨-, hc⟩ := formOf_of_mem_ascii hform (by decide) (by decide) (by decide)
      rw [eq_of_lowerAscii hc (by decide)]
      exact List.mem_cons_self
    · exact List.mem_cons_of_mem c (ih hrest)

theorem not_meetsCased_slash (before : List Char) : meetsCased ('/' :: before) = false := by
  have hi : caseIgnorables.contains '/' = false := by decide +kernel
  have hc : casedLetters.contains '/' = false := by decide +kernel
  simp [meetsCased, hi, hc]

/-- What stands behind a slash looks as it does alone. -/
theorem lowerAfter_append_slash (before cs ds : List Char) :
    lowerAfter before (cs ++ '/' :: ds) =
      lowerBetween before cs ('/' :: ds) ++ '/' :: lowerAfter [] ds := by
  have hslash : ∀ as bs : List Char, formOf as '/' bs = ['/'] := fun _ _ => rfl
  rw [lowerAfter_append, lowerAfter_cons, hslash,
    lowerAfter_of_not_meetsCased (not_meetsCased_slash _)]
  rfl

theorem slash_mem_lowerAfter (h : '/' ∈ cs) (before : List Char) : '/' ∈ lowerAfter before cs := by
  obtain ⟨front, back, rfl⟩ := List.append_of_mem h
  rw [lowerAfter_append_slash]
  exact List.mem_append_right _ List.mem_cons_self

/-- The last letter is a sigma that ends a word. -/
def endsInSigma (cs : List Char) : Bool :=
  match cs.reverse.dropWhile caseIgnorables.contains with
  | [] => false
  | c :: before => c == 'Σ' && meetsCased before

/-- The first letter is a sigma that no letter follows, although the text goes on. -/
def startsWithSigma (cs : List Char) : Bool :=
  match cs.dropWhile caseIgnorables.contains with
  | [] => false
  | c :: after => c == 'Σ' && !allIgnored after && !meetsCased after

theorem sigma_not_ignored : caseIgnorables.contains 'Σ' = false := by decide +kernel

theorem dropWhile_ignored (h : allIgnored cs) (ds : List Char) :
    (cs ++ 'Σ' :: ds).dropWhile caseIgnorables.contains = 'Σ' :: ds := by
  rw [List.dropWhile_append_of_pos (by simpa [allIgnored] using h), List.dropWhile_cons]
  simp [sigma_not_ignored]

theorem endsInSigma_iff :
    endsInSigma cs ↔
      ∃ as bs, cs = as ++ 'Σ' :: bs ∧ allIgnored bs ∧ meetsCased as.reverse := by
  constructor
  · intro h
    unfold endsInSigma at h
    split at h
    · cases h
    · rename_i c before hd
      simp only [Bool.and_eq_true, beq_iff_eq] at h
      obtain ⟨rfl, hm⟩ := h
      have hcs : cs.reverse = cs.reverse.takeWhile caseIgnorables.contains ++ 'Σ' :: before := by
        rw [← hd, List.takeWhile_append_dropWhile]
      refine ⟨before.reverse, (cs.reverse.takeWhile caseIgnorables.contains).reverse, ?_, ?_, ?_⟩
      · have hr := congrArg List.reverse hcs
        simpa using hr
      · rw [allIgnored_reverse]
        simp only [allIgnored, List.all_takeWhile]
      · simpa using hm
  · intro h
    obtain ⟨as, bs, rfl, hb, ha⟩ := h
    have hr : (as ++ 'Σ' :: bs).reverse = bs.reverse ++ 'Σ' :: as.reverse := by simp
    rw [endsInSigma, hr, dropWhile_ignored (by rwa [allIgnored_reverse])]
    simpa using ha

theorem startsWithSigma_append {as bs : List Char} (h : allIgnored as) :
    startsWithSigma (as ++ 'Σ' :: bs) = (!allIgnored bs && !meetsCased bs) := by
  rw [startsWithSigma, dropWhile_ignored h]
  simp

/-- A text in front of a letter looks as it does alone, unless it ends in a sigma, or begins with one
behind another letter. -/
theorem lowerBetween_eq_lowerAfter (hafter : meetsCased after) (hend : ¬endsInSigma cs)
    (hstart : ¬startsWithSigma cs ∨ ¬meetsCased before) :
    lowerBetween before cs after = lowerAfter [] cs := by
  rw [← lowerBetween_nil]
  refine lowerBetween_congr fun as bs hcs => ?_
  subst hcs
  have hlone : allIgnored bs → meetsCased as.reverse = false := by
    intro hb
    by_contra ha
    exact hend (endsInSigma_iff.mpr ⟨as, bs, rfl, hb, by simpa using ha⟩)
  simp only [meetsCased_append, allIgnored_reverse, List.append_nil]
  cases hb : allIgnored bs with
  | true => simp [hafter, hlone hb]
  | false =>
    cases ha : allIgnored as with
    | false => simp
    | true =>
      have hfront : meetsCased as.reverse = false :=
        meetsCased_of_allIgnored (by rwa [allIgnored_reverse])
      rw [startsWithSigma_append ha, hb] at hstart
      rcases hstart with hs | hm
      · simp_all
      · simp_all

/-- A text that ends in a sigma looks different in front of a letter. -/
theorem lowerBetween_ne_lowerAfter (hafter : meetsCased after) (hend : endsInSigma cs) :
    lowerBetween before cs after ≠ lowerAfter [] cs := by
  obtain ⟨as, bs, rfl, hb, ha⟩ := endsInSigma_iff.mp hend
  intro h
  rw [← lowerBetween_nil, lowerBetween_append, lowerBetween_append] at h
  have hrest := (List.append_inj h (length_lowerBetween _ _ _ _ _)).2
  have hseen : allIgnored as.reverse = false := by
    by_contra hi
    rw [meetsCased_of_allIgnored (by simpa using hi)] at ha
    cases ha
  simp [lowerBetween, formOf, meetsCased_append, hb, ha, hafter, hseen,
    meetsCased_of_allIgnored hb] at hrest

end ClassLocator.Text

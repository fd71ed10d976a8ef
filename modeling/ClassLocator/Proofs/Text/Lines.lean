import ClassLocator.Text.Separated
import Mathlib.Data.List.Basic

namespace ClassLocator.Text

/-- The stretches of a text between separators. -/
def stretches (separator : Char) (text : String) : List String :=
  (separated separator text.toList).map String.ofList

/-- The lines of a text; none if something stands behind the last line feed. -/
def lines? (text : String) : Option (List String) :=
  let parts := stretches '\n' text
  if parts.getLast? = some "" then some parts.dropLast else none

def cells (line : String) : List String := stretches '\t' line

def unlines (rows : List String) : String := String.join (rows.map (· ++ "\n"))

variable {c d : Char} {text : String} {texts rows : List String}

theorem stretches_of_not_mem (h : c ∉ text.toList) : stretches c text = [text] := by
  simp [stretches, separated_of_not_mem h]

theorem not_mem_of_mem_stretches {part : String} (h : part ∈ stretches c text) : c ∉ part.toList := by
  obtain ⟨p, hp, rfl⟩ := List.mem_map.mp h
  rw [String.toList_ofList]
  exact not_mem_of_mem_separated hp

theorem length_stretches (c : Char) (text : String) :
    (stretches c text).length = text.toList.count c + 1 := by
  rw [stretches, List.length_map, length_separated]

theorem stretches_append (c : Char) (text text' : String) :
    stretches c (text ++ String.singleton c ++ text') = stretches c text ++ stretches c text' := by
  have hl : (text ++ String.singleton c ++ text').toList = text.toList ++ c :: text'.toList := by simp
  rw [stretches, hl, separated_append_cons, List.map_append]
  rfl

theorem stretches_intercalate (c : Char) (h : texts ≠ []) :
    stretches c ((String.singleton c).intercalate texts) = texts.flatMap (stretches c) := by
  induction texts with
  | nil => exact absurd rfl h
  | cons text texts ih =>
    by_cases hnil : texts = []
    · simp [hnil]
    · rw [String.intercalate_cons_of_ne_nil hnil, stretches_append, ih hnil, List.flatMap_cons]

theorem flatMap_stretches (h : ∀ t ∈ texts, c ∉ t.toList) : texts.flatMap (stretches c) = texts := by
  have hsingle : ∀ t ∈ texts, stretches c t = [t] := fun t ht => stretches_of_not_mem (h t ht)
  rw [List.flatMap_congr hsingle]
  simp

theorem stretches_intercalate_eq_iff (h : texts ≠ []) :
    stretches c ((String.singleton c).intercalate texts) = texts ↔ ∀ t ∈ texts, c ∉ t.toList := by
  rw [stretches_intercalate c h]
  constructor
  · intro heq t ht
    rw [← heq] at ht
    obtain ⟨u, -, hu⟩ := List.mem_flatMap.mp ht
    exact not_mem_of_mem_stretches hu
  · exact flatMap_stretches

theorem lines?_unlines (rows : List String) :
    lines? (unlines rows) = some (rows.flatMap (stretches '\n')) := by
  suffices h : stretches '\n' (unlines rows) = rows.flatMap (stretches '\n') ++ [""] by
    simp [lines?, h]
  induction rows with
  | nil => rfl
  | cons row rows ih =>
    have hcons : unlines (row :: rows) = row ++ String.singleton '\n' ++ unlines rows := by
      rw [unlines, List.map_cons, String.join_cons]
      rfl
    rw [hcons, stretches_append, ih, List.flatMap_cons, List.append_assoc]

theorem length_flatMap_stretches_iff :
    (texts.flatMap (stretches c)).length = texts.length ↔ ∀ t ∈ texts, c ∉ t.toList := by
  have hle : ∀ ts : List String, ts.length ≤ (ts.flatMap (stretches c)).length := by
    intro ts
    induction ts with
    | nil => exact Nat.le_refl 0
    | cons t ts ih =>
      rw [List.flatMap_cons, List.length_append, List.length_cons, length_stretches]
      omega
  induction texts with
  | nil => simp
  | cons t ts ih =>
    have hts := hle ts
    have hcount : t.toList.count c = 0 ↔ c ∉ t.toList := List.count_eq_zero
    rw [List.forall_mem_cons, List.flatMap_cons, List.length_append, List.length_cons, length_stretches]
    constructor
    · intro h
      exact ⟨hcount.mp (by omega), ih.mp (by omega)⟩
    · rintro ⟨ht, hrest⟩
      have h₁ := hcount.mpr ht
      have h₂ := ih.mpr hrest
      omega

theorem mem_intercalate_iff {separator : String} (h : d ∉ separator.toList) (texts : List String) :
    d ∈ (separator.intercalate texts).toList ↔ ∃ t ∈ texts, d ∈ t.toList := by
  induction texts with
  | nil => simp
  | cons t ts ih =>
    by_cases hnil : ts = []
    · simp [hnil]
    · rw [String.intercalate_cons_of_ne_nil hnil, String.toList_append, List.mem_append, ih]
      simp [h]

end ClassLocator.Text

import ClassLocator.Text.Separated
import Mathlib.Data.List.Basic
/-!
The end of a text, told by the stretches between its separators. Main statement: a text is a suffix of
another if and only if its stretches are the last ones there, where a stub may stand in front of the first
of them; the stub is empty if and only if the texts are equal or a separator stands in front of the suffix.
-/

namespace ClassLocator

def lastPart (separator : Char) (cs : List Char) : List Char :=
  ((Text.separated separator cs).getLast?).getD []

theorem lastPart_cons_of_mem {c : Char} {cs : List Char} (h : c ∈ cs) (d : Char) :
    lastPart c (d :: cs) = lastPart c cs := by
  have hl := Text.length_separated c cs
  have hc : 0 < cs.count c := List.count_pos_iff.mpr h
  obtain ⟨p, ps, hs⟩ := Text.exists_separated c cs
  rw [lastPart, lastPart, Text.separated_cons hs, hs]
  cases ps with
  | nil =>
    simp only [hs, List.length_singleton] at hl
    omega
  | cons q qs =>
    split
    · simp
    · simp

namespace Text

variable {c : Char} {cs ds text stub file path : List Char}

theorem separated_inj (h : separated c cs = separated c ds) : cs = ds := by
  rw [← intercalate_separated c cs, h, intercalate_separated]

theorem separated_intercalate {ps : List (List Char)} (hne : ps ≠ []) (h : ∀ p ∈ ps, c ∉ p) :
    separated c ([c].intercalate ps) = ps := by
  induction ps with
  | nil => exact absurd rfl hne
  | cons p ps ih =>
    have hp : c ∉ p := h p List.mem_cons_self
    cases ps with
    | nil =>
      rw [List.intercalate_singleton]
      exact separated_of_not_mem hp
    | cons q qs =>
      have hrest := ih (List.cons_ne_nil q qs) fun r hr => h r (List.mem_cons_of_mem p hr)
      rw [List.intercalate_cons_cons, List.append_assoc, List.singleton_append, separated_append_cons,
        separated_of_not_mem hp, hrest, List.singleton_append]

theorem separated_map {f : Char → Char} (hf : ∀ d, f d = c ↔ d = c) (cs : List Char) :
    separated c (cs.map f) = (separated c cs).map (List.map f) := by
  induction cs with
  | nil => rfl
  | cons d cs ih =>
    obtain ⟨p, ps, hs⟩ := exists_separated c cs
    rw [hs, List.map_cons] at ih
    rw [List.map_cons, separated_cons ih, separated_cons hs]
    by_cases hd : d = c
    · rw [if_pos hd, if_pos ((hf d).mpr hd)]
      rfl
    · rw [if_neg hd, if_neg fun h => hd ((hf d).mp h)]
      rfl

theorem suffix_intercalate (c : Char) (stub first : List Char) (before rest : List (List Char)) :
    [c].intercalate (first :: rest) <:+ [c].intercalate (before ++ (stub ++ first) :: rest) := by
  induction before with
  | nil =>
    cases rest with
    | nil => simp
    | cons r rest =>
      rw [List.nil_append, List.intercalate_cons_cons, List.intercalate_cons_cons, List.append_assoc,
        List.append_assoc, List.append_assoc]
      exact List.suffix_append _ _
  | cons b before ih =>
    have hne : before ++ (stub ++ first) :: rest ≠ [] := by simp
    rw [List.cons_append, List.intercalate_cons_of_ne_nil hne]
    exact ih.trans (List.suffix_append _ _)

theorem cons_suffix_intercalate (c : Char) {ps : List (List Char)} (hps : ps ≠ []) (b : List Char)
    (before : List (List Char)) :
    c :: [c].intercalate ps <:+ [c].intercalate (b :: before ++ ps) := by
  induction before generalizing b with
  | nil =>
    rw [List.cons_append, List.nil_append, List.intercalate_cons_of_ne_nil hps, List.append_assoc]
    exact List.suffix_append _ _
  | cons b' before ih =>
    rw [List.cons_append, List.intercalate_cons_of_ne_nil (by simp)]
    exact (ih b').trans (List.suffix_append _ _)

/-- The last stretches of `path` are those of `file`, the first of them behind `stub`. -/
def EndsBehind (c : Char) (stub file path : List Char) : Prop :=
  ∃ before first rest, separated c file = first :: rest ∧
    separated c path = before ++ (stub ++ first) :: rest

theorem endsBehind_append (c : Char) (front file : List Char) :
    ∃ stub, EndsBehind c stub file (front ++ file) := by
  induction front with
  | nil =>
    obtain ⟨first, rest, hf⟩ := exists_separated c file
    exact ⟨[], [], first, rest, hf, hf⟩
  | cons d front ih =>
    obtain ⟨stub, before, first, rest, hf, hp⟩ := ih
    cases before with
    | nil =>
      have hd := separated_cons hp d
      split at hd
      · exact ⟨stub, [[]], first, rest, hf, hd⟩
      · exact ⟨d :: stub, [], first, rest, hf, hd⟩
    | cons b before =>
      have hd := separated_cons hp d
      split at hd
      · exact ⟨stub, [] :: b :: before, first, rest, hf, hd⟩
      · exact ⟨stub, (d :: b) :: before, first, rest, hf, hd⟩

theorem suffix_iff_endsBehind (c : Char) : file <:+ path ↔ ∃ stub, EndsBehind c stub file path := by
  constructor
  · rintro ⟨front, rfl⟩
    exact endsBehind_append c front file
  · rintro ⟨stub, before, first, rest, hf, hp⟩
    rw [← intercalate_separated c file, ← intercalate_separated c path, hf, hp]
    exact suffix_intercalate c stub first before rest

theorem endsBehind_nil_iff : EndsBehind c [] file path ↔ path = file ∨ c :: file <:+ path := by
  constructor
  · rintro ⟨before, first, rest, hf, hp⟩
    rw [List.nil_append, ← hf] at hp
    cases before with
    | nil => exact .inl (separated_inj hp)
    | cons b before =>
      have h := cons_suffix_intercalate c (by simp [hf] : separated c file ≠ []) b before
      rw [← hp, intercalate_separated, intercalate_separated] at h
      exact .inr h
  · obtain ⟨first, rest, hf⟩ := exists_separated c file
    rintro (rfl | ⟨front, rfl⟩)
    · exact ⟨[], first, rest, hf, hf⟩
    · exact ⟨separated c front, first, rest, hf, by rw [separated_append_cons, hf]; rfl⟩

theorem separated_eq_lastPart (c : Char) (cs : List Char) :
    ∃ before, separated c cs = before ++ [lastPart c cs] := by
  obtain ⟨p, ps, hp⟩ := exists_separated c cs
  have hne : p :: ps ≠ [] := List.cons_ne_nil p ps
  refine ⟨(p :: ps).dropLast, ?_⟩
  rw [lastPart, hp, List.getLast?_eq_some_getLast hne, Option.getD_some, List.dropLast_append_getLast]

theorem not_mem_lastPart (c : Char) (cs : List Char) : c ∉ lastPart c cs := by
  obtain ⟨before, hs⟩ := separated_eq_lastPart c cs
  have hm : lastPart c cs ∈ separated c cs := by
    rw [hs]
    exact List.mem_append_right _ (List.mem_singleton_self _)
  exact not_mem_of_mem_separated hm

theorem lastPart_append_cons (c : Char) (cs ds : List Char) :
    lastPart c (cs ++ c :: ds) = lastPart c ds := by
  obtain ⟨p, ps, hp⟩ := exists_separated c ds
  rw [lastPart, separated_append_cons, List.getLast?_append_of_ne_nil _ (by simp [hp]), lastPart]

theorem lastPart_eq_iff (h : c ∉ text) : lastPart c path = text ↔ path = text ∨ c :: text <:+ path := by
  constructor
  · rintro rfl
    obtain ⟨before, hp⟩ := separated_eq_lastPart c path
    exact endsBehind_nil_iff.mp ⟨before, lastPart c path, [], separated_of_not_mem h, hp⟩
  · rintro (rfl | ⟨front, rfl⟩)
    · simp [lastPart, separated_of_not_mem h]
    · rw [lastPart_append_cons]
      simp [lastPart, separated_of_not_mem h]

theorem EndsBehind.lastPart_eq (h : EndsBehind c stub file path) (hc : c ∈ file) :
    lastPart c path = lastPart c file := by
  obtain ⟨before, first, rest, hf, hp⟩ := h
  have hl := length_separated c file
  have hcount : 0 < file.count c := List.count_pos_iff.mpr hc
  cases rest with
  | nil =>
    simp only [hf, List.length_singleton] at hl
    omega
  | cons r rest =>
    have hr := List.getLast?_append_of_ne_nil (before ++ [stub ++ first]) (List.cons_ne_nil r rest)
    rw [lastPart, lastPart, hf, hp, List.getLast?_cons_cons, ← hr, List.append_assoc,
      List.singleton_append]

end Text

end ClassLocator

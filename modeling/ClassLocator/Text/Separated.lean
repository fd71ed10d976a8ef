namespace ClassLocator.Text

/-- The stretches of a text between separators: one more than there are separators. -/
def separated (separator : Char) : List Char → List (List Char)
  | [] => [[]]
  | c :: cs =>
    match separated separator cs with
    | [] => [[c]]
    | p :: ps => if c = separator then [] :: p :: ps else (c :: p) :: ps

theorem length_separated (separator : Char) (cs : List Char) :
    (separated separator cs).length = cs.count separator + 1 := by
  induction cs with
  | nil => rfl
  | cons c cs ih =>
    cases hs : separated separator cs with
    | nil => simp [hs] at ih
    | cons p ps =>
      by_cases hc : c = separator <;> simp_all [separated]

theorem exists_separated (separator : Char) (cs : List Char) :
    ∃ p ps, separated separator cs = p :: ps := by
  refine List.exists_cons_of_ne_nil fun h => ?_
  have hl := length_separated separator cs
  simp [h] at hl

theorem separated_cons {separator : Char} {cs p : List Char} {ps : List (List Char)}
    (h : separated separator cs = p :: ps) (c : Char) :
    separated separator (c :: cs) = if c = separator then [] :: p :: ps else (c :: p) :: ps := by
  rw [separated, h]

theorem intercalate_separated (separator : Char) (cs : List Char) :
    [separator].intercalate (separated separator cs) = cs := by
  induction cs with
  | nil => rfl
  | cons c cs ih =>
    obtain ⟨p, ps, hs⟩ := exists_separated separator cs
    rw [hs] at ih
    rw [separated_cons hs]
    by_cases hc : c = separator <;> cases ps <;> simp_all [List.intercalate]

theorem separated_of_not_mem {separator : Char} {cs : List Char} (h : separator ∉ cs) :
    separated separator cs = [cs] := by
  induction cs with
  | nil => rfl
  | cons c cs ih =>
    simp only [List.mem_cons, not_or] at h
    simp [separated, ih h.2, Ne.symm h.1]

theorem separated_append_cons (separator : Char) (cs ds : List Char) :
    separated separator (cs ++ separator :: ds) = separated separator cs ++ separated separator ds := by
  induction cs with
  | nil =>
    obtain ⟨p, ps, hs⟩ := exists_separated separator ds
    rw [List.nil_append, separated_cons hs, if_pos rfl, hs]
    rfl
  | cons c cs ih =>
    obtain ⟨p, ps, hs⟩ := exists_separated separator cs
    rw [hs, List.cons_append] at ih
    rw [List.cons_append, separated_cons ih, separated_cons hs]
    split
    · rfl
    · rfl

/-- A text without separators behind one is a stretch of its own. -/
theorem separated_append {separator : Char} {last : List Char} (h : separator ∉ last)
    (cs : List Char) :
    separated separator (cs ++ separator :: last) = separated separator cs ++ [last] := by
  rw [separated_append_cons, separated_of_not_mem h]

theorem not_mem_of_mem_separated {separator : Char} {cs p : List Char}
    (h : p ∈ separated separator cs) : separator ∉ p := by
  induction cs generalizing p with
  | nil => simp_all [separated]
  | cons c cs ih =>
    obtain ⟨q, qs, hs⟩ := exists_separated separator cs
    have hq : separator ∉ q := ih (by simp [hs])
    have hqs : ∀ p ∈ qs, separator ∉ p := fun p hp => ih (by simp [hs, hp])
    rw [separated_cons hs] at h
    split at h
    · simp only [List.mem_cons] at h
      rcases h with rfl | rfl | h
      · exact List.not_mem_nil
      · exact hq
      · exact hqs p h
    · rename_i hc
      rcases List.mem_cons.mp h with rfl | h
      · simp [hq, Ne.symm hc]
      · exact hqs p h

/-- What is no separator stands in some stretch. -/
theorem mem_separated {separator c : Char} {cs : List Char} (h : c ∈ cs) (hne : c ≠ separator) :
    ∃ p ∈ separated separator cs, c ∈ p := by
  induction cs with
  | nil => cases h
  | cons d cs ih =>
    obtain ⟨q, qs, hs⟩ := exists_separated separator cs
    rw [hs] at ih
    rw [separated_cons hs]
    rcases List.mem_cons.mp h with rfl | h
    · exact ⟨c :: q, by simp [hne], List.mem_cons_self⟩
    · obtain ⟨p, hp, hc⟩ := ih h
      split
      · exact ⟨p, List.mem_cons_of_mem _ hp, hc⟩
      · rcases List.mem_cons.mp hp with rfl | hp
        · exact ⟨d :: p, List.mem_cons_self, List.mem_cons_of_mem d hc⟩
        · exact ⟨p, List.mem_cons_of_mem _ hp, hc⟩

end ClassLocator.Text

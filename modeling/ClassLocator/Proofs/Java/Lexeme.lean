import ClassLocator.Proofs.Java.Quoted
import ClassLocator.Proofs.Text.Blank

namespace ClassLocator.Java.Lexer

open Text (Pattern)
open Text.Pattern

variable {c : Char} {cs ds u v w : List Char} {texts : List OpenText} {l : Lexeme} {n : Nat}

theorem longer_cases (best t : Token.Kind × Nat) :
    longer best t = best ∧ t.2 ≤ best.2 ∨ longer best t = t ∧ best.2 ≤ t.2 := by
  rw [longer]
  split
  · exact .inr ⟨rfl, by omega⟩
  · exact .inl ⟨rfl, by omega⟩

theorem foldl_longer (first : Token.Kind × Nat) (rest : List (Token.Kind × Nat)) :
    rest.foldl longer first ∈ first :: rest ∧ ∀ t ∈ first :: rest, t.2 ≤ (rest.foldl longer first).2 := by
  induction rest generalizing first with
  | nil => simp
  | cons t rest ih =>
    obtain ⟨hmem, hle⟩ := ih (longer first t)
    rw [List.foldl_cons]
    generalize rest.foldl longer (longer first t) = r at hmem hle
    rw [List.forall_mem_cons] at hle
    rw [List.forall_mem_cons, List.forall_mem_cons]
    simp only [List.mem_cons] at hmem ⊢
    obtain ⟨h, hlt⟩ | ⟨h, hlt⟩ := longer_cases first t
    · rw [h] at hmem hle
      exact ⟨hmem.imp id .inr, hle.1, Nat.le_trans hlt hle.1, hle.2⟩
    · rw [h] at hmem hle
      exact ⟨.inr hmem, Nat.le_trans hlt hle.1, hle.1, hle.2⟩

theorem mem_candidates {kind : Token.Kind} :
    (kind, n) ∈ candidates cs ↔ ∃ p, (kind, p) ∈ plainPatterns ∧ p.longest cs = some n := by
  simp only [candidates, List.mem_filterMap, Option.map_eq_some_iff, Prod.exists, Prod.mk.injEq]
  constructor
  · intro h
    obtain ⟨k, p, hp, m, hm, rfl, rfl⟩ := h
    exact ⟨p, hp, hm⟩
  · intro h
    obtain ⟨p, hp, hn⟩ := h
    exact ⟨kind, p, hp, n, hn, rfl, rfl⟩

theorem plainLexeme_eq_some_iff : plainLexeme texts cs = some l ↔ ∃ first rest,
    candidates cs = first :: rest ∧
      l = ⟨(rest.foldl longer first).1, (rest.foldl longer first).2,
        (cs.head?.map (textsBehind · texts)).getD texts⟩ := by
  rw [plainLexeme]
  cases candidates cs with
  | nil => simp
  | cons first rest => simp [eq_comm]

theorem of_plainLexeme (h : plainLexeme texts cs = some l) :
    (l.kind, l.length) ∈ candidates cs ∧ ∀ t ∈ candidates cs, t.2 ≤ l.length := by
  obtain ⟨first, rest, hcs, rfl⟩ := plainLexeme_eq_some_iff.mp h
  rw [hcs]
  exact foldl_longer first rest

theorem plainPatterns_fitsEmpty : ∀ t ∈ plainPatterns, t.2.fitsEmpty = false := by
  decide

theorem exists_of_mem_candidates {kind : Token.Kind} (h : (kind, n) ∈ candidates cs) :
    ∃ p w v, (kind, p) ∈ plainPatterns ∧ Fits p w ∧ cs = w ++ v ∧ w.length = n ∧ w ≠ [] := by
  obtain ⟨p, hp, hn⟩ := mem_candidates.mp h
  obtain ⟨w, hw, rfl⟩ := longest_eq_some_iff.mp hn
  obtain ⟨v, rfl⟩ := hw.begins
  refine ⟨p, w, v, hp, hw.fits, rfl, rfl, ?_⟩
  rintro rfl
  have hempty := plainPatterns_fitsEmpty _ hp
  rw [fitsEmpty_iff.mpr hw.fits] at hempty
  cases hempty

theorem plainPatterns_avoid : ∀ t ∈ plainPatterns,
    t = (.character, character) ∨ ∀ c ∈ '\'' :: Text.blanks, t.2.avoids c := by
  have h : ∀ p ∈ [wordPattern, number, symbol], ('\'' :: Text.blanks).all (p.avoids ·) := by
    decide +kernel
  intro t ht
  simp only [plainPatterns, List.mem_cons, List.not_mem_nil, or_false] at ht
  rcases ht with rfl | rfl | rfl | rfl
  · exact .inr (List.all_eq_true.mp (h _ (by simp)))
  · exact .inr (List.all_eq_true.mp (h _ (by simp)))
  · exact .inl rfl
  · exact .inr (List.all_eq_true.mp (h _ (by simp)))

theorem longest_spaced {p : Pattern} (hp : p.avoids ' ') (hs : Spaced cs ds)
    (hle : ∀ n ∈ p.longest (w ++ cs), n ≤ w.length) : p.longest (w ++ ds) = p.longest (w ++ cs) := by
  obtain ⟨x, c, v, -, rfl, rfl⟩ := hs.exists_append
  rw [← List.append_assoc] at hle
  have hwithin : ∀ n ∈ p.longest (w ++ x ++ (c ++ v)), n ≤ (w ++ x).length := by
    intro n hn
    rw [List.length_append]
    exact Nat.le_add_right_of_le (hle n hn)
  rw [← List.append_assoc, ← List.append_assoc, longest_append_cons hp, longest_append_of_le hwithin]

theorem longest_character_spaced (hw : w ≠ []) (hne : candidates (w ++ cs) ≠ [])
    (hle : ∀ t ∈ candidates (w ++ cs), t.2 ≤ w.length) :
    character.longest (w ++ ds) = character.longest (w ++ cs) := by
  have hmem : (Token.Kind.character, character) ∈ plainPatterns := by simp [plainPatterns]
  cases hold : character.longest (w ++ cs) with
  | some n =>
    have hn := hle _ (mem_candidates.mpr ⟨character, hmem, hold⟩)
    obtain ⟨x, y, rfl, rfl⟩ : ∃ x y, w = x ++ y ∧ x.length = n :=
      ⟨w.take n, w.drop n, (List.take_append_drop n w).symm, List.length_take_of_le hn⟩
    rw [List.append_assoc] at hold ⊢
    exact prefixFree_character.longest_append (fits_of_longest hold) _
  | none =>
    refine longest_eq_none_iff.mpr fun u hu hfits => ?_
    obtain ⟨m, rfl, -⟩ := exists_of_fits_character hfits
    obtain ⟨c, w, rfl⟩ := List.exists_cons_of_ne_nil hw
    obtain ⟨rfl, -⟩ := List.cons_prefix_cons.mp hu
    obtain ⟨⟨kind, n⟩, ht⟩ := List.exists_mem_of_ne_nil _ hne
    obtain ⟨p, x, y, hp, hx, hxy, -, hxne⟩ := exists_of_mem_candidates ht
    obtain ⟨d, x, rfl⟩ := List.exists_cons_of_ne_nil hxne
    obtain ⟨rfl, -⟩ := List.cons.inj hxy
    obtain hcharacter | havoids := plainPatterns_avoid _ hp
    · obtain ⟨-, rfl⟩ := Prod.mk.inj hcharacter
      exact longest_eq_none_iff.mp hold _ ⟨y, hxy.symm⟩ hx
    · exact hx.not_mem (havoids _ List.mem_cons_self) List.mem_cons_self

theorem candidates_spaced (hw : w ≠ []) (hs : Spaced cs ds) (hne : candidates (w ++ cs) ≠ [])
    (hle : ∀ t ∈ candidates (w ++ cs), t.2 ≤ w.length) :
    candidates (w ++ ds) = candidates (w ++ cs) := by
  refine List.filterMap_congr fun t ht => ?_
  obtain hcharacter | havoids := plainPatterns_avoid t ht
  · simp only [hcharacter, longest_character_spaced hw hne hle]
  · have hspace : t.2.avoids ' ' := havoids ' ' (List.mem_cons_of_mem _ (Text.mem_blanks rfl))
    have hlongest : t.2.longest (w ++ ds) = t.2.longest (w ++ cs) :=
      longest_spaced hspace hs fun n hn => hle (t.1, n) (mem_candidates.mpr ⟨t.2, ht, hn⟩)
    simp only [hlongest]

theorem plainLexeme_spaced (hw : w ≠ []) (hs : Spaced cs ds) (h : plainLexeme texts (w ++ cs) = some l)
    (hl : l.length = w.length) : plainLexeme texts (w ++ ds) = some l := by
  obtain ⟨hmem, hle⟩ := of_plainLexeme h
  rw [hl] at hle
  have hcandidates := candidates_spaced hw hs (List.ne_nil_of_mem hmem) hle
  obtain ⟨first, rest, hcs, hlexeme⟩ := plainLexeme_eq_some_iff.mp h
  refine plainLexeme_eq_some_iff.mpr ⟨first, rest, hcandidates.trans hcs, ?_⟩
  rw [hlexeme, List.head?_append_of_ne_nil _ hw, List.head?_append_of_ne_nil _ hw]

theorem exists_of_linePiece {e : PieceEnd} (h : linePiece cs = some (n, e)) :
    ∃ w ds, cs = w ++ ds ∧ n = w.length ∧ w ≠ [] := by
  have hfits : ∀ p : Pattern, p.fitsEmpty = false → p.longest cs = some n →
      ∃ w ds, cs = w ++ ds ∧ n = w.length ∧ w ≠ [] := by
    intro p hempty hp
    obtain ⟨w, hw, rfl⟩ := longest_eq_some_iff.mp hp
    obtain ⟨ds, rfl⟩ := hw.begins
    refine ⟨w, ds, rfl, rfl, ?_⟩
    rintro rfl
    rw [fitsEmpty_iff.mpr hw.fits] at hempty
    cases hempty
  rw [linePiece_eq] at h
  cases hmarks : lineText.longest cs with
  | some m =>
    rw [hmarks] at h
    obtain ⟨rfl, -⟩ : m = n ∧ .marks = e := by simpa using h
    exact hfits lineText rfl hmarks
  | none =>
    rw [hmarks] at h
    obtain ⟨hbrace, -⟩ : lineStart.longest cs = some n ∧ .brace = e := by simpa using h
    exact hfits lineStart rfl hbrace

theorem exists_of_piece {isBlock : Bool} {e : PieceEnd} (h : piece isBlock cs = some (n, e)) :
    ∃ w ds, cs = w ++ ds ∧ n = w.length ∧ w ≠ [] ∧
      ∀ es, Spaced ds es → piece isBlock (w ++ es) = some (n, e) := by
  cases isBlock with
  | true =>
    obtain ⟨w, ds, rfl, hn, hw⟩ := readsBlocks _ _ _ _ _ _ h
    refine ⟨w, ds, rfl, by omega, ?_, fun es hs => ?_⟩
    · have hpos := hw.two_le
      exact List.length_pos_iff.mp (by omega)
    · rw [hn]
      exact hw.again _ 0 es hs (by rw [List.length_append]; omega)
  | false =>
    obtain ⟨w, ds, rfl, rfl, hne⟩ := exists_of_linePiece h
    exact ⟨w, ds, rfl, rfl, hne, fun es _ => linePiece_append h es⟩

theorem exists_of_textLexeme {o : Opening} (ho : o.length ≤ cs.length) (h : textLexeme o cs = some l) :
    ∃ w ds, cs = w ++ ds ∧ l.length = w.length ∧ w ≠ [] ∧
      ∀ es, Spaced ds es → textLexeme o (w ++ es) = some l := by
  obtain ⟨⟨n, e⟩, hpiece, hl⟩ := Option.map_eq_some_iff.mp h
  obtain ⟨w, ds, hsplit, rfl, hne, hagain⟩ := exists_of_piece hpiece
  obtain ⟨u, v, rfl, hu⟩ : ∃ u v, cs = u ++ v ∧ u.length = o.length :=
    ⟨cs.take o.length, cs.drop o.length, (List.take_append_drop _ cs).symm, List.length_take_of_le ho⟩
  rw [← hu, List.drop_left] at hsplit
  subst hsplit
  refine ⟨u ++ w, ds, (List.append_assoc u w ds).symm, ?_, by simp [hne], fun es hs => ?_⟩
  · rw [← hl, List.length_append, hu]
    cases e with
    | marks => rfl
    | brace => rfl
  · have hdrop : (u ++ w ++ es).drop o.length = w ++ es := by rw [← hu, List.append_assoc, List.drop_left]
    rw [textLexeme, hdrop, hagain es hs]
    exact congrArg some hl

theorem of_opening? {o : Opening} (h : opening? texts cs = some o) :
    ∃ u ∈ [blockMarks, ['"'], ['\x7d']], u <+: cs ∧ o.length = u.length := by
  unfold opening? at h
  split at h
  · rename_i hcs
    cases h
    exact ⟨blockMarks, by simp, List.isPrefixOf_iff_prefix.mp hcs, rfl⟩
  · split at h
    · rename_i hcs
      cases h
      exact ⟨['"'], by simp, List.isPrefixOf_iff_prefix.mp hcs, rfl⟩
    · split at h
      · rename_i hcs
        split at h
        · cases h
          exact ⟨['\x7d'], by simp, List.isPrefixOf_iff_prefix.mp hcs, rfl⟩
        · cases h
      · cases h

theorem opening?_length {o : Opening} (h : opening? texts cs = some o) : o.length ≤ cs.length := by
  obtain ⟨u, -, hu, hlength⟩ := of_opening? h
  exact hlength ▸ hu.length_le

theorem opening?_spaced (hs : Spaced cs ds) : opening? texts ds = opening? texts cs := by
  unfold opening?
  rw [hs.isPrefixOf_eq (by decide) (by decide), hs.isPrefixOf_eq (by decide) (by decide),
    hs.isPrefixOf_eq (by decide) (by decide)]

theorem lexeme_of_opening {o : Opening} (h : opening? texts cs = some o) :
    lexeme texts cs = (textLexeme o cs).getD ⟨.unknown, 1, texts⟩ := by
  rw [lexeme, h]

theorem lexeme_of_plain (h : opening? texts cs = none) :
    lexeme texts cs = (plainLexeme texts cs).getD ⟨.unknown, 1, texts⟩ := by
  rw [lexeme, h]

/-- A space in place of a comment behind a lexeme leaves the lexeme as it is. -/
theorem lexeme_spaced (hs : Spaced cs ds) (hw : w ≠ []) (hl : (lexeme texts (w ++ cs)).length = w.length)
    (hk : (lexeme texts (w ++ cs)).kind ≠ .unknown) :
    lexeme texts (w ++ ds) = lexeme texts (w ++ cs) := by
  have hopening : opening? texts (w ++ ds) = opening? texts (w ++ cs) := opening?_spaced (hs.append w)
  cases ho : opening? texts (w ++ cs) with
  | some o =>
    rw [lexeme_of_opening ho] at hl hk ⊢
    rw [lexeme_of_opening (hopening.trans ho)]
    cases htext : textLexeme o (w ++ cs) with
    | none =>
      rw [htext] at hk
      exact absurd rfl hk
    | some l =>
      obtain ⟨u, es, hsplit, hu, -, hagain⟩ := exists_of_textLexeme (opening?_length ho) htext
      rw [htext, Option.getD_some, hu] at hl
      obtain ⟨rfl, rfl⟩ := List.append_inj hsplit hl.symm
      rw [hagain ds hs]
  | none =>
    rw [lexeme_of_plain ho] at hl hk ⊢
    rw [lexeme_of_plain (hopening.trans ho)]
    cases hplain : plainLexeme texts (w ++ cs) with
    | none =>
      rw [hplain] at hk
      exact absurd rfl hk
    | some l =>
      rw [hplain, Option.getD_some] at hl
      rw [plainLexeme_spaced hw hs hplain hl]

theorem exists_of_lexeme (hcs : cs ≠ []) (texts : List OpenText) :
    ∃ w ds, cs = w ++ ds ∧ (lexeme texts cs).length = w.length ∧ w ≠ [] := by
  have hunknown : ∃ w ds, cs = w ++ ds ∧ 1 = w.length ∧ w ≠ [] := by
    obtain ⟨c, cs, rfl⟩ := List.exists_cons_of_ne_nil hcs
    exact ⟨[c], cs, rfl, rfl, by simp⟩
  cases ho : opening? texts cs with
  | some o =>
    rw [lexeme_of_opening ho]
    cases htext : textLexeme o cs with
    | none => exact hunknown
    | some l =>
      obtain ⟨w, ds, hsplit, hl, hne, -⟩ := exists_of_textLexeme (opening?_length ho) htext
      exact ⟨w, ds, hsplit, hl, hne⟩
  | none =>
    rw [lexeme_of_plain ho]
    cases hplain : plainLexeme texts cs with
    | none => exact hunknown
    | some l =>
      obtain ⟨-, w, ds, -, -, hsplit, hl, hne⟩ := exists_of_mem_candidates (of_plainLexeme hplain).1
      exact ⟨w, ds, hsplit, hl.symm, hne⟩

theorem cutsSealed_append (cs : List Char) :
    cutsSealed (sealedWord ++ cs) = (cs.head?.map beginsWord).getD false := by
  rw [cutsSealed, List.isPrefixOf_iff_prefix.mpr (List.prefix_append _ _), Bool.true_and, List.drop_left]

theorem cutsSealed_spaced (hs : Spaced cs ds) : cutsSealed ds = cutsSealed cs := by
  have hsame : sealedWord.isPrefixOf ds = sealedWord.isPrefixOf cs :=
    hs.isPrefixOf_eq (by decide) (by decide)
  by_cases hsealed : sealedWord.isPrefixOf cs
  · obtain ⟨cs, rfl⟩ := List.isPrefixOf_iff_prefix.mp hsealed
    obtain ⟨ds, rfl, hrest⟩ := hs.of_append (by decide)
    rw [cutsSealed_append, cutsSealed_append]
    obtain hhead | ⟨hslash, hspace⟩ := hrest.head?
    · rw [hhead]
    · rw [hslash, hspace]
      decide +kernel
  · rw [cutsSealed, cutsSealed, hsame, Bool.eq_false_iff.mpr hsealed, Bool.false_and, Bool.false_and]

theorem nextLexeme_spaced {b : Bool} (hs : Spaced cs ds) (hw : w ≠ [])
    (hl : (nextLexeme texts b (w ++ cs)).length = w.length)
    (hk : (nextLexeme texts b (w ++ cs)).kind ≠ .unknown) :
    nextLexeme texts b (w ++ ds) = nextLexeme texts b (w ++ cs) := by
  rw [nextLexeme] at hl hk ⊢
  rw [nextLexeme, cutsSealed_spaced (hs.append w)]
  split
  · rfl
  · rename_i hcut
    rw [if_neg hcut] at hl hk
    exact lexeme_spaced hs hw hl hk

theorem exists_of_nextLexeme {b : Bool} (hcs : cs ≠ []) (texts : List OpenText) :
    ∃ w ds, cs = w ++ ds ∧ (nextLexeme texts b cs).length = w.length ∧ w ≠ [] := by
  rw [nextLexeme]
  split
  · rename_i hcut
    rw [cutsSealed, Bool.and_eq_true, Bool.and_eq_true] at hcut
    obtain ⟨ds, rfl⟩ := List.isPrefixOf_iff_prefix.mp hcut.2.1
    exact ⟨sealedWord, ds, rfl, rfl, by decide⟩
  · exact exists_of_lexeme hcs texts

end ClassLocator.Java.Lexer

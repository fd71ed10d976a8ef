import ClassLocator.Proofs.Java.Pieces
import ClassLocator.Proofs.Text.Tidy

namespace ClassLocator.Java

open Text (Begins isBlank begins_cons forall_not_isBlank_iff)
open Text.Pattern

namespace Lexer

variable {c : Char} {cs w : List Char} {texts texts' : List OpenText} {b : Bool} {p : Piece}
  {passed ps : List Piece} {kind : Token.Kind}

theorem begins_of_not_isBlank (hw : w ≠ []) (h : ∀ c ∈ w, ¬isBlank c) : Begins w := by
  obtain ⟨c, w, rfl⟩ := List.exists_cons_of_ne_nil hw
  exact begins_cons (h c List.mem_cons_self) w

theorem not_isBlank_of_fits {p : Text.Pattern} (hp : ∀ c ∈ '\'' :: Text.blanks, p.avoids c)
    (hw : Fits p w) : ∀ c ∈ w, ¬isBlank c :=
  fun c hc hb => hw.not_mem (hp c (List.mem_cons_of_mem _ (Text.mem_blanks hb))) hc

structure Sound (kind : Token.Kind) (cs : List Char) : Prop where
  ne_ending : kind ≠ .ending
  begins : kind ≠ .unknown → Begins cs
  word : kind = .word → Fits wordPattern cs

theorem sound_unknown (cs : List Char) : Sound .unknown cs where
  ne_ending := by decide
  begins h := absurd rfl h
  word h := by cases h

theorem Sound.not_isBlank (h : Sound .word cs) : ∀ c ∈ cs, ¬isBlank c := by
  have havoids := plainPatterns_avoid (.word, wordPattern) (by simp [plainPatterns])
  have hkind : (Token.Kind.word, wordPattern) ≠ (.character, character) :=
    fun heq => absurd (congrArg Prod.fst heq) (by decide)
  exact not_isBlank_of_fits (havoids.resolve_left hkind) (h.word rfl)

theorem sound_of_mem_candidates (h : (kind, w.length) ∈ candidates (w ++ cs)) : Sound kind w := by
  obtain ⟨p, u, v, hp, hu, hsplit, hlength, hne⟩ := exists_of_mem_candidates h
  obtain ⟨rfl, rfl⟩ := List.append_inj hsplit hlength.symm
  have hkinds : ∀ t ∈ plainPatterns, t.1 ≠ .ending ∧ (t.1 = .word → t.2 = wordPattern) := by
    simp [plainPatterns]
  obtain hcharacter | havoids := plainPatterns_avoid _ hp
  · obtain ⟨rfl, rfl⟩ := Prod.mk.inj hcharacter
    obtain ⟨m, rfl, -⟩ := exists_of_fits_character hu
    exact ⟨by decide, fun _ => begins_cons (by decide) m, fun hword => by cases hword⟩
  · have hblank := not_isBlank_of_fits havoids hu
    obtain ⟨hending, hword⟩ := hkinds _ hp
    exact ⟨hending, fun _ => begins_of_not_isBlank hne hblank, fun hk => hword hk ▸ hu⟩

theorem begins_of_opening? {o : Opening} (h : opening? texts cs = some o) : Begins cs := by
  have hmarks : ∀ u ∈ [blockMarks, ['"'], ['\x7d']], u ≠ [] ∧ u.all (!isBlank ·) := by decide
  obtain ⟨u, hu, ⟨v, rfl⟩, -⟩ := of_opening? h
  obtain ⟨hne, hblank⟩ := hmarks u hu
  exact (begins_of_not_isBlank hne (forall_not_isBlank_iff.mpr hblank)).append v

theorem Opening.lexeme_kind (o : Opening) (n : Nat) (e : PieceEnd) :
    (o.lexeme n e).kind ∈ [Token.Kind.text, .textStart, .textMiddle, .textEnd] := by
  obtain ⟨isBlock, length, isFirst, texts⟩ := o
  cases e <;> cases isFirst <;> simp [Opening.lexeme]

theorem begins_left (hw : w ≠ []) (h : Begins (w ++ cs)) : Begins w := by
  obtain ⟨c, hc, hb⟩ := h
  rw [List.head?_append_of_ne_nil _ hw] at hc
  exact ⟨c, hc, hb⟩

theorem sound_lexeme (hw : w ≠ []) (hl : (lexeme texts (w ++ cs)).length = w.length) :
    Sound (lexeme texts (w ++ cs)).kind w := by
  cases ho : opening? texts (w ++ cs) with
  | some o =>
    rw [lexeme_of_opening ho] at hl ⊢
    cases htext : textLexeme o (w ++ cs) with
    | none => exact sound_unknown w
    | some l =>
      obtain ⟨⟨n, e⟩, -, rfl⟩ := Option.map_eq_some_iff.mp htext
      have hkind := o.lexeme_kind n e
      rw [Option.getD_some]
      generalize (o.lexeme n e).kind = kind at hkind
      have hplain : ∀ kind ∈ [Token.Kind.text, .textStart, .textMiddle, .textEnd],
          kind ≠ .ending ∧ kind ≠ .word := by decide
      obtain ⟨hending, hword⟩ := hplain kind hkind
      exact ⟨hending, fun _ => begins_left hw (begins_of_opening? ho), fun h => absurd h hword⟩
  | none =>
    rw [lexeme_of_plain ho] at hl ⊢
    cases hplain : plainLexeme texts (w ++ cs) with
    | none => exact sound_unknown w
    | some l =>
      rw [hplain, Option.getD_some] at hl
      exact sound_of_mem_candidates (hl ▸ (of_plainLexeme hplain).1)

theorem sound_nextLexeme (hw : w ≠ []) (hl : (nextLexeme texts b (w ++ cs)).length = w.length) :
    Sound (nextLexeme texts b (w ++ cs)).kind w := by
  rw [nextLexeme] at hl ⊢
  split
  · rename_i hcut
    rw [if_pos hcut] at hl
    rw [Bool.and_eq_true, cutsSealed, Bool.and_eq_true] at hcut
    obtain ⟨ds, hds⟩ := List.isPrefixOf_iff_prefix.mp hcut.2.1
    obtain ⟨rfl, -⟩ := List.append_inj hds hl
    have hlongest : wordPattern.longest (sealedWord ++ []) = some sealedWord.length := by decide +kernel
    exact ⟨by simp, fun _ => begins_of_not_isBlank hw (forall_not_isBlank_iff.mpr (by decide)),
      fun _ => fits_of_longest hlongest⟩
  · rename_i hcut
    rw [if_neg hcut] at hl
    exact sound_lexeme hw hl

def Piece.IsSound : Piece → Prop
  | .gap (.blanks _) => True
  | .gap (.comment s) => Fits comment s.toList
  | .token kind s => Sound kind s.toList

theorem Takes.isSound {cs w : List Char} {p : Piece} (h : Takes texts b w cs p texts') : p.IsSound := by
  cases h with
  | blanks => trivial
  | comment h =>
    rw [Piece.IsSound, String.toList_ofList]
    exact fits_of_longest h
  | token hw _ _ hlength =>
    rw [Piece.IsSound, String.toList_ofList]
    exact sound_nextLexeme hw hlength

theorem Lexed.exists_front (h : Lexed texts passed ps) :
    ∃ front, ps = front ++ [.ending] ∧ ∀ p ∈ front, p.IsSound := by
  induction h with
  | done => exact ⟨[], rfl, by simp⟩
  | more h hs ih =>
    obtain ⟨front, rfl, hfront⟩ := ih
    exact ⟨_ :: front, rfl, List.forall_mem_cons.mpr ⟨h.isSound, hfront⟩⟩

def unmarked (source : String) : List Char :=
  match source.toList with
  | [] => []
  | c :: rest => if c = byteOrderMark then rest else c :: rest

theorem exists_lexFrom (source : String) : ∃ place,
    lex source = lexFrom ((unmarked source).length + 1) [] (unmarked source) place {} [] [] := by
  rw [lex, unmarked]
  cases source.toList with
  | nil => exact ⟨_, rfl⟩
  | cons c rest =>
    dsimp only
    split
    · exact ⟨_, rfl⟩
    · exact ⟨_, rfl⟩

theorem piecesOf_lex {source : String} (h : Lexed [] [] ps) (hchars : unmarked source = charsOf ps) :
    piecesOf (lex source) = ps := by
  obtain ⟨place, hlex⟩ := exists_lexFrom source
  rw [hlex, hchars]
  exact piecesOf_lexFrom h (Nat.lt_succ_self _)

theorem lexed_lex (source : String) :
    Lexed [] [] (piecesOf (lex source)) ∧ charsOf (piecesOf (lex source)) = unmarked source := by
  obtain ⟨ps, hps, hchars⟩ := exists_lexed (unmarked source) [] []
  rw [piecesOf_lex hps hchars.symm]
  exact ⟨hps, hchars⟩

theorem isSound_of_mem_piecesOf (source : String) {p : Piece} (h : p ∈ piecesOf (lex source))
    (hp : p ≠ .ending) : p.IsSound := by
  obtain ⟨front, hps, hfront⟩ := (lexed_lex source).1.exists_front
  rw [hps, List.mem_append, List.mem_singleton] at h
  exact hfront p (h.resolve_right hp)

theorem mem_piecesOf {tokens : List Token} {t : Token} (h : t ∈ tokens) :
    (∀ g ∈ t.lead, .gap g ∈ piecesOf tokens) ∧ .token t.kind t.text ∈ piecesOf tokens := by
  constructor
  · intro g hg
    exact List.mem_flatMap.mpr ⟨t, h, List.mem_append_left _ (List.mem_map_of_mem hg)⟩
  · exact List.mem_flatMap.mpr ⟨t, h, by simp⟩

end Lexer

theorem sound_of_mem_lex {source : String} {t : Token} (h : t ∈ Lexer.lex source) :
    (t.kind ≠ .ending → Lexer.Sound t.kind t.text.toList) ∧
      ∀ s ∈ t.comments, Fits Lexer.comment s.toList := by
  obtain ⟨hlead, htoken⟩ := Lexer.mem_piecesOf h
  constructor
  · intro hkind
    exact Lexer.isSound_of_mem_piecesOf source htoken fun hending => hkind (Lexer.Piece.token.inj hending).1
  · intro s hs
    obtain ⟨g, hg, hcomment⟩ := List.mem_filterMap.mp hs
    cases g with
    | blanks s' => cases hcomment
    | comment s' =>
      obtain rfl : s' = s := Option.some.inj hcomment
      exact Lexer.isSound_of_mem_piecesOf source (hlead _ hg) (by simp [Lexer.Piece.ending])

end ClassLocator.Java

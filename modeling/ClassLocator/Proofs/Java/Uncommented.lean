import ClassLocator.Proofs.Java.Tokens
/-!
A text with a space in place of one of its comments. Main statement: it is cut into the same pieces, but that
the space joins the blanks around the comment; so its tokens are the same but for what stands in front of the
one behind the comment. Nothing of a text is lost in its tokens.
-/

namespace ClassLocator.Java

open List (Forall₂)
open Text.Pattern

namespace Lexer

variable {cs ds w : List Char} {texts texts' : List OpenText} {b : Bool} {p : Piece}
  {passed passed' ps qs : List Piece}

/-- A piece that is cut from a text is also cut from the text with a space in place of a comment farther on.
It must not be an unknown token, nor blanks right in front of the comment. -/
theorem Takes.spaced (h : Takes texts b w cs p texts') (hs : Spaced cs ds)
    (hknown : ∀ s, p ≠ .token .unknown s) (hblanks : ∀ s, p = .gap (.blanks s) → ds.head? = cs.head?) :
    Takes texts b w ds p texts' := by
  cases h with
  | blanks hw hgap hcs => exact .blanks hw hgap (hblanks _ rfl ▸ hcs)
  | comment h => exact .comment (longest_comment_append h hs.goesOn_head?)
  | token hw hgap hcomment hlength =>
    obtain ⟨a, w, rfl⟩ := List.exists_cons_of_ne_nil hw
    have hkind : (nextLexeme texts b (a :: w ++ cs)).kind ≠ .unknown := by
      intro hk
      exact hknown _ (by rw [hk])
    have hnext := nextLexeme_spaced hs hw hlength hkind
    have hnone : Lexer.comment.longest (a :: w ++ ds) = none := (hs.append w).longest_comment_eq_none hcomment
    rw [← hnext]
    exact .token hw hgap hnone (hnext ▸ hlength)

theorem behindNon_gap (ps passed passed' : List Piece) (g g' : Trivia) :
    behindNon (ps ++ .gap g :: passed) = behindNon (ps ++ .gap g' :: passed') := by
  match ps with
  | [] => rfl
  | [p] => cases p <;> rfl
  | p :: q :: ps => cases p <;> cases q <;> rfl

theorem Lexed.behind_gap (front : List Piece) {g : Trivia} (g' : Trivia) (passed' : List Piece)
    (h : Lexed texts (front ++ .gap g :: passed) ps) : Lexed texts (front ++ .gap g' :: passed') ps := by
  generalize hall : front ++ .gap g :: passed = all at h
  induction h generalizing front with
  | done => exact .done
  | more h hs ih =>
    subst hall
    rw [behindNon_gap front passed passed' g g'] at h
    refine .more h ?_
    rw [← List.cons_append]
    exact ih _ rfl

theorem Takes.not_isGap (h : Takes texts b w cs p texts') (hp : ∀ s, p ≠ .gap (.blanks s)) :
    ∀ c ∈ (w ++ cs).head?, ¬isGap c := by
  cases h with
  | blanks => exact absurd rfl (hp _)
  | comment h => exact not_isGap_of_comment (fits_of_longest h) cs
  | token hw hgap =>
    rw [List.head?_append_of_ne_nil _ hw]
    exact hgap

theorem Takes.of_blanks {s : String} (h : Takes texts b w cs (.gap (.blanks s)) texts') :
    texts' = texts ∧ w ≠ [] ∧ (∀ c ∈ w, isGap c) ∧ ∀ c ∈ cs.head?, ¬isGap c := by
  cases h with
  | blanks hw hgap hcs => exact ⟨rfl, hw, hgap, hcs⟩

theorem Takes.of_comment {s : String} (h : Takes texts b w cs (.gap (.comment s)) texts') :
    texts' = texts ∧ Fits Lexer.comment w := by
  cases h with
  | comment h => exact ⟨rfl, fits_of_longest h⟩

theorem Lexed.exists_takes (h : Lexed texts passed (p :: ps)) : p = .ending ∧ ps = [] ∨
    ∃ texts', Takes texts (behindNon passed) p.chars (charsOf ps) p texts' ∧
      Lexed texts' (p :: passed) ps := by
  cases h with
  | done => exact .inl ⟨rfl, rfl⟩
  | more h hs => exact .inr ⟨_, h, hs⟩

theorem Lexed.exists_takes_gap {g : Trivia} (h : Lexed texts passed (.gap g :: ps)) :
    ∃ texts', Takes texts (behindNon passed) (Piece.gap g).chars (charsOf ps) (.gap g) texts' ∧
      Lexed texts' (.gap g :: passed) ps := by
  obtain ⟨hending, -⟩ | h := h.exists_takes
  · cases hending
  · exact h

theorem Lexed.fits_comment {s : String} (h : Lexed texts passed ps) (hs : .gap (.comment s) ∈ ps) :
    Fits comment s.toList := by
  induction h with
  | done => simp [Piece.ending] at hs
  | more h _ ih =>
    rcases List.mem_cons.mp hs with rfl | hs
    · exact h.of_comment.2
    · exact ih hs

theorem lexed_blanks {v : List Char} {g : Trivia} (hv : v ≠ []) (hgap : ∀ c ∈ v, isGap c)
    (hps : ∀ c ∈ (charsOf ps).head?, ¬isGap c) (h : Lexed texts (.gap g :: passed) ps)
    (passed' : List Piece) : Lexed texts passed' (.gap (.blanks (String.ofList v)) :: ps) := by
  have hchars : (Piece.gap (.blanks (String.ofList v))).chars = v := String.toList_ofList
  refine .more ?_ (Lexed.behind_gap [] (.blanks (String.ofList v)) passed' h)
  rw [hchars]
  exact .blanks hv hgap hps

theorem Lexed.exists_blanks {g : Trivia} (h : Lexed texts (.gap g :: passed) ps) :
    ∃ (r : List Trivia) (qs : List Piece), ps = r.map .gap ++ qs ∧ (∀ c ∈ charsOf (r.map .gap), isGap c) ∧
      (∀ c ∈ (charsOf qs).head?, ¬isGap c) ∧ Lexed texts (.gap g :: passed) qs := by
  cases h with
  | done => exact ⟨[], _, rfl, by simp [charsOf], by simp [charsOf, Piece.ending, Piece.chars], .done⟩
  | @more _ _ _ ps p hp hs =>
    by_cases hblanks : ∃ s, p = .gap (.blanks s)
    · obtain ⟨s, rfl⟩ := hblanks
      obtain ⟨rfl, -, hgap, hhead⟩ := hp.of_blanks
      exact ⟨[.blanks s], ps, rfl, by simpa [charsOf] using hgap, hhead, hs.behind_gap [] _ _⟩
    · have hhead := hp.not_isGap fun s hs => hblanks ⟨s, hs⟩
      exact ⟨[], p :: ps, rfl, by simp [charsOf], hhead, .more hp hs⟩

/-- A space in place of a comment joins the blanks around it; the other pieces stay as they are. -/
theorem Lexed.spaced {s : String} (h : Lexed texts passed (ps ++ .gap (.comment s) :: qs))
    (hknown : ∀ t, .token .unknown t ∉ ps) : ∃ (l r : List Trivia) (ps' qs' : List Piece) (v : String),
      ps = ps' ++ l.map .gap ∧ qs = r.map .gap ++ qs' ∧
      v.toList = charsOf (l.map .gap) ++ ' ' :: charsOf (r.map .gap) ∧
      Lexed texts passed (ps' ++ .gap (.blanks v) :: qs') := by
  induction ps generalizing texts passed with
  | nil =>
    obtain ⟨texts', hp, hs⟩ := Lexed.exists_takes_gap h
    obtain ⟨rfl, -⟩ := hp.of_comment
    obtain ⟨r, qs', rfl, hgap, hhead, hqs⟩ := hs.exists_blanks
    refine ⟨[], r, [], qs', String.ofList (' ' :: charsOf (r.map .gap)), rfl, rfl, by simp [charsOf], ?_⟩
    exact lexed_blanks (by simp) (List.forall_mem_cons.mpr ⟨rfl, hgap⟩) hhead hqs passed
  | cons p ps ih =>
    simp only [List.mem_cons, not_or] at hknown
    obtain ⟨-, hnil⟩ | ⟨texts', hp, hs⟩ := Lexed.exists_takes h
    · simp at hnil
    · obtain ⟨l, r, ps', qs', v, rfl, rfl, hv, hnew⟩ := ih hs fun t => (hknown t).2
      -- Only blanks right in front of the comment are not cut again: the space joins them.
      by_cases hjoin : ps' = [] ∧ ∃ u, p = .gap (.blanks u)
      · obtain ⟨rfl, u, rfl⟩ := hjoin
        obtain ⟨rfl, hne, hu, -⟩ := hp.of_blanks
        obtain ⟨texts'', hblanks, hrest⟩ := Lexed.exists_takes_gap hnew
        obtain ⟨rfl, -, hgap, hhead⟩ := hblanks.of_blanks
        refine ⟨.blanks u :: l, r, [], qs', String.ofList (u.toList ++ v.toList), rfl, rfl, ?_, ?_⟩
        · simp [hv, charsOf, Piece.chars, Trivia.text]
        · exact lexed_blanks (List.append_ne_nil_of_left_ne_nil hne _)
            (List.forall_mem_append.mpr ⟨hu, hgap⟩) hhead hrest passed
      · refine ⟨l, r, p :: ps', qs', v, rfl, rfl, hv, .more (hp.spaced ?_ ?_ ?_) hnew⟩
        · have hcomment := hs.fits_comment (List.mem_append_right _ List.mem_cons_self)
          have hspaced := (Spaced.here hcomment (charsOf (r.map .gap ++ qs'))).append (charsOf (ps' ++ l.map .gap))
          simpa [charsOf_append, charsOf_cons, Piece.chars, Trivia.text, hv] using hspaced
        · exact fun t ht => (hknown t).1 ht.symm
        · intro u hu
          obtain ⟨q, ps', rfl⟩ := List.exists_cons_of_ne_nil fun hnil => hjoin ⟨hnil, u, hu⟩
          obtain ⟨-, hnil⟩ | ⟨_, hq, -⟩ := Lexed.exists_takes hnew
          · simp at hnil
          · have hhead (rest : List Char) : (q.chars ++ rest).head? = q.chars.head? :=
              List.head?_append_of_ne_nil _ hq.ne_nil
            exact (hhead _).trans (hhead _).symm

section

variable {source : String} {ts us xs ys : List Token} {t : Token} {a b l r : List Trivia}

theorem piecesOf_cons (t : Token) (ts : List Token) :
    piecesOf (t :: ts) = t.lead.map .gap ++ .token t.kind t.text :: piecesOf ts := by
  simp [piecesOf]

theorem piecesOf_append (ts us : List Token) : piecesOf (ts ++ us) = piecesOf ts ++ piecesOf us :=
  List.flatMap_append

theorem getLast?_piecesOf (g : Trivia) : (piecesOf ts).getLast? ≠ some (.gap g) := by
  rcases List.eq_nil_or_concat' ts with rfl | ⟨ts, t, rfl⟩
  · simp [piecesOf]
  · simp [piecesOf]

theorem exists_gaps_before {qs : List Piece} (h : piecesOf ts ++ a.map .gap = qs ++ l.map .gap) :
    ∃ a', a = a' ++ l ∧ qs = piecesOf ts ++ a'.map .gap := by
  induction l using List.reverseRecOn generalizing a with
  | nil => exact ⟨a, by simp, by simpa using h.symm⟩
  | append_singleton l g ih =>
    rcases List.eq_nil_or_concat' a with rfl | ⟨a, g', rfl⟩
    · have hlast := congrArg List.getLast? h
      simp only [List.map_nil, List.append_nil, List.map_append, List.map_cons, ← List.append_assoc,
        List.getLast?_concat] at hlast
      exact absurd hlast (getLast?_piecesOf g)
    · simp only [List.map_append, List.map_cons, List.map_nil, ← List.append_assoc] at h
      obtain ⟨hfront, hg⟩ := List.append_inj' h rfl
      obtain ⟨a', rfl, hqs⟩ := ih hfront
      obtain rfl : g' = g := by simpa using hg
      exact ⟨a', by simp, hqs⟩

theorem exists_gaps_behind {kind : Token.Kind} {s : String} {qs qs' : List Piece}
    (h : b.map .gap ++ .token kind s :: qs = r.map .gap ++ qs') :
    ∃ b', b = r ++ b' ∧ qs' = b'.map .gap ++ .token kind s :: qs := by
  induction r generalizing b with
  | nil => exact ⟨b, rfl, h.symm⟩
  | cons g r ih =>
    cases b with
    | nil => simp at h
    | cons g' b =>
      obtain ⟨hg, hrest⟩ := List.cons.inj h
      obtain ⟨b', rfl, hqs⟩ := ih hrest
      obtain rfl := Piece.gap.inj hg
      exact ⟨b', rfl, hqs⟩

/-- Tokens that differ in their places at most. -/
structure Same (x y : Token) : Prop where
  kind : x.kind = y.kind
  text : x.text = y.text
  lead : x.lead = y.lead

theorem same_of_piecesOf (h : piecesOf xs = piecesOf ys) : Forall₂ Same xs ys := by
  induction xs generalizing ys with
  | nil =>
    cases ys with
    | nil => exact .nil
    | cons y ys => simp [piecesOf] at h
  | cons x xs ih =>
    cases ys with
    | nil => simp [piecesOf] at h
    | cons y ys =>
      rw [piecesOf_cons, piecesOf_cons] at h
      obtain ⟨b, hlead, hrest⟩ := exists_gaps_behind h
      cases b with
      | cons g b => simp at hrest
      | nil =>
        obtain ⟨htoken, hrest⟩ := List.cons.inj hrest
        obtain ⟨hkind, htext⟩ := Piece.token.inj htoken
        exact .cons ⟨hkind.symm, htext.symm, by simpa using hlead⟩ (ih hrest.symm)

def markOf (source : String) : List Char :=
  if source.toList.head? = some byteOrderMark then [byteOrderMark] else []

/-- The text `source` with other tokens in place of its own. -/
def respelled (source : String) (tokens : List Token) : String :=
  String.ofList (markOf source ++ charsOf (piecesOf tokens))

theorem markOf_append_unmarked (source : String) : markOf source ++ unmarked source = source.toList := by
  rw [markOf, unmarked]
  cases source.toList with
  | nil => rfl
  | cons c cs =>
    by_cases hc : c = byteOrderMark
    · simp [hc]
    · simp [hc]

/-- Nothing of a text is lost. -/
theorem respelled_lex (source : String) : respelled source (lex source) = source := by
  rw [respelled, (lexed_lex source).2, markOf_append_unmarked, String.ofList_toList]

theorem unmarked_respelled {tokens : List Token}
    (h : markOf source = [] → (charsOf (piecesOf tokens)).head? ≠ some byteOrderMark) :
    unmarked (respelled source tokens) = charsOf (piecesOf tokens) := by
  rw [unmarked, respelled, String.toList_ofList]
  by_cases hmark : source.toList.head? = some byteOrderMark
  · simp [markOf, hmark]
  · have hnil : markOf source = [] := if_neg hmark
    have hhead := h hnil
    rw [hnil, List.nil_append]
    cases hcs : charsOf (piecesOf tokens) with
    | nil => rfl
    | cons c cs =>
      rw [hcs] at hhead
      have hc : c ≠ byteOrderMark := by simpa using hhead
      simp [hc]

theorem token_unknown_not_mem (h : ∀ x ∈ ts, x.kind ≠ .unknown) (a : List Trivia) (s : String) :
    .token .unknown s ∉ piecesOf ts ++ a.map .gap := by
  intro hmem
  rcases List.mem_append.mp hmem with hmem | hmem
  · obtain ⟨x, hx, hp⟩ := List.mem_flatMap.mp hmem
    rcases List.mem_append.mp hp with hp | hp
    · simp at hp
    · exact h x hx (Piece.token.inj (List.mem_singleton.mp hp)).1.symm
  · simp at hmem

/-- The tokens of a text with a space in place of a comment: only what stands in front of the token behind it
is different, and something does. -/
theorem piecesOf_lex_spaced {s : String} (hlex : lex source = ts ++ t :: us)
    (hlead : t.lead = a ++ .comment s :: b) (hknown : ∀ x ∈ ts, x.kind ≠ .unknown) :
    ∃ lead, lead ≠ [] ∧
      piecesOf (lex (respelled source (ts ++ { t with lead := a ++ .blanks " " :: b } :: us))) =
        piecesOf (ts ++ { t with lead } :: us) := by
  obtain ⟨hlexed, hchars⟩ := lexed_lex source
  have hpieces : piecesOf (lex source) = (piecesOf ts ++ a.map .gap) ++ .gap (.comment s) ::
      (b.map .gap ++ .token t.kind t.text :: piecesOf us) := by
    simp [hlex, piecesOf_append, piecesOf_cons, hlead]
  rw [hpieces] at hlexed hchars
  have hcomment : Fits comment s.toList := hlexed.fits_comment (by simp)
  obtain ⟨l, r, ps', qs', v, hfront, hback, hv, hnew⟩ := hlexed.spaced (token_unknown_not_mem hknown a)
  obtain ⟨a', rfl, rfl⟩ := exists_gaps_before hfront
  obtain ⟨b', rfl, rfl⟩ := exists_gaps_behind hback
  refine ⟨a' ++ .blanks v :: b', by simp, ?_⟩
  have hnewPieces : piecesOf (ts ++ { t with lead := a' ++ .blanks v :: b' } :: us) =
      piecesOf ts ++ a'.map .gap ++ .gap (.blanks v) ::
        (b'.map .gap ++ .token t.kind t.text :: piecesOf us) := by
    simp [piecesOf_append, piecesOf_cons]
  have hnewChars : charsOf (piecesOf (ts ++ { t with lead := a' ++ l ++ .blanks " " :: (r ++ b') } :: us)) =
      charsOf (piecesOf (ts ++ { t with lead := a' ++ .blanks v :: b' } :: us)) := by
    simp [piecesOf_append, piecesOf_cons, charsOf_append, charsOf_cons, Piece.chars, Trivia.text, hv]
  have hspaced : Spaced (unmarked source)
      (charsOf (piecesOf (ts ++ { t with lead := a' ++ l ++ .blanks " " :: (r ++ b') } :: us))) := by
    have h := (Spaced.here hcomment (charsOf ((r ++ b').map .gap ++ .token t.kind t.text :: piecesOf us))).append
      (charsOf (piecesOf ts ++ (a' ++ l).map .gap))
    rw [← hchars]
    simpa [piecesOf_append, piecesOf_cons, charsOf_append, charsOf_cons, Piece.chars, Trivia.text] using h
  rw [hnewPieces]
  refine piecesOf_lex hnew ?_
  rw [unmarked_respelled, hnewChars, hnewPieces]
  -- A mark of the encoding must not come first where there was none, or it would be passed over.
  intro hmark
  have hsource : (unmarked source).head? ≠ some byteOrderMark := by
    intro hhead
    have hall := markOf_append_unmarked source
    rw [hmark, List.nil_append] at hall
    rw [markOf, if_pos (hall ▸ hhead)] at hmark
    cases hmark
  obtain hhead | ⟨-, hhead⟩ := hspaced.head?
  · rw [hhead]
    exact hsource
  · rw [hhead]
    decide

end

end Lexer

end ClassLocator.Java

import ClassLocator.Proofs.Java.Lexeme

namespace ClassLocator.Java.Lexer

open Text (Pattern)
open Text.Pattern

inductive Piece where
  | gap (trivia : Trivia)
  | token (kind : Token.Kind) (text : String)
  deriving DecidableEq

namespace Piece

def chars : Piece → List Char
  | gap trivia => trivia.text.toList
  | token _ text => text.toList

def ending : Piece := .token .ending ""

end Piece

def charsOf (ps : List Piece) : List Char := ps.flatMap Piece.chars

def piecesOf (tokens : List Token) : List Piece :=
  tokens.flatMap fun t => t.lead.map .gap ++ [.token t.kind t.text]

/-- The last pieces are `non-`; the last one is the first of the list. -/
def behindNon : List Piece → Bool
  | .token _ minus :: .token _ non :: _ => minus = "-" && non = "non"
  | _ => false

variable {c : Char} {cs ds w : List Char} {texts texts' : List OpenText} {b : Bool} {p : Piece}
  {passed ps : List Piece} {lead : List Trivia} {before : List Token}

/-- A piece `w` is cut from the front of a text that goes on with `cs`. -/
inductive Takes (texts : List OpenText) (b : Bool) :
    (w cs : List Char) → Piece → List OpenText → Prop where
  | blanks {w cs : List Char} (hw : w ≠ []) (hgap : ∀ c ∈ w, isGap c) (hcs : ∀ c ∈ cs.head?, ¬isGap c) :
      Takes texts b w cs (.gap (.blanks (String.ofList w))) texts
  | comment {w cs : List Char} (h : comment.longest (w ++ cs) = some w.length) :
      Takes texts b w cs (.gap (.comment (String.ofList w))) texts
  | token {w cs : List Char} (hw : w ≠ []) (hgap : ∀ c ∈ w.head?, ¬isGap c)
      (hcomment : Lexer.comment.longest (w ++ cs) = none)
      (hlength : (nextLexeme texts b (w ++ cs)).length = w.length) :
      Takes texts b w cs (.token (nextLexeme texts b (w ++ cs)).kind (String.ofList w))
        (nextLexeme texts b (w ++ cs)).texts

inductive Lexed : List OpenText → (passed ps : List Piece) → Prop where
  | done {texts : List OpenText} {passed : List Piece} : Lexed texts passed [.ending]
  | more {texts texts' : List OpenText} {passed ps : List Piece} {p : Piece}
      (h : Takes texts (behindNon passed) p.chars (charsOf ps) p texts')
      (hs : Lexed texts' (p :: passed) ps) : Lexed texts passed (p :: ps)

theorem Takes.chars_eq (h : Takes texts b w cs p texts') : p.chars = w := by
  cases h with
  | blanks => exact String.toList_ofList
  | comment => exact String.toList_ofList
  | token => exact String.toList_ofList

theorem Takes.ne_nil (h : Takes texts b w cs p texts') : w ≠ [] := by
  cases h with
  | blanks hw => exact hw
  | comment h =>
    obtain ⟨m, rfl⟩ := exists_cons_of_comment (fits_of_longest h)
    simp
  | token hw => exact hw

theorem not_isGap_of_comment (h : Fits comment w) (cs : List Char) : ∀ c ∈ (w ++ cs).head?, ¬isGap c := by
  intro c hc
  obtain ⟨m, rfl⟩ := exists_cons_of_comment h
  obtain rfl : '/' = c := Option.some.inj hc
  decide

theorem exists_takes (hcs : cs ≠ []) (texts : List OpenText) (b : Bool) :
    ∃ w ds p texts', cs = w ++ ds ∧ Takes texts b w ds p texts' := by
  obtain ⟨u, v, rfl, hu, hv⟩ := exists_gap cs
  by_cases hne : u = []
  · subst hne
    cases hcomment : comment.longest v with
    | some n =>
      obtain ⟨w, hw, rfl⟩ := longest_eq_some_iff.mp hcomment
      obtain ⟨ds, rfl⟩ := hw.begins
      exact ⟨w, ds, _, _, rfl, .comment hcomment⟩
    | none =>
      obtain ⟨w, ds, rfl, hlength, hw⟩ := exists_of_nextLexeme hcs texts (b := b)
      rw [List.head?_append_of_ne_nil _ hw] at hv
      exact ⟨w, ds, _, _, rfl, .token hw hv hcomment hlength⟩
  · exact ⟨u, v, _, _, rfl, .blanks hne hu hv⟩

def passedPieces (lead : List Trivia) (before : List Token) : List Piece :=
  lead.map .gap ++ before.flatMap fun t => Piece.token t.kind t.text :: (t.lead.map .gap).reverse

theorem isBehindNon_eq (lead : List Trivia) (before : List Token) :
    isBehindNon lead before = behindNon (passedPieces lead before) := by
  cases lead with
  | cons g lead =>
    cases before with
    | nil => rfl
    | cons minus before =>
      cases before with
      | nil => rfl
      | cons non before => rfl
  | nil =>
    cases before with
    | nil => rfl
    | cons minus before =>
      obtain ⟨kind, text, lead, after⟩ := minus
      rcases List.eq_nil_or_concat' lead with rfl | ⟨lead, g, rfl⟩
      · cases before with
        | nil => rfl
        | cons non before => simp [isBehindNon, passedPieces, behindNon, Token.isGlued]
      · cases before with
        | nil => simp [isBehindNon, passedPieces, behindNon]
        | cons non before => simp [isBehindNon, passedPieces, behindNon, Token.isGlued]

theorem lexFrom_takes {fuel : Nat} {place after : Location}
    (h : Takes texts (isBehindNon lead before) w cs p texts') :
    ∃ place' after' lead' before', passedPieces lead' before' = p :: passedPieces lead before ∧
      lexFrom (fuel + 1) texts (w ++ cs) place after lead before =
        lexFrom fuel texts' cs place' after' lead' before' := by
  obtain ⟨c, w, rfl⟩ := List.exists_cons_of_ne_nil h.ne_nil
  cases h with
  | blanks _ hgap hcs =>
    rw [List.forall_mem_cons] at hgap
    have hstop : cs.takeWhile isGap = [] ∧ cs.dropWhile isGap = cs := by
      cases cs with
      | nil => exact ⟨rfl, rfl⟩
      | cons d cs => exact ⟨List.takeWhile_cons_of_neg (hcs d rfl), List.dropWhile_cons_of_neg (hcs d rfl)⟩
    have htake : (w ++ cs).takeWhile isGap = w := by
      rw [List.takeWhile_append_of_pos hgap.2, hstop.1, List.append_nil]
    have hdrop : (w ++ cs).dropWhile isGap = cs := by
      rw [List.dropWhile_append_of_pos hgap.2, hstop.2]
    simp only [List.cons_append, lexFrom, if_pos hgap.1, htake, hdrop]
    exact ⟨_, _, _, _, rfl, rfl⟩
  | comment h =>
    have hgap : ¬isGap c := not_isGap_of_comment (fits_of_longest h) cs c rfl
    have hdrop : (c :: (w ++ cs)).drop (c :: w).length = cs := by simp
    have htake : (c :: (w ++ cs)).take (c :: w).length = c :: w := by simp
    rw [List.cons_append] at h
    simp only [List.cons_append, lexFrom, if_neg hgap, h, hdrop, htake]
    exact ⟨_, _, _, _, rfl, rfl⟩
  | token _ hgap hcomment hlength =>
    have hdrop : (c :: (w ++ cs)).drop (c :: w).length = cs := by simp
    have htake : (c :: (w ++ cs)).take (c :: w).length = c :: w := by simp
    rw [List.cons_append] at hcomment hlength
    simp only [List.cons_append, lexFrom, if_neg (hgap c rfl), hcomment, hlength, hdrop, htake]
    exact ⟨_, _, _, _, by simp [passedPieces], rfl⟩

theorem passedPieces_reverse (lead : List Trivia) (before : List Token) :
    (passedPieces lead before).reverse = piecesOf before.reverse ++ lead.reverse.map .gap := by
  induction before generalizing lead with
  | nil => simp [passedPieces, piecesOf]
  | cons t before ih =>
    have hbefore := ih t.lead.reverse
    simp only [passedPieces, List.map_reverse, List.reverse_append, List.reverse_reverse] at hbefore
    simp [passedPieces, piecesOf, hbefore]

theorem piecesOf_concat (before : List Token) (t : Token) :
    piecesOf (t :: before).reverse = piecesOf before.reverse ++ t.lead.map .gap ++ [.token t.kind t.text] := by
  simp [piecesOf]

theorem charsOf_cons (p : Piece) (ps : List Piece) : charsOf (p :: ps) = p.chars ++ charsOf ps := rfl

theorem charsOf_append (ps qs : List Piece) : charsOf (ps ++ qs) = charsOf ps ++ charsOf qs :=
  List.flatMap_append

/-- Cutting a text that has these pieces gives tokens that have them. -/
theorem piecesOf_lexFrom {fuel : Nat} {place after : Location}
    (h : Lexed texts (passedPieces lead before) ps) (hfuel : (charsOf ps).length < fuel) :
    piecesOf (lexFrom fuel texts (charsOf ps) place after lead before) =
      (passedPieces lead before).reverse ++ ps := by
  generalize hpassed : passedPieces lead before = passed at h
  induction h generalizing fuel place after lead before with
  | done =>
    subst hpassed
    obtain ⟨fuel, rfl⟩ := Nat.exists_eq_add_one_of_ne_zero (by omega : fuel ≠ 0)
    exact (piecesOf_concat ..).trans (by rw [passedPieces_reverse]; rfl)
  | more h hs ih =>
    subst hpassed
    obtain ⟨fuel, rfl⟩ := Nat.exists_eq_add_one_of_ne_zero (by omega : fuel ≠ 0)
    rw [charsOf_cons, List.length_append] at hfuel
    have hpos := List.length_pos_iff.mpr h.ne_nil
    rw [← isBehindNon_eq] at h
    obtain ⟨place', after', lead', before', hpassed', heq⟩ := lexFrom_takes h
    rw [charsOf_cons, heq, ih (by omega) hpassed']
    simp

theorem exists_lexed (cs : List Char) (texts : List OpenText) (passed : List Piece) :
    ∃ ps, Lexed texts passed ps ∧ charsOf ps = cs := by
  induction hn : cs.length using Nat.strong_induction_on generalizing cs texts passed with
  | _ n ih =>
    subst hn
    by_cases hcs : cs = []
    · exact ⟨[.ending], .done, by rw [hcs]; rfl⟩
    · obtain ⟨w, ds, p, texts', rfl, h⟩ := exists_takes hcs texts (behindNon passed)
      have hpos := List.length_pos_iff.mpr h.ne_nil
      obtain ⟨ps, hps, rfl⟩ := ih ds.length (by simp; omega) ds texts' (p :: passed) rfl
      exact ⟨p :: ps, .more (h.chars_eq ▸ h) hps, by rw [charsOf_cons, h.chars_eq]⟩

end ClassLocator.Java.Lexer

import ClassLocator.Java.Lexer
import ClassLocator.Proofs.Text.Scan
import Mathlib.Data.List.TakeWhile

namespace ClassLocator.Java.Lexer

open Text (Pattern Turn endFrom? endFrom?_append exists_of_endFrom? endFrom?_of_prefix)
open Text.Pattern

variable {c : Char} {cs ds w : List Char} {star : Bool} {n : Nat}

def blockTurn (star : Bool) (c : Char) : Turn Bool :=
  if star && c == '/' then .ends
  else if c == nul then .fails
  else .goes (c == '*')

def starItem : Pattern :=
  seq [noneOf ['/', '*', nul], many (noneOf ['*', nul]), some1 (char '*')]

/-- What follows the opening of a block comment, and a star in it. -/
def blockTail : Bool → Pattern
  | false => seq [many (noneOf ['*', nul]), some1 (char '*'), many starItem, char '/']
  | true => seq [many (char '*'), many starItem, char '/']

theorem fits_starItem_cons_iff : Fits starItem (c :: w) ↔
    (c ≠ '/' ∧ c ≠ '*' ∧ c ≠ nul) ∧ Fits (seq [many (noneOf ['*', nul]), some1 (char '*')]) w := by
  rw [starItem, fits_seq_cons_iff, noneOf, fits_one_both_cons_iff]
  simp [noneOf]

/-- Behind stars: another stretch that ends in stars, or the end. -/
theorem fits_items_cons_iff : Fits (seq [many starItem, char '/']) (c :: w) ↔
    (c ≠ '/' ∧ c ≠ '*' ∧ c ≠ nul) ∧ Fits (blockTail false) w ∨ c = '/' ∧ w = [] := by
  rw [fits_seq_cons_iff, fits_many_both_cons_iff, fits_seq_singleton_iff, char, fits_one_cons_iff]
  refine or_congr ?_ (by simp)
  have hsplit : blockTail false =
      seq ([many (noneOf ['*', nul]), some1 (char '*')] ++ [many starItem, char '/']) := rfl
  rw [hsplit, fits_seq_append_iff]
  simp only [fits_starItem_cons_iff, ← fits_seq_cons_iff]
  constructor
  · intro h
    obtain ⟨u, v, ⟨hc, hu⟩, hv, rfl⟩ := h
    exact ⟨hc, u, v, hu, hv, rfl⟩
  · intro h
    obtain ⟨hc, u, v, hu, hv, rfl⟩ := h
    exact ⟨u, v, ⟨hc, hu⟩, hv, rfl⟩

theorem fits_blockTail_true_cons_iff : Fits (blockTail true) (c :: w) ↔
    c = '*' ∧ Fits (blockTail true) w ∨
      ((c ≠ '/' ∧ c ≠ '*' ∧ c ≠ nul) ∧ Fits (blockTail false) w ∨ c = '/' ∧ w = []) := by
  rw [← fits_items_cons_iff, blockTail, fits_seq_cons_iff, fits_many_both_cons_iff, char]
  simp [fits_one_cons_iff, ← fits_seq_cons_iff]

theorem fits_blockTail_false_cons_iff : Fits (blockTail false) (c :: w) ↔
    (c ≠ '*' ∧ c ≠ nul) ∧ Fits (blockTail false) w ∨ c = '*' ∧ Fits (blockTail true) w := by
  have hstars : Fits (seq [some1 (char '*'), many starItem, char '/']) (c :: w) ↔
      c = '*' ∧ Fits (blockTail true) w := by
    rw [fits_seq_cons_iff, some1, fits_both_assoc, char, fits_one_both_cons_iff, ← fits_seq_cons_iff]
    simp [blockTail, char]
  rw [← hstars, blockTail, fits_seq_cons_iff, fits_many_both_cons_iff, noneOf]
  simp [fits_one_cons_iff, ← fits_seq_cons_iff]

theorem fits_blockTail_iff : Fits (blockTail star) w ↔ endFrom? blockTurn star w = some w.length := by
  induction w generalizing star with
  | nil =>
    cases star with
    | false => simp [endFrom?, blockTail, fits_seq_cons_iff, fits_both_iff, some1, fits_char_iff]
    | true => simp [endFrom?, blockTail, fits_seq_cons_iff, fits_seq_nil_iff, fits_both_iff, fits_char_iff]
  | cons c w ih =>
    have hstar : '*' ≠ nul := by decide
    rw [endFrom?, blockTurn]
    cases star with
    | false =>
      rw [fits_blockTail_false_cons_iff, ih, ih]
      by_cases hn : c = nul
      · simp [hn, nul]
      · by_cases hs : c = '*'
        · simp [hs, hstar]
        · simp [hn, hs, beq_eq_false_iff_ne.mpr hs]
    | true =>
      rw [fits_blockTail_true_cons_iff, ih, ih]
      by_cases he : c = '/'
      · simp [he]
      · by_cases hn : c = nul
        · simp [hn, nul]
        · by_cases hs : c = '*'
          · simp [hs, hstar]
          · simp [he, hn, hs, beq_eq_false_iff_ne.mpr hs]

def goesOn (c : Char) : Bool := c != '\n' && c != nul

def commentLength? : List Char → Option Nat
  | '/' :: '/' :: cs => some (2 + (cs.takeWhile goesOn).length)
  | '/' :: '*' :: cs => (endFrom? blockTurn false cs).map (2 + ·)
  | _ => none

theorem fits_comment_iff : Fits comment w ↔
    (∃ m, w = '/' :: '/' :: m ∧ ∀ c ∈ m, goesOn c) ∨
      ∃ m, w = '/' :: '*' :: m ∧ endFrom? blockTurn false m = some m.length := by
  have hline : noneOf ['\n', nul] = one goesOn := by
    rw [noneOf]
    congr 1
    funext c
    simp [goesOn, bne, beq_eq_decide]
  have hblock : Fits (seq [Pattern.word "/*", many (noneOf ['*', nul]), some1 (char '*'), many starItem,
      char '/']) w ↔ ∃ m, w = '/' :: '*' :: m ∧ Fits (blockTail false) m := by
    rw [fits_seq_cons_iff, fits_both_iff]
    simp [fits_word_iff, blockTail, and_comm]
  simp only [← fits_blockTail_iff]
  rw [comment, fits_either_iff, ← hblock, hline, fits_both_iff]
  simp [fits_word_iff, fits_many_one_iff, and_comm, starItem]

theorem isLongest_lineComment (cs : List Char) :
    IsLongest comment ('/' :: '/' :: cs) ('/' :: '/' :: cs.takeWhile goesOn) where
  begins := by simpa [List.cons_prefix_cons] using List.takeWhile_prefix goesOn
  fits := fits_comment_iff.mpr (.inl ⟨_, rfl, fun c hc => List.mem_takeWhile_imp hc⟩)
  le := by
    intro u hu hfits
    obtain ⟨m, rfl, hm⟩ | ⟨m, rfl, -⟩ := fits_comment_iff.mp hfits
    · obtain ⟨r, rfl⟩ : m <+: cs := by simpa [List.cons_prefix_cons] using hu
      rw [List.takeWhile_append_of_pos hm]
      simp
    · simp [List.cons_prefix_cons] at hu

theorem longest_blockComment (cs : List Char) :
    comment.longest ('/' :: '*' :: cs) = (endFrom? blockTurn false cs).map (2 + ·) := by
  have hinv : ∀ u, u <+: '/' :: '*' :: cs → Fits comment u →
      ∃ m, u = '/' :: '*' :: m ∧ endFrom? blockTurn false cs = some m.length := by
    intro u hu hfits
    obtain ⟨m, rfl, -⟩ | ⟨m, rfl, hm⟩ := fits_comment_iff.mp hfits
    · simp [List.cons_prefix_cons] at hu
    · exact ⟨m, rfl, endFrom?_of_prefix (by simpa [List.cons_prefix_cons] using hu) hm⟩
  cases hend : endFrom? blockTurn false cs with
  | none =>
    refine longest_eq_none_iff.mpr fun u hu hfits => ?_
    obtain ⟨m, -, hm⟩ := hinv u hu hfits
    rw [hend] at hm
    cases hm
  | some n =>
    obtain ⟨w, hw, rfl, hwend⟩ := exists_of_endFrom? hend
    refine longest_eq_some_iff.mpr ⟨'/' :: '*' :: w, ⟨?_, ?_, ?_⟩, by simp; omega⟩
    · simpa [List.cons_prefix_cons] using hw
    · exact fits_comment_iff.mpr (.inr ⟨w, rfl, hwend⟩)
    · intro u hu hfits
      obtain ⟨m, rfl, hm⟩ := hinv u hu hfits
      rw [hend, Option.some.injEq] at hm
      simp [hm]

theorem longest_comment (cs : List Char) : comment.longest cs = commentLength? cs := by
  rw [commentLength?.eq_def]
  split
  · exact longest_eq_some_iff.mpr ⟨_, isLongest_lineComment _, by simp; omega⟩
  · exact longest_blockComment _
  · rename_i hline hblock
    refine longest_eq_none_iff.mpr fun u hu hfits => ?_
    obtain ⟨r, rfl⟩ := hu
    obtain ⟨m, rfl, -⟩ | ⟨m, rfl, -⟩ := fits_comment_iff.mp hfits
    · exact hline (m ++ r) rfl
    · exact hblock (m ++ r) rfl

theorem exists_cons_of_comment (h : Fits comment w) : ∃ m, w = '/' :: m := by
  obtain ⟨m, rfl, -⟩ | ⟨m, rfl, -⟩ := fits_comment_iff.mp h
  · exact ⟨_, rfl⟩
  · exact ⟨_, rfl⟩

/-- A comment ends where it does whatever follows, unless it is in one line and could go on. -/
theorem longest_comment_append {es : List Char} (h : comment.longest (w ++ ds) = some w.length)
    (hon : ∀ c ∈ es.head?, goesOn c → ∃ d ∈ ds.head?, goesOn d) :
    comment.longest (w ++ es) = some w.length := by
  have hw := fits_of_longest h
  rw [longest_comment] at h ⊢
  obtain ⟨m, rfl, hm⟩ | ⟨m, rfl, hm⟩ := fits_comment_iff.mp hw
  · simp only [List.cons_append, commentLength?, List.takeWhile_append_of_pos hm, List.length_cons,
      List.length_append, Option.some.injEq] at h ⊢
    have hstop : ds.takeWhile goesOn = [] := List.eq_nil_of_length_eq_zero (by omega)
    have hnone : es.takeWhile goesOn = [] := by
      cases es with
      | nil => rfl
      | cons e es =>
        refine List.takeWhile_cons_of_neg fun he => ?_
        obtain ⟨d, hd, hgoes⟩ := hon e rfl he
        obtain ⟨ds, rfl⟩ := List.head?_eq_some_iff.mp hd
        rw [List.takeWhile_cons_of_pos hgoes] at hstop
        cases hstop
    rw [hnone, List.length_nil]
    omega
  · simp only [List.cons_append, commentLength?, endFrom?_append hm, Option.map_some, List.length_cons,
      Option.some.injEq]
    omega

/-- The second text is the first one with a space in place of a comment. -/
inductive Spaced : List Char → List Char → Prop where
  | here {c : List Char} (hc : Fits comment c) (v : List Char) : Spaced (c ++ v) (' ' :: v)
  | behind {cs ds : List Char} (a : Char) (h : Spaced cs ds) : Spaced (a :: cs) (a :: ds)

namespace Spaced

theorem append (h : Spaced cs ds) (w : List Char) : Spaced (w ++ cs) (w ++ ds) := by
  induction w with
  | nil => exact h
  | cons a w ih => exact .behind a ih

theorem exists_append (h : Spaced cs ds) :
    ∃ x c v, Fits comment c ∧ cs = x ++ (c ++ v) ∧ ds = x ++ ' ' :: v := by
  induction h with
  | @here c hc v => exact ⟨[], c, v, hc, rfl, rfl⟩
  | behind a _ ih =>
    obtain ⟨x, c, v, hc, rfl, rfl⟩ := ih
    exact ⟨a :: x, c, v, hc, rfl, rfl⟩

theorem head? (h : Spaced cs ds) : ds.head? = cs.head? ∨ cs.head? = some '/' ∧ ds.head? = some ' ' := by
  cases h with
  | here hc v =>
    obtain ⟨m, rfl⟩ := exists_cons_of_comment hc
    exact .inr ⟨rfl, rfl⟩
  | behind a h => exact .inl rfl

theorem isPrefixOf_eq (h : Spaced cs ds) {p : List Char} (hslash : '/' ∉ p) (hspace : ' ' ∉ p) :
    p.isPrefixOf ds = p.isPrefixOf cs := by
  induction h generalizing p with
  | here hc v =>
    cases p with
    | nil => rfl
    | cons a p =>
      simp only [List.mem_cons, not_or] at hslash hspace
      have hne : (a == '/') = false ∧ (a == ' ') = false :=
        ⟨beq_eq_false_iff_ne.mpr (Ne.symm hslash.1), beq_eq_false_iff_ne.mpr (Ne.symm hspace.1)⟩
      obtain ⟨m, rfl⟩ := exists_cons_of_comment hc
      simp [List.isPrefixOf, hne]
  | behind b h ih =>
    cases p with
    | nil => rfl
    | cons a p =>
      simp only [List.mem_cons, not_or] at hslash hspace
      simp only [List.isPrefixOf, ih hslash.2 hspace.2]

theorem of_append {p : List Char} (h : Spaced (p ++ cs) ds) (hslash : '/' ∉ p) :
    ∃ es, ds = p ++ es ∧ Spaced cs es := by
  induction p generalizing ds with
  | nil => exact ⟨ds, rfl, h⟩
  | cons a p ih =>
    simp only [List.mem_cons, not_or] at hslash
    generalize hbs : a :: p ++ cs = bs at h
    cases h with
    | here hc v =>
      obtain ⟨m, rfl⟩ := exists_cons_of_comment hc
      exact absurd (List.cons.inj hbs).1.symm hslash.1
    | behind b h =>
      obtain ⟨rfl, rfl⟩ := List.cons.inj hbs
      obtain ⟨es, rfl, hes⟩ := ih h hslash.2
      exact ⟨es, rfl, hes⟩

theorem goesOn_head? (h : Spaced cs ds) : ∀ c ∈ ds.head?, goesOn c → ∃ d ∈ cs.head?, goesOn d := by
  intro c hc hgoes
  obtain heq | ⟨heq, -⟩ := h.head?
  · exact ⟨c, heq ▸ hc, hgoes⟩
  · exact ⟨'/', heq, by decide⟩

end Spaced

theorem isSome_endFrom?_blockTurn (h : (endFrom? blockTurn false cs).isSome) (star : Bool) :
    (endFrom? blockTurn star cs).isSome := by
  cases star with
  | false => exact h
  | true =>
    cases cs with
    | nil => cases h
    | cons c cs =>
      by_cases hc : c = '/'
      · simp [endFrom?, blockTurn, hc]
      · have hturn : blockTurn true c = blockTurn false c := by simp [blockTurn, hc]
        rw [endFrom?] at h ⊢
        rwa [hturn]

theorem blockTurn_of_ne_nul (hc : c ≠ nul) (star : Bool) :
    blockTurn star c = .ends ∨ blockTurn star c = .goes (c == '*') := by
  rw [blockTurn]
  split
  · exact .inl rfl
  · rw [if_neg (by simpa using hc)]
    exact .inr rfl

theorem isSome_endFrom?_append (hnul : nul ∉ cs) (h : (endFrom? blockTurn false ds).isSome) :
    (endFrom? blockTurn star (cs ++ ds)).isSome := by
  induction cs generalizing star with
  | nil => exact isSome_endFrom?_blockTurn h star
  | cons c cs ih =>
    simp only [List.mem_cons, not_or] at hnul
    rw [List.cons_append, endFrom?]
    obtain hturn | hturn := blockTurn_of_ne_nul (Ne.symm hnul.1) star
    · rw [hturn]
      rfl
    · rw [hturn]
      simpa using ih hnul.2

namespace Spaced

/-- A block comment with an end keeps one, if perhaps another, when a comment takes the place of a space. -/
theorem isSome_endFrom? (h : Spaced cs ds) (hend : (endFrom? blockTurn star ds).isSome) :
    (endFrom? blockTurn star cs).isSome := by
  induction h generalizing star with
  | here hc v =>
    refine isSome_endFrom?_append (hc.not_mem (by decide)) ?_
    have hspace : blockTurn star ' ' = .goes false := by cases star <;> rfl
    rw [endFrom?, hspace] at hend
    simpa using hend
  | behind a h ih =>
    rw [endFrom?] at hend ⊢
    cases hturn : blockTurn star a with
    | ends => rfl
    | fails =>
      rw [hturn] at hend
      cases hend
    | goes t =>
      rw [hturn] at hend
      simp only [Option.isSome_map] at hend ⊢
      exact ih hend

/-- Where no comment is at the front there is none if a space takes the place of one farther on. -/
theorem longest_comment_eq_none {a : Char} (h : Spaced cs ds) (hnone : comment.longest (a :: cs) = none) :
    comment.longest (a :: ds) = none := by
  rw [longest_comment] at hnone ⊢
  rw [commentLength?.eq_def]
  split
  · rename_i es heq
    obtain ⟨rfl, rfl⟩ := List.cons.inj heq
    cases h with
    | behind _ h => cases hnone
  · rename_i es heq
    obtain ⟨rfl, rfl⟩ := List.cons.inj heq
    cases h with
    | @behind cs _ _ h =>
      have hopen : endFrom? blockTurn false cs = none := Option.map_eq_none_iff.mp hnone
      refine Option.map_eq_none_iff.mpr (Option.not_isSome_iff_eq_none.mp fun hend => ?_)
      have hsome := h.isSome_endFrom? hend
      rw [hopen] at hsome
      cases hsome
  · rfl

end Spaced

end ClassLocator.Java.Lexer

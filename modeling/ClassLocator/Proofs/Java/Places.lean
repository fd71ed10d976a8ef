import ClassLocator.Proofs.Java.Lexeme

namespace ClassLocator.Java

open Text.Pattern

namespace Location

variable {a b c : Location}

theorem isBefore_iff : a.isBefore b ↔ a.line < b.line ∨ a.line = b.line ∧ a.column < b.column := by
  simp [isBefore]

theorem isBefore_push (a : Location) (c : Char) : a.isBefore (a.push c) := by
  have hpos := c.utf8Size_pos
  rw [isBefore_iff, push]
  split
  · exact .inl (Nat.lt_succ_self _)
  · exact .inr ⟨rfl, by simpa using hpos⟩

theorem isBefore_trans (hab : a.isBefore b) (hbc : b.isBefore c) : a.isBefore c := by
  rw [isBefore_iff] at *
  omega

theorem isBefore_irrefl (a : Location) : ¬a.isBefore a := by
  rw [isBefore_iff]
  omega

theorem isBefore_advance {cs : List Char} (hcs : cs ≠ []) (a : Location) : a.isBefore (a.advance cs) := by
  induction cs generalizing a with
  | nil => exact absurd rfl hcs
  | cons d cs ih =>
    have hpush := a.isBefore_push d
    by_cases hnil : cs = []
    · subst hnil
      exact hpush
    · exact isBefore_trans hpush (ih hnil (a.push d))

end Location

namespace Lexer

def InOrder (tokens : List Token) : Prop := tokens.Pairwise fun x y => x.after.isBefore y.after

/-- The tokens so far, the last one first, and a place behind them. -/
def OrderedUpTo (before : List Token) (after : Location) : Prop :=
  InOrder before.reverse ∧ ∀ x ∈ before, x.after.isBefore after

variable {before : List Token} {after place : Location}

theorem OrderedUpTo.of_isBefore (h : OrderedUpTo before after) (hplace : after.isBefore place) :
    OrderedUpTo before place :=
  ⟨h.1, fun x hx => Location.isBefore_trans (h.2 x hx) hplace⟩

theorem OrderedUpTo.concat (h : OrderedUpTo before after) {t : Token} (ht : t.after = after) :
    InOrder (t :: before).reverse := by
  rw [List.reverse_cons, InOrder, List.pairwise_append]
  refine ⟨h.1, List.pairwise_singleton _ t, fun x hx y hy => ?_⟩
  rw [List.mem_singleton.mp hy, ht]
  exact h.2 x (List.mem_reverse.mp hx)

theorem OrderedUpTo.cons (h : OrderedUpTo before after) {t : Token} (ht : t.after = after)
    (hplace : after.isBefore place) : OrderedUpTo (t :: before) place := by
  refine ⟨h.concat ht, List.forall_mem_cons.mpr ⟨ht ▸ hplace, ?_⟩⟩
  exact (h.of_isBefore hplace).2

/-- What was passed since the last token moves the place on, and so does each token. -/
theorem inOrder_lexFrom {fuel : Nat} {texts : List OpenText} {cs : List Char} {lead : List Trivia}
    (h : OrderedUpTo before after) (hplace : place = after ∨ after.isBefore place) :
    InOrder (lexFrom fuel texts cs place after lead before) := by
  induction fuel generalizing texts cs place after lead before with
  | zero => exact h.concat rfl
  | succ fuel ih =>
    have hadvance {w : List Char} (hw : w ≠ []) : after.isBefore (place.advance w) := by
      rcases hplace with rfl | hplace
      · exact Location.isBefore_advance hw _
      · exact Location.isBefore_trans hplace (Location.isBefore_advance hw _)
    cases cs with
    | nil => exact h.concat rfl
    | cons c cs =>
      rw [lexFrom]
      split
      · exact ih h (.inr (hadvance (by simp)))
      · cases hcomment : comment.longest (c :: cs) with
        | some n =>
          obtain ⟨w, hw, rfl⟩ := longest_eq_some_iff.mp hcomment
          obtain ⟨m, rfl⟩ := exists_cons_of_comment hw.fits
          exact ih (h.of_isBefore (hadvance (by simp))) (.inl rfl)
        | none =>
          obtain ⟨w, ds, hsplit, hlength, hne⟩ :=
            exists_of_nextLexeme (b := isBehindNon lead before) (List.cons_ne_nil c cs) texts
          have htake : (c :: cs).take w.length ≠ [] := by rw [hsplit, List.take_left]; exact hne
          dsimp only
          rw [hlength]
          exact ih (h.cons rfl (hadvance htake)) (.inl rfl)

theorem nodup_lex (source : String) : (lex source).Nodup := by
  have hordered : InOrder (lex source) := by
    have hstart (place : Location) : OrderedUpTo [] place := ⟨.nil, by simp⟩
    rw [lex]
    cases source.toList with
    | nil => exact inOrder_lexFrom (hstart _) (.inl rfl)
    | cons c cs =>
      dsimp only
      split
      · exact inOrder_lexFrom (hstart _) (.inr (Location.isBefore_push _ c))
      · exact inOrder_lexFrom (hstart _) (.inl rfl)
  refine hordered.imp fun h heq => ?_
  exact Location.isBefore_irrefl _ (heq ▸ h)

end Lexer

end ClassLocator.Java

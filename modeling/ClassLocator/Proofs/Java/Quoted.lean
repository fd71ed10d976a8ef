import ClassLocator.Proofs.Java.Comment
/-!
Characters and texts in quotation marks. Main statements: where a character, or a piece of a text in a line,
ends does not depend on what follows; where a piece of a text block ends does not change if a space takes
the place of a comment behind it.
-/

namespace ClassLocator.Java.Lexer

open Text (Pattern Turn endFrom? stateBehind? stateBehind?_append endFrom?_behind)
open Text.Pattern

variable {c d mark : Char} {cs ds u v w : List Char} {n : Nat}

def quoteTurn (mark : Char) (stops : Char → Bool) : (escaped : Bool) → Char → Turn Bool
  | true, c => if stops c then .ends else .goes false
  | false, c => if c == mark then .ends else .goes (c == '\\')

theorem stateBehind?_quoteTurn {stops : Char → Bool} (hm : mark ∉ w) (hb : '\\' ∉ w) :
    stateBehind? (quoteTurn mark stops) false w = some false := by
  induction w with
  | nil => rfl
  | cons c w ih =>
    simp only [List.mem_cons, not_or] at hm hb
    have hmark : (c == mark) = false := beq_eq_false_iff_ne.mpr (Ne.symm hm.1)
    have hback : (c == '\\') = false := beq_eq_false_iff_ne.mpr (Ne.symm hb.1)
    simp only [stateBehind?, quoteTurn, hmark, hback]
    exact ih hm.2 hb.2

theorem stateBehind?_escape {stops : Char → Bool} (hmark : mark ≠ '\\') (hc : ¬stops c) (hm : mark ∉ w)
    (hb : '\\' ∉ w) : stateBehind? (quoteTurn mark stops) false ('\\' :: c :: w) = some false := by
  have hback : ('\\' == mark) = false := beq_eq_false_iff_ne.mpr (Ne.symm hmark)
  simp only [Bool.not_eq_true] at hc
  simp [stateBehind?, quoteTurn, hback, hc, stateBehind?_quoteTurn hm hb]

theorem endFrom?_mark {stops : Char → Bool} (h : stateBehind? (quoteTurn mark stops) false w = some false) :
    endFrom? (quoteTurn mark stops) false (w ++ [mark]) = some (w ++ [mark]).length := by
  simp [endFrom?_behind h, endFrom?, quoteTurn]

def characterItem : Pattern :=
  either (noneOf ['\\', '\'', '\n', nul]) (both (char '\\') (noneOf [nul]))

theorem stateBehind?_characterItem (h : Fits characterItem w) :
    stateBehind? (quoteTurn '\'' fun _ => false) false w = some false := by
  rcases fits_either_iff.mp h with h | h
  · obtain ⟨c, hc, rfl⟩ := fits_one_iff.mp h
    simp only [List.contains_cons, Bool.not_eq_true', Bool.or_eq_false_iff, beq_eq_false_iff_ne] at hc
    exact stateBehind?_quoteTurn (by simpa [eq_comm] using hc.2.1) (by simpa [eq_comm] using hc.1)
  · obtain ⟨u, v, hu, hv, rfl⟩ := fits_both_iff.mp h
    obtain rfl := fits_char_iff.mp hu
    obtain ⟨c, -, rfl⟩ := fits_one_iff.mp hv
    exact stateBehind?_escape (by decide) (by simp) (by simp) (by simp)

theorem exists_of_fits_character (h : Fits character w) : ∃ m, w = '\'' :: m ∧
    endFrom? (quoteTurn '\'' fun _ => false) false m = some m.length := by
  have hseq : Fits (seq [char '\'', some1 characterItem, char '\'']) w := h
  simp only [fits_seq_cons_iff, fits_both_iff, fits_char_iff, fits_seq_nil_iff] at hseq
  obtain ⟨u, v, rfl, ⟨m, r, hm, ⟨a, b, rfl, rfl, rfl⟩, rfl⟩, rfl⟩ := hseq
  obtain ⟨x, y, hx, hy, rfl⟩ := fits_both_iff.mp hm
  refine ⟨x ++ y ++ ['\''], rfl, endFrom?_mark ?_⟩
  rw [stateBehind?_append (stateBehind?_characterItem hx)]
  exact stateBehind?_of_many (fun w hw => stateBehind?_characterItem hw) hy

theorem prefixFree_character : character.PrefixFree := by
  intro u v hu huv
  obtain ⟨m, rfl, hm⟩ := exists_of_fits_character hu
  obtain ⟨m', heq, hm'⟩ := exists_of_fits_character huv
  obtain rfl : m ++ v = m' := (List.cons.inj heq).2
  rw [Text.endFrom?_append hm v, Option.some.injEq, List.length_append] at hm'
  exact List.eq_nil_of_length_eq_zero (by omega)

def escapeBodies : List Pattern :=
  let octal := one fun c => isDigit c && c ≤ '7'
  let hex := one isHexDigit
  [noneOf ['x', 'u', '0', '1', '2', '3', '4', '5', '6', '7', '\x7b', nul],
    seq [octal, opt octal, opt octal],
    seq [char 'x', hex, hex],
    seq [char 'u', hex, hex, hex, hex],
    seq [Pattern.word "u\x7b", some1 hex, char '\x7d']]

/-- What may follow a backslash: a character that does not open an expression, and others that are neither
marks nor backslashes. -/
def IsEscapeBody (w : List Char) : Prop :=
  ∃ c m, w = c :: m ∧ c ≠ '\x7b' ∧ '"' ∉ m ∧ '\\' ∉ m

theorem isEscapeBody_of_avoids {p : Pattern} (he : p.fitsEmpty = false) (hb : p.behind '\x7b' = nothing)
    (hm : p.avoids '"') (hs : p.avoids '\\') (h : Fits p w) : IsEscapeBody w := by
  cases w with
  | nil =>
    rw [fitsEmpty_iff.mpr h] at he
    cases he
  | cons c m =>
    have hmark := h.not_mem hm
    have hslash := h.not_mem hs
    simp only [List.mem_cons, not_or] at hmark hslash
    refine ⟨c, m, rfl, ?_, hmark.2, hslash.2⟩
    rintro rfl
    rw [← fits_behind_iff, hb] at h
    exact not_fits_nothing h

theorem exists_of_fits_escape (h : Fits escape w) : ∃ v, w = '\\' :: v ∧ IsEscapeBody v := by
  have hboth : Fits (both (char '\\') (alt escapeBodies)) w := h
  obtain ⟨u, v, hu, hv, rfl⟩ := fits_both_iff.mp hboth
  obtain rfl := fits_char_iff.mp hu
  refine ⟨v, rfl, ?_⟩
  simp only [escapeBodies, fits_alt_iff, List.exists_mem_cons_iff, List.not_mem_nil, false_and, exists_false,
    or_false] at hv
  rcases hv with hv | hv | hv | hv | hv
  · obtain ⟨c, hc, rfl⟩ := fits_one_iff.mp hv
    refine ⟨c, [], rfl, ?_, List.not_mem_nil, List.not_mem_nil⟩
    rintro rfl
    exact absurd hc (by decide)
  · exact isEscapeBody_of_avoids (by decide) rfl (by decide) (by decide) hv
  · exact isEscapeBody_of_avoids (by decide) rfl (by decide) (by decide) hv
  · exact isEscapeBody_of_avoids (by decide) rfl (by decide) (by decide) hv
  · exact isEscapeBody_of_avoids (by decide) rfl (by decide) (by decide) hv

def lineBody : Pattern := many (either (noneOf ['"', '\\', nul]) escape)

def lineText : Pattern := both lineBody (char '"')

def lineStart : Pattern := both lineBody (Pattern.word "\\\x7b")

def opensExpression (c : Char) : Bool := c == '\x7b'

theorem stateBehind?_lineBody (h : Fits lineBody w) :
    stateBehind? (quoteTurn '"' opensExpression) false w = some false := by
  refine stateBehind?_of_many (fun w hw => ?_) h
  rcases fits_either_iff.mp hw with hw | hw
  · obtain ⟨c, hc, rfl⟩ := fits_one_iff.mp hw
    simp only [List.contains_cons, Bool.not_eq_true', Bool.or_eq_false_iff, beq_eq_false_iff_ne] at hc
    exact stateBehind?_quoteTurn (by simpa [eq_comm] using hc.1) (by simpa [eq_comm] using hc.2.1)
  · obtain ⟨_, rfl, c, m, rfl, hc, hm, hs⟩ := exists_of_fits_escape hw
    exact stateBehind?_escape (by decide) (by simpa [opensExpression] using hc) hm hs

theorem endFrom?_line (h : Fits (either lineText lineStart) w) :
    endFrom? (quoteTurn '"' opensExpression) false w = some w.length := by
  rcases fits_either_iff.mp h with h | h
  · obtain ⟨u, v, hu, hv, rfl⟩ := fits_both_iff.mp h
    obtain rfl := fits_char_iff.mp hv
    exact endFrom?_mark (stateBehind?_lineBody hu)
  · obtain ⟨u, v, hu, hv, rfl⟩ := fits_both_iff.mp h
    obtain rfl : v = ['\\', '\x7b'] := fits_word_iff.mp hv
    simp [endFrom?_behind (stateBehind?_lineBody hu), endFrom?, quoteTurn, opensExpression]

theorem linePiece_eq (cs : List Char) : linePiece cs =
    match lineText.longest cs with
    | some n => some (n, .marks)
    | none => (lineStart.longest cs).map (·, .brace) := rfl

/-- A piece of a text in a line ends where it does whatever follows. -/
theorem linePiece_append {e : PieceEnd} (h : linePiece (w ++ cs) = some (w.length, e)) (ds : List Char) :
    linePiece (w ++ ds) = some (w.length, e) := by
  have hfree : (either lineText lineStart).PrefixFree := prefixFree_of_endFrom? fun w => endFrom?_line
  rw [linePiece_eq] at h ⊢
  cases hmarks : lineText.longest (w ++ cs) with
  | some n =>
    rw [hmarks] at h
    obtain ⟨rfl, rfl⟩ : n = w.length ∧ .marks = e := by simpa using h
    have hw := fits_of_longest hmarks
    have htext : lineText.PrefixFree := fun u v hu huv => hfree u v (.first hu) (.first huv)
    rw [htext.longest_append hw ds]
  | none =>
    rw [hmarks] at h
    obtain ⟨hbrace, rfl⟩ : lineStart.longest (w ++ cs) = some w.length ∧ .brace = e := by simpa using h
    have hw := fits_of_longest hbrace
    have hstart : lineStart.PrefixFree := fun u v hu huv => hfree u v (.second hu) (.second huv)
    have hnone : lineText.longest (w ++ ds) = none := by
      refine longest_eq_none_iff.mpr fun u hu hfits => ?_
      refine longest_eq_none_iff.mp hmarks u ?_ hfits
      obtain hle | ⟨v, rfl⟩ := List.prefix_or_prefix_of_prefix hu (List.prefix_append w ds)
      · exact hle.trans (List.prefix_append w cs)
      · rw [hfree w v (.second hw) (.first hfits), List.append_nil]
        exact List.prefix_append w cs
    rw [hnone, hstart.longest_append hw ds]
    rfl

def closing : PieceEnd → List Char
  | .marks => ['"', '"', '"']
  | .brace => ['\\', '\x7b']

/-- A mark or a backslash farther on stops every escape in front of it. -/
theorem longest_escape_append (h : '"' ∈ u.drop 2 ∨ '\\' ∈ u.drop 2) (cs ds : List Char) :
    escape.longest (u ++ cs) = escape.longest (u ++ ds) := by
  have hwithin : ∀ es w, Fits escape w → w <+: u ++ es → w <+: u := by
    intro es w hw hbegins
    obtain hle | ⟨v, rfl⟩ := List.prefix_or_prefix_of_prefix hbegins (List.prefix_append u es)
    · exact hle
    · obtain ⟨_, heq, c, m, rfl, -, hm, hs⟩ := exists_of_fits_escape hw
      have hsub : u.drop 2 ⊆ m := by
        have hdrop : (u ++ v).drop 2 = m := by rw [heq]; rfl
        intro d hd
        rw [← hdrop, List.drop_append]
        exact List.mem_append_left _ hd
      exact absurd h (not_or.mpr ⟨fun hd => hm (hsub hd), fun hd => hs (hsub hd)⟩)
  refine longest_congr fun w hw => ⟨fun hbegins => ?_, fun hbegins => ?_⟩
  · exact (hwithin cs w hw hbegins).trans (List.prefix_append u ds)
  · exact (hwithin ds w hw hbegins).trans (List.prefix_append u cs)

theorem takeWhile_append_of_lt {p : Char → Bool} (h : ((u ++ cs).takeWhile p).length < u.length)
    (ds : List Char) : (u ++ ds).takeWhile p = (u ++ cs).takeWhile p := by
  rw [List.takeWhile_append] at h ⊢
  split
  · rename_i hall
    rw [if_pos hall, List.length_append] at h
    omega
  · rename_i hall
    rw [List.takeWhile_append, if_neg hall]

theorem commentBehindGap_eq (hu : ∀ c ∈ u, isGap c) (hcs : ∀ c ∈ cs.head?, ¬isGap c) :
    commentBehindGap (u ++ cs) = (comment.longest cs).map (u.length + ·) := by
  have hstop : cs.takeWhile isGap = [] := by
    cases cs with
    | nil => rfl
    | cons c cs => exact List.takeWhile_cons_of_neg (hcs c rfl)
  rw [commentBehindGap, List.takeWhile_append_of_pos hu, hstop, List.append_nil, List.drop_left]

theorem exists_gap (cs : List Char) :
    ∃ u v, cs = u ++ v ∧ (∀ c ∈ u, isGap c) ∧ ∀ c ∈ v.head?, ¬isGap c := by
  refine ⟨cs.takeWhile isGap, cs.dropWhile isGap, List.takeWhile_append_dropWhile.symm,
    fun c hc => List.mem_takeWhile_imp hc, fun c hc => ?_⟩
  have h := List.head?_dropWhile_not isGap cs
  rw [Option.mem_def.mp hc] at h
  simpa using h

theorem commentBehindGap_append (h : commentBehindGap (w ++ cs) = some w.length)
    (hhead : ds.head? = cs.head?) : commentBehindGap (w ++ ds) = some w.length := by
  obtain ⟨u, v, huv, hu, hv⟩ := exists_gap (w ++ cs)
  rw [huv, commentBehindGap_eq hu hv] at h
  obtain ⟨k, hk, hlength⟩ := Option.map_eq_some_iff.mp h
  obtain ⟨x, rfl⟩ : u <+: w :=
    List.prefix_of_prefix_length_le ⟨v, huv.symm⟩ (List.prefix_append w cs) (by omega)
  obtain rfl : x ++ cs = v := by simpa using huv
  obtain rfl : k = x.length := by simpa using hlength
  obtain ⟨m, rfl⟩ := exists_cons_of_comment (fits_of_longest hk)
  have hcomment : comment.longest ('/' :: m ++ ds) = some ('/' :: m).length :=
    longest_comment_append hk fun d hd _ => ⟨d, hhead ▸ hd, ‹_›⟩
  have hstop : ∀ d ∈ ('/' :: m ++ ds).head?, ¬isGap d := fun d hd => hv d hd
  rw [List.append_assoc, commentBehindGap_eq hu hstop, hcomment, Option.map_some, List.length_append]

/-- A comment that reaches farther than a stretch of text does so also where a comment takes the place of a
space behind the stretch. -/
theorem filter_commentBehindGap (hs : Spaced cs ds) (hd : ¬isGap d)
    (h : (commentBehindGap (w ++ d :: cs)).filter (w.length < ·) = none) :
    (commentBehindGap (w ++ d :: ds)).filter (w.length < ·) = none := by
  obtain ⟨u, v, rfl, hu, hv⟩ := exists_gap w
  have hhead : ∀ es, ∀ c ∈ (v ++ d :: es).head?, ¬isGap c := by
    intro es c hc
    cases v with
    | nil =>
      obtain rfl : d = c := Option.some.inj hc
      exact hd
    | cons e v => exact hv c hc
  rw [List.append_assoc, commentBehindGap_eq hu (hhead _)] at h ⊢
  cases hnew : comment.longest (v ++ d :: ds) with
  | none => rfl
  | some k =>
    cases hold : comment.longest (v ++ d :: cs) with
    | none =>
      -- The space opens no comment.
      have hnone : comment.longest (v ++ d :: ds) = none := by
        cases v with
        | nil => exact hs.longest_comment_eq_none hold
        | cons e v => exact ((hs.behind d).append v).longest_comment_eq_none hold
      rw [hnew] at hnone
      cases hnone
    | some m =>
      -- The old comment ends within the stretch, where it is the new one as well.
      rw [hold] at h
      have hm : m ≤ v.length := by
        by_contra hlt
        simp at h
        omega
      obtain ⟨x, y, rfl, rfl⟩ : ∃ x y, v = x ++ y ∧ x.length = m :=
        ⟨v.take m, v.drop m, (List.take_append_drop m v).symm, by simp [hm]⟩
      rw [List.append_assoc] at hold hnew
      have hsame : comment.longest (x ++ (y ++ d :: ds)) = some x.length := by
        refine longest_comment_append hold fun c hc hon => ⟨c, ?_, hon⟩
        cases y with
        | nil => exact hc
        | cons e y => exact hc
      obtain rfl : x.length = k := by
        rw [hsame] at hnew
        exact Option.some.inj hnew
      exact h

/-- A piece `w` of a block that is read at a place, and read again where a space takes the place of a comment
behind it. -/
structure BlockRead (place : BlockPlace) (w cs : List Char) (e : PieceEnd) : Prop where
  closes : closing e <:+ w
  again : ∀ fuel n ds, Spaced cs ds → w.length < fuel →
    blockPiece fuel place n (w ++ ds) = some (n + w.length, e)

namespace BlockRead

variable {place place' : BlockPlace} {e : PieceEnd}

theorem two_le (h : BlockRead place w cs e) : 2 ≤ w.length := by
  have hlength := h.closes.length_le
  cases e with
  | marks =>
    simp only [closing, List.length_cons, List.length_nil] at hlength
    omega
  | brace => exact hlength

/-- One more turn in front, which takes the same characters whatever is behind the piece. -/
theorem turn (h : BlockRead place' w cs e)
    (hturn : ∀ fuel n ds, Spaced cs ds →
      blockPiece (fuel + 1) place n (u ++ w ++ ds) = blockPiece fuel place' (n + u.length) (w ++ ds))
    (hu : u ≠ []) : BlockRead place (u ++ w) cs e where
  closes := h.closes.trans (List.suffix_append u w)
  again := by
    intro fuel n ds hs hfuel
    have hpos := List.length_pos_iff.mpr hu
    rw [List.length_append] at hfuel
    obtain ⟨fuel, rfl⟩ := Nat.exists_eq_add_one.mpr (by omega : 0 < fuel)
    rw [hturn fuel n ds hs, h.again fuel _ ds hs (by omega), List.length_append, Nat.add_assoc]

theorem exists_cons_cons (h : BlockRead place w cs e) : ∃ c d v, w = c :: d :: v := by
  have hlength := h.two_le
  match w with
  | c :: d :: v => exact ⟨c, d, v, rfl⟩
  | [] | [_] => simp at hlength

theorem mem_or_mem (h : BlockRead place w cs e) : '"' ∈ w ∨ '\\' ∈ w := by
  cases e with
  | marks => exact .inl (h.closes.subset (by simp [closing]))
  | brace => exact .inr (h.closes.subset (by simp [closing]))

theorem of_closing (place : BlockPlace) (cs : List Char) (e : PieceEnd) :
    BlockRead place (closing e) cs e where
  closes := List.suffix_rfl
  again := by
    intro fuel n ds _ hfuel
    obtain ⟨fuel, rfl⟩ := Nat.exists_eq_add_one.mpr (by omega : 0 < fuel)
    cases e with
    | marks => rfl
    | brace => rfl

theorem quote (h : BlockRead .quoted w cs e) (hrest : ∀ tail, w ++ cs = '"' :: '"' :: tail → False) :
    BlockRead place ('"' :: w) cs e := by
  have hread : BlockRead place (['"'] ++ w) cs e := by
    refine h.turn (fun fuel n ds hs => ?_) (by simp)
    have hnot : ∀ tail, w ++ ds = '"' :: '"' :: tail → False := by
      obtain ⟨c, d, v, rfl⟩ := h.exists_cons_cons
      intro tail heq
      obtain ⟨rfl, rfl, -⟩ : c = '"' ∧ d = '"' ∧ v ++ ds = tail := by simpa using heq
      exact hrest (v ++ cs) rfl
    rw [List.append_assoc, List.singleton_append, blockPiece]
    · rfl
    · exact hnot
  exact hread

theorem escapeQuote (h : BlockRead .quoted w cs e) : BlockRead .quoted ('\\' :: '"' :: w) cs e := by
  have hread : BlockRead .quoted (['\\', '"'] ++ w) cs e :=
    h.turn (fun fuel n ds hs => rfl) (by simp)
  exact hread

theorem escape (h : BlockRead .start w cs e) (hc : c ≠ '\x7b') (hn : c ≠ nul)
    (hq : ¬(place = .quoted ∧ c = '"'))
    (hlength : (Lexer.escape.longest ('\\' :: c :: u ++ w ++ cs)).getD 2 = ('\\' :: c :: u).length) :
    BlockRead place ('\\' :: c :: u ++ w) cs e := by
  refine h.turn (fun fuel n ds hs => ?_) (by simp)
  have hstop : '"' ∈ ('\\' :: c :: u ++ w).drop 2 ∨ '\\' ∈ ('\\' :: c :: u ++ w).drop 2 :=
    h.mem_or_mem.imp (List.mem_append_right u) (List.mem_append_right u)
  rw [longest_escape_append hstop cs ds] at hlength
  simp only [List.cons_append] at hlength ⊢
  rw [blockPiece, if_neg hn, if_neg hq, hlength]
  · have hdrop : ('\\' :: c :: (u ++ w ++ ds)).drop ('\\' :: c :: u).length = w ++ ds := by simp
    simp only [hdrop]
  · exact hc

end BlockRead

def inStretch (c : Char) : Bool := c != '"' && c != '\\' && c != nul

/-- The length of a comment at the front that is longer than the stretch. -/
def hidden? (place : BlockPlace) (cs : List Char) : Option Nat :=
  if place = .start then (commentBehindGap cs).filter ((cs.takeWhile inStretch).length < ·) else none

section

variable {fuel k : Nat} {place : BlockPlace}

theorem not_isGap_of_not_inStretch (h : ¬inStretch c) : ¬isGap c := by
  obtain rfl | rfl | rfl : c = '"' ∨ c = '\\' ∨ c = nul := by
    simp only [inStretch, Bool.and_eq_true, bne_iff_ne, not_and, not_not] at h
    tauto
  · decide
  · decide
  · decide

theorem blockPiece_quote (h : ∀ tail, cs = '"' :: '"' :: tail → False) :
    blockPiece (fuel + 1) place n ('"' :: cs) = blockPiece fuel .quoted (n + 1) cs := by
  rw [blockPiece]
  exact h

theorem blockPiece_escape (hc : c ≠ '\x7b') : blockPiece (fuel + 1) place n ('\\' :: c :: cs) =
    if c = nul then none
    else if place = .quoted ∧ c = '"' then blockPiece fuel .quoted (n + 2) cs
    else blockPiece fuel .start (n + (escape.longest ('\\' :: c :: cs)).getD 2)
      (('\\' :: c :: cs).drop ((escape.longest ('\\' :: c :: cs)).getD 2)) := by
  rw [blockPiece]
  exact hc

theorem exists_of_hidden? (h : hidden? place (c :: cs) = some k) :
    ∃ u v, cs = u ++ v ∧ k = (c :: u).length := by
  rw [hidden?] at h
  split at h
  · rw [Option.filter_eq_some_iff, decide_eq_true_eq] at h
    obtain ⟨x, y, hxy, hx, hy⟩ := exists_gap (c :: cs)
    rw [hxy, commentBehindGap_eq hx hy] at h
    obtain ⟨n, hn, rfl⟩ := Option.map_eq_some_iff.mp h.1
    obtain ⟨w, hw, rfl⟩ := longest_eq_some_iff.mp hn
    obtain ⟨v, rfl⟩ := hw.begins
    obtain ⟨m, rfl⟩ := exists_cons_of_comment hw.fits
    rw [← List.append_assoc] at hxy
    obtain ⟨d, u, hxw⟩ : ∃ d u, x ++ '/' :: m = d :: u := List.exists_cons_of_ne_nil (by simp)
    rw [hxw] at hxy
    obtain ⟨rfl, rfl⟩ := List.cons.inj hxy
    exact ⟨u, v, rfl, by rw [← hxw, List.length_append]⟩
  · cases h

theorem blockPiece_hidden (hc : c ≠ '"') (hs : c ≠ '\\') (h : hidden? place (c :: cs) = some k) :
    blockPiece (fuel + 1) place n (c :: cs) = blockPiece fuel .start (n + k) ((c :: cs).drop k) := by
  rw [hidden?] at h
  rw [blockPiece]
  · unfold inStretch at h
    simp only [h]
  all_goals simp [hc, hs]

theorem blockPiece_stretch (hc : c ≠ '"') (hs : c ≠ '\\') (h : hidden? place (c :: cs) = none) :
    blockPiece (fuel + 1) place n (c :: cs) =
      if ((c :: cs).takeWhile inStretch).length = 0 then none
      else blockPiece fuel (if place = .quoted then .quoted else .plain)
        (n + ((c :: cs).takeWhile inStretch).length)
        ((c :: cs).drop ((c :: cs).takeWhile inStretch).length) := by
  rw [hidden?] at h
  rw [blockPiece]
  · unfold inStretch at h ⊢
    simp only [h]
  all_goals simp [hc, hs]

end

namespace BlockRead

variable {place : BlockPlace} {e : PieceEnd}

theorem head?_eq (h : BlockRead place w cs e) (ds es : List Char) :
    (w ++ ds).head? = (w ++ es).head? := by
  obtain ⟨c, d, v, rfl⟩ := h.exists_cons_cons
  rfl

theorem hidden (h : BlockRead .start w cs e) (hc : c ≠ '"') (hs : c ≠ '\\')
    (hk : hidden? place (c :: u ++ (w ++ cs)) = some (c :: u).length) :
    BlockRead place (c :: u ++ w) cs e := by
  refine h.turn (fun fuel n ds _ => ?_) (by simp)
  have hnew : hidden? place (c :: u ++ (w ++ ds)) = some (c :: u).length := by
    rw [hidden?] at hk ⊢
    split at hk
    · rename_i hplace
      rw [Option.filter_eq_some_iff, decide_eq_true_eq] at hk
      rw [if_pos hplace, Option.filter_eq_some_iff, decide_eq_true_eq,
        takeWhile_append_of_lt hk.2 (w ++ ds)]
      exact ⟨commentBehindGap_append hk.1 (h.head?_eq ds cs), hk.2⟩
    · cases hk
  have hdrop : (c :: u ++ (w ++ ds)).drop (c :: u).length = w ++ ds := List.drop_left
  simp only [List.append_assoc, List.cons_append] at hnew hdrop ⊢
  rw [blockPiece_hidden hc hs hnew, hdrop]

theorem stretch {place' : BlockPlace} (h : BlockRead place' w cs e) (hc : c ≠ '"') (hs : c ≠ '\\')
    (hplace : (if place = .quoted then .quoted else .plain) = place')
    (hu : (c :: u ++ (w ++ cs)).takeWhile inStretch = c :: u)
    (hk : hidden? place (c :: u ++ (w ++ cs)) = none) : BlockRead place (c :: u ++ w) cs e := by
  obtain ⟨d, v, rfl⟩ : ∃ d v, w = d :: v := by
    obtain ⟨d, _, v, rfl⟩ := h.exists_cons_cons
    exact ⟨d, _, rfl⟩
  have hall : ∀ x ∈ c :: u, inStretch x := fun x hx => List.mem_takeWhile_imp (hu ▸ hx)
  have hd : ¬inStretch d := by
    intro hd
    have hstop : (d :: (v ++ cs)).takeWhile inStretch = [] :=
      List.append_cancel_left (hu.symm.trans (List.takeWhile_append_of_pos hall) |>.symm.trans (by simp))
    rw [List.takeWhile_cons_of_pos hd] at hstop
    cases hstop
  have htake : ∀ es, (c :: u ++ (d :: v ++ es)).takeWhile inStretch = c :: u := by
    intro es
    have hstop : (d :: v ++ es).takeWhile inStretch = [] := List.takeWhile_cons_of_neg hd
    rw [List.takeWhile_append_of_pos hall, hstop, List.append_nil]
  refine h.turn (fun fuel n ds hspaced => ?_) (by simp)
  have hnone : hidden? place (c :: u ++ (d :: v ++ ds)) = none := by
    rw [hidden?, htake] at hk ⊢
    split
    · rename_i hstart
      rw [if_pos hstart] at hk
      exact filter_commentBehindGap (hspaced.append v) (not_isGap_of_not_inStretch hd) hk
    · rfl
  have hdrop : (c :: u ++ (d :: v ++ ds)).drop (c :: u).length = d :: v ++ ds := List.drop_left
  have htake := htake ds
  simp only [List.append_assoc, List.cons_append] at hnone hdrop htake ⊢
  rw [blockPiece_stretch hc hs hnone, htake, hdrop, hplace, if_neg (by simp)]

end BlockRead

theorem exists_escape (c : Char) (cs : List Char) :
    ∃ u v, cs = u ++ v ∧ (escape.longest ('\\' :: c :: cs)).getD 2 = ('\\' :: c :: u).length := by
  cases h : escape.longest ('\\' :: c :: cs) with
  | none => exact ⟨[], cs, rfl, rfl⟩
  | some n =>
    obtain ⟨w, hw, rfl⟩ := longest_eq_some_iff.mp h
    obtain ⟨_, rfl, d, m, rfl, -⟩ := exists_of_fits_escape hw.fits
    obtain ⟨v, hv⟩ := hw.begins
    obtain ⟨rfl, rfl⟩ : d = c ∧ m ++ v = cs := by simpa using hv
    exact ⟨m, v, rfl, rfl⟩

def ReadsBlocks (fuel : Nat) : Prop :=
  ∀ (place : BlockPlace) (n : Nat) (cs : List Char) (m : Nat) (e : PieceEnd),
    blockPiece fuel place n cs = some (m, e) →
      ∃ w ds, cs = w ++ ds ∧ m = n + w.length ∧ BlockRead place w ds e

namespace ReadsBlocks

variable {fuel m : Nat} {place : BlockPlace} {e : PieceEnd}

theorem escaped (ih : ReadsBlocks fuel) (hc : c ≠ '\x7b')
    (h : blockPiece (fuel + 1) place n ('\\' :: c :: cs) = some (m, e)) :
    ∃ w ds, '\\' :: c :: cs = w ++ ds ∧ m = n + w.length ∧ BlockRead place w ds e := by
  rw [blockPiece_escape hc] at h
  split at h
  · cases h
  · rename_i hn
    split at h
    · rename_i hq
      obtain ⟨rfl, rfl⟩ := hq
      obtain ⟨w, ds, rfl, rfl, hw⟩ := ih _ _ _ _ _ h
      exact ⟨'\\' :: '"' :: w, ds, rfl, by simp; omega, hw.escapeQuote⟩
    · rename_i hq
      obtain ⟨u, v, rfl, hlength⟩ := exists_escape c cs
      have hdrop : ('\\' :: c :: (u ++ v)).drop ('\\' :: c :: u).length = v := by simp
      rw [hlength, hdrop] at h
      obtain ⟨w, ds, rfl, rfl, hw⟩ := ih _ _ _ _ _ h
      refine ⟨'\\' :: c :: u ++ w, ds, by simp, by simp; omega, hw.escape hc hn hq ?_⟩
      simpa using hlength

theorem plain (ih : ReadsBlocks fuel) (hc : c ≠ '"') (hs : c ≠ '\\')
    (h : blockPiece (fuel + 1) place n (c :: cs) = some (m, e)) :
    ∃ w ds, c :: cs = w ++ ds ∧ m = n + w.length ∧ BlockRead place w ds e := by
  cases hk : hidden? place (c :: cs) with
  | some k =>
    rw [blockPiece_hidden hc hs hk] at h
    obtain ⟨u, v, rfl, rfl⟩ := exists_of_hidden? hk
    have hdrop : (c :: (u ++ v)).drop (c :: u).length = v := by simp
    rw [hdrop] at h
    obtain ⟨w, ds, rfl, rfl, hw⟩ := ih _ _ _ _ _ h
    exact ⟨c :: u ++ w, ds, by simp, by simp; omega, hw.hidden hc hs hk⟩
  | none =>
    rw [blockPiece_stretch hc hs hk] at h
    split at h
    · cases h
    · rename_i hne
      have hin : inStretch c := by
        by_contra hin
        rw [List.takeWhile_cons_of_neg hin] at hne
        exact hne rfl
      obtain ⟨u, v, rfl, htake⟩ : ∃ u v, cs = u ++ v ∧ (c :: cs).takeWhile inStretch = c :: u :=
        ⟨_, _, List.takeWhile_append_dropWhile.symm, List.takeWhile_cons_of_pos hin⟩
      have hdrop : (c :: (u ++ v)).drop (c :: u).length = v := by simp
      rw [htake, hdrop] at h
      obtain ⟨w, ds, rfl, rfl, hw⟩ := ih _ _ _ _ _ h
      exact ⟨c :: u ++ w, ds, by simp, by simp; omega, hw.stretch hc hs rfl htake hk⟩

end ReadsBlocks

theorem readsBlocks (fuel : Nat) : ReadsBlocks fuel := by
  induction fuel with
  | zero =>
    intro place n cs m e h
    cases h
  | succ fuel ih =>
    intro place n cs m e h
    cases cs with
    | nil => cases h
    | cons c cs =>
      by_cases hc : c = '"'
      · subst hc
        by_cases hmarks : ∃ tail, cs = '"' :: '"' :: tail
        · obtain ⟨tail, rfl⟩ := hmarks
          obtain ⟨rfl, rfl⟩ : n + 3 = m ∧ .marks = e := by simpa [blockPiece] using h
          exact ⟨closing .marks, tail, rfl, rfl, .of_closing place tail .marks⟩
        · have hrest : ∀ tail, cs = '"' :: '"' :: tail → False := fun tail heq => hmarks ⟨tail, heq⟩
          rw [blockPiece_quote hrest] at h
          obtain ⟨w, ds, rfl, rfl, hw⟩ := ih _ _ _ _ _ h
          exact ⟨'"' :: w, ds, rfl, by simp; omega, hw.quote hrest⟩
      · by_cases hs : c = '\\'
        · subst hs
          cases cs with
          | nil => cases h
          | cons d cs =>
            by_cases hd : d = '\x7b'
            · subst hd
              obtain ⟨rfl, rfl⟩ : n + 2 = m ∧ .brace = e := by simpa [blockPiece] using h
              exact ⟨closing .brace, cs, rfl, rfl, .of_closing place cs .brace⟩
            · exact ih.escaped hd h
        · exact ih.plain hc hs h

end ClassLocator.Java.Lexer

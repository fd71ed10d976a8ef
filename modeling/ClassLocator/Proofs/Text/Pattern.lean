import ClassLocator.Text.Pattern
import Mathlib.Data.List.Basic

namespace ClassLocator.Text.Pattern

variable {p q : Pattern} {c : Char} {w u v cs : List Char}

inductive Fits : Pattern → List Char → Prop where
  | empty : Fits .empty []
  | one {accepts : Char → Bool} {c : Char} (h : accepts c = true) : Fits (.one accepts) [c]
  | both {p q : Pattern} {u v : List Char} (hp : Fits p u) (hq : Fits q v) : Fits (.both p q) (u ++ v)
  | first {p q : Pattern} {w : List Char} (h : Fits p w) : Fits (.either p q) w
  | second {p q : Pattern} {w : List Char} (h : Fits q w) : Fits (.either p q) w
  | done {p : Pattern} : Fits (.many p) []
  | more {p : Pattern} {u v : List Char} (h : Fits p u) (hs : Fits (.many p) v) :
      Fits (.many p) (u ++ v)

theorem not_fits_nothing : ¬Fits .nothing w := by
  intro h
  cases h

theorem fits_empty_iff : Fits .empty w ↔ w = [] := by
  constructor
  · intro h
    cases h
    rfl
  · intro h
    exact h ▸ .empty

theorem fits_one_iff {accepts : Char → Bool} :
    Fits (.one accepts) w ↔ ∃ c, accepts c = true ∧ w = [c] := by
  constructor
  · intro h
    cases h with
    | one h => exact ⟨_, h, rfl⟩
  · intro h
    obtain ⟨c, hc, rfl⟩ := h
    exact .one hc

theorem fits_both_iff : Fits (.both p q) w ↔ ∃ u v, Fits p u ∧ Fits q v ∧ w = u ++ v := by
  constructor
  · intro h
    cases h with
    | both hp hq => exact ⟨_, _, hp, hq, rfl⟩
  · intro h
    obtain ⟨u, v, hp, hq, rfl⟩ := h
    exact .both hp hq

theorem fits_both_assoc {r : Pattern} :
    Fits (both (both p q) r) w ↔ Fits (both p (both q r)) w := by
  simp only [fits_both_iff]
  constructor
  · intro h
    obtain ⟨_, v, ⟨a, b, ha, hb, rfl⟩, hv, rfl⟩ := h
    exact ⟨a, b ++ v, ha, ⟨b, v, hb, hv, rfl⟩, by simp⟩
  · intro h
    obtain ⟨u, _, hu, ⟨a, b, ha, hb, rfl⟩, rfl⟩ := h
    exact ⟨u ++ a, b, ⟨u, a, hu, ha, rfl⟩, hb, by simp⟩

theorem fits_either_iff : Fits (.either p q) w ↔ Fits p w ∨ Fits q w := by
  constructor
  · intro h
    cases h with
    | first h => exact .inl h
    | second h => exact .inr h
  · intro h
    exact h.elim .first .second

/-- A repetition is over, or it goes on with an item that is not empty. -/
theorem fits_many_iff : Fits (.many p) w ↔
    w = [] ∨ ∃ u v, u ≠ [] ∧ Fits p u ∧ Fits (.many p) v ∧ w = u ++ v := by
  constructor
  · intro h
    generalize hr : Pattern.many p = r at h
    induction h with
    | done => exact .inl rfl
    | @more p u v h hs _ ih =>
      cases hr
      by_cases hu : u = []
      · subst hu
        exact ih rfl
      · exact .inr ⟨u, v, hu, h, hs, rfl⟩
    | _ => cases hr
  · intro h
    obtain rfl | ⟨u, v, -, hu, hv, rfl⟩ := h
    · exact .done
    · exact .more hu hv

theorem fitsEmpty_iff : p.fitsEmpty = true ↔ Fits p [] := by
  induction p with
  | nothing => simp [fitsEmpty, not_fits_nothing]
  | empty => simp [fitsEmpty, Fits.empty]
  | one accepts => simp [fitsEmpty, fits_one_iff]
  | both p q ihp ihq => simp [fitsEmpty, fits_both_iff, ihp, ihq]
  | either p q ihp ihq => simp [fitsEmpty, fits_either_iff, ihp, ihq]
  | many p => simp [fitsEmpty, Fits.done]

theorem fits_chain_iff : Fits (chain p q) w ↔ Fits (.both p q) w := by
  unfold chain
  split
  · simp [fits_both_iff, not_fits_nothing]
  · simp [fits_both_iff, not_fits_nothing]
  · simp [fits_both_iff, fits_empty_iff]
  · rfl

theorem fits_choose_iff : Fits (choose p q) w ↔ Fits (.either p q) w := by
  unfold choose
  split
  · simp [fits_either_iff, not_fits_nothing]
  · simp [fits_either_iff, not_fits_nothing]
  · rfl

theorem fits_seq_cons_iff {ps : List Pattern} :
    Fits (seq (p :: ps)) w ↔ Fits (both p (seq ps)) w := fits_chain_iff

theorem fits_seq_nil_iff : Fits (seq []) w ↔ w = [] := fits_empty_iff

theorem fits_seq_singleton_iff : Fits (seq [p]) w ↔ Fits p w := by
  simp [fits_seq_cons_iff, fits_both_iff, fits_seq_nil_iff]

theorem fits_seq_append_iff {ps qs : List Pattern} :
    Fits (seq (ps ++ qs)) w ↔ ∃ u v, Fits (seq ps) u ∧ Fits (seq qs) v ∧ w = u ++ v := by
  induction ps generalizing w with
  | nil => simp [fits_seq_nil_iff]
  | cons p ps ih =>
    rw [List.cons_append, fits_seq_cons_iff, fits_both_iff]
    constructor
    · intro h
      obtain ⟨u, v, hu, hv, rfl⟩ := h
      obtain ⟨a, b, ha, hb, rfl⟩ := ih.mp hv
      exact ⟨u ++ a, b, fits_seq_cons_iff.mpr (.both hu ha), hb, by simp⟩
    · intro h
      obtain ⟨u, v, hu, hv, rfl⟩ := h
      obtain ⟨a, b, ha, hb, rfl⟩ := fits_both_iff.mp (fits_seq_cons_iff.mp hu)
      exact ⟨a, b ++ v, ha, ih.mpr ⟨b, v, hb, hv, rfl⟩, by simp⟩

theorem fits_alt_iff {ps : List Pattern} : Fits (alt ps) w ↔ ∃ p ∈ ps, Fits p w := by
  induction ps with
  | nil => simp [alt, not_fits_nothing]
  | cons p ps ih =>
    rw [alt, List.foldr_cons, fits_choose_iff, fits_either_iff, ← alt, ih, List.exists_mem_cons_iff]

theorem fits_char_iff : Fits (char c) w ↔ w = [c] := by
  simp [char, fits_one_iff]

theorem fits_word_iff {s : String} : Fits (word s) w ↔ w = s.toList := by
  rw [word]
  generalize s.toList = cs
  induction cs generalizing w with
  | nil => simp [fits_seq_nil_iff]
  | cons c cs ih =>
    rw [List.map_cons, fits_seq_cons_iff, fits_both_iff]
    simp [fits_char_iff, ih]

theorem fits_many_one_iff {accepts : Char → Bool} :
    Fits (many (one accepts)) w ↔ ∀ c ∈ w, accepts c := by
  constructor
  · intro h
    generalize hp : many (one accepts) = p at h
    induction h with
    | done => simp
    | more h _ _ ih =>
      cases hp
      obtain ⟨c, hc, rfl⟩ := fits_one_iff.mp h
      simpa [hc] using ih rfl
    | _ => cases hp
  · intro h
    induction w with
    | nil => exact .done
    | cons c cs ih =>
      rw [List.forall_mem_cons] at h
      exact .more (.one h.1) (ih h.2)

theorem fits_both_cons_iff : Fits (.both p q) (c :: w) ↔
    (∃ u v, Fits p (c :: u) ∧ Fits q v ∧ w = u ++ v) ∨ Fits p [] ∧ Fits q (c :: w) := by
  rw [fits_both_iff]
  constructor
  · intro h
    obtain ⟨u, v, hu, hv, hw⟩ := h
    cases u with
    | nil => exact .inr ⟨hu, by simpa [hw] using hv⟩
    | cons d u =>
      obtain ⟨rfl, rfl⟩ := List.cons.inj hw
      exact .inl ⟨u, v, hu, hv, rfl⟩
  · intro h
    obtain ⟨u, v, hu, hv, rfl⟩ | ⟨hp, hq⟩ := h
    · exact ⟨c :: u, v, hu, hv, rfl⟩
    · exact ⟨[], c :: w, hp, hq, rfl⟩

theorem fits_many_cons_iff : Fits (.many p) (c :: w) ↔
    ∃ u v, Fits p (c :: u) ∧ Fits (.many p) v ∧ w = u ++ v := by
  rw [fits_many_iff]
  constructor
  · intro h
    obtain h | ⟨u, v, hne, hu, hv, hw⟩ := h
    · cases h
    · cases u with
      | nil => exact absurd rfl hne
      | cons d u =>
        obtain ⟨rfl, rfl⟩ := List.cons.inj hw
        exact ⟨u, v, hu, hv, rfl⟩
  · intro h
    obtain ⟨u, v, hu, hv, rfl⟩ := h
    exact .inr ⟨c :: u, v, by simp, hu, hv, rfl⟩

theorem fits_many_both_cons_iff : Fits (both (many p) q) (c :: w) ↔
    (∃ u v, Fits p (c :: u) ∧ Fits (both (many p) q) v ∧ w = u ++ v) ∨ Fits q (c :: w) := by
  rw [fits_both_cons_iff]
  refine or_congr ?_ (and_iff_right Fits.done)
  constructor
  · intro h
    obtain ⟨u, v, hu, hv, rfl⟩ := h
    obtain ⟨a, b, ha, hb, rfl⟩ := fits_many_cons_iff.mp hu
    exact ⟨a, b ++ v, ha, .both hb hv, by simp⟩
  · intro h
    obtain ⟨u, v, hu, hv, rfl⟩ := h
    obtain ⟨a, b, ha, hb, rfl⟩ := fits_both_iff.mp hv
    exact ⟨u ++ a, b, fits_many_cons_iff.mpr ⟨u, a, hu, ha, rfl⟩, hb, by simp⟩

theorem fits_one_cons_iff {accepts : Char → Bool} :
    Fits (one accepts) (c :: w) ↔ accepts c = true ∧ w = [] := by
  rw [fits_one_iff]
  constructor
  · intro h
    obtain ⟨d, hd, heq⟩ := h
    obtain ⟨rfl, rfl⟩ := List.cons.inj heq
    exact ⟨hd, rfl⟩
  · intro h
    obtain ⟨hc, rfl⟩ := h
    exact ⟨c, hc, rfl⟩

theorem fits_one_both_cons_iff {accepts : Char → Bool} :
    Fits (both (one accepts) q) (c :: w) ↔ accepts c = true ∧ Fits q w := by
  rw [fits_both_cons_iff]
  have hnot : ¬Fits (one accepts) [] := by simp [fits_one_iff]
  simp [fits_one_cons_iff, hnot, and_assoc]

theorem fits_behind_iff : Fits (p.behind c) w ↔ Fits p (c :: w) := by
  induction p generalizing w with
  | nothing => simp [behind, not_fits_nothing]
  | empty => simp [behind, not_fits_nothing, fits_empty_iff]
  | one accepts =>
    rw [behind]
    split
    · rename_i h
      simp [fits_empty_iff, fits_one_iff, h]
    · rename_i h
      simp [not_fits_nothing, fits_one_iff, h]
  | both p q ihp ihq =>
    have hchain : Fits (chain (p.behind c) q) w ↔ ∃ u v, Fits p (c :: u) ∧ Fits q v ∧ w = u ++ v := by
      simp only [fits_chain_iff, fits_both_iff, ihp]
    rw [fits_both_cons_iff, behind]
    by_cases he : p.fitsEmpty
    · simp [he, fits_choose_iff, fits_either_iff, hchain, ihq, fitsEmpty_iff.mp he]
    · have hnot : ¬Fits p [] := mt fitsEmpty_iff.mpr he
      simp [he, hchain, hnot]
  | either p q ihp ihq => simp only [behind, fits_choose_iff, fits_either_iff, ihp, ihq]
  | many p ih => simp only [behind, fits_chain_iff, fits_both_iff, ih, fits_many_cons_iff]

/-- A beginning of a text that fits, none of which is longer. -/
structure IsLongest (p : Pattern) (cs w : List Char) : Prop where
  begins : w <+: cs
  fits : Fits p w
  le : ∀ u, u <+: cs → Fits p u → u.length ≤ w.length

theorem longestFrom_nothing (n : Nat) (best : Option Nat) (cs : List Char) :
    longestFrom .nothing n best cs = best := by
  cases cs with
  | nil => rfl
  | cons c cs => rfl

theorem longestFrom_cons (p : Pattern) (n : Nat) (best : Option Nat) (c : Char) (cs : List Char) :
    p.longestFrom n best (c :: cs) =
      (p.behind c).longestFrom (n + 1) (if p.fitsEmpty then some n else best) cs := by
  rw [longestFrom]
  split
  · rename_i h
    rw [h, longestFrom_nothing]
  · rfl

/-- Going on with a pattern finds the longest beginning that fits, or falls back on what was found
before. -/
theorem longestFrom_cases (p : Pattern) (n : Nat) (best : Option Nat) (cs : List Char) :
    (∃ w, IsLongest p cs w ∧ p.longestFrom n best cs = some (n + w.length)) ∨
      (∀ w, w <+: cs → ¬Fits p w) ∧ p.longestFrom n best cs = best := by
  induction cs generalizing p n best with
  | nil =>
    by_cases he : p.fitsEmpty
    · refine .inl ⟨[], ⟨List.nil_prefix, fitsEmpty_iff.mp he, fun u hu _ => ?_⟩, by simp [longestFrom, he]⟩
      exact hu.length_le
    · refine .inr ⟨fun w hw hfits => ?_, by simp [longestFrom, he]⟩
      obtain rfl := List.prefix_nil.mp hw
      exact he (fitsEmpty_iff.mpr hfits)
  | cons c cs ih =>
    rw [longestFrom_cons]
    obtain ⟨w, hw, heq⟩ | ⟨hnone, heq⟩ := ih (p.behind c) (n + 1) (if p.fitsEmpty then some n else best)
    · refine .inl ⟨c :: w, ⟨?_, fits_behind_iff.mp hw.fits, ?_⟩, ?_⟩
      · exact List.cons_prefix_cons.mpr ⟨rfl, hw.begins⟩
      · intro u hu hfits
        cases u with
        | nil => simp
        | cons d u =>
          obtain ⟨rfl, htail⟩ := List.cons_prefix_cons.mp hu
          simpa using hw.le u htail (fits_behind_iff.mpr hfits)
      · rw [heq, List.length_cons]
        congr 1
        omega
    · -- Nothing that begins with `c` fits, so at most the empty beginning is left.
      have hcons : ∀ d u, d :: u <+: c :: cs → ¬Fits p (d :: u) := by
        intro d u hu hfits
        obtain ⟨rfl, htail⟩ := List.cons_prefix_cons.mp hu
        exact hnone u htail (fits_behind_iff.mpr hfits)
      rw [heq]
      by_cases he : p.fitsEmpty
      · refine .inl ⟨[], ⟨List.nil_prefix, fitsEmpty_iff.mp he, fun u hu hfits => ?_⟩, by simp [he]⟩
        cases u with
        | nil => simp
        | cons d u => exact absurd hfits (hcons d u hu)
      · refine .inr ⟨fun u hu hfits => ?_, by simp [he]⟩
        cases u with
        | nil => exact he (fitsEmpty_iff.mpr hfits)
        | cons d u => exact hcons d u hu hfits

theorem longest_eq_some_iff {n : Nat} :
    p.longest cs = some n ↔ ∃ w, IsLongest p cs w ∧ w.length = n := by
  rw [longest]
  obtain ⟨w, hw, heq⟩ | ⟨hnone, heq⟩ := longestFrom_cases p 0 none cs
  · rw [heq, Nat.zero_add, Option.some.injEq]
    constructor
    · intro h
      exact ⟨w, hw, h⟩
    · intro h
      obtain ⟨u, hu, rfl⟩ := h
      exact Nat.le_antisymm (hu.le w hw.begins hw.fits) (hw.le u hu.begins hu.fits)
  · rw [heq]
    constructor
    · intro h
      cases h
    · intro h
      obtain ⟨u, hu, -⟩ := h
      exact absurd hu.fits (hnone u hu.begins)

theorem longest_eq_none_iff : p.longest cs = none ↔ ∀ w, w <+: cs → ¬Fits p w := by
  rw [longest]
  obtain ⟨w, hw, heq⟩ | ⟨hnone, heq⟩ := longestFrom_cases p 0 none cs
  · simp only [heq, reduceCtorEq, false_iff, not_forall, not_not]
    exact ⟨w, hw.begins, hw.fits⟩
  · simpa only [heq, true_iff] using hnone

theorem isLongest_take {n : Nat} (h : p.longest cs = some n) : IsLongest p cs (cs.take n) := by
  obtain ⟨w, hw, rfl⟩ := longest_eq_some_iff.mp h
  rwa [List.prefix_iff_eq_take.mp hw.begins] at hw

theorem fits_of_longest {v : List Char} (h : p.longest (w ++ v) = some w.length) : Fits p w := by
  have hw := (isLongest_take h).fits
  rwa [List.take_left] at hw

theorem longest_congr {ds : List Char} (h : ∀ w, Fits p w → (w <+: cs ↔ w <+: ds)) :
    p.longest cs = p.longest ds := by
  cases hds : p.longest ds with
  | none =>
    rw [longest_eq_none_iff] at hds ⊢
    exact fun w hw hfits => hds w ((h w hfits).mp hw) hfits
  | some n =>
    obtain ⟨w, hw, rfl⟩ := longest_eq_some_iff.mp hds
    refine longest_eq_some_iff.mpr ⟨w, ⟨(h w hw.fits).mpr hw.begins, hw.fits, fun u hu hfits => ?_⟩, rfl⟩
    exact hw.le u ((h u hfits).mp hu) hfits

def avoids (c : Char) : Pattern → Bool
  | nothing | empty => true
  | one accepts => !accepts c
  | both p q | either p q => p.avoids c && q.avoids c
  | many p => p.avoids c

theorem Fits.not_mem (h : Fits p w) (hp : p.avoids c) : c ∉ w := by
  induction h with
  | empty | done => exact List.not_mem_nil
  | one h =>
    intro hc
    rw [List.mem_singleton] at hc
    simp [avoids, hc, h] at hp
  | both _ _ ihp ihq =>
    rw [avoids, Bool.and_eq_true] at hp
    exact List.not_mem_append (ihp hp.1) (ihq hp.2)
  | first _ ih =>
    rw [avoids, Bool.and_eq_true] at hp
    exact ih hp.1
  | second _ ih =>
    rw [avoids, Bool.and_eq_true] at hp
    exact ih hp.2
  | more _ _ ih ihs => exact List.not_mem_append (ih hp) (ihs hp)

theorem longest_append_cons (hp : p.avoids c) (cs ds : List Char) :
    p.longest (cs ++ c :: ds) = p.longest cs := by
  refine longest_congr fun w hw => ⟨fun hbegins => ?_, fun hbegins => hbegins.trans (List.prefix_append _ _)⟩
  obtain h | ⟨v, rfl⟩ := List.prefix_or_prefix_of_prefix hbegins (List.prefix_append cs (c :: ds))
  · exact h
  · cases v with
    | nil => simp
    | cons d v =>
      obtain ⟨rfl, -⟩ := List.cons_prefix_cons.mp ((List.prefix_append_right_inj cs).mp hbegins)
      exact absurd (List.mem_append_right cs List.mem_cons_self) (hw.not_mem hp)

theorem longest_append_of_le {ds : List Char} (h : ∀ n ∈ p.longest (cs ++ ds), n ≤ cs.length) :
    p.longest (cs ++ ds) = p.longest cs := by
  refine longest_congr fun w hw => ⟨fun hbegins => ?_, fun hbegins => hbegins.trans (List.prefix_append _ _)⟩
  cases hlongest : p.longest (cs ++ ds) with
  | none => exact absurd hw (longest_eq_none_iff.mp hlongest w hbegins)
  | some n =>
    obtain ⟨u, hu, rfl⟩ := longest_eq_some_iff.mp hlongest
    have hle : w.length ≤ cs.length := Nat.le_trans (hu.le w hbegins hw) (h _ hlongest)
    exact List.prefix_of_prefix_length_le hbegins (List.prefix_append _ _) hle

def PrefixFree (p : Pattern) : Prop := ∀ u v, Fits p u → Fits p (u ++ v) → v = []

theorem PrefixFree.isLongest (hp : p.PrefixFree) (hw : Fits p w) (cs : List Char) :
    IsLongest p (w ++ cs) w where
  begins := List.prefix_append w cs
  fits := hw
  le := by
    intro u hu hfits
    obtain h | ⟨v, rfl⟩ := List.prefix_or_prefix_of_prefix hu (List.prefix_append w cs)
    · exact h.length_le
    · simp [hp w v hw hfits]

theorem PrefixFree.longest_append (hp : p.PrefixFree) (hw : Fits p w) (cs : List Char) :
    p.longest (w ++ cs) = some w.length :=
  longest_eq_some_iff.mpr ⟨w, hp.isLongest hw cs, rfl⟩

end ClassLocator.Text.Pattern

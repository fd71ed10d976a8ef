import ClassLocator.Proofs.Text.Blank
import Mathlib.Data.List.Chain

namespace ClassLocator.Text

variable {c : Char} {cs ds separator : List Char} {parts : List (List Char)} {s : String}

/-- A text whose only blanks are single spaces between others. -/
structure Tidy (cs : List Char) : Prop where
  ne_nil : cs ≠ []
  tight : IsTight cs
  eq_space : ∀ c ∈ cs, isBlank c → c = ' '
  apart : cs.IsChain fun c d => isBlank c → ¬isBlank d

theorem tidy_of_not_isBlank (hne : cs ≠ []) (h : ∀ c ∈ cs, ¬isBlank c) : Tidy cs where
  ne_nil := hne
  tight := isTight_of_not_isBlank h
  eq_space c hc hb := absurd hb (h c hc)
  apart := by
    induction cs with
    | nil => exact absurd rfl hne
    | cons c cs ih =>
      cases cs with
      | nil => exact .singleton c
      | cons d ds =>
        have htail : (d :: ds).IsChain fun c d => isBlank c → ¬isBlank d :=
          ih (by simp) fun e he => h e (List.mem_cons_of_mem _ he)
        exact .cons_cons (fun hc => absurd hc (h c List.mem_cons_self)) htail

namespace Tidy

theorem isChain_append (hc : Tidy cs) (hd : ds.IsChain fun c d => isBlank c → ¬isBlank d) :
    (cs ++ ds).IsChain fun c d => isBlank c → ¬isBlank d :=
  hc.apart.append hd fun c hlast _ _ hb => absurd hb (hc.tight.2 c hlast)

theorem append (hc : Tidy cs) (hd : Tidy ds) : Tidy (cs ++ ds) where
  ne_nil := List.append_ne_nil_of_left_ne_nil hc.ne_nil ds
  tight := by
    constructor
    · intro c h
      rw [List.head?_append_of_ne_nil _ hc.ne_nil] at h
      exact hc.tight.1 c h
    · intro c h
      rw [List.getLast?_append_of_ne_nil _ hd.ne_nil] at h
      exact hd.tight.2 c h
  eq_space c hm := (List.mem_append.mp hm).elim (hc.eq_space c) (hd.eq_space c)
  apart := hc.isChain_append hd.apart

theorem spaced (hc : Tidy cs) (hd : Tidy ds) : Tidy (cs ++ ' ' :: ds) where
  ne_nil := List.append_ne_nil_of_left_ne_nil hc.ne_nil _
  tight := by
    constructor
    · intro c h
      rw [List.head?_append_of_ne_nil _ hc.ne_nil] at h
      exact hc.tight.1 c h
    · intro c h
      rw [List.getLast?_append_of_ne_nil _ (by simp), List.getLast?_cons_of_ne_nil hd.ne_nil] at h
      exact hd.tight.2 c h
  eq_space := by
    intro c hm hb
    rcases List.mem_append.mp hm with hm | hm
    · exact hc.eq_space c hm hb
    · rcases List.mem_cons.mp hm with rfl | hm
      · rfl
      · exact hd.eq_space c hm hb
  apart := hc.isChain_append (hd.apart.cons fun c hhead _ => hd.tight.1 c hhead)

theorem not_spaces (h : Tidy cs) : ¬[' ', ' '] <:+: cs := by
  intro hspaces
  have hchain := h.apart.infix hspaces
  simp only [List.isChain_cons_cons, List.isChain_singleton, and_true] at hchain
  exact hchain (by decide) (by decide)

end Tidy

theorem tidy_intercalate (hjoin : ∀ cs ds, Tidy cs → Tidy ds → Tidy (cs ++ separator ++ ds))
    (hne : parts ≠ []) (h : ∀ p ∈ parts, Tidy p) : Tidy (separator.intercalate parts) := by
  induction parts with
  | nil => exact absurd rfl hne
  | cons p parts ih =>
    have hp := h p List.mem_cons_self
    cases parts with
    | nil => simpa [List.intercalate] using hp
    | cons q parts =>
      have hrest := ih (by simp) fun r hr => h r (List.mem_cons_of_mem _ hr)
      rw [List.intercalate_cons_of_ne_nil (by simp)]
      exact hjoin p _ hp hrest

theorem tidy_symbol (hc : ¬isBlank c) : Tidy [c] :=
  tidy_of_not_isBlank (by simp) (by simpa using hc)

theorem tidy_spaces (hne : parts ≠ []) (h : ∀ p ∈ parts, Tidy p) : Tidy ([' '].intercalate parts) :=
  tidy_intercalate (fun cs ds hc hd => by simpa using hc.spaced hd) hne h

theorem tidy_commas (hne : parts ≠ []) (h : ∀ p ∈ parts, Tidy p) : Tidy ([','].intercalate parts) :=
  tidy_intercalate (fun _ _ hc hd => (hc.append (tidy_symbol (by decide))).append hd) hne h

theorem tidy_spacedCommas (hne : parts ≠ []) (h : ∀ p ∈ parts, Tidy p) :
    Tidy ([',', ' '].intercalate parts) := by
  refine tidy_intercalate (fun cs ds hc hd => ?_) hne h
  have hcomma : Tidy (cs ++ [',']) := hc.append (tidy_symbol (by decide))
  simpa using hcomma.spaced hd

theorem exists_splitBlanks (cs : List Char) : ∃ w ws, splitBlanks cs = w :: ws := by
  cases cs with
  | nil => exact ⟨[], [], rfl⟩
  | cons c cs =>
    rw [splitBlanks]
    split
    · exact ⟨_, _, rfl⟩
    · split
      · exact ⟨_, _, rfl⟩
      · exact ⟨_, _, rfl⟩

theorem splitBlanks_cons {w : List Char} {ws : List (List Char)} (h : splitBlanks cs = w :: ws)
    (c : Char) : splitBlanks (c :: cs) = if isBlank c then [] :: w :: ws else (c :: w) :: ws := by
  rw [splitBlanks, h]

theorem not_isBlank_of_mem_splitBlanks {w : List Char} (hw : w ∈ splitBlanks cs) (hc : c ∈ w) :
    ¬isBlank c := by
  induction cs generalizing w with
  | nil => simp_all [splitBlanks]
  | cons d cs ih =>
    obtain ⟨v, vs, hs⟩ := exists_splitBlanks cs
    rw [hs] at ih
    rw [splitBlanks_cons hs] at hw
    split at hw
    · rcases List.mem_cons.mp hw with rfl | hw
      · simp at hc
      · exact ih hw hc
    · rename_i hd
      rcases List.mem_cons.mp hw with rfl | hw
      · rcases List.mem_cons.mp hc with rfl | hc
        · exact hd
        · exact ih List.mem_cons_self hc
      · exact ih (List.mem_cons_of_mem _ hw) hc

theorem tidy_of_mem_words {w : List Char} (hw : w ∈ words cs) : Tidy w := by
  obtain ⟨hsplit, hne⟩ := List.mem_filter.mp hw
  exact tidy_of_not_isBlank (by simpa using hne) fun c hc => not_isBlank_of_mem_splitBlanks hsplit hc

theorem splitBlanks_append {u w : List Char} {ws : List (List Char)} (hu : ∀ c ∈ u, ¬isBlank c)
    (h : splitBlanks cs = w :: ws) : splitBlanks (u ++ cs) = (u ++ w) :: ws := by
  induction u with
  | nil => exact h
  | cons c u ih =>
    rw [List.forall_mem_cons] at hu
    rw [List.cons_append, splitBlanks_cons (ih hu.2), if_neg hu.1]
    rfl

theorem exists_words_append {u : List Char} (hne : u ≠ []) (hu : ∀ c ∈ u, ¬isBlank c) (cs : List Char) :
    ∃ w ws, words (u ++ cs) = (u ++ w) :: ws := by
  obtain ⟨w, ws, hs⟩ := exists_splitBlanks cs
  rw [words, splitBlanks_append hu hs, List.filter_cons_of_pos (by simp [hne])]
  exact ⟨w, _, rfl⟩

theorem toList_squeeze (s : String) : (squeeze s).toList = [' '].intercalate (words s.toList) :=
  String.toList_ofList

def Begins (cs : List Char) : Prop := ∃ c ∈ cs.head?, ¬isBlank c

theorem begins_cons (hc : ¬isBlank c) (cs : List Char) : Begins (c :: cs) := ⟨c, rfl, hc⟩

theorem Begins.append (h : Begins cs) (ds : List Char) : Begins (cs ++ ds) := by
  obtain ⟨c, hc, hb⟩ := h
  obtain ⟨cs, rfl⟩ := List.head?_eq_some_iff.mp hc
  exact begins_cons hb (cs ++ ds)

theorem tidy_squeeze (h : Begins s.toList) : Tidy (squeeze s).toList := by
  obtain ⟨c, hc, hb⟩ := h
  obtain ⟨cs, hs⟩ : ∃ cs, s.toList = c :: cs := List.head?_eq_some_iff.mp hc
  obtain ⟨w, ws, hwords⟩ := exists_words_append (List.cons_ne_nil c []) (by simpa using hb) cs
  rw [toList_squeeze, hs]
  refine tidy_spaces ?_ fun p hp => tidy_of_mem_words hp
  rw [show c :: cs = [c] ++ cs from rfl, hwords]
  exact List.cons_ne_nil _ _

theorem prefix_squeeze {u : List Char} (hne : u ≠ []) (hu : ∀ c ∈ u, ¬isBlank c) (h : u <+: s.toList) :
    u <+: (squeeze s).toList := by
  obtain ⟨cs, hs⟩ := h
  obtain ⟨w, ws, hwords⟩ := exists_words_append hne hu cs
  rw [toList_squeeze, ← hs, hwords]
  cases ws with
  | nil => simp
  | cons v ws => simp [List.intercalate_cons_cons]

end ClassLocator.Text

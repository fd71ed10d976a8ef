import ClassLocator.Candidate
import ClassLocator.Proofs.Path
import ClassLocator.Proofs.Query
import ClassLocator.Proofs.Text.LetterCase
import Mathlib.Data.List.Induction

namespace ClassLocator

namespace Candidate

def slashed (name : String) : List Char := name.toList.map fun c => if c = '\\' then '/' else c

theorem toList_comparable_true (name : String) : (comparable true name).toList = slashed name := by
  simp [comparable, slashed, String.toList_map]

theorem toList_comparable_false (name : String) :
    (comparable false name).toList = Text.lowerAfter [] (slashed name) := by
  simp [comparable, slashed, String.toList_map, Text.lower]

variable {query : Query} {name path ext : String}

theorem isMatch_iff :
    isMatch query name path ↔ ∃ ext ∈ classExtensions,
      if query.qualified then
        query.target.toList ++ '.' :: ext.toList <:+ (comparable query.caseSensitive path).toList
      else
        (comparable query.caseSensitive name).toList = query.target.toList ++ '.' :: ext.toList ∨
          '/' :: (query.target.toList ++ '.' :: ext.toList) <:+
            (comparable query.caseSensitive path).toList := by
  have hfile : ∀ ext : String, (query.target ++ "." ++ ext).toList =
      query.target.toList ++ '.' :: ext.toList := by simp
  unfold isMatch
  simp only [List.any_eq_true]
  refine exists_congr fun ext => and_congr_right fun _ => ?_
  split
  · rw [hfile, List.isSuffixOf_iff_suffix]
  · rw [Bool.or_eq_true, beq_iff_eq, List.isSuffixOf_iff_suffix, ← String.toList_inj, hfile]

theorem exists_suffix (hm : isMatch query name path) :
    ∃ ext ∈ classExtensions, ∃ text, (text = name ∨ text = path) ∧
      query.target.toList ++ '.' :: ext.toList <:+ (comparable query.caseSensitive text).toList := by
  obtain ⟨ext, hext, hm⟩ := isMatch_iff.mp hm
  refine ⟨ext, hext, ?_⟩
  split at hm
  · exact ⟨path, .inr rfl, hm⟩
  · rcases hm with hwhole | hpath
    · exact ⟨name, .inl rfl, [], hwhole.symm⟩
    · exact ⟨path, .inr rfl, (List.suffix_cons _ _).trans hpath⟩

section Extension

variable (hext : ext ∈ classExtensions)

include hext

theorem meetsCased_extension : Text.meetsCased ('.' :: ext.toList) := by
  have h : ∀ ext ∈ classExtensions, Text.meetsCased ('.' :: ext.toList) = true := by decide +kernel
  exact h ext hext

theorem lowerAfter_extension (before : List Char) :
    Text.lowerAfter before ('.' :: ext.toList) = '.' :: ext.toList := by
  simp only [classExtensions, List.mem_cons, List.not_mem_nil, or_false] at hext
  rcases hext with rfl | rfl <;> rfl

theorem lowerAfter_fileName (before t : List Char) :
    Text.lowerAfter before (t ++ '.' :: ext.toList) =
      Text.lowerBetween before t ('.' :: ext.toList) ++ '.' :: ext.toList := by
  rw [Text.lowerAfter_append, lowerAfter_extension hext]

end Extension

section LetterCase

theorem suffix_lowerAfter {t p : List Char} (hext : ext ∈ classExtensions)
    (h : t ++ '.' :: ext.toList <:+ p) (hend : ¬Text.endsInSigma t)
    (hstart : ¬Text.startsWithSigma t) :
    Text.lowerAfter [] t ++ '.' :: ext.toList <:+ Text.lowerAfter [] p := by
  obtain ⟨before, rfl⟩ := h
  have ht : Text.lowerBetween before.reverse t ('.' :: ext.toList) = Text.lowerAfter [] t :=
    Text.lowerBetween_eq_lowerAfter (meetsCased_extension hext) hend (.inl hstart)
  rw [Text.lowerAfter_append, List.append_nil, lowerAfter_fileName hext, ht]
  exact List.suffix_append _ _

theorem lowerAfter_wholeName {t : List Char} (hext : ext ∈ classExtensions)
    (hend : ¬Text.endsInSigma t) :
    Text.lowerAfter [] (t ++ '.' :: ext.toList) = Text.lowerAfter [] t ++ '.' :: ext.toList := by
  have hnil : ¬Text.meetsCased [] := by decide
  rw [lowerAfter_fileName hext,
    Text.lowerBetween_eq_lowerAfter (meetsCased_extension hext) hend (.inr hnil)]

theorem suffix_lowerAfter_slash {t p : List Char} (hext : ext ∈ classExtensions)
    (h : '/' :: (t ++ '.' :: ext.toList) <:+ p) (hend : ¬Text.endsInSigma t) :
    '/' :: (Text.lowerAfter [] t ++ '.' :: ext.toList) <:+ Text.lowerAfter [] p := by
  obtain ⟨before, rfl⟩ := h
  rw [Text.lowerAfter_append_slash, lowerAfter_wholeName hext hend]
  exact List.suffix_append _ _

theorem extension_inj {s t p : List Char} {ext' : String} (hext : ext ∈ classExtensions)
    (hext' : ext' ∈ classExtensions) (hs : s ++ '.' :: ext.toList <:+ p)
    (ht : t ++ '.' :: ext'.toList <:+ p) : ext = ext' := by
  have hlast : ∀ ext ∈ classExtensions, ∀ ext' ∈ classExtensions,
      ext.toList.getLast? = ext'.toList.getLast? → ext = ext' := by decide
  have hsame : ∀ s, ∀ ext ∈ classExtensions, s ++ '.' :: ext.toList <:+ p →
      p.getLast? = ext.toList.getLast? := by
    rintro s ext hext ⟨before, rfl⟩
    have hne : ∀ ext ∈ classExtensions, ext.toList ≠ [] := by decide
    rw [List.append_cons, ← List.append_assoc, List.getLast?_append_of_ne_nil _ (hne ext hext)]
  exact hlast ext hext ext' hext' ((hsame s ext hext hs).symm.trans (hsame t ext' hext' ht))

theorem target_inj {s t p : List Char} {ext' : String} (hext : ext ∈ classExtensions)
    (hext' : ext' ∈ classExtensions) (hs : s ++ '.' :: ext.toList <:+ p)
    (ht : t ++ '.' :: ext'.toList <:+ p) (hlen : s.length = t.length) : s = t := by
  obtain rfl := extension_inj hext hext' hs ht
  have h := List.suffix_of_suffix_length_le hs ht (by simp [hlen])
  exact List.append_cancel_right (h.eq_of_length (by simp [hlen]))

variable {raw : String} {method method' : Option String} {q q' : Query}

theorem target_of_new (hq : Query.new raw true method = .ok q)
    (hq' : Query.new raw false method' = .ok q') :
    q.caseSensitive = true ∧ q'.caseSensitive = false ∧ q'.qualified = q.qualified ∧
      q'.target.toList = Text.lowerAfter [] q.target.toList := by
  have hname : q'.className = q.className := by
    rw [Query.className_of_new hq, Query.className_of_new hq']
  refine ⟨Query.caseSensitive_of_new hq, Query.caseSensitive_of_new hq', ?_, ?_⟩
  · rw [Query.qualified_of_new hq, Query.qualified_of_new hq', hname]
  · rw [Query.toList_target hq, Query.toList_target hq', hname]
    rfl

theorem isMatch_small (hq : Query.new raw true method = .ok q)
    (hq' : Query.new raw false method' = .ok q') (hm : isMatch q name path)
    (hend : ¬Text.endsInSigma q.target.toList)
    (hstart : q.qualified → ¬Text.startsWithSigma q.target.toList) : isMatch q' name path := by
  obtain ⟨hc, hc', hqual, ht⟩ := target_of_new hq hq'
  rw [isMatch_iff, hc, toList_comparable_true, toList_comparable_true] at hm
  rw [isMatch_iff, hc', hqual, ht, toList_comparable_false, toList_comparable_false]
  obtain ⟨ext, hext, hm⟩ := hm
  refine ⟨ext, hext, ?_⟩
  cases hb : q.qualified with
  | true =>
    simp only [hb, if_true] at hm ⊢
    exact suffix_lowerAfter hext hm hend (hstart hb)
  | false =>
    simp only [hb, Bool.false_eq_true, if_false] at hm ⊢
    refine hm.imp (fun hname => ?_) fun hpath => suffix_lowerAfter_slash hext hpath hend
    rw [hname]
    exact lowerAfter_wholeName hext hend

/-- Both file names would end the same text, but the sigma looks different in them. -/
theorem not_isMatch_small (hq : Query.new raw true method = .ok q)
    (hq' : Query.new raw false method' = .ok q') (hm : isMatch q name name)
    (hend : Text.endsInSigma q.target.toList) : ¬isMatch q' name name := by
  intro hm'
  obtain ⟨hc, hc', -, ht⟩ := target_of_new hq hq'
  obtain ⟨ext, hext, text, htext, hraw⟩ := exists_suffix hm
  obtain ⟨ext', hext', text', htext', hlow⟩ := exists_suffix hm'
  obtain rfl := htext.elim id id
  obtain rfl := htext'.elim id id
  rw [hc, toList_comparable_true] at hraw
  rw [hc', ht, toList_comparable_false] at hlow
  obtain ⟨before, hbefore⟩ := hraw
  have hthere : Text.lowerBetween before.reverse q.target.toList ('.' :: ext.toList) ++
      '.' :: ext.toList <:+ Text.lowerAfter [] (slashed text') := by
    rw [← hbefore, Text.lowerAfter_append, List.append_nil, lowerAfter_fileName hext]
    exact List.suffix_append _ _
  refine Text.lowerBetween_ne_lowerAfter (meetsCased_extension hext) hend
    (target_inj hext hext' hthere hlow ?_)
  rw [← Text.lowerBetween_nil]
  exact Text.length_lowerBetween _ _ _ _ _

/-- A candidate that a query finds with regard to case is found without regard to case too, unless the last
letter of the target is a capital sigma at the end of a word, or the first letter of a target with packages
is one that no letter follows. If the target ends in such a sigma, the candidate is not found if its name is
its whole path, as in an archive. -/
theorem isMatch_of_caseSensitive (hq : Query.new raw true method = .ok q)
    (hq' : Query.new raw false method' = .ok q') (hm : isMatch q name path) :
    (¬Text.endsInSigma q.target.toList → (q.qualified → ¬Text.startsWithSigma q.target.toList) →
      isMatch q' name path) ∧
    (name = path → Text.endsInSigma q.target.toList → ¬isMatch q' name path) := by
  refine ⟨isMatch_small hq hq' hm, fun hsame hend => ?_⟩
  subst hsame
  exact not_isMatch_small hq hq' hm hend

/-- A class in a package, without a sigma. -/
theorem isMatch_of_caseSensitive_package :
    let q : Query := ⟨"java.util.Random", "java/util/Random", true, true, none⟩
    let q' : Query := ⟨"java.util.Random", "java/util/random", true, false, none⟩
    Query.new "java.util.Random" true none = .ok q ∧ Query.new "java.util.Random" false none = .ok q' ∧
      isMatch q "Random.class" "/lib/java/util/Random.class" ∧ ¬Text.endsInSigma q.target.toList ∧
      ¬Text.startsWithSigma q.target.toList ∧
      isMatch q' "Random.class" "/lib/java/util/Random.class" := by
  intro q q'
  have hq : Query.new "java.util.Random" true none = .ok q := by decide +kernel
  have hq' : Query.new "java.util.Random" false none = .ok q' := by decide +kernel
  have hm : isMatch q "Random.class" "/lib/java/util/Random.class" := by decide +kernel
  have hend : ¬Text.endsInSigma q.target.toList := by decide +kernel
  have hstart : ¬Text.startsWithSigma q.target.toList := by decide +kernel
  exact ⟨hq, hq', hm, hend, hstart, (isMatch_of_caseSensitive hq hq' hm).1 hend fun _ => hstart⟩

/-- The word that ends in a sigma has another small form in front of the extension. -/
theorem isMatch_lost_sigma :
    ∃ q q', Query.new "ΟΔΟΣ" true none = .ok q ∧ Query.new "ΟΔΟΣ" false none = .ok q' ∧
      isMatch q "ΟΔΟΣ.class" "/x/ΟΔΟΣ.class" ∧ ¬isMatch q' "ΟΔΟΣ.class" "/x/ΟΔΟΣ.class" :=
  ⟨_, _, rfl, rfl, by decide +kernel, by decide +kernel⟩

end LetterCase

inductive Pieces (R : Char → List Char → Prop) : List Char → List Char → Prop
  | nil : Pieces R [] []
  | cons {c : Char} {p cs ls : List Char} : R c p → Pieces R cs ls → Pieces R (c :: cs) (p ++ ls)

theorem Pieces.exists_last {R : Char → List Char → Prop} {cs ls : List Char} (h : Pieces R cs ls)
    (hc : cs ≠ []) :
    ∃ ds c ms p, cs = ds ++ [c] ∧ ls = ms ++ p ∧ Pieces R ds ms ∧ R c p := by
  induction h with
  | nil => exact absurd rfl hc
  | @cons c p cs ls hp h ih =>
    cases cs with
    | nil =>
      cases h
      exact ⟨[], c, [], p, rfl, by simp, .nil, hp⟩
    | cons d cs =>
      obtain ⟨ds, e, ms, r, hds, rfl, hms, hr⟩ := ih (by simp)
      exact ⟨c :: ds, e, p ++ ms, r, by simp [hds], by simp, .cons hp hms, hr⟩

def extensionChars : List Char := ['.', 'c', 'l', 'a', 's', 'j', 'v']

def Comparable (c : Char) (p : List Char) : Prop :=
  p ≠ [] ∧ (c = '/' → p = ['/']) ∧ ∀ x ∈ p, x ∈ extensionChars → p = [x] ∧ Text.lowerAscii c = x

/-- None of them is a piece of the small form of a character outside ASCII, as `i` and `k` are. -/
theorem extensionChars_plain : ∀ x ∈ extensionChars,
    Text.IsAscii x ∧ Text.lowerAscii x = x ∧ x ≠ 'i' ∧ x ≠ 'k' ∧ x ≠ '/' := by
  simp only [extensionChars, List.forall_mem_cons, List.not_mem_nil, false_imp_iff, implies_true]
  decide

theorem comparable_slash (c : Char) : Comparable c [if c = '\\' then '/' else c] := by
  refine ⟨by simp, fun hc => by simp [hc], fun x hx he => ?_⟩
  obtain rfl := List.mem_singleton.mp hx
  obtain ⟨-, hsmall, -, -, hs⟩ := extensionChars_plain _ he
  split at hs
  · exact absurd rfl hs
  · rename_i hc
    simpa [hc] using hsmall

theorem comparable_formOf (before after : List Char) (c : Char) :
    Comparable c (Text.formOf before (if c = '\\' then '/' else c) after) := by
  refine ⟨Text.formOf_ne_nil _ _ _, fun hc => by subst hc; rfl, fun x hx he => ?_⟩
  obtain ⟨ha, -, hi, hk, hs⟩ := extensionChars_plain x he
  obtain ⟨hform, hc⟩ := Text.formOf_of_mem_ascii hx ha hi hk
  refine ⟨hform, ?_⟩
  split at hc
  · exact absurd hc.symm hs
  · exact hc

theorem pieces_comparable (caseSensitive : Bool) (name : String) :
    Pieces Comparable name.toList (comparable caseSensitive name).toList := by
  cases caseSensitive with
  | true =>
    rw [toList_comparable_true, slashed]
    induction name.toList with
    | nil => exact .nil
    | cons c cs ih => exact .cons (comparable_slash c) ih
  | false =>
    have h : ∀ (cs before : List Char), Pieces Comparable cs
        (Text.lowerAfter before (cs.map fun c => if c = '\\' then '/' else c)) := by
      intro cs
      induction cs with
      | nil => exact fun _ => .nil
      | cons c cs ih => exact fun before => .cons (comparable_formOf before _ c) (ih _)
    rw [toList_comparable_false]
    exact h name.toList []

theorem Pieces.exists_end {cs ls w : List Char} (h : Pieces Comparable cs (ls ++ w))
    (hw : w ⊆ extensionChars) :
    ∃ ds e, cs = ds ++ e ∧ Pieces Comparable ds ls ∧ e.map Text.lowerAscii = w := by
  induction w using List.reverseRecOn generalizing cs with
  | nil => exact ⟨cs, [], by simp, by simpa using h, rfl⟩
  | append_singleton w x ih =>
    have hcs : cs ≠ [] := by
      rintro rfl
      generalize hl : ls ++ (w ++ [x]) = l at h
      cases h
      simp at hl
    obtain ⟨ds, c, ms, p, rfl, hl, hds, hne, -, hp⟩ := h.exists_last hcs
    have hx : x ∈ p := by
      have hlast := congrArg List.getLast? hl
      rw [List.getLast?_append_of_ne_nil _ hne] at hlast
      exact List.mem_of_getLast? (by simpa using hlast.symm)
    obtain ⟨rfl, hc⟩ := hp x hx (hw (by simp))
    rw [← List.append_assoc] at hl
    obtain rfl := List.append_cancel_right hl
    obtain ⟨es, e, rfl, hes, he⟩ := ih hds fun y hy => hw (by simp [hy])
    exact ⟨es, e ++ [c], by simp, hes, by simp [he, hc]⟩

/-- An extension of classes with no name before it, found by a query whose target ends in a slash. -/
def Nameless (query : Query) (name : String) : Prop :=
  query.target.toList.getLast? = some '/' ∧
    ∃ ext ∈ classExtensions, (Path.fileName? name).map Text.lowerAsciiOnly = some ("." ++ ext)

theorem lowerAsciiOnly_eq {cs : List Char} (h : cs.map Text.lowerAscii = ext.toList) :
    Text.lowerAsciiOnly (String.ofList cs) = ext := by
  rw [← String.toList_inj, Text.lowerAsciiOnly, String.toList_map, String.toList_ofList, h]

/-- What ends in a file name has its extension, unless the target ends in the slash before it. -/
theorem extension_or_nameless {b : Bool} {t : List Char} (ht : t ≠ []) (hext : ext ∈ classExtensions)
    (h : t ++ '.' :: ext.toList <:+ (comparable b path).toList) :
    smallExtension? path = some ext ∨
      t.getLast? = some '/' ∧ (Path.fileName? path).map Text.lowerAsciiOnly = some ("." ++ ext) := by
  have hchars : ∀ ext ∈ classExtensions, ext ≠ "" ∧ '/' ∉ ext.toList ∧ '.' ∉ ext.toList ∧
      '.' :: ext.toList ⊆ extensionChars := by decide
  obtain ⟨hempty, hslash, hdot, hplain⟩ := hchars ext hext
  obtain ⟨before, hbefore⟩ := h
  rw [← List.append_assoc] at hbefore
  obtain ⟨ds, e, hpath, hds, he⟩ := (hbefore ▸ pieces_comparable b path).exists_end hplain
  have hne : ds ≠ [] := by
    rintro rfl
    generalize hl : before ++ t = l at hds
    cases hds
    exact ht (List.append_eq_nil_iff.mp hl).2
  obtain ⟨d, e, rfl⟩ : ∃ d e', e = d :: e' := List.exists_cons_of_ne_nil (by rintro rfl; cases he)
  simp only [List.map_cons, List.cons.injEq] at he
  obtain ⟨hd, he⟩ := he
  obtain rfl := Text.eq_of_lowerAscii hd (by decide)
  have hkept : ∀ c, c = '/' ∨ c = '.' → c ∉ ext.toList → c ∉ e := by
    intro c hc hn hm
    have hsame : Text.lowerAscii c = c := by rcases hc with rfl | rfl <;> rfl
    exact hn (by rw [← he, ← hsame]; exact List.mem_map_of_mem hm)
  have hs : '/' ∉ e := hkept '/' (.inl rfl) hslash
  have hdots : '.' ∉ e := hkept '.' (.inr rfl) hdot
  have hletters : e ≠ [] := by
    rintro rfl
    exact hempty (String.toList_eq_nil_iff.mp he.symm)
  obtain ⟨ds, c, ms, p, rfl, hms, -, -, hsep, -⟩ := hds.exists_last hne
  -- What stands in front of the dot belongs to the name unless it is a slash.
  by_cases hc : c = '/'
  · subst hc
    right
    have hlast := congrArg List.getLast? hms
    rw [List.getLast?_append_of_ne_nil _ ht, hsep rfl] at hlast
    have hname := Path.fileName?_of_toList_dot (by simpa using hpath) hs hdots hletters
    refine ⟨by simpa using hlast, ?_⟩
    rw [hname, Option.map_some, lowerAsciiOnly_eq]
    simp [he, hd]
  · left
    have hfound := Path.extension?_of_toList (by simpa using hpath) hc hs hdots hletters
    rw [smallExtension?, hfound, Option.map_some, lowerAsciiOnly_eq he]

variable {raw : String} {caseSensitive : Bool} {method : Option String}

theorem target_ne_nil (hq : Query.new raw caseSensitive method = .ok query) :
    query.target.toList ≠ [] := by
  obtain ⟨c, cs, hcs⟩ : ∃ c cs, (Query.asPath query.className).toList = c :: cs := by
    refine List.exists_cons_of_ne_nil fun h => (Query.eq_of_new hq).2 ?_
    rw [Query.asPath, String.toList_map, List.map_eq_nil_iff, Query.className_of_new hq] at h
    exact String.toList_eq_nil_iff.mp h
  have hform := Text.formOf_ne_nil [] c cs
  rw [Query.toList_target hq, hcs]
  cases caseSensitive with
  | true => simp
  | false => simp [Text.lowerAfter_cons, hform]

/-- A name that matches has the extension of a class file or a source, or is an extension alone. -/
theorem isMatch_extension (hq : Query.new raw caseSensitive method = .ok query)
    (hname : name = path ∨ Path.fileName? path = some name) (hm : isMatch query name path) :
    (∃ ext ∈ classExtensions, smallExtension? name = some ext) ∨ Nameless query name := by
  have hfile : Path.fileName? path = Path.fileName? name := by
    rcases hname with rfl | h
    · rfl
    · rw [h, Path.fileName?_fileName? h]
  have hsmall : smallExtension? path = smallExtension? name := by
    rcases hname with rfl | h
    · rfl
    · simp only [smallExtension?, Path.extension?_eq_of_fileName? h]
  obtain ⟨ext, hext, text, htext, hend⟩ := exists_suffix hm
  have hsame : Path.fileName? text = Path.fileName? name ∧
      smallExtension? text = smallExtension? name := by
    rcases htext with rfl | rfl
    · exact ⟨rfl, rfl⟩
    · exact ⟨hfile, hsmall⟩
  rcases extension_or_nameless (target_ne_nil hq) hext hend with h | ⟨hslash, h⟩
  · exact .inl ⟨ext, hext, hsame.2 ▸ h⟩
  · exact .inr ⟨hslash, ext, hext, hsame.1 ▸ h⟩

theorem Nameless.smallExtension? (h : Nameless query name) : smallExtension? name = none := by
  obtain ⟨-, ext, hext, h⟩ := h
  obtain ⟨last, hlast, hsmall⟩ := Option.map_eq_some_iff.mp h
  have hchars : last.toList.map Text.lowerAscii = '.' :: ext.toList := by
    rw [← String.toList_inj, Text.lowerAsciiOnly, String.toList_map] at hsmall
    simpa using hsmall
  obtain ⟨c, e, hce, hc, he⟩ := List.map_eq_cons_iff.mp hchars
  obtain rfl := Text.eq_of_lowerAscii hc (by decide)
  have hdot : '.' ∉ e := by
    intro hd
    have hext' : ∀ ext ∈ classExtensions, '.' ∉ ext.toList := by decide
    have hd' := List.mem_map_of_mem (f := Text.lowerAscii) hd
    rw [he] at hd'
    exact hext' ext hext hd'
  have hlast' : Path.fileName? name = some (String.ofList ([] ++ '.' :: e)) := by
    rw [hlast, List.nil_append, ← hce, String.ofList_toList]
  simp [Candidate.smallExtension?, Path.extension?_of_fileName? hlast' hdot]

theorem kind_of_extension {ext : String} (hext : ext ∈ classExtensions)
    (h : smallExtension? name = some ext) : Kind.ofName name ≠ .container ∧ isSearchable name := by
  simp only [classExtensions, List.mem_cons, List.not_mem_nil, or_false] at hext
  rcases hext with rfl | rfl <;> simp [Kind.ofName, isSearchable, h, searchableExtensions]

theorem Nameless.kind (h : Nameless query name) :
    Kind.ofName name = .container ∧ ¬isSearchable name := by
  simp [Kind.ofName, isSearchable, h.smallExtension?]

/-- A name that matches is taken for an archive only if it is an extension alone. -/
theorem kind_iff_nameless (hq : Query.new raw caseSensitive method = .ok query)
    (hname : name = path ∨ Path.fileName? path = some name) (hm : isMatch query name path) :
    (Kind.ofName name = .container ↔ Nameless query name) ∧
      (isSearchable name ↔ ¬Nameless query name) := by
  rcases isMatch_extension hq hname hm with ⟨ext, hext, h⟩ | h
  · obtain ⟨hkind, hsearch⟩ := kind_of_extension hext h
    have hn : ¬Nameless query name := fun hn => hkind hn.kind.1
    simp [hkind, hsearch, hn]
  · simp [h, h.kind.1, h.kind.2]

end Candidate

end ClassLocator

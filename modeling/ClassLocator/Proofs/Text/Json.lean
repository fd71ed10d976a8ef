import ClassLocator.Text.Json
import Mathlib.Data.List.Basic
/-!
A reader of JSON objects whose members are strings. It takes every way in which a character can be
spelled, blanks between the parts, and no control as it stands. Main statement: an object that is written
without blanks, with its texts encoded, is read back member by member.
-/

namespace ClassLocator.Text.Json

def digit? (c : Char) : Option Nat :=
  if '0' ≤ c ∧ c ≤ '9' then some (c.toNat - 48)
  else if 'a' ≤ c ∧ c ≤ 'f' then some (c.toNat - 87)
  else if 'A' ≤ c ∧ c ≤ 'F' then some (c.toNat - 55)
  else none

def unit? (a b c d : Char) : Option Nat := do
  return (((← digit? a) * 16 + (← digit? b)) * 16 + (← digit? c)) * 16 + (← digit? d)

def short? : Char → Option Char
  | '"' => some '"'
  | '\\' => some '\\'
  | '/' => some '/'
  | 'b' => some '\x08'
  | 'f' => some '\x0c'
  | 'n' => some '\n'
  | 'r' => some '\r'
  | 't' => some '\t'
  | _ => none

def paired (high low : Nat) : Char := Char.ofNat (0x10000 + (high - 0xD800) * 0x400 + (low - 0xDC00))

def prepend (c : Char) (read : Option (List Char × List Char)) : Option (List Char × List Char) :=
  read.map fun p => (c :: p.1, p.2)

/-- The characters up to the quotation mark that ends a string, and what stands behind it. A unit of a
surrogate pair alone is no character. -/
def contents : List Char → Option (List Char × List Char)
  | [] => none
  | '"' :: rest => some ([], rest)
  | '\\' :: 'u' :: a :: b :: c :: d :: rest =>
    match unit? a b c d with
    | none => none
    | some n =>
      if n < 0xD800 ∨ 0xDFFF < n then prepend (Char.ofNat n) (contents rest)
      else if 0xDBFF < n then none
      else match rest with
        | '\\' :: 'u' :: e :: f :: g :: h :: rest =>
          match unit? e f g h with
          | none => none
          | some m => if 0xDC00 ≤ m ∧ m ≤ 0xDFFF then prepend (paired n m) (contents rest) else none
        | _ => none
  | '\\' :: e :: rest =>
    match short? e with
    | none => none
    | some c => prepend c (contents rest)
  | c :: rest => if c.toNat < 0x20 then none else prepend c (contents rest)

def isBlank (c : Char) : Bool := c == ' ' || c == '\t' || c == '\n' || c == '\r'

def string? (cs : List Char) : Option (String × List Char) :=
  match cs.dropWhile isBlank with
  | '"' :: cs => (contents cs).map fun p => (String.ofList p.1, p.2)
  | _ => none

def member? (cs : List Char) : Option ((String × String) × List Char) :=
  match string? cs with
  | none => none
  | some (key, cs) =>
    match cs.dropWhile isBlank with
    | ':' :: cs => (string? cs).map fun p => ((key, p.1), p.2)
    | _ => none

def members? : Nat → List Char → Option (List (String × String) × List Char)
  | 0, _ => none
  | n + 1, cs =>
    match member? cs with
    | none => none
    | some (m, cs) =>
      match cs.dropWhile isBlank with
      | ',' :: cs => (members? n cs).map fun p => (m :: p.1, p.2)
      | '\x7d' :: cs => some ([m], cs)
      | _ => none

/-- The members of a text that is an object of strings. Each member takes a character at least. -/
def object? (text : String) : Option (List (String × String)) :=
  match text.toList.dropWhile isBlank with
  | '\x7b' :: cs =>
    let read := match cs.dropWhile isBlank with
      | '\x7d' :: rest => some ([], rest)
      | _ => members? cs.length cs
    match read with
    | some (ms, rest) => if rest.all isBlank then some ms else none
    | none => none
  | _ => none

def encodeMember (m : String × String) : List Char := encode m.1 ++ ':' :: encode m.2

def encodeObject (ms : List (String × String)) : String :=
  String.ofList ('\x7b' :: [','].intercalate (ms.map encodeMember) ++ ['\x7d'])

theorem digit?_hexDigit : ∀ n < 16, digit? (hexDigit n) = some n := by decide

theorem printable_hexDigit : ∀ n < 16, 0x20 ≤ (hexDigit n).toNat := by decide

theorem contents_cons {c : Char} (hquote : c ≠ '"') (hslash : c ≠ '\\') (hc : 0x20 ≤ c.toNat)
    (rest : List Char) : contents (c :: rest) = prepend c (contents rest) := by
  rw [contents.eq_def]
  split
  · next h => cases h
  · next h => exact absurd (List.cons.inj h).1 hquote
  · next h => exact absurd (List.cons.inj h).1 hslash
  · next h => exact absurd (List.cons.inj h).1 hslash
  · next h =>
    obtain ⟨rfl, rfl⟩ := List.cons.inj h
    rw [if_neg (by omega)]

theorem contents_encodeChar (c : Char) (rest : List Char) :
    contents (encodeChar c ++ rest) = prepend c (contents rest) := by
  unfold encodeChar
  iterate 7
    split
    · next h =>
      subst h
      rfl
  split
  · next hc =>
    have hunit : unit? '0' '0' (hexDigit (c.toNat / 16)) (hexDigit (c.toNat % 16)) = some c.toNat := by
      have hhigh := digit?_hexDigit (c.toNat / 16) (by omega)
      have hlow := digit?_hexDigit (c.toNat % 16) (by omega)
      have hzero : digit? '0' = some 0 := rfl
      simp [unit?, hhigh, hlow, hzero]
      omega
    show contents ('\\' :: 'u' :: '0' :: '0' :: _ :: _ :: rest) = _
    rw [contents, hunit]
    simp only
    rw [if_pos (.inl (by omega)), Char.ofNat_toNat]
  · next hquote hslash _ _ _ _ _ hc => exact contents_cons hquote hslash (by omega) rest

theorem contents_flatMap (cs rest : List Char) :
    contents (cs.flatMap encodeChar ++ '"' :: rest) = some (cs, rest) := by
  induction cs with
  | nil => rfl
  | cons c cs ih =>
    rw [List.flatMap_cons, List.append_assoc, contents_encodeChar, ih]
    rfl

theorem string?_encode (s : String) (rest : List Char) :
    string? (encode s ++ rest) = some (s, rest) := by
  have hcons : encode s ++ rest = '"' :: (s.toList.flatMap encodeChar ++ '"' :: rest) := by
    simp [encode]
  have hfirst : ('"' :: (s.toList.flatMap encodeChar ++ '"' :: rest)).dropWhile isBlank =
      '"' :: (s.toList.flatMap encodeChar ++ '"' :: rest) := rfl
  rw [hcons, string?, hfirst]
  simp [contents_flatMap]

theorem member?_encodeMember (m : String × String) (rest : List Char) :
    member? (encodeMember m ++ rest) = some (m, rest) := by
  rw [encodeMember, List.append_assoc, member?, string?_encode]
  have hcolon : (':' :: encode m.2 ++ rest).dropWhile isBlank = ':' :: (encode m.2 ++ rest) := rfl
  simp only [hcolon, string?_encode]
  rfl

theorem members?_encodeMember {n : Nat} (m : String × String) {ms : List (String × String)}
    (h : ms.length < n) (rest : List Char) :
    members? n ([','].intercalate ((m :: ms).map encodeMember) ++ '\x7d' :: rest) =
      some (m :: ms, rest) := by
  induction ms generalizing m n with
  | nil =>
    obtain ⟨n, rfl⟩ := Nat.exists_eq_add_one_of_ne_zero (Nat.ne_zero_of_lt h)
    have hbrace : ('\x7d' :: rest).dropWhile isBlank = '\x7d' :: rest := rfl
    simp [members?, member?_encodeMember, hbrace]
  | cons m' ms ih =>
    obtain ⟨n, rfl⟩ := Nat.exists_eq_add_one_of_ne_zero (Nat.ne_zero_of_lt h)
    have hn : ms.length < n := by simpa using h
    rw [List.map_cons, List.intercalate_cons_of_ne_nil (by simp), List.append_assoc, List.append_assoc,
      members?, member?_encodeMember]
    simp only [List.singleton_append]
    have hcomma : ∀ cs : List Char, (',' :: cs).dropWhile isBlank = ',' :: cs := fun _ => rfl
    simp only [hcomma, ih m' hn]
    rfl

theorem length_le_intercalate (ms : List (String × String)) :
    ms.length ≤ ([','].intercalate (ms.map encodeMember)).length := by
  induction ms with
  | nil => simp
  | cons m ms ih =>
    have hm : 1 ≤ (encodeMember m).length := by simp [encodeMember, encode]
    by_cases hnil : ms = []
    · simpa [hnil] using hm
    · rw [List.map_cons, List.intercalate_cons_of_ne_nil (by simpa using hnil)]
      simp only [List.length_cons, List.length_append]
      omega

theorem exists_quote (m : String × String) (ms : List (String × String)) :
    ∃ cs, [','].intercalate ((m :: ms).map encodeMember) = '"' :: cs := by
  have hm : encodeMember m = '"' :: (m.1.toList.flatMap encodeChar ++ ['"'] ++ ':' :: encode m.2) := rfl
  rw [List.map_cons, hm]
  cases ms with
  | nil => exact ⟨_, List.intercalate_singleton⟩
  | cons m' ms =>
    rw [List.intercalate_cons_of_ne_nil (by simp)]
    exact ⟨_, rfl⟩

theorem object?_encodeObject {ms : List (String × String)} (h : ms ≠ []) :
    object? (encodeObject ms) = some ms := by
  obtain ⟨m, ms, rfl⟩ := List.exists_cons_of_ne_nil h
  obtain ⟨cs, hcs⟩ := exists_quote m ms
  have hlength := length_le_intercalate (m :: ms)
  have hread : members? ('"' :: cs ++ ['\x7d']).length ('"' :: cs ++ ['\x7d']) = some (m :: ms, []) := by
    rw [← hcs]
    refine members?_encodeMember m ?_ []
    rw [List.length_append]
    simp only [List.length_cons, List.length_nil] at hlength ⊢
    omega
  rw [object?, encodeObject, String.toList_ofList, hcs]
  show (match members? ('"' :: cs ++ ['\x7d']).length ('"' :: cs ++ ['\x7d']) with
    | some (ms, rest) => if rest.all isBlank then some ms else none
    | none => none) = _
  rw [hread]
  rfl

theorem printable_encodeChar {c d : Char} (h : d ∈ encodeChar c) : 0x20 ≤ d.toNat := by
  unfold encodeChar at h
  iterate 7
    split at h
    · simp only [List.mem_cons, List.not_mem_nil, or_false] at h
      rcases h with rfl | rfl <;> decide
  split at h
  · next hc =>
    simp only [List.mem_cons, List.not_mem_nil, or_false] at h
    rcases h with rfl | rfl | rfl | rfl | rfl | rfl
    · decide
    · decide
    · decide
    · decide
    · exact printable_hexDigit _ (by omega)
    · exact printable_hexDigit _ (by omega)
  · next hc =>
    obtain rfl := List.mem_singleton.mp h
    omega

theorem printable_encode {s : String} {d : Char} (h : d ∈ encode s) : 0x20 ≤ d.toNat := by
  simp only [encode, List.mem_cons, List.mem_append, List.mem_flatMap, List.not_mem_nil, or_false] at h
  rcases h with (rfl | ⟨c, -, h⟩) | rfl
  · decide
  · exact printable_encodeChar h
  · decide

theorem printable_encodeMember {m : String × String} {d : Char} (h : d ∈ encodeMember m) :
    0x20 ≤ d.toNat := by
  rw [encodeMember, List.mem_append, List.mem_cons] at h
  rcases h with h | rfl | h
  · exact printable_encode h
  · decide
  · exact printable_encode h

theorem printable_intercalate {ms : List (String × String)} {d : Char}
    (h : d ∈ [','].intercalate (ms.map encodeMember)) : 0x20 ≤ d.toNat := by
  induction ms with
  | nil => simp at h
  | cons m ms ih =>
    by_cases hnil : ms = []
    · subst hnil
      exact printable_encodeMember (by simpa using h)
    · rw [List.map_cons, List.intercalate_cons_of_ne_nil (by simpa using hnil), List.mem_append,
        List.mem_append, List.mem_singleton] at h
      rcases h with (h | rfl) | h
      · exact printable_encodeMember h
      · decide
      · exact ih h

theorem printable_encodeObject {ms : List (String × String)} {d : Char}
    (h : d ∈ (encodeObject ms).toList) : 0x20 ≤ d.toNat := by
  rw [encodeObject, String.toList_ofList, List.mem_append, List.mem_cons, List.mem_singleton] at h
  rcases h with (rfl | h) | rfl
  · decide
  · exact printable_intercalate h
  · decide

end ClassLocator.Text.Json

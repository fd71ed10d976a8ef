import ClassLocator.Archive.Entry
import ClassLocator.FileTree
import ClassLocator.Proofs.Path
import Mathlib.Data.List.Forall2
/-!
Trees of files with the same names whose contents differ. Main statements: in such trees a path leads to
the same failure or to nodes that differ in their contents alone, and the same candidates are listed.
-/

namespace ClassLocator

inductive Agree {ε α β : Type} (R : α → β → Prop) : Except ε α → Except ε β → Prop
  | ok {a : α} {b : β} (h : R a b) : Agree R (.ok a) (.ok b)
  | error (e : ε) : Agree R (.error e) (.error e)

namespace Archive

/-- What is to be seen of an archive when no entry is read: the names of the entries, each with the
fault that it cannot be opened for, if there is one. -/
def outline (a : Archive) : List (String × Option Fault) :=
  a.headers.map fun h => (h.name, match openEntry a h with | .ok _ => none | .error fault => some fault)

def OpenAlike (b b' : ByteArray) : Prop := (ofBytes b).map outline = (ofBytes b').map outline

instance (b b' : ByteArray) : Decidable (OpenAlike b b') := by unfold OpenAlike; infer_instance

theorem OpenAlike.agree {b b' : ByteArray} (h : OpenAlike b b') :
    Agree (fun a a' => a.outline = a'.outline) (ofBytes b) (ofBytes b') := by
  unfold OpenAlike at h
  generalize ofBytes b = a, ofBytes b' = a' at h ⊢
  cases a <;> cases a' <;> simp only [Except.map] at h
  · obtain rfl := Except.error.inj h
    exact .error _
  · cases h
  · cases h
  · exact .ok (Except.ok.inj h)

/-- An archive of the entry `p/A.class`, whose data is one byte and whose checksum is that of zero. -/
def ofByte (x : UInt8) : ByteArray := ⟨#[
  80, 75, 3, 4, 20, 0, 0, 0, 0, 0, 0, 0, 33, 0, 141, 239, 2, 210, 1, 0, 0, 0, 1, 0, 0, 0, 9, 0, 0, 0,
  112, 47, 65, 46, 99, 108, 97, 115, 115, x,
  80, 75, 1, 2, 20, 0, 20, 0, 0, 0, 0, 0, 0, 0, 33, 0, 141, 239, 2, 210, 1, 0, 0, 0, 1, 0, 0, 0, 9, 0,
  0, 0, 0, 0, 0, 0, 0, 0, 0, 0, 128, 1, 0, 0, 0, 0, 112, 47, 65, 46, 99, 108, 97, 115, 115,
  80, 75, 5, 6, 0, 0, 0, 0, 1, 0, 1, 0, 55, 0, 0, 0, 40, 0, 0, 0, 0, 0]⟩

end Archive

namespace FileTree

/-- Files or directories of one name that differ in contents alone. Classes and sources may differ in all
of their bytes, other files as long as they open alike. -/
inductive Node.Alike : String × Node → String × Node → Prop
  | file {name : String} {b b' : ByteArray}
      (h : Candidate.Kind.ofName name = .container → Archive.OpenAlike b b') :
      Alike (name, .file b) (name, .file b')
  | directory {name : String} {entries entries' : List (String × Node)}
      (h : List.Forall₂ Alike entries entries') :
      Alike (name, .directory entries) (name, .directory entries')

structure Alike (t t' : FileTree) : Prop where
  root : Node.Alike ("", t.root) ("", t'.root)
  workingDirectory : t.workingDirectory = t'.workingDirectory

namespace Node

variable {entries entries' : List (String × Node)} {name part : String} {node node' : Node}

theorem child?_alike (h : List.Forall₂ Alike entries entries') :
    (child? entries part = none ∧ child? entries' part = none) ∨
      ∃ n n', child? entries part = some n ∧ child? entries' part = some n' ∧
        Alike (part, n) (part, n') := by
  induction h with
  | nil => exact .inl ⟨rfl, rfl⟩
  | @cons e e' es es' he _ ih =>
    obtain ⟨name, n⟩ := e
    obtain ⟨name', n'⟩ := e'
    obtain rfl : name = name' := by cases he <;> rfl
    by_cases hn : name = part
    · subst hn
      exact .inr ⟨n, n', by simp [child?], by simp [child?], he⟩
    · simpa [child?, List.find?_cons, hn] using ih

def AlikeAbove (node node' : Node) : Prop := ∀ name, Alike (name, node) (name, node')

/-- The name that decides is the last one on the way down. Single and double dots lead to directories,
whose names decide nothing. -/
theorem agree_descend (parts : List String) (h : Alike (name, node) (name, node'))
    {above above' : List Node} (ha : List.Forall₂ AlikeAbove above above') :
    Agree (fun n n' => Alike (parts.getLast?.getD name, n) (parts.getLast?.getD name, n'))
      (descend (node :: above) parts) (descend (node' :: above') parts) := by
  induction parts generalizing name node node' above above' with
  | nil => exact .ok h
  | cons part parts ih =>
    have hlast : (part :: parts).getLast?.getD name = parts.getLast?.getD part := by
      simp [List.getLast?_cons]
    rw [hlast]
    cases h with
    | file => exact .error _
    | @directory _ entries entries' hentries =>
      have hsame : AlikeAbove (.directory entries) (.directory entries') := fun _ => .directory hentries
      simp only [descend]
      by_cases hdot : part = "."
      · rw [if_pos hdot, if_pos hdot]
        exact ih (hsame part) ha
      rw [if_neg hdot, if_neg hdot]
      by_cases hup : part = ".."
      · rw [if_pos hup, if_pos hup]
        cases ha with
        | nil => exact ih (hsame part) .nil
        | cons hn ha => exact ih (hn part) ha
      rw [if_neg hup, if_neg hup]
      by_cases hlong : longestName < part.utf8ByteSize
      · rw [if_pos hlong, if_pos hlong]
        exact .error _
      rw [if_neg hlong, if_neg hlong]
      rcases child?_alike hentries with ⟨hnone, hnone'⟩ | ⟨n, n', hn, hn', halike⟩
      · rw [hnone, hnone']
        exact .error _
      · rw [hn, hn']
        exact ih halike (.cons hsame ha)

mutual

theorem filesAt_eq_of_alike : (node node' : Node) → (name path : String) →
    Alike (name, node) (name, node') → node.filesAt path = node'.filesAt path
  | .file _, _, _, path, h => by
    cases h
    simp only [filesAt]
  | .directory entries, _, _, path, h => by
    cases h with
    | directory h =>
      simp only [filesAt]
      rw [filesOfEntries_eq_of_alike entries _ path h]

theorem filesOfEntries_eq_of_alike : (entries entries' : List (String × Node)) → (path : String) →
    List.Forall₂ Alike entries entries' → filesOfEntries path entries = filesOfEntries path entries'
  | [], _, path, h => by
    cases h
    rfl
  | (name, node) :: rest, _, path, h => by
    cases h with
    | @cons _ e' _ rest' he hrest =>
      obtain ⟨name', node'⟩ := e'
      obtain rfl : name = name' := by cases he <;> rfl
      simp only [filesOfEntries]
      rw [filesAt_eq_of_alike node node' name _ he, filesOfEntries_eq_of_alike rest rest' path hrest]

end

theorem filesDirectlyIn_eq_of_alike (path : String) (h : List.Forall₂ Alike entries entries') :
    filesDirectlyIn path entries = filesDirectlyIn path entries' := by
  unfold filesDirectlyIn
  congr 1
  induction h with
  | nil => rfl
  | @cons e e' es es' he _ ih =>
    rw [List.map_cons, List.map_cons, ih]
    cases he with
    | file => simp only [filesAt]
    | directory => rfl

end Node

def steps (workingDirectory path : String) : List String :=
  let cs := path.toList
  let whole := if cs.head? = some '/' then cs else workingDirectory.toList ++ '/' :: cs
  let parts := ((Text.separated '/' whole).filter (· ≠ [])).map String.ofList
  if cs.getLast? = some '/' then parts ++ ["."] else parts

theorem find_eq (t : FileTree) (path : String) :
    t.find path =
      if path.toList.contains '\x00' then .error .nulByte
      else if path.toList.isEmpty then .error .notFound
      else if longestPath < path.utf8ByteSize then .error .nameTooLong
      else Node.descend [t.root] (steps t.workingDirectory path) := rfl

variable {t t' : FileTree}

theorem agree_find (h : t.Alike t') (path : String) :
    Agree (fun n n' => Node.Alike ((steps t.workingDirectory path).getLast?.getD "", n)
      ((steps t.workingDirectory path).getLast?.getD "", n')) (t.find path) (t'.find path) := by
  rw [find_eq, find_eq, ← h.workingDirectory]
  by_cases hnul : path.toList.contains '\x00'
  · rw [if_pos hnul, if_pos hnul]
    exact .error _
  rw [if_neg hnul, if_neg hnul]
  by_cases hempty : path.toList.isEmpty
  · rw [if_pos hempty, if_pos hempty]
    exact .error _
  rw [if_neg hempty, if_neg hempty]
  by_cases hlong : longestPath < path.utf8ByteSize
  · rw [if_pos hlong, if_pos hlong]
    exact .error _
  rw [if_neg hlong, if_neg hlong]
  exact Node.agree_descend _ h.root .nil

theorem candidates_eq_of_alike (h : t.Alike t') (base : String) (recursive : Bool) :
    t.candidates base recursive = t'.candidates base recursive := by
  have hfind := agree_find h base
  unfold candidates
  generalize t.find base = found, t'.find base = found' at hfind ⊢
  cases hfind with
  | error e => rfl
  | @ok n n' halike =>
    cases halike with
    | file => simp only [Node.filesAt]
    | directory hentries =>
      have hall := Node.filesAt_eq_of_alike _ _ "" base (.directory hentries)
      have htop := Node.filesDirectlyIn_eq_of_alike base hentries
      simp only [hall, htop]

theorem getLast?_steps {path name : String} (workingDirectory : String)
    (hn : Path.fileName? path = some name) :
    (steps workingDirectory (Path.absolute workingDirectory path)).getLast? = some name ∨
      (steps workingDirectory (Path.absolute workingDirectory path)).getLast? = some "." := by
  obtain ⟨before, hp⟩ := Path.toList_absolute workingDirectory hn
  obtain ⟨-, -, hs, hne, -⟩ := Path.of_fileName? hn
  generalize Path.absolute workingDirectory path = locator at hp ⊢
  rcases hp with hp | hp
  · left
    obtain ⟨front, hfront⟩ : ∃ front, (if locator.toList.head? = some '/' then locator.toList
        else workingDirectory.toList ++ '/' :: locator.toList) = front ++ '/' :: name.toList := by
      split
      · exact ⟨before, hp⟩
      · exact ⟨workingDirectory.toList ++ '/' :: before, by simp [hp]⟩
    have hlast : locator.toList.getLast? ≠ some '/' := by
      intro h
      have hname : name.toList.getLast? = some '/' := by
        rwa [hp, List.append_cons, List.getLast?_append_of_ne_nil _ hne] at h
      exact hs (List.mem_of_getLast? hname)
    unfold steps
    simp only [hfront, hlast, if_false, Text.separated_append hs]
    simp [hne]
  · right
    have hlast : locator.toList.getLast? = some '/' := by
      rw [hp, List.getLast?_append_of_ne_nil _ (by simp)]
      rfl
    unfold steps
    simp [hlast]

end FileTree

end ClassLocator

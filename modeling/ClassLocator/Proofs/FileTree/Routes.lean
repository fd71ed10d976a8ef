import ClassLocator.FileTree
import ClassLocator.Proofs.Path.Under
import ClassLocator.Proofs.Text.Order
import Mathlib.Data.List.Nodup
/-!
The names on the way to the files of a tree. Main statements: a tree into which files are put stays one whose
names can be told apart, the files below a directory are told by the names that lead to them, and these
stand in the order of their bytes.
-/

namespace ClassLocator.FileTree

open ClassLocator.Path (IsName under)

namespace Node

variable {node child new : Node} {entries : List (String × Node)} {name : String} {names : List String}

mutual

/-- What holds of a directory if it holds of its entries holds of all nodes. -/
@[elab_as_elim]
theorem induction {P : Node → Prop} (file : ∀ content, P (.file content))
    (directory : ∀ entries, (∀ e ∈ entries, P e.2) → P (.directory entries)) : (node : Node) → P node
  | .file content => file content
  | .directory entries => directory entries (induction_entries file directory entries)

theorem induction_entries {P : Node → Prop} (file : ∀ content, P (.file content))
    (directory : ∀ entries, (∀ e ∈ entries, P e.2) → P (.directory entries)) :
    (entries : List (String × Node)) → ∀ e ∈ entries, P e.2
  | [], _, h => by cases h
  | (_, node) :: rest, e, h => by
    rcases List.mem_cons.mp h with rfl | h
    · exact induction file directory node
    · exact induction_entries file directory rest e h

end

/-- The entries of each directory have names of their own, and such as entries can have. -/
inductive WellFormed : Node → Prop
  | file (content : ByteArray) : WellFormed (.file content)
  | directory {entries : List (String × Node)} (nodup : (entries.map (·.1)).Nodup)
      (isName : ∀ e ∈ entries, IsName e.1) (entry : ∀ e ∈ entries, WellFormed e.2) :
      WellFormed (.directory entries)

/-- What stands in a tree at names one below the other. -/
inductive Reaches : Node → List String → Node → Prop
  | here (node : Node) : Reaches node [] node
  | inside {entries : List (String × Node)} {name : String} {node target : Node} {names : List String}
      (entry : (name, node) ∈ entries) (rest : Reaches node names target) :
      Reaches (.directory entries) (name :: names) target

theorem mem_of_child? (h : child? entries name = some child) : (name, child) ∈ entries := by
  obtain ⟨⟨found, node⟩, hfind, rfl⟩ := Option.map_eq_some_iff.mp h
  have hname : found = name := by simpa using List.find?_some hfind
  exact hname ▸ List.mem_of_find?_eq_some hfind

theorem WellFormed.descend {parts : List String} {above : List Node}
    (ha : ∀ n ∈ above, n.WellFormed) (h : descend above parts = .ok node) : node.WellFormed := by
  induction parts generalizing above with
  | nil =>
    cases above with
    | nil => cases h
    | cons n above =>
      cases h
      exact ha node List.mem_cons_self
  | cons part parts ih =>
    cases above with
    | nil => cases h
    | cons n above =>
      cases n with
      | file content => cases h
      | directory entries =>
        simp only [Node.descend] at h
        split at h
        · exact ih ha h
        split at h
        · -- Two dots drop the node reached, unless it is the root.
          refine ih (fun n hn => ha n ?_) h
          split at hn
          · exact List.mem_cons.mpr (.inl (List.mem_singleton.mp hn))
          · exact List.mem_cons_of_mem _ hn
        split at h
        · cases h
        split at h
        · cases h
        · rename_i child hchild
          refine ih (fun n hn => ?_) h
          rcases List.mem_cons.mp hn with rfl | hn
          · cases ha _ List.mem_cons_self with
            | directory _ _ entry => exact entry _ (mem_of_child? hchild)
          · exact ha n hn

theorem WellFormed.insertEntry (h : WellFormed (.directory entries)) (hname : IsName name)
    (hnew : new.WellFormed) :
    WellFormed (.directory (entries.filter (·.1 != name) ++ [(name, new)])) := by
  cases h with
  | directory nodup isName entry =>
    have hkept : (entries.filter (·.1 != name)).Sublist entries := List.filter_sublist
    refine .directory ?_ ?_ ?_
    · rw [List.map_append, List.nodup_append]
      refine ⟨nodup.sublist (hkept.map _), by simp, ?_⟩
      intro a ha b hb hab
      obtain ⟨e, he, rfl⟩ := List.mem_map.mp ha
      obtain rfl : b = name := by simpa using hb
      simp [hab] at he
    · intro e he
      rcases List.mem_append.mp he with he | he
      · exact isName e (hkept.subset he)
      · obtain rfl := List.mem_singleton.mp he
        exact hname
    · intro e he
      rcases List.mem_append.mp he with he | he
      · exact entry e (hkept.subset he)
      · obtain rfl := List.mem_singleton.mp he
        exact hnew

theorem WellFormed.nil : WellFormed (.directory []) := .directory (by simp) (by simp) (by simp)

theorem WellFormed.insert (hnew : new.WellFormed) {parts : List String} (hparts : ∀ p ∈ parts, IsName p)
    {node : Option Node} (h : ∀ n ∈ node, n.WellFormed) : (insert new node parts).WellFormed := by
  induction parts generalizing node with
  | nil =>
    unfold Node.insert
    split
    · split
      · exact h _ rfl
      · exact hnew
    · exact hnew
    · rename_i hp
      cases hp
  | cons part parts ih =>
    have hpart : IsName part := hparts part List.mem_cons_self
    -- what is no directory is taken for an empty one
    have hdirectory : ∀ entries, WellFormed (.directory entries) →
        WellFormed (.directory (entries.filter (·.1 != part) ++
          [(part, Node.insert new (child? entries part) parts)])) := by
      intro entries hentries
      refine hentries.insertEntry hpart (ih (fun p hp => hparts p (List.mem_cons_of_mem part hp)) ?_)
      intro n hn
      cases hentries with
      | directory _ _ entry => exact entry _ (mem_of_child? hn)
    cases node with
    | none => exact hdirectory [] .nil
    | some node =>
      cases node with
      | file content => exact hdirectory [] .nil
      | directory entries => exact hdirectory entries (h _ rfl)

theorem Reaches.isName (hr : Reaches node names child) (h : node.WellFormed) : ∀ n ∈ names, IsName n := by
  induction hr with
  | here => simp
  | inside entry _ ih =>
    cases h with
    | directory _ isName wellFormed =>
      intro n hn
      rcases List.mem_cons.mp hn with rfl | hn
      · exact isName _ entry
      · exact ih (wellFormed _ entry) n hn

theorem Reaches.unique {child' : Node} (hr : Reaches node names child) (h : node.WellFormed)
    (hr' : Reaches node names child') : child = child' := by
  induction hr with
  | here =>
    cases hr'
    rfl
  | inside entry _ ih =>
    cases hr' with
    | inside entry' rest' =>
      cases h with
      | directory nodup _ wellFormed =>
        have hsame := List.inj_on_of_nodup_map nodup entry entry' rfl
        obtain rfl := (Prod.mk.inj hsame).2
        exact ih (wellFormed _ entry) rest'

end Node

theorem isName_of_mem_parts {path p : String} (h : p ∈ Path.parts path) (hup : p ≠ "..") : IsName p := by
  obtain ⟨part, hpart, rfl⟩ := List.mem_map.mp h
  obtain ⟨hsep, hmeans⟩ := List.mem_filter.mp hpart
  have hmeans : part ≠ [] ∧ part ≠ ['.'] := by simpa using hmeans
  exact {
    ne_empty := by simpa [← String.toList_inj] using hmeans.1
    slash_not_mem := by simpa using Text.not_mem_of_mem_separated hsep
    ne_dot := by simpa [← String.toList_inj] using hmeans.2
    ne_up := hup }

theorem isName_of_mem_names {parts : List String} (h : ∀ p ∈ parts, p ≠ ".." → IsName p) :
    ∀ n ∈ names parts, IsName n := by
  have hback : ∀ (parts back : List String), (∀ p ∈ parts, p ≠ ".." → IsName p) →
      (∀ n ∈ back, IsName n) →
      ∀ n ∈ parts.foldl (fun back part => if part = ".." then back.drop 1 else part :: back) back,
        IsName n := by
    intro parts
    induction parts with
    | nil => exact fun back _ hb => hb
    | cons part parts ih =>
      intro back hp hb
      refine ih _ (fun p hm => hp p (List.mem_cons_of_mem part hm)) ?_
      intro n hn
      dsimp only at hn
      split at hn
      · exact hb n (List.mem_of_mem_drop hn)
      · rename_i hup
        rcases List.mem_cons.mp hn with rfl | hn
        · exact hp n List.mem_cons_self hup
        · exact hb n hn
  intro n hn
  exact hback parts [] h (by simp) n (List.mem_reverse.mp hn)

theorem wellFormed_insert {t : FileTree} (h : t.root.WellFormed) (path : String) {new : Node}
    (hnew : new.WellFormed) : (t.insert path new).root.WellFormed :=
  hnew.insert (isName_of_mem_names fun _ => isName_of_mem_parts) (by simpa using h)

theorem wellFormed_find {t : FileTree} (h : t.root.WellFormed) {path : String} {node : Node}
    (hf : t.find path = .ok node) : node.WellFormed := by
  unfold find at hf
  simp only at hf
  split at hf
  · cases hf
  split at hf
  · cases hf
  split at hf
  · cases hf
  · exact Node.WellFormed.descend (by simpa using h) hf

section Sorted

variable {α β : Type} {entries : List (String × α)}

def sorted (entries : List (String × α)) : List (String × α) :=
  entries.mergeSort fun a b => !decide (b.1 < a.1)

theorem sorted_map (f : String × α → β) (entries : List (String × α)) :
    sorted (entries.map fun e => (e.1, f e)) = (sorted entries).map fun e => (e.1, f e) :=
  (List.map_mergeSort (f := fun e : String × α => (e.1, f e)) fun _ _ _ _ => rfl).symm

theorem sorted_perm (entries : List (String × α)) : (sorted entries).Perm entries :=
  List.mergeSort_perm entries _

theorem mem_sorted {e : String × α} : e ∈ sorted entries ↔ e ∈ entries := (sorted_perm entries).mem_iff

theorem pairwise_sorted (h : (entries.map (·.1)).Nodup) :
    (sorted entries).Pairwise fun a b => Text.utf8 a.1.toList < Text.utf8 b.1.toList := by
  have hle : (sorted entries).Pairwise fun a b => (!decide (b.1 < a.1)) = true := by
    refine List.pairwise_mergeSort (fun a b c hab hbc => ?_) (fun a b => ?_) entries
    · simp only [Bool.not_eq_true', decide_eq_false_iff_not, not_lt] at hab hbc ⊢
      exact le_trans hab hbc
    · simp only [Bool.or_eq_true, Bool.not_eq_true', decide_eq_false_iff_not, not_lt]
      exact le_total a.1 b.1
  have hnodup : ((sorted entries).map (·.1)).Nodup := ((sorted_perm entries).map _).nodup_iff.mpr h
  refine hle.imp₂ (fun a b hab hne => ?_) (List.pairwise_map.mp hnodup)
  rw [Text.utf8_toList_lt_iff]
  simp only [Bool.not_eq_true', decide_eq_false_iff_not, not_lt] at hab
  exact lt_of_le_of_ne hab hne

theorem inNameOrder_eq (lists : List (String × List String)) :
    inNameOrder lists = (sorted lists).flatMap (·.2) := rfl

end Sorted

def NameBefore (a b : String) : Prop := Text.utf8 a.toList < Text.utf8 b.toList

/-- The order in which files are listed: by the names on the way to them, the first of them first, and each
name by its bytes. -/
def Before : List String → List String → Prop := List.Lex NameBefore

namespace Node

variable {node : Node} {entries : List (String × Node)} {names : List String}

mutual

def routes : Node → List (List String)
  | .file _ => [[]]
  | .directory entries => (sorted (routesOfEntries entries)).flatMap fun e => e.2.map (e.1 :: ·)

def routesOfEntries : List (String × Node) → List (String × List (List String))
  | [] => []
  | (name, node) :: rest => (name, node.routes) :: routesOfEntries rest

end

theorem routesOfEntries_eq_map (entries : List (String × Node)) :
    routesOfEntries entries = entries.map fun e => (e.1, e.2.routes) := by
  induction entries with
  | nil => rfl
  | cons e rest ih => rw [List.map_cons, ← ih, routesOfEntries]

theorem routes_directory (entries : List (String × Node)) :
    (directory entries).routes = (sorted entries).flatMap fun e => e.2.routes.map (e.1 :: ·) := by
  rw [routes, routesOfEntries_eq_map, sorted_map, List.flatMap_map]

theorem filesOfEntries_eq_map (path : String) (entries : List (String × Node)) :
    filesOfEntries path entries = entries.map fun e => (e.1, e.2.filesAt (Path.join path e.1)) := by
  induction entries with
  | nil => rfl
  | cons e rest ih => rw [List.map_cons, ← ih, filesOfEntries]

theorem filesAt_directory (path : String) (entries : List (String × Node)) :
    filesAt path (directory entries) =
      (sorted entries).flatMap fun e => e.2.filesAt (Path.join path e.1) := by
  rw [filesAt, filesOfEntries_eq_map, inNameOrder_eq, sorted_map, List.flatMap_map]

theorem filesAt_eq (node : Node) (path : String) :
    node.filesAt path =
      (node.routes.filter fun names => Candidate.isSearchable (under path names)).map (under path) := by
  induction node using Node.induction generalizing path with
  | file content =>
    rw [filesAt, routes]
    by_cases h : Candidate.isSearchable path <;> simp [under, h]
  | directory entries ih =>
    rw [filesAt_directory, routes_directory, List.filter_flatMap, List.map_flatMap]
    refine List.flatMap_congr fun e he => ?_
    rw [ih e (mem_sorted.mp he), List.filter_map, List.map_map]
    rfl

theorem ne_nil_of_mem_routes (h : names ∈ (directory entries).routes) : names ≠ [] := by
  rw [routes_directory, List.mem_flatMap] at h
  obtain ⟨e, -, he⟩ := h
  obtain ⟨rest, -, rfl⟩ := List.mem_map.mp he
  exact List.cons_ne_nil e.1 rest

def filesOfEntry (path : String) (e : String × Node) : List String :=
  match e.2 with
  | .file _ => e.2.filesAt (Path.join path e.1)
  | .directory _ => []

theorem filesOfEntry_eq (path : String) (e : String × Node) :
    filesOfEntry path e =
      ((e.2.routes.filter fun names => Candidate.isSearchable (under (Path.join path e.1) names)).filter
        (· = [])).map (under (Path.join path e.1)) := by
  obtain ⟨name, node⟩ := e
  cases node with
  | file content =>
    rw [filesOfEntry, filesAt, routes]
    by_cases h : Candidate.isSearchable (Path.join path name) <;> simp [under, h]
  | directory entries =>
    have hnone : ((directory entries).routes.filter fun names =>
        Candidate.isSearchable (under (Path.join path name) names)).filter (· = []) = [] := by
      rw [List.filter_eq_nil_iff]
      intro names hn
      simpa using ne_nil_of_mem_routes (List.mem_of_mem_filter hn)
    rw [hnone]
    rfl

theorem filesDirectlyIn_eq_flatMap (path : String) (entries : List (String × Node)) :
    filesDirectlyIn path entries = (sorted entries).flatMap (filesOfEntry path) := by
  have hmap : filesDirectlyIn path entries =
      inNameOrder (entries.map fun e => (e.1, filesOfEntry path e)) := by
    unfold filesDirectlyIn
    congr 1
    refine List.map_congr_left fun e _ => ?_
    obtain ⟨name, node⟩ := e
    cases node with
    | file content => rfl
    | directory entries => rfl
  rw [hmap, inNameOrder_eq, sorted_map, List.flatMap_map]

theorem filesDirectlyIn_eq (path : String) (entries : List (String × Node)) :
    filesDirectlyIn path entries =
      (((directory entries).routes.filter fun names => Candidate.isSearchable (under path names)).filter
        (·.length = 1)).map (under path) := by
  rw [filesDirectlyIn_eq_flatMap, routes_directory, List.filter_flatMap, List.filter_flatMap,
    List.map_flatMap]
  refine List.flatMap_congr fun e _ => ?_
  rw [filesOfEntry_eq, List.filter_map, List.filter_map, List.map_map]
  simp [Function.comp_def, Path.under_cons]

theorem mem_routes : names ∈ node.routes ↔ ∃ content, node.Reaches names (.file content) := by
  induction node using Node.induction generalizing names with
  | file content =>
    rw [routes, List.mem_singleton]
    constructor
    · rintro rfl
      exact ⟨content, .here _⟩
    · rintro ⟨_, hr⟩
      cases hr
      rfl
  | directory entries ih =>
    simp only [routes_directory, List.mem_flatMap, List.mem_map, mem_sorted]
    constructor
    · rintro ⟨e, he, rest, hrest, rfl⟩
      obtain ⟨content, hr⟩ := (ih e he).mp hrest
      exact ⟨content, .inside he hr⟩
    · rintro ⟨content, hr⟩
      cases hr with
      | @inside _ name node _ rest he hr =>
        exact ⟨(name, node), he, rest, (ih _ he).mpr ⟨content, hr⟩, rfl⟩

/-- The files of a well-formed tree are met in order, and so each of them once. -/
theorem WellFormed.pairwise_routes (h : node.WellFormed) : node.routes.Pairwise Before := by
  induction h with
  | file content => exact List.pairwise_singleton _ _
  | @directory entries nodup _ _ ih =>
    rw [routes_directory, List.pairwise_flatMap]
    constructor
    · intro e he
      exact List.pairwise_map.mpr ((ih e (mem_sorted.mp he)).imp .cons)
    · refine (pairwise_sorted nodup).imp fun {a b} hab x hx y hy => ?_
      obtain ⟨rest, -, rfl⟩ := List.mem_map.mp hx
      obtain ⟨rest', -, rfl⟩ := List.mem_map.mp hy
      exact .rel hab

end Node

end ClassLocator.FileTree

import ClassLocator.Proofs.FileTree
import ClassLocator.Proofs.FileTree.Routes
import ClassLocator.Proofs.Text.AsciiCase

namespace ClassLocator

namespace Candidate

/-- One of the extensions of searchable files, in capital or small letters, with something in front of the
dot before it. -/
def HasSearchableExtension (name : String) : Prop :=
  ∃ stem ext : String,
    stem ≠ "" ∧ Text.lowerAsciiOnly ext ∈ searchableExtensions ∧ name = stem ++ "." ++ ext

theorem dot_not_mem_of_searchable {ext : String} (h : Text.lowerAsciiOnly ext ∈ searchableExtensions) :
    '.' ∉ ext.toList := by
  intro hd
  have hsmall : '.' ∈ (Text.lowerAsciiOnly ext).toList := by
    rw [Text.toList_lowerAsciiOnly]
    exact List.mem_map.mpr ⟨'.', hd, by decide⟩
  have hnone : ∀ e ∈ searchableExtensions, '.' ∉ e.toList := by decide
  exact hnone _ h hsmall

theorem isSearchable_iff {path name : String} (h : Path.fileName? path = some name) :
    isSearchable path ↔ HasSearchableExtension name := by
  have hext : isSearchable path ↔
      ∃ ext, Path.extension? path = some ext ∧ Text.lowerAsciiOnly ext ∈ searchableExtensions := by
    unfold isSearchable smallExtension?
    cases Path.extension? path <;> simp
  rw [hext]
  constructor
  · rintro ⟨ext, he, hs⟩
    obtain ⟨-, stem, hne, rfl⟩ := (Path.extension?_eq_some_iff h).mp he
    exact ⟨stem, ext, hne, hs, rfl⟩
  · rintro ⟨stem, ext, hne, hs, rfl⟩
    exact ⟨ext, (Path.extension?_eq_some_iff h).mpr ⟨dot_not_mem_of_searchable hs, stem, hne, rfl⟩, hs⟩

end Candidate

namespace FileTree

open ClassLocator.Path (under)
open Node (Reaches)

theorem Before.irrefl (names : List String) : ¬Before names names := by
  induction names with
  | nil => exact fun h => nomatch h
  | cons name rest ih =>
    intro h
    cases h with
    | rel h => exact List.lt_irrefl _ h
    | cons h => exact ih h

theorem Node.WellFormed.nodup_routes {node : Node} (h : node.WellFormed) : node.routes.Nodup := by
  refine h.pairwise_routes.imp fun {a b} hab he => ?_
  subst he
  exact Before.irrefl a hab

theorem find_of_root {t : FileTree} {name : String} {node : Node} (hroot : t.root = .directory [(name, node)])
    (hworking : t.workingDirectory = "/")
    (hname : '\x00' ∉ name.toList ∧ name.utf8ByteSize ≤ Node.longestName ∧ steps "/" name = [name] ∧
      Path.IsName name) : t.find name = .ok node := by
  obtain ⟨hnul, hlong, hsteps, hn⟩ := hname
  have hpath : ¬longestPath < name.utf8ByteSize := by
    simp only [longestPath, Node.longestName] at hlong ⊢
    omega
  have hne : name.toList ≠ [] := hn.toList_ne_nil
  rw [find_eq, if_neg (by simpa using hnul), if_neg (by simpa using hne), if_neg hpath, hroot, hworking,
    hsteps]
  simp [Node.descend, Node.child?, hn.ne_dot, hn.ne_up, Nat.not_lt.mpr hlong]

theorem candidates_of_directory {t : FileTree} {base : String} {entries : List (String × Node)}
    (hb : t.find base = .ok (.directory entries)) (hs : isStandardInput base = false) :
    t.candidates base true = .ok (Node.filesAt base (.directory entries)) ∧
      t.candidates base false = .ok (filesDirectlyIn base entries) := by
  simp [candidates, hb, hs]

def searchableRoutes (base : String) (entries : List (String × Node)) : List (List String) :=
  (Node.directory entries).routes.filter fun names => Candidate.isSearchable (under base names)

section Routes

variable {base : String} {entries below : List (String × Node)} {names : List String}
  (hwf : (Node.directory entries).WellFormed)
include hwf

theorem isName_of_mem_routes (h : names ∈ (Node.directory entries).routes) : ∀ n ∈ names, Path.IsName n := by
  obtain ⟨content, hr⟩ := Node.mem_routes.mp h
  exact hr.isName hwf

theorem mem_searchableRoutes :
    names ∈ searchableRoutes base entries ↔
      (∃ content, Reaches (.directory entries) names (.file content)) ∧
        ∃ name, names.getLast? = some name ∧ Candidate.HasSearchableExtension name := by
  rw [searchableRoutes, List.mem_filter, Node.mem_routes]
  refine and_congr_right fun hr => ?_
  have hroute := Node.mem_routes.mpr hr
  obtain ⟨name, hlast⟩ : ∃ name, names.getLast? = some name :=
    Option.isSome_iff_exists.mp (List.getLast?_isSome.mpr (Node.ne_nil_of_mem_routes hroute))
  rw [Candidate.isSearchable_iff (Path.fileName?_under (isName_of_mem_routes hwf hroute) hlast base), hlast]
  simp

theorem nodup_paths : ((searchableRoutes base entries).map (under base)).Nodup := by
  refine List.Nodup.map_on (fun names hn names' hn' heq => ?_) (hwf.nodup_routes.filter _)
  exact Path.under_inj (isName_of_mem_routes hwf (List.mem_of_mem_filter hn))
    (isName_of_mem_routes hwf (List.mem_of_mem_filter hn')) heq

theorem directory_not_mem_paths (hr : Reaches (.directory entries) names (.directory below)) :
    under base names ∉ (searchableRoutes base entries).map (under base) := by
  intro hmem
  obtain ⟨names', hn', heq⟩ := List.mem_map.mp hmem
  have hroute := List.mem_of_mem_filter hn'
  obtain rfl := Path.under_inj (isName_of_mem_routes hwf hroute) (hr.isName hwf) heq
  obtain ⟨content, hfile⟩ := Node.mem_routes.mp hroute
  cases hr.unique hwf hfile

end Routes

/-- A directory that is asked for by the name of the standard input lists nothing. Any other lists each
searchable file at any depth below it exactly once and nothing else, directory by directory in the order of
the names; without recursion it lists those that stand directly in it. -/
theorem candidates_listing {t : FileTree} (ht : t.root.WellFormed) {base : String}
    {entries : List (String × Node)} (hb : t.find base = .ok (.directory entries)) :
    (isStandardInput base = true → ∀ recursive, t.candidates base recursive = .ok []) ∧
      (isStandardInput base = false → ∃ listing : List (List String),
        t.candidates base true = .ok (listing.map (under base)) ∧
        t.candidates base false = .ok ((listing.filter (·.length = 1)).map (under base)) ∧
        (∀ names, names ∈ listing ↔
          (∃ content, Reaches (.directory entries) names (.file content)) ∧
            ∃ name, names.getLast? = some name ∧ Candidate.HasSearchableExtension name) ∧
        listing.Pairwise Before ∧ (listing.map (under base)).Nodup ∧
        ∀ names below, Reaches (.directory entries) names (.directory below) →
          under base names ∉ listing.map (under base)) := by
  have hwf : (Node.directory entries).WellFormed := wellFormed_find ht hb
  constructor
  · intro hs recursive
    simp [candidates, hb, hs]
  · intro hs
    obtain ⟨hall, htop⟩ := candidates_of_directory hb hs
    refine ⟨searchableRoutes base entries, ?_, ?_, fun names => mem_searchableRoutes hwf,
      hwf.pairwise_routes.filter _, nodup_paths hwf, fun names below => directory_not_mem_paths hwf⟩
    · rw [hall, Node.filesAt_eq]
      rfl
    · rw [htop, Node.filesDirectlyIn_eq]
      rfl

/-- A directory that is named like an archive, and a source in it. -/
theorem candidates_listing_jar :
    let empty : Node := .file ⟨#[]⟩
    let t := ((⟨.directory [], "/"⟩ : FileTree).insert "/d/x.jar/C.JAVA" empty).insert "/d/a.txt" empty
    let entries := [("x.jar", .directory [("C.JAVA", empty)]), ("a.txt", empty)]
    t.root.WellFormed ∧ t.find "d" = .ok (.directory entries) ∧ isStandardInput "d" = false ∧
      ∃ listing : List (List String),
        t.candidates "d" true = .ok (listing.map (under "d")) ∧
        t.candidates "d" false = .ok ((listing.filter (·.length = 1)).map (under "d")) ∧
        ["x.jar", "C.JAVA"] ∈ listing ∧ ["a.txt"] ∉ listing ∧
        under "d" ["x.jar"] ∉ listing.map (under "d") := by
  intro empty t entries
  have hempty : empty.WellFormed := .file _
  have hwf : t.root.WellFormed := wellFormed_insert (wellFormed_insert .nil _ hempty) _ hempty
  have hroot : t.root = .directory [("d", .directory entries)] := by
    have hjava : names (Path.parts "/d/x.jar/C.JAVA") = ["d", "x.jar", "C.JAVA"] := by decide +kernel
    have htxt : names (Path.parts "/d/a.txt") = ["d", "a.txt"] := by decide +kernel
    simp [t, entries, FileTree.insert, hjava, htxt, Node.insert, Node.child?]
  have hfind : t.find "d" = .ok (.directory entries) := find_of_root hroot rfl (by decide +kernel)
  have hbase : isStandardInput "d" = false := by decide +kernel
  obtain ⟨listing, hall, htop, hmem, -, -, hdirectory⟩ := (candidates_listing hwf hfind).2 hbase
  have hjar : ("x.jar", Node.directory [("C.JAVA", empty)]) ∈ entries := List.mem_cons_self
  have hsource : Candidate.HasSearchableExtension "C.JAVA" :=
    (Candidate.isSearchable_iff (by decide +kernel : Path.fileName? "C.JAVA" = some "C.JAVA")).mp
      (by decide +kernel)
  have htext : ¬Candidate.HasSearchableExtension "a.txt" :=
    (Candidate.isSearchable_iff (by decide +kernel : Path.fileName? "a.txt" = some "a.txt")).not.mp
      (by decide +kernel)
  refine ⟨hwf, hfind, hbase, listing, hall, htop, ?_, ?_, ?_⟩
  · have hfile : Reaches (.directory entries) ["x.jar", "C.JAVA"] empty :=
      .inside hjar (.inside List.mem_cons_self (.here _))
    exact (hmem _).mpr ⟨⟨_, hfile⟩, "C.JAVA", rfl, hsource⟩
  · intro h
    obtain ⟨-, name, hname, hext⟩ := (hmem _).mp h
    obtain rfl := Option.some.inj hname
    exact htext hext
  · exact hdirectory ["x.jar"] _ (.inside hjar (.here _))

/-- A directory that is called like the standard input holds a class file, and nothing is listed for it. -/
theorem candidates_standardInput :
    let content : ByteArray := ⟨#[]⟩
    let entries : List (String × Node) := [("A.class", .file content)]
    let t : FileTree := ⟨.directory [("-", .directory entries)], "/"⟩
    t.root.WellFormed ∧ t.find "-" = .ok (.directory entries) ∧
      Reaches (.directory entries) ["A.class"] (.file content) ∧
      Candidate.HasSearchableExtension "A.class" ∧ t.candidates "-" true = .ok [] := by
  intro content entries t
  have hwf : t.root.WellFormed :=
    .insertEntry .nil (by decide) (.insertEntry .nil (by decide) (.file content))
  have hfind : t.find "-" = .ok (.directory entries) := find_of_root rfl rfl (by decide +kernel)
  have hbase : isStandardInput "-" = true := by decide +kernel
  have hclass : Candidate.HasSearchableExtension "A.class" :=
    (Candidate.isSearchable_iff (by decide +kernel : Path.fileName? "A.class" = some "A.class")).mp
      (by decide +kernel)
  exact ⟨hwf, hfind, .inside List.mem_cons_self (.here _), hclass, by simp [candidates, hfind, hbase]⟩

end FileTree

end ClassLocator

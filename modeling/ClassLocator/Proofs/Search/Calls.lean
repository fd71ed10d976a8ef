import ClassLocator.Proofs.Search.Account
import Mathlib.Algebra.BigOperators.Group.List.Basic

namespace ClassLocator

inductive Call where
  | directories (directories : List String) (recursive : Bool)
  | files (paths : List String)
  | file (path : String)
  deriving DecidableEq, Repr

namespace Call

def searched (t : FileTree) : Call → List String
  | directories ds recursive => ds.flatMap (t.listed recursive)
  | files paths => paths
  | file path => [path]

def activities (query : Query) (t : FileTree) : Call → List Activity
  | directories ds recursive =>
    .event (.verbose "Building directory search tree...") ::
      ds.flatMap (t.directoryActivities query recursive) ++ [.event (.verbose "Finished search")]
  | files paths => paths.flatMap (t.activities query)
  | file path => t.activities query path

def events (query : Query) (t : FileTree) : Call → List Event
  | directories ds recursive =>
    .verbose "Building directory search tree..." ::
      ds.flatMap (t.directoryEvents query recursive) ++ [.verbose "Finished search"]
  | files paths => paths.flatMap (t.events query)
  | file path => t.events query path

end Call

theorem Summary.ofEvents_add (m n : Nat) (es fs : List Event) :
    ofEvents m es + ofEvents n fs = ofEvents (m + n) (es ++ fs) := by
  simp [add_def, ofEvents]

theorem Summary.ofEvents_perm {es fs : List Event} (h : es.Perm fs) (n : Nat) :
    ofEvents n es = ofEvents n fs := by
  simp [ofEvents, h.countP_eq]

theorem FileTree.filterMap_directoryActivities (query : Query) (t : FileTree) (recursive : Bool)
    (directory : String) :
    (t.directoryActivities query recursive directory).filterMap (·.event?) =
      t.directoryEvents query recursive directory := by
  unfold directoryActivities directoryEvents
  cases t.candidates directory recursive with
  | ok files => exact List.filterMap_flatMap
  | error e => rfl

theorem Call.filterMap_activities (query : Query) (t : FileTree) (c : Call) :
    (c.activities query t).filterMap (·.event?) = c.events query t := by
  cases c with
  | directories ds recursive =>
    simp [activities, events, List.filterMap_flatMap, FileTree.filterMap_directoryActivities]
  | files paths => exact List.filterMap_flatMap
  | file path => rfl

namespace Searcher

def call (s : Searcher) : Call → Searcher
  | .directories ds recursive => s.searchDirectories ds recursive
  | .files paths => s.searchFiles paths
  | .file path => s.searchFile path

def calls (s : Searcher) (cs : List Call) : Searcher := cs.foldl call s

variable (s : Searcher)

theorem searchDirectories_eq (ds : List String) (recursive : Bool) :
    s.searchDirectories ds recursive =
      s.after (ds.flatMap (s.tree.listed recursive)).length
        ((Call.directories ds recursive).activities s.query s.tree) := by
  have hloop : ∀ s : Searcher, ds.foldl (searchDirectory recursive) s =
      s.after (ds.map fun d => (s.tree.listed recursive d).length).sum
        (ds.flatMap (s.tree.directoryActivities s.query recursive)) := by
    intro s
    refine s.foldl_after fun s' hq ht d => ?_
    rw [← hq, ← ht]
    exact s'.searchDirectory_eq recursive d
  simp [searchDirectories, verbose_eq, hloop, Call.activities, List.length_flatMap]

theorem call_eq (c : Call) :
    s.call c = s.after (c.searched s.tree).length (c.activities s.query s.tree) := by
  cases c with
  | directories ds recursive => exact s.searchDirectories_eq ds recursive
  | files paths => exact s.searchFiles_eq paths
  | file path => exact s.searchFile_eq path

theorem calls_eq (cs : List Call) :
    s.calls cs = s.after (cs.map fun c => (c.searched s.tree).length).sum
      (cs.flatMap (·.activities s.query s.tree)) := by
  refine s.foldl_after fun s' hq ht c => ?_
  rw [← hq, ← ht]
  exact s'.call_eq c

theorem events_calls (cs : List Call) :
    (s.calls cs).events = s.events ++ cs.flatMap (·.events s.query s.tree) := by
  simp only [calls_eq, events_after, List.filterMap_flatMap, Call.filterMap_activities]

theorem query_calls (cs : List Call) : (s.calls cs).query = s.query := by simp [calls_eq]

theorem tree_calls (cs : List Call) : (s.calls cs).tree = s.tree := by simp [calls_eq]

theorem events_searchDirectories (ds : List String) (recursive : Bool) :
    (s.searchDirectories ds recursive).events =
      s.events ++ .verbose "Building directory search tree..." ::
        ds.flatMap (s.tree.directoryEvents s.query recursive) ++ [.verbose "Finished search"] := by
  simp [searchDirectories_eq, Call.filterMap_activities, Call.events]

theorem events_searchDirectories_perm {ds es : List String} (h : ds.Perm es) (recursive : Bool) :
    (s.searchDirectories ds recursive).events.Perm (s.searchDirectories es recursive).events := by
  have hd := h.flatMap_right (s.tree.directoryEvents s.query recursive)
  simp only [events_searchDirectories]
  exact ((hd.cons _).append_left _).append_right _

theorem summary_searchDirectories_perm {ds es : List String} (h : ds.Perm es) (recursive : Bool) :
    (s.searchDirectories ds recursive).summary = (s.searchDirectories es recursive).summary := by
  have hn := (h.flatMap_right (s.tree.listed recursive)).length_eq
  have ha : ((Call.directories ds recursive).activities s.query s.tree).Perm
      ((Call.directories es recursive).activities s.query s.tree) :=
    ((h.flatMap_right (s.tree.directoryActivities s.query recursive)).cons _).append_right _
  simp only [searchDirectories_eq, summary_after, hn]
  rw [Summary.ofEvents_perm (ha.filterMap _)]

theorem summary_after_of_eq {n : Nat} (h : s.summary = .ofEvents n s.events) (m : Nat)
    (as : List Activity) :
    (s.after m as).summary = .ofEvents (n + m) (s.after m as).events := by
  rw [summary_after, events_after, h, Summary.ofEvents_add]

theorem summary_searchDirectory_of_error {recursive : Bool} {directory : String} {e : Failure}
    (h : s.tree.candidates directory recursive = .error e) :
    (searchDirectory recursive s directory).summary =
      { s.summary with errors := s.summary.errors + 1 } := by
  simp [searchDirectory, h, error]

end Searcher

/-- Whatever calls a search had before, a file adds its own events to those told, and what they count to the
counters. The events of several files and of several directories follow one another, and a list of files may
be searched in parts. The order in which directories are given changes neither which events are told nor the
counters. -/
theorem searchFile_after_calls (query : Query) (tree : FileTree) (calls : List Call) :
    let s := Searcher.calls { query, tree } calls
    (∀ path, (s.searchFile path).events = s.events ++ tree.events query path ∧
      (s.searchFile path).summary = s.summary + .ofEvents 1 (tree.events query path)) ∧
    (∀ paths, (s.searchFiles paths).events = s.events ++ paths.flatMap (tree.events query)) ∧
    (∀ paths more, s.searchFiles (paths ++ more) = (s.searchFiles paths).searchFiles more) ∧
    (∀ directories recursive,
      (s.searchDirectories directories recursive).events =
        s.events ++ .verbose "Building directory search tree..." ::
          directories.flatMap (tree.directoryEvents query recursive) ++ [.verbose "Finished search"]) ∧
    ∀ directories reordered recursive, directories.Perm reordered →
      (s.searchDirectories directories recursive).events.Perm
          (s.searchDirectories reordered recursive).events ∧
        (s.searchDirectories directories recursive).summary =
          (s.searchDirectories reordered recursive).summary := by
  intro s
  have hq : s.query = query := Searcher.query_calls _ calls
  have ht : s.tree = tree := Searcher.tree_calls _ calls
  refine ⟨fun path => ?_, fun paths => ?_, fun paths more => ?_, fun directories recursive => ?_,
    fun directories reordered recursive h => ?_⟩
  · rw [s.searchFile_eq, s.events_after, s.summary_after, hq, ht]
    exact ⟨rfl, rfl⟩
  · rw [s.searchFiles_eq, s.events_after, hq, ht, List.filterMap_flatMap]
    rfl
  · simp [Searcher.searchFiles]
  · rw [s.events_searchDirectories, hq, ht]
  · exact ⟨s.events_searchDirectories_perm h recursive, s.summary_searchDirectories_perm h recursive⟩

/-- A directory with a class in it and one that does not exist, in either order. -/
theorem searchFile_after_calls_swap :
    let tree : FileTree := ⟨.directory [("d", .directory [("A.class", .file .empty)])], "/"⟩
    let s := Searcher.calls { query := ⟨"A", "A", false, true, none⟩, tree } [.file "/d/A.class"]
    ["/d", "/e"].Perm ["/e", "/d"] ∧
      (s.searchDirectories ["/d", "/e"] true).events.Perm
        (s.searchDirectories ["/e", "/d"] true).events := by
  intro tree s
  have h : ["/d", "/e"].Perm ["/e", "/d"] := .swap "/e" "/d" []
  exact ⟨h, ((searchFile_after_calls _ tree _).2.2.2.2 _ _ true h).1⟩

/-- After any calls the counters are the numbers of matches told, of failures told and of files searched. A
directory that cannot be listed adds one to the errors and changes no other counter, and a detail changes
none. -/
theorem summary_calls (query : Query) (tree : FileTree) (calls : List Call) :
    let s := Searcher.calls { query, tree } calls
    s.summary.matched = s.events.countP (·.isFound) ∧
    s.summary.errors = s.events.countP (·.isFailed) ∧
    s.summary.candidates = (calls.map fun c => (c.searched tree).length).sum ∧
    (∀ directory recursive e, tree.candidates directory recursive = .error e →
      (Searcher.searchDirectory recursive s directory).summary =
        { s.summary with errors := s.summary.errors + 1 }) ∧
    ∀ text, (s.verbose text).summary = s.summary := by
  intro s
  have ht : s.tree = tree := Searcher.tree_calls _ calls
  have hs : s.summary = .ofEvents (calls.map fun c => (c.searched tree).length).sum s.events := by
    have h := Searcher.summary_after_of_eq { query, tree } (n := 0) rfl
      (calls.map fun c => (c.searched tree).length).sum (calls.flatMap (·.activities query tree))
    rwa [← Searcher.calls_eq { query, tree }, Nat.zero_add] at h
  refine ⟨by rw [hs]; rfl, by rw [hs]; rfl, by rw [hs]; rfl, fun directory recursive e h => ?_,
    fun text => rfl⟩
  exact s.summary_searchDirectory_of_error (ht ▸ h)

/-- A missing directory after a class was found. -/
theorem summary_calls_missing :
    let tree : FileTree := ⟨.directory [("A.class", .file .empty)], "/"⟩
    let s := Searcher.calls { query := ⟨"A", "A", false, true, none⟩, tree } [.file "/A.class"]
    tree.candidates "/e" true = .error (.missingDirectory "/e") ∧
      (Searcher.searchDirectory true s "/e").summary =
        { s.summary with errors := s.summary.errors + 1 } := by
  intro tree s
  have h : tree.candidates "/e" true = .error (.missingDirectory "/e") := by decide
  exact ⟨h, (summary_calls _ tree _).2.2.2.1 _ _ _ h⟩

end ClassLocator

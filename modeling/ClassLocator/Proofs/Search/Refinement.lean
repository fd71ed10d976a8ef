import ClassLocator.Proofs.Query
import ClassLocator.Proofs.Search.Events
/-!
A search for methods beside the search for their classes alone. Main statement: the search for methods goes
through as many files, and its events are the same but for a block of methods in place of each candidate.
-/

namespace ClassLocator

/-- What a search for methods tells in place of a candidate: its methods, each with its line or with its
failure, or once that the candidate cannot be read. -/
inductive Candidate.Block (filter : String) (c : Candidate) : List Event → Prop
  | methods (outcomes : List (Except Failure Declaration)) :
      Block filter c (outcomes.flatMap (c.methodEvents filter))
  | unread {scope : Scope} (h : scope = .file c.locator ∨ scope = .entry c.displayName c.locator)
      (e : Failure) : Block filter c (scope.events e)

/-- The second list has a block in place of each candidate of the first, and is the same otherwise. -/
inductive Refines (filter : String) : List Event → List Event → Prop
  | nil : Refines filter [] []
  | same {e : Event} {es fs : List Event} (h : e.isFound = false) :
      Refines filter es fs → Refines filter (e :: es) (e :: fs)
  | candidate {c : Candidate} {block es fs : List Event} (h : c.Block filter block) :
      Refines filter es fs → Refines filter (.found ⟨c, none⟩ :: es) (block ++ fs)

namespace Refines

variable {filter : String} {es es' fs fs' : List Event}

theorem append (h : Refines filter es fs) (h' : Refines filter es' fs') :
    Refines filter (es ++ es') (fs ++ fs') := by
  induction h with
  | nil => exact h'
  | same he _ ih => exact .same he ih
  | candidate hb _ ih =>
    rw [List.append_assoc]
    exact .candidate hb ih

theorem flatMap {ι : Type} {f g : ι → List Event} {xs : List ι}
    (h : ∀ x ∈ xs, Refines filter (f x) (g x)) : Refines filter (xs.flatMap f) (xs.flatMap g) := by
  induction xs with
  | nil => exact .nil
  | cons x xs ih => exact (h x (by simp)).append (ih fun y hy => h y (by simp [hy]))

theorem failure (scope : Scope) (e : Failure) : Refines filter (scope.events e) (scope.events e) :=
  .same rfl (.same rfl .nil)

theorem single {c : Candidate} (h : c.Block filter fs) : Refines filter [.found ⟨c, none⟩] fs := by
  have hs : Refines filter [.found ⟨c, none⟩] (fs ++ []) := .candidate h .nil
  rwa [List.append_nil] at hs

end Refines

theorem Candidate.Block.of_mem {filter : String} {c : Candidate} {block : List Event} {m : Match}
    (h : c.Block filter block) (hm : .found m ∈ block) : m.candidate = c ∧ m.signature.isSome := by
  cases h with
  | methods outcomes =>
    obtain ⟨outcome, -, hm⟩ := List.mem_flatMap.mp hm
    cases outcome with
    | ok d =>
      obtain rfl : m = ⟨c, some d.render⟩ := by simpa [methodEvents] using hm
      exact ⟨rfl, rfl⟩
    | error e => simp [methodEvents, Scope.events] at hm
  | unread _ e => simp [Scope.events] at hm

theorem Refines.of_mem {filter : String} {es fs : List Event} {m : Match} (h : Refines filter es fs)
    (hm : .found m ∈ fs) : .found ⟨m.candidate, none⟩ ∈ es ∧ m.signature.isSome := by
  induction h with
  | nil => cases hm
  | same he _ ih =>
    rcases List.mem_cons.mp hm with rfl | hm
    · cases he
    · exact (ih hm).imp_left (List.mem_cons_of_mem _)
  | candidate hb _ ih =>
    rcases List.mem_append.mp hm with hm | hm
    · obtain ⟨rfl, hs⟩ := hb.of_mem hm
      exact ⟨List.mem_cons_self, hs⟩
    · exact (ih hm).imp_left (List.mem_cons_of_mem _)

section Filter

variable {q : Query} {filter : String} (hq : q.methodFilter = none)

def Query.withFilter (q : Query) (filter : String) : Query := { q with methodFilter := some filter }

theorem Candidate.isMatch_withFilter : isMatch (q.withFilter filter) = isMatch q := rfl

theorem Archive.findings_withFilter : findings (q.withFilter filter) = findings q := by
  unfold findings
  rw [Candidate.isMatch_withFilter]

theorem FileTree.findings_withFilter (t : FileTree) (path : String) :
    t.findings (q.withFilter filter) path = t.findings q path := by
  unfold findings
  rw [Candidate.isMatch_withFilter, Archive.findings_withFilter]

include hq

theorem Finding.refines {locator : String} {f : Finding} (h : f.IsAt locator) :
    Refines filter (f.events q) (f.events (q.withFilter filter)) := by
  cases f with
  | unopened scope e => exact .failure scope e
  | matched scope c content =>
    simp only [events, hq, Query.withFilter]
    split
    · exact .single (.methods _)
    · exact .single (.unread h.2 _)

theorem FileTree.refines_events (t : FileTree) (path : String) :
    Refines filter (t.events q path) (t.events (q.withFilter filter) path) := by
  rw [events_eq, events_eq, findings_withFilter]
  exact .flatMap fun f hf => f.refines hq (isAt_of_mem_findings hf)

theorem FileTree.refines_directoryEvents (t : FileTree) (recursive : Bool) (directory : String) :
    Refines filter (t.directoryEvents q recursive directory)
      (t.directoryEvents (q.withFilter filter) recursive directory) := by
  unfold directoryEvents
  cases t.candidates directory recursive with
  | ok files => exact .flatMap fun path _ => t.refines_events hq path
  | error e => exact .same rfl .nil

theorem refines_search (filter : String) (tree : FileTree) (directories : List String)
    (recursive : Bool) :
    Refines filter (search q tree directories recursive).events
      (search (q.withFilter filter) tree directories recursive).events := by
  simp only [search, Searcher.events_searchDirectories]
  have hstart : Refines filter (Searcher.events { query := q, tree })
      (Searcher.events { query := q.withFilter filter, tree }) := .nil
  have hdirs : Refines filter (directories.flatMap (tree.directoryEvents q recursive))
      (directories.flatMap (tree.directoryEvents (q.withFilter filter) recursive)) :=
    .flatMap fun d _ => tree.refines_directoryEvents hq recursive d
  exact (hstart.append (.same rfl hdirs)).append (.same rfl .nil)

end Filter

theorem Query.new_withFilter {raw f : String} {caseSensitive : Bool} {q : Query}
    (hf : ∃ c ∈ f.toList, ¬Text.isBlank c) (hq : Query.new raw caseSensitive none = .ok q) :
    Query.new raw caseSensitive (some f) =
      .ok (q.withFilter (String.ofList (Text.trim f.toList))) := by
  rw [Query.new_eq, hq, filterOf_eq_some hf]
  rfl

/-- A filter that is not blank makes the search for a class one for its methods. It goes through as many
files, and its events are the same but for a block of methods in place of each candidate. So each match is a
method of a candidate that the search for the class finds. -/
theorem search_refines {raw f : String} {caseSensitive : Bool} {q : Query}
    (hf : ∃ c ∈ f.toList, ¬Text.isBlank c) (hq : Query.new raw caseSensitive none = .ok q) :
    ∃ q', Query.new raw caseSensitive (some f) = .ok q' ∧ ∀ tree directories recursive,
      let s := search q tree directories recursive
      let s' := search q' tree directories recursive
      s'.summary.candidates = s.summary.candidates ∧
      Refines (String.ofList (Text.trim f.toList)) s.events s'.events ∧
      ∀ m, .found m ∈ s'.events → .found ⟨m.candidate, none⟩ ∈ s.events ∧ m.signature.isSome := by
  refine ⟨_, Query.new_withFilter hf hq, fun tree directories recursive => ?_⟩
  have hnone : q.methodFilter = none := Query.methodFilter_of_new hq
  have hrefines := refines_search hnone (String.ofList (Text.trim f.toList)) tree directories recursive
  exact ⟨by rw [summary_search, summary_search]; rfl, hrefines, fun m hm => hrefines.of_mem hm⟩

/-- A class file that cannot be read, below one of two directories. -/
theorem search_refines_broken :
    let tree : FileTree := ⟨.directory [("d", .directory [("A.class", .file .empty)])], "/"⟩
    let c : Candidate := ⟨"A.class", "/d/A.class", .compiled⟩
    let q : Query := ⟨"A", "a", false, false, none⟩
    (∃ c ∈ " run ".toList, ¬Text.isBlank c) ∧ Query.new "A" false none = .ok q ∧
      (search q tree ["/d", "/e"] true).events =
        [.verbose "Building directory search tree...", .found ⟨c, none⟩,
          .failed "/e" "directory \"/e\" does not exist", .verbose "Finished search"] ∧
      ∃ q', Query.new "A" false (some " run ") = .ok q' ∧
        Refines "run" (search q tree ["/d", "/e"] true).events
          (search q' tree ["/d", "/e"] true).events := by
  intro tree c q
  have hf : ∃ c ∈ " run ".toList, ¬Text.isBlank c := ⟨'r', by decide, by decide⟩
  have hq : Query.new "A" false none = .ok q := by decide +kernel
  obtain ⟨q', hq', h⟩ := search_refines hf hq
  exact ⟨hf, hq, by decide +kernel, q', hq', (h tree ["/d", "/e"] true).2.1⟩

end ClassLocator

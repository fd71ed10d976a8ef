import ClassLocator.Search
import Mathlib.Algebra.GroupWithZero.Nat
import Mathlib.Data.List.Flatten
/-!
A search told as a list: what it comes across in a file, and what it tells of that, with no state that
goes from one file to the next. Main statements: in whatever state a search is, it tells of a file what
that file alone gives, and its counters are those of the events it told.
-/

namespace ClassLocator

/-- What a failure is about that is told with a detail before it. -/
inductive Scope where
  | file (locator : String)
  /-- An entry that cannot be opened, so that nothing is known but its archive. -/
  | anyEntry (locator : String)
  | entry (name locator : String)
  | method (filter : String) (candidate : Candidate)

namespace Scope

def detail : Scope → String → String
  | file locator, why => s!"Error reading file {locator}: {why}"
  | anyEntry locator, why => s!"Error reading an entry of {locator}: {why}"
  | entry name locator, why => s!"Error reading {name} from {locator}: {why}"
  | method filter c, why => s!"Error reading method {filter} from class {c.displayName}: {why}"

def locator : Scope → String
  | file locator | anyEntry locator | entry _ locator => locator
  | method _ c => c.locator

def message : Scope → String → String
  | file _, why | anyEntry _, why => why
  | entry name _, why => s!"{name}: {why}"
  | method _ c, why => s!"{c.displayName}: {why}"

def activities (scope : Scope) (e : Failure) : List Activity :=
  [.event (.verbose (scope.detail e.message)), .event (.failed scope.locator (scope.message e.message))]

end Scope

namespace Candidate

def methodActivities (filter : String) (c : Candidate) : Except Failure Declaration → List Activity
  | .ok d => [.event (.found ⟨c, some d.render⟩)]
  | .error e => (Scope.method filter c).activities e

def sourceActivities (filter : String) (c : Candidate) (content : ByteArray) :
    Except Failure (List Activity) :=
  (Java.declarations (Text.Utf8.decodeLossy content) filter).map fun ds =>
    ds.map fun d => .event (.found ⟨c, some d.render⟩)

def classFileActivities (filter : String) (c : Candidate) (content : ByteArray) :
    Except Failure (List Activity) :=
  (ClassFile.declarations content filter).map fun outcomes =>
    (ClassFile.problems content filter).map (fun p => .remark p.message) ++
      outcomes.flatMap (c.methodActivities filter)

/-- What is told of the methods of a candidate with this content, which is that of a class file unless
the kind says otherwise. -/
def contentActivities (filter : String) (c : Candidate) (content : ByteArray) :
    Except Failure (List Activity) :=
  match c.kind with
  | .source => c.sourceActivities filter content
  | _ => c.classFileActivities filter content

def activities (query : Query) (c : Candidate) (content : Except Failure ByteArray) :
    Except Failure (List Activity) :=
  match query.methodFilter with
  | none => .ok [.event (.found ⟨c, none⟩)]
  | some filter => content.bind (c.contentActivities filter)

end Candidate

/-- What a search comes across before it looks into any content. -/
inductive Finding where
  | unopened (scope : Scope) (e : Failure)
  | matched (scope : Scope) (c : Candidate) (content : Except Failure ByteArray)

def Finding.activities (query : Query) : Finding → List Activity
  | unopened scope e => scope.activities e
  | matched scope c content =>
    match c.activities query content with
    | .ok told => told
    | .error e => scope.activities e

def Archive.findings (query : Query) (locator : String) (a : Archive) (h : Header) : List Finding :=
  match openEntry a h with
  | .error fault => [.unopened (.anyEntry locator) (.archive fault)]
  | .ok entry =>
    if h.isDirectory || !Candidate.isMatch query h.name h.name then []
    else [.matched (.entry h.name locator) ⟨h.name, locator, .ofName h.name⟩ entry.read]

namespace FileTree

def findings (query : Query) (t : FileTree) (path : String) : List Finding :=
  let locator := Path.absolute t.workingDirectory path
  let name := (Path.fileName? path).getD locator
  match Candidate.Kind.ofName name with
  | .container =>
    match Searcher.openArchive t locator with
    | .error e => [.unopened (.file locator) e]
    | .ok archive => archive.headers.flatMap (archive.findings query locator)
  | kind =>
    if Candidate.isMatch query name locator then
      [.matched (.file locator) ⟨name, locator, kind⟩ (Searcher.readFile t locator)]
    else []

def activities (query : Query) (t : FileTree) (path : String) : List Activity :=
  (t.findings query path).flatMap (·.activities query)

def events (query : Query) (t : FileTree) (path : String) : List Event :=
  (t.activities query path).filterMap (·.event?)

def listed (t : FileTree) (recursive : Bool) (directory : String) : List String :=
  match t.candidates directory recursive with
  | .ok files => files
  | .error _ => []

def directoryActivities (query : Query) (t : FileTree) (recursive : Bool) (directory : String) :
    List Activity :=
  match t.candidates directory recursive with
  | .ok files => files.flatMap (t.activities query)
  | .error e => [.event (.failed directory e.message)]

def directoryEvents (query : Query) (t : FileTree) (recursive : Bool) (directory : String) :
    List Event :=
  match t.candidates directory recursive with
  | .ok files => files.flatMap (t.events query)
  | .error e => [.failed directory e.message]

end FileTree

def Event.isFound : Event → Bool
  | found _ => true
  | _ => false

def Event.isFailed : Event → Bool
  | failed .. => true
  | _ => false

namespace Summary

instance : Add Summary where
  add a b := ⟨a.candidates + b.candidates, a.matched + b.matched, a.errors + b.errors⟩

def ofEvents (n : Nat) (es : List Event) : Summary := ⟨n, es.countP (·.isFound), es.countP (·.isFailed)⟩

theorem add_def (a b : Summary) :
    a + b = ⟨a.candidates + b.candidates, a.matched + b.matched, a.errors + b.errors⟩ := rfl

@[simp] theorem add_zero (a : Summary) : a + ofEvents 0 [] = a := rfl

theorem add_ofEvents (a : Summary) (m n : Nat) (es fs : List Event) :
    a + ofEvents m es + ofEvents n fs = a + ofEvents (m + n) (es ++ fs) := by
  simp [add_def, ofEvents, Nat.add_assoc]

end Summary

@[simp] theorem Activity.event?_event (e : Event) : (event e).event? = some e := rfl

@[simp] theorem Activity.event?_remark (text : String) : (remark text).event? = none := rfl

namespace Searcher

/-- A search that went through `n` more files and did these things on the way. -/
def after (s : Searcher) (n : Nat) (as : List Activity) : Searcher :=
  { s with
    summary := s.summary + .ofEvents n (as.filterMap (·.event?))
    activities := s.activities ++ as }

variable (s : Searcher)

@[simp] theorem query_after (n : Nat) (as : List Activity) : (s.after n as).query = s.query := rfl

@[simp] theorem tree_after (n : Nat) (as : List Activity) : (s.after n as).tree = s.tree := rfl

@[simp] theorem summary_after (n : Nat) (as : List Activity) :
    (s.after n as).summary = s.summary + .ofEvents n (as.filterMap (·.event?)) := rfl

@[simp] theorem events_after (n : Nat) (as : List Activity) :
    (s.after n as).events = s.events ++ as.filterMap (·.event?) := by
  simp [after, events]

@[simp] theorem after_nil : s.after 0 [] = s := by simp [after]

@[simp] theorem after_after (m n : Nat) (as bs : List Activity) :
    (s.after m as).after n bs = s.after (m + n) (as ++ bs) := by
  have ha : s.activities ++ as ++ bs = s.activities ++ (as ++ bs) :=
    Array.toList_inj.mp (by simp)
  simp [after, Summary.add_ofEvents, ha]

theorem foldl_after {ι : Type} {step : Searcher → ι → Searcher} {n : ι → Nat}
    {told : ι → List Activity} {xs : List ι}
    (h : ∀ s', s'.query = s.query → s'.tree = s.tree →
      ∀ x, step s' x = s'.after (n x) (told x)) :
    xs.foldl step s = s.after (xs.map n).sum (xs.flatMap told) := by
  induction xs generalizing s with
  | nil => simp
  | cons x xs ih =>
    have hx := h s rfl rfl x
    have hxs := ih (s.after (n x) (told x)) h
    simp [hx, hxs]

/-- Steps within one file, which count no candidate. -/
theorem foldl_within {ι : Type} {step : Searcher → ι → Searcher} {told : ι → List Activity}
    {xs : List ι}
    (h : ∀ s', s'.query = s.query → s'.tree = s.tree → ∀ x, step s' x = s'.after 0 (told x)) :
    xs.foldl step s = s.after 0 (xs.flatMap told) := by
  have hz : (xs.map fun _ => 0).sum = 0 := by
    rw [List.map_const', List.sum_replicate_nat, Nat.mul_zero]
  rw [s.foldl_after h, hz]

theorem remark_eq (text : String) : s.remark text = s.after 0 [.remark text] := by
  simp [remark, after, List.filterMap_cons]

theorem verbose_eq (text : String) : s.verbose text = s.after 0 [.event (.verbose text)] := by
  simp [verbose, after, Summary.add_def, Summary.ofEvents, Event.isFound,
    Event.isFailed]

theorem emit_eq (c : Candidate) (signature : Option String) :
    s.emit c signature = s.after 0 [.event (.found ⟨c, signature⟩)] := by
  simp [emit, after, Summary.add_def, Summary.ofEvents, Event.isFound,
    Event.isFailed]

theorem error_eq (locator message : String) :
    s.error locator message = s.after 0 [.event (.failed locator message)] := by
  simp [error, after, Summary.add_def, Summary.ofEvents, Event.isFound,
    Event.isFailed]

theorem fail_eq (scope : Scope) (e : Failure) :
    s.fail (scope.detail e.message) scope.locator (scope.message e.message) =
      s.after 0 (scope.activities e) := by
  simp [fail, verbose_eq, error_eq, Scope.activities]

theorem reportMethod_eq (filter : String) (c : Candidate) (outcome : Except Failure Declaration) :
    reportMethod filter c s outcome = s.after 0 (c.methodActivities filter outcome) := by
  cases outcome with
  | ok d => exact s.emit_eq c (some d.render)
  | error e => exact s.fail_eq (.method filter c) e

theorem reportMethods_eq (filter : String) (c : Candidate) (content : ByteArray) :
    s.reportMethods filter c content = (c.contentActivities filter content).map (s.after 0) := by
  have hd : ∀ (s : Searcher) (ds : List Declaration),
      ds.foldl (fun s d => s.emit c (some d.render)) s =
        s.after 0 (ds.map fun d => .event (.found ⟨c, some d.render⟩)) := by
    intro s ds
    rw [List.map_eq_flatMap]
    exact s.foldl_within fun s' _ _ d => s'.emit_eq c (some d.render)
  have hp : ∀ (s : Searcher) (ps : List ClassFile.SignatureProblem),
      ps.foldl (fun s p => s.remark p.message) s =
        s.after 0 (ps.map fun p => .remark p.message) := by
    intro s ps
    rw [List.map_eq_flatMap]
    exact s.foldl_within fun s' _ _ p => s'.remark_eq p.message
  have ho : ∀ (s : Searcher) (os : List (Except Failure Declaration)),
      os.foldl (reportMethod filter c) s = s.after 0 (os.flatMap (c.methodActivities filter)) :=
    fun s os => s.foldl_within fun s' _ _ o => s'.reportMethod_eq filter c o
  unfold reportMethods Candidate.contentActivities Candidate.sourceActivities
    Candidate.classFileActivities
  cases c.kind with
  | source => cases Java.declarations (Text.Utf8.decodeLossy content) filter with
    | error e => rfl
    | ok ds => exact congrArg Except.ok (hd s ds)
  | compiled | container => cases ClassFile.declarations content filter with
    | error e => rfl
    | ok outcomes =>
      show Except.ok _ = Except.ok _
      simp [hp, ho]

theorem resolve_eq (c : Candidate) (load : Unit → Except Failure ByteArray) :
    s.resolve c load = (c.activities s.query (load ())).map (s.after 0) := by
  unfold resolve Candidate.activities
  cases s.query.methodFilter with
  | none => exact congrArg Except.ok (s.emit_eq c none)
  | some filter => cases load () with
    | error e => rfl
    | ok content => exact s.reportMethods_eq filter c content

theorem resolved_eq (scope : Scope) (c : Candidate) (load : Unit → Except Failure ByteArray) :
    (match s.resolve c load with
      | .ok s' => s'
      | .error e => s.fail (scope.detail e.message) scope.locator (scope.message e.message)) =
      s.after 0 ((Finding.matched scope c (load ())).activities s.query) := by
  simp only [resolve_eq, fail_eq, Finding.activities]
  cases c.activities s.query (load ()) with
  | ok told => rfl
  | error e => rfl

theorem searchEntry_eq (a : Archive) (locator : String) (h : Archive.Header) :
    searchEntry a locator s h =
      s.after 0 ((a.findings s.query locator h).flatMap (·.activities s.query)) := by
  unfold searchEntry Archive.findings
  cases Archive.openEntry a h with
  | error fault =>
    simp only [List.flatMap_singleton]
    exact s.fail_eq (.anyEntry locator) (.archive fault)
  | ok entry =>
    simp only
    split
    · simp
    · simp only [List.flatMap_singleton]
      exact s.resolved_eq (.entry h.name locator) ⟨h.name, locator, .ofName h.name⟩ fun _ => entry.read

theorem namedFile_eq (name locator : String) (kind : Candidate.Kind) :
    (if Candidate.isMatch s.query name locator then
      match s.resolve ⟨name, locator, kind⟩ fun _ => readFile s.tree locator with
      | .ok s => s
      | .error e => s.failFile locator e
    else s) =
      s.after 0 ((if Candidate.isMatch s.query name locator then
        [Finding.matched (.file locator) ⟨name, locator, kind⟩ (readFile s.tree locator)]
      else []).flatMap (·.activities s.query)) := by
  split
  · simp only [List.flatMap_singleton]
    exact s.resolved_eq (.file locator) ⟨name, locator, kind⟩ fun _ => readFile s.tree locator
  · simp

theorem archive_eq (locator : String) :
    (match openArchive s.tree locator with
      | .error e => s.failFile locator e
      | .ok archive => archive.headers.foldl (searchEntry archive locator) s) =
      s.after 0 ((match openArchive s.tree locator with
        | .error e => [Finding.unopened (.file locator) e]
        | .ok archive => archive.headers.flatMap (archive.findings s.query locator)).flatMap
          (Finding.activities s.query)) := by
  cases openArchive s.tree locator with
  | error e =>
    simp only [List.flatMap_singleton]
    exact s.fail_eq (.file locator) e
  | ok archive =>
    simp only [List.flatMap_assoc]
    refine s.foldl_within fun s' hq _ h => ?_
    rw [← hq]
    exact s'.searchEntry_eq archive locator h

theorem searchFile_eq (path : String) :
    s.searchFile path = s.after 1 (s.tree.activities s.query path) := by
  let counted : Searcher :=
    { s with summary := { s.summary with candidates := s.summary.candidates + 1 } }
  have hcount : counted = s.after 1 [] := by
    simp [counted, after, Summary.add_def, Summary.ofEvents]
  have hfile : s.searchFile path = counted.after 0 (s.tree.activities s.query path) := by
    unfold searchFile FileTree.activities FileTree.findings
    dsimp only
    generalize Path.absolute s.tree.workingDirectory path = locator
    generalize (Path.fileName? path).getD locator = name
    cases Candidate.Kind.ofName name with
    | compiled => exact counted.namedFile_eq name locator .compiled
    | source => exact counted.namedFile_eq name locator .source
    | container => exact counted.archive_eq locator
  rw [hfile, hcount, after_after, List.nil_append]

theorem searchFiles_eq (paths : List String) :
    s.searchFiles paths = s.after paths.length (paths.flatMap (s.tree.activities s.query)) := by
  have hn : (paths.map fun _ => 1).sum = paths.length := by
    rw [List.map_const', List.sum_replicate_nat, Nat.mul_one]
  rw [← hn]
  refine s.foldl_after fun s' hq ht path => ?_
  rw [← hq, ← ht]
  exact s'.searchFile_eq path

theorem searchDirectory_eq (recursive : Bool) (directory : String) :
    searchDirectory recursive s directory =
      s.after (s.tree.listed recursive directory).length
        (s.tree.directoryActivities s.query recursive directory) := by
  unfold searchDirectory FileTree.listed FileTree.directoryActivities
  cases s.tree.candidates directory recursive with
  | ok files => exact s.searchFiles_eq files
  | error e => exact s.error_eq directory e.message

end Searcher

end ClassLocator

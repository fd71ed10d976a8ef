import ClassLocator.Proofs.Search.Events
/-!
The events of a search in the order in which they stand. Main statement: a search that is used again and
again tells the blocks of its calls one behind the other, and within them each failure stands directly
behind its detail, unless it is that of a directory that cannot be listed.
-/

namespace ClassLocator

/-- What is told at one go of the file at `locator`: a match, or a failure behind its detail. -/
inductive Telling (locator : String) : List Event → Prop
  | found {c : Candidate} (h : c.locator = locator) (signature : Option String) :
      Telling locator [.found ⟨c, signature⟩]
  | failed {scope : Scope} (h : scope.locator = locator) (e : Failure) :
      Telling locator (scope.events e)

inductive FileTrace (locator : String) : List Event → Prop
  | nil : FileTrace locator []
  | cons {es fs : List Event} : Telling locator es → FileTrace locator fs → FileTrace locator (es ++ fs)

/-- One trace for each item of a list, one behind the other. -/
inductive InTurn {ι : Type} (R : ι → List Event → Prop) : List ι → List Event → Prop
  | nil : InTurn R [] []
  | cons {x : ι} {xs : List ι} {es fs : List Event} :
      R x es → InTurn R xs fs → InTurn R (x :: xs) (es ++ fs)

inductive DirectoryTrace (t : FileTree) (recursive : Bool) (directory : String) : List Event → Prop
  | listed {files : List String} {es : List Event}
      (h : t.candidates directory recursive = .ok files) :
      InTurn (fun path => FileTrace (Path.absolute t.workingDirectory path)) files es →
        DirectoryTrace t recursive directory es
  | unlisted {e : Failure} (h : t.candidates directory recursive = .error e) :
      DirectoryTrace t recursive directory [.failed directory e.message]

inductive CallTrace (t : FileTree) : Call → List Event → Prop
  | directories {ds : List String} {recursive : Bool} {es : List Event} :
      InTurn (DirectoryTrace t recursive) ds es →
        CallTrace t (.directories ds recursive)
          (.verbose "Building directory search tree..." :: es ++ [.verbose "Finished search"])
  | files {paths : List String} {es : List Event} :
      InTurn (fun path => FileTrace (Path.absolute t.workingDirectory path)) paths es →
        CallTrace t (.files paths) es
  | file {path : String} {es : List Event} :
      FileTrace (Path.absolute t.workingDirectory path) es → CallTrace t (.file path) es

theorem InTurn.flatMap {ι : Type} {R : ι → List Event → Prop} {f : ι → List Event} {xs : List ι}
    (h : ∀ x ∈ xs, R x (f x)) : InTurn R xs (xs.flatMap f) := by
  induction xs with
  | nil => exact .nil
  | cons x xs ih => exact .cons (h x (by simp)) (ih fun y hy => h y (by simp [hy]))

namespace FileTrace

variable {locator : String} {es fs : List Event}

theorem single (h : Telling locator es) : FileTrace locator es := by
  have hs := FileTrace.cons h .nil
  rwa [List.append_nil] at hs

theorem append (he : FileTrace locator es) (hf : FileTrace locator fs) :
    FileTrace locator (es ++ fs) := by
  induction he with
  | nil => exact hf
  | cons ht _ ih =>
    rw [List.append_assoc]
    exact .cons ht ih

theorem flatMap {ι : Type} {f : ι → List Event} {xs : List ι}
    (h : ∀ x ∈ xs, FileTrace locator (f x)) : FileTrace locator (xs.flatMap f) := by
  induction xs with
  | nil => exact .nil
  | cons x xs ih => exact (h x (by simp)).append (ih fun y hy => h y (by simp [hy]))

end FileTrace

theorem Candidate.fileTrace_methodEvents {c : Candidate} (filter : String)
    (outcome : Except Failure Declaration) : FileTrace c.locator (c.methodEvents filter outcome) := by
  cases outcome with
  | ok d => exact .single (.found rfl _)
  | error e =>
    have hl : (Scope.method filter c).locator = c.locator := rfl
    exact .single (.failed hl e)

theorem Finding.fileTrace {locator : String} (query : Query) {f : Finding} (h : f.IsAt locator) :
    FileTrace locator (f.events query) := by
  cases f with
  | unopened scope e => exact .single (.failed h e)
  | matched scope c content =>
    obtain ⟨rfl, hs⟩ := h
    simp only [events]
    split
    · exact .single (.found rfl none)
    · split
      · exact .flatMap fun outcome _ => c.fileTrace_methodEvents _ outcome
      · exact .single (.failed (by rcases hs with rfl | rfl <;> rfl) _)

namespace FileTree

variable (query : Query) (t : FileTree)

theorem fileTrace_events (path : String) :
    FileTrace (Path.absolute t.workingDirectory path) (t.events query path) := by
  rw [events_eq]
  exact .flatMap fun f hf => f.fileTrace query (isAt_of_mem_findings hf)

theorem directoryTrace_directoryEvents (recursive : Bool) (directory : String) :
    DirectoryTrace t recursive directory (t.directoryEvents query recursive directory) := by
  unfold directoryEvents
  split
  · rename_i files h
    exact .listed h (.flatMap fun path _ => t.fileTrace_events query path)
  · rename_i e h
    exact .unlisted h

theorem callTrace_activities (call : Call) :
    CallTrace t call ((call.activities query t).filterMap (·.event?)) := by
  rw [call.filterMap_activities]
  cases call with
  | directories ds recursive =>
    exact .directories (.flatMap fun d _ => t.directoryTrace_directoryEvents query recursive d)
  | files paths => exact .files (.flatMap fun path _ => t.fileTrace_events query path)
  | file path => exact .file (t.fileTrace_events query path)

end FileTree

theorem Scope.exists_detail (scope : Scope) (why : String) : ∃ text, scope.detail why = text ++ why := by
  cases scope <;> exact ⟨_, rfl⟩

theorem Scope.exists_message (scope : Scope) (why : String) :
    ∃ text, scope.message why = text ++ why := by
  cases scope with
  | file | anyEntry => exact ⟨"", by simp [message]⟩
  | entry | method => exact ⟨_, rfl⟩

/-- The last of the events before a failure is its detail, and both texts end in the message of one failure.
-/
def BehindDetail (before : List Event) (message : String) : Prop :=
  ∃ earlier detail subject, ∃ e : Failure,
    before = earlier ++ [.verbose (detail ++ e.message)] ∧ message = subject ++ e.message

/-- The first of the events behind a detail is its failure, and both texts end in the message of one
failure. -/
def BeforeFailure (text : String) (after : List Event) : Prop :=
  ∃ detail subject locator later, ∃ e : Failure,
    text = detail ++ e.message ∧ after = .failed locator (subject ++ e.message) :: later

/-- Each failure is a `bare` one, or it has one of some places and its detail directly in front of it. Each
text marks the beginning or the end of a search, or is a detail with its failure directly behind it. -/
structure Explained (place : String → Prop) (bare : String → String → Prop) (es : List Event) :
    Prop where
  failed : ∀ before locator message after, es = before ++ .failed locator message :: after →
    bare locator message ∨ place locator ∧ BehindDetail before message
  verbose : ∀ before text after, es = before ++ .verbose text :: after →
    text = "Building directory search tree..." ∨ text = "Finished search" ∨ BeforeFailure text after

namespace Explained

variable {place : String → Prop} {bare : String → String → Prop} {es fs : List Event}

theorem nil : Explained place bare [] := ⟨by simp, by simp⟩

/-- A detail and its failure lie in the same part, for a part is explained on its own. -/
theorem append (he : Explained place bare es) (hf : Explained place bare fs) :
    Explained place bare (es ++ fs) := by
  constructor
  · intro before locator message after h
    rcases List.append_eq_append_iff.mp h with ⟨middle, rfl, hfs⟩ | ⟨middle, hes, hrest⟩
    · refine (hf.failed _ _ _ _ hfs).imp_right (.imp_right ?_)
      rintro ⟨earlier, detail, subject, e, rfl, rfl⟩
      exact ⟨es ++ earlier, detail, subject, e, by simp, rfl⟩
    · cases middle with
      | nil =>
        refine (hf.failed [] _ _ _ hrest.symm).imp_right (.imp_right ?_)
        rintro ⟨earlier, detail, subject, e, hn, -⟩
        simp at hn
      | cons x middle =>
        obtain ⟨rfl, -⟩ := List.cons.inj hrest
        exact he.failed _ _ _ _ hes
  · intro before text after h
    rcases List.append_eq_append_iff.mp h with ⟨middle, rfl, hfs⟩ | ⟨middle, hes, hrest⟩
    · exact hf.verbose _ _ _ hfs
    · cases middle with
      | nil => exact hf.verbose [] _ _ hrest.symm
      | cons x middle =>
        obtain ⟨rfl, rfl⟩ := List.cons.inj hrest
        refine (he.verbose _ _ _ hes).imp_right (.imp_right ?_)
        rintro ⟨detail, subject, locator, later, e, rfl, rfl⟩
        exact ⟨detail, subject, locator, later ++ fs, e, rfl, rfl⟩

theorem found (m : Match) : Explained place bare [.found m] := by
  constructor <;> intro before <;> cases before <;> simp

theorem progress {text : String}
    (h : text = "Building directory search tree..." ∨ text = "Finished search") :
    Explained place bare [.verbose text] := by
  constructor
  · intro before
    cases before <;> simp
  · intro before text' after he
    cases before with
    | nil =>
      obtain ⟨rfl, -⟩ : text = text' ∧ _ := by simpa using he
      exact h.imp_right .inl
    | cons x before => simp at he

theorem bareFailure {locator message : String} (h : bare locator message) :
    Explained place bare [.failed locator message] := by
  constructor
  · intro before locator' message' after he
    cases before with
    | nil =>
      obtain ⟨⟨rfl, rfl⟩, -⟩ : (locator = locator' ∧ message = message') ∧ _ := by simpa using he
      exact .inl h
    | cons x before => simp at he
  · intro before
    cases before <;> simp

theorem failure {scope : Scope} (h : place scope.locator) (e : Failure) :
    Explained place bare (scope.events e) := by
  obtain ⟨detail, hd⟩ := scope.exists_detail e.message
  obtain ⟨subject, hm⟩ := scope.exists_message e.message
  constructor
  · intro before locator message after he
    match before, he with
    | [x], he =>
      obtain ⟨rfl, ⟨rfl, rfl⟩, -⟩ : .verbose (scope.detail e.message) = x ∧
          (scope.locator = locator ∧ scope.message e.message = message) ∧ _ := by
        simpa [Scope.events] using he
      exact .inr ⟨h, [], detail, subject, e, by rw [hd]; rfl, hm⟩
    | [], he | x :: y :: before, he => simp [Scope.events] at he
  · intro before text after he
    match before, he with
    | [], he =>
      obtain ⟨rfl, rfl⟩ : scope.detail e.message = text ∧
          [.failed scope.locator (scope.message e.message)] = after := by
        simpa [Scope.events] using he
      exact .inr (.inr ⟨detail, subject, scope.locator, [], e, hd, by rw [hm]⟩)
    | [x], he | x :: y :: before, he => simp [Scope.events] at he

theorem inTurn {ι : Type} {R : ι → List Event → Prop} {xs : List ι} (ht : InTurn R xs es)
    (h : ∀ x ∈ xs, ∀ es, R x es → Explained place bare es) : Explained place bare es := by
  induction ht with
  | nil => exact nil
  | cons hx _ ih =>
    exact (h _ (by simp) _ hx).append (ih fun y hy => h y (by simp [hy]))

theorem fileTrace {locator : String} (ht : FileTrace locator es) (h : place locator) :
    Explained place bare es := by
  induction ht with
  | nil => exact nil
  | cons ht _ ih =>
    refine append ?_ ih
    cases ht with
    | found _ signature => exact found _
    | failed hs e => exact failure (hs ▸ h) e

variable {t : FileTree}

theorem directoryTrace {recursive : Bool} {directory : String}
    (ht : DirectoryTrace t recursive directory es)
    (hplace : ∀ path ∈ t.listed recursive directory, place (Path.absolute t.workingDirectory path))
    (hbare : ∀ e, t.candidates directory recursive = .error e → bare directory e.message) :
    Explained place bare es := by
  cases ht with
  | listed hf ht =>
    refine inTurn ht fun path hp es he => fileTrace he (hplace path ?_)
    simpa [FileTree.listed, hf] using hp
  | unlisted hf => exact bareFailure (hbare _ hf)

theorem callTrace {call : Call} (ht : CallTrace t call es)
    (hplace : ∀ path ∈ call.searched t, place (Path.absolute t.workingDirectory path))
    (hbare : ∀ ds recursive, call = .directories ds recursive → ∀ directory ∈ ds, ∀ e,
      t.candidates directory recursive = .error e → bare directory e.message) :
    Explained place bare es := by
  cases ht with
  | @directories ds recursive _ ht =>
    have hdirs : Explained place bare _ := inTurn ht fun directory hd es he =>
      directoryTrace he (fun path hp => hplace path (List.mem_flatMap.mpr ⟨directory, hd, hp⟩))
        (hbare ds recursive rfl directory hd)
    exact ((progress (.inl rfl)).append hdirs).append (progress (.inr rfl))
  | files ht => exact inTurn ht fun path hp es he => fileTrace he (hplace path hp)
  | file ht => exact fileTrace ht (hplace _ (by simp [Call.searched]))

end Explained

/-- The events of any calls are the blocks of the calls, one behind the other. A failure is that of a
directory that cannot be listed, or it stands directly behind its detail and has the place of a file that
was searched. Any other text that is told marks the beginning or the end of a search, or is a detail
directly in front of its failure. -/
theorem trace_calls (query : Query) (tree : FileTree) (calls : List Call) :
    let s := Searcher.calls { query, tree } calls
    InTurn (CallTrace tree) calls s.events ∧
    (∀ before locator message after, s.events = before ++ .failed locator message :: after →
      (∃ ds recursive e, .directories ds recursive ∈ calls ∧ locator ∈ ds ∧
        tree.candidates locator recursive = .error e ∧ message = e.message) ∨
      (∃ path ∈ calls.flatMap (·.searched tree), locator = Path.absolute tree.workingDirectory path) ∧
        BehindDetail before message) ∧
    ∀ before text after, s.events = before ++ .verbose text :: after →
      text = "Building directory search tree..." ∨ text = "Finished search" ∨
        BeforeFailure text after := by
  intro s
  have hblocks : InTurn (CallTrace tree) calls s.events := by
    have he : s.events = calls.flatMap fun c => (c.activities query tree).filterMap (·.event?) := by
      have h := Searcher.events_after { query, tree } (calls.map fun c => (c.searched tree).length).sum
        (calls.flatMap (·.activities query tree))
      rwa [← Searcher.calls_eq { query, tree }, List.filterMap_flatMap] at h
    rw [he]
    exact .flatMap fun call _ => tree.callTrace_activities query call
  have hexplained : Explained
      (fun locator => ∃ path ∈ calls.flatMap (·.searched tree),
        locator = Path.absolute tree.workingDirectory path)
      (fun locator message => ∃ ds recursive e, .directories ds recursive ∈ calls ∧ locator ∈ ds ∧
        tree.candidates locator recursive = .error e ∧ message = e.message) s.events := by
    refine .inTurn hblocks fun call hc es he => .callTrace he (fun path hp => ?_) ?_
    · exact ⟨path, List.mem_flatMap.mpr ⟨call, hc, hp⟩, rfl⟩
    · rintro ds recursive rfl directory hd e hf
      exact ⟨ds, recursive, e, hc, hd, hf, rfl⟩
  exact ⟨hblocks, hexplained.failed, hexplained.verbose⟩

/-- A directory that is missing and a file that is no archive. -/
theorem trace_calls_missing :
    let tree : FileTree := ⟨.directory [("x.jar", .file .empty)], "/"⟩
    let calls : List Call := [.directories ["/e"] true, .file "x.jar"]
    let s := Searcher.calls { query := ⟨"A", "A", false, true, none⟩, tree } calls
    let detail : Event := .verbose
      "Error reading file /x.jar: cannot read archive: invalid Zip archive: Invalid zip header"
    let failed : Event := .failed "/x.jar"
      "cannot read archive: invalid Zip archive: Invalid zip header"
    let start : List Event := [.verbose "Building directory search tree...",
      .failed "/e" "directory \"/e\" does not exist", .verbose "Finished search"]
    s.events = start ++ [detail, failed] ∧ BehindDetail (start ++ [detail])
      "cannot read archive: invalid Zip archive: Invalid zip header" ∧
      BeforeFailure
        "Error reading file /x.jar: cannot read archive: invalid Zip archive: Invalid zip header"
        [failed] := by
  intro tree calls s detail failed start
  have he : s.events = start ++ [detail, failed] := by decide +kernel
  obtain ⟨-, hfailed, hverbose⟩ := trace_calls ⟨"A", "A", false, true, none⟩ tree calls
  have hf := hfailed (start ++ [detail]) _ _ [] (by rw [he]; rfl)
  have hv := hverbose start _ [failed] he
  refine ⟨he, (hf.resolve_left ?_).2, (hv.resolve_left (by decide)).resolve_left (by decide)⟩
  rintro ⟨ds, recursive, e, hc, hd, -⟩
  simp [calls] at hc
  simp [hc] at hd

end ClassLocator

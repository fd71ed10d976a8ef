import ClassLocator.Proofs.ClassFile.Declared
import ClassLocator.Proofs.Search.Refinement

namespace ClassLocator

/-- A failure that concerns a candidate of this kind as a whole: it cannot be loaded, it is no source or
no class file, or it is a class file that does not tell its own name. -/
inductive Candidate.Kind.Unreadable (kind : Kind) : Except Failure ByteArray → Failure → Prop
  | unloaded (e : Failure) : Unreadable kind (.error e) e
  | ungrammatical {bytes : ByteArray} {e : Failure} (hk : kind = .source)
      (h : Java.parse (Text.Utf8.decodeLossy bytes) = .error e) : Unreadable kind (.ok bytes) e
  | malformed {bytes : ByteArray} {e : Failure} (hk : kind ≠ .source)
      (h : ClassFile.parse bytes = .error e) : Unreadable kind (.ok bytes) e
  | nameless {bytes : ByteArray} {c : ClassFile} {e : Failure} (hk : kind ≠ .source)
      (h : ClassFile.parse bytes = .ok c) (hn : c.name = .error e) : Unreadable kind (.ok bytes) e

theorem map_eq_error {ε α β : Type} {x : Except ε α} {f : α → β} {e : ε} :
    x.map f = .error e ↔ x = .error e := by
  cases x <;> simp [Except.map]

section Outcomes

variable {filter : String} (hf : filter ≠ "")

include hf

theorem Java.declarations_eq_error_iff {source : String} {e : Failure} :
    declarations source filter = .error e ↔ parse source = .error e := by
  have hne : filter.isEmpty = false := by simpa using hf
  simp only [declarations, hne, Bool.false_eq_true, if_false, bind, Except.bind, pure, Except.pure]
  cases parse source with
  | error e' => simp
  | ok file => dsimp only; split <;> simp

theorem Candidate.Kind.unreadable_iff {kind : Kind} {content : Except Failure ByteArray} {e : Failure} :
    kind.Unreadable content e ↔ (content.bind fun bytes => kind.outcomes filter bytes) = .error e := by
  have hsource : ∀ {bytes : ByteArray},
      source.outcomes filter bytes = .error e ↔ Java.parse (Text.Utf8.decodeLossy bytes) = .error e := by
    intro bytes
    rw [outcomes, map_eq_error, Java.declarations_eq_error_iff hf]
  have hcompiled : ∀ {bytes : ByteArray}, kind ≠ .source →
      (kind.outcomes filter bytes = .error e ↔ ClassFile.parse bytes = .error e ∨
        ∃ c, ClassFile.parse bytes = .ok c ∧ c.name = .error e) := by
    intro bytes hk
    rw [← ClassFile.declarations_eq_error_iff hf]
    cases kind <;> first | rfl | exact absurd rfl hk
  constructor
  · rintro (_ | ⟨rfl, h⟩ | ⟨hk, h⟩ | ⟨hk, h, hn⟩)
    · rfl
    · exact hsource.mpr h
    · exact (hcompiled hk).mpr (.inl h)
    · exact (hcompiled hk).mpr (.inr ⟨_, h, hn⟩)
  · intro h
    cases content with
    | error e' =>
      obtain rfl : e' = e := Except.error.inj h
      exact .unloaded e'
    | ok bytes =>
      by_cases hk : kind = .source
      · subst hk
        exact .ungrammatical rfl (hsource.mp h)
      · rcases (hcompiled hk).mp h with h | ⟨c, h, hn⟩
        · exact .malformed hk h
        · exact .nameless hk h hn

end Outcomes

def Candidate.methodEvent (c : Candidate) : Except Failure Declaration → Event
  | .ok d => .found ⟨c, some d.render⟩
  | .error e => .failed c.locator s!"{c.displayName}: {e.message}"

def Event.isOutcome (e : Event) : Bool := e.isFound || e.isFailed

/-- What is told of a candidate with this content: that it cannot be read and nothing else, or what
becomes of its methods, each of them once and in order. -/
structure Candidate.Told (filter : String) (scope : Scope) (c : Candidate)
    (content : Except Failure ByteArray) (told : List Event) : Prop where
  unreadable : ∀ e, c.kind.Unreadable content e →
    told = [.verbose (scope.detail e.message), .failed scope.locator (scope.message e.message)]
  readable : (∀ e, ¬c.kind.Unreadable content e) → ∃ bytes outcomes,
    content = .ok bytes ∧ c.kind.outcomes filter bytes = .ok outcomes ∧
      told = outcomes.flatMap (c.methodEvents filter) ∧
      told.filter (·.isOutcome) = outcomes.map c.methodEvent ∧
      told.countP (·.isFound) + told.countP (·.isFailed) = outcomes.length

theorem Event.length_filter_isOutcome (es : List Event) :
    (es.filter (·.isOutcome)).length = es.countP (·.isFound) + es.countP (·.isFailed) := by
  induction es with
  | nil => rfl
  | cons e es ih =>
    cases e <;> simp [isOutcome, isFound, isFailed] at ih ⊢ <;> omega

namespace Candidate

variable {filter : String} (c : Candidate)

theorem filter_methodEvents (outcome : Except Failure Declaration) :
    (c.methodEvents filter outcome).filter (·.isOutcome) = [c.methodEvent outcome] := by
  cases outcome <;> rfl

theorem filter_outcomes (outcomes : List (Except Failure Declaration)) :
    (outcomes.flatMap (c.methodEvents filter)).filter (·.isOutcome) = outcomes.map c.methodEvent := by
  simp only [List.filter_flatMap, filter_methodEvents, List.map_eq_flatMap]

theorem told_of_matched (hf : filter ≠ "") {query : Query} (hm : query.methodFilter = some filter)
    (scope : Scope) (content : Except Failure ByteArray) :
    c.Told filter scope content ((Finding.matched scope c content).events query) := by
  simp only [Finding.events, hm]
  cases hr : content.bind fun bytes => c.kind.outcomes filter bytes with
  | error e =>
    have hu : ∀ e', c.kind.Unreadable content e' ↔ e = e' := by
      intro e'
      rw [Kind.unreadable_iff hf, hr, Except.error.injEq]
    refine ⟨fun e' he => ?_, fun h => absurd ((hu e).mpr rfl) (h e)⟩
    obtain rfl := (hu e').mp he
    rfl
  | ok outcomes =>
    refine ⟨fun e he => ?_, fun _ => ?_⟩
    · rw [Kind.unreadable_iff hf, hr] at he
      cases he
    · cases content with
      | error e => cases hr
      | ok bytes =>
        have hfilter : (outcomes.flatMap (c.methodEvents filter)).filter (·.isOutcome) =
            outcomes.map c.methodEvent := c.filter_outcomes outcomes
        refine ⟨bytes, outcomes, rfl, hr, rfl, hfilter, ?_⟩
        rw [← Event.length_filter_isOutcome, hfilter, List.length_map]

end Candidate

theorem Query.ne_empty_of_filterOf {method : Option String} {filter : String}
    (h : filterOf method = some filter) : filter ≠ "" := by
  cases method with
  | none => cases h
  | some m =>
    simp only [filterOf] at h
    split at h
    · cases h
    · rename_i hne
      obtain rfl := Option.some.inj h
      intro he
      have hnil : Text.trim m.toList = [] := String.ofList_injective he
      exact hne (by rw [hnil]; rfl)

/-- Entries of the same name in two archives, of which the one can be opened and read where the other
can, with the same content or the same failure. -/
def Archive.SameEntry (a a' : Archive) (h h' : Header) : Prop :=
  h.name = h'.name ∧ (openEntry a h).map (·.read) = (openEntry a' h').map (·.read)

section Packed

variable {query : Query} {a a' : Archive} {h h' : Archive.Header}

theorem Archive.events_of_fault {fault : Fault} (ho : openEntry a h = .error fault) (locator : String) :
    a.events query locator h = (Scope.anyEntry locator).events (.archive fault) := by
  simp only [events, findings, ho, List.flatMap_singleton, Finding.events]

theorem Archive.events_eq_of_sameEntry (hs : a.SameEntry a' h h') (locator : String) :
    a.events query locator h = a'.events query locator h' := by
  obtain ⟨hname, hopen⟩ := hs
  have hdir : h.isDirectory = h'.isDirectory := by simp only [Header.isDirectory, hname]
  unfold events findings
  cases ho : openEntry a h <;> cases ho' : openEntry a' h' <;>
    simp only [ho, ho', Except.map, Except.error.injEq, Except.ok.injEq, reduceCtorEq] at hopen
  · simp only [hopen]
  · simp only [hdir, hname, hopen]

variable {t : FileTree} {path locator : String} (hl : Path.absolute t.workingDirectory path = locator)
  (hk : Candidate.Kind.ofName ((Path.fileName? path).getD locator) = .container)

include hl hk

theorem FileTree.events_of_unopened {e : Failure} (ho : Searcher.openArchive t locator = .error e) :
    t.events query path = (Scope.file locator).events e := by
  rw [events_eq, findings_of_unopened hl hk ho, List.flatMap_singleton]
  rfl

theorem FileTree.events_of_openArchive (ho : Searcher.openArchive t locator = .ok a) :
    t.events query path = a.headers.flatMap (a.events query locator) := by
  rw [events_eq, findings_of_openArchive hl hk ho]
  exact List.flatMap_assoc

end Packed

/-- Two archives that agree in front of some entries and behind them. -/
def Archive.SameAround (a a' : Archive) (part part' : List Header) : Prop :=
  ∃ before before' after after',
    a.headers = before ++ part ++ after ∧ a'.headers = before' ++ part' ++ after' ∧
      List.Forall₂ (a.SameEntry a') before before' ∧ List.Forall₂ (a.SameEntry a') after after'

/-- A search for methods tells of a file or an entry that matches either one detail and one failure, if it
cannot be read as a whole, or what becomes of each method. Of an archive or an entry that cannot be opened
it tells one detail and one failure. Whatever some entries of an archive are, the events of the entries in
front of them and behind them are the same. -/
theorem told_searchFile {raw : String} {caseSensitive : Bool} {method : Option String} {query : Query}
    {filter : String} (hq : Query.new raw caseSensitive method = .ok query)
    (hm : query.methodFilter = some filter) (s : Searcher) (hs : s.query = query) :
    (∀ path locator name, Path.absolute s.tree.workingDirectory path = locator →
      (Path.fileName? path).getD locator = name → Candidate.Kind.ofName name ≠ .container →
      Candidate.isMatch query name locator → ∃ told,
        (s.searchFile path).events = s.events ++ told ∧
          Candidate.Told filter (.file locator) ⟨name, locator, .ofName name⟩
            (Searcher.readFile s.tree locator) told) ∧
    (∀ a locator header entry, Archive.openEntry a header = .ok entry → header.isDirectory = false →
      Candidate.isMatch query header.name header.name → ∃ told,
        (Searcher.searchEntry a locator s header).events = s.events ++ told ∧
          Candidate.Told filter (.entry header.name locator) ⟨header.name, locator, .ofName header.name⟩
            entry.read told) ∧
    (∀ a locator header fault, Archive.openEntry a header = .error fault →
      (Searcher.searchEntry a locator s header).events =
        s.events ++ (Scope.anyEntry locator).events (.archive fault)) ∧
    ∀ path locator, Path.absolute s.tree.workingDirectory path = locator →
      Candidate.Kind.ofName ((Path.fileName? path).getD locator) = .container →
      (∀ e, Searcher.openArchive s.tree locator = .error e →
        (s.searchFile path).events = s.events ++ (Scope.file locator).events e) ∧
      ∀ s' a a' part part', s'.query = query →
        Path.absolute s'.tree.workingDirectory path = locator →
        Searcher.openArchive s.tree locator = .ok a → Searcher.openArchive s'.tree locator = .ok a' →
        a.SameAround a' part part' → ∃ front told told' back,
          (s.searchFile path).events = s.events ++ (front ++ told ++ back) ∧
          (part.foldl (Searcher.searchEntry a locator) s).events = s.events ++ told ∧
          (s'.searchFile path).events = s'.events ++ (front ++ told' ++ back) ∧
          (part'.foldl (Searcher.searchEntry a' locator) s').events = s'.events ++ told' := by
  have hf : filter ≠ "" := Query.ne_empty_of_filterOf (hm ▸ (Query.methodFilter_of_new hq).symm)
  refine ⟨fun path locator name hl hn hk hmatch => ?_, fun a locator header entry ho hd hmatch => ?_,
    fun a locator header fault ho => ?_, fun path locator hl hk => ⟨fun e ho => ?_, ?_⟩⟩
  · refine ⟨_, by rw [s.events_searchFile, hs], ?_⟩
    rw [FileTree.events_eq, FileTree.findings_of_getD hl hn hk, if_pos hmatch, List.flatMap_singleton]
    exact Candidate.told_of_matched _ hf hm _ _
  · refine ⟨_, by rw [s.events_searchEntry, hs], ?_⟩
    rw [Archive.events, Archive.findings_of_openEntry ho hd, if_pos hmatch, List.flatMap_singleton]
    exact Candidate.told_of_matched _ hf hm _ _
  · rw [s.events_searchEntry, Archive.events_of_fault ho]
  · rw [s.events_searchFile, FileTree.events_of_unopened hl hk ho]
  · rintro s' a a' part part' hs' hl' ho ho' ⟨before, before', after, after', ha, ha', hb, hafter⟩
    have hsame : ∀ h h', a.SameEntry a' h h' → a.events query locator h = a'.events query locator h' :=
      fun h h' hsame => Archive.events_eq_of_sameEntry hsame locator
    have hfront := flatMap_eq_of_forall₂ hb hsame
    have hback := flatMap_eq_of_forall₂ hafter hsame
    refine ⟨before.flatMap (a.events query locator), part.flatMap (a.events query locator),
      part'.flatMap (a'.events query locator), after.flatMap (a.events query locator), ?_, ?_, ?_, ?_⟩
    · rw [s.events_searchFile, FileTree.events_of_openArchive hl hk ho, hs, ha, List.flatMap_append,
        List.flatMap_append]
    · rw [s.events_searchEntries, hs]
    · rw [s'.events_searchFile, FileTree.events_of_openArchive hl' hk ho', hs', ha', hfront, hback,
        List.flatMap_append, List.flatMap_append]
    · rw [s'.events_searchEntries, hs']

/-- A class file that is cut short, and a file that is no archive. -/
theorem told_searchFile_truncated :
    let query : Query := ⟨"A", "a", false, false, some "run"⟩
    let tree : FileTree := ⟨.directory [("d", .directory [("A.class", .file ⟨#[0]⟩),
      ("x.jar", .file .empty)])], "/"⟩
    let s : Searcher := { query, tree }
    let truncated := "class file truncated at offset 0"
    let refused := "cannot read archive: invalid Zip archive: Invalid zip header"
    Query.new "A" false (some "run") = .ok query ∧ query.methodFilter = some "run" ∧
      (s.searchFile "/d/A.class").events =
        [.verbose ("Error reading file /d/A.class: " ++ truncated), .failed "/d/A.class" truncated] ∧
      (s.searchFile "/d/x.jar").events =
        [.verbose ("Error reading file /d/x.jar: " ++ refused), .failed "/d/x.jar" refused] := by
  intro query tree s truncated refused
  have hq : Query.new "A" false (some "run") = .ok query := by decide +kernel
  have hread : Searcher.readFile s.tree "/d/A.class" = .ok ⟨#[0]⟩ := by decide +kernel
  have hparse : ClassFile.parse ⟨#[0]⟩ = .error (.truncated 0) :=
    (map_eq_error (f := fun c => c.thisClass)).mp (by decide +kernel)
  have hopen : Searcher.openArchive s.tree "/d/x.jar" = .error (.archive .tooShort) :=
    (map_eq_error (f := fun a => a.bytes)).mp (by decide +kernel)
  obtain ⟨hfile, -, -, harchive⟩ := told_searchFile hq rfl s rfl
  have hkind : Candidate.Kind.ofName "A.class" = .compiled := by decide +kernel
  obtain ⟨told, hevents, htold⟩ := hfile "/d/A.class" "/d/A.class" "A.class" (by decide +kernel)
    (by decide +kernel) (by simp [hkind]) (by decide +kernel)
  refine ⟨hq, rfl, ?_, ?_⟩
  · have hunreadable : Candidate.Kind.Unreadable (.ofName "A.class")
        (Searcher.readFile s.tree "/d/A.class") (.truncated 0) :=
      hread ▸ .malformed (by simp [hkind]) hparse
    rw [hevents, htold.unreadable _ hunreadable]
    decide +kernel
  · rw [(harchive "/d/x.jar" "/d/x.jar" (by decide +kernel) (by decide +kernel)).1 _ hopen]
    decide +kernel

end ClassLocator

import ClassLocator.Proofs.ClassFile.Declared
import ClassLocator.Proofs.ClassFile.Ellipsis
import ClassLocator.Proofs.MethodType.Names
import ClassLocator.Proofs.Text.Lines
/-!
Methods of one name in one class. Main statement: where names are identifiers, two of them with different
descriptors print different lines. To read a line back it is cut at its first closing parenthesis, then at
its spaces and commas, and the ellipsis becomes a pair of brackets again.
-/

namespace ClassLocator

open MethodType

theorem ellipsized?_eq_none {cs : List Char} (h : '[' ∉ cs) : ellipsized? cs = none := by
  rw [ellipsized?_eq_none_iff]
  intro hmark
  exact h (hmark.subset (by simp [arrayMark]))

theorem mem_of_ellipsized? {cs ds : List Char} (h : ellipsized? cs = some ds) :
    ds ≠ [] ∧ ∀ c ∈ ds, c = '.' ∨ c ∈ cs := by
  obtain ⟨before, after, rfl, -, rfl⟩ := exists_of_ellipsized? h
  refine ⟨by simp [ellipsis], fun c hc => ?_⟩
  simp only [ellipsis, List.mem_append, List.mem_cons, List.not_mem_nil, or_false, or_self] at hc ⊢
  tauto

def bracketed (p : String) : String :=
  match p.toList.reverse with
  | '.' :: '.' :: '.' :: cs => String.ofList (cs.reverse ++ ['[', ']'])
  | _ => p

theorem bracketed_append (cs : List Char) :
    bracketed (String.ofList (cs ++ ['.', '.', '.'])) = String.ofList (cs ++ ['[', ']']) := by
  simp [bracketed]

theorem bracketed_of_getLast?_ne {p : String} (h : p.toList.getLast? ≠ some '.') :
    bracketed p = p := by
  unfold bracketed
  split
  · next cs hr =>
    rw [← List.head?_reverse, hr] at h
    exact absurd rfl h
  · rfl

section Parameters

variable {t : FieldType} {ts : List FieldType}

theorem bracketed_render (h : t.element.IsNamed) : bracketed t.render = t.render := by
  apply bracketed_of_getLast?_ne
  rw [FieldType.render_eq, String.toList_ofList]
  rcases FieldType.not_mem_or_exists_brackets h with ⟨-, hl⟩ | ⟨cs, hs⟩
  · exact hl
  · simp [hs]

theorem bracketed_of_ellipsized? (h : t.element.IsNamed) {cs : List Char}
    (he : ellipsized? t.render.toList = some cs) : bracketed (String.ofList cs) = t.render := by
  rw [FieldType.render_eq, String.toList_ofList] at he
  rcases FieldType.not_mem_or_exists_brackets h with ⟨hb, -⟩ | ⟨ds, hs⟩
  · rw [ellipsized?_eq_none hb] at he
    cases he
  · have hnone : ¬arrayMark <:+: ([] : List Char) := by decide
    have hend := ellipsized?_append ds hnone
    rw [List.append_nil, List.append_nil] at hend
    rw [hs] at he
    obtain rfl := Option.some.inj (hend.symm.trans he)
    rw [ellipsis, bracketed_append, FieldType.render_eq, hs]

theorem map_bracketed_withEllipsis (h : ∀ t ∈ ts, t.element.IsNamed) :
    (withEllipsis (ts.map (·.render))).map bracketed = ts.map (·.render) := by
  have hsame : ∀ ts : List FieldType, (∀ t ∈ ts, t.element.IsNamed) →
      (ts.map (·.render)).map bracketed = ts.map (·.render) := by
    intro ts h
    rw [List.map_map]
    exact List.map_congr_left fun t ht => bracketed_render (h t ht)
  induction ts with
  | nil => rfl
  | cons t ts ih =>
    obtain ⟨ht, hts⟩ := List.forall_mem_cons.mp h
    rw [List.map_cons, withEllipsis]
    split
    · rw [List.map_cons, bracketed_render ht, ih hts]
    · split
      · next cs hcs => rw [List.map_cons, bracketed_of_ellipsized? ht hcs, hsame ts hts]
      · rw [List.map_cons, bracketed_render ht, hsame ts hts]

end Parameters

theorem mem_withEllipsis {ps : List String} {p : String} (h : p ∈ withEllipsis ps) :
    p ∈ ps ∨ ∃ q ∈ ps, ellipsized? q.toList = some p.toList := by
  induction ps with
  | nil => cases h
  | cons q ps ih =>
    rw [withEllipsis] at h
    split at h
    · rcases List.mem_cons.mp h with rfl | h
      · exact .inl List.mem_cons_self
      · refine (ih h).imp (List.mem_cons_of_mem q) ?_
        rintro ⟨r, hr, he⟩
        exact ⟨r, List.mem_cons_of_mem q hr, he⟩
    · split at h
      · next cs hcs =>
        rcases List.mem_cons.mp h with rfl | h
        · exact .inr ⟨q, List.mem_cons_self, by simpa using hcs⟩
        · exact .inl (List.mem_cons_of_mem q h)
      · exact .inl h

/-- A word that stays whole where a line is cut. -/
def IsWhole (word : String) : Prop := ∀ c ∈ word.toList, c ∉ [' ', ',', ')']

instance (word : String) : Decidable (IsWhole word) := List.decidableBAll _ word.toList

theorem mem_punctuation_of_mark {c : Char} (hc : c ∈ [' ', ',', ')']) : c ∈ punctuation := by
  have hmarks : [' ', ',', ')'] ⊆ punctuation := by decide
  exact hmarks hc

theorem isWhole_render {t : FieldType} (h : t.element.IsNamed) : IsWhole t.render := by
  intro c hc hmark
  rw [FieldType.render_eq, String.toList_ofList] at hc
  have hb := FieldType.mem_spelling h hc (mem_punctuation_of_mark hmark)
  have hdisjoint : [' ', ',', ')'].Disjoint ['.', '[', ']'] := by simp
  exact hdisjoint hmark hb

section Line

variable {t : FieldType} {ts : List FieldType}

theorem isWhole_of_mem_withEllipsis (hw : ∀ t ∈ ts, t.WellFormed) (h : ∀ t ∈ ts, t.element.IsNamed)
    {p : String} (hp : p ∈ withEllipsis (ts.map (·.render))) : IsWhole p ∧ p ≠ "" := by
  rcases mem_withEllipsis hp with hp | ⟨q, hq, he⟩
  · obtain ⟨t, ht, rfl⟩ := List.mem_map.mp hp
    exact ⟨isWhole_render (h t ht), FieldType.render_ne (hw t ht)⟩
  · obtain ⟨t, ht, rfl⟩ := List.mem_map.mp hq
    obtain ⟨hne, hmem⟩ := mem_of_ellipsized? he
    refine ⟨fun c hc => ?_, fun hempty => hne (by simp [hempty])⟩
    rcases hmem c hc with rfl | hc
    · decide
    · exact isWhole_render (h t ht) c hc

end Line

theorem intercalate_inj {s : String} {c : Char} (hs : s.toList = [c]) {ws ws' : List String}
    (h : ∀ w ∈ ws, c ∉ w.toList) (h' : ∀ w ∈ ws', c ∉ w.toList) (hne : ws ≠ []) (hne' : ws' ≠ [])
    (he : s.intercalate ws = s.intercalate ws') : ws = ws' := by
  obtain rfl : s = String.singleton c := String.toList_inj.mp (by simpa using hs)
  rw [← (Text.stretches_intercalate_eq_iff hne).mpr h, he, (Text.stretches_intercalate_eq_iff hne').mpr h']

theorem parameters_inj {ps ps' : List String} (h : ∀ p ∈ ps, IsWhole p ∧ p ≠ "")
    (h' : ∀ p ∈ ps', IsWhole p ∧ p ≠ "") (he : ",".intercalate ps = ",".intercalate ps') : ps = ps' := by
  have hempty : ∀ ps : List String, (∀ p ∈ ps, IsWhole p ∧ p ≠ "") → ",".intercalate ps = "" →
      ps = [] := by
    intro ps h he
    apply Classical.byContradiction
    intro hne
    have hone : ps = [""] := intercalate_inj (c := ',') (by decide)
      (fun p hp hc => (h p hp).1 _ hc (by decide)) (by simp) hne (by simp) he
    exact (h "" (by simp [hone])).2 rfl
  by_cases hne : ps = []
  · subst hne
    exact (hempty ps' h' he.symm).symm
  · by_cases hne' : ps' = []
    · subst hne'
      exact hempty ps h he
    · exact intercalate_inj (c := ',') (by decide) (fun p hp hc => (h p hp).1 _ hc (by decide))
        (fun p hp hc => (h' p hp).1 _ hc (by decide)) hne hne' he

structure Declaration.IsWhole (name : String) (d : Declaration) : Prop where
  role : d.role ≠ .staticInitializer
  head : (if d.role = .constructor then d.owner else d.name) = name
  name : ClassLocator.IsWhole name
  words : ∀ w ∈ d.wordsBefore, ClassLocator.IsWhole w
  parameters : ∀ p ∈ d.parameters, ClassLocator.IsWhole p ∧ p ≠ ""

namespace Declaration

def wordsUpTo (name : String) (d : Declaration) : List String :=
  d.wordsBefore ++ [name ++ "(" ++ ",".intercalate d.parameters]

variable {name : String} {d d' : Declaration}

theorem exists_rest (h : d.IsWhole name) :
    ∃ rest, d.render.toList = (" ".intercalate (d.wordsUpTo name)).toList ++ ')' :: rest := by
  refine ⟨((if d.thrown = [] then "" else " throws " ++ ", ".intercalate d.thrown) ++ ";").toList, ?_⟩
  rw [render_of_ne h.role, h.head, wordsUpTo, intercalate_append]
  simp [List.append_assoc]

theorem not_mem_wordsUpTo (h : d.IsWhole name) {w : String} (hw : w ∈ d.wordsUpTo name) {c : Char}
    (hc : c ∈ w.toList) : c ∉ [' ', ')'] := by
  intro hm
  have hopen : c ≠ '(' := ne_of_mem_of_not_mem hm (by decide)
  have hcomma : c ≠ ',' := ne_of_mem_of_not_mem hm (by decide)
  replace hm : c ∈ [' ', ',', ')'] := by simp at hm ⊢; tauto
  rcases List.mem_append.mp hw with hw | hw
  · exact h.words w hw c hc hm
  · obtain rfl := List.mem_singleton.mp hw
    simp only [String.toList_append, List.mem_append] at hc
    rcases hc with (hc | hc) | hc
    · exact h.name c hc hm
    · exact hopen (by simpa using hc)
    · obtain ⟨p, hp, hc⟩ := (Text.mem_intercalate_iff (by simpa using hcomma) _).mp hc
      exact (h.parameters p hp).1 c hc hm

/-- A line gives its words up to the name and its parameters back. -/
theorem words_eq_of_render_eq (h : d.IsWhole name) (h' : d'.IsWhole name) (he : d.render = d'.render) :
    d.wordsBefore = d'.wordsBefore ∧ d.parameters = d'.parameters := by
  have hfront : ∀ d : Declaration, d.IsWhole name →
      d.render.toList.takeWhile (· != ')') = (" ".intercalate (d.wordsUpTo name)).toList := by
    intro d h
    obtain ⟨rest, hr⟩ := exists_rest h
    have hin : ∀ c ∈ (" ".intercalate (d.wordsUpTo name)).toList, (c != ')') = true := by
      intro c hc
      rw [bne_iff_ne]
      rintro rfl
      obtain ⟨w, hw, hc⟩ := (Text.mem_intercalate_iff (by decide) _).mp hc
      exact not_mem_wordsUpTo h hw hc (by simp)
    rw [hr, List.takeWhile_append_of_pos hin]
    simp
  have hline : " ".intercalate (d.wordsUpTo name) = " ".intercalate (d'.wordsUpTo name) := by
    rw [← String.toList_inj, ← hfront d h, ← hfront d' h', he]
  have hwords : d.wordsUpTo name = d'.wordsUpTo name :=
    intercalate_inj (c := ' ') (by decide) (fun w hw hc => not_mem_wordsUpTo h hw hc (by simp))
      (fun w hw hc => not_mem_wordsUpTo h' hw hc (by simp)) (by simp [wordsUpTo])
      (by simp [wordsUpTo]) hline
  obtain ⟨hbefore, hlast⟩ := List.append_inj' hwords rfl
  refine ⟨hbefore, parameters_inj h.parameters h'.parameters ?_⟩
  exact (String.append_right_inj _).mp (List.singleton_inj.mp hlast)

end Declaration

namespace ClassFile

theorem isWhole_of_mem_modifiers {flags : Nat} {w : String} (h : w ∈ modifiers flags) : IsWhole w := by
  have hall : ∀ m ∈ methodModifiers, IsWhole m.2 := by decide
  obtain ⟨m, hm, rfl⟩ := List.mem_map.mp h
  exact hall m (List.mem_of_mem_filter hm)

theorem isWhole_simpleName {className : String} (h : IsClassName className) :
    IsWhole (simpleName className) := by
  have hmem : ∀ {c d : Char} {cs : List Char}, d ∈ afterLast c cs → d ∈ cs := by
    intro c d cs hd
    have hsub := (List.takeWhile_sublist (p := (· != c)) (l := cs.reverse)).subset
    simpa using hsub (List.mem_reverse.mp hd)
  intro c hc hm
  have hin : c ∈ className.toList := by
    rw [simpleName, String.toList_ofList] at hc
    split at hc
    · exact hmem hc
    · exact hmem (hmem hc)
  have hslash : c ≠ '/' := ne_of_mem_of_not_mem hm (by decide)
  exact hslash (h.mem_punctuation hin (mem_punctuation_of_mark hm))

/-- A method without a signature whose descriptor names its classes by identifiers. A constructor has no
result. -/
structure Method.IsOverload (pool : ConstantPool) (name text : String) (m : Method) : Prop where
  signature : m.signatureIndex = none
  descriptor : pool.utf8 m.descriptorIndex = .ok text
  types : ∃ d, Descriptor.read text = .ok d ∧ d.IsNamed ∧ (name = objectInitializer → d.result = none)

def Method.erased (owner name : String) (thrown : List String) (d : Descriptor) (m : Method) :
    Declaration where
  owner
  modifiers := modifiers m.accessFlags
  name
  result := if name = objectInitializer then "" else d.render.result
  parameters := withEllipsis (d.parameters.map (·.render))
  thrown
  role := if name = objectInitializer then .constructor else .method

section

variable {pool : ConstantPool} {className owner name text text' : String} {m m' : Method}
  {d d' : Descriptor} {r r' : Declaration}

theorem Method.eq_erased_of_outcome? (hs : m.signatureIndex = none)
    (ht : pool.utf8 m.descriptorIndex = .ok text) (hd : Descriptor.read text = .ok d)
    (hn : name ≠ classInitializer) (hr : m.outcome? pool owner name = some (.ok r)) :
    ∃ thrown, r = m.erased owner name thrown d := by
  have hdescribe : m.describe pool owner name = .ok r := by
    unfold outcome? at hr
    split at hr
    · simp at hr
    · split at hr
      · next hname => rw [← hname]; exact Option.some.inj hr
      · cases hr
  have herased : m.erasedType pool = .ok d.render := by
    simp only [erasedType, ht, parseDescriptor, bind, Except.bind, hd]
  have hgeneric : m.genericType? pool = none := by rw [genericType?, hs]; rfl
  rw [describe, if_neg hn, herased, hgeneric] at hdescribe
  cases he : m.exceptions pool with
  | error e => simp [he, bind, Except.bind] at hdescribe
  | ok thrown =>
    rw [he] at hdescribe
    refine ⟨thrown, (Except.ok.inj hdescribe).symm.trans ?_⟩
    simp [erased, Descriptor.render, variadic_eq_withEllipsis]

theorem Method.wordsBefore_erased (hw : d.WellFormed) (owner : String) (thrown : List String) :
    (m.erased owner name thrown d).wordsBefore =
      modifiers m.accessFlags ++ if name = objectInitializer then [] else [d.render.result] := by
  have hr := Descriptor.result_ne hw
  by_cases hn : name = objectInitializer <;> simp [Declaration.wordsBefore, erased, hn, hr]

theorem isWhole_result (h : d.IsNamed) : IsWhole d.render.result := by
  cases hr : d.result with
  | none => simp only [Descriptor.render, hr]; decide
  | some t =>
    simp only [Descriptor.render, hr, Option.map_some, Option.getD_some]
    exact isWhole_render (h.result t hr)

theorem Method.isWhole_erased (hw : d.WellFormed) (hd : d.IsNamed) (hclass : IsClassName className)
    (hname : IsName punctuation name ∨ name = objectInitializer) (thrown : List String) :
    (m.erased (simpleName className) name thrown d).IsWhole
      (if name = objectInitializer then simpleName className else name) := by
  constructor
  · by_cases hn : name = objectInitializer <;> simp [erased, hn]
  · by_cases hn : name = objectInitializer <;> simp [erased, hn]
  · split
    · exact isWhole_simpleName hclass
    · next hn =>
      exact fun c hc hm => (hname.resolve_right hn).2 c hc (mem_punctuation_of_mark hm)
  · intro w hmem
    rw [wordsBefore_erased hw] at hmem
    rcases List.mem_append.mp hmem with hmem | hmem
    · exact isWhole_of_mem_modifiers hmem
    · split at hmem
      · cases hmem
      · rw [List.mem_singleton.mp hmem]
        exact isWhole_result hd
  · exact fun p hp => isWhole_of_mem_withEllipsis hw.parameters hd.parameters hp

/-- Methods of one name in one class print different lines if their descriptors differ, whatever their flags
and exceptions are. Names are identifiers here, and there are no signatures. -/
theorem render_ne_of_descriptor_ne (hclass : IsClassName className)
    (hname : IsName punctuation name ∨ name = objectInitializer) (hm : m.IsOverload pool name text)
    (hm' : m'.IsOverload pool name text')
    (hr : m.outcome? pool (simpleName className) name = some (.ok r))
    (hr' : m'.outcome? pool (simpleName className) name = some (.ok r')) (hne : text ≠ text') :
    r.render ≠ r'.render := by
  intro he
  obtain ⟨d, hread, hd, hvoid⟩ := hm.types
  obtain ⟨d', hread', hd', hvoid'⟩ := hm'.types
  have hn : name ≠ classInitializer := by
    rintro rfl
    rcases hname with hname | hname
    · exact absurd hname (by decide)
    · exact absurd hname (by decide)
  obtain ⟨thrown, rfl⟩ := Method.eq_erased_of_outcome? hm.signature hm.descriptor hread hn hr
  obtain ⟨thrown', rfl⟩ := Method.eq_erased_of_outcome? hm'.signature hm'.descriptor hread' hn hr'
  obtain ⟨hw, rfl⟩ := Descriptor.read_eq_ok_iff.mp hread
  obtain ⟨hw', rfl⟩ := Descriptor.read_eq_ok_iff.mp hread'
  obtain ⟨hwords, hparameters⟩ := Declaration.words_eq_of_render_eq
    (Method.isWhole_erased hw hd hclass hname thrown)
    (Method.isWhole_erased hw' hd' hclass hname thrown') he
  have hps : d.parameters.map (·.render) = d'.parameters.map (·.render) := by
    rw [← map_bracketed_withEllipsis hd.parameters, ← map_bracketed_withEllipsis hd'.parameters]
    exact congrArg (List.map bracketed) hparameters
  have hresult : d.render.result = d'.render.result := by
    by_cases hinit : name = objectInitializer
    · simp [Descriptor.render, hvoid hinit, hvoid' hinit]
    · rw [Method.wordsBefore_erased hw, Method.wordsBefore_erased hw', if_neg hinit, if_neg hinit] at hwords
      exact List.singleton_inj.mp (List.append_inj_right' hwords rfl)
  exact hne (congrArg Descriptor.encode (Descriptor.eq_of_render hd hd' hps hresult))

/-- An array that comes first and one that comes last. -/
theorem render_ne_of_descriptor_ne_arrays :
    let pool : ConstantPool :=
      ⟨#[.unusable, .utf8 "f", .utf8 "(La/B$C;[I)V", .utf8 "([La/B$C;I)V"]⟩
    let m : Method := { accessFlags := 0x81, nameIndex := 1, descriptorIndex := 2 }
    let m' : Method := { accessFlags := 0x1, nameIndex := 1, descriptorIndex := 3 }
    let r : Declaration := ⟨"B", ["public"], [], "void", "f", ["a.B$C", "int..."], [], .method⟩
    let r' : Declaration := ⟨"B", ["public"], [], "void", "f", ["a.B$C...", "int"], [], .method⟩
    IsClassName "a/B" ∧ IsName punctuation "f" ∧ m.IsOverload pool "f" "(La/B$C;[I)V" ∧
      m'.IsOverload pool "f" "([La/B$C;I)V" ∧
      m.outcome? pool (simpleName "a/B") "f" = some (.ok r) ∧
      m'.outcome? pool (simpleName "a/B") "f" = some (.ok r') ∧ "(La/B$C;[I)V" ≠ "([La/B$C;I)V" ∧
      r.render = "public void f(a.B$C,int...);" ∧ r'.render = "public void f(a.B$C...,int);" ∧
      r.render ≠ r'.render := by
  intro pool m m' r r'
  have hclass : IsClassName "a/B" := by decide +kernel
  have hname : IsName punctuation "f" := by decide
  have hobject : Element.IsNamed (.object "a/B$C") :=
    ⟨by decide +kernel, by intro b; cases b <;> decide, by decide⟩
  have hm : m.IsOverload pool "f" "(La/B$C;[I)V" := by
    refine ⟨rfl, by decide, ⟨[⟨0, .object "a/B$C"⟩, ⟨1, .base .int⟩], none⟩, by decide +kernel,
      ⟨?_, by simp⟩, fun _ => rfl⟩
    simpa [Element.IsNamed] using hobject
  have hm' : m'.IsOverload pool "f" "([La/B$C;I)V" := by
    refine ⟨rfl, by decide, ⟨[⟨1, .object "a/B$C"⟩, ⟨0, .base .int⟩], none⟩, by decide +kernel,
      ⟨?_, by simp⟩, fun _ => rfl⟩
    simpa [Element.IsNamed] using hobject
  have hr : m.outcome? pool (simpleName "a/B") "f" = some (.ok r) := by decide +kernel
  have hr' : m'.outcome? pool (simpleName "a/B") "f" = some (.ok r') := by decide +kernel
  have hne : "(La/B$C;[I)V" ≠ "([La/B$C;I)V" := by decide
  exact ⟨hclass, hname, hm, hm', hr, hr', hne, by decide +kernel, by decide +kernel,
    render_ne_of_descriptor_ne hclass (.inl hname) hm hm' hr hr' hne⟩

end

end ClassFile

end ClassLocator

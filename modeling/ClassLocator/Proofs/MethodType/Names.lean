import ClassLocator.Proofs.MethodType.Descriptor
import ClassLocator.Text.Separated

namespace ClassLocator.MethodType

/-- What stands between names, types and words. No letter or digit is among it, no underscore and no
dollar sign. -/
def punctuation : List Char := [' ', '(', ')', ',', '.', '/', ';', '<', '>', '[', ']']

/-- A class name made of identifiers with slashes between them. -/
def IsClassName (name : String) : Prop :=
  ∀ part ∈ Text.separated '/' name.toList, IsName punctuation (String.ofList part)

instance (name : String) : Decidable (IsClassName name) :=
  inferInstanceAs (Decidable (∀ part ∈ _, _))

theorem IsClassName.mem_punctuation {name : String} (h : IsClassName name) {c : Char}
    (hc : c ∈ name.toList) (hp : c ∈ punctuation) : c = '/' := by
  apply Classical.byContradiction
  intro hne
  obtain ⟨part, hpart, hin⟩ := Text.mem_separated hc hne
  exact (h part hpart).2 c (by simpa using hin) hp

theorem IsClassName.getLast?_ne {name : String} (h : IsClassName name) :
    name.toList.getLast? ≠ some '/' := by
  intro hl
  obtain ⟨front, hf⟩ := List.getLast?_eq_some_iff.mp hl
  have hempty : [] ∈ Text.separated '/' name.toList := by
    rw [hf, Text.separated_append (by simp)]
    simp
  exact (h [] hempty).1 rfl

namespace Element

def name : Element → String
  | .base b => b.keyword
  | .object name => name

def IsNamed : Element → Prop
  | .base _ => True
  | .object name => IsClassName name ∧ (∀ b : BaseType, name ≠ b.keyword) ∧ name ≠ voidKeyword

theorem keyword_inj : ∀ b b' : BaseType, b.keyword = b'.keyword → b = b' := by
  intro b b'
  cases b <;> cases b' <;> decide

variable {e e' : Element}

theorem spelling_eq (e : Element) :
    e.spelling = e.name.toList.map fun c => if c = '/' then '.' else c := by
  cases e with
  | base b => cases b <;> decide
  | object name => rfl

theorem mem_name (h : e.IsNamed) {c : Char} (hc : c ∈ e.name.toList) (hp : c ∈ punctuation) :
    c = '/' := by
  cases e with
  | base b =>
    have hb : ∀ p ∈ punctuation, p ∉ b.keyword.toList := by
      cases b <;> simp [punctuation, BaseType.keyword]
    exact absurd hc (hb c hp)
  | object name => exact h.1.mem_punctuation hc hp

theorem getLast?_name (h : e.IsNamed) : e.name.toList.getLast? ≠ some '/' := by
  cases e with
  | base b => cases b <;> decide
  | object name => exact h.1.getLast?_ne

theorem name_ne_void (h : e.IsNamed) : e.name ≠ voidKeyword := by
  cases e with
  | base b => cases b <;> decide
  | object name => exact h.2.2

theorem name_inj (h : e.IsNamed) (h' : e'.IsNamed) (he : e.name = e'.name) : e = e' := by
  cases e with
  | base b =>
    cases e' with
    | base b' => exact congrArg base (keyword_inj b b' he)
    | object name => exact absurd he.symm (h'.2.1 b)
  | object name =>
    cases e' with
    | base b' => exact absurd he (h.2.1 b')
    | object name' => exact congrArg object he

theorem mem_spelling (h : e.IsNamed) {c : Char} (hc : c ∈ e.spelling) (hp : c ∈ punctuation) :
    c = '.' := by
  rw [spelling_eq, List.mem_map] at hc
  obtain ⟨d, hd, rfl⟩ := hc
  split at hp
  · next hs => simp [hs]
  · next hs => exact absurd (mem_name h hd hp) hs

theorem map_spelling (h : e.IsNamed) :
    e.spelling.map (fun c => if c = '.' then '/' else c) = e.name.toList := by
  rw [spelling_eq, List.map_map]
  refine (List.map_congr_left fun c hc => ?_).trans (List.map_id _)
  have hdot : c ≠ '.' := fun hd => absurd (mem_name h hc (by simp [hd, punctuation])) (by simp [hd])
  by_cases hs : c = '/' <;> simp [hs, hdot]

theorem spelling_inj (h : e.IsNamed) (h' : e'.IsNamed) (he : e.spelling = e'.spelling) : e = e' := by
  have hname : e.name.toList = e'.name.toList := by
    rw [← map_spelling h, ← map_spelling h', he]
  exact name_inj h h' (String.toList_inj.mp hname)

theorem spelling_ne_void (h : e.IsNamed) : e.spelling ≠ voidKeyword.toList := by
  intro he
  have hname := map_spelling h
  rw [he] at hname
  exact name_ne_void h (String.toList_inj.mp (hname.symm.trans (by decide)))

theorem getLast?_spelling (h : e.IsNamed) : e.spelling.getLast? ≠ some '.' := by
  intro hl
  have hname := congrArg List.getLast? (map_spelling h)
  rw [List.getLast?_map, hl] at hname
  exact getLast?_name h hname.symm

end Element

namespace FieldType

variable {t t' : FieldType}

theorem mem_spelling (h : t.element.IsNamed) {c : Char} (hc : c ∈ t.spelling) (hp : c ∈ punctuation) :
    c ∈ ['.', '[', ']'] := by
  rcases List.mem_append.mp hc with hc | hc
  · simp [Element.mem_spelling h hc hp]
  · obtain ⟨pair, hpair, hc⟩ := List.mem_flatten.mp hc
    rw [List.eq_of_mem_replicate hpair] at hc
    exact List.mem_cons_of_mem _ hc

theorem takeWhile_spelling (h : t.element.IsNamed) :
    t.spelling.takeWhile (· != '[') = t.element.spelling := by
  have hin : ∀ c ∈ t.element.spelling, (c != '[') = true := by
    intro c hc
    rw [bne_iff_ne]
    intro hb
    have hdot := Element.mem_spelling h hc (by simp [hb, punctuation])
    simp [hb] at hdot
  rw [spelling, List.takeWhile_append_of_pos hin]
  cases t.dimensions with
  | zero => simp
  | succ n => simp [List.replicate_succ]

theorem spelling_inj (h : t.element.IsNamed) (h' : t'.element.IsNamed)
    (he : t.spelling = t'.spelling) : t = t' := by
  obtain ⟨n, e⟩ := t
  obtain ⟨n', e'⟩ := t'
  obtain rfl : e = e' := by
    apply Element.spelling_inj h h'
    rw [← takeWhile_spelling h, ← takeWhile_spelling h', he]
  have hlen : n * 2 = n' * 2 := by simpa using congrArg List.length (List.append_cancel_left he)
  obtain rfl : n = n' := by omega
  rfl

theorem spelling_ne_void (h : t.element.IsNamed) : t.spelling ≠ voidKeyword.toList := by
  intro he
  have hw := takeWhile_spelling h
  rw [he] at hw
  exact Element.spelling_ne_void h (hw.symm.trans (by decide))

theorem not_mem_or_exists_brackets (h : t.element.IsNamed) :
    '[' ∉ t.spelling ∧ t.spelling.getLast? ≠ some '.' ∨ ∃ cs, t.spelling = cs ++ ['[', ']'] := by
  obtain ⟨n, e⟩ := t
  cases n with
  | zero =>
    have hs : spelling ⟨0, e⟩ = e.spelling := by simp [spelling]
    rw [hs]
    refine .inl ⟨fun hb => ?_, Element.getLast?_spelling h⟩
    exact absurd (Element.mem_spelling h hb (by decide)) (by decide)
  | succ n =>
    refine .inr ⟨spelling ⟨n, e⟩, ?_⟩
    simp [spelling, List.replicate_succ']

end FieldType

namespace Descriptor

structure IsNamed (d : Descriptor) : Prop where
  parameters : ∀ t ∈ d.parameters, t.element.IsNamed
  result : ∀ t ∈ d.result, t.element.IsNamed

variable {d d' : Descriptor}

theorem eq_of_map_render {ts ts' : List FieldType} (h : ∀ t ∈ ts, t.element.IsNamed)
    (h' : ∀ t ∈ ts', t.element.IsNamed) (he : ts.map (·.render) = ts'.map (·.render)) : ts = ts' := by
  induction ts generalizing ts' with
  | nil => simpa using he.symm
  | cons t ts ih =>
    cases ts' with
    | nil => simp at he
    | cons t' ts' =>
      obtain ⟨ht, hts⟩ := List.forall_mem_cons.mp h
      obtain ⟨ht', hts'⟩ := List.forall_mem_cons.mp h'
      obtain ⟨heq, hrest⟩ := List.cons.inj he
      simp only [FieldType.render_eq] at heq
      rw [FieldType.spelling_inj ht ht' (String.ofList_injective heq), ih hts hts' hrest]

theorem eq_of_result_render (h : d.IsNamed) (h' : d'.IsNamed)
    (he : d.render.result = d'.render.result) : d.result = d'.result := by
  have hr := h.result
  have hr' := h'.result
  simp only [render, FieldType.render_eq] at he
  generalize d.result = r at hr he ⊢
  generalize d'.result = r' at hr' he ⊢
  cases r with
  | none =>
    cases r' with
    | none => rfl
    | some t' =>
      have hv := congrArg String.toList he.symm
      exact absurd (by simpa using hv) (FieldType.spelling_ne_void (hr' t' rfl))
  | some t =>
    cases r' with
    | none =>
      have hv := congrArg String.toList he
      exact absurd (by simpa using hv) (FieldType.spelling_ne_void (hr t rfl))
    | some t' =>
      have hs := String.ofList_injective he
      rw [FieldType.spelling_inj (hr t rfl) (hr' t' rfl) hs]

theorem eq_of_render (h : d.IsNamed) (h' : d'.IsNamed)
    (hp : d.parameters.map (·.render) = d'.parameters.map (·.render))
    (hr : d.render.result = d'.render.result) : d = d' := by
  have hresult := eq_of_result_render h h' hr
  obtain ⟨ps, r⟩ := d
  obtain ⟨ps', r'⟩ := d'
  obtain rfl : ps = ps' := eq_of_map_render h.parameters h'.parameters hp
  obtain rfl : r = r' := hresult
  rfl

end Descriptor

end ClassLocator.MethodType

import ClassLocator.Path
import ClassLocator.Proofs.Text.Parts
import Mathlib.Data.List.TakeWhile

namespace ClassLocator.Path

variable {path name : String} {cs ds e : List Char}

/-- A text is its last stretch without slashes, behind a slash if anything is before it. -/
theorem exists_lastStretch (cs : List Char) :
    ∃ before last, cs = before ++ last ∧ '/' ∉ last ∧ (before = [] ∨ ∃ ds, before = ds ++ ['/']) := by
  induction cs with
  | nil => exact ⟨[], [], rfl, by simp, .inl rfl⟩
  | cons c cs ih =>
    obtain ⟨before, last, rfl, hl, rfl | ⟨ds, rfl⟩⟩ := ih
    · by_cases hc : c = '/'
      · exact ⟨['/'], last, by simp [hc], hl, .inr ⟨[], rfl⟩⟩
      · exact ⟨[], c :: last, rfl, by simp [hl, Ne.symm hc], .inl rfl⟩
    · exact ⟨c :: ds ++ ['/'], last, by simp, hl, .inr ⟨c :: ds, rfl⟩⟩

theorem fileName?_of_toList {before last : List Char} (hp : path.toList = before ++ last)
    (hb : before = [] ∨ ∃ ds, before = ds ++ ['/']) (hl : '/' ∉ last) (hne : last ≠ [])
    (hdot : last ≠ ['.']) (hup : last ≠ ['.', '.']) :
    fileName? path = some (String.ofList last) := by
  obtain ⟨stretches, hs⟩ : ∃ ps, Text.separated '/' path.toList = ps ++ [last] := by
    rcases hb with rfl | ⟨ds, rfl⟩
    · exact ⟨[], by rw [hp, List.nil_append, Text.separated_of_not_mem hl]; rfl⟩
    · exact ⟨Text.separated '/' ds, by rw [hp, List.append_assoc]; exact Text.separated_append hl ds⟩
  have hup' : String.ofList last ≠ ".." := by
    intro h
    exact hup (by rw [← String.toList_ofList (l := last), h]; rfl)
  simp [fileName?, parts, hs, hne, hdot, hup']

theorem of_fileName? (h : fileName? path = some name) :
    (parts path).getLast? = some name ∧ name ≠ ".." ∧ '/' ∉ name.toList ∧ name.toList ≠ [] ∧
      name.toList ≠ ['.'] := by
  unfold fileName? at h
  split at h
  · rename_i last hlast
    split at h
    · cases h
    · rename_i hup
      obtain rfl := Option.some.inj h
      obtain ⟨part, hpart, rfl⟩ := List.mem_map.mp (List.mem_of_getLast? hlast)
      obtain ⟨hsep, hmeans⟩ := List.mem_filter.mp hpart
      have hne : part ≠ [] ∧ part ≠ ['.'] := by simpa using hmeans
      rw [String.toList_ofList]
      exact ⟨hlast, hup, Text.not_mem_of_mem_separated hsep, hne⟩
  · cases h

theorem fileName?_append {before : List Char} (h : fileName? path = some name)
    (hb : before = [] ∨ ∃ ds, before = ds ++ ['/']) :
    fileName? (String.ofList (before ++ name.toList)) = some name := by
  obtain ⟨-, hup, hs, hne, hdot⟩ := of_fileName? h
  have hp : (String.ofList (before ++ name.toList)).toList = before ++ name.toList := by simp
  have hname := fileName?_of_toList hp hb hs hne hdot fun hd =>
    hup (by rw [← String.toList_inj, hd]; rfl)
  rwa [String.ofList_toList] at hname

theorem fileName?_fileName? (h : fileName? path = some name) : fileName? name = some name := by
  have hname := fileName?_append h (.inl rfl)
  rwa [List.nil_append, String.ofList_toList] at hname

theorem extension?_eq_of_fileName? (h : fileName? path = some name) :
    extension? name = extension? path := by
  simp only [extension?, h, fileName?_fileName? h]

theorem extension?_of_fileName? (h : fileName? path = some (String.ofList (ds ++ '.' :: e)))
    (he : '.' ∉ e) :
    extension? path = if ds = [] then none else some (String.ofList e) := by
  have hr : (ds ++ '.' :: e).reverse = e.reverse ++ '.' :: ds.reverse := by simp
  have hall : ∀ c ∈ e.reverse, (c != '.') = true := by
    intro c hc
    rw [bne_iff_ne]
    intro hd
    exact he (by simpa [hd] using hc)
  have ht : (e.reverse ++ '.' :: ds.reverse).takeWhile (· != '.') = e.reverse := by
    rw [List.takeWhile_append_of_pos hall]
    simp
  simp only [extension?, h, Option.bind_eq_bind, Option.bind_some, String.toList_ofList, hr, ht,
    List.drop_left, List.reverse_reverse]
  cases hds : ds.reverse with
  | nil => simp [List.reverse_eq_nil_iff.mp hds]
  | cons d rest =>
    have hne : ds ≠ [] := by
      intro h
      simp [h] at hds
    simp [hne]

theorem extension?_eq_some_iff {ext : String} (h : fileName? path = some name) :
    extension? path = some ext ↔
      '.' ∉ ext.toList ∧ ∃ stem : String, stem ≠ "" ∧ name = stem ++ "." ++ ext := by
  have hsplit : ∀ ds e : List Char, '.' ∉ e → name.toList = ds ++ '.' :: e →
      extension? path = if ds = [] then none else some (String.ofList e) := by
    intro ds e he hn
    apply extension?_of_fileName? _ he
    rw [h, ← hn, String.ofList_toList]
  constructor
  · intro hext
    by_cases hd : '.' ∈ name.toList
    · obtain ⟨e, ds, hn, he⟩ := List.eq_append_cons_of_mem (List.mem_reverse.mpr hd)
      have hn' : name.toList = ds.reverse ++ '.' :: e.reverse := by
        rw [← List.reverse_reverse name.toList, hn]
        simp
      rw [hsplit _ _ (by simpa using he) hn'] at hext
      split at hext
      · cases hext
      · rename_i hne
        obtain rfl := Option.some.inj hext
        refine ⟨by simpa using he, String.ofList ds.reverse, ?_, ?_⟩
        · simpa [← String.toList_inj] using hne
        · simp [← String.toList_inj, hn']
    · have hall : ∀ c ∈ name.toList.reverse, (c != '.') = true := by
        intro c hc
        rw [bne_iff_ne]
        rintro rfl
        exact hd (List.mem_reverse.mp hc)
      simp [extension?, h, List.takeWhile_eq_self_iff.mpr hall, List.drop_eq_nil_of_le] at hext
  · rintro ⟨he, stem, hne, rfl⟩
    have hstem : stem.toList ≠ [] := fun hn => hne (String.toList_inj.mp hn)
    rw [hsplit stem.toList ext.toList he (by simp), if_neg hstem, String.ofList_toList]

variable {c : Char}

theorem extension?_of_toList (hp : path.toList = cs ++ c :: '.' :: e) (hc : c ≠ '/') (hs : '/' ∉ e)
    (hd : '.' ∉ e) (he : e ≠ []) : extension? path = some (String.ofList e) := by
  obtain ⟨before, last, rfl, hl, hb⟩ := exists_lastStretch cs
  have hlen : 2 < (last ++ [c] ++ '.' :: e).length := by
    have hpos := List.length_pos_iff.mpr he
    simp
    omega
  have hname : fileName? path = some (String.ofList (last ++ [c] ++ '.' :: e)) := by
    refine fileName?_of_toList (by simp [hp]) hb ?_ (by simp) ?_ ?_
    · simp [hl, hs, Ne.symm hc]
    · intro h
      simp [h] at hlen
    · intro h
      simp [h] at hlen
  rw [extension?_of_fileName? hname hd]
  simp

theorem fileName?_of_toList_dot (hp : path.toList = cs ++ '/' :: '.' :: e) (hs : '/' ∉ e)
    (hd : '.' ∉ e) (he : e ≠ []) : fileName? path = some (String.ofList ('.' :: e)) := by
  have hp' : path.toList = (cs ++ ['/']) ++ '.' :: e := by simp [hp]
  refine fileName?_of_toList hp' (.inr ⟨cs, rfl⟩) ?_ (by simp) ?_ ?_
  · simp [hs]
  · simpa using he
  · intro h
    simp only [List.cons.injEq, true_and] at h
    simp [h] at hd

theorem toList_join (base name : String) :
    ∃ before, (join base name).toList = before ++ '/' :: name.toList := by
  unfold join
  split
  · rename_i h
    obtain ⟨before, hb⟩ := List.getLast?_eq_some_iff.mp h
    exact ⟨before, by simp [hb]⟩
  · exact ⟨base.toList, by simp⟩

theorem toList_absolute (directory : String) (h : fileName? path = some name) :
    ∃ before, (absolute directory path).toList = before ++ '/' :: name.toList ∨
      (absolute directory path).toList = (before ++ '/' :: name.toList) ++ ['/'] := by
  obtain ⟨ps, hps⟩ := List.getLast?_eq_some_iff.mp (of_fileName? h).1
  have hne : path.toList.isEmpty = false := by
    cases hp : path.toList with
    | nil => simp [parts, hp, Text.separated] at hps
    | cons c cs => rfl
  unfold absolute
  simp only [hne, Bool.false_eq_true, if_false, hps, List.foldl_append, List.foldl_cons, List.foldl_nil]
  generalize List.foldl join _ ps = base
  obtain ⟨before, hb⟩ := toList_join base name
  refine ⟨before, ?_⟩
  split
  · right
    simp [hb]
  · exact .inl hb

section Changed

variable {f : Char → Char} (hslash : ∀ c, f c = '/' ↔ c = '/') (hdot : ∀ c, f c = '.' ↔ c = '.')

include hdot in
theorem map_eq_dots_iff (cs : List Char) (n : Nat) :
    cs.map f = List.replicate n '.' ↔ cs = List.replicate n '.' := by
  simp [List.eq_replicate_iff, hdot]

include hslash hdot

theorem parts_map (path : String) : parts (path.map f) = (parts path).map (String.map f) := by
  have hmeans : ((fun p => decide (p ≠ [] ∧ p ≠ ['.'])) ∘ List.map f) =
      fun p => decide (p ≠ [] ∧ p ≠ ['.']) := by
    funext p
    have hp := map_eq_dots_iff hdot p 1
    simp only [List.replicate_one] at hp
    simp [hp]
  have hof : (String.ofList ∘ List.map f) = (String.map f ∘ String.ofList) := by
    funext p
    simp [← String.toList_inj, String.toList_map]
  rw [parts, parts, String.toList_map, Text.separated_map hslash, List.filter_map, List.map_map,
    List.map_map, hmeans, hof]

theorem fileName?_map (path : String) : fileName? (path.map f) = (fileName? path).map (String.map f) := by
  rw [fileName?, fileName?, parts_map hslash hdot, List.getLast?_map]
  cases (parts path).getLast? with
  | none => rfl
  | some name =>
    have hup : name.map f = ".." ↔ name = ".." := by
      rw [← String.toList_inj, ← String.toList_inj, String.toList_map]
      exact map_eq_dots_iff hdot name.toList 2
    simp only [Option.map_some, hup]
    split
    · rfl
    · rfl

theorem extension?_map (path : String) :
    extension? (path.map f) = (extension? path).map (String.map f) := by
  have hkept : ((· != '.') ∘ f) = fun c : Char => c != '.' := by
    funext c
    simp [bne, hdot]
  rw [extension?, extension?, fileName?_map hslash hdot]
  cases fileName? path with
  | none => rfl
  | some name =>
    simp only [Option.map_some, Option.bind_eq_bind, Option.bind_some, String.toList_map,
      ← List.map_reverse, List.takeWhile_map, hkept, List.length_map, ← List.map_drop]
    cases name.toList.reverse.drop (name.toList.reverse.takeWhile (· != '.')).length with
    | nil => rfl
    | cons d rest =>
      cases rest with
      | nil => rfl
      | cons r rest => simp [← String.toList_inj, String.toList_map]

end Changed

end ClassLocator.Path

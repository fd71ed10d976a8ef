import ClassLocator.Proofs.Path

namespace ClassLocator.Path

/-- A name that an entry of a directory can have. -/
structure IsName (name : String) : Prop where
  ne_empty : name ≠ ""
  slash_not_mem : '/' ∉ name.toList
  ne_dot : name ≠ "."
  ne_up : name ≠ ".."

instance (name : String) : Decidable (IsName name) :=
  decidable_of_iff (name ≠ "" ∧ '/' ∉ name.toList ∧ name ≠ "." ∧ name ≠ "..")
    ⟨fun ⟨he, hs, hd, hu⟩ => ⟨he, hs, hd, hu⟩, fun ⟨he, hs, hd, hu⟩ => ⟨he, hs, hd, hu⟩⟩

/-- A path with names one below the other under it. -/
def under (path : String) (names : List String) : String := names.foldl join path

def slashed (path : String) : String := if path.toList.getLast? = some '/' then path else path ++ "/"

variable {path name : String} {names names' : List String}

theorem IsName.toList_ne_nil (h : IsName name) : name.toList ≠ [] := by
  intro hn
  exact h.ne_empty (String.toList_inj.mp hn)

theorem IsName.fileName? (h : IsName name) {before : List Char}
    (hp : path.toList = before ++ '/' :: name.toList) : fileName? path = some name := by
  have hp' : path.toList = (before ++ ['/']) ++ name.toList := by simp [hp]
  have hdot : name.toList ≠ ['.'] := fun hd => h.ne_dot (String.toList_inj.mp hd)
  have hup : name.toList ≠ ['.', '.'] := fun hd => h.ne_up (String.toList_inj.mp hd)
  have hname := fileName?_of_toList hp' (.inr ⟨before, rfl⟩) h.slash_not_mem h.toList_ne_nil hdot hup
  rwa [String.ofList_toList] at hname

theorem join_eq (path name : String) : join path name = slashed path ++ name := by
  unfold join slashed
  split
  · rfl
  · rfl

theorem IsName.slashed_join (h : IsName name) (path : String) :
    slashed (join path name) = slashed path ++ name ++ "/" := by
  have hlast : (join path name).toList.getLast? ≠ some '/' := by
    rw [join_eq, String.toList_append, List.getLast?_append_of_ne_nil _ h.toList_ne_nil]
    intro hs
    exact h.slash_not_mem (List.mem_of_getLast? hs)
  rw [slashed, if_neg hlast, join_eq]

theorem under_cons (path name : String) (names : List String) :
    under path (name :: names) = under (join path name) names := rfl

theorem toList_under (h : ∀ n ∈ names, IsName n) (hne : names ≠ []) (path : String) :
    (under path names).toList = (slashed path).toList ++ ['/'].intercalate (names.map String.toList) := by
  induction names generalizing path with
  | nil => exact absurd rfl hne
  | cons name names ih =>
    have hname := h name List.mem_cons_self
    cases names with
    | nil =>
      rw [under_cons, join_eq]
      simp [under]
    | cons next names =>
      rw [under_cons, ih (fun n hn => h n (List.mem_cons_of_mem name hn)) (List.cons_ne_nil next names),
        hname.slashed_join]
      simp [List.intercalate_cons_cons]

theorem under_ne_self (h : ∀ n ∈ names, IsName n) (hne : names ≠ []) (path : String) :
    under path names ≠ path := by
  obtain ⟨name, rest, rfl⟩ := List.exists_cons_of_ne_nil hne
  intro heq
  have hlen : path.toList.length ≤ (slashed path).toList.length := by
    unfold slashed
    split <;> simp
  have hpos : 0 < (['/'].intercalate ((name :: rest).map String.toList)).length := by
    have hname := List.length_pos_iff.mpr (h name List.mem_cons_self).toList_ne_nil
    cases rest with
    | nil => simpa using hname
    | cons next rest =>
      simp only [List.map_cons, List.intercalate_cons_cons, List.length_append]
      omega
  have htotal := congrArg List.length (toList_under h hne path)
  rw [heq, List.length_append] at htotal
  omega

theorem under_inj (h : ∀ n ∈ names, IsName n) (h' : ∀ n ∈ names', IsName n)
    (heq : under path names = under path names') : names = names' := by
  by_cases hne : names = []
  · subst hne
    by_contra hne'
    exact under_ne_self h' (Ne.symm hne') path heq.symm
  by_cases hne' : names' = []
  · subst hne'
    exact absurd heq (under_ne_self h hne path)
  have hslash : ∀ ns : List String, (∀ n ∈ ns, IsName n) → ∀ p ∈ ns.map String.toList, '/' ∉ p := by
    intro ns hns p hp
    obtain ⟨n, hn, rfl⟩ := List.mem_map.mp hp
    exact (hns n hn).slash_not_mem
  have htext := congrArg String.toList heq
  rw [toList_under h hne, toList_under h' hne', List.append_cancel_left_eq] at htext
  have hparts := congrArg (Text.separated '/') htext
  rw [Text.separated_intercalate (by simpa using hne) (hslash names h),
    Text.separated_intercalate (by simpa using hne') (hslash names' h')] at hparts
  exact List.map_injective_iff.mpr (fun _ _ => String.toList_inj.mp) hparts

theorem fileName?_under (h : ∀ n ∈ names, IsName n) (hlast : names.getLast? = some name) (path : String) :
    fileName? (under path names) = some name := by
  obtain ⟨front, rfl⟩ := List.getLast?_eq_some_iff.mp hlast
  have hjoin : under path (front ++ [name]) = join (under path front) name := by
    simp [under]
  obtain ⟨before, hb⟩ := toList_join (under path front) name
  rw [hjoin]
  exact (h name (by simp)).fileName? hb

end ClassLocator.Path

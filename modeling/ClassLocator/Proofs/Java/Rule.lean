import ClassLocator.Java.Rule
import Mathlib.Data.List.Basic
/-!
The trees that reading by a rule gives. Main statements: they fit the rule, and their tokens are those
that were taken; and what a rule names tells which nodes and tokens it may read.
-/

namespace ClassLocator.Java

variable {ν : Type} {grammar : ν → Rule ν}

namespace Tree

/-- What holds of leaves, and of a node if it holds of its children, holds of all trees. -/
@[elab_as_elim]
theorem induction {motive : Tree ν → Prop} (leaf : ∀ token, motive (.leaf token))
    (node : ∀ name children, (∀ t ∈ children, motive t) → motive (.node name children)) :
    ∀ t, motive t
  | .leaf token => leaf token
  | .node name children => node name children fun t _ => induction leaf node t

theorem tokensOf_append (ts us : List (Tree ν)) : tokensOf (ts ++ us) = tokensOf ts ++ tokensOf us := by
  induction ts with
  | nil => rfl
  | cons t ts ih => simp [tokensOf, ih]

theorem mem_tokensOf {t : Tree ν} {ts : List (Tree ν)} (ht : t ∈ ts) {token : Token}
    (h : token ∈ t.tokens) : token ∈ tokensOf ts := by
  induction ts with
  | nil => cases ht
  | cons u us ih =>
    rw [tokensOf, List.mem_append]
    rcases List.mem_cons.mp ht with rfl | ht
    · exact .inl h
    · exact .inr (ih ht)

end Tree

namespace Rule

/-- The lists of trees that a rule may read. What it looks ahead to is left out. -/
inductive Fits (grammar : ν → Rule ν) : Rule ν → List (Tree ν) → Prop where
  | token {kind : Token.Kind} {accepts : String → Bool} {t : Token} (hk : t.kind = kind)
      (ha : accepts t.text) : Fits grammar (.token kind accepts) [.leaf t]
  | glued {kind : Token.Kind} {accepts : String → Bool} {t : Token} (hk : t.kind = kind)
      (ha : accepts t.text) : Fits grammar (.glued kind accepts) [.leaf t]
  | empty : Fits grammar .empty []
  | both {first second : Rule ν} {ts us : List (Tree ν)} (hf : Fits grammar first ts)
      (hs : Fits grammar second us) : Fits grammar (.both first second) (ts ++ us)
  | first {first second : Rule ν} {ts : List (Tree ν)} (h : Fits grammar first ts) :
      Fits grammar (.either first second) ts
  | second {first second : Rule ν} {ts : List (Tree ν)} (h : Fits grammar second ts) :
      Fits grammar (.either first second) ts
  | done {item : Rule ν} : Fits grammar (.many item) []
  | more {item : Rule ν} {ts us : List (Tree ν)} (h : Fits grammar item ts)
      (hs : Fits grammar (.many item) us) : Fits grammar (.many item) (ts ++ us)
  | ahead {rule : Rule ν} : Fits grammar (.ahead rule) []
  | notAhead {rule : Rule ν} : Fits grammar (.notAhead rule) []
  | ref {name : ν} {ts : List (Tree ν)} (h : Fits grammar (grammar name) ts) :
      Fits grammar (.ref name) [.node name ts]

section

variable {rule first second item : Rule ν} {kind : Token.Kind} {accepts : String → Bool}
  {ts : List (Tree ν)} {name : ν}

theorem fits_token_iff : Fits grammar (.token kind accepts) ts ↔
    ∃ t : Token, (t.kind = kind ∧ accepts t.text) ∧ ts = [.leaf t] := by
  constructor
  · intro h
    cases h with
    | token hk ha => exact ⟨_, ⟨hk, ha⟩, rfl⟩
  · intro h
    obtain ⟨t, ⟨hk, ha⟩, rfl⟩ := h
    exact .token hk ha

theorem fits_empty_iff : Fits grammar .empty ts ↔ ts = [] := by
  constructor
  · intro h
    cases h
    rfl
  · intro h
    exact h ▸ .empty

theorem fits_both_iff : Fits grammar (.both first second) ts ↔
    ∃ us vs, Fits grammar first us ∧ Fits grammar second vs ∧ ts = us ++ vs := by
  constructor
  · intro h
    cases h with
    | both hf hs => exact ⟨_, _, hf, hs, rfl⟩
  · intro h
    obtain ⟨us, vs, hf, hs, rfl⟩ := h
    exact .both hf hs

theorem fits_either_iff : Fits grammar (.either first second) ts ↔
    Fits grammar first ts ∨ Fits grammar second ts := by
  constructor
  · intro h
    cases h with
    | first h => exact .inl h
    | second h => exact .inr h
  · intro h
    exact h.elim .first .second

theorem fits_ref_iff : Fits grammar (.ref name) ts ↔
    ∃ cs, Fits grammar (grammar name) cs ∧ ts = [.node name cs] := by
  constructor
  · intro h
    cases h with
    | ref h => exact ⟨_, h, rfl⟩
  · intro h
    obtain ⟨cs, h, rfl⟩ := h
    exact .ref h

end

section

variable {test : Token → Bool} {tokens rest : List Token} {trees trees' : List (Tree ν)}
  {furthest furthest' : Location}

theorem eq_of_takeIf (h : takeIf test tokens trees furthest = .taken rest trees' furthest') :
    ∃ t, test t ∧ tokens = t :: rest ∧ trees' = .leaf t :: trees := by
  cases tokens with
  | nil => cases h
  | cons t tokens =>
    simp only [takeIf] at h
    split at h
    · rename_i ht
      cases h
      exact ⟨t, ht, rfl, rfl⟩
    · cases h

/-- Reading takes tokens from the front, and gives trees over them that fit the rule. -/
theorem fits_of_read {fuel : Nat} {rule : Rule ν}
    (h : rule.read grammar fuel tokens trees furthest = .taken rest trees' furthest') :
    ∃ read, Fits grammar rule read ∧ trees' = read.reverse ++ trees ∧
      tokens = Tree.tokensOf read ++ rest := by
  -- Reading a repetition comes back to the same rule, so the induction is on the fuel.
  induction fuel generalizing rule tokens rest trees trees' furthest furthest' with
  | zero => cases h
  | succ fuel ih =>
    cases rule with
    | token kind accepts =>
      obtain ⟨t, ht, rfl, rfl⟩ := eq_of_takeIf h
      simp only [Bool.and_eq_true, beq_iff_eq] at ht
      exact ⟨[.leaf t], .token ht.1 ht.2, rfl, rfl⟩
    | glued kind accepts =>
      obtain ⟨t, ht, rfl, rfl⟩ := eq_of_takeIf h
      simp only [Bool.and_eq_true, beq_iff_eq] at ht
      exact ⟨[.leaf t], .glued ht.1.1 ht.1.2, rfl, rfl⟩
    | empty =>
      cases h
      exact ⟨[], .empty, rfl, rfl⟩
    | both first second =>
      simp only [Rule.read] at h
      split at h
      · cases h
      · rename_i hfirst
        obtain ⟨us, hus, rfl, rfl⟩ := ih hfirst
        obtain ⟨vs, hvs, rfl, rfl⟩ := ih h
        exact ⟨us ++ vs, .both hus hvs, by simp, by simp [Tree.tokensOf_append]⟩
    | either first second =>
      simp only [Rule.read] at h
      split at h
      · obtain ⟨us, hus, rest⟩ := ih h
        exact ⟨us, .second hus, rest⟩
      · obtain ⟨us, hus, rest⟩ := ih h
        exact ⟨us, .first hus, rest⟩
    | many item =>
      simp only [Rule.read] at h
      split at h
      · cases h
        exact ⟨[], .done, rfl, rfl⟩
      · rename_i hitem
        obtain ⟨us, hus, rfl, rfl⟩ := ih hitem
        obtain ⟨vs, hvs, rfl, rfl⟩ := ih h
        exact ⟨us ++ vs, .more hus hvs, by simp, by simp [Tree.tokensOf_append]⟩
    | ahead rule =>
      simp only [Rule.read] at h
      split at h
      · cases h
      · cases h
        exact ⟨[], .ahead, rfl, rfl⟩
    | notAhead rule =>
      simp only [Rule.read] at h
      split at h
      · cases h
        exact ⟨[], .notAhead, rfl, rfl⟩
      · cases h
    | ref name =>
      simp only [Rule.read] at h
      split at h
      · cases h
      · rename_i hinner
        obtain ⟨us, hus, rfl, rfl⟩ := ih hinner
        cases h
        exact ⟨[.node name us], .ref hus, by simp, by simp [Tree.tokensOf, Tree.tokens]⟩

end

def refs : Rule ν → List ν
  | token .. | glued .. | empty | ahead _ | notAhead _ => []
  | both first second | either first second => first.refs ++ second.refs
  | many item => item.refs
  | ref name => [name]

def kinds : Rule ν → List Token.Kind
  | token kind _ | glued kind _ => [kind]
  | empty | ahead _ | notAhead _ | ref _ => []
  | both first second | either first second => first.kinds ++ second.kinds
  | many item => item.kinds

def isSingle : Rule ν → Bool
  | token .. | glued .. | ref _ => true
  | either first second => first.isSingle && second.isSingle
  | empty | ahead _ | notAhead _ | both .. | many _ => false

theorem Fits.exists_of_isSingle {rule : Rule ν} {ts : List (Tree ν)} (h : Fits grammar rule ts)
    (hr : rule.isSingle) : ∃ t, ts = [t] := by
  induction h with
  | token | glued | ref => exact ⟨_, rfl⟩
  | first _ ih => exact ih (Bool.and_eq_true_iff.mp hr).1
  | second _ ih => exact ih (Bool.and_eq_true_iff.mp hr).2
  | empty | both | done | more | ahead | notAhead => cases hr

theorem Fits.of_mem {rule : Rule ν} {ts cs : List (Tree ν)} {name : ν} (h : Fits grammar rule ts)
    (hm : .node name cs ∈ ts) : name ∈ rule.refs ∧ Fits grammar (grammar name) cs := by
  induction h with
  | token | glued | empty | done | ahead | notAhead => simp at hm
  | both _ _ ih ihs =>
    simp only [List.mem_append, refs] at hm ⊢
    exact hm.elim (fun hm => (ih hm).imp .inl id) fun hm => (ihs hm).imp .inr id
  | first _ ih =>
    simp only [refs, List.mem_append]
    exact (ih hm).imp .inl id
  | second _ ih =>
    simp only [refs, List.mem_append]
    exact (ih hm).imp .inr id
  | more _ _ ih ihs => exact (List.mem_append.mp hm).elim ih ihs
  | ref h _ =>
    obtain ⟨rfl, rfl⟩ : _ = name ∧ _ = cs := by simpa [eq_comm] using hm
    exact ⟨List.mem_singleton_self _, h⟩

theorem Fits.exists_node {rule : Rule ν} {ts : List (Tree ν)} (h : Fits grammar rule ts)
    (hr : rule.kinds = []) : ∀ t ∈ ts, ∃ name cs, t = .node name cs ∧ name ∈ rule.refs := by
  induction h with
  | token | glued => cases hr
  | empty | done | ahead | notAhead => simp
  | both _ _ ih ihs =>
    obtain ⟨hf, hs⟩ := List.append_eq_nil_iff.mp hr
    simp only [List.mem_append, refs]
    rintro t (ht | ht)
    · obtain ⟨name, cs, rfl, hname⟩ := ih hf t ht
      exact ⟨name, cs, rfl, .inl hname⟩
    · obtain ⟨name, cs, rfl, hname⟩ := ihs hs t ht
      exact ⟨name, cs, rfl, .inr hname⟩
  | first _ ih =>
    intro t ht
    obtain ⟨name, cs, rfl, hname⟩ := ih (List.append_eq_nil_iff.mp hr).1 t ht
    exact ⟨name, cs, rfl, List.mem_append_left _ hname⟩
  | second _ ih =>
    intro t ht
    obtain ⟨name, cs, rfl, hname⟩ := ih (List.append_eq_nil_iff.mp hr).2 t ht
    exact ⟨name, cs, rfl, List.mem_append_right _ hname⟩
  | more _ _ ih ihs => exact List.forall_mem_append.mpr ⟨ih hr, ihs hr⟩
  | ref => simp [refs]

theorem Fits.kind_mem {rule : Rule ν} {ts : List (Tree ν)} {known : List Token.Kind} {inner : ν → Prop}
    (hg : ∀ name, inner name → (grammar name).kinds ⊆ known ∧ ∀ d ∈ (grammar name).refs, inner d)
    (hr : rule.kinds ⊆ known) (hrefs : ∀ d ∈ rule.refs, inner d) (h : Fits grammar rule ts) :
    ∀ t ∈ Tree.tokensOf ts, t.kind ∈ known := by
  induction h with
  | token hk _ | glued hk _ =>
    intro t ht
    simp only [Tree.tokensOf, Tree.tokens, List.append_nil, List.mem_singleton] at ht
    rw [ht, hk]
    exact hr (List.mem_singleton_self _)
  | empty | done | ahead | notAhead => simp [Tree.tokensOf]
  | both _ _ ih ihs =>
    rw [Tree.tokensOf_append, List.forall_mem_append]
    rw [kinds, List.append_subset] at hr
    rw [refs, List.forall_mem_append] at hrefs
    exact ⟨ih hr.1 hrefs.1, ihs hr.2 hrefs.2⟩
  | first _ ih =>
    rw [kinds, List.append_subset] at hr
    rw [refs, List.forall_mem_append] at hrefs
    exact ih hr.1 hrefs.1
  | second _ ih =>
    rw [kinds, List.append_subset] at hr
    rw [refs, List.forall_mem_append] at hrefs
    exact ih hr.2 hrefs.2
  | more _ _ ih ihs =>
    rw [Tree.tokensOf_append, List.forall_mem_append]
    exact ⟨ih hr hrefs, ihs hr hrefs⟩
  | ref _ ih =>
    obtain ⟨hkinds, hinner⟩ := hg _ (hrefs _ (List.mem_singleton_self _))
    simp only [Tree.tokensOf, Tree.tokens, List.append_nil]
    exact ih hkinds hinner

/-- A rule that takes a token whenever it fits, if the rules of `full` do. -/
def isFull (full : ν → Bool) : Rule ν → Bool
  | token .. | glued .. => true
  | empty | many _ | ahead _ | notAhead _ => false
  | both first second => first.isFull full || second.isFull full
  | either first second => first.isFull full && second.isFull full
  | ref name => full name

theorem Fits.tokensOf_ne_nil {rule : Rule ν} {ts : List (Tree ν)} {full : ν → Bool}
    (hg : ∀ name, full name → (grammar name).isFull full) (h : Fits grammar rule ts)
    (hr : rule.isFull full) : Tree.tokensOf ts ≠ [] := by
  induction h with
  | token | glued => simp [Tree.tokensOf, Tree.tokens]
  | empty | done | more | ahead | notAhead => cases hr
  | both _ _ ih ihs =>
    rw [Tree.tokensOf_append]
    obtain hr | hr := Bool.or_eq_true_iff.mp hr
    · exact List.append_ne_nil_of_left_ne_nil (ih hr) _
    · exact List.append_ne_nil_of_right_ne_nil _ (ihs hr)
  | first _ ih => exact ih (Bool.and_eq_true_iff.mp hr).1
  | second _ ih => exact ih (Bool.and_eq_true_iff.mp hr).2
  | ref _ ih =>
    simp only [Tree.tokensOf, Tree.tokens, List.append_nil]
    exact ih (hg _ hr)

/-- The first token that a rule takes passes a test, if those of the rules of `inner` do. -/
def Opens (test : Token.Kind → String → Prop) (inner full : ν → Bool) : Rule ν → Prop
  | token kind accepts | glued kind accepts => ∀ s, accepts s → test kind s
  | empty | ahead _ | notAhead _ => True
  | both first second =>
    first.Opens test inner full ∧ (first.isFull full ∨ second.Opens test inner full)
  | either first second => first.Opens test inner full ∧ second.Opens test inner full
  | many item => item.Opens test inner full
  | ref name => inner name

theorem Fits.head?_tokensOf {rule : Rule ν} {ts : List (Tree ν)} {test : Token.Kind → String → Prop}
    {inner full : ν → Bool} (hfull : ∀ name, full name → (grammar name).isFull full)
    (hinner : ∀ name, inner name → (grammar name).Opens test inner full) (h : Fits grammar rule ts)
    (hr : rule.Opens test inner full) : ∀ t ∈ (Tree.tokensOf ts).head?, test t.kind t.text := by
  induction h with
  | @token _ _ t hk ha | @glued _ _ t hk ha =>
    intro u hu
    obtain rfl : t = u := by simpa [Tree.tokensOf, Tree.tokens] using hu
    exact hk ▸ hr _ ha
  | empty | done | ahead | notAhead => simp [Tree.tokensOf]
  | @both _ _ ts us hf _ ih ihs =>
    intro t ht
    rw [Tree.tokensOf_append] at ht
    by_cases hts : Tree.tokensOf ts = []
    · rw [hts, List.nil_append] at ht
      exact ihs (hr.2.resolve_left fun hfirst => hf.tokensOf_ne_nil hfull hfirst hts) t ht
    · rw [List.head?_append_of_ne_nil _ hts] at ht
      exact ih hr.1 t ht
  | first _ ih => exact ih hr.1
  | second _ ih => exact ih hr.2
  | @more _ ts us _ _ ih ihs =>
    intro t ht
    rw [Tree.tokensOf_append] at ht
    by_cases hts : Tree.tokensOf ts = []
    · rw [hts, List.nil_append] at ht
      exact ihs hr t ht
    · rw [List.head?_append_of_ne_nil _ hts] at ht
      exact ih hr t ht
  | ref _ ih =>
    simp only [Tree.tokensOf, Tree.tokens, List.append_nil]
    exact ih (hinner _ hr)

end Rule

end ClassLocator.Java

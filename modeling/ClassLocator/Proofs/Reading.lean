import Mathlib.Logic.Basic
/-!
What a reader takes off the front of its input, as a relation between the input, the value and the
input left. A reader of this project moves some state (a cursor, a place in a byte array) that stands
before an input; `ReadsAs` says that it succeeds exactly where the relation holds. Relations compose
as readers do, so each reader's relation is worked out once, in both directions at a time.
-/

namespace ClassLocator

variable {σ τ ε α β : Type}

/-- From a state before the input `t`, the reader succeeds exactly with the values `a` for which
`takes t a t'`, and then stands before `t'`. -/
structure ReadsAs (At : σ → τ → Prop) (r : StateT σ (Except ε) α) (takes : τ → α → τ → Prop) :
    Prop where
  sound : ∀ {s t a s'}, At s t → r s = .ok (a, s') → ∃ t', takes t a t' ∧ At s' t'
  complete : ∀ {s t a t'}, At s t → takes t a t' → ∃ s', r s = .ok (a, s') ∧ At s' t'

/-- What is taken where each admissible value is written in one way. -/
def Written {χ : Type} (admits : α → Prop) (wire : α → List χ) (t : List χ) (a : α) (t' : List χ) :
    Prop := admits a ∧ t = wire a ++ t'

/-- What is taken where a value stands for all descriptions that project to it. -/
def Described {δ χ : Type} (admits : δ → Prop) (project : δ → α) (wire : δ → List χ) (t : List χ)
    (a : α) (t' : List χ) : Prop := ∃ d, admits d ∧ a = project d ∧ t = wire d ++ t'

def Repeated (takes : τ → α → τ → Prop) : Nat → τ → List α → τ → Prop
  | 0, t, as, t' => as = [] ∧ t' = t
  | n + 1, t, as, t' => ∃ a m as', takes t a m ∧ Repeated takes n m as' t' ∧ as = a :: as'

theorem repeated_described {δ χ : Type} {admits : δ → Prop} {project : δ → α} {wire : δ → List χ}
    {n : Nat} {t t' : List χ} {as : List α} :
    Repeated (Described admits project wire) n t as t' ↔
      Described (fun ds => ds.length = n ∧ ∀ d ∈ ds, admits d) (List.map project)
        (List.flatMap wire) t as t' := by
  induction n generalizing t as with
  | zero =>
    constructor
    · intro h
      obtain ⟨rfl, rfl⟩ := h
      exact ⟨[], by simp, rfl, rfl⟩
    · intro h
      obtain ⟨ds, ⟨hn, -⟩, rfl, rfl⟩ := h
      obtain rfl := List.length_eq_zero_iff.mp hn
      exact ⟨rfl, rfl⟩
  | succ n ih =>
    constructor
    · intro h
      obtain ⟨a, m, as', ⟨d, hd, rfl, rfl⟩, h, rfl⟩ := h
      obtain ⟨ds, ⟨rfl, hds⟩, rfl, rfl⟩ := ih.mp h
      exact ⟨d :: ds, ⟨rfl, List.forall_mem_cons.mpr ⟨hd, hds⟩⟩, rfl, by simp⟩
    · intro h
      obtain ⟨ds, ⟨hn, hds⟩, rfl, rfl⟩ := h
      cases ds with
      | nil => cases hn
      | cons d ds =>
        obtain ⟨hd, hds⟩ := List.forall_mem_cons.mp hds
        have hm := ih.mpr ⟨ds, ⟨Nat.succ.inj hn, hds⟩, rfl, rfl⟩
        exact ⟨_, _, _, ⟨d, hd, rfl, by simp⟩, hm, rfl⟩

theorem run_bind_eq_ok {r : StateT σ (Except ε) α} {f : α → StateT σ (Except ε) β} {s s' : σ} {b : β} :
    (r >>= f) s = .ok (b, s') ↔ ∃ a s₁, r s = .ok (a, s₁) ∧ f a s₁ = .ok (b, s') := by
  show (r s >>= fun p => f p.1 p.2) = .ok (b, s') ↔ _
  cases h : r s with
  | error e => simp [bind, Except.bind]
  | ok p =>
    obtain ⟨a, s₁⟩ := p
    simp [bind, Except.bind, and_assoc]

namespace ReadsAs

variable {At : σ → τ → Prop}

theorem congr {r : StateT σ (Except ε) α} {takes takes' : τ → α → τ → Prop}
    (h : ReadsAs At r takes) (he : ∀ t a t', takes t a t' ↔ takes' t a t') :
    ReadsAs At r takes' where
  sound hs hr := (h.sound hs hr).imp fun t' ht => ⟨(he _ _ t').mp ht.1, ht.2⟩
  complete hs ht := h.complete hs ((he _ _ _).mpr ht)

theorem pure (a : α) :
    ReadsAs At (pure a : StateT σ (Except ε) α) (fun t b t' => b = a ∧ t' = t) where
  sound hs hr := by
    cases hr
    exact ⟨_, ⟨rfl, rfl⟩, hs⟩
  complete hs ht := by
    obtain ⟨rfl, rfl⟩ := ht
    exact ⟨_, rfl, hs⟩

theorem bind {r : StateT σ (Except ε) α} {f : α → StateT σ (Except ε) β}
    {P : τ → α → τ → Prop} {Q : α → τ → β → τ → Prop}
    (hr : ReadsAs At r P) (hf : ∀ a, ReadsAs At (f a) (Q a)) :
    ReadsAs At (r >>= f) (fun t b t' => ∃ a m, P t a m ∧ Q a m b t') where
  sound hs h := by
    obtain ⟨a, s₁, ha, hb⟩ := run_bind_eq_ok.mp h
    obtain ⟨m, hp, hm⟩ := hr.sound hs ha
    obtain ⟨t', hq, ht'⟩ := (hf a).sound hm hb
    exact ⟨t', ⟨a, m, hp, hq⟩, ht'⟩
  complete hs h := by
    obtain ⟨a, m, hp, hq⟩ := h
    obtain ⟨s₁, ha, hm⟩ := hr.complete hs hp
    obtain ⟨s', hb, hs'⟩ := (hf a).complete hm hq
    exact ⟨s', run_bind_eq_ok.mpr ⟨a, s₁, ha, hb⟩, hs'⟩

theorem map {r : StateT σ (Except ε) α} {P : τ → α → τ → Prop} (g : α → β) (hr : ReadsAs At r P) :
    ReadsAs At (g <$> r) (fun t b t' => ∃ a, P t a t' ∧ b = g a) := by
  rw [← bind_pure_comp]
  refine (hr.bind fun a => .pure (g a)).congr fun t b t' => ?_
  constructor
  · intro h
    obtain ⟨a, m, hp, rfl, rfl⟩ := h
    exact ⟨a, hp, rfl⟩
  · intro h
    obtain ⟨a, hp, rfl⟩ := h
    exact ⟨a, t', hp, rfl, rfl⟩

theorem fails {r : StateT σ (Except ε) α} (h : ∀ s, ∃ e, r s = .error e) :
    ReadsAs At r (fun _ _ _ => False) where
  sound {s} _ _ _ _ hr := by
    obtain ⟨e, he⟩ := h s
    rw [he] at hr
    cases hr
  complete _ h := h.elim

theorem ite {r r' : StateT σ (Except ε) α} {P P' : τ → α → τ → Prop} (c : Prop) [Decidable c]
    (hr : c → ReadsAs At r P) (hr' : ¬c → ReadsAs At r' P') :
    ReadsAs At (if c then r else r') (fun t a t' => if c then P t a t' else P' t a t') := by
  by_cases hc : c
  · simpa only [if_pos hc] using hr hc
  · simpa only [if_neg hc] using hr' hc

end ReadsAs

def FailsAt (At : σ → τ → Prop) (r : StateT σ (Except ε) α) (t : τ) (e : ε) : Prop :=
  ∀ s, At s t → r s = .error e

section
variable {At : σ → τ → Prop} {r : StateT σ (Except ε) α} {f : α → StateT σ (Except ε) β} {t : τ} {e : ε}

theorem FailsAt.bind (h : FailsAt At r t e) : FailsAt At (r >>= f) t e := by
  intro s hs
  show (r s >>= fun p => f p.1 p.2) = .error e
  rw [h s hs]
  rfl

theorem ReadsAs.bind_fails {takes : τ → α → τ → Prop} {a : α} {m : τ} (hr : ReadsAs At r takes)
    (ht : takes t a m) (hf : FailsAt At (f a) m e) : FailsAt At (r >>= f) t e := by
  intro s hs
  obtain ⟨s₁, h₁, hs₁⟩ := hr.complete hs ht
  show (r s >>= fun p => f p.1 p.2) = .error e
  rw [h₁]
  exact hf s₁ hs₁

end

end ClassLocator

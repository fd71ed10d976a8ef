import ClassLocator.Proofs.Text.Pattern
/-!
Going through a text character by character up to an end. Main statements: what stands behind the end does
not change where it is, so of two texts that end with their last character none is a proper beginning of the
other.
-/

namespace ClassLocator.Text

/-- What a character does to a state: it is the last one, it may not stand there, or it leads on. -/
inductive Turn (σ : Type) where
  | ends
  | fails
  | goes (state : σ)

variable {σ : Type} {turn : σ → Char → Turn σ} {s t : σ} {cs ds w : List Char} {n : Nat}

def endFrom? (turn : σ → Char → Turn σ) : σ → List Char → Option Nat
  | _, [] => none
  | s, c :: cs =>
    match turn s c with
    | .ends => some 1
    | .fails => none
    | .goes t => (endFrom? turn t cs).map (· + 1)

/-- The state behind a text that goes on to its last character. -/
def stateBehind? (turn : σ → Char → Turn σ) : σ → List Char → Option σ
  | s, [] => some s
  | s, c :: cs =>
    match turn s c with
    | .ends | .fails => none
    | .goes t => stateBehind? turn t cs

theorem endFrom?_append (h : endFrom? turn s cs = some n) (ds : List Char) :
    endFrom? turn s (cs ++ ds) = some n := by
  induction cs generalizing s n with
  | nil => cases h
  | cons c cs ih =>
    rw [endFrom?] at h
    rw [List.cons_append, endFrom?]
    cases hturn : turn s c with
    | ends =>
      rw [hturn] at h
      exact h
    | fails =>
      rw [hturn] at h
      cases h
    | goes t =>
      rw [hturn] at h
      obtain ⟨m, hm, rfl⟩ := Option.map_eq_some_iff.mp h
      simp only [ih hm, Option.map_some]

theorem exists_of_endFrom? (h : endFrom? turn s cs = some n) :
    ∃ w, w <+: cs ∧ w.length = n ∧ endFrom? turn s w = some n := by
  induction cs generalizing s n with
  | nil => cases h
  | cons c cs ih =>
    rw [endFrom?] at h
    cases hturn : turn s c with
    | ends =>
      rw [hturn] at h
      obtain rfl : 1 = n := Option.some.inj h
      exact ⟨[c], List.prefix_append [c] cs, rfl, by rw [endFrom?, hturn]⟩
    | fails =>
      rw [hturn] at h
      cases h
    | goes t =>
      rw [hturn] at h
      obtain ⟨m, hm, rfl⟩ := Option.map_eq_some_iff.mp h
      obtain ⟨w, hw, rfl, hend⟩ := ih hm
      exact ⟨c :: w, List.cons_prefix_cons.mpr ⟨rfl, hw⟩, rfl, by simp only [endFrom?, hturn, hend, Option.map_some]⟩

theorem endFrom?_of_prefix (hw : w <+: cs) (h : endFrom? turn s w = some w.length) :
    endFrom? turn s cs = some w.length := by
  obtain ⟨v, rfl⟩ := hw
  exact endFrom?_append h v

theorem endFrom?_behind (h : stateBehind? turn s cs = some t) (ds : List Char) :
    endFrom? turn s (cs ++ ds) = (endFrom? turn t ds).map (cs.length + ·) := by
  induction cs generalizing s with
  | nil =>
    cases h
    simp
  | cons c cs ih =>
    rw [stateBehind?] at h
    rw [List.cons_append, endFrom?]
    cases hturn : turn s c with
    | ends =>
      rw [hturn] at h
      cases h
    | fails =>
      rw [hturn] at h
      cases h
    | goes u =>
      rw [hturn] at h
      simp only [ih h, Option.map_map, List.length_cons]
      congr 1
      funext n
      simp only [Function.comp_apply]
      omega

theorem stateBehind?_append (h : stateBehind? turn s cs = some t) (ds : List Char) :
    stateBehind? turn s (cs ++ ds) = stateBehind? turn t ds := by
  induction cs generalizing s with
  | nil =>
    cases h
    rfl
  | cons c cs ih =>
    rw [stateBehind?] at h
    rw [List.cons_append, stateBehind?]
    cases hturn : turn s c with
    | ends =>
      rw [hturn] at h
      cases h
    | fails =>
      rw [hturn] at h
      cases h
    | goes u =>
      rw [hturn] at h
      exact ih h

namespace Pattern

variable {p : Pattern}

theorem stateBehind?_of_many (hitem : ∀ w, Fits p w → stateBehind? turn s w = some s)
    (h : Fits (many p) w) : stateBehind? turn s w = some s := by
  generalize hr : many p = r at h
  induction h with
  | done => rfl
  | more h _ _ ih =>
    cases hr
    rw [stateBehind?_append (hitem _ h)]
    exact ih rfl
  | _ => cases hr

theorem prefixFree_of_endFrom? (h : ∀ w, Fits p w → endFrom? turn s w = some w.length) :
    p.PrefixFree := by
  intro u v hu huv
  have hlength := endFrom?_append (h u hu) v
  rw [h _ huv, Option.some.injEq, List.length_append] at hlength
  exact List.eq_nil_of_length_eq_zero (by omega)

end Pattern

end ClassLocator.Text

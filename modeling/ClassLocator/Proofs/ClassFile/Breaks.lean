import ClassLocator.Proofs.ClassFile.Extended
import ClassLocator.Proofs.ClassFile.Spans
/-!
Readers of class files that fail as truncated. Each does so if and only if its input ends within something
that it could have read with more bytes behind; of two readers one behind the other the same holds for what
they read together.
-/

namespace ClassLocator.ClassFile

namespace Reader

variable {α β δ δ' : Type}

/-- The reader fails as truncated if and only if the bytes end within the spans of something admitted. -/
structure BreaksIn (r : Reader α) (admits : δ → Prop) (spans : δ → List Span) : Prop where
  exists_admitted : ∃ d, admits d
  iff : ∀ {i bs told}, i.Before bs → (r i = .error (.truncated told) ↔
    ∃ d, admits d ∧ ∃ actual, Breaks (spans d) i.position bs told actual)

structure ReadsSpans (r : Reader α) (admits : δ → Prop) (project : δ → α) (spans : δ → List Span) : Prop
    extends BreaksIn r admits spans where
  steady : Steady r
  reads : ReadsAs Input.Before r (Described (fun d => admits d ∧ AllSound (spans d)) project
    fun d => bytesOf (spans d))

theorem position_eq {r : Reader α} (hr : Steady r) {i i₁ : Input} {a : α} {front rest : List UInt8}
    (hi : i.Before (front ++ rest)) (h : r i = .ok (a, i₁)) (h₁ : i₁.Before rest) :
    i₁.position = i.position + front.length := by
  have hbytes := (hr.of_ok hi.1 h).1
  have hl := hi.length
  have hl₁ := h₁.length
  rw [hbytes] at hl₁
  simp only [List.length_append] at hl
  omega

theorem run_bind_pure_eq_error {r : Reader α} {g : α → β} {i : Input} {e : Failure} :
    (r >>= fun a => pure (g a)) i = .error e ↔ r i = .error e := by
  rw [run_bind_eq_error]
  refine or_iff_left ?_
  rintro ⟨a, i₁, -, h⟩
  cases h

namespace BreaksIn

theorem congr {r : Reader α} {admits : δ → Prop} {spans : δ → List Span} {admits' : δ' → Prop}
    {spans' : δ' → List Span} (h : BreaksIn r admits spans) (g : δ → δ')
    (hto : ∀ d, admits d → admits' (g d) ∧ spans' (g d) = spans d)
    (hfrom : ∀ d', admits' d' → ∃ d, admits d ∧ spans d = spans' d') : BreaksIn r admits' spans' where
  exists_admitted := h.exists_admitted.imp' g fun d hd => (hto d hd).1
  iff hi := by
    rw [h.iff hi]
    constructor
    · rintro ⟨d, hd, actual, hb⟩
      exact ⟨g d, (hto d hd).1, actual, (hto d hd).2 ▸ hb⟩
    · rintro ⟨d', hd', actual, hb⟩
      obtain ⟨d, hd, hs⟩ := hfrom d' hd'
      exact ⟨d, hd, actual, hs ▸ hb⟩

theorem pure {admits : δ → Prop} {spans : δ → List Span} (a : α) (hne : ∃ d, admits d)
    (hnil : ∀ d, admits d → spans d = []) : BreaksIn (pure a : Reader α) admits spans where
  exists_admitted := hne
  iff _ := by
    constructor
    · intro h
      cases h
    · rintro ⟨d, hd, actual, hb⟩
      rw [hnil d hd] at hb
      exact (not_breaks_nil hb).elim

theorem bind_pure {r : Reader α} {admits : δ → Prop} {spans : δ → List Span}
    (h : BreaksIn r admits spans) (g : α → β) : BreaksIn (r >>= fun a => Pure.pure (g a)) admits spans where
  exists_admitted := h.exists_admitted
  iff hi := by
    rw [run_bind_pure_eq_error, h.iff hi]

/-- What is read first is read whole, or it breaks off. It may also be refused for another reason, if it is
not admitted. -/
theorem bind {r : Reader α} {f : α → Reader β} {good admits : δ → Prop} {project : δ → α}
    {spans : δ → List Span} {admits' : δ → δ' → Prop} {spans' : δ → δ' → List Span} (hsteady : Steady r)
    (hreads : ReadsAs Input.Before r (Described good project fun d => bytesOf (spans d)))
    (hr : BreaksIn r admits spans) (hgood : ∀ d, admits d → AllSound (spans d) → good d)
    (hstop : ∀ d, good d →
      admits d ∧ AllSound (spans d) ∨ ∀ i told, f (project d) i ≠ .error (.truncated told))
    (hf : ∀ d, admits d → BreaksIn (f (project d)) (admits' d) (spans' d)) :
    BreaksIn (r >>= f) (fun p : δ × δ' => admits p.1 ∧ admits' p.1 p.2)
      (fun p => spans p.1 ++ spans' p.1 p.2) where
  exists_admitted := by
    obtain ⟨d, hd⟩ := hr.exists_admitted
    obtain ⟨d', hd'⟩ := (hf d hd).exists_admitted
    exact ⟨(d, d'), hd, hd'⟩
  iff {i bs told} hi := by
    rw [run_bind_eq_error]
    constructor
    · rintro (he | ⟨a, i₁, hok, he⟩)
      · obtain ⟨d, hd, actual, hb⟩ := (hr.iff hi).mp he
        obtain ⟨d', hd'⟩ := (hf d hd).exists_admitted
        exact ⟨(d, d'), ⟨hd, hd'⟩, actual, breaks_append.mpr (.inl hb)⟩
      · obtain ⟨rest, ⟨d, hg, rfl, rfl⟩, h₁⟩ := hreads.sound hi hok
        rcases hstop d hg with ⟨hd, hsound⟩ | hnever
        · obtain ⟨d', hd', actual, hb⟩ := ((hf d hd).iff h₁).mp he
          rw [position_eq hsteady hi hok h₁] at hb
          exact ⟨(d, d'), ⟨hd, hd'⟩, actual, breaks_append.mpr (.inr ⟨hsound, rest, rfl, hb⟩)⟩
        · exact absurd he (hnever i₁ told)
    · rintro ⟨⟨d, d'⟩, ⟨hd, hd'⟩, actual, hb⟩
      rcases breaks_append.mp hb with hfirst | ⟨hsound, rest, rfl, hthen⟩
      · exact .inl ((hr.iff hi).mpr ⟨d, hd, actual, hfirst⟩)
      · obtain ⟨i₁, hok, h₁⟩ := hreads.complete hi ⟨d, hgood d hd hsound, rfl, rfl⟩
        rw [← position_eq hsteady hi hok h₁] at hthen
        exact .inr ⟨project d, i₁, hok, ((hf d hd).iff h₁).mpr ⟨d', hd', actual, hthen⟩⟩

end BreaksIn

theorem ReadsSpans.bind {r : Reader α} {f : α → Reader β} {admits : δ → Prop} {project : δ → α}
    {spans : δ → List Span} {admits' : δ → δ' → Prop} {spans' : δ → δ' → List Span}
    (hr : ReadsSpans r admits project spans)
    (hf : ∀ d, admits d → BreaksIn (f (project d)) (admits' d) (spans' d)) :
    BreaksIn (r >>= f) (fun p : δ × δ' => admits p.1 ∧ admits' p.1 p.2)
      (fun p => spans p.1 ++ spans' p.1 p.2) :=
  BreaksIn.bind hr.steady hr.reads hr.toBreaksIn (fun _ hd hs => ⟨hd, hs⟩) (fun _ h => .inl h) hf

theorem breaksIn_span {n : Nat} {f : Input → α} {admits : δ → Prop} {span : δ → Span}
    (hne : ∃ d, admits d) (hlen : ∀ d, admits d → (span d).bytes.length = n)
    (hplain : ∀ d, (span d).words = []) :
    BreaksIn (fun i => if i.position + n ≤ i.bytes.size then
        .ok (f i, { i with position := i.position + n })
      else .error (.truncated i.position)) admits (fun d => [span d]) where
  exists_admitted := hne
  iff {i bs told} hi := by
    have hl := hi.length
    simp only [breaks_singleton]
    constructor
    · intro h
      split at h
      · cases h
      · cases h
        obtain ⟨d, hd⟩ := hne
        exact ⟨d, hd, i.position, .span (by rw [hlen d hd]; omega)⟩
    · rintro ⟨d, hd, actual, hs⟩
      cases hs with
      | span h =>
        rw [hlen d hd] at h
        exact if_neg (by omega)
      | word h hw =>
        rw [hplain d] at hw
        cases hw

theorem readsSpans_number (n : Nat) :
    ReadsSpans (number n) (· < 256 ^ n) id (fun v => [Span.number n v]) where
  toBreaksIn := breaksIn_span ⟨0, Nat.pow_pos (by decide)⟩ (fun v _ => length_numberWire n v) fun _ => rfl
  steady := steady_number n
  reads := (reads_number n).congr fun bs v rest => by
    constructor
    · rintro ⟨hv, rfl⟩
      exact ⟨v, ⟨hv, by simp⟩, rfl, by simp⟩
    · rintro ⟨v, ⟨hv, -⟩, rfl, rfl⟩
      exact ⟨hv, by simp⟩

theorem readsSpans_u2 : ReadsSpans u2 (· < 2 ^ 16) id (fun v => [Span.number 2 v]) := readsSpans_number 2

theorem readsSpans_u4 : ReadsSpans u4 (· < 2 ^ 32) id (fun v => [Span.number 4 v]) := readsSpans_number 4

theorem readsSpans_skip {n : Nat} {admits : δ → Prop} {wire : δ → List UInt8}
    (h : ReadsAs Input.Before (skip n) (Described admits (fun _ => ()) wire)) (hne : ∃ d, admits d)
    (hlen : ∀ d, admits d → (wire d).length = n) :
    ReadsSpans (skip n) admits (fun _ => ()) (fun d => [⟨wire d, []⟩]) where
  toBreaksIn := breaksIn_span hne hlen fun _ => rfl
  steady := steady_skip n
  reads := h.congr fun bs _ rest => by
    simp [Described]

theorem readsSpans_skip_number (n : Nat) :
    ReadsSpans (skip n) (· < 256 ^ n) (fun _ => ()) (fun v => [Span.number n v]) :=
  readsSpans_skip (reads_skip_number n) ⟨0, Nat.pow_pos (by decide)⟩ fun v _ => length_numberWire n v

theorem readsSpans_skip_words (n : Nat) :
    ReadsSpans (skip (n * 2)) (fun ws : List Nat => ws.length = n ∧ ∀ w ∈ ws, w < 2 ^ 16) (fun _ => ())
      (fun ws => [⟨ws.flatMap (numberWire 2), []⟩]) :=
  readsSpans_skip (reads_skip_words n) ⟨List.replicate n 0, by simp⟩
    fun ws hws => by rw [length_flatMap_numberWire, hws.1]

theorem readsSpans_skip_bytes (n : Nat) :
    ReadsSpans (skip n) (fun bs : List UInt8 => bs.length = n) (fun _ => ()) (fun bs => [⟨bs, []⟩]) := by
  have h : ReadsAs Input.Before (skip n)
      (Described (fun bs : List UInt8 => bs.length = n) (fun _ => ()) id) :=
    (reads_skip n).congr fun bs _ rest => by simp [Described]
  exact readsSpans_skip h ⟨List.replicate n 0, List.length_replicate⟩ fun _ h => h

theorem readsSpans_take (n : Nat) :
    ReadsSpans (take n) (fun bs : List UInt8 => bs.length = n) (fun bs => ⟨bs.toArray⟩)
      (fun bs => [⟨bs, []⟩]) where
  toBreaksIn := breaksIn_span ⟨List.replicate n 0, List.length_replicate⟩ (fun _ h => h) fun _ => rfl
  steady := steady_take n
  reads := (reads_take n).congr fun bs body rest => by
    constructor
    · rintro ⟨hn, rfl⟩
      exact ⟨body.data.toList, ⟨hn, by simp⟩, rfl, by simp⟩
    · rintro ⟨bytes, ⟨hn, -⟩, rfl, rfl⟩
      exact ⟨hn, by simp⟩

/-- The reader fails as truncated if and only if the body has no room for a word that it looks for. -/
def LooksIn (r : Reader α) (body : List UInt8) (places : List Nat) : Prop :=
  ∀ i told, r i = .error (.truncated told) ↔
    told ∈ places ∧ told ≤ body.length ∧ body.length < told + 2

section Looking

variable {body : List UInt8} {places : List Nat}

theorem u2_eq_ok {i i₁ : Input} {value : Nat} :
    u2 i = .ok (value, i₁) ↔ i.position + 2 ≤ i.bytes.size ∧ value = bigEndian i.bytes i.position 2 ∧
      i₁ = { i with position := i.position + 2 } := by
  unfold u2 number
  split
  · rename_i h
    simp [h, eq_comm]
  · rename_i h
    simp [h]

theorem u2_eq_truncated {i : Input} {told : Nat} :
    u2 i = .error (.truncated told) ↔ told = i.position ∧ i.bytes.size < i.position + 2 := by
  unfold u2 number
  split
  · simp; omega
  · simp; omega

theorem LooksIn.bind_pure {r : Reader α} (h : LooksIn r body places) (g : α → β) :
    LooksIn (r >>= fun a => pure (g a)) body places := by
  intro i told
  rw [run_bind_pure_eq_error]
  exact h i told

theorem looksIn_pure (a : α) : LooksIn (pure a) body [] := by
  intro i told
  constructor
  · intro h
    cases h
  · rintro ⟨h, -⟩
    cases h

theorem within_eq_error {body : ByteArray} {r : Reader α} {i : Input} {e : Failure} :
    within body r i = .error e ↔ r ⟨body, 0⟩ = .error e := by
  unfold within
  cases r ⟨body, 0⟩ <;> simp

theorem looksIn_u2 : LooksIn (within ⟨body.toArray⟩ u2) body [0] := by
  intro i told
  rw [within_eq_error, u2_eq_truncated, List.mem_singleton]
  show told = 0 ∧ body.length < 0 + 2 ↔ _
  omega

theorem timesAfter_u2_eq_truncated {n told : Nat} {i : Input} (hi : i.position ≤ i.bytes.size)
    (before : List Nat) :
    timesAfter u2 n before i = .error (.truncated told) ↔
      ∃ j < n, told = i.position + 2 * j ∧ told ≤ i.bytes.size ∧ i.bytes.size < told + 2 := by
  induction n generalizing i before with
  | zero =>
    constructor
    · intro h
      cases h
    · rintro ⟨j, hj, -⟩
      cases hj
  | succ n ih =>
    show (u2 >>= fun v => timesAfter u2 n (v :: before)) i = _ ↔ _
    rw [run_bind_eq_error, u2_eq_truncated]
    constructor
    · rintro (⟨rfl, hlt⟩ | ⟨v, i₁, hok, h⟩)
      · exact ⟨0, Nat.succ_pos n, rfl, hi, hlt⟩
      · obtain ⟨hfits, rfl, rfl⟩ := u2_eq_ok.mp hok
        obtain ⟨j, hj, rfl, hle, hlt⟩ := (ih hfits _).mp h
        exact ⟨j + 1, Nat.succ_lt_succ hj, by show i.position + 2 + 2 * j = _; omega, hle, hlt⟩
    · rintro ⟨j, hj, rfl, hle, hlt⟩
      cases j with
      | zero => exact .inl ⟨rfl, hlt⟩
      | succ j =>
        have hfits : i.position + 2 ≤ i.bytes.size := by omega
        have hnext : i.position + 2 + 2 * j = i.position + 2 * (j + 1) := by omega
        exact .inr ⟨_, _, u2_eq_ok.mpr ⟨hfits, rfl, rfl⟩,
          (ih hfits _).mpr ⟨j, Nat.lt_of_succ_lt_succ hj, hnext.symm, hle, hlt⟩⟩

theorem looksIn_times : LooksIn (within ⟨body.toArray⟩ do times u2 (← u2)) body
    (0 :: (List.range (word body)).map fun j => 2 + 2 * j) := by
  intro i told
  have hsize : ByteArray.size ⟨body.toArray⟩ = body.length := rfl
  have hstart := Input.Before.start ⟨body.toArray⟩
  rw [within_eq_error, run_bind_eq_error, u2_eq_truncated, List.mem_cons, List.mem_map]
  constructor
  · rintro (⟨rfl, hlt⟩ | ⟨n, i₁, hok, h⟩)
    · exact ⟨.inl rfl, Nat.zero_le _, hlt⟩
    · obtain ⟨-, ⟨-, hn, -⟩, -⟩ := reads_word.sound hstart hok
      obtain ⟨hfits, -, rfl⟩ := u2_eq_ok.mp hok
      obtain ⟨j, hj, rfl, hle, hlt⟩ := (timesAfter_u2_eq_truncated hfits []).mp h
      exact ⟨.inr ⟨j, List.mem_range.mpr (hn ▸ hj), rfl⟩, hle, hlt⟩
  · rintro ⟨rfl | ⟨j, hj, rfl⟩, hle, hlt⟩
    · exact .inl ⟨rfl, hlt⟩
    · have hfits : 2 ≤ body.length := by omega
      obtain ⟨i₁, hok, -⟩ := reads_word.complete hstart ⟨hfits, rfl, rfl⟩
      obtain ⟨hfits, -, rfl⟩ := u2_eq_ok.mp hok
      exact .inr ⟨_, _, hok, (timesAfter_u2_eq_truncated hfits []).mpr
        ⟨j, List.mem_range.mp hj, rfl, hle, hlt⟩⟩

end Looking

/-- A body is taken as a whole before words are looked for inside. -/
theorem breaksIn_look {look : ByteArray → Reader α} (n : Nat) (places : List UInt8 → List Nat)
    (h : ∀ body : List UInt8, LooksIn (look ⟨body.toArray⟩) body (places body)) :
    BreaksIn (take n >>= look) (fun body : List UInt8 => body.length = n)
      (fun body => [⟨body, places body⟩]) where
  exists_admitted := ⟨List.replicate n 0, List.length_replicate⟩
  iff {i bs told} hi := by
    simp only [breaks_singleton]
    rw [run_bind_eq_error]
    constructor
    · rintro (he | ⟨body, i₁, hok, he⟩)
      · obtain ⟨body, hn, actual, hb⟩ := ((readsSpans_take n).iff hi).mp he
        cases breaks_singleton.mp hb with
        | span hshort => exact ⟨body, hn, _, .span hshort⟩
        | word _ hw => cases hw
      · obtain ⟨rest, ⟨hn, rfl⟩, -⟩ := (reads_take n).sound hi hok
        obtain ⟨hw, hle, hlt⟩ := (h body.data.toList i₁ told).mp he
        exact ⟨body.data.toList, hn, _, .word (List.prefix_append _ _) hw hle hlt⟩
    · rintro ⟨body, hn, actual, hs⟩
      cases hs with
      | span hshort =>
        exact .inl (((readsSpans_take n).iff hi).mpr
          ⟨body, hn, _, breaks_singleton.mpr (.span hshort)⟩)
      | word hbody hw hle hlt =>
        -- The body is all there, so it is taken before the word is missed.
        obtain ⟨rest, rfl⟩ := hbody
        obtain ⟨i₁, hok, -⟩ := (reads_take n).complete hi (a := ⟨body.toArray⟩) ⟨hn, rfl⟩
        exact .inr ⟨_, i₁, hok, (h body i₁ told).mpr ⟨hw, hle, hlt⟩⟩

theorem breaksIn_loop {σ : Type} (item : σ → Reader α) (next : σ → α → σ) (loop : Nat → σ → Reader β)
    {admits : δ → Prop} {project : σ → δ → α} {spans : δ → List Span}
    (hzero : ∀ s, ∃ b, loop 0 s = Pure.pure b)
    (hsucc : ∀ n s, loop (n + 1) s = item s >>= fun a => loop n (next s a))
    (hitem : ∀ s, ReadsSpans (item s) admits (project s) spans) (n : Nat) (s : σ) :
    BreaksIn (loop n s) (fun ds : List δ => ds.length = n ∧ ∀ d ∈ ds, admits d) (List.flatMap spans) := by
  induction n generalizing s with
  | zero =>
    obtain ⟨b, hb⟩ := hzero s
    rw [hb]
    refine .pure b ⟨[], rfl, List.forall_mem_nil _⟩ fun ds hds => ?_
    rw [List.length_eq_zero_iff.mp hds.1, List.flatMap_nil]
  | succ n ih =>
    rw [hsucc]
    refine ((hitem s).bind (f := fun a => loop n (next s a)) fun d _ => ih _).congr (fun p => p.1 :: p.2) ?_ ?_
    · rintro ⟨d, ds⟩ ⟨hd, hn, hds⟩
      exact ⟨⟨congrArg (· + 1) hn, List.forall_mem_cons.mpr ⟨hd, hds⟩⟩, List.flatMap_cons⟩
    · rintro ds ⟨hn, hds⟩
      cases ds with
      | nil => cases hn
      | cons d ds =>
        obtain ⟨hd, hds⟩ := List.forall_mem_cons.mp hds
        exact ⟨(d, ds), ⟨hd, Nat.succ.inj hn, hds⟩, List.flatMap_cons.symm⟩

theorem breaksIn_times {item : Reader α} {admits : δ → Prop} {project : δ → α} {spans : δ → List Span}
    (hi : ReadsSpans item admits project spans) (n : Nat) :
    BreaksIn (times item n) (fun ds : List δ => ds.length = n ∧ ∀ d ∈ ds, admits d)
      (List.flatMap spans) :=
  breaksIn_loop (fun _ => item) (fun before a => a :: before) (timesAfter item) (fun _ => ⟨_, rfl⟩)
    (fun _ _ => rfl) (fun _ => hi) n []

theorem breaksIn_pass {item : Reader Unit} {admits : δ → Prop} {spans : δ → List Span}
    (hi : ReadsSpans item admits (fun _ => ()) spans) (n : Nat) :
    BreaksIn (pass item n) (fun ds : List δ => ds.length = n ∧ ∀ d ∈ ds, admits d)
      (List.flatMap spans) :=
  breaksIn_loop (fun _ => item) (fun _ _ => ()) (fun n _ => pass item n) (fun _ => ⟨_, rfl⟩)
    (fun _ _ => rfl) (fun _ => hi) n ()

end Reader

end ClassLocator.ClassFile

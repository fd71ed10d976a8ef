import ClassLocator.Proofs.Reading
import ClassLocator.Proofs.Text.Bytes
import Mathlib.Data.List.TakeWhile
/-!
What the readers of encoded types take off a text. A cursor stands before a text when its bytes are
those of the text, so success keeps it between characters. The texts have fewer characters than a
bound, which serves as fuel for the loops: each turn takes at least one character.
-/

namespace ClassLocator.MethodType

open Text

/-- The cursor stands before `cs`, which has fewer than `n` characters. -/
def Cursor.Before (n : Nat) (c : Cursor) (cs : List Char) : Prop :=
  c.rest = utf8 cs ∧ cs.length < n

theorem Cursor.Before.of_le {k n : Nat} {c : Cursor} {cs : List Char} (h : Before k c cs)
    (hk : k ≤ n) : Before n c cs := ⟨h.1, Nat.lt_of_lt_of_le h.2 hk⟩

def IsName (stops : List Char) (name : String) : Prop :=
  name.toList ≠ [] ∧ ∀ c ∈ name.toList, c ∉ stops

instance (stops : List Char) (name : String) : Decidable (IsName stops name) :=
  decidable_of_iff (name.toList ≠ [] ∧ (name.toList.all fun c => !stops.contains c) = true)
    (by simp [IsName])

def Stopped (stops cs : List Char) : Prop := ∀ c, cs.head? = some c → c ∈ stops

def Begins (starts cs : List Char) : Prop := ∃ c ∈ starts, cs.head? = some c

theorem Begins.ne_nil {starts cs : List Char} (h : Begins starts cs) : cs ≠ [] := by
  obtain ⟨c, -, hc⟩ := h
  intro he
  simp [he] at hc

theorem Begins.head?_append_ne {starts cs : List Char} (h : Begins starts cs) {c : Char}
    (hc : c ∉ starts) (tail : List Char) : (cs ++ tail).head? ≠ some c := by
  obtain ⟨d, hd, he⟩ := h
  rw [List.head?_append, he, Option.some_or]
  intro hdc
  cases hdc
  exact hc hd

theorem head?_name_ne {stops : List Char} {name : String} (h : IsName stops name) {c : Char}
    (hc : c ∈ stops) (tail : List Char) : (name.toList ++ tail).head? ≠ some c := by
  obtain ⟨d, cs, hd⟩ := List.exists_cons_of_ne_nil h.1
  have hn : d ∉ stops := h.2 d (by simp [hd])
  intro he
  simp only [hd, List.cons_append, List.head?_cons, Option.some.injEq] at he
  exact hn (he ▸ hc)

namespace Reader

variable {α : Type} {n : Nat}

section
variable {s : Cursor} {cs : List Char}

theorem next_of_ascii {c : Char} (h : Cursor.Before n s (c :: cs)) (hc : IsAscii c) :
    ∃ s', next s = .ok (byte c, s') ∧ Cursor.Before n s' cs := by
  obtain ⟨rest, p⟩ := s
  obtain ⟨rfl, hn⟩ := h
  refine ⟨⟨utf8 cs, p + 1⟩, ?_, rfl, by simp at hn; omega⟩
  simp [utf8EncodeChar_ascii hc, next]

theorem next_of_wide {c : Char} (h : Cursor.Before n s (c :: cs)) (hc : ¬IsAscii c) :
    ∃ b s', next s = .ok (b, s') ∧ 128 ≤ b.toNat := by
  obtain ⟨rest, p⟩ := s
  obtain ⟨rfl, -⟩ := h
  obtain ⟨b, bs, hb⟩ := utf8EncodeChar_eq_cons c
  exact ⟨b, _, by simp [hb, next]; rfl, utf8EncodeChar_wide hc b (by simp [hb])⟩

theorem next_of_nil (h : Cursor.Before n s []) : next s = .error .unexpectedEnd := by
  obtain ⟨rest, p⟩ := s
  obtain ⟨rfl, -⟩ := h
  rfl

theorem sees_eq (h : Cursor.Before n s cs) {c : Char} (hc : IsAscii c) :
    sees c s = .ok (decide (cs.head? = some c), s) := by
  have he : sees c s = .ok (s.rest.head? == some (byte c), s) := rfl
  rw [he, h.1]
  congr 2
  rw [Bool.eq_iff_iff]
  simp [head?_utf8 hc]

end

theorem reads_sees {c : Char} (hc : IsAscii c) :
    ReadsAs (Cursor.Before n) (sees c) fun cs b tail => b = decide (cs.head? = some c) ∧ tail = cs where
  sound hs hr := by
    rw [sees_eq hs hc] at hr
    cases hr
    exact ⟨_, ⟨rfl, rfl⟩, hs⟩
  complete hs ht := by
    obtain ⟨rfl, rfl⟩ := ht
    exact ⟨_, sees_eq hs hc, hs⟩

/-- A byte that decides what is read behind it. Where no byte of a wider character is accepted, the
byte is an ASCII character. -/
theorem reads_next_bind_le {k : Nat} (hk : k ≤ n) (hn : n ≤ k + 1) {f : UInt8 → Reader α}
    {P : Char → List Char → α → List Char → Prop}
    (hf : ∀ c, IsAscii c → ReadsAs (Cursor.Before k) (f (byte c)) (P c))
    (hw : ∀ b : UInt8, 128 ≤ b.toNat → ∀ s, ∃ e, f b s = .error e) :
    ReadsAs (Cursor.Before n) (next >>= f) fun cs a tail =>
      ∃ c rest, cs = c :: rest ∧ IsAscii c ∧ P c rest a tail := by
  have hlt : ∀ {s : Cursor} {c : Char} {rest : List Char}, Cursor.Before n s (c :: rest) →
      rest.length < k := by
    intro s c rest hs
    have := hs.2
    simp only [List.length_cons] at this
    omega
  constructor
  · intro s cs a s' hs hr
    obtain ⟨b, s₁, hb, hr⟩ := run_bind_eq_ok.mp hr
    cases cs with
    | nil =>
      rw [next_of_nil hs] at hb
      cases hb
    | cons c rest =>
      by_cases hc : IsAscii c
      · obtain ⟨s₂, h₂, hs₂⟩ := next_of_ascii hs hc
        rw [h₂] at hb
        cases hb
        obtain ⟨tail, hp, ht⟩ := (hf c hc).sound ⟨hs₂.1, hlt hs⟩ hr
        exact ⟨tail, ⟨c, rest, rfl, hc, hp⟩, ht.of_le hk⟩
      · -- The lead byte of a wider character decides for a fault.
        obtain ⟨b', s₂, h₂, hb'⟩ := next_of_wide hs hc
        rw [h₂] at hb
        cases hb
        obtain ⟨e, he⟩ := hw b hb' s₁
        rw [he] at hr
        cases hr
  · intro s cs a tail hs ht
    obtain ⟨c, rest, rfl, hc, hp⟩ := ht
    obtain ⟨s₁, h₁, hs₁⟩ := next_of_ascii hs hc
    obtain ⟨s', h', hs'⟩ := (hf c hc).complete ⟨hs₁.1, hlt hs⟩ hp
    exact ⟨s', run_bind_eq_ok.mpr ⟨_, s₁, h₁, h'⟩, hs'.of_le hk⟩

theorem reads_next_bind {f : UInt8 → Reader α} {P : Char → List Char → α → List Char → Prop}
    (hf : ∀ c, IsAscii c → ReadsAs (Cursor.Before n) (f (byte c)) (P c))
    (hw : ∀ b : UInt8, 128 ≤ b.toNat → ∀ s, ∃ e, f b s = .error e) :
    ReadsAs (Cursor.Before n) (next >>= f) fun cs a tail =>
      ∃ c rest, cs = c :: rest ∧ IsAscii c ∧ P c rest a tail :=
  reads_next_bind_le (Nat.le_refl n) (Nat.le_succ n) hf hw

theorem reads_of_le {k : Nat} (hk : k ≤ n) {r : Reader α} {admits : α → Prop}
    {wire : α → List Char} (hr : ReadsAs (Cursor.Before n) r (Written admits wire)) :
    ReadsAs (Cursor.Before k) r (Written admits wire) := by
  have hle : ∀ {cs a m}, Written admits wire cs a m → m.length ≤ cs.length := by
    intro cs a m h
    simp [h.2]
  constructor
  · intro s cs a s' hs h
    obtain ⟨tail, hp, ht⟩ := hr.sound (hs.of_le hk) h
    exact ⟨tail, hp, ht.1, Nat.lt_of_le_of_lt (hle hp) hs.2⟩
  · intro s cs a tail hs hp
    obtain ⟨s', h, ht⟩ := hr.complete (hs.of_le hk) hp
    exact ⟨s', h, ht.1, Nat.lt_of_le_of_lt (hle hp) hs.2⟩

theorem reads_next_of_seen {c : Char} (hc : IsAscii c) {r r' : Reader α}
    {P P' : List Char → α → List Char → Prop} (hr : ReadsAs (Cursor.Before n) r P)
    (hr' : ReadsAs (Cursor.Before n) r' P') :
    ReadsAs (Cursor.Before n)
      (sees c >>= fun b => if b = true then next >>= fun _ => r else r') fun cs a tail =>
        (∃ rest, cs = c :: rest ∧ P rest a tail) ∨ cs.head? ≠ some c ∧ P' cs a tail where
  sound {s cs a s'} hs h := by
    obtain ⟨b, s₁, hb, h⟩ := run_bind_eq_ok.mp h
    rw [sees_eq hs hc] at hb
    cases hb
    by_cases hh : cs.head? = some c
    · obtain ⟨rest, rfl⟩ := List.head?_eq_some_iff.mp hh
      simp only [hh, decide_true, if_true] at h
      obtain ⟨b, s₂, hb, h⟩ := run_bind_eq_ok.mp h
      obtain ⟨s₃, h₃, hs₃⟩ := next_of_ascii hs hc
      rw [h₃] at hb
      cases hb
      obtain ⟨tail, hp, ht⟩ := hr.sound hs₃ h
      exact ⟨tail, .inl ⟨rest, rfl, hp⟩, ht⟩
    · simp only [hh, decide_false, Bool.false_eq_true, if_false] at h
      obtain ⟨tail, hp, ht⟩ := hr'.sound hs h
      exact ⟨tail, .inr ⟨hh, hp⟩, ht⟩
  complete {s cs a tail} hs h := by
    rcases h with ⟨rest, rfl, hp⟩ | ⟨hh, hp⟩
    · obtain ⟨s₁, h₁, hs₁⟩ := next_of_ascii hs hc
      obtain ⟨s', h', hs'⟩ := hr.complete hs₁ hp
      refine ⟨s', run_bind_eq_ok.mpr ⟨_, s, sees_eq hs hc, ?_⟩, hs'⟩
      simp only [List.head?_cons, decide_true, if_true]
      exact run_bind_eq_ok.mpr ⟨_, s₁, h₁, h'⟩
    · obtain ⟨s', h', hs'⟩ := hr'.complete hs hp
      refine ⟨s', run_bind_eq_ok.mpr ⟨_, s, sees_eq hs hc, ?_⟩, hs'⟩
      simpa [hh] using h'

theorem reads_expect {c : Char} (hc : IsAscii c) :
    ReadsAs (Cursor.Before n) (expect c) fun cs _ tail => cs = c :: tail := by
  unfold expect
  refine (reads_next_bind (P := fun d rest _ tail => d = c ∧ tail = rest)
    (fun d hd => ?_) fun b hb s => ?_).congr fun cs u tail => ?_
  · by_cases hdc : d = c
    · subst hdc
      simp only [beq_self_eq_true, if_true]
      exact (ReadsAs.pure ()).congr fun _ _ _ => by simp
    · simp only [byte_beq hd hc, hdc, decide_false, Bool.false_eq_true, if_false]
      exact (ReadsAs.fails fun s => ⟨_, rfl⟩).congr fun _ _ _ => by simp
  · simp only [beq_byte_of_wide hb hc, Bool.false_eq_true, if_false]
    exact ⟨_, rfl⟩
  · constructor
    · intro h
      obtain ⟨d, rest, rfl, -, rfl, rfl⟩ := h
      rfl
    · intro h
      obtain rfl := h
      exact ⟨c, tail, rfl, hc, rfl, rfl⟩

theorem reads_finish :
    ReadsAs (Cursor.Before n) finish fun cs _ tail => cs = [] ∧ tail = [] where
  sound {s cs a s'} hs hr := by
    cases cs with
    | nil =>
      have he : finish s = .ok ((), s) := by
        obtain ⟨rest, p⟩ := s
        obtain ⟨rfl, -⟩ := hs
        rfl
      rw [he] at hr
      cases hr
      exact ⟨[], ⟨rfl, rfl⟩, hs⟩
    | cons c cs =>
      exfalso
      obtain ⟨rest, p⟩ := s
      obtain ⟨rfl, -⟩ := hs
      obtain ⟨b, bs, hb⟩ := utf8EncodeChar_eq_cons c
      have he : finish ⟨utf8 (c :: cs), p⟩ = .error (.trailing p) := by
        rw [utf8_cons, hb]
        rfl
      rw [he] at hr
      cases hr
  complete {s cs a tail} hs ht := by
    obtain ⟨rfl, rfl⟩ := ht
    obtain ⟨rest, p⟩ := s
    obtain ⟨rfl, hn⟩ := hs
    exact ⟨_, rfl, rfl, hn⟩

theorem takeWhile_dropWhile_iff (stops cs : List Char) {ds tail : List Char} :
    ds = cs.takeWhile (fun c => !stops.contains c) ∧
        tail = cs.dropWhile (fun c => !stops.contains c) ↔
      (∀ c ∈ ds, c ∉ stops) ∧ cs = ds ++ tail ∧ Stopped stops tail := by
  constructor
  · intro h
    obtain ⟨rfl, rfl⟩ := h
    refine ⟨fun c hc => ?_, List.takeWhile_append_dropWhile.symm, fun c hc => ?_⟩
    · simpa using List.mem_takeWhile_imp hc
    · have h := List.head?_dropWhile_not (fun c => !stops.contains c) cs
      rw [hc] at h
      simpa using h
  · intro h
    obtain ⟨hd, rfl, ht⟩ := h
    have hin : ∀ c ∈ ds, (!stops.contains c) = true := fun c hc => by simpa using hd c hc
    rw [List.takeWhile_append_of_pos hin, List.dropWhile_append_of_pos hin]
    cases tail with
    | nil => simp
    | cons c tail =>
      have hc : c ∈ stops := ht c rfl
      simp [hc]

theorem reads_identifier {stops : List Char} (hs : ∀ c ∈ stops, IsAscii c) :
    ReadsAs (Cursor.Before n) (identifier stops) fun cs name tail =>
      IsName stops name ∧ cs = name.toList ++ tail ∧ Stopped stops tail := by
  -- What the reader finds is the text up to the first stop.
  have hrun : ∀ s cs, Cursor.Before n s cs → ∃ p,
      identifier stops s = if (cs.takeWhile fun c => !stops.contains c).isEmpty
        then .error (.emptyIdentifier s.position)
        else .ok (String.ofList (cs.takeWhile fun c => !stops.contains c),
          ⟨utf8 (cs.dropWhile fun c => !stops.contains c), p⟩) := by
    intro s cs hb
    obtain ⟨rest, p⟩ := s
    obtain ⟨rfl, -⟩ := hb
    obtain ⟨ht, hd⟩ := span_utf8_stops hs cs
    have he : (utf8 (cs.takeWhile fun c => !stops.contains c)).isEmpty =
        (cs.takeWhile fun c => !stops.contains c).isEmpty := by
      cases cs.takeWhile fun c => !stops.contains c with
      | nil => rfl
      | cons c _ =>
        obtain ⟨b, bs, hb⟩ := utf8EncodeChar_eq_cons c
        simp [hb]
    simp only [identifier, ht, hd, he, decodeLossy_utf8]
    exact ⟨_, rfl⟩
  have hlen : ∀ cs : List Char, (cs.dropWhile fun c => !stops.contains c).length ≤ cs.length :=
    fun cs => (List.dropWhile_sublist _).length_le
  constructor
  · intro s cs name s' hb hr
    obtain ⟨p, hp⟩ := hrun s cs hb
    rw [hp] at hr
    split at hr
    · cases hr
    · next hne =>
      cases hr
      obtain ⟨hin, hcs, hst⟩ := (takeWhile_dropWhile_iff stops cs).mp ⟨rfl, rfl⟩
      refine ⟨_, ⟨⟨?_, ?_⟩, ?_, hst⟩, rfl, Nat.lt_of_le_of_lt (hlen cs) hb.2⟩
      · simpa using hne
      · simpa using hin
      · simp
  · intro s cs name tail hb h
    obtain ⟨⟨hne, hin⟩, hcs, hst⟩ := h
    obtain ⟨p, hp⟩ := hrun s cs hb
    obtain ⟨ht, hd⟩ := (takeWhile_dropWhile_iff stops cs).mpr ⟨hin, hcs, hst⟩
    rw [← ht, ← hd, String.ofList_toList, if_neg (by simpa using hne)] at hp
    exact ⟨_, hp, rfl, by rw [hd]; exact Nat.lt_of_le_of_lt (hlen cs) hb.2⟩

theorem brackets_utf8 (cs : List Char) :
    ∃ k tail, cs = List.replicate k '[' ++ tail ∧ tail.head? ≠ some '[' ∧
      ((utf8 cs).takeWhile (· == byte '[')).length = k ∧ (utf8 cs).drop k = utf8 tail := by
  have ha : IsAscii '[' := by decide
  induction cs with
  | nil => exact ⟨0, [], by simp⟩
  | cons c cs ih =>
    by_cases hc : c = '['
    · subst hc
      obtain ⟨k, tail, rfl, ht, hk, hd⟩ := ih
      refine ⟨k + 1, tail, by simp [List.replicate_succ], ht, ?_, ?_⟩
      · rw [utf8_cons, utf8EncodeChar_ascii ha]
        simpa using hk
      · rw [utf8_cons, utf8EncodeChar_ascii ha]
        simpa using hd
    · have hh : ((utf8 (c :: cs)).takeWhile (· == byte '[')) = [] := by
        have hne := mt (head?_utf8 ha (c :: cs)).mp (by simpa using hc)
        cases hu : utf8 (c :: cs) with
        | nil => rfl
        | cons b bs =>
          rw [hu] at hne
          simpa [List.takeWhile_cons] using hne
      exact ⟨0, c :: cs, rfl, by simpa using hc, by rw [hh]; rfl, rfl⟩

theorem replicate_append_inj {c : Char} {k l : Nat} {cs ds : List Char}
    (hc : cs.head? ≠ some c) (hd : ds.head? ≠ some c)
    (h : List.replicate k c ++ cs = List.replicate l c ++ ds) : k = l ∧ cs = ds := by
  induction k generalizing l with
  | zero =>
    cases l with
    | zero => exact ⟨rfl, h⟩
    | succ l => simp [List.replicate_succ] at h; simp [h] at hc
  | succ k ih =>
    cases l with
    | zero => simp [List.replicate_succ] at h; simp [← h] at hd
    | succ l =>
      obtain ⟨rfl, he⟩ := ih (by simpa [List.replicate_succ] using h)
      exact ⟨rfl, he⟩

theorem reads_dimensions :
    ReadsAs (Cursor.Before n) dimensions fun cs k tail =>
      k ≤ maxDimensions ∧ cs = List.replicate k '[' ++ tail ∧ tail.head? ≠ some '[' := by
  constructor
  · intro s cs k s' hs hr
    obtain ⟨rest, p⟩ := s
    obtain ⟨rfl, hn⟩ := hs
    obtain ⟨l, tail, rfl, ht, hl, hd⟩ := brackets_utf8 cs
    simp only [dimensions, hl] at hr
    split at hr
    · cases hr
    · next hle =>
      cases hr
      refine ⟨tail, ⟨by omega, rfl, ht⟩, hd, ?_⟩
      simp at hn
      omega
  · intro s cs k tail hs h
    obtain ⟨rest, p⟩ := s
    obtain ⟨rfl, hn⟩ := hs
    obtain ⟨hk, rfl, ht⟩ := h
    obtain ⟨l, tail', hcs, ht', hl, hd⟩ := brackets_utf8 (List.replicate k '[' ++ tail)
    obtain ⟨rfl, rfl⟩ := replicate_append_inj ht ht' hcs
    refine ⟨⟨_, p + k⟩, ?_, hd, ?_⟩
    · simp only [dimensions, hl]
      rw [if_neg (by omega)]
    · simp at hn
      omega

def Until (stop : Char) (P : List Char → α → List Char → Prop) :
    List Char → List α → List Char → Prop
  | cs, [], tail => cs.head? = some stop ∧ tail = cs
  | cs, a :: as, tail => cs.head? ≠ some stop ∧ ∃ m, P cs a m ∧ Until stop P m as tail

def Each (lead : Char) (P : List Char → α → List Char → Prop) :
    List Char → List α → List Char → Prop
  | cs, [], tail => cs.head? ≠ some lead ∧ tail = cs
  | cs, a :: as, tail => ∃ rest m, cs = lead :: rest ∧ P rest a m ∧ Each lead P m as tail

/-- Items that are written one behind the other, up to a place where the text may end. -/
theorem items_written {T : List Char → List α → List Char → Prop} (Ends : List Char → Prop)
    {admits : α → Prop} {wire : α → List Char} (hnil : ∀ cs tail, T cs [] tail ↔ Ends cs ∧ tail = cs)
    (hcons : ∀ cs a as tail, T cs (a :: as) tail ↔ ∃ m, Written admits wire cs a m ∧ T m as tail)
    (as : List α) (cs tail : List Char) :
    T cs as tail ↔ (∀ a ∈ as, admits a) ∧ cs = as.flatMap wire ++ tail ∧ Ends tail := by
  induction as generalizing cs with
  | nil =>
    rw [hnil]
    constructor
    · intro h
      obtain ⟨hends, rfl⟩ := h
      exact ⟨List.forall_mem_nil _, rfl, hends⟩
    · intro h
      obtain ⟨-, rfl, hends⟩ := h
      exact ⟨hends, rfl⟩
  | cons a as ih =>
    simp only [hcons, Written, ih, List.forall_mem_cons, List.flatMap_cons, List.append_assoc]
    constructor
    · intro h
      obtain ⟨m, ⟨ha, rfl⟩, has, rfl, hends⟩ := h
      exact ⟨⟨ha, has⟩, rfl, hends⟩
    · intro h
      obtain ⟨⟨ha, has⟩, rfl, hends⟩ := h
      exact ⟨_, ⟨ha, rfl⟩, has, rfl, hends⟩

theorem until_written {stop : Char} {admits : α → Prop} {wire : α → List Char}
    (hw : ∀ a tail, admits a → (wire a ++ tail).head? ≠ some stop) (as : List α)
    (cs tail : List Char) :
    Until stop (Written admits wire) cs as tail ↔
      (∀ a ∈ as, admits a) ∧ cs = as.flatMap wire ++ tail ∧ tail.head? = some stop := by
  refine items_written (·.head? = some stop) (fun _ _ => Iff.rfl) (fun cs a as tail => ?_) as cs tail
  refine and_iff_right_of_imp fun h => ?_
  obtain ⟨m, ⟨ha, rfl⟩, -⟩ := h
  exact hw a m ha

theorem each_written {lead : Char} {admits : α → Prop} {wire : α → List Char} (as : List α)
    (cs tail : List Char) :
    Each lead (Written admits wire) cs as tail ↔
      (∀ a ∈ as, admits a) ∧ cs = as.flatMap (lead :: wire ·) ++ tail ∧
        tail.head? ≠ some lead := by
  refine items_written (·.head? ≠ some lead) (fun _ _ => Iff.rfl) (fun cs a as tail => ?_) as cs tail
  constructor
  · intro h
    obtain ⟨rest, m, rfl, ⟨ha, rfl⟩, hrest⟩ := h
    exact ⟨m, ⟨ha, rfl⟩, hrest⟩
  · intro h
    obtain ⟨m, ⟨ha, rfl⟩, hrest⟩ := h
    exact ⟨_, m, rfl, ⟨ha, rfl⟩, hrest⟩

section
variable {item : Reader α} {P : List Char → α → List Char → Prop} {s s' : Cursor} {cs : List Char}

theorem untilStopAfter_succ (stop : Char) (hs : Cursor.Before n s cs) (hc : IsAscii stop)
    (fuel : Nat) (before : List α) :
    untilStopAfter stop item (fuel + 1) before s =
      if cs.head? = some stop then .ok (before.reverse, s)
      else item s >>= fun p => untilStopAfter stop item fuel (p.1 :: before) p.2 := by
  show (sees stop s >>= fun p => (if p.1 = true then pure before.reverse else
    item >>= fun a => untilStopAfter stop item fuel (a :: before) : Reader (List α)) p.2) = _
  rw [sees_eq hs hc]
  by_cases h : cs.head? = some stop <;> simp [h, bind, Except.bind] <;> rfl

theorem eachAfterLead_succ (lead : Char) (hs : Cursor.Before n s cs) (hc : IsAscii lead)
    (fuel : Nat) (before : List α) :
    eachAfterLead lead item (fuel + 1) before s =
      if cs.head? = some lead then
        next s >>= fun p => item p.2 >>= fun q => eachAfterLead lead item fuel (q.1 :: before) q.2
      else .ok (before.reverse, s) := by
  show (sees lead s >>= fun p => (if p.1 = true then next >>= fun _ =>
    item >>= fun a => eachAfterLead lead item fuel (a :: before)
    else pure before.reverse : Reader (List α)) p.2) = _
  rw [sees_eq hs hc]
  by_cases h : cs.head? = some lead <;> simp [h, bind, Except.bind] <;> rfl

theorem bind_eq_ok {ε β γ : Type} {x : Except ε β} {f : β → Except ε γ} {c : γ} :
    x >>= f = .ok c ↔ ∃ b, x = .ok b ∧ f b = .ok c := by
  cases x <;> simp [bind, Except.bind]

/-- The fuel outlasts the text, for each item takes at least one character. -/
theorem reads_untilStopAfter {stop : Char} (hc : IsAscii stop)
    (hi : ReadsAs (Cursor.Before n) item P) (hp : ∀ cs a m, P cs a m → m.length < cs.length)
    (fuel : Nat) (hf : fuel ≤ n) (before : List α) :
    ReadsAs (Cursor.Before fuel) (untilStopAfter stop item fuel before) fun cs as tail =>
      ∃ more, as = before.reverse ++ more ∧ Until stop P cs more tail := by
  induction fuel generalizing before with
  | zero => exact ⟨fun hs => absurd hs.2 (by omega), fun hs => absurd hs.2 (by omega)⟩
  | succ fuel ih =>
    constructor
    · intro s cs as s' hs hr
      rw [untilStopAfter_succ stop hs hc] at hr
      split at hr
      · next hh =>
        cases hr
        exact ⟨cs, ⟨[], by simp, hh, rfl⟩, hs⟩
      · next hh =>
        obtain ⟨⟨a, s₁⟩, ha, hr⟩ := bind_eq_ok.mp hr
        obtain ⟨m, hm, hs₁⟩ := hi.sound (hs.of_le hf) ha
        have hlt := hp cs a m hm
        obtain ⟨tail, ⟨more, rfl, hu⟩, ht⟩ := (ih (by omega) (a :: before)).sound
          ⟨hs₁.1, by have := hs.2; omega⟩ hr
        exact ⟨tail, ⟨a :: more, by simp, hh, m, hm, hu⟩, ht.of_le (Nat.le_succ fuel)⟩
    · intro s cs as tail hs h
      obtain ⟨more, rfl, hu⟩ := h
      rw [untilStopAfter_succ stop hs hc]
      cases more with
      | nil =>
        obtain ⟨hh, rfl⟩ := hu
        exact ⟨s, by simp [hh], hs⟩
      | cons a more =>
        obtain ⟨hh, m, hm, hu⟩ := hu
        obtain ⟨s₁, ha, hs₁⟩ := hi.complete (hs.of_le hf) hm
        have hlt := hp cs a m hm
        obtain ⟨s', hr, ht⟩ := (ih (by omega) (a :: before)).complete
          ⟨hs₁.1, by have := hs.2; omega⟩ ⟨more, rfl, hu⟩
        rw [if_neg hh]
        refine ⟨s', bind_eq_ok.mpr ⟨(a, s₁), ha, ?_⟩, ht.of_le (Nat.le_succ fuel)⟩
        simpa using hr

theorem reads_untilStop {stop : Char} (hc : IsAscii stop) (hi : ReadsAs (Cursor.Before n) item P)
    (hp : ∀ cs a m, P cs a m → m.length < cs.length) :
    ReadsAs (Cursor.Before n) (untilStop stop item n) (Until stop P) :=
  (reads_untilStopAfter hc hi hp n (Nat.le_refl n) []).congr fun _ _ _ => by simp

theorem reads_eachAfterLead {lead : Char} (hc : IsAscii lead)
    (hi : ReadsAs (Cursor.Before n) item P) (hp : ∀ cs a m, P cs a m → m.length ≤ cs.length)
    (fuel : Nat) (hf : fuel ≤ n) (before : List α) :
    ReadsAs (Cursor.Before fuel) (eachAfterLead lead item fuel before) fun cs as tail =>
      ∃ more, as = before.reverse ++ more ∧ Each lead P cs more tail := by
  -- The lead of each item is taken, so the fuel outlasts the text even if items are empty.
  induction fuel generalizing before with
  | zero => exact ⟨fun hs => absurd hs.2 (by omega), fun hs => absurd hs.2 (by omega)⟩
  | succ fuel ih =>
    constructor
    · intro s cs as s' hs hr
      rw [eachAfterLead_succ lead hs hc] at hr
      split at hr
      · next hh =>
        obtain ⟨rest, rfl⟩ := List.head?_eq_some_iff.mp hh
        obtain ⟨⟨b, s₁⟩, hb, hr⟩ := bind_eq_ok.mp hr
        obtain ⟨s₂, h₂, hs₂⟩ := next_of_ascii hs hc
        rw [h₂] at hb
        cases hb
        obtain ⟨⟨a, s₃⟩, ha, hr⟩ := bind_eq_ok.mp hr
        obtain ⟨m, hm, hs₃⟩ := hi.sound (hs₂.of_le hf) ha
        have hle := hp rest a m hm
        have hlt := hs.2
        simp only [List.length_cons] at hlt
        obtain ⟨tail, ⟨more, rfl, hu⟩, ht⟩ := (ih (by omega) (a :: before)).sound
          ⟨hs₃.1, by omega⟩ hr
        exact ⟨tail, ⟨a :: more, by simp, rest, m, rfl, hm, hu⟩, ht.of_le (Nat.le_succ fuel)⟩
      · next hh =>
        cases hr
        exact ⟨cs, ⟨[], by simp, hh, rfl⟩, hs⟩
    · intro s cs as tail hs h
      obtain ⟨more, rfl, hu⟩ := h
      rw [eachAfterLead_succ lead hs hc]
      cases more with
      | nil =>
        obtain ⟨hh, rfl⟩ := hu
        exact ⟨s, by simp [hh], hs⟩
      | cons a more =>
        obtain ⟨rest, m, rfl, hm, hu⟩ := hu
        obtain ⟨s₁, h₁, hs₁⟩ := next_of_ascii hs hc
        obtain ⟨s₂, ha, hs₂⟩ := hi.complete (hs₁.of_le hf) hm
        have hle := hp rest a m hm
        have hlt := hs.2
        simp only [List.length_cons] at hlt
        obtain ⟨s', hr, ht⟩ := (ih (by omega) (a :: before)).complete
          ⟨hs₂.1, by omega⟩ ⟨more, rfl, hu⟩
        simp only [List.head?_cons, if_true]
        refine ⟨s', bind_eq_ok.mpr ⟨_, h₁, bind_eq_ok.mpr ⟨_, ha, ?_⟩⟩, ht.of_le (Nat.le_succ fuel)⟩
        simpa using hr

theorem reads_eachAfter {lead : Char} (hc : IsAscii lead) (hi : ReadsAs (Cursor.Before n) item P)
    (hp : ∀ cs a m, P cs a m → m.length ≤ cs.length) :
    ReadsAs (Cursor.Before n) (eachAfter lead item n) (Each lead P) :=
  (reads_eachAfterLead hc hi hp n (Nat.le_refl n) []).congr fun _ _ _ => by simp

section
variable {admits : α → Prop} {wire : α → List Char} {starts : List Char}

theorem reads_untilWritten {stop : Char} (hc : IsAscii stop) (hs : stop ∉ starts)
    (hw : ∀ a, admits a → Begins starts (wire a))
    (hi : ReadsAs (Cursor.Before n) item (Written admits wire)) :
    ReadsAs (Cursor.Before n) (untilStop stop item n) fun cs as tail =>
      (∀ a ∈ as, admits a) ∧ cs = as.flatMap wire ++ tail ∧ tail.head? = some stop := by
  refine (reads_untilStop hc hi fun cs a m h => ?_).congr fun cs as tail =>
    until_written (fun a tail ha => (hw a ha).head?_append_ne hs tail) as cs tail
  obtain ⟨ha, rfl⟩ := h
  have hpos := List.length_pos_iff.mpr (hw a ha).ne_nil
  simp only [List.length_append]
  omega

theorem reads_eachWritten {lead : Char} (hc : IsAscii lead)
    (hi : ReadsAs (Cursor.Before n) item (Written admits wire)) :
    ReadsAs (Cursor.Before n) (eachAfter lead item n) fun cs as tail =>
      (∀ a ∈ as, admits a) ∧ cs = as.flatMap (lead :: wire ·) ++ tail ∧ tail.head? ≠ some lead :=
  (reads_eachAfter hc hi fun cs a m h => by simp [h.2]).congr fun cs as tail =>
    each_written as cs tail

theorem reads_orVoid (hs : 'V' ∉ starts) (hw : ∀ a, admits a → Begins starts (wire a))
    (hi : ReadsAs (Cursor.Before n) item (Written admits wire)) :
    ReadsAs (Cursor.Before n) (orVoid item)
      (Written (fun o => ∀ a ∈ o, admits a) fun o => (o.map wire).getD ['V']) := by
  refine (reads_next_of_seen (by decide) (.pure none)
    (hi.bind fun a => .pure (some a))).congr fun cs o tail => ?_
  constructor
  · intro h
    obtain ⟨rest, rfl, rfl, rfl⟩ | ⟨-, a, m, ⟨ha, rfl⟩, rfl, rfl⟩ := h
    · exact ⟨by simp, rfl⟩
    · exact ⟨by simpa using ha, rfl⟩
  · intro h
    obtain ⟨ho, rfl⟩ := h
    cases o with
    | none => exact .inl ⟨tail, rfl, rfl, rfl⟩
    | some a =>
      have ha := ho a rfl
      exact .inr ⟨(hw a ha).head?_append_ne hs tail, a, tail, ⟨ha, rfl⟩, rfl, rfl⟩

end

theorem onText_eq_ok_iff {reader : Nat → Reader α} {admits : α → Prop} {wire : α → List Char}
    {text : String} {a : α} (h : ∀ n, ReadsAs (Cursor.Before n) (reader n) fun cs a tail =>
      admits a ∧ cs = wire a ∧ tail = []) :
    onText reader text = .ok a ↔ admits a ∧ text = String.ofList (wire a) := by
  have hb : Cursor.Before ((utf8 text.toList).length + 1) ⟨utf8 text.toList, 0⟩ text.toList :=
    ⟨rfl, Nat.lt_succ_of_le (length_le_length_utf8 _)⟩
  have hrun : onText reader text =
      (reader ((utf8 text.toList).length + 1) ⟨utf8 text.toList, 0⟩).map (·.1) := rfl
  rw [hrun]
  constructor
  · intro hr
    cases hx : reader ((utf8 text.toList).length + 1) ⟨utf8 text.toList, 0⟩ with
    | error e =>
      rw [hx] at hr
      cases hr
    | ok p =>
      rw [hx] at hr
      cases hr
      obtain ⟨tail, ⟨ha, ht, -⟩, -⟩ := (h _).sound hb hx
      exact ⟨ha, by rw [← ht, String.ofList_toList]⟩
  · intro ht
    obtain ⟨ha, he⟩ := ht
    obtain ⟨s', hx, -⟩ := (h _).complete hb ⟨ha, by rw [he, String.toList_ofList], rfl⟩
    rw [hx]
    rfl

end

end Reader

end ClassLocator.MethodType

import ClassLocator.Proofs.ClassFile.Units
/-!
How bytes that are not UTF-8 fall into groups of one unit each. Main statement: a lead byte takes the one or
two bytes behind it whatever they are, and if all bytes so taken have the form 10xxxxxx, no character below
0x80 is lost.
-/

namespace ClassLocator.ClassFile.ModifiedUtf8

def continues (b : UInt8) : Bool := b &&& 0xC0 == 0x80

inductive Group where
  | alone (b : UInt8)
  | pair (b c : UInt8)
  | triple (b c d : UInt8)
  deriving DecidableEq, Repr

namespace Group

def lead : Group → UInt8
  | alone b | pair b _ | triple b _ _ => b

def taken : Group → List UInt8
  | alone _ => []
  | pair _ c => [c]
  | triple _ c d => [c, d]

def unit : Group → Nat
  | alone b => ModifiedUtf8.alone b
  | pair b c => ModifiedUtf8.pair b c
  | triple b c d => ModifiedUtf8.triple b c d

def Intact (g : Group) : Prop := ∀ b ∈ g.taken, continues b

end Group

/-- Bytes divided into groups. A lead byte takes the one or two bytes behind it if they are admitted, and
stands alone if they are not or the end comes before. -/
inductive Divided (admits : List UInt8 → Prop) : List UInt8 → List Group → Prop
  | nil : Divided admits [] []
  | pair {b c : UInt8} {rest : List UInt8} {gs : List Group} (hb : leadsPair b) (ha : admits [c])
      (h : Divided admits rest gs) : Divided admits (b :: c :: rest) (.pair b c :: gs)
  | triple {b c d : UInt8} {rest : List UInt8} {gs : List Group} (hb : leadsTriple b)
      (ha : admits [c, d]) (h : Divided admits rest gs) :
      Divided admits (b :: c :: d :: rest) (.triple b c d :: gs)
  | alone {b : UInt8} {rest : List UInt8} {gs : List Group}
      (hp : leadsPair b → ∀ c more, rest = c :: more → ¬admits [c])
      (ht : leadsTriple b → ∀ c d more, rest = c :: d :: more → ¬admits [c, d])
      (h : Divided admits rest gs) : Divided admits (b :: rest) (.alone b :: gs)

def AllContinue (bs : List UInt8) : Prop := ∀ b ∈ bs, continues b

/-- Lead bytes take what follows, whatever it is. -/
abbrev DividedByLead := Divided fun _ => True

/-- Lead bytes take only bytes that continue their group. -/
abbrev DividedByForm := Divided AllContinue

def asciiChars (bs : List UInt8) : List Char :=
  (bs.filter (· < 0x80)).map fun b => Char.ofNat b.toNat

theorem le_of_leads {b : UInt8} (h : leadsPair b = true ∨ leadsTriple b = true) : ¬b < 0x80 := by
  intro hlt
  obtain ⟨hp, ht⟩ := leads_ascii hlt
  simp [hp, ht] at h

theorem le_of_continues {b : UInt8} (h : continues b = true) : ¬b < 0x80 := by
  have hall : ∀ n < 256, continues (UInt8.ofNat n) = true → ¬UInt8.ofNat n < 0x80 := by
    decide +kernel
  simpa using hall b.toNat b.toNat_lt (by simpa using h)

theorem asciiChars_cons_of_lt {b : UInt8} (h : b < 0x80) (bs : List UInt8) :
    asciiChars (b :: bs) = Char.ofNat b.toNat :: asciiChars bs := by
  simp [asciiChars, h]

theorem asciiChars_cons_of_not_lt {b : UInt8} (h : ¬b < 0x80) (bs : List UInt8) :
    asciiChars (b :: bs) = asciiChars bs := by
  simp [asciiChars, h]

def smallChars (us : List Nat) : List Char := (us.filter (· < 0x80)).map Char.ofNat

theorem smallChars_cons_of_lt {u : Nat} (h : u < 0x80) (us : List Nat) :
    smallChars (u :: us) = Char.ofNat u :: smallChars us := by
  simp [smallChars, h]

theorem smallChars_cons_of_not_lt {u : Nat} (h : ¬u < 0x80) (us : List Nat) :
    smallChars (u :: us) = smallChars us := by
  simp [smallChars, h]

theorem smallChars_sublist_cons (u : Nat) (us : List Nat) :
    (smallChars us).Sublist (smallChars (u :: us)) :=
  ((List.sublist_cons_self u us).filter _).map _

/-- Units below 0x80 are characters of their own, since they are no halves of pairs. -/
theorem StandFor.sublist {us : List Nat} {cs : List Char} (h : StandFor us cs) :
    (smallChars us).Sublist cs := by
  induction h with
  | nil => exact .slnil
  | @char c us cs _ ih =>
    unfold charUnits
    split
    · rw [List.singleton_append]
      by_cases hc : c.toNat < 0x80
      · rw [smallChars_cons_of_lt hc, Char.ofNat_toNat]
        exact ih.cons_cons c
      · rw [smallChars_cons_of_not_lt hc]
        exact ih.cons c
    · rw [List.cons_append, smallChars_cons_of_not_lt (by omega), List.singleton_append,
        smallChars_cons_of_not_lt (by omega)]
      exact ih.cons c
  | @unpaired u us cs hu _ _ ih =>
    rw [smallChars_cons_of_not_lt (by omega)]
    exact ih.cons _

theorem exists_dividedByLead (bs : List UInt8) :
    ∃ gs, DividedByLead bs gs ∧ gs.map Group.unit = units bs := by
  fun_induction units bs with
  | case1 => exact ⟨[], .nil, rfl⟩
  | case2 b => exact ⟨[.alone b], .alone (by simp) (by simp) .nil, rfl⟩
  | case3 b c hp => exact ⟨[.pair b c], .pair hp trivial .nil, rfl⟩
  | case4 b c hp ih =>
    obtain ⟨gs, hg, hu⟩ := ih
    exact ⟨.alone b :: gs, .alone (by simp [hp]) (by simp) hg, by simp [hu, Group.unit]⟩
  | case5 b c d rest hp ih =>
    obtain ⟨gs, hg, hu⟩ := ih
    exact ⟨.pair b c :: gs, .pair hp trivial hg, by simp [hu, Group.unit]⟩
  | case6 b c d rest hp ht ih =>
    obtain ⟨gs, hg, hu⟩ := ih
    exact ⟨.triple b c d :: gs, .triple ht trivial hg, by simp [hu, Group.unit]⟩
  | case7 b c d rest hp ht ih =>
    obtain ⟨gs, hg, hu⟩ := ih
    exact ⟨.alone b :: gs, .alone (by simp [hp]) (by simp [ht]) hg, by simp [hu, Group.unit]⟩

namespace Divided

variable {admits : List UInt8 → Prop} {bs : List UInt8} {gs : List Group}

theorem taken_admitted (h : Divided admits bs gs) : ∀ g ∈ gs, g.taken ≠ [] → admits g.taken := by
  induction h with
  | nil => simp
  | pair _ ha _ ih => simpa [Group.taken, ha] using ih
  | triple _ ha _ ih => simpa [Group.taken, ha] using ih
  | alone _ _ _ ih => simpa [Group.taken] using ih

/-- A lead byte that stands alone although it may take anything does so too where it may take less. -/
theorem restrict (h : DividedByLead bs gs) (hg : ∀ g ∈ gs, g.taken ≠ [] → admits g.taken) :
    Divided admits bs gs := by
  induction h with
  | nil => exact .nil
  | pair hb _ _ ih =>
    obtain ⟨ha, hgs⟩ := List.forall_mem_cons.mp hg
    exact .pair hb (ha (by simp [Group.taken])) (ih hgs)
  | triple hb _ _ ih =>
    obtain ⟨ha, hgs⟩ := List.forall_mem_cons.mp hg
    exact .triple hb (ha (by simp [Group.taken])) (ih hgs)
  | alone hp ht _ ih =>
    obtain ⟨-, hgs⟩ := List.forall_mem_cons.mp hg
    exact .alone (fun hb c more he => absurd trivial (hp hb c more he))
      (fun hb c d more he => absurd trivial (ht hb c d more he)) (ih hgs)

theorem byForm_iff (h : DividedByLead bs gs) : DividedByForm bs gs ↔ ∀ g ∈ gs, g.Intact := by
  constructor
  · intro hf g hg
    by_cases hn : g.taken = []
    · simp [Group.Intact, hn]
    · exact hf.taken_admitted g hg hn
  · intro hi
    exact h.restrict fun g hg _ => hi g hg

/-- Where only bytes that continue a group are taken, the bytes below 0x80 all stand alone. -/
theorem asciiChars_lead (h : Divided admits bs gs) (hi : ∀ g ∈ gs, g.Intact) :
    asciiChars (gs.map Group.lead) = asciiChars bs := by
  induction h with
  | nil => rfl
  | @pair b c _ _ hb _ _ ih =>
    obtain ⟨hg, hgs⟩ := List.forall_mem_cons.mp hi
    have hlead := le_of_leads (.inl hb)
    have hc := le_of_continues (hg c (by simp [Group.taken]))
    rw [List.map_cons, Group.lead, asciiChars_cons_of_not_lt hlead, asciiChars_cons_of_not_lt hlead,
      asciiChars_cons_of_not_lt hc, ih hgs]
  | @triple b c d _ _ hb _ _ ih =>
    obtain ⟨hg, hgs⟩ := List.forall_mem_cons.mp hi
    have hlead := le_of_leads (.inr hb)
    have hc := le_of_continues (hg c (by simp [Group.taken]))
    have hd := le_of_continues (hg d (by simp [Group.taken]))
    rw [List.map_cons, Group.lead, asciiChars_cons_of_not_lt hlead, asciiChars_cons_of_not_lt hlead,
      asciiChars_cons_of_not_lt hc, asciiChars_cons_of_not_lt hd, ih hgs]
  | @alone b _ _ _ _ _ ih =>
    obtain ⟨-, hgs⟩ := List.forall_mem_cons.mp hi
    rw [List.map_cons, Group.lead]
    by_cases hb : b < 0x80
    · rw [asciiChars_cons_of_lt hb, asciiChars_cons_of_lt hb, ih hgs]
    · rw [asciiChars_cons_of_not_lt hb, asciiChars_cons_of_not_lt hb, ih hgs]

theorem sublist_units (h : Divided admits bs gs) :
    (asciiChars (gs.map Group.lead)).Sublist (smallChars (gs.map Group.unit)) := by
  induction h with
  | nil => exact .slnil
  | @pair b c _ gs hb _ _ ih =>
    rw [List.map_cons, Group.lead, asciiChars_cons_of_not_lt (le_of_leads (.inl hb))]
    exact ih.trans (smallChars_sublist_cons _ _)
  | @triple b c d _ gs hb _ _ ih =>
    rw [List.map_cons, Group.lead, asciiChars_cons_of_not_lt (le_of_leads (.inr hb))]
    exact ih.trans (smallChars_sublist_cons _ _)
  | @alone b _ gs _ _ _ ih =>
    rw [List.map_cons, Group.lead, List.map_cons]
    by_cases hb : b < 0x80
    · have hlt : b.toNat < 0x80 := hb
      have hu : (Group.alone b).unit = b.toNat := if_pos hb
      rw [asciiChars_cons_of_lt hb, hu, smallChars_cons_of_lt hlt]
      exact ih.cons_cons _
    · rw [asciiChars_cons_of_not_lt hb]
      exact ih.trans (smallChars_sublist_cons _ _)

end Divided

theorem alone_lt (b : UInt8) : alone b < 0x10000 := by
  have hb := b.toNat_lt
  unfold alone replacement
  split <;> omega

theorem Group.unit_lt (g : Group) : g.unit < 0x10000 := by
  cases g with
  | alone b => exact alone_lt b
  | pair b c => simp only [unit, ModifiedUtf8.pair, tail]; omega
  | triple b c d => simp only [unit, ModifiedUtf8.triple, tail]; omega

/-- Bytes that are not UTF-8 are divided into groups, where a lead byte takes the one or two bytes behind it
whatever they are. The text is what the units of the groups stand for, and the bytes below 0x80 that no lead
byte takes are characters of it. The groups are those in which lead bytes take only bytes of the form
10xxxxxx if and only if each group is intact; then no byte below 0x80 is lost. -/
theorem decode_of_not_utf8 (bytes : ByteArray) (h : ¬bytes.IsValidUTF8) :
    ∃ gs, DividedByLead bytes.data.toList gs ∧
      StandFor (gs.map Group.unit) (decode bytes).toList ∧
      (asciiChars (gs.map Group.lead)).Sublist (decode bytes).toList ∧
      (DividedByForm bytes.data.toList gs ↔ ∀ g ∈ gs, g.Intact) ∧
      ((∀ g ∈ gs, g.Intact) → (asciiChars bytes.data.toList).Sublist (decode bytes).toList) := by
  have hv : String.fromUTF8? bytes = none := by simp [String.fromUTF8?, h]
  have hdecode : (decode bytes).toList = ofUnits (units bytes.data.toList) := by simp [decode, hv]
  obtain ⟨gs, hg, hu⟩ := exists_dividedByLead bytes.data.toList
  have hlt : ∀ u ∈ gs.map Group.unit, u < 0x10000 := by
    intro u hm
    obtain ⟨g, -, rfl⟩ := List.mem_map.mp hm
    exact g.unit_lt
  have hs : StandFor (gs.map Group.unit) (decode bytes).toList := by
    rw [hdecode, ← hu]
    exact standFor_ofUnits hlt
  have hsub := hg.sublist_units.trans hs.sublist
  exact ⟨gs, hg, hs, hsub, hg.byForm_iff, fun hi => hg.asciiChars_lead hi ▸ hsub⟩

/-- A zero in two bytes and, at the end, a group of three that is cut short. -/
theorem decode_of_not_utf8_cut :
    let bytes : ByteArray := ⟨#[0x61, 0xC0, 0x80, 0x62, 0xE2, 0x82]⟩
    ¬bytes.IsValidUTF8 ∧ decode bytes = "a\x00b\uFFFD\uFFFD" ∧
      ∃ gs, DividedByLead bytes.data.toList gs ∧
        StandFor (gs.map Group.unit) (decode bytes).toList := by
  intro bytes
  have hv : ¬bytes.IsValidUTF8 := by decide +kernel
  obtain ⟨gs, hg, hs, -⟩ := decode_of_not_utf8 bytes hv
  exact ⟨hv, by decide +kernel, gs, hg, hs⟩

/-- A letter that a lead byte takes is lost. -/
theorem decode_lost_letter :
    let bytes : ByteArray := ⟨#[0xC0, 0x41]⟩
    let gs : List Group := [.alone 0xC0, .alone 0x41]
    ¬bytes.IsValidUTF8 ∧ DividedByForm bytes.data.toList gs ∧
      StandFor (gs.map Group.unit) "\uFFFDA".toList ∧ decode bytes = "\x01" ∧
      ¬(asciiChars bytes.data.toList).Sublist (decode bytes).toList := by
  intro bytes gs
  have hd : decode bytes = "\x01" := by decide +kernel
  have hs : ofUnits (gs.map Group.unit) = "\uFFFDA".toList := by decide +kernel
  refine ⟨by decide +kernel, ?_, ?_, hd, ?_⟩
  · refine .alone (fun _ c more he ha => ?_) (by simp) (.alone (by simp) (by simp) .nil)
    obtain ⟨rfl, -⟩ := List.cons.inj he
    exact absurd (ha 0x41 (by simp)) (by decide)
  · rw [← hs]
    exact standFor_ofUnits (by decide)
  · rw [hd]
    decide

end ClassLocator.ClassFile.ModifiedUtf8

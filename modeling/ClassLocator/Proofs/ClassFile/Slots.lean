import ClassLocator.Proofs.ClassFile.Assembly
import ClassLocator.Proofs.ClassFile.Extended
import Mathlib.Logic.Relation
/-!
The slots of a constant pool as it is read, turn by turn. At each head of the loop the slots that are filled
are those in front of the index, and the constants stand in the slots that are theirs by what comes before
them. The index is bounded by the largest number of two bytes, where a pool ends at the latest.
-/

namespace ClassLocator.ClassFile

def Entry.IsWide (e : Entry) : Prop := e.tag = 5 ∨ e.tag = 6

instance : DecidablePred Entry.IsWide := fun e => inferInstanceAs (Decidable (e.tag = 5 ∨ e.tag = 6))

/-- The slot behind some constants. Each takes one, a wide one two, and slot zero is never used. -/
def nextSlot (es : List Entry) : Nat := 1 + es.length + es.countP (·.IsWide)

def Stands (es : List Entry) (slot : Nat) (e : Entry) : Prop :=
  ∃ before after, es = before ++ e :: after ∧ slot = nextSlot before

theorem Entry.cells_length (e : Entry) : e.cells.length = if e.IsWide then 2 else 1 := by
  by_cases he : e.tag = 5 ∨ e.tag = 6
  · simp [cells, Constant.cells, IsWide, he]
  · simp [cells, Constant.cells, IsWide, he]

theorem nextSlot_append (es : List Entry) (e : Entry) :
    nextSlot (es ++ [e]) = nextSlot es + e.cells.length := by
  rw [Entry.cells_length]
  by_cases he : e.IsWide
  · simp [nextSlot, he]
    omega
  · simp [nextSlot, he]
    omega

theorem nextSlot_eq (es : List Entry) : nextSlot es = 1 + slotCount es := by
  induction es using List.reverseRecOn with
  | nil => rfl
  | append_singleton es e ih =>
    rw [nextSlot_append, slotCount_append, ih, Nat.add_assoc]
    simp [slotCount]

theorem nextSlot_pos (es : List Entry) : 0 < nextSlot es := by
  unfold nextSlot
  omega

theorem stands_append {es : List Entry} {e : Entry} {slot : Nat} {d : Entry} :
    Stands (es ++ [e]) slot d ↔ Stands es slot d ∨ d = e ∧ slot = nextSlot es := by
  constructor
  · intro h
    obtain ⟨before, after, he, rfl⟩ := h
    cases after using List.reverseRecOn with
    | nil =>
      obtain ⟨rfl, hd⟩ := List.append_inj' he rfl
      cases hd
      exact .inr ⟨rfl, rfl⟩
    | append_singleton after last =>
      have he : es ++ [e] = (before ++ d :: after) ++ [last] := by simpa using he
      obtain ⟨rfl, -⟩ := List.append_inj' he rfl
      exact .inl ⟨before, after, rfl, rfl⟩
  · intro h
    rcases h with ⟨before, after, rfl, rfl⟩ | ⟨rfl, rfl⟩
    · exact ⟨before, after ++ [e], by simp, rfl⟩
    · exact ⟨es, [], rfl, rfl⟩

theorem exists_stands {es : List Entry} {index : Nat} (h₀ : index ≠ 0) (h : index < nextSlot es) :
    ∃ slot e, Stands es slot e ∧ (index = slot ∨ e.IsWide ∧ index = slot + 1) := by
  induction es using List.reverseRecOn with
  | nil =>
    have hone : nextSlot [] = 1 := rfl
    omega
  | append_singleton es e ih =>
    by_cases hlt : index < nextSlot es
    · obtain ⟨slot, d, hd, hi⟩ := ih hlt
      exact ⟨slot, d, stands_append.mpr (.inl hd), hi⟩
    · rw [nextSlot_append, Entry.cells_length] at h
      refine ⟨nextSlot es, e, stands_append.mpr (.inr ⟨rfl, rfl⟩), ?_⟩
      split at h
      · next hw =>
        rcases Nat.eq_or_lt_of_le (Nat.le_of_not_lt hlt) with he | hgt
        · exact .inl he.symm
        · exact .inr ⟨hw, by omega⟩
      · exact .inl (by omega)

theorem Stands.get? {es : List Entry} {slot : Nat} {e : Entry} (h : Stands es slot e) :
    (ConstantPool.ofEntries es).get? slot = some e.constant := by
  obtain ⟨before, after, rfl, rfl⟩ := h
  rw [nextSlot_eq]
  exact ConstantPool.get?_of_prefix ⟨after, by simp⟩

theorem Stands.get?_succ {es : List Entry} {slot : Nat} {e : Entry} (h : Stands es slot e)
    (hw : e.IsWide) : (ConstantPool.ofEntries es).get? (slot + 1) = some .unusable := by
  obtain ⟨before, after, rfl, rfl⟩ := h
  have hcells : e.cells = [e.constant, .unusable] := if_pos hw
  rw [nextSlot_eq, ConstantPool.get?_ofEntries, Nat.add_comm 1, List.getElem?_cons_succ]
  simp [slotCount, hcells]

theorem size_ofEntries (es : List Entry) : (ConstantPool.ofEntries es).entries.size = nextSlot es := by
  rw [nextSlot_eq]
  simp [ConstantPool.ofEntries, slotCount, Nat.add_comm]

structure Input.GoesOver (i : Input) (es : List Entry) (i' : Input) : Prop where
  wellFormed : ∀ e ∈ es, e.WellFormed
  bytes : ∃ tail, i.Before (es.flatMap Entry.wire ++ tail) ∧ i'.Before tail

namespace ConstantPool

def turn (index : Nat) (entries : Array Constant) : Reader (Nat × Array Constant) := do
  let tag ← Reader.u1
  let constant ← Constant.reader tag index
  let entries := entries.push constant
  if Constant.slots tag = 2 then return (min (index + 2) 0xFFFF, entries.push .unusable)
  else return (min (index + 1) 0xFFFF, entries)

theorem readFrom_succ (count turns index : Nat) (entries : Array Constant) :
    readFrom count (turns + 1) index entries =
      if index < count then do
        let (index, entries) ← turn index entries
        readFrom count turns index entries
      else return ⟨entries⟩ := by
  rw [readFrom]
  split
  · simp only [turn, bind_assoc]
    congr 1
    funext tag
    congr 1
    funext c
    split
    · rfl
    · rfl
  · rfl

theorem reads_turn (index : Nat) (entries : Array Constant) :
    ReadsAs Input.Before (turn index entries) fun bs p tail => ∃ e : Entry, e.WellFormed ∧
      bs = e.wire ++ tail ∧
      p = (min (index + e.cells.length) 0xFFFF, entries ++ e.cells.toArray) := by
  have hcells : ∀ (tag : UInt8) (c : Constant),
      (if Constant.slots tag = 2 then
        return (min (index + 2) 0xFFFF, (entries.push c).push .unusable)
      else return (min (index + 1) 0xFFFF, entries.push c) : Reader (Nat × Array Constant)) =
      return (min (index + (c.cells tag).length) 0xFFFF, entries ++ (c.cells tag).toArray) := by
    intro tag c
    by_cases hw : tag = 5 ∨ tag = 6
    · have hp : (entries.push c).push .unusable = entries ++ #[c, .unusable] := by
        apply Array.ext'
        simp
      simp [Constant.slots, Constant.cells, hw, hp]
    · simp [Constant.slots, Constant.cells, hw]
  simp only [turn, hcells]
  refine (Reader.reads_u1.bind fun tag => (reads_constant tag index).bind fun c => .pure _).congr
    fun bs p tail => ?_
  constructor
  · intro h
    obtain ⟨_, _, rfl, _, _, ⟨e, rfl, he, rfl, rfl⟩, rfl, rfl⟩ := h
    exact ⟨e, he, rfl, rfl⟩
  · intro h
    obtain ⟨e, he, rfl, rfl⟩ := h
    exact ⟨e.tag, _, rfl, e.constant, tail, ⟨e, rfl, he, rfl, rfl⟩, rfl, rfl⟩

end ConstantPool

/-- Where the reader tells of an unknown tag, it names this slot. -/
def NamesSlot {α : Type} (slot : Nat) (r : Reader α) : Prop :=
  ∀ i tag index, r i = .error (.unknownConstantTag tag index) → index = slot

section
variable {α β : Type} {slot : Nat}

theorem namesSlot_pure (a : α) : NamesSlot slot (pure a) := by
  intro i tag index h
  cases h

theorem namesSlot_span {n : Nat} {f : Input → α} :
    NamesSlot slot (fun i => if i.position + n ≤ i.bytes.size then
        .ok (f i, { i with position := i.position + n })
      else .error (.truncated i.position)) := by
  intro i tag index h
  beta_reduce at h
  split at h
  · cases h
  · cases h

theorem namesSlot_number (n : Nat) : NamesSlot slot (Reader.number n) := namesSlot_span

theorem NamesSlot.bind {r : Reader α} {f : α → Reader β} (hr : NamesSlot slot r)
    (hf : ∀ a, NamesSlot slot (f a)) : NamesSlot slot (r >>= f) := by
  intro i tag index h
  rcases Reader.run_bind_eq_error.mp h with h | ⟨a, i₁, -, h⟩
  · exact hr i tag index h
  · exact hf a i₁ tag index h

theorem namesSlot_constant (tag : UInt8) : NamesSlot slot (Constant.reader tag slot) := by
  unfold Constant.reader
  split
  · exact (namesSlot_number 2).bind fun n => namesSlot_span.bind fun b => namesSlot_pure _
  split
  · exact (namesSlot_number 2).bind fun n => namesSlot_pure _
  split
  · exact namesSlot_span.bind fun _ => namesSlot_pure _
  · intro i tag index h
    cases h
    rfl

theorem namesSlot_turn (entries : Array Constant) : NamesSlot slot (ConstantPool.turn slot entries) := by
  refine ((namesSlot_number 1).bind fun _ => namesSlot_pure _).bind fun tag =>
    (namesSlot_constant tag).bind fun c => ?_
  split
  · exact namesSlot_pure _
  · exact namesSlot_pure _

end

/-- The head of the loop: the slot for the next constant, what is in the slots so far, and the input. -/
structure Head where
  index : Nat
  entries : Array Constant
  input : Input

namespace Head

variable {count : Nat} {s t : Head}

def Turns (count : Nat) (s t : Head) : Prop :=
  s.index < count ∧ ConstantPool.turn s.index s.entries s.input = .ok ((t.index, t.entries), t.input)

def Reaches (count : Nat) : Head → Head → Prop := Relation.ReflTransGen (Turns count)

def Ends (count : Nat) (s : Head) (o : Except Failure (ConstantPool × Input)) : Prop :=
  (count ≤ s.index ∧ o = .ok (⟨s.entries⟩, s.input)) ∨
    s.index < count ∧ ∃ e, ConstantPool.turn s.index s.entries s.input = .error e ∧ o = .error e

structure Behind (count : Nat) (i₀ : Input) (es : List Entry) (s : Head) : Prop where
  goesOver : i₀.GoesOver es s.input
  entries : s.entries = (ConstantPool.ofEntries es).entries
  index : s.index = min (nextSlot es) 0xFFFF
  below : ∀ slot e, Stands es slot e → slot < count

theorem behind_nil {i₀ : Input} {bs : List UInt8} (h : i₀.Before bs) :
    Behind count i₀ [] ⟨1, #[.unusable], i₀⟩ where
  goesOver := ⟨by simp, bs, h, h⟩
  entries := rfl
  index := rfl
  below := by
    intro slot e h
    obtain ⟨before, after, he, -⟩ := h
    simp at he

theorem Behind.turn {i₀ : Input} {es : List Entry} (h : Behind count i₀ es s) (hc : count < 2 ^ 16)
    (ht : Turns count s t) : ∃ e, Behind count i₀ (es ++ [e]) t := by
  obtain ⟨hlt, ht⟩ := ht
  obtain ⟨tail, hi₀, hs⟩ := h.goesOver.bytes
  obtain ⟨tail, ⟨e, he, rfl, hp⟩, hi⟩ := (ConstantPool.reads_turn s.index s.entries).sound hs ht
  obtain ⟨hindex, hentries⟩ := Prod.mk.inj hp
  have hslot : s.index = nextSlot es := by
    have := h.index
    omega
  refine ⟨e, ⟨?_, tail, by simpa using hi₀, hi⟩, ?_, ?_, ?_⟩
  · intro d hd
    rcases List.mem_append.mp hd with hd | hd
    · exact h.goesOver.wellFormed d hd
    · obtain rfl := List.mem_singleton.mp hd
      exact he
  · rw [hentries, h.entries]
    simp [ConstantPool.ofEntries]
  · rw [hindex, hslot, nextSlot_append]
  · intro slot d hd
    rcases stands_append.mp hd with hd | ⟨-, rfl⟩
    · exact h.below slot d hd
    · omega

theorem Reaches.behind {i₀ : Input} {bs : List UInt8} (h : Reaches count ⟨1, #[.unusable], i₀⟩ s)
    (hi : i₀.Before bs) (hc : count < 2 ^ 16) : ∃ es, Behind count i₀ es s := by
  induction h with
  | refl => exact ⟨[], behind_nil hi⟩
  | tail _ ht ih =>
    obtain ⟨es, hes⟩ := ih
    obtain ⟨e, he⟩ := hes.turn hc ht
    exact ⟨es ++ [e], he⟩

/-- Each turn raises the index, so that the loop comes to an end within the turns it is given. -/
theorem exists_ends (hc : count < 2 ^ 16) (turns : Nat) (s : Head) {bs : List UInt8}
    (hs : s.input.Before bs) (ht : count ≤ s.index + turns) :
    ∃ t, Reaches count s t ∧
      t.Ends count (ConstantPool.readFrom count turns s.index s.entries s.input) := by
  induction turns generalizing s bs with
  | zero => exact ⟨s, .refl, .inl ⟨ht, rfl⟩⟩
  | succ turns ih =>
    rw [ConstantPool.readFrom_succ]
    by_cases hlt : s.index < count
    · rw [if_pos hlt]
      cases hturn : ConstantPool.turn s.index s.entries s.input with
      | error e =>
        have ho := Reader.run_bind_eq_error (f := fun p : Nat × Array Constant =>
          ConstantPool.readFrom count turns p.1 p.2).mpr (.inl hturn)
        exact ⟨s, .refl, .inr ⟨hlt, e, hturn, ho⟩⟩
      | ok p =>
        obtain ⟨⟨index, entries⟩, i⟩ := p
        obtain ⟨tail, ⟨e, -, -, hp⟩, hi⟩ := (ConstantPool.reads_turn s.index s.entries).sound hs hturn
        -- Every constant takes a slot, which makes up for the turn.
        have hpos : 0 < e.cells.length := by
          obtain ⟨cs, hcs⟩ := e.cells_eq_cons
          simp [hcs]
        have hindex : index = min (s.index + e.cells.length) 0xFFFF := congrArg Prod.fst hp
        obtain ⟨t, hst, hends⟩ := ih ⟨index, entries, i⟩ hi (by show count ≤ index + turns; omega)
        refine ⟨t, .head ⟨hlt, hturn⟩ hst, ?_⟩
        show t.Ends count (ConstantPool.turn s.index s.entries s.input >>= fun p =>
          ConstantPool.readFrom count turns p.1.1 p.1.2 p.2)
        rw [hturn]
        exact hends
    · rw [if_neg hlt]
      exact ⟨s, .refl, .inl ⟨Nat.le_of_not_lt hlt, rfl⟩⟩

/-- What holds of a head with which the loop goes on. The index is raised by the slots of the constant that
is read, up to the largest number of two bytes. -/
structure Numbered (count : Nat) (i₀ : Input) (s : Head) : Prop where
  size : s.entries.size = s.index
  small : s.index < 65535
  constants : ∃ es, i₀.GoesOver es s.input ∧ s.index = nextSlot es ∧
    ∀ slot e, Stands es slot e → s.entries[slot]? = some e.constant
  unknown : ∀ tag index, ConstantPool.turn s.index s.entries s.input =
    .error (.unknownConstantTag tag index) → index = s.index
  next : ∀ t, Turns count s t →
    t.index = min (s.index + (t.entries.size - s.entries.size)) 65535
  bounded : ∀ t, Turns count s t → 65535 < s.index + (t.entries.size - s.entries.size) →
    count ≤ t.index

theorem Behind.numbered {i₀ : Input} {es : List Entry} (h : Behind count i₀ es s) (hc : count < 2 ^ 16)
    (hlt : s.index < count) : s.Numbered count i₀ := by
  have hslot : s.index = nextSlot es := by
    have := h.index
    omega
  have hsize : s.entries.size = s.index := by rw [h.entries, size_ofEntries, hslot]
  have hnext : ∀ t, Turns count s t →
      t.index = min (s.index + (t.entries.size - s.entries.size)) 65535 := by
    intro t ht
    obtain ⟨e, ht⟩ := h.turn hc ht
    have hsize' : t.entries.size = nextSlot (es ++ [e]) := by rw [ht.entries, size_ofEntries]
    have hindex := ht.index
    rw [nextSlot_append] at hsize' hindex
    omega
  exact
    { size := hsize
      small := by omega
      constants := ⟨es, h.goesOver, hslot, fun slot e he => by rw [h.entries]; exact he.get?⟩
      unknown := fun tag index he => namesSlot_turn s.entries s.input tag index he
      next := hnext
      bounded := fun t ht hgt => by have := hnext t ht; omega }

end Head

def EndsWide (count : Nat) (es : List Entry) : Prop :=
  ∃ before e, es = before ++ [e] ∧ e.IsWide ∧ nextSlot before = count - 1

/-- The pool has these constants in their slots, and all slots below `count` are theirs. -/
structure ConstantPool.Filled (count : Nat) (es : List Entry) (pool : ConstantPool) : Prop where
  zero : pool.get? 0 = some .unusable
  own : ∀ slot e, Stands es slot e → pool.get? slot = some e.constant ∧
    (e.IsWide → pool.get? (slot + 1) = some .unusable)
  covered : ∀ index < count, index ≠ 0 →
    ∃ slot e, Stands es slot e ∧ (index = slot ∨ e.IsWide ∧ index = slot + 1)
  size_of_wide : EndsWide count es → pool.entries.size = count + 1
  size_of_not_wide : ¬EndsWide count es → pool.entries.size = max count 1

theorem ConstantPool.filled_ofEntries {count : Nat} {es : List Entry} (hc : count ≤ nextSlot es)
    (hbelow : ∀ slot e, Stands es slot e → slot < count) : (ofEntries es).Filled count es where
  zero := by simp [get?_ofEntries]
  own := fun slot e h => ⟨h.get?, h.get?_succ⟩
  covered := fun index hi h₀ => exists_stands h₀ (Nat.lt_of_lt_of_le hi hc)
  size_of_wide := by
    intro h
    obtain ⟨before, e, rfl, hw, hb⟩ := h
    have hpos := nextSlot_pos before
    rw [size_ofEntries, nextSlot_append, Entry.cells_length, if_pos hw]
    omega
  size_of_not_wide := by
    intro h
    rw [size_ofEntries]
    cases es using List.reverseRecOn with
    | nil =>
      have hone : nextSlot [] = 1 := rfl
      omega
    | append_singleton before e =>
      have hpos := nextSlot_pos before
      have hlt : nextSlot before < count := hbelow _ e ⟨before, [], rfl, rfl⟩
      rw [nextSlot_append, Entry.cells_length] at hc ⊢
      split
      · next hw =>
        have hne : nextSlot before ≠ count - 1 := fun hb => h ⟨before, e, rfl, hw, hb⟩
        rw [if_pos hw] at hc
        omega
      · next hn =>
        rw [if_neg hn] at hc
        omega

/-- What becomes of a pool of `count` slots, at every head of the loop and in the end. -/
structure KeepsSlots (count : Nat) (i₀ : Input) (o : Except Failure (ConstantPool × Input)) : Prop where
  heads : ∀ s, Head.Reaches count ⟨1, #[.unusable], i₀⟩ s → s.index < count → s.Numbered count i₀
  ends : ∃ s, Head.Reaches count ⟨1, #[.unusable], i₀⟩ s ∧ s.Ends count o
  filled : ∀ pool i', o = .ok (pool, i') → ∃ es, i₀.GoesOver es i' ∧ pool.Filled count es

/-- Whatever bytes come behind the count, each constant is put into the slot of its own index, and the
reader goes no further than the slots that were counted, but for the second slot of a last wide constant. -/
theorem reader_keepsSlots {i i₀ : Input} {count : Nat} (h : Reader.u2 i = .ok (count, i₀)) :
    KeepsSlots count i₀ (ConstantPool.reader i) := by
  have hfits : i.position ≤ i.bytes.size := by
    unfold Reader.u2 Reader.number at h
    split at h
    · omega
    · cases h
  obtain ⟨bs, ⟨hc, -⟩, hi₀⟩ := Reader.reads_u2.sound ⟨hfits, rfl⟩ h
  have ho : ConstantPool.reader i = ConstantPool.readFrom count count 1 #[.unusable] i₀ := by
    show (Reader.u2 i >>= fun p => ConstantPool.readFrom p.1 p.1 1 #[.unusable] p.2) = _
    rw [h]
    rfl
  obtain ⟨t, ht, hends⟩ := Head.exists_ends hc count ⟨1, #[.unusable], i₀⟩ hi₀ (Nat.le_add_left count 1)
  refine ⟨fun s hs hlt => ?_, ⟨t, ht, ho ▸ hends⟩, fun pool i' hok => ?_⟩
  · obtain ⟨es, hes⟩ := hs.behind hi₀ hc
    exact hes.numbered hc hlt
  · obtain ⟨es, hes⟩ := ht.behind hi₀ hc
    rw [ho] at hok
    rcases hends with ⟨hle, hpool⟩ | ⟨-, e, -, hfail⟩
    · obtain ⟨rfl, rfl⟩ : pool = ⟨t.entries⟩ ∧ i' = t.input := by simpa [hok] using hpool
      refine ⟨es, hes.goesOver, ?_⟩
      have hindex := hes.index
      rw [hes.entries]
      exact ConstantPool.filled_ofEntries (by omega) hes.below
    · rw [hok] at hfail
      cases hfail

/-- A number of eight bytes in the only slot of a pool takes one more. -/
theorem reader_keepsSlots_wide_end :
    Reader.u2 ⟨⟨#[0, 2, 5, 0, 0, 0, 0, 0, 0, 0, 0]⟩, 0⟩ =
        .ok (2, ⟨⟨#[0, 2, 5, 0, 0, 0, 0, 0, 0, 0, 0]⟩, 2⟩) ∧
      KeepsSlots 2 ⟨⟨#[0, 2, 5, 0, 0, 0, 0, 0, 0, 0, 0]⟩, 2⟩
        (ConstantPool.reader ⟨⟨#[0, 2, 5, 0, 0, 0, 0, 0, 0, 0, 0]⟩, 0⟩) ∧
      (ConstantPool.reader ⟨⟨#[0, 2, 5, 0, 0, 0, 0, 0, 0, 0, 0]⟩, 0⟩).map (·.1.entries) =
        .ok #[.unusable, .other 5, .unusable] :=
  ⟨rfl, reader_keepsSlots rfl, by decide⟩

end ClassLocator.ClassFile

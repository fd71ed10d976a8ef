import ClassLocator.Proofs.ClassFile.Layout
import Mathlib.Data.List.Basic

namespace ClassLocator.ClassFile

def TakesWord (bs : List UInt8) (value : Nat) (tail : List UInt8) : Prop :=
  2 ≤ bs.length ∧ value = word bs ∧ tail = bs.drop 2

theorem word_numberWire {value : Nat} (h : value < 2 ^ 16) (tail : List UInt8) :
    word (numberWire 2 value ++ tail) = value := by
  simp only [numberWire, word, List.nil_append, List.cons_append, UInt8.toNat_ofNat']
  omega

namespace Reader

theorem reads_u2 : ReadsAs Input.Before u2 (Written (· < 2 ^ 16) (numberWire 2)) := reads_number 2

theorem reads_u4 : ReadsAs Input.Before u4 (Written (· < 2 ^ 32) (numberWire 4)) := reads_number 4

theorem reads_word : ReadsAs Input.Before u2 TakesWord := by
  refine reads_u2.congr fun bs value tail => ?_
  constructor
  · intro h
    obtain ⟨hv, rfl⟩ := h
    exact ⟨by simp, (word_numberWire hv tail).symm, by simp⟩
  · intro h
    obtain ⟨hl, rfl, rfl⟩ := h
    have ht : (bs.take 2).length = 2 := by simp; omega
    obtain ⟨v, hv, hw⟩ := exists_numberWire (bs.take 2)
    rw [ht] at hv hw
    have hb : bs = numberWire 2 v ++ bs.drop 2 := by rw [hw, List.take_append_drop]
    rw [hb, word_numberWire hv]
    exact ⟨hv, by simp⟩

theorem repeated_word {n : Nat} {bs tail : List UInt8} {values : List Nat} :
    Repeated TakesWord n bs values tail ↔
      2 * n ≤ bs.length ∧ values = words n bs ∧ tail = bs.drop (2 * n) := by
  induction n generalizing bs values with
  | zero => simp [Repeated, words]
  | succ n ih =>
    have hd : (bs.drop 2).drop (2 * n) = bs.drop (2 * (n + 1)) := by
      rw [List.drop_drop]
      congr 1
      omega
    constructor
    · intro h
      obtain ⟨_, _, _, ⟨hl, rfl, rfl⟩, h, rfl⟩ := h
      obtain ⟨hn, rfl, rfl⟩ := ih.mp h
      simp only [List.length_drop] at hn
      exact ⟨by omega, rfl, hd⟩
    · intro h
      obtain ⟨hl, rfl, rfl⟩ := h
      refine ⟨_, _, _, ⟨by omega, rfl, rfl⟩, ih.mpr ⟨?_, rfl, hd.symm⟩, rfl⟩
      simp only [List.length_drop]
      omega

theorem exists_words {n : Nat} {bs : List UInt8} (h : bs.length = n * 2) :
    ∃ ws : List Nat, ws.length = n ∧ (∀ w ∈ ws, w < 2 ^ 16) ∧ ws.flatMap (numberWire 2) = bs := by
  induction n generalizing bs with
  | zero => exact ⟨[], rfl, by simp, (List.length_eq_zero_iff.mp (by omega)).symm⟩
  | succ n ih =>
    have hd : (bs.drop 2).length = n * 2 := by simp; omega
    obtain ⟨ws, hn, hws, hb⟩ := ih hd
    obtain ⟨w, hw, hf⟩ := exists_numberWire (bs.take 2)
    have ht : (bs.take 2).length = 2 := by simp; omega
    rw [ht] at hw hf
    refine ⟨w :: ws, by simp [hn], List.forall_mem_cons.mpr ⟨hw, hws⟩, ?_⟩
    rw [List.flatMap_cons, hb, hf, List.take_append_drop]

theorem reads_skip_words (n : Nat) :
    ReadsAs Input.Before (skip (n * 2))
      (Described (fun ws : List Nat => ws.length = n ∧ ∀ w ∈ ws, w < 2 ^ 16) (fun _ => ())
        (List.flatMap (numberWire 2))) := by
  refine (reads_skip (n * 2)).congr fun bs _ tail => ?_
  constructor
  · intro h
    obtain ⟨front, hl, rfl⟩ := h
    obtain ⟨ws, hn, hws, rfl⟩ := exists_words hl
    exact ⟨ws, ⟨hn, hws⟩, rfl, rfl⟩
  · intro h
    obtain ⟨ws, ⟨rfl, -⟩, -, rfl⟩ := h
    exact ⟨_, length_flatMap_numberWire 2 ws, rfl⟩

section
variable {α β δ : Type} {item : Nat → Reader α} {admits : δ → Prop} {project : List δ → α}
  {wire : δ → List UInt8}
  (hi : ∀ n, ReadsAs Input.Before (item n)
    (Described (fun ds : List δ => ds.length = n ∧ ∀ d ∈ ds, admits d) project (List.flatMap wire)))
include hi

theorem reads_counted :
    ReadsAs Input.Before (u2 >>= item)
      (Described (fun ds : List δ => ds.length < 2 ^ 16 ∧ ∀ d ∈ ds, admits d) project
        fun ds => numberWire 2 ds.length ++ ds.flatMap wire) := by
  refine (reads_u2.bind hi).congr fun bs a tail => ?_
  constructor
  · intro h
    obtain ⟨_, _, ⟨hn, rfl⟩, ds, ⟨rfl, hds⟩, rfl, rfl⟩ := h
    exact ⟨ds, ⟨hn, hds⟩, rfl, (List.append_assoc _ _ _).symm⟩
  · intro h
    obtain ⟨ds, ⟨hn, hds⟩, rfl, rfl⟩ := h
    exact ⟨ds.length, _, ⟨hn, List.append_assoc _ _ _⟩, ds, ⟨rfl, hds⟩, rfl, rfl⟩

theorem reads_counted_bind {f : α → Reader β} {Q : α → List UInt8 → β → List UInt8 → Prop}
    (hf : ∀ a, ReadsAs Input.Before (f a) (Q a)) :
    ReadsAs Input.Before (u2 >>= fun n => item n >>= f) fun bs b tail => ∃ a m,
      Described (fun ds : List δ => ds.length < 2 ^ 16 ∧ ∀ d ∈ ds, admits d) project
        (fun ds => numberWire 2 ds.length ++ ds.flatMap wire) bs a m ∧ Q a m b tail := by
  rw [← bind_assoc]
  exact (reads_counted hi).bind hf

end

end Reader

theorem skippedSize?_eq (tag : UInt8) : Constant.skippedSize? tag = payloadSizes.lookup tag := by
  have h : ∀ n < 256,
      Constant.skippedSize? (UInt8.ofNat n) = payloadSizes.lookup (UInt8.ofNat n) := by
    decide +kernel
  simpa using h tag.toNat tag.toNat_lt

theorem Entry.tag_ne_of_other {tag : UInt8} {payload : List UInt8}
    (h : (Entry.other tag payload).WellFormed) : tag ≠ 1 ∧ tag ≠ 7 := by
  constructor
  · intro ht
    subst ht
    cases h
  · intro ht
    subst ht
    cases h

def TakesConstant (tag : UInt8) (bs : List UInt8) (c : Constant) (tail : List UInt8) : Prop :=
  ∃ e : Entry, e.tag = tag ∧ e.WellFormed ∧ c = e.constant ∧ bs = e.payload ++ tail

theorem reads_text : ReadsAs Input.Before
    (do return Constant.utf8 (ModifiedUtf8.decode (← Reader.take (← Reader.u2))))
    (TakesConstant 1) := by
  refine (Reader.reads_u2.bind fun n => (Reader.reads_take n).bind fun b => .pure _).congr
    fun bs c tail => ?_
  constructor
  · intro h
    obtain ⟨_, _, ⟨hn, rfl⟩, b, _, ⟨rfl, rfl⟩, rfl, rfl⟩ := h
    exact ⟨.utf8 b.data.toList, rfl, hn, rfl, (List.append_assoc _ _ _).symm⟩
  · intro h
    obtain ⟨e, ht, he, rfl, rfl⟩ := h
    cases e with
    | utf8 bytes =>
      exact ⟨bytes.length, _, ⟨he, List.append_assoc _ _ _⟩, ⟨bytes.toArray⟩, _, ⟨rfl, rfl⟩, rfl, rfl⟩
    | classRef nameIndex => cases ht
    | other tag payload => exact absurd ht (Entry.tag_ne_of_other he).1

theorem reads_classRef : ReadsAs Input.Before
    (do return Constant.classRef (← Reader.u2)) (TakesConstant 7) := by
  refine (Reader.reads_u2.bind fun n => .pure (Constant.classRef n)).congr fun bs c tail => ?_
  constructor
  · intro h
    obtain ⟨n, _, ⟨hn, rfl⟩, rfl, rfl⟩ := h
    exact ⟨.classRef n, rfl, hn, rfl, rfl⟩
  · intro h
    obtain ⟨e, ht, he, rfl, rfl⟩ := h
    cases e with
    | utf8 bytes => cases ht
    | classRef nameIndex => exact ⟨nameIndex, _, ⟨he, rfl⟩, rfl, rfl⟩
    | other tag payload => exact absurd ht (Entry.tag_ne_of_other he).2

theorem reads_other {tag : UInt8} {n : Nat} (hn : payloadSizes.lookup tag = some n) :
    ReadsAs Input.Before (do Reader.skip n; return Constant.other tag) (TakesConstant tag) := by
  refine ((Reader.reads_skip n).bind fun _ => .pure (Constant.other tag)).congr fun bs c tail => ?_
  constructor
  · intro h
    obtain ⟨_, _, ⟨payload, rfl, rfl⟩, rfl, rfl⟩ := h
    exact ⟨.other tag payload, rfl, hn, rfl, rfl⟩
  · intro h
    obtain ⟨e, rfl, he, rfl, rfl⟩ := h
    cases e with
    | utf8 bytes => cases hn
    | classRef nameIndex => cases hn
    | other tag payload =>
      obtain rfl : n = payload.length := Option.some.inj (hn.symm.trans he)
      exact ⟨(), _, ⟨payload, rfl, rfl⟩, rfl, rfl⟩

theorem reads_constant (tag : UInt8) (index : Nat) :
    ReadsAs Input.Before (Constant.reader tag index) (TakesConstant tag) := by
  unfold Constant.reader
  split
  · rename_i h
    subst h
    exact reads_text
  split
  · rename_i h
    subst h
    exact reads_classRef
  rename_i h₁ h₇
  rw [skippedSize?_eq]
  cases hn : payloadSizes.lookup tag with
  | some n => exact reads_other hn
  | none =>
    refine (ReadsAs.fails fun i => ⟨_, rfl⟩).congr fun bs c tail => ?_
    constructor
    · intro h
      exact h.elim
    · intro h
      obtain ⟨e, rfl, he, -⟩ := h
      cases e with
      | utf8 bytes => exact h₁ rfl
      | classRef nameIndex => exact h₇ rfl
      | other tag payload => cases hn.symm.trans he

/-- Entries that fill the slots from `index` on, in front of which `before` stands. -/
def TakesEntries (count index : Nat) (before : Array Constant) :
    List UInt8 → ConstantPool → List UInt8 → Prop :=
  Described (fun es => Fills count index es ∧ ∀ e ∈ es, e.WellFormed)
    (fun es => ⟨before ++ (es.flatMap Entry.cells).toArray⟩) (List.flatMap Entry.wire)

theorem fills_of_le {count index : Nat} (h : count ≤ index) {es : List Entry} :
    Fills count index es ↔ es = [] := by
  cases es with
  | nil => simpa [Fills] using h
  | cons e es =>
    simp only [Fills, reduceCtorEq, iff_false]
    omega

/-- Slots are counted up to the largest number of two bytes, which no pool goes beyond. -/
theorem fills_min {count index : Nat} (h : count < 2 ^ 16) {es : List Entry} :
    Fills count (min index 0xFFFF) es ↔ Fills count index es := by
  by_cases hi : index ≤ 0xFFFF
  · rw [Nat.min_eq_left hi]
  · rw [fills_of_le (by omega), fills_of_le (by omega)]

theorem takesEntries_of_le {count index : Nat} (h : count ≤ index) {before : Array Constant}
    {bs tail : List UInt8} {pool : ConstantPool} :
    TakesEntries count index before bs pool tail ↔ pool = ⟨before⟩ ∧ tail = bs := by
  constructor
  · intro ht
    obtain ⟨es, ⟨hf, -⟩, rfl, rfl⟩ := ht
    obtain rfl := (fills_of_le h).mp hf
    simp
  · intro ht
    obtain ⟨rfl, rfl⟩ := ht
    exact ⟨[], ⟨h, by simp⟩, by simp, rfl⟩

theorem takesEntries_of_lt {count index : Nat} (h : index < count) {before : Array Constant}
    {bs tail : List UInt8} {pool : ConstantPool} :
    TakesEntries count index before bs pool tail ↔
      ∃ (e : Entry) (m : List UInt8), e.WellFormed ∧ bs = e.wire ++ m ∧
        TakesEntries count (index + e.cells.length) (before ++ e.cells.toArray) m pool tail := by
  constructor
  · intro ht
    obtain ⟨es, ⟨hf, hw⟩, rfl, rfl⟩ := ht
    cases es with
    | nil => exact absurd h (Nat.not_lt.mpr hf)
    | cons e es =>
      obtain ⟨he, hes⟩ := List.forall_mem_cons.mp hw
      exact ⟨e, _, he, by simp, es, ⟨hf.2, hes⟩, by simp, rfl⟩
  · intro ht
    obtain ⟨e, _, he, rfl, es, ⟨hf, hes⟩, rfl, rfl⟩ := ht
    exact ⟨e :: es, ⟨⟨h, hf⟩, List.forall_mem_cons.mpr ⟨he, hes⟩⟩, by simp, by simp⟩

theorem readFrom_next (count turns index : Nat) (before : Array Constant) (tag : UInt8) (c : Constant) :
    (if Constant.slots tag = 2 then
      ConstantPool.readFrom count turns (min (index + 2) 0xFFFF) ((before.push c).push .unusable)
    else ConstantPool.readFrom count turns (min (index + 1) 0xFFFF) (before.push c)) =
      ConstantPool.readFrom count turns (min (index + (c.cells tag).length) 0xFFFF)
        (before ++ (c.cells tag).toArray) := by
  by_cases hw : tag = 5 ∨ tag = 6
  · have hp : (before.push c).push .unusable = before ++ #[c, .unusable] := by
      apply Array.ext'
      simp
    simp [Constant.slots, Constant.cells, hw, hp]
  · simp [Constant.slots, Constant.cells, hw]

theorem Constant.cells_length_pos (c : Constant) (tag : UInt8) : 0 < (c.cells tag).length := by
  unfold cells
  split <;> simp

theorem reads_readFrom {count : Nat} (hc : count < 2 ^ 16) (turns index : Nat)
    (ht : count ≤ index + turns) (before : Array Constant) :
    ReadsAs Input.Before (ConstantPool.readFrom count turns index before)
      (TakesEntries count index before) := by
  induction turns generalizing index before with
  | zero =>
    refine (ReadsAs.pure _).congr fun bs pool tail => ?_
    exact (takesEntries_of_le (by omega)).symm
  | succ turns ih =>
    unfold ConstantPool.readFrom
    split
    · rename_i hlt
      -- Where the index stops at its bound, no slot is left to fill, so the bound does not show.
      have hrest : ∀ (tag : UInt8) (c : Constant), ReadsAs Input.Before
          (if Constant.slots tag = 2 then
            ConstantPool.readFrom count turns (min (index + 2) 0xFFFF)
              ((before.push c).push .unusable)
          else ConstantPool.readFrom count turns (min (index + 1) 0xFFFF) (before.push c))
          (TakesEntries count (index + (c.cells tag).length) (before ++ (c.cells tag).toArray)) := by
        intro tag c
        have hpos := c.cells_length_pos tag
        rw [readFrom_next]
        refine (ih (min (index + (c.cells tag).length) 0xFFFF) (by omega) _).congr fun bs pool tail => ?_
        simp only [TakesEntries, fills_min hc]
      refine (Reader.reads_u1.bind fun tag => (reads_constant tag index).bind (hrest tag)).congr
        fun bs pool tail => ?_
      rw [takesEntries_of_lt hlt]
      constructor
      · intro h
        obtain ⟨_, _, rfl, _, m, ⟨e, rfl, he, rfl, rfl⟩, h⟩ := h
        exact ⟨e, m, he, rfl, h⟩
      · intro h
        obtain ⟨e, m, he, rfl, h⟩ := h
        exact ⟨e.tag, _, rfl, e.constant, m, ⟨e, rfl, he, rfl, rfl⟩, h⟩
    · refine (ReadsAs.pure _).congr fun bs pool tail => ?_
      exact (takesEntries_of_le (by omega)).symm

theorem reads_pool :
    ReadsAs Input.Before ConstantPool.reader
      (Described (fun p : Nat × List Entry => p.1 < 2 ^ 16 ∧ Fills p.1 1 p.2 ∧ ∀ e ∈ p.2, e.WellFormed)
        (fun p => .ofEntries p.2) (fun p => numberWire 2 p.1 ++ p.2.flatMap Entry.wire)) := by
  have hp : ∀ es : List Entry, ConstantPool.mk (#[.unusable] ++ (es.flatMap Entry.cells).toArray) =
      .ofEntries es := fun es => by simp [ConstantPool.ofEntries]
  constructor
  · intro i bs pool i' hi hr
    obtain ⟨count, i₁, h₁, hr⟩ := run_bind_eq_ok.mp hr
    obtain ⟨_, ⟨hc, rfl⟩, hi₁⟩ := Reader.reads_u2.sound hi h₁
    obtain ⟨tail, ⟨es, hes, rfl, rfl⟩, ht⟩ :=
      (reads_readFrom hc count 1 (by omega) #[.unusable]).sound hi₁ hr
    exact ⟨tail, ⟨(count, es), ⟨hc, hes⟩, hp es, by simp⟩, ht⟩
  · intro i bs pool tail hi h
    obtain ⟨⟨count, es⟩, ⟨hc, hes⟩, rfl, rfl⟩ := h
    rw [List.append_assoc] at hi
    obtain ⟨i₁, h₁, hi₁⟩ := Reader.reads_u2.complete hi ⟨hc, rfl⟩
    obtain ⟨i', h', hi'⟩ := (reads_readFrom hc count 1 (by omega) #[.unusable]).complete hi₁
      ⟨es, hes, (hp es).symm, rfl⟩
    exact ⟨i', run_bind_eq_ok.mpr ⟨count, i₁, h₁, h'⟩, hi'⟩

def Attribute.note (pool : ConstantPool) (m : Method) (a : Attribute) : Method :=
  if a.isNamed pool "Signature" then { m with signatureIndex := some (word a.body) }
  else if a.isNamed pool "Exceptions" then
    { m with exceptionIndexes := some (words (word a.body) (a.body.drop 2)) }
  else m

theorem reads_signatureBody (body : ByteArray) :
    ReadsAs Input.Before (Reader.within body Reader.u2) fun bs value tail =>
      tail = bs ∧ 2 ≤ body.data.toList.length ∧ value = word body.data.toList :=
  (Reader.reads_within Reader.reads_word body).congr fun bs value tail => by simp [TakesWord]

theorem reads_exceptionsBody (body : ByteArray) :
    ReadsAs Input.Before (Reader.within body do Reader.times Reader.u2 (← Reader.u2))
      fun bs values tail => tail = bs ∧
        (2 ≤ body.data.toList.length ∧
          2 * word body.data.toList ≤ (body.data.toList.drop 2).length) ∧
        values = words (word body.data.toList) (body.data.toList.drop 2) := by
  have h := Reader.reads_word.bind fun n => Reader.reads_times Reader.reads_word n
  refine (Reader.reads_within h body).congr fun bs values tail => ?_
  simp only [Reader.repeated_word]
  constructor
  · intro ht
    obtain ⟨rfl, _, _, _, ⟨hl, rfl, rfl⟩, hn, rfl, -⟩ := ht
    exact ⟨rfl, ⟨hl, hn⟩, rfl⟩
  · intro ht
    obtain ⟨rfl, ⟨hl, hn⟩, rfl⟩ := ht
    exact ⟨rfl, _, _, _, ⟨hl, rfl, rfl⟩, hn, rfl, rfl⟩

/-- The body of an attribute is looked into only if the attribute's name counts. -/
theorem reads_attributeBody (pool : ConstantPool) (m : Method) (nameIndex : Nat) (body : ByteArray) :
    ReadsAs Input.Before
      (match (pool.utf8 nameIndex).toOption with
        | some "Signature" =>
          return { m with signatureIndex := some (← Reader.within body Reader.u2) }
        | some "Exceptions" => do
          let indexes ← Reader.within body do Reader.times Reader.u2 (← Reader.u2)
          return { m with exceptionIndexes := some indexes }
        | _ => return m)
      fun bs m' tail => tail = bs ∧ Attribute.Readable pool ⟨nameIndex, body.data.toList⟩ ∧
        m' = Attribute.note pool m ⟨nameIndex, body.data.toList⟩ := by
  split
  · rename_i hname
    have hs : Attribute.isNamed pool "Signature" ⟨nameIndex, body.data.toList⟩ = true := by
      simp [Attribute.isNamed, hname]
    have he : Attribute.isNamed pool "Exceptions" ⟨nameIndex, body.data.toList⟩ = false := by
      simp [Attribute.isNamed, hname]
    refine ((reads_signatureBody body).bind fun _ => .pure _).congr fun bs m' tail => ?_
    constructor
    · intro h
      obtain ⟨_, _, ⟨rfl, hl, rfl⟩, rfl, rfl⟩ := h
      exact ⟨rfl, ⟨fun _ => hl, by simp [he]⟩, by simp [Attribute.note, hs]⟩
    · intro h
      obtain ⟨rfl, hr, rfl⟩ := h
      exact ⟨_, _, ⟨rfl, hr.signature hs, rfl⟩, by simp [Attribute.note, hs], rfl⟩
  · rename_i hname
    have hs : Attribute.isNamed pool "Signature" ⟨nameIndex, body.data.toList⟩ = false := by
      simp [Attribute.isNamed, hname]
    have he : Attribute.isNamed pool "Exceptions" ⟨nameIndex, body.data.toList⟩ = true := by
      simp [Attribute.isNamed, hname]
    refine ((reads_exceptionsBody body).bind fun _ => .pure _).congr fun bs m' tail => ?_
    constructor
    · intro h
      obtain ⟨_, _, ⟨rfl, hl, rfl⟩, rfl, rfl⟩ := h
      exact ⟨rfl, ⟨by simp [hs], fun _ => hl⟩, by simp [Attribute.note, hs, he]⟩
    · intro h
      obtain ⟨rfl, hr, rfl⟩ := h
      exact ⟨_, _, ⟨rfl, hr.exceptions he, rfl⟩, by simp [Attribute.note, hs, he], rfl⟩
  · rename_i hs he
    have hs : Attribute.isNamed pool "Signature" ⟨nameIndex, body.data.toList⟩ = false := by
      simpa [Attribute.isNamed] using hs
    have he : Attribute.isNamed pool "Exceptions" ⟨nameIndex, body.data.toList⟩ = false := by
      simpa [Attribute.isNamed] using he
    refine (ReadsAs.pure m).congr fun bs m' tail => ?_
    constructor
    · intro h
      obtain ⟨rfl, rfl⟩ := h
      exact ⟨rfl, ⟨by simp [hs], by simp [he]⟩, by simp [Attribute.note, hs, he]⟩
    · intro h
      obtain ⟨rfl, -, rfl⟩ := h
      exact ⟨by simp [Attribute.note, hs, he], rfl⟩

theorem reads_methodAttribute (pool : ConstantPool) (m : Method) :
    ReadsAs Input.Before (methodAttribute pool m)
      (Described (fun a : Attribute => a.Fits ∧ a.Readable pool) (Attribute.note pool m)
        Attribute.wire) := by
  refine (Reader.reads_u2.bind fun nameIndex => Reader.reads_u4.bind fun n =>
    (Reader.reads_take n).bind fun body => reads_attributeBody pool m nameIndex body).congr
    fun bs m' tail => ?_
  constructor
  · intro h
    obtain ⟨nameIndex, _, ⟨hn, rfl⟩, _, _, ⟨hl, rfl⟩, body, _, ⟨rfl, rfl⟩, rfl, hr, rfl⟩ := h
    exact ⟨⟨nameIndex, body.data.toList⟩, ⟨⟨hn, hl⟩, hr⟩, rfl, by simp [Attribute.wire]⟩
  · intro h
    obtain ⟨a, ⟨⟨hn, hl⟩, hr⟩, rfl, rfl⟩ := h
    exact ⟨a.nameIndex, _, ⟨hn, by simp [Attribute.wire]⟩, a.body.length, _, ⟨hl, rfl⟩,
      ⟨a.body.toArray⟩, tail, ⟨rfl, rfl⟩, rfl, hr, rfl⟩

theorem reads_attributes (pool : ConstantPool) (n : Nat) (m : Method) :
    ReadsAs Input.Before (attributes pool n m)
      (Described (fun as : List Attribute => as.length = n ∧ ∀ a ∈ as, a.Fits ∧ a.Readable pool)
        (List.foldl (Attribute.note pool) m) (List.flatMap Attribute.wire)) := by
  induction n generalizing m with
  | zero =>
    refine (ReadsAs.pure m).congr fun bs m' tail => ?_
    constructor
    · intro h
      obtain ⟨rfl, rfl⟩ := h
      exact ⟨[], by simp, rfl, rfl⟩
    · intro h
      obtain ⟨as, ⟨hn, -⟩, rfl, rfl⟩ := h
      obtain rfl := List.length_eq_zero_iff.mp hn
      exact ⟨rfl, rfl⟩
  | succ n ih =>
    refine ((reads_methodAttribute pool m).bind ih).congr fun bs m' tail => ?_
    constructor
    · intro h
      obtain ⟨_, _, ⟨a, ha, rfl, rfl⟩, as, ⟨rfl, has⟩, rfl, rfl⟩ := h
      exact ⟨a :: as, ⟨rfl, List.forall_mem_cons.mpr ⟨ha, has⟩⟩, rfl, by simp⟩
    · intro h
      obtain ⟨as, ⟨hn, has⟩, rfl, rfl⟩ := h
      cases as with
      | nil => cases hn
      | cons a as =>
        obtain ⟨ha, has⟩ := List.forall_mem_cons.mp has
        exact ⟨_, _, ⟨a, ha, rfl, by simp⟩, as, ⟨Nat.succ.inj hn, has⟩, rfl, rfl⟩

theorem Member.foldl_note (pool : ConstantPool) (m : Member) :
    m.attributes.foldl (Attribute.note pool)
      { accessFlags := m.accessFlags, nameIndex := m.nameIndex
        descriptorIndex := m.descriptorIndex } = m.method pool := by
  obtain ⟨accessFlags, nameIndex, descriptorIndex, as⟩ := m
  -- From the back, since the last attribute of a name is the one that stays.
  induction as using List.reverseRecOn with
  | nil => rfl
  | append_singleton as a ih =>
    simp only [List.foldl_append, List.foldl_cons, List.foldl_nil] at ih ⊢
    rw [ih]
    by_cases hs : a.isNamed pool "Signature"
    · have he : a.isNamed pool "Exceptions" = false := by
        simp only [Attribute.isNamed, decide_eq_true_eq] at hs
        simp [Attribute.isNamed, hs]
      simp [Attribute.note, Member.method, Member.lastBody?, List.filter_append, hs, he]
    · by_cases he : a.isNamed pool "Exceptions"
      · simp [Attribute.note, Member.method, Member.lastBody?, List.filter_append, hs, he]
      · simp [Attribute.note, Member.method, Member.lastBody?, List.filter_append, hs, he]

theorem reads_method (pool : ConstantPool) :
    ReadsAs Input.Before (method pool)
      (Described (fun m : Member => m.Fits ∧ ∀ a ∈ m.attributes, a.Readable pool)
        (Member.method pool) Member.wire) := by
  refine (Reader.reads_u2.bind fun accessFlags => Reader.reads_u2.bind fun nameIndex =>
    Reader.reads_u2.bind fun descriptorIndex => Reader.reads_counted fun n =>
    reads_attributes pool n { accessFlags, nameIndex, descriptorIndex }).congr fun bs m' tail => ?_
  constructor
  · intro h
    obtain ⟨f, _, ⟨hf, rfl⟩, n, _, ⟨hn, rfl⟩, d, _, ⟨hd, rfl⟩, as, ⟨hc, has⟩, rfl, rfl⟩ := h
    exact ⟨⟨f, n, d, as⟩, ⟨⟨hf, hn, hd, hc, fun a ha => (has a ha).1⟩, fun a ha => (has a ha).2⟩,
      Member.foldl_note pool ⟨f, n, d, as⟩, by simp [Member.wire]⟩
  · intro h
    obtain ⟨m, ⟨hf, hr⟩, rfl, rfl⟩ := h
    exact ⟨m.accessFlags, _, ⟨hf.accessFlags, by simp [Member.wire]⟩,
      m.nameIndex, _, ⟨hf.nameIndex, rfl⟩, m.descriptorIndex, _, ⟨hf.descriptorIndex, rfl⟩,
      m.attributes, ⟨hf.count, fun a ha => ⟨hf.attributes a ha, hr a ha⟩⟩,
      (Member.foldl_note pool m).symm, (List.append_assoc _ _ _).symm⟩

theorem reads_skippedAttribute :
    ReadsAs Input.Before (do Reader.skip 2; Reader.skip (← Reader.u4))
      (Described Attribute.Fits (fun _ => ()) Attribute.wire) := by
  refine ((Reader.reads_skip_number 2).bind fun _ => Reader.reads_u4.bind fun n =>
    Reader.reads_skip n).congr fun bs _ tail => ?_
  constructor
  · intro h
    obtain ⟨_, _, ⟨nameIndex, hn, -, rfl⟩, _, _, ⟨hl, rfl⟩, body, rfl, rfl⟩ := h
    exact ⟨⟨nameIndex, body⟩, ⟨hn, hl⟩, rfl, by simp [Attribute.wire]⟩
  · intro h
    obtain ⟨a, ⟨hn, hl⟩, -, rfl⟩ := h
    exact ⟨(), _, ⟨a.nameIndex, hn, rfl, by simp [Attribute.wire]⟩, _, _, ⟨hl, rfl⟩, a.body, rfl, rfl⟩

theorem reads_skippedItems {δ : Type} {item : Reader Unit} {admits : δ → Prop}
    {wire : δ → List UInt8}
    (hi : ReadsAs Input.Before item (Described admits (fun _ => ()) wire)) (n : Nat) :
    ReadsAs Input.Before (Reader.pass item n)
      (Described (fun ds : List δ => ds.length = n ∧ ∀ d ∈ ds, admits d) (fun _ => ())
        (List.flatMap wire)) := by
  refine (Reader.reads_pass hi n).congr fun bs _ tail => ?_
  simp only [repeated_described]
  constructor
  · intro h
    obtain ⟨_, ds, hds, -, rfl⟩ := h
    exact ⟨ds, hds, rfl, rfl⟩
  · intro h
    obtain ⟨ds, hds, -, rfl⟩ := h
    exact ⟨_, ds, hds, rfl, rfl⟩

theorem reads_skipAttributes :
    ReadsAs Input.Before skipAttributes
      (Described (fun as : List Attribute => as.length < 2 ^ 16 ∧ ∀ a ∈ as, a.Fits) (fun _ => ())
        fun as => numberWire 2 as.length ++ as.flatMap Attribute.wire) :=
  Reader.reads_counted (reads_skippedItems reads_skippedAttribute)

theorem reads_skippedField :
    ReadsAs Input.Before (do Reader.skip 6; skipAttributes)
      (Described Member.Fits (fun _ => ()) Member.wire) := by
  refine ((Reader.reads_skip_words 3).bind fun _ => reads_skipAttributes).congr
    fun bs _ tail => ?_
  constructor
  · intro h
    obtain ⟨_, _, ⟨ws, ⟨hl, hw⟩, -, rfl⟩, as, ⟨hc, has⟩, -, rfl⟩ := h
    obtain ⟨f, n, d, rfl⟩ := List.length_eq_three.mp hl
    simp only [List.mem_cons, List.not_mem_nil, or_false, forall_eq_or_imp, forall_eq] at hw
    exact ⟨⟨f, n, d, as⟩, ⟨hw.1, hw.2.1, hw.2.2, hc, has⟩, rfl, by simp [Member.wire]⟩
  · intro h
    obtain ⟨m, hm, -, rfl⟩ := h
    refine ⟨(), _, ⟨[m.accessFlags, m.nameIndex, m.descriptorIndex], ⟨rfl, ?_⟩, rfl, ?_⟩,
      m.attributes, ⟨hm.count, hm.attributes⟩, rfl, rfl⟩
    · intro w hw
      simp only [List.mem_cons, List.not_mem_nil, or_false] at hw
      rcases hw with rfl | rfl | rfl
      · exact hm.accessFlags
      · exact hm.nameIndex
      · exact hm.descriptorIndex
    · simp [Member.wire]

theorem reads_methods (pool : ConstantPool) (n : Nat) :
    ReadsAs Input.Before (Reader.times (method pool) n)
      (Described (fun ms : List Member =>
          ms.length = n ∧ ∀ m ∈ ms, m.Fits ∧ ∀ a ∈ m.attributes, a.Readable pool)
        (List.map (Member.method pool)) (List.flatMap Member.wire)) :=
  (Reader.reads_times (reads_method pool) n).congr fun _ _ _ => repeated_described

theorem reads_classFile :
    ReadsAs Input.Before reader (Described Layout.WellFormed Layout.classFile Layout.wire) := by
  have hbody := (Reader.reads_skip_number 2).bind fun _ => (Reader.reads_skip_number 2).bind fun _ =>
    reads_pool.bind fun constantPool => (Reader.reads_skip_number 2).bind fun _ =>
    Reader.reads_u2.bind fun thisClass => (Reader.reads_skip_number 2).bind fun _ =>
    Reader.reads_counted_bind Reader.reads_skip_words fun _ =>
    Reader.reads_counted_bind (reads_skippedItems reads_skippedField) fun _ =>
    Reader.reads_counted_bind (reads_methods constantPool) fun methods =>
    .pure (ClassFile.mk constantPool thisClass methods)
  refine (Reader.reads_u4.bind fun magic => ReadsAs.ite (magic = magicNumber) (fun _ => hbody)
    fun _ => ReadsAs.fails fun i => ⟨_, rfl⟩).congr fun bs c tail => ?_
  constructor
  · intro h
    obtain ⟨magic, _, ⟨-, rfl⟩, h⟩ := h
    split at h
    · rename_i hm
      subst hm
      obtain ⟨_, _, ⟨minor, hminor, -, rfl⟩, _, _, ⟨major, hmajor, -, rfl⟩, _, _,
        ⟨⟨count, es⟩, ⟨hcount, hfills, hes⟩, rfl, rfl⟩, _, _, ⟨flags, hflags, -, rfl⟩, this, _,
        ⟨hthis, rfl⟩, _, _, ⟨super, hsuper, -, rfl⟩, _, _, ⟨interfaces, ⟨hi, his⟩, -, rfl⟩, _, _,
        ⟨fields, ⟨hf, hfs⟩, -, rfl⟩, _, _, ⟨methods, ⟨hm, hms⟩, rfl, rfl⟩, rfl, rfl⟩ := h
      exact ⟨⟨minor, major, count, es, flags, this, super, interfaces, fields, methods⟩,
        ⟨hminor, hmajor, hcount, hfills, hes, hflags, hthis, hsuper, hi, his, hf, hfs, hm, hms⟩,
        rfl, by simp [Layout.wire]⟩
    · exact h.elim
  · intro h
    obtain ⟨k, hk, rfl, rfl⟩ := h
    simp only [Layout.wire, List.append_assoc]
    refine ⟨magicNumber, _, ⟨by decide, rfl⟩, ?_⟩
    rw [if_pos rfl]
    exact ⟨(), _, ⟨k.minorVersion, hk.minorVersion, rfl, rfl⟩,
      (), _, ⟨k.majorVersion, hk.majorVersion, rfl, rfl⟩,
      k.pool, _, ⟨(k.poolCount, k.constants), ⟨hk.poolCount, hk.fills, hk.constants⟩, rfl, by simp⟩,
      (), _, ⟨k.accessFlags, hk.accessFlags, rfl, rfl⟩,
      k.thisClass, _, ⟨hk.thisClass, rfl⟩,
      (), _, ⟨k.superClass, hk.superClass, rfl, rfl⟩,
      (), _, ⟨k.interfaces, ⟨hk.interfaceCount, hk.interfaces⟩, rfl, (List.append_assoc _ _ _).symm⟩,
      (), _, ⟨k.fields, ⟨hk.fieldCount, hk.fields⟩, rfl, (List.append_assoc _ _ _).symm⟩,
      _, _, ⟨k.methods, ⟨hk.methodCount, hk.methods⟩, rfl, (List.append_assoc _ _ _).symm⟩, rfl, rfl⟩

theorem parse_eq_ok_iff_run {bytes : ByteArray} {c : ClassFile} :
    parse bytes = .ok c ↔ ∃ i, reader ⟨bytes, 0⟩ = .ok (c, i) := by
  unfold parse StateT.run
  cases reader ⟨bytes, 0⟩ with
  | error e => simp [Except.map]
  | ok p =>
    obtain ⟨a, i⟩ := p
    simp [Except.map]

theorem parse_wire {k : Layout} (hk : k.WellFormed) (rest : List UInt8) :
    parse ⟨(k.wire ++ rest).toArray⟩ = .ok k.classFile := by
  have hs := Input.Before.start ⟨(k.wire ++ rest).toArray⟩
  obtain ⟨i, hi, -⟩ := reads_classFile.complete hs ⟨k, hk, rfl, rfl⟩
  exact parse_eq_ok_iff_run.mpr ⟨i, hi⟩

theorem layout_of_parse {bytes : ByteArray} {c : ClassFile} (h : parse bytes = .ok c) :
    ∃ (k : Layout) (rest : List UInt8),
      k.WellFormed ∧ bytes = ⟨(k.wire ++ rest).toArray⟩ ∧ c = k.classFile := by
  obtain ⟨i, hi⟩ := parse_eq_ok_iff_run.mp h
  obtain ⟨rest, ⟨k, hk, rfl, hb⟩, -⟩ := reads_classFile.sound (Input.Before.start bytes) hi
  exact ⟨k, rest, hk, ByteArray.ext (Array.toList_inj.mp (by simpa using hb)), rfl⟩

/-- Bytes are read as a class file if and only if they begin with a well-formed layout, and then what is
read is what the layout keeps. -/
theorem parse_eq_ok_iff (bytes : ByteArray) (c : ClassFile) :
    parse bytes = .ok c ↔ ∃ (k : Layout) (rest : List UInt8),
      k.WellFormed ∧ bytes = ⟨(k.wire ++ rest).toArray⟩ ∧ c = k.classFile := by
  constructor
  · exact layout_of_parse
  · intro h
    obtain ⟨k, rest, hk, rfl, rfl⟩ := h
    exact parse_wire hk rest

end ClassLocator.ClassFile

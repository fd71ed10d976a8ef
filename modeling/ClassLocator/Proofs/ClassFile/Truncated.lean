import ClassLocator.Proofs.ClassFile.Breaks
/-!
Where the reading of a class file fails as truncated. Main statement: it does if and only if the bytes end
within a class file that fits, and the place told is where what is lacking should begin; for a word in the
body of an attribute it is the place within this body.
-/

namespace ClassLocator.ClassFile

open Reader

def FillsSlots (count index : Nat) (es : List Entry) : Prop :=
  Fills count index es ∧ ∀ e ∈ es, e.WellFormed

theorem fillsSlots_min {count : Nat} (h : count < 2 ^ 16) (index : Nat) :
    FillsSlots count (min index 0xFFFF) = FillsSlots count index := by
  funext es
  rw [FillsSlots, FillsSlots, fills_min h]

theorem breaksIn_constant {tag : UInt8} (index : Nat) (h : ∃ e : Entry, e.tag = tag ∧ e.WellFormed) :
    BreaksIn (Constant.reader tag index) (fun e : Entry => e.tag = tag ∧ e.WellFormed)
      Entry.payloadSpans := by
  obtain ⟨e, rfl, he⟩ := h
  cases e with
  | utf8 bytes =>
    refine BreaksIn.congr (readsSpans_u2.bind (f := fun n => do
        return Constant.utf8 (ModifiedUtf8.decode (← Reader.take n)))
      fun n _ => (readsSpans_take n).toBreaksIn.bind_pure _) (fun p => .utf8 p.2) ?_ ?_
    · rintro ⟨n, bytes⟩ ⟨hn, hlen⟩
      obtain rfl : bytes.length = n := hlen
      exact ⟨⟨rfl, hn⟩, rfl⟩
    · rintro e ⟨ht, he⟩
      cases e with
      | utf8 bytes => exact ⟨(bytes.length, bytes), ⟨he, rfl⟩, rfl⟩
      | classRef nameIndex => cases ht
      | other tag payload => exact absurd ht (Entry.tag_ne_of_other he).1
  | classRef nameIndex =>
    refine (readsSpans_u2.toBreaksIn.bind_pure Constant.classRef).congr .classRef ?_ ?_
    · exact fun n hn => ⟨⟨rfl, hn⟩, rfl⟩
    · rintro e ⟨ht, he⟩
      cases e with
      | utf8 bytes => cases ht
      | classRef nameIndex => exact ⟨nameIndex, he, rfl⟩
      | other tag payload => exact absurd ht (Entry.tag_ne_of_other he).2
  | other tag payload =>
    obtain ⟨h₁, h₇⟩ := Entry.tag_ne_of_other he
    have hsize : Constant.skippedSize? tag = some payload.length := (skippedSize?_eq tag).trans he
    show BreaksIn (Constant.reader tag index) _ _
    unfold Constant.reader
    rw [if_neg h₁, if_neg h₇, hsize]
    refine ((readsSpans_skip_bytes payload.length).toBreaksIn.bind_pure fun _ => Constant.other tag).congr
      (.other tag) ?_ ?_
    · exact fun bs hbs => ⟨⟨rfl, by rw [Entry.WellFormed, hbs]; exact he⟩, rfl⟩
    · rintro e ⟨ht, he'⟩
      cases e with
      | utf8 bytes => exact absurd ht.symm h₁
      | classRef nameIndex => exact absurd ht.symm h₇
      | other tag' payload' =>
        obtain rfl : tag' = tag := ht
        have hlen : payload'.length = payload.length := Option.some.inj (he'.symm.trans he)
        exact ⟨payload', hlen, rfl⟩

theorem readsSpans_constant {tag : UInt8} (index : Nat) (h : ∃ e : Entry, e.tag = tag ∧ e.WellFormed) :
    ReadsSpans (Constant.reader tag index) (fun e : Entry => e.tag = tag ∧ e.WellFormed) Entry.constant
      Entry.payloadSpans where
  toBreaksIn := breaksIn_constant index h
  steady := steady_constant tag index
  reads := (reads_constant tag index).congr fun bs c rest => by
    simp only [TakesConstant, Described, Entry.bytesOf_payloadSpans, Entry.allSound_payloadSpans, and_true,
      and_assoc]

theorem breaksIn_tag : BreaksIn u1 (fun tag : UInt8 => ∃ e : Entry, e.tag = tag ∧ e.WellFormed)
    (fun tag => [⟨[tag], []⟩]) := by
  refine BreaksIn.bind_pure ?_ Nat.toUInt8
  exact breaksIn_span ⟨7, .classRef 0, rfl, by decide⟩ (fun _ _ => rfl) fun _ => rfl

theorem reads_tag : ReadsAs Input.Before u1
    (Described (fun _ => True) id fun tag : UInt8 => bytesOf [⟨[tag], []⟩]) :=
  reads_u1.congr fun bs tag rest => by simp [Described]

/-- A tag that no constant has is refused, so that nothing is lacking behind it. -/
theorem constant_ne_truncated {tag : UInt8} (h : ¬∃ e : Entry, e.tag = tag ∧ e.WellFormed) (index : Nat)
    (f : Constant → Reader ConstantPool) (i : Input) (told : Nat) :
    (Constant.reader tag index >>= f) i ≠ .error (.truncated told) := by
  have h₁ : tag ≠ 1 := by
    rintro rfl
    exact h ⟨.utf8 [], rfl, by decide⟩
  have h₇ : tag ≠ 7 := by
    rintro rfl
    exact h ⟨.classRef 0, rfl, by decide⟩
  have hsize : Constant.skippedSize? tag = none := by
    rw [skippedSize?_eq]
    refine Option.eq_none_iff_forall_ne_some.mpr fun n hn => h ⟨.other tag (List.replicate n 0), rfl, ?_⟩
    rw [Entry.WellFormed, List.length_replicate, hn]
  unfold Constant.reader
  rw [if_neg h₁, if_neg h₇, hsize]
  intro he
  cases he

theorem breaksIn_turn {count index : Nat} (hlt : index < count) {f : UInt8 → Constant → Reader ConstantPool}
    (hf : ∀ tag c, BreaksIn (f tag c) (FillsSlots count (index + (c.cells tag).length))
      (List.flatMap Entry.spans)) :
    BreaksIn (do
      let tag ← u1
      let constant ← Constant.reader tag index
      f tag constant) (FillsSlots count index) (List.flatMap Entry.spans) := by
  have hstop : ∀ tag : UInt8, ((∃ e : Entry, e.tag = tag ∧ e.WellFormed) ∧ AllSound [⟨[tag], []⟩]) ∨
      ∀ i told, (Constant.reader tag index >>= f tag) i ≠ .error (.truncated told) := by
    intro tag
    by_cases htag : ∃ e : Entry, e.tag = tag ∧ e.WellFormed
    · exact .inl ⟨htag, by simp⟩
    · exact .inr (constant_ne_truncated htag index (f tag))
  refine (BreaksIn.bind steady_u1 reads_tag breaksIn_tag (fun _ _ _ => trivial) (fun tag _ => hstop tag)
    fun tag htag => (readsSpans_constant index htag).bind fun e _ => hf tag e.constant).congr
    (fun p => p.2.1 :: p.2.2) ?_ ?_
  · rintro ⟨tag, e, es⟩ ⟨-, ⟨htag, he⟩, hfills, hes⟩
    obtain rfl : e.tag = tag := htag
    exact ⟨⟨⟨hlt, hfills⟩, List.forall_mem_cons.mpr ⟨he, hes⟩⟩, by simp [Entry.spans]⟩
  · rintro es ⟨hfills, hes⟩
    cases es with
    | nil => exact absurd hlt (Nat.not_lt.mpr hfills)
    | cons e es =>
      obtain ⟨he, hes⟩ := List.forall_mem_cons.mp hes
      exact ⟨(e.tag, e, es), ⟨⟨e, rfl, he⟩, ⟨rfl, he⟩, hfills.2, hes⟩, by simp [Entry.spans]⟩

theorem breaksIn_filled {count index : Nat} (h : count ≤ index) (pool : ConstantPool) :
    BreaksIn (pure pool) (FillsSlots count index) (List.flatMap Entry.spans) := by
  refine .pure pool ⟨[], h, List.forall_mem_nil _⟩ fun es hes => ?_
  rw [(fills_of_le h).mp hes.1, List.flatMap_nil]

theorem breaksIn_readFrom {count : Nat} (hc : count < 2 ^ 16) (turns index : Nat)
    (ht : count ≤ index + turns) (before : Array Constant) :
    BreaksIn (ConstantPool.readFrom count turns index before) (FillsSlots count index)
      (List.flatMap Entry.spans) := by
  induction turns generalizing index before with
  | zero => exact breaksIn_filled (by omega) _
  | succ turns ih =>
    unfold ConstantPool.readFrom
    split
    · rename_i hlt
      refine breaksIn_turn hlt fun tag c => ?_
      -- The index is bounded by the largest number of two bytes, behind which no slot is left.
      have hpos := c.cells_length_pos tag
      rw [readFrom_next, ← fillsSlots_min hc]
      exact ih (min (index + (c.cells tag).length) 0xFFFF) (by omega) _
    · exact breaksIn_filled (by omega) _

theorem readsSpans_pool :
    ReadsSpans ConstantPool.reader
      (fun p : Nat × List Entry => p.1 < 2 ^ 16 ∧ Fills p.1 1 p.2 ∧ ∀ e ∈ p.2, e.WellFormed)
      (fun p => .ofEntries p.2) (fun p => .number 2 p.1 :: p.2.flatMap Entry.spans) where
  toBreaksIn := readsSpans_u2.bind (f := fun count => ConstantPool.readFrom count count 1 #[.unusable])
    fun count hc => breaksIn_readFrom hc count 1 (by omega) _
  steady := steady_pool
  reads := reads_pool.congr fun bs pool rest => by
    simp [Described, Entry.spans, Entry.allSound_payloadSpans, bytesOf_flatMap Entry.bytesOf_spans]

theorem breaksIn_attribute {α : Type} {r : Reader α} {places : Attribute → List Nat}
    (h : BreaksIn r
      (fun p : Nat × Nat × List UInt8 => p.1 < 2 ^ 16 ∧ p.2.1 < 2 ^ 32 ∧ p.2.2.length = p.2.1)
      (fun p => [.number 2 p.1, .number 4 p.2.1, ⟨p.2.2, places ⟨p.1, p.2.2⟩⟩])) :
    BreaksIn r Attribute.Fits (fun a => a.spans (places a)) := by
  refine h.congr (fun p => ⟨p.1, p.2.2⟩) ?_ ?_
  · rintro ⟨nameIndex, n, body⟩ ⟨hn, hl, hlen⟩
    obtain rfl : body.length = n := hlen
    exact ⟨⟨hn, hl⟩, rfl⟩
  · rintro a ⟨hn, hl⟩
    exact ⟨(a.nameIndex, a.body.length, a.body), ⟨hn, hl, rfl⟩, rfl⟩

theorem readsSpans_passedAttribute :
    ReadsSpans (do Reader.skip 2; Reader.skip (← Reader.u4)) Attribute.Fits (fun _ => ())
      (fun a => a.spans []) where
  toBreaksIn := by
    have h : BreaksIn (do Reader.skip 2; Reader.skip (← Reader.u4)) _ _ :=
      (readsSpans_skip_number 2).bind fun _ _ => readsSpans_u4.bind fun n _ =>
        (readsSpans_skip_bytes n).toBreaksIn
    exact breaksIn_attribute h
  steady := (steady_skip 2).bind fun _ => steady_u4.bind fun n => steady_skip n
  reads := reads_skippedAttribute.congr fun bs _ rest => by
    have hs : ∀ a : Attribute, AllSound (a.spans []) := fun a => by simp
    simp only [Described, hs, and_true, Attribute.bytesOf_spans]

theorem looksIn_attributeBody (pool : ConstantPool) (m : Method) (nameIndex : Nat) (body : List UInt8) :
    LooksIn
      (match (pool.utf8 nameIndex).toOption with
        | some "Signature" =>
          return { m with signatureIndex := some (← Reader.within ⟨body.toArray⟩ Reader.u2) }
        | some "Exceptions" => do
          let indexes ← Reader.within ⟨body.toArray⟩ do Reader.times Reader.u2 (← Reader.u2)
          return { m with exceptionIndexes := some indexes }
        | _ => return m)
      body (Attribute.places pool ⟨nameIndex, body⟩) := by
  split
  · rename_i hname
    have hp : Attribute.places pool ⟨nameIndex, body⟩ = [0] := by
      simp [Attribute.places, Attribute.isNamed, hname]
    rw [hp]
    exact looksIn_u2.bind_pure _
  · rename_i hname
    have hp : Attribute.places pool ⟨nameIndex, body⟩ =
        0 :: (List.range (word body)).map fun j => 2 + 2 * j := by
      simp [Attribute.places, Attribute.isNamed, hname]
    rw [hp]
    exact looksIn_times.bind_pure _
  · rename_i hs he
    have hs : ¬Attribute.isNamed pool "Signature" ⟨nameIndex, body⟩ := by
      simpa [Attribute.isNamed] using hs
    have he : ¬Attribute.isNamed pool "Exceptions" ⟨nameIndex, body⟩ := by
      simpa [Attribute.isNamed] using he
    rw [Attribute.places, if_neg hs, if_neg he]
    exact looksIn_pure m

theorem readsSpans_attribute (pool : ConstantPool) (m : Method) :
    ReadsSpans (methodAttribute pool m) Attribute.Fits (Attribute.note pool m)
      (fun a => a.spans (a.places pool)) where
  toBreaksIn := by
    have h : BreaksIn (methodAttribute pool m) _ _ :=
      readsSpans_u2.bind fun nameIndex _ => readsSpans_u4.bind fun n _ =>
        breaksIn_look n (fun body => Attribute.places pool ⟨nameIndex, body⟩)
          (looksIn_attributeBody pool m nameIndex)
    exact breaksIn_attribute h
  steady := steady_methodAttribute pool m
  reads := (reads_methodAttribute pool m).congr fun bs m' rest => by
    simp only [Described, Attribute.readable_iff, Attribute.bytesOf_spans]

theorem breaksIn_attributes (pool : ConstantPool) (n : Nat) (m : Method) :
    BreaksIn (attributes pool n m) (fun as : List Attribute => as.length = n ∧ ∀ a ∈ as, a.Fits)
      (List.flatMap fun a => a.spans (a.places pool)) :=
  breaksIn_loop (methodAttribute pool) (fun _ m => m) (attributes pool) (fun m => ⟨m, rfl⟩)
    (fun _ _ => rfl) (readsSpans_attribute pool) n m

theorem readsSpans_head :
    ReadsSpans (skip 6) (fun h : Nat × Nat × Nat => h.1 < 2 ^ 16 ∧ h.2.1 < 2 ^ 16 ∧ h.2.2 < 2 ^ 16)
      (fun _ => ()) (fun h => [⟨[h.1, h.2.1, h.2.2].flatMap (numberWire 2), []⟩]) := by
  refine readsSpans_skip ((reads_skip_words 3).congr fun bs _ rest => ?_) ⟨(0, 0, 0), by decide⟩ (by simp)
  constructor
  · rintro ⟨ws, ⟨hl, hws⟩, -, rfl⟩
    obtain ⟨f, n, d, rfl⟩ := List.length_eq_three.mp hl
    exact ⟨(f, n, d), by simpa using hws, rfl, rfl⟩
  · rintro ⟨⟨f, n, d⟩, h, -, rfl⟩
    exact ⟨[f, n, d], ⟨rfl, by simpa using h⟩, rfl, rfl⟩

theorem readsSpans_field :
    ReadsSpans (do Reader.skip 6; skipAttributes) Member.Fits (fun _ => ()) Member.passedSpans where
  toBreaksIn := by
    refine (readsSpans_head.bind fun _ _ => readsSpans_u2.bind fun n _ =>
      breaksIn_pass readsSpans_passedAttribute n).congr (fun p => ⟨p.1.1, p.1.2.1, p.1.2.2, p.2.2⟩) ?_ ?_
    · rintro ⟨⟨f, nameIndex, d⟩, n, as⟩ ⟨⟨hf, hname, hd⟩, hn, hlen, has⟩
      obtain rfl : as.length = n := hlen
      exact ⟨⟨hf, hname, hd, hn, has⟩, rfl⟩
    · rintro m ⟨hf, hname, hd, hn, has⟩
      exact ⟨((m.accessFlags, m.nameIndex, m.descriptorIndex), m.attributes.length, m.attributes),
        ⟨⟨hf, hname, hd⟩, hn, rfl, has⟩, rfl⟩
  steady := (steady_skip 6).bind fun _ => steady_skipAttributes
  reads := reads_skippedField.congr fun bs _ rest => by
    simp only [Described, Member.allSound_passedSpans, and_true, Member.bytesOf_passedSpans]

theorem readsSpans_fields (n : Nat) :
    ReadsSpans (Reader.pass (do Reader.skip 6; skipAttributes) n)
      (fun fs : List Member => fs.length = n ∧ ∀ f ∈ fs, f.Fits) (fun _ => ())
      (List.flatMap Member.passedSpans) where
  toBreaksIn := breaksIn_pass readsSpans_field n
  steady := steady_fields n
  reads := (reads_skippedItems reads_skippedField n).congr fun bs _ rest => by
    simp [Described, bytesOf_flatMap Member.bytesOf_passedSpans, Member.allSound_passedSpans]

theorem readsSpans_method (pool : ConstantPool) :
    ReadsSpans (method pool) Member.Fits (Member.method pool) (Member.spans pool) where
  toBreaksIn := by
    refine (readsSpans_u2.bind fun accessFlags _ => readsSpans_u2.bind fun nameIndex _ =>
      readsSpans_u2.bind fun descriptorIndex _ => readsSpans_u2.bind fun n _ =>
      breaksIn_attributes pool n _).congr (fun p => ⟨p.1, p.2.1, p.2.2.1, p.2.2.2.2⟩) ?_ ?_
    · rintro ⟨f, nameIndex, d, n, as⟩ ⟨hf, hname, hd, hn, hlen, has⟩
      obtain rfl : as.length = n := hlen
      exact ⟨⟨hf, hname, hd, hn, has⟩, rfl⟩
    · rintro m ⟨hf, hname, hd, hn, has⟩
      exact ⟨(m.accessFlags, m.nameIndex, m.descriptorIndex, m.attributes.length, m.attributes),
        ⟨hf, hname, hd, hn, rfl, has⟩, rfl⟩
  steady := steady_method pool
  reads := (reads_method pool).congr fun bs m' rest => by
    simp only [Described, Member.allSound_spans, Member.bytesOf_spans]

theorem breaksIn_body :
    BreaksIn (do
      Reader.skip 2
      Reader.skip 2
      let constantPool ← ConstantPool.reader
      Reader.skip 2
      let thisClass ← Reader.u2
      Reader.skip 2
      let interfaces ← Reader.u2
      Reader.skip (interfaces * 2)
      Reader.pass (do Reader.skip 6; skipAttributes) (← Reader.u2)
      let methods ← Reader.times (method constantPool) (← Reader.u2)
      return ClassFile.mk constantPool thisClass methods)
      Layout.Fits fun k => k.spans.tail := by
  refine ((readsSpans_skip_number 2).bind fun _ _ => (readsSpans_skip_number 2).bind fun _ _ =>
    readsSpans_pool.bind fun p _ => (readsSpans_skip_number 2).bind fun _ _ =>
    readsSpans_u2.bind fun _ _ => (readsSpans_skip_number 2).bind fun _ _ =>
    readsSpans_u2.bind fun n _ => (readsSpans_skip_words n).bind fun _ _ =>
    readsSpans_u2.bind fun n _ => (readsSpans_fields n).bind fun _ _ =>
    readsSpans_u2.bind fun n _ => (breaksIn_times (readsSpans_method _) n).bind_pure _).congr
    (fun (minor, major, (count, es), flags, this, super, _, interfaces, _, fields, _, methods) =>
      ⟨minor, major, count, es, flags, this, super, interfaces, fields, methods⟩) ?_ ?_
  · rintro ⟨minor, major, ⟨count, es⟩, flags, this, super, ni, interfaces, nf, fields, nm, methods⟩ h
    obtain ⟨hminor, hmajor, ⟨hcount, hfills, hes⟩, hflags, hthis, hsuper, hni, ⟨hi, his⟩, hnf, ⟨hf, hfs⟩,
      hnm, hm, hms⟩ := h
    dsimp only at hi hf hm
    subst hi hf hm
    refine ⟨⟨⟨hminor, hmajor, hcount, hfills, hes, hflags, hthis, hsuper, hni, his, hnf, hfs, ?_, ?_⟩,
      hnm, hms⟩, by simp [Layout.spans, Layout.pool]⟩
    · exact Nat.pow_pos (by decide)
    · exact List.forall_mem_nil _
  · rintro k ⟨hk, hnm, hms⟩
    exact ⟨(k.minorVersion, k.majorVersion, (k.poolCount, k.constants), k.accessFlags, k.thisClass,
      k.superClass, k.interfaces.length, k.interfaces, k.fields.length, k.fields, k.methods.length,
      k.methods), ⟨hk.minorVersion, hk.majorVersion, ⟨hk.poolCount, hk.fills, hk.constants⟩,
      hk.accessFlags, hk.thisClass, hk.superClass, hk.interfaceCount, ⟨rfl, hk.interfaces⟩, hk.fieldCount,
      ⟨rfl, hk.fields⟩, hnm, rfl, hms⟩, by simp [Layout.spans, Layout.pool]⟩

theorem breaksIn_classFile : BreaksIn reader Layout.Fits Layout.spans := by
  have hmagic : BreaksIn u4 (· = magicNumber) (fun magic => [Span.number 4 magic]) :=
    breaksIn_span ⟨magicNumber, rfl⟩ (fun magic _ => length_numberWire 4 magic) fun _ => rfl
  have hreads : ReadsAs Input.Before u4
      (Described (· < 2 ^ 32) id fun magic => bytesOf [.number 4 magic]) :=
    reads_u4.congr fun bs magic rest => by simp [Written, Described]
  refine (BreaksIn.bind steady_u4 hreads hmagic ?_ ?_ (show ∀ magic, magic = magicNumber →
    BreaksIn _ Layout.Fits fun k => k.spans.tail from ?_)).congr Prod.snd ?_ ?_
  · rintro _ rfl -
    decide
  · intro magic _
    by_cases h : magic = magicNumber
    · exact .inl ⟨h, by simp⟩
    · -- Another number is refused for itself, with nothing lacking.
      refine .inr fun i told ht => ?_
      rw [id, if_neg h] at ht
      cases ht
  · rintro _ rfl
    exact breaksIn_body
  · rintro ⟨magic, k⟩ ⟨hm, hk⟩
    obtain rfl : magic = magicNumber := hm
    exact ⟨hk, rfl⟩
  · exact fun k hk => ⟨(magicNumber, k), ⟨rfl, hk⟩, rfl⟩

theorem truncated_iff {bytes : ByteArray} {told : Nat} :
    parse bytes = .error (.truncated told) ↔ ∃ actual, Truncated bytes.data.toList told actual := by
  rw [parse_eq_error_iff_run, breaksIn_classFile.iff (Input.Before.start bytes)]
  constructor
  · rintro ⟨k, hk, actual, h⟩
    exact ⟨actual, k, hk, h⟩
  · rintro ⟨actual, k, hk, h⟩
    exact ⟨k, hk, actual, h⟩

/-- A truncation is told if and only if the bytes are those of a class file up to something that is lacking,
which should begin at `actual`. The place `told` is the same, unless a word is lacking in the body of an
attribute: then it is the place in that body alone. -/
theorem parse_eq_truncated_iff (bytes : ByteArray) (told : Nat) :
    (parse bytes = .error (.truncated told) ↔ ∃ actual, Truncated bytes.data.toList told actual) ∧
    ∀ actual, Truncated bytes.data.toList told actual → told ≤ actual ∧ actual ≤ bytes.size := by
  refine ⟨truncated_iff, ?_⟩
  rintro actual ⟨k, -, h⟩
  simpa using h.le

/-- The first four bytes are read at once. -/
theorem Truncated.eq_zero_or_le {bs : List UInt8} {told actual : Nat} (h : Truncated bs told actual) :
    actual = 0 ∨ 4 ≤ actual := by
  obtain ⟨k, -, front, s, back, rest, hspans, -, -, hs⟩ := h
  cases front with
  | nil =>
    obtain ⟨rfl, -⟩ : .number 4 magicNumber = s ∧ _ := List.cons.inj hspans
    cases hs with
    | span => exact .inl rfl
    | word _ hw => cases hw
  | cons t front =>
    obtain ⟨rfl, -⟩ : .number 4 magicNumber = t ∧ _ := List.cons.inj hspans
    have hl : 4 ≤ (bytesOf (.number 4 magicNumber :: front)).length := by simp
    cases hs with
    | span => exact .inr (by omega)
    | word => exact .inr (by omega)

def unnamed : Layout where
  minorVersion := 0
  majorVersion := 52
  poolCount := 6
  constants := [.utf8 "A".toUTF8.toList, .classRef 1, .utf8 "f".toUTF8.toList, .utf8 "()V".toUTF8.toList,
    .utf8 "Exceptions".toUTF8.toList]
  accessFlags := 0x21
  thisClass := 2
  superClass := 0
  interfaces := []
  fields := []
  methods := [⟨0x1, 3, 4, [⟨5, [0, 1]⟩]⟩]

theorem unnamed_fits : unnamed.Fits := by
  refine ⟨⟨by decide, by decide, by decide, ?_, by decide +kernel, by decide, by decide, by decide, by decide,
    by decide, by decide, by simp [unnamed], by decide, by simp⟩, by decide, ?_⟩
  · simp [unnamed, Fills, Entry.cells, Constant.cells, Entry.tag]
  · intro m hm
    obtain rfl := List.mem_singleton.mp hm
    refine ⟨by decide, by decide, by decide, by decide, fun a ha => ?_⟩
    obtain rfl := List.mem_singleton.mp ha
    exact ⟨by decide, by decide⟩

/-- The exception is told to be lacking at 2, inside of the magic number. -/
theorem parse_lost_place :
    let bytes : ByteArray := ⟨(unnamed.wire ++ [0, 0]).toArray⟩
    parse bytes = .error (.truncated 2) ∧ Truncated bytes.data.toList 2 68 ∧
      ¬∃ told, Truncated bytes.data.toList told 2 := by
  intro bytes
  have hcut : Truncated bytes.data.toList 2 68 := by
    refine ⟨unnamed, unnamed_fits, unnamed.spans.dropLast, ⟨[0, 1], [0, 2]⟩, [], [0, 1, 0, 0],
      by decide +kernel, by decide +kernel, by decide +kernel, ?_⟩
    have hl : 0 + (bytesOf unnamed.spans.dropLast).length = 66 := by decide +kernel
    rw [hl]
    exact .word ⟨[0, 0], rfl⟩ (by decide) (by decide) (by decide)
  refine ⟨truncated_iff.mpr ⟨68, hcut⟩, hcut, ?_⟩
  rintro ⟨told, h⟩
  rcases h.eq_zero_or_le with h | h
  · cases h
  · exact absurd h (by decide)

end ClassLocator.ClassFile

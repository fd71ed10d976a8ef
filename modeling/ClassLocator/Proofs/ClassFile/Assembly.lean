import ClassLocator.Proofs.ClassFile.ModifiedUtf8
import ClassLocator.Proofs.ClassFile.Parse
import ClassLocator.Proofs.MethodType.Wire
import Mathlib.Data.List.Forall2
/-!
Assembling class files from what a class declares. Names and types go into the constant pool as they
are needed, and constants of other origin stand anywhere between them. Whatever comes later, an index
that was given out keeps what it stands for.
-/

namespace ClassLocator.ClassFile

structure MethodSource where
  accessFlags : Nat
  name : String
  descriptor : MethodType.Descriptor
  signature : Option MethodType.Signature := none
  exceptions : Option (List String) := none

structure ClassSource where
  name : String
  methods : List MethodSource

/-- A constant pool that is being filled. The groups of `padding` are constants of other origin: one
group comes before each constant that is added. -/
structure PoolBuilder where
  entries : List Entry
  padding : List (List Entry)

abbrev Assembler (α : Type) := StateM PoolBuilder α

def slotCount (es : List Entry) : Nat := (es.flatMap Entry.cells).length

namespace Assembler

def add (e : Entry) : Assembler Nat := fun b =>
  let before := b.entries ++ b.padding.headD []
  (1 + slotCount before, ⟨before ++ [e], b.padding.tail⟩)

def text (s : String) : Assembler Nat := add (.utf8 (ModifiedUtf8.encode s))

def className (s : String) : Assembler Nat := do add (.classRef (← text s))

def signature (s : MethodType.Signature) : Assembler Attribute := do
  let nameIndex ← text "Signature"
  let index ← text s.encode
  return ⟨nameIndex, numberWire 2 index⟩

def exceptions (names : List String) : Assembler Attribute := do
  let nameIndex ← text "Exceptions"
  let indexes ← names.mapM className
  return ⟨nameIndex, numberWire 2 indexes.length ++ indexes.flatMap (numberWire 2)⟩

def method (m : MethodSource) : Assembler Member := do
  let nameIndex ← text m.name
  let descriptorIndex ← text m.descriptor.encode
  let signatures ← m.signature.toList.mapM signature
  let tables ← m.exceptions.toList.mapM exceptions
  return ⟨m.accessFlags, nameIndex, descriptorIndex, signatures ++ tables⟩

def members (d : ClassSource) : Assembler (Nat × List Member) := do
  let thisClass ← className d.name
  return (thisClass, ← d.methods.mapM method)

end Assembler

/-- The class file of a public class without fields. The constants of other origin that are left end the
pool. -/
def ClassSource.layout (d : ClassSource) (others : List (List Entry)) : Layout :=
  let r := Assembler.members d ⟨[], others⟩
  let constants := r.2.entries ++ r.2.padding.flatten
  { minorVersion := 0, majorVersion := 52, poolCount := 1 + slotCount constants, constants
    accessFlags := 0x0021, thisClass := r.1.1, superClass := 0, interfaces := [], fields := []
    methods := r.1.2 }

def FitsText (s : String) : Prop := (ModifiedUtf8.encode s).length < 2 ^ 16

instance (s : String) : Decidable (FitsText s) := inferInstanceAs (Decidable (_ < _))

structure MethodSource.Fits (m : MethodSource) : Prop where
  accessFlags : m.accessFlags < 2 ^ 16
  name : FitsText m.name
  descriptor : FitsText m.descriptor.encode
  signature : ∀ s ∈ m.signature, FitsText s.encode
  exceptionCount : ∀ names ∈ m.exceptions, names.length < 2 ^ 16
  exceptions : ∀ names ∈ m.exceptions, ∀ s ∈ names, FitsText s

/-- Everything that is counted or indexed fits the bytes there are for it. -/
structure ClassSource.Fits (d : ClassSource) (others : List (List Entry)) : Prop where
  name : FitsText d.name
  methodCount : d.methods.length < 2 ^ 16
  methods : ∀ m ∈ d.methods, m.Fits
  poolCount : (d.layout others).poolCount < 2 ^ 16
  others : ∀ es ∈ others, ∀ e ∈ es, e.WellFormed

theorem slotCount_append (es es' : List Entry) :
    slotCount (es ++ es') = slotCount es + slotCount es' := by simp [slotCount]

theorem Entry.cells_eq_cons (e : Entry) : ∃ cs, e.cells = e.constant :: cs := by
  unfold Entry.cells Constant.cells
  split
  · exact ⟨_, rfl⟩
  · exact ⟨_, rfl⟩

theorem ConstantPool.get?_ofEntries (es : List Entry) (i : Nat) :
    (ofEntries es).get? i = (.unusable :: es.flatMap Entry.cells)[i]? := by
  simp [get?, ofEntries]

theorem ConstantPool.get?_of_prefix {before es : List Entry} {e : Entry} (h : before ++ [e] <+: es) :
    (ofEntries es).get? (1 + slotCount before) = some e.constant := by
  obtain ⟨after, rfl⟩ := h
  obtain ⟨cs, hcs⟩ := e.cells_eq_cons
  rw [get?_ofEntries, Nat.add_comm, List.getElem?_cons_succ]
  simp [slotCount, hcs]

theorem ConstantPool.lt_of_utf8 {pool : ConstantPool} {i : Nat} {s : String}
    (h : pool.utf8 i = .ok s) : i < pool.entries.size := by
  apply Nat.lt_of_not_le
  intro hi
  simp [utf8, get?, hi] at h

theorem ConstantPool.lt_of_className {pool : ConstantPool} {i : Nat} {s : String}
    (h : pool.className i = .ok s) : i < pool.entries.size := by
  apply Nat.lt_of_not_le
  intro hi
  simp [className, get?, hi] at h

structure PoolBuilder.Sound (b : PoolBuilder) : Prop where
  entries : 1 + slotCount b.entries < 2 ^ 16 → ∀ e ∈ b.entries, e.WellFormed
  padding : ∀ es ∈ b.padding, ∀ e ∈ es, e.WellFormed

/-- An assembler only adds entries, and what it gives holds in every pool that has those entries and
perhaps more behind them. -/
structure Writes {α : Type} (x : Assembler α) (Q : ConstantPool → α → Prop) : Prop where
  grows : ∀ b, b.entries <+: (x b).2.entries
  sound : ∀ b, b.Sound → (x b).2.Sound
  holds : ∀ b es, (x b).2.entries <+: es → Q (.ofEntries es) (x b).1

namespace Writes

variable {α β : Type}

theorem pure {a : α} {Q : ConstantPool → α → Prop} (h : ∀ pool, Q pool a) :
    Writes (pure a : Assembler α) Q where
  grows _ := List.prefix_rfl
  sound _ hb := hb
  holds _ _ _ := h _

theorem bind {x : Assembler α} {f : α → Assembler β} {P : ConstantPool → α → Prop}
    {Q : α → ConstantPool → β → Prop} (hx : Writes x P) (hf : ∀ a, Writes (f a) (Q a)) :
    Writes (x >>= f) (fun pool b => ∃ a, P pool a ∧ Q a pool b) where
  grows b := (hx.grows b).trans ((hf _).grows _)
  sound b hb := (hf _).sound _ (hx.sound b hb)
  holds b es h := ⟨_, hx.holds b es (((hf _).grows _).trans h), (hf _).holds _ es h⟩

theorem mono {x : Assembler α} {P Q : ConstantPool → α → Prop} (hx : Writes x P)
    (h : ∀ pool a, P pool a → Q pool a) : Writes x Q where
  grows := hx.grows
  sound := hx.sound
  holds b es he := h _ _ (hx.holds b es he)

theorem mapM {f : α → Assembler β} {Q : ConstantPool → α → β → Prop} {as : List α}
    (h : ∀ a ∈ as, Writes (f a) fun pool b => Q pool a b) :
    Writes (as.mapM f) fun pool bs => List.Forall₂ (Q pool) as bs := by
  induction as with
  | nil => exact pure fun pool => .nil
  | cons a as ih =>
    rw [List.mapM_cons]
    obtain ⟨ha, has⟩ := List.forall_mem_cons.mp h
    refine (ha.bind fun b => (ih has).bind fun bs => pure (Q := fun pool r => r = b :: bs) ?_).mono ?_
    · exact fun _ => rfl
    · intro pool r hr
      obtain ⟨b, hb, bs, hbs, rfl⟩ := hr
      exact .cons hb hbs

end Writes

namespace Assembler

theorem sound_add {b : PoolBuilder} {e : Entry} (hb : b.Sound)
    (he : 1 + slotCount (b.entries ++ b.padding.headD []) < 2 ^ 16 → e.WellFormed) :
    (add e b).2.Sound where
  entries hs := by
    simp only [add, slotCount_append] at hs he ⊢
    intro e' h'
    simp only [List.mem_append, List.mem_singleton] at h'
    rcases h' with (h' | h') | rfl
    · exact hb.entries (by omega) e' h'
    · cases hp : b.padding with
      | nil => simp [hp] at h'
      | cons es rest =>
        rw [hp] at h'
        exact hb.padding es (by simp [hp]) e' h'
    · exact he (by omega)
  padding es h := hb.padding es (List.mem_of_mem_tail h)

theorem prefix_add (e : Entry) (b : PoolBuilder) : b.entries <+: (add e b).2.entries := by
  simp only [add, List.append_assoc]
  exact List.prefix_append _ _

theorem get?_add {e : Entry} {b : PoolBuilder} {es : List Entry} (h : (add e b).2.entries <+: es) :
    (ConstantPool.ofEntries es).get? (add e b).1 = some e.constant :=
  ConstantPool.get?_of_prefix h

theorem writes_text {s : String} (h : FitsText s) :
    Writes (text s) fun pool i => pool.utf8 i = .ok s where
  grows := prefix_add _
  sound b hb := sound_add hb fun _ => h
  holds b es he := by
    unfold text at he ⊢
    simp [ConstantPool.utf8, get?_add he, Entry.constant, ModifiedUtf8.decode_encode]

theorem writes_className {s : String} (h : FitsText s) :
    Writes (className s) fun pool i => pool.className i = .ok s where
  grows b := ((writes_text h).grows b).trans (prefix_add _ _)
  sound b hb := by
    refine sound_add ((writes_text h).sound b hb) fun hs => ?_
    have hle : (text s b).1 ≤ 1 + slotCount (text s b).2.entries := by
      simp [text, add, slotCount_append]
    have hlt : 1 + slotCount ((text s b).2.entries ++ (text s b).2.padding.headD []) < 2 ^ 16 := hs
    rw [slotCount_append] at hlt
    show (text s b).1 < 2 ^ 16
    omega
  holds b es he := by
    have ht := (writes_text h).holds b es ((prefix_add _ _).trans he)
    have hc : (ConstantPool.ofEntries es).get? (className s b).1 =
        some (.classRef (text s b).1) := get?_add he
    simp [ConstantPool.className, hc, ht]

end Assembler

structure Attribute.HoldsSignature (pool : ConstantPool) (s : MethodType.Signature) (a : Attribute) :
    Prop where
  name : pool.utf8 a.nameIndex = .ok "Signature"
  body : ∃ index, a.body = numberWire 2 index ∧ pool.utf8 index = .ok s.encode

structure Attribute.HoldsExceptions (pool : ConstantPool) (names : List String) (a : Attribute) :
    Prop where
  name : pool.utf8 a.nameIndex = .ok "Exceptions"
  body : ∃ indexes, a.body = numberWire 2 indexes.length ++ indexes.flatMap (numberWire 2) ∧
    List.Forall₂ (fun s index => pool.className index = .ok s) names indexes

/-- An entry of the method table that says what `m` says. -/
structure Member.Holds (pool : ConstantPool) (m : MethodSource) (x : Member) : Prop where
  accessFlags : x.accessFlags = m.accessFlags
  name : pool.utf8 x.nameIndex = .ok m.name
  descriptor : pool.utf8 x.descriptorIndex = .ok m.descriptor.encode
  attributes : ∃ signatures tables, x.attributes = signatures ++ tables ∧
    List.Forall₂ (Attribute.HoldsSignature pool) m.signature.toList signatures ∧
    List.Forall₂ (Attribute.HoldsExceptions pool) m.exceptions.toList tables

namespace Assembler

theorem writes_signature {s : MethodType.Signature} (h : FitsText s.encode) :
    Writes (signature s) fun pool a => a.HoldsSignature pool s := by
  have hn : FitsText "Signature" := by decide
  refine ((writes_text hn).bind fun nameIndex => (writes_text h).bind fun index =>
    Writes.pure (Q := fun pool a => a = ⟨nameIndex, numberWire 2 index⟩) fun _ => rfl).mono ?_
  intro pool a ha
  obtain ⟨_, hname, index, hindex, rfl⟩ := ha
  exact ⟨hname, index, rfl, hindex⟩

theorem writes_exceptions {names : List String} (h : ∀ s ∈ names, FitsText s) :
    Writes (exceptions names) fun pool a => a.HoldsExceptions pool names := by
  have hn : FitsText "Exceptions" := by decide
  refine ((writes_text hn).bind fun nameIndex =>
    (Writes.mapM fun s hs => writes_className (h s hs)).bind fun indexes =>
    Writes.pure (Q := fun pool a =>
      a = ⟨nameIndex, numberWire 2 indexes.length ++ indexes.flatMap (numberWire 2)⟩)
      fun _ => rfl).mono ?_
  intro pool a ha
  obtain ⟨_, hname, indexes, hindexes, rfl⟩ := ha
  exact ⟨hname, indexes, rfl, hindexes⟩

theorem writes_method {m : MethodSource} (h : m.Fits) :
    Writes (method m) fun pool x => x.Holds pool m := by
  have hs : ∀ s ∈ m.signature.toList, FitsText s.encode := fun s hs =>
    h.signature s (Option.mem_toList.mp hs)
  have he : ∀ names ∈ m.exceptions.toList, ∀ s ∈ names, FitsText s := fun names hn =>
    h.exceptions names (Option.mem_toList.mp hn)
  refine ((writes_text h.name).bind fun nameIndex =>
    (writes_text h.descriptor).bind fun descriptorIndex =>
    (Writes.mapM fun s hm => writes_signature (hs s hm)).bind fun signatures =>
    (Writes.mapM fun names hm => writes_exceptions (he names hm)).bind fun tables =>
    Writes.pure (Q := fun pool x =>
      x = ⟨m.accessFlags, nameIndex, descriptorIndex, signatures ++ tables⟩) fun _ => rfl).mono ?_
  intro pool x hx
  obtain ⟨_, hname, _, hdescriptor, signatures, hss, tables, hts, rfl⟩ := hx
  exact ⟨rfl, hname, hdescriptor, signatures, tables, rfl, hss, hts⟩

theorem writes_members {d : ClassSource} (hn : FitsText d.name) (hm : ∀ m ∈ d.methods, m.Fits) :
    Writes (members d) fun pool r => pool.className r.1 = .ok d.name ∧
      List.Forall₂ (fun m x => Member.Holds pool m x) d.methods r.2 := by
  refine ((writes_className hn).bind fun thisClass =>
    (Writes.mapM fun m h => writes_method (hm m h)).bind fun methods =>
    Writes.pure (Q := fun pool r => r = (thisClass, methods)) fun _ => rfl).mono ?_
  intro pool r hr
  obtain ⟨_, hthis, _, hmethods, rfl⟩ := hr
  exact ⟨hthis, hmethods⟩

end Assembler

theorem exists_of_forall₂ {α β : Type} {R : α → β → Prop} {as : List α} {bs : List β}
    (h : List.Forall₂ R as bs) : ∀ b ∈ bs, ∃ a ∈ as, R a b := by
  induction h with
  | nil => simp
  | cons hab _ ih =>
    intro b hb
    cases hb with
    | head => exact ⟨_, .head _, hab⟩
    | tail _ hb =>
      obtain ⟨a, ha, hr⟩ := ih b hb
      exact ⟨a, .tail _ ha, hr⟩

theorem getLast?_rel {α β : Type} {R : α → β → Prop} {o : Option α} {bs : List β}
    (h : List.Forall₂ R o.toList bs) : Option.Rel R o bs.getLast? := by
  cases o with
  | none =>
    obtain rfl := List.forall₂_nil_left_iff.mp h
    exact .none
  | some a =>
    obtain ⟨b, bs, hab, hn, rfl⟩ := List.forall₂_cons_left_iff.mp h
    obtain rfl := List.forall₂_nil_left_iff.mp hn
    exact .some hab

theorem rel_map {α β γ : Type} {R : α → β → Prop} {S : α → γ → Prop} {f : β → γ} {o : Option α}
    {p : Option β} (h : Option.Rel R o p) (hf : ∀ a ∈ o, ∀ b, R a b → S a (f b)) :
    Option.Rel S o (p.map f) := by
  cases h with
  | none => exact .none
  | some hab => exact .some (hf _ rfl _ hab)

section
variable {pool : ConstantPool}

theorem word_body {value : Nat} (h : value < 2 ^ 16) : word (numberWire 2 value) = value := by
  simpa using word_numberWire h []

theorem words_flatMap {values : List Nat} (h : ∀ v ∈ values, v < 2 ^ 16) :
    words values.length (values.flatMap (numberWire 2)) = values := by
  induction values with
  | nil => rfl
  | cons v values ih =>
    obtain ⟨hv, hvs⟩ := List.forall_mem_cons.mp h
    simp only [List.length_cons, words, List.flatMap_cons, word_numberWire hv]
    rw [List.drop_left' (length_numberWire 2 v), ih hvs]

namespace Attribute

theorem isNamed_of_ok {a : Attribute} {name : String} (h : pool.utf8 a.nameIndex = .ok name)
    (other : String) : a.isNamed pool other = decide (name = other) := by
  simp [isNamed, h, Except.toOption]

/-- Attributes that all have the same name are kept or dropped together. -/
theorem filter_isNamed {α : Type} {R : α → Attribute → Prop} {as : List α} {bs : List Attribute}
    {name : String} (h : List.Forall₂ R as bs)
    (hn : ∀ a b, R a b → pool.utf8 b.nameIndex = .ok name) (other : String) :
    bs.filter (·.isNamed pool other) = if name = other then bs else [] := by
  have hall : ∀ b ∈ bs, b.isNamed pool other = decide (name = other) := by
    intro b hb
    obtain ⟨a, -, hab⟩ := exists_of_forall₂ h b hb
    exact isNamed_of_ok (hn a b hab) other
  split
  · next hname => exact List.filter_eq_self.mpr fun b hb => by simp [hall b hb, hname]
  · next hname => exact List.filter_eq_nil_iff.mpr fun b hb => by simp [hall b hb, hname]

theorem HoldsSignature.fits {s : MethodType.Signature} {a : Attribute} (h : a.HoldsSignature pool s)
    (hp : pool.entries.size < 2 ^ 16) : a.Fits ∧ a.Readable pool := by
  obtain ⟨index, hb, -⟩ := h.body
  have hl : a.body.length = 2 := by simp [hb]
  have hn := ConstantPool.lt_of_utf8 h.name
  refine ⟨⟨by omega, by omega⟩, ⟨fun _ => by omega, fun he => ?_⟩⟩
  simp [isNamed_of_ok h.name] at he

theorem HoldsExceptions.indexes_lt {names : List String} {indexes : List Nat}
    (h : List.Forall₂ (fun s index => pool.className index = .ok s) names indexes)
    (hp : pool.entries.size < 2 ^ 16) : ∀ index ∈ indexes, index < 2 ^ 16 := by
  intro index hi
  obtain ⟨s, -, hs⟩ := exists_of_forall₂ h index hi
  have hlt := ConstantPool.lt_of_className hs
  omega

theorem HoldsExceptions.word_body {names : List String} {a : Attribute}
    (h : a.HoldsExceptions pool names) (hn : names.length < 2 ^ 16) (hp : pool.entries.size < 2 ^ 16) :
    word a.body = names.length ∧ a.body.length = 2 + 2 * names.length ∧
      List.Forall₂ (fun s index => pool.className index = .ok s) names
        (words (word a.body) (a.body.drop 2)) := by
  obtain ⟨indexes, hb, hi⟩ := h.body
  have hl : names.length = indexes.length := hi.length_eq
  have hw : word a.body = indexes.length := by rw [hb, word_numberWire (by omega)]
  have hd : a.body.drop 2 = indexes.flatMap (numberWire 2) := by
    rw [hb, List.drop_left' (length_numberWire 2 _)]
  refine ⟨hw.trans hl.symm, ?_, ?_⟩
  · rw [hb, List.length_append, length_numberWire, length_flatMap_numberWire]
    omega
  · rw [hw, hd, words_flatMap (indexes_lt hi hp)]
    exact hi

theorem HoldsExceptions.fits {names : List String} {a : Attribute} (h : a.HoldsExceptions pool names)
    (hn : names.length < 2 ^ 16) (hp : pool.entries.size < 2 ^ 16) : a.Fits ∧ a.Readable pool := by
  obtain ⟨hw, hl, -⟩ := h.word_body hn hp
  have hname := ConstantPool.lt_of_utf8 h.name
  refine ⟨⟨by omega, by omega⟩, ⟨fun hs => ?_, fun _ => ⟨by omega, ?_⟩⟩⟩
  · simp [isNamed_of_ok h.name] at hs
  · rw [List.length_drop, hl, hw]
    omega

end Attribute

namespace Member.Holds

variable {m : MethodSource} {x : Member}

theorem fits (h : x.Holds pool m) (hm : m.Fits) (hp : pool.entries.size < 2 ^ 16) :
    x.Fits ∧ ∀ a ∈ x.attributes, a.Readable pool := by
  obtain ⟨signatures, tables, ha, hs, ht⟩ := h.attributes
  have hall : ∀ a ∈ x.attributes, a.Fits ∧ a.Readable pool := by
    intro a hmem
    rw [ha, List.mem_append] at hmem
    cases hmem with
    | inl hmem =>
      obtain ⟨s, -, hr⟩ := exists_of_forall₂ hs a hmem
      exact hr.fits hp
    | inr hmem =>
      obtain ⟨names, hn, hr⟩ := exists_of_forall₂ ht a hmem
      exact hr.fits (hm.exceptionCount names (Option.mem_toList.mp hn)) hp
  have hname := ConstantPool.lt_of_utf8 h.name
  have hdescriptor := ConstantPool.lt_of_utf8 h.descriptor
  have hcount : x.attributes.length ≤ 2 := by
    have hls := hs.length_eq
    have hlt := ht.length_eq
    rw [ha, List.length_append, ← hls, ← hlt]
    have hs₁ : m.signature.toList.length ≤ 1 := by cases m.signature <;> simp
    have ht₁ : m.exceptions.toList.length ≤ 1 := by cases m.exceptions <;> simp
    omega
  refine ⟨⟨?_, by omega, by omega, by omega, fun a h => (hall a h).1⟩, fun a h => (hall a h).2⟩
  rw [h.accessFlags]
  exact hm.accessFlags

theorem filter_isNamed (h : x.Holds pool m) : ∃ signatures tables,
    List.Forall₂ (Attribute.HoldsSignature pool) m.signature.toList signatures ∧
    List.Forall₂ (Attribute.HoldsExceptions pool) m.exceptions.toList tables ∧
    ∀ name, x.attributes.filter (·.isNamed pool name) =
      (if "Signature" = name then signatures else []) ++ if "Exceptions" = name then tables else [] := by
  obtain ⟨signatures, tables, ha, hs, ht⟩ := h.attributes
  refine ⟨signatures, tables, hs, ht, fun name => ?_⟩
  rw [ha, List.filter_append, Attribute.filter_isNamed hs fun _ _ hr => hr.name,
    Attribute.filter_isNamed ht fun _ _ hr => hr.name]

theorem signatureIndex (h : x.Holds pool m) (hp : pool.entries.size < 2 ^ 16) :
    Option.Rel (fun s index => pool.utf8 index = .ok s.encode) m.signature
      (x.method pool).signatureIndex := by
  obtain ⟨signatures, tables, hs, -, hfilter⟩ := h.filter_isNamed
  simp only [method, lastBody?, Option.map_map, hfilter]
  refine rel_map (getLast?_rel (by simpa using hs)) fun s _ a ha => ?_
  obtain ⟨index, hb, hi⟩ := ha.body
  have hlt := ConstantPool.lt_of_utf8 hi
  have hw : word a.body = index := by rw [hb, word_body (by omega)]
  rwa [Function.comp_apply, hw]

theorem exceptionIndexes (h : x.Holds pool m) (hm : m.Fits) (hp : pool.entries.size < 2 ^ 16) :
    Option.Rel (List.Forall₂ fun s index => pool.className index = .ok s) m.exceptions
      (x.method pool).exceptionIndexes := by
  obtain ⟨signatures, tables, -, ht, hfilter⟩ := h.filter_isNamed
  simp only [method, lastBody?, Option.map_map, hfilter]
  refine rel_map (getLast?_rel (by simpa using ht)) fun names hn a ha => ?_
  exact (ha.word_body (hm.exceptionCount names hn) hp).2.2

end Member.Holds

end

theorem fills_slotCount (index : Nat) (es : List Entry) : Fills (index + slotCount es) index es := by
  induction es generalizing index with
  | nil => exact Nat.le_refl index
  | cons e es ih =>
    obtain ⟨cs, hcs⟩ := e.cells_eq_cons
    have hl : slotCount (e :: es) = e.cells.length + slotCount es := by simp [slotCount]
    have hpos : 0 < e.cells.length := by simp [hcs]
    refine ⟨by omega, ?_⟩
    rw [hl, ← Nat.add_assoc]
    exact ih _

namespace ClassSource

variable {d : ClassSource} {others : List (List Entry)}

theorem layout_writes (h : d.Fits others) :
    (d.layout others).pool.className (d.layout others).thisClass = .ok d.name ∧
      List.Forall₂ (fun m x => Member.Holds (d.layout others).pool m x) d.methods
        (d.layout others).methods :=
  (Assembler.writes_members h.name h.methods).holds _ _ (List.prefix_append _ _)

theorem layout_constants (h : d.Fits others) : ∀ e ∈ (d.layout others).constants, e.WellFormed := by
  have hstart : PoolBuilder.Sound ⟨[], others⟩ := ⟨by simp, h.others⟩
  have hsound := (Assembler.writes_members h.name h.methods).sound _ hstart
  have hcount := h.poolCount
  simp only [layout, slotCount_append] at hcount
  intro e he
  simp only [layout, List.mem_append] at he
  cases he with
  | inl he => exact hsound.entries (by omega) e he
  | inr he =>
    obtain ⟨es, hes, he⟩ := List.mem_flatten.mp he
    exact hsound.padding es hes e he

theorem layout_pool_size (h : d.Fits others) : (d.layout others).pool.entries.size < 2 ^ 16 := by
  have hsize : (d.layout others).pool.entries.size = (d.layout others).poolCount := by
    simp [Layout.pool, ConstantPool.ofEntries, layout, slotCount, Nat.add_comm]
  rw [hsize]
  exact h.poolCount

theorem layout_wellFormed (h : d.Fits others) : (d.layout others).WellFormed := by
  obtain ⟨hthis, hmethods⟩ := layout_writes h
  have hp := layout_pool_size h
  have hlt := ConstantPool.lt_of_className hthis
  exact {
    minorVersion := by simp [layout]
    majorVersion := by simp [layout]
    poolCount := h.poolCount
    fills := fills_slotCount 1 _
    constants := layout_constants h
    accessFlags := by simp [layout]
    thisClass := by omega
    superClass := by simp [layout]
    interfaceCount := by simp [layout]
    interfaces := by simp [layout]
    fieldCount := by simp [layout]
    fields := by simp [layout]
    methodCount := hmethods.length_eq ▸ h.methodCount
    methods := fun x hx => by
      obtain ⟨m, hm, hr⟩ := exists_of_forall₂ hmethods x hx
      exact hr.fits (h.methods m hm) hp }

end ClassSource

end ClassLocator.ClassFile

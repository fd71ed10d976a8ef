import ClassLocator.Proofs.ClassFile.Layout
import Mathlib.Data.List.Basic
/-!
Class files as the spans that are read one behind the other, and where a file breaks off. A number is a
span, so is what is passed over at once, such as the table of interfaces, and so is an attribute's body,
inside which words are looked for only when all of it is there.
-/

namespace ClassLocator.ClassFile

/-- Bytes of a class file that are read at once, and the places inside where words are looked for. -/
structure Span where
  bytes : List UInt8
  words : List Nat := []
  deriving DecidableEq, Repr

namespace Span

def number (n value : Nat) : Span := ⟨numberWire n value, []⟩

@[simp] theorem bytes_number (n value : Nat) : (number n value).bytes = numberWire n value := rfl

def Sound (s : Span) : Prop := ∀ w ∈ s.words, w + 2 ≤ s.bytes.length

instance : DecidablePred Sound := fun s => List.decidableBAll _ s.words

@[simp] theorem sound_plain (bytes : List UInt8) : Sound ⟨bytes, []⟩ := List.forall_mem_nil _

@[simp] theorem sound_number (n value : Nat) : (number n value).Sound := sound_plain _

/-- With `rest` left of the file at `start`, a span is lacking if `rest` is shorter than it. A word inside a
span that is there is lacking if the span ends before the word does. What is lacking should begin at `actual`
in the file; for a word, `told` is its place in the span alone. -/
inductive Lacks (s : Span) (start : Nat) (rest : List UInt8) : (told actual : Nat) → Prop
  | span (h : rest.length < s.bytes.length) : Lacks s start rest start start
  | word {w : Nat} (h : s.bytes <+: rest) (hw : w ∈ s.words) (hle : w ≤ s.bytes.length)
      (hlt : s.bytes.length < w + 2) : Lacks s start rest w (start + w)

end Span

def bytesOf (spans : List Span) : List UInt8 := spans.flatMap Span.bytes

@[simp] theorem bytesOf_nil : bytesOf [] = [] := rfl

@[simp] theorem bytesOf_cons (s : Span) (ss : List Span) : bytesOf (s :: ss) = s.bytes ++ bytesOf ss :=
  rfl

@[simp] theorem bytesOf_append (ss ts : List Span) : bytesOf (ss ++ ts) = bytesOf ss ++ bytesOf ts :=
  List.flatMap_append

theorem bytesOf_flatMap {δ : Type} {spans : δ → List Span} {wire : δ → List UInt8}
    (h : ∀ d, bytesOf (spans d) = wire d) (ds : List δ) :
    bytesOf (ds.flatMap spans) = ds.flatMap wire := by
  induction ds with
  | nil => rfl
  | cons d ds ih => rw [List.flatMap_cons, List.flatMap_cons, bytesOf_append, h, ih]

def AllSound (spans : List Span) : Prop := ∀ s ∈ spans, s.Sound

instance : DecidablePred AllSound := fun spans => List.decidableBAll _ spans

@[simp] theorem allSound_nil : AllSound [] := List.forall_mem_nil _

@[simp] theorem allSound_cons {s : Span} {ss : List Span} :
    AllSound (s :: ss) ↔ s.Sound ∧ AllSound ss := List.forall_mem_cons

theorem allSound_append {ss ts : List Span} : AllSound (ss ++ ts) ↔ AllSound ss ∧ AllSound ts :=
  List.forall_mem_append

@[simp] theorem allSound_flatMap {δ : Type} {spans : δ → List Span} {ds : List δ} :
    AllSound (ds.flatMap spans) ↔ ∀ d ∈ ds, AllSound (spans d) := List.forall_mem_flatMap

def Breaks (spans : List Span) (start : Nat) (bs : List UInt8) (told actual : Nat) : Prop :=
  ∃ front s back rest, spans = front ++ s :: back ∧ AllSound front ∧ bs = bytesOf front ++ rest ∧
    s.Lacks (start + (bytesOf front).length) rest told actual

section Breaks

variable {ss ts : List Span} {s : Span} {start told actual : Nat} {bs : List UInt8}

theorem not_breaks_nil : ¬Breaks [] start bs told actual := by
  rintro ⟨front, s, back, -, h, -⟩
  simp at h

theorem breaks_singleton : Breaks [s] start bs told actual ↔ s.Lacks start bs told actual := by
  constructor
  · rintro ⟨front, t, back, rest, h, -, rfl, ht⟩
    obtain ⟨rfl, rfl, rfl⟩ : front = [] ∧ s = t ∧ back = [] := by
      cases front with
      | nil => simpa using h
      | cons t' front => simp at h
    exact ht
  · intro h
    exact ⟨[], s, [], bs, rfl, allSound_nil, rfl, h⟩

theorem breaks_append :
    Breaks (ss ++ ts) start bs told actual ↔
      Breaks ss start bs told actual ∨ AllSound ss ∧ ∃ rest, bs = bytesOf ss ++ rest ∧
        Breaks ts (start + (bytesOf ss).length) rest told actual := by
  constructor
  · rintro ⟨front, s, back, rest, h, hsound, rfl, hs⟩
    rcases List.append_eq_append_iff.mp h with ⟨front', rfl, rfl⟩ | ⟨back', rfl, hback⟩
    · obtain ⟨hss, hsound'⟩ := allSound_append.mp hsound
      refine .inr ⟨hss, bytesOf front' ++ rest, by simp, front', s, back, rest, rfl, hsound', rfl, ?_⟩
      simpa [Nat.add_assoc] using hs
    · cases back' with
      | nil =>
        obtain rfl : s :: back = ts := hback
        rw [List.append_nil]
        exact .inr ⟨hsound, rest, rfl, [], s, back, rest, rfl, allSound_nil, rfl,
          by simpa using hs⟩
      | cons s' back' =>
        obtain ⟨rfl, rfl⟩ := List.cons.inj hback
        exact .inl ⟨front, s, back', rest, rfl, hsound, rfl, hs⟩
  · rintro (⟨front, s, back, rest, rfl, hsound, rfl, hs⟩ |
      ⟨hss, _, rfl, front, s, back, rest, rfl, hsound, rfl, hs⟩)
    · exact ⟨front, s, back ++ ts, rest, by simp, hsound, rfl, hs⟩
    · refine ⟨ss ++ front, s, back, rest, by simp, allSound_append.mpr ⟨hss, hsound⟩, by simp, ?_⟩
      simpa [Nat.add_assoc] using hs

/-- What is told is a place in the file, and no later than what is lacking. -/
theorem Breaks.le (h : Breaks ss start bs told actual) :
    told ≤ actual ∧ actual ≤ start + bs.length := by
  obtain ⟨front, s, back, rest, -, -, rfl, hs⟩ := h
  simp only [List.length_append]
  cases hs with
  | span h => omega
  | word h hw hle hlt =>
    have hl := h.length_le
    omega

end Breaks

namespace Entry

def payloadSpans : Entry → List Span
  | utf8 bytes => [.number 2 bytes.length, ⟨bytes, []⟩]
  | classRef nameIndex => [.number 2 nameIndex]
  | other _ payload => [⟨payload, []⟩]

def spans (e : Entry) : List Span := ⟨[e.tag], []⟩ :: e.payloadSpans

theorem bytesOf_payloadSpans (e : Entry) : bytesOf e.payloadSpans = e.payload := by
  cases e <;> simp [payloadSpans, payload]

theorem bytesOf_spans (e : Entry) : bytesOf e.spans = e.wire := by
  simp [spans, wire, bytesOf_payloadSpans]

@[simp] theorem allSound_payloadSpans (e : Entry) : AllSound e.payloadSpans := by
  cases e <;> simp [payloadSpans]

end Entry

namespace Attribute

def places (pool : ConstantPool) (a : Attribute) : List Nat :=
  if a.isNamed pool "Signature" then [0]
  else if a.isNamed pool "Exceptions" then 0 :: (List.range (word a.body)).map fun j => 2 + 2 * j
  else []

def spans (a : Attribute) (words : List Nat) : List Span :=
  [.number 2 a.nameIndex, .number 4 a.body.length, ⟨a.body, words⟩]

theorem bytesOf_spans (a : Attribute) (words : List Nat) : bytesOf (a.spans words) = a.wire := by
  simp [spans, wire]

@[simp] theorem allSound_spans {a : Attribute} {words : List Nat} :
    AllSound (a.spans words) ↔ ∀ w ∈ words, w + 2 ≤ a.body.length := by
  simp only [spans, allSound_cons, Span.sound_number, true_and, allSound_nil, and_true]
  rfl

theorem readable_iff {pool : ConstantPool} {a : Attribute} :
    a.Readable pool ↔ AllSound (a.spans (a.places pool)) := by
  rw [allSound_spans, places]
  by_cases hs : a.isNamed pool "Signature"
  · have he : ¬a.isNamed pool "Exceptions" := by
      simp only [isNamed, decide_eq_true_eq] at hs ⊢
      simp [hs]
    rw [if_pos hs]
    constructor
    · intro h w hw
      obtain rfl := List.mem_singleton.mp hw
      exact h.signature hs
    · intro h
      exact ⟨fun _ => h 0 (List.mem_singleton.mpr rfl), fun h => absurd h he⟩
  by_cases he : a.isNamed pool "Exceptions"
  · rw [if_neg hs, if_pos he]
    constructor
    · intro h w hw
      obtain ⟨hcount, hindexes⟩ := h.exceptions he
      rw [List.length_drop] at hindexes
      rcases List.mem_cons.mp hw with rfl | hw
      · exact hcount
      · obtain ⟨j, hj, rfl⟩ := List.mem_map.mp hw
        have hj := List.mem_range.mp hj
        omega
    · intro h
      have hcount := h 0 List.mem_cons_self
      refine ⟨fun h => absurd h hs, fun _ => ⟨hcount, ?_⟩⟩
      rw [List.length_drop]
      -- The last index that is looked for is the one that tells.
      cases hn : word a.body with
      | zero => omega
      | succ n =>
        have hlast := h (2 + 2 * n) (List.mem_cons_of_mem _ (List.mem_map.mpr ⟨n, by simp [hn], rfl⟩))
        omega
  · rw [if_neg hs, if_neg he]
    exact iff_of_true ⟨fun h => absurd h hs, fun h => absurd h he⟩ (List.forall_mem_nil _)

end Attribute

namespace Member

def passedSpans (m : Member) : List Span :=
  ⟨[m.accessFlags, m.nameIndex, m.descriptorIndex].flatMap (numberWire 2), []⟩ ::
    .number 2 m.attributes.length :: m.attributes.flatMap (·.spans [])

def spans (pool : ConstantPool) (m : Member) : List Span :=
  .number 2 m.accessFlags :: .number 2 m.nameIndex :: .number 2 m.descriptorIndex ::
    .number 2 m.attributes.length :: m.attributes.flatMap fun a => a.spans (a.places pool)

theorem bytesOf_passedSpans (m : Member) : bytesOf m.passedSpans = m.wire := by
  have h := bytesOf_flatMap (fun a : Attribute => a.bytesOf_spans []) m.attributes
  simp [passedSpans, wire, h]

theorem bytesOf_spans (pool : ConstantPool) (m : Member) : bytesOf (m.spans pool) = m.wire := by
  have h := bytesOf_flatMap (fun a : Attribute => a.bytesOf_spans (a.places pool)) m.attributes
  simp [spans, wire, h]

theorem allSound_passedSpans (m : Member) : AllSound m.passedSpans := by
  simp [passedSpans]

theorem allSound_spans {pool : ConstantPool} {m : Member} :
    AllSound (m.spans pool) ↔ ∀ a ∈ m.attributes, a.Readable pool := by
  simp only [spans, allSound_cons, Span.sound_number, true_and, allSound_flatMap, Attribute.readable_iff]

end Member

namespace Layout

def spans (k : Layout) : List Span :=
  .number 4 magicNumber :: .number 2 k.minorVersion :: .number 2 k.majorVersion ::
  .number 2 k.poolCount :: k.constants.flatMap Entry.spans ++
  .number 2 k.accessFlags :: .number 2 k.thisClass :: .number 2 k.superClass ::
  .number 2 k.interfaces.length :: ⟨k.interfaces.flatMap (numberWire 2), []⟩ ::
  .number 2 k.fields.length :: k.fields.flatMap Member.passedSpans ++
  .number 2 k.methods.length :: k.methods.flatMap (Member.spans k.pool)

theorem bytesOf_spans (k : Layout) : bytesOf k.spans = k.wire := by
  have hc := bytesOf_flatMap Entry.bytesOf_spans k.constants
  have hf := bytesOf_flatMap Member.bytesOf_passedSpans k.fields
  have hm := bytesOf_flatMap (Member.bytesOf_spans k.pool) k.methods
  simp [spans, wire, hc, hf, hm]

/-- All that a layout needs but the words in the bodies of attributes. -/
def Fits (k : Layout) : Prop :=
  ({ k with methods := [] } : Layout).WellFormed ∧ k.methods.length < 2 ^ 16 ∧ ∀ m ∈ k.methods, m.Fits

end Layout

/-- The bytes are those of a class file up to something that is lacking. -/
def Truncated (bs : List UInt8) (told actual : Nat) : Prop :=
  ∃ k : Layout, k.Fits ∧ Breaks k.spans 0 bs told actual

end ClassLocator.ClassFile

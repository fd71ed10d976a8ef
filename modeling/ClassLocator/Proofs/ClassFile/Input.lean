import ClassLocator.Proofs.Reading
import ClassLocator.ClassFile.Input
import Mathlib.Algebra.Group.Nat.Defs
import Mathlib.Data.List.Induction

namespace ClassLocator.ClassFile

def Input.Before (i : Input) (bs : List UInt8) : Prop :=
  i.position ≤ i.bytes.size ∧ i.bytes.data.toList.drop i.position = bs

def numberWire : (n value : Nat) → List UInt8
  | 0, _ => []
  | n + 1, value => numberWire n (value / 256) ++ [UInt8.ofNat value]

@[simp] theorem length_numberWire (n value : Nat) : (numberWire n value).length = n := by
  induction n generalizing value with
  | zero => rfl
  | succ n ih => simp [numberWire, ih]

theorem length_flatMap_numberWire (n : Nat) (values : List Nat) :
    (values.flatMap (numberWire n)).length = values.length * n := by
  induction values with
  | nil => simp
  | cons value values ih => simp [ih, Nat.add_mul, Nat.add_comm]

theorem exists_numberWire (bs : List UInt8) :
    ∃ value, value < 256 ^ bs.length ∧ numberWire bs.length value = bs := by
  induction bs using List.reverseRecOn with
  | nil => exact ⟨0, by simp, rfl⟩
  | append_singleton bs b ih =>
    obtain ⟨value, hv, hw⟩ := ih
    have hb : b.toNat < 256 := b.toNat_lt
    refine ⟨value * 256 + b.toNat, ?_, ?_⟩
    · simp only [List.length_append, List.length_singleton, Nat.pow_succ]
      omega
    · have hq : (value * 256 + b.toNat) / 256 = value := by omega
      simp [numberWire, hq, hw]

namespace Input.Before

variable {i : Input} {bs : List UInt8}

theorem length (h : i.Before bs) : i.position + bs.length = i.bytes.size := by
  have hs : i.bytes.data.toList.length = i.bytes.size := rfl
  have hl := congrArg List.length h.2
  have hp := h.1
  simp only [List.length_drop, hs] at hl
  omega

theorem start (bytes : ByteArray) : Before ⟨bytes, 0⟩ bytes.data.toList := ⟨Nat.zero_le _, rfl⟩

theorem move (h : i.Before bs) {n : Nat} (hn : n ≤ bs.length) :
    Before { i with position := i.position + n } (bs.drop n) := by
  have hl := h.length
  refine ⟨by show i.position + n ≤ i.bytes.size; omega, ?_⟩
  rw [← h.2, List.drop_drop]

end Input.Before

namespace Reader

variable {α : Type}

theorem reads_span {n : Nat} {f : Input → α} {P : List UInt8 → α → Prop}
    (hf : ∀ i bs tail, i.Before (bs ++ tail) → bs.length = n → P bs (f i))
    (hu : ∀ bs a b, P bs a → P bs b → a = b) :
    ReadsAs Input.Before
      (fun i => if i.position + n ≤ i.bytes.size then
          .ok (f i, { i with position := i.position + n })
        else .error (Failure.truncated i.position))
      fun bs a tail => ∃ front, front.length = n ∧ P front a ∧ bs = front ++ tail where
  sound {i bs a i'} hi hr := by
    have hl := hi.length
    split at hr
    · cases hr
      have hn : (bs.take n).length = n := by simp; omega
      have hb := hf i (bs.take n) (bs.drop n) (by rwa [List.take_append_drop]) hn
      exact ⟨_, ⟨_, hn, hb, (List.take_append_drop n bs).symm⟩, hi.move (by omega)⟩
    · cases hr
  complete {i bs a tail} hi ht := by
    obtain ⟨front, rfl, ha, rfl⟩ := ht
    have hl := hi.length
    simp only [List.length_append] at hl
    have hm := hi.move (n := front.length) (by simp)
    rw [List.drop_left] at hm
    exact ⟨_, by rw [if_pos (by omega), hu _ _ _ ha (hf i front tail hi rfl)], hm⟩

theorem reads_skip (n : Nat) :
    ReadsAs Input.Before (skip n) fun bs _ tail => ∃ front, front.length = n ∧ bs = front ++ tail := by
  have h := reads_span (n := n) (f := fun _ => ()) (P := fun _ _ => True) (by simp) (by simp)
  exact h.congr fun bs a tail => by simp

theorem reads_take (n : Nat) :
    ReadsAs Input.Before (take n) fun bs body tail =>
      body.size = n ∧ bs = body.data.toList ++ tail := by
  have h := reads_span (n := n) (f := fun i => i.bytes.extract i.position (i.position + n))
    (P := fun bs body => body.data.toList = bs) ?_ ?_
  · refine h.congr fun bs body tail => ?_
    constructor
    · intro ht
      obtain ⟨front, hn, rfl, rfl⟩ := ht
      exact ⟨hn, rfl⟩
    · intro ht
      exact ⟨_, ht.1, rfl, ht.2⟩
  · intro i bs tail hi hn
    rw [ByteArray.data_extract, Array.toList_extract, List.extract_eq_take_drop, hi.2, ← hn]
    simp
  · intro bs a b ha hb
    exact ByteArray.ext (Array.toList_inj.mp (ha.trans hb.symm))

theorem getElem?_data (bytes : ByteArray) (k : Nat) : bytes[k]? = bytes.data[k]? := by
  by_cases h : k < bytes.size
  · rw [getElem?_pos bytes k h, getElem?_pos bytes.data k h]
    rfl
  · rw [getElem?_neg bytes k h, getElem?_neg bytes.data k h]

theorem bigEndian_eq {bytes : ByteArray} {position n value : Nat} {tail : List UInt8}
    (h : bytes.data.toList.drop position = numberWire n value ++ tail) (hv : value < 256 ^ n) :
    bigEndian bytes position n = value := by
  induction n generalizing value tail with
  | zero =>
    simp only [Nat.pow_zero, Nat.lt_one_iff] at hv
    simp [bigEndian, hv]
  | succ n ih =>
    rw [numberWire, List.append_assoc] at h
    have hq : bigEndian bytes position n = value / 256 :=
      ih h (Nat.div_lt_of_lt_mul (by rwa [Nat.mul_comm, ← Nat.pow_succ]))
    have hb : bytes.data[position + n]? = some (UInt8.ofNat value) := by
      have hg := congrArg (·[n]?) h
      simp only [List.getElem?_drop] at hg
      rw [List.getElem?_append_right (by simp)] at hg
      simpa using hg
    rw [bigEndian, hq, getElem?_data, hb]
    simp only [Option.getD_some, UInt8.toNat_ofNat']
    omega

theorem numberWire_inj {n a b : Nat} (ha : a < 256 ^ n) (hb : b < 256 ^ n)
    (h : numberWire n a = numberWire n b) : a = b := by
  have hw : ∀ v, v < 256 ^ n → numberWire n v = numberWire n a →
      bigEndian ⟨(numberWire n a).toArray⟩ 0 n = v := by
    intro v hv he
    have hd : (numberWire n a).drop 0 = numberWire n v ++ [] := by simp [he]
    exact bigEndian_eq hd hv
  exact (hw a ha rfl).symm.trans (hw b hb h.symm)

theorem reads_number (n : Nat) :
    ReadsAs Input.Before (number n) (Written (· < 256 ^ n) (numberWire n)) := by
  have h := reads_span (n := n) (f := fun i => bigEndian i.bytes i.position n)
    (P := fun bs v => v < 256 ^ n ∧ bs = numberWire n v) ?_ ?_
  · refine h.congr fun bs v tail => ?_
    constructor
    · intro ht
      obtain ⟨_, -, ⟨hv, rfl⟩, rfl⟩ := ht
      exact ⟨hv, rfl⟩
    · intro ht
      exact ⟨_, length_numberWire n v, ⟨ht.1, rfl⟩, ht.2⟩
  · intro i bs tail hi hn
    obtain ⟨v, hv, hw⟩ := exists_numberWire bs
    rw [hn] at hv hw
    rw [← hw] at hi
    rw [bigEndian_eq hi.2 hv]
    exact ⟨hv, hw.symm⟩
  · intro bs a b ha hb
    exact numberWire_inj ha.1 hb.1 (ha.2.symm.trans hb.2)

theorem reads_u1 :
    ReadsAs Input.Before u1 fun bs b tail => bs = b :: tail := by
  refine ((reads_number 1).bind fun v => .pure v.toUInt8).congr fun bs b tail => ?_
  constructor
  · intro h
    obtain ⟨v, _, ⟨-, rfl⟩, rfl, rfl⟩ := h
    rfl
  · intro h
    subst h
    exact ⟨b.toNat, tail, ⟨b.toNat_lt, by simp [numberWire]⟩, by simp, rfl⟩

theorem reads_skip_number (n : Nat) :
    ReadsAs Input.Before (skip n) (Described (· < 256 ^ n) (fun _ => ()) (numberWire n)) := by
  refine (reads_skip n).congr fun bs _ tail => ?_
  constructor
  · intro h
    obtain ⟨front, rfl, rfl⟩ := h
    obtain ⟨v, hv, hw⟩ := exists_numberWire front
    exact ⟨v, hv, rfl, by rw [hw]⟩
  · intro h
    obtain ⟨v, -, -, rfl⟩ := h
    exact ⟨_, length_numberWire n v, rfl⟩

section
variable {item : Reader α} {takes : List UInt8 → α → List UInt8 → Prop}

theorem reads_timesAfter (hi : ReadsAs Input.Before item takes) (n : Nat) (before : List α) :
    ReadsAs Input.Before (timesAfter item n before) fun bs as tail =>
      ∃ more, Repeated takes n bs more tail ∧ as = before.reverse ++ more := by
  induction n generalizing before with
  | zero =>
    refine (ReadsAs.pure before.reverse).congr fun bs as tail => ?_
    simp [Repeated]
    tauto
  | succ n ih =>
    refine (hi.bind fun a => ih (a :: before)).congr fun bs as tail => ?_
    constructor
    · intro h
      obtain ⟨a, m, ha, more, hm, rfl⟩ := h
      exact ⟨a :: more, ⟨a, m, more, ha, hm, rfl⟩, by simp⟩
    · intro h
      obtain ⟨_, ⟨a, m, more, ha, hm, rfl⟩, rfl⟩ := h
      exact ⟨a, m, ha, more, hm, by simp⟩

theorem reads_times (hi : ReadsAs Input.Before item takes) (n : Nat) :
    ReadsAs Input.Before (times item n) (Repeated takes n) :=
  (reads_timesAfter hi n []).congr fun bs as tail => by simp

theorem fails_timesAfter (hi : ReadsAs Input.Before item takes) {j n : Nat} (hj : j < n)
    {bs m : List UInt8} {as : List α} (hr : Repeated takes j bs as m) {e : Failure}
    (hf : FailsAt Input.Before item m e) (before : List α) :
    FailsAt Input.Before (timesAfter item n before) bs e := by
  induction j generalizing n bs as before with
  | zero =>
    obtain ⟨n, rfl⟩ := Nat.exists_eq_succ_of_ne_zero (Nat.ne_of_gt hj)
    obtain ⟨-, rfl⟩ := hr
    exact hf.bind
  | succ j ih =>
    obtain ⟨n, rfl⟩ := Nat.exists_eq_succ_of_ne_zero (Nat.ne_of_gt (Nat.zero_lt_of_lt hj))
    obtain ⟨a, _, _, ha, hr, -⟩ := hr
    exact hi.bind_fails ha (ih (Nat.lt_of_succ_lt_succ hj) hr (a :: before))

theorem reads_within (hi : ReadsAs Input.Before item takes) (body : ByteArray) :
    ReadsAs Input.Before (within body item) fun bs a tail =>
      tail = bs ∧ ∃ left, takes body.data.toList a left where
  sound {i bs a i'} hb hr := by
    unfold within at hr
    split at hr
    · rename_i b i₁ h₁
      cases hr
      obtain ⟨left, hl, -⟩ := hi.sound (Input.Before.start body) h₁
      exact ⟨bs, ⟨rfl, left, hl⟩, hb⟩
    · cases hr
  complete {i bs a tail} hb ht := by
    obtain ⟨rfl, left, hl⟩ := ht
    obtain ⟨i₁, h₁, -⟩ := hi.complete (Input.Before.start body) hl
    exact ⟨i, by simp [within, h₁], hb⟩

end

theorem reads_pass {item : Reader Unit} {takes : List UInt8 → Unit → List UInt8 → Prop}
    (hi : ReadsAs Input.Before item takes) (n : Nat) :
    ReadsAs Input.Before (pass item n) fun bs _ tail => ∃ us, Repeated takes n bs us tail := by
  induction n with
  | zero =>
    refine (ReadsAs.pure ()).congr fun bs _ tail => ?_
    simp [Repeated]
  | succ n ih =>
    refine (hi.bind fun _ => ih).congr fun bs _ tail => ?_
    constructor
    · intro h
      obtain ⟨u, m, hu, us, hm⟩ := h
      exact ⟨u :: us, u, m, us, hu, hm, rfl⟩
    · intro h
      obtain ⟨_, u, m, us, hu, hm, -⟩ := h
      exact ⟨u, m, hu, us, hm⟩

end Reader

end ClassLocator.ClassFile

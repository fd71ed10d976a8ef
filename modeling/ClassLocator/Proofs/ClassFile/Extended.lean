import ClassLocator.Proofs.ClassFile.Parse
/-!
Class files with more bytes behind them. Main statement: a class file has an end; a cut in front of it is a
truncation, and what stands behind it makes no difference. A failure that is no truncation stays the same
whatever follows.
-/

namespace ClassLocator.ClassFile

def Input.extend (i : Input) (more : ByteArray) : Input := { i with bytes := i.bytes ++ more }

namespace Reader

variable {α β : Type}

/-- More bytes behind the input change nothing, unless the reader failed for want of them. -/
structure Steady (r : Reader α) : Prop where
  of_ok : ∀ {i a i'}, i.position ≤ i.bytes.size → r i = .ok (a, i') →
    i'.bytes = i.bytes ∧ i'.position ≤ i.bytes.size ∧ ∀ more, r (i.extend more) = .ok (a, i'.extend more)
  of_error : ∀ {i e}, i.position ≤ i.bytes.size → r i = .error e →
    (∃ p ≤ i.bytes.size, e = .truncated p) ∨ ∀ more, r (i.extend more) = .error e

theorem size_extend (i : Input) (more : ByteArray) :
    (i.extend more).bytes.size = i.bytes.size + more.size := ByteArray.size_append

theorem steady_span {n : Nat} {f : Input → α}
    (hf : ∀ (i : Input) more, i.position + n ≤ i.bytes.size → f (i.extend more) = f i) :
    Steady (fun i => if i.position + n ≤ i.bytes.size then
        .ok (f i, { i with position := i.position + n })
      else .error (.truncated i.position)) where
  of_ok {i a i'} _ hr := by
    split at hr
    · rename_i hfits
      cases hr
      refine ⟨rfl, hfits, fun more => ?_⟩
      have hsize := size_extend i more
      have hmore : (i.extend more).position + n ≤ (i.extend more).bytes.size :=
        Nat.le_trans hfits (by omega)
      rw [if_pos hmore, hf i more hfits]
      rfl
    · cases hr
  of_error {i e} hi hr := by
    split at hr
    · cases hr
    · cases hr
      exact .inl ⟨i.position, hi, rfl⟩

theorem steady_skip (n : Nat) : Steady (skip n) := steady_span fun _ _ _ => rfl

theorem steady_take (n : Nat) : Steady (take n) := by
  refine steady_span fun i more hfits => ?_
  have hnone : more.extract (i.position - i.bytes.size) 0 = ByteArray.empty := by simp
  show (i.bytes ++ more).extract i.position (i.position + n) = _
  rw [ByteArray.extract_append, Nat.sub_eq_zero_of_le hfits, hnone, ByteArray.append_empty]

theorem bigEndian_append {bytes : ByteArray} {position n : Nat} (more : ByteArray)
    (h : position + n ≤ bytes.size) :
    bigEndian (bytes ++ more) position n = bigEndian bytes position n := by
  induction n with
  | zero => rfl
  | succ n ih =>
    have hb : (bytes ++ more)[position + n]? = bytes[position + n]? := by
      rw [getElem?_data, getElem?_data, ByteArray.data_append]
      exact Array.getElem?_append_left (by show position + n < bytes.size; omega)
    rw [bigEndian, bigEndian, ih (by omega), hb]

theorem steady_number (n : Nat) : Steady (number n) :=
  steady_span fun _ more hfits => bigEndian_append more hfits

theorem steady_pure (a : α) : Steady (pure a : Reader α) where
  of_ok hi hr := by
    cases hr
    exact ⟨rfl, hi, fun _ => rfl⟩
  of_error _ hr := by cases hr

theorem steady_throw (e : Failure) : Steady (throw e : Reader α) where
  of_ok _ hr := by cases hr
  of_error _ hr := by
    cases hr
    exact .inr fun _ => rfl

theorem run_bind_eq_error {r : Reader α} {f : α → Reader β} {i : Input} {e : Failure} :
    (r >>= f) i = .error e ↔ r i = .error e ∨ ∃ a i₁, r i = .ok (a, i₁) ∧ f a i₁ = .error e := by
  show (r i >>= fun p => f p.1 p.2) = .error e ↔ _
  cases h : r i with
  | error e' => simp [Bind.bind, Except.bind]
  | ok p =>
    obtain ⟨a, i₁⟩ := p
    simp [Bind.bind, Except.bind, and_assoc]

theorem Steady.bind {r : Reader α} {f : α → Reader β} (hr : Steady r) (hf : ∀ a, Steady (f a)) :
    Steady (r >>= f) where
  of_ok hi h := by
    obtain ⟨a, i₁, ha, hb⟩ := run_bind_eq_ok.mp h
    obtain ⟨hbytes, hi₁, hra⟩ := hr.of_ok hi ha
    obtain ⟨hbytes', hi', hrb⟩ := (hf a).of_ok (hbytes ▸ hi₁) hb
    exact ⟨hbytes'.trans hbytes, hbytes ▸ hi',
      fun more => run_bind_eq_ok.mpr ⟨a, _, hra more, hrb more⟩⟩
  of_error hi h := by
    rcases run_bind_eq_error.mp h with he | ⟨a, i₁, ha, he⟩
    · exact (hr.of_error hi he).imp id fun hmore more => run_bind_eq_error.mpr (.inl (hmore more))
    · obtain ⟨hbytes, hi₁, hra⟩ := hr.of_ok hi ha
      refine ((hf a).of_error (hbytes ▸ hi₁) he).imp (fun hcut => hbytes ▸ hcut) fun hmore more => ?_
      exact run_bind_eq_error.mpr (.inr ⟨a, _, hra more, hmore more⟩)

theorem steady_u1 : Steady u1 := (steady_number 1).bind fun _ => steady_pure _

theorem steady_u2 : Steady u2 := steady_number 2

theorem steady_u4 : Steady u4 := steady_number 4

/-- A body is complete before it is looked into, so what becomes of it is settled. -/
theorem steady_within (body : ByteArray) (r : Reader α) : Steady (within body r) where
  of_ok hi hr := by
    unfold within at hr
    split at hr
    · rename_i a i₁ h₁
      cases hr
      exact ⟨rfl, hi, fun more => by simp [within, h₁]⟩
    · cases hr
  of_error _ hr := by
    unfold within at hr
    split at hr
    · cases hr
    · rename_i e h₁
      cases hr
      exact .inr fun more => by simp [within, h₁]

theorem steady_timesAfter {item : Reader α} (hi : Steady item) (n : Nat) (before : List α) :
    Steady (timesAfter item n before) := by
  induction n generalizing before with
  | zero => exact steady_pure _
  | succ n ih => exact hi.bind fun a => ih (a :: before)

theorem steady_pass {item : Reader Unit} (hi : Steady item) (n : Nat) : Steady (pass item n) := by
  induction n with
  | zero => exact steady_pure _
  | succ n ih => exact hi.bind fun _ => ih

end Reader

open Reader

theorem steady_constant (tag : UInt8) (index : Nat) : Steady (Constant.reader tag index) := by
  unfold Constant.reader
  split
  · exact steady_u2.bind fun n => (steady_take n).bind fun _ => steady_pure _
  split
  · exact steady_u2.bind fun _ => steady_pure _
  split
  · exact (steady_skip _).bind fun _ => steady_pure _
  · exact steady_throw _

theorem steady_readFrom (count turns index : Nat) (entries : Array Constant) :
    Steady (ConstantPool.readFrom count turns index entries) := by
  induction turns generalizing index entries with
  | zero => exact steady_pure _
  | succ turns ih =>
    unfold ConstantPool.readFrom
    split
    · refine steady_u1.bind fun tag => (steady_constant tag index).bind fun c => ?_
      split
      · exact ih _ _
      · exact ih _ _
    · exact steady_pure _

theorem steady_methodAttribute (pool : ConstantPool) (m : Method) : Steady (methodAttribute pool m) := by
  refine steady_u2.bind fun nameIndex => steady_u4.bind fun n => (steady_take n).bind fun body => ?_
  split
  · exact (steady_within body _).bind fun _ => steady_pure _
  · exact (steady_within body _).bind fun _ => steady_pure _
  · exact steady_pure _

theorem steady_attributes (pool : ConstantPool) (n : Nat) (m : Method) :
    Steady (attributes pool n m) := by
  induction n generalizing m with
  | zero => exact steady_pure _
  | succ n ih => exact (steady_methodAttribute pool m).bind ih

theorem steady_method (pool : ConstantPool) : Steady (method pool) :=
  steady_u2.bind fun _ => steady_u2.bind fun _ => steady_u2.bind fun _ => steady_u2.bind fun n =>
    steady_attributes pool n _

theorem steady_skipAttributes : Steady skipAttributes :=
  steady_u2.bind fun n =>
    steady_pass ((steady_skip 2).bind fun _ => steady_u4.bind fun n => steady_skip n) n

theorem steady_pool : Steady ConstantPool.reader :=
  steady_u2.bind fun count => steady_readFrom count count 1 _

theorem steady_fields (n : Nat) : Steady (Reader.pass (do Reader.skip 6; skipAttributes) n) :=
  steady_pass ((steady_skip 6).bind fun _ => steady_skipAttributes) n

theorem steady_classFile : Steady reader := by
  refine steady_u4.bind fun magic => ?_
  have hbody := (steady_skip 2).bind fun _ => (steady_skip 2).bind fun _ => steady_pool.bind fun pool =>
    (steady_skip 2).bind fun _ => steady_u2.bind fun this => (steady_skip 2).bind fun _ =>
    steady_u2.bind fun n => (steady_skip (n * 2)).bind fun _ => steady_u2.bind fun n =>
    (steady_fields n).bind fun _ => steady_u2.bind fun n =>
    (steady_timesAfter (steady_method pool) n []).bind fun methods =>
    steady_pure (ClassFile.mk pool this methods)
  split
  · exact hbody
  · exact (steady_throw _).bind fun _ => hbody

theorem parse_eq_error_iff_run {bytes : ByteArray} {e : Failure} :
    parse bytes = .error e ↔ reader ⟨bytes, 0⟩ = .error e := by
  unfold parse StateT.run
  cases reader ⟨bytes, 0⟩ <;> simp [Except.map]

theorem parse_of_cut (front more : ByteArray) {c : ClassFile} {i : Input}
    (h : reader ⟨front ++ more, 0⟩ = .ok (c, i)) (hlt : front.size < i.position) :
    ∃ p ≤ front.size, parse front = .error (.truncated p) := by
  cases hf : reader ⟨front, 0⟩ with
  | ok found =>
    obtain ⟨c', i'⟩ := found
    obtain ⟨-, hle, hmore⟩ := steady_classFile.of_ok (Nat.zero_le _) hf
    obtain rfl : i = i'.extend more := congrArg Prod.snd (Except.ok.inj (h.symm.trans (hmore more)))
    exact absurd hle (Nat.not_le.mpr hlt)
  | error e =>
    rcases steady_classFile.of_error (Nat.zero_le _) hf with ⟨p, hp, rfl⟩ | hmore
    · exact ⟨p, hp, parse_eq_error_iff_run.mpr hf⟩
    · cases h.symm.trans (hmore more)

/-- A class file that is read has an end `e`: whatever bytes follow it, the same is read, and a cut in front
of it is a truncation, told at a place within the cut. A failure other than a truncation stays the same
whatever bytes follow. -/
theorem parse_ends (bytes : ByteArray) :
    (∀ c, parse bytes = .ok c → ∃ e ≤ bytes.size,
      (∀ rest, parse (bytes.extract 0 e ++ rest) = .ok c) ∧
      ∀ k < e, ∃ p ≤ k, parse (bytes.extract 0 k) = .error (.truncated p)) ∧
    ∀ e, parse bytes = .error e → (∀ p, e ≠ .truncated p) → ∀ rest, parse (bytes ++ rest) = .error e := by
  constructor
  · intro c hc
    obtain ⟨i, hi⟩ := parse_eq_ok_iff_run.mp hc
    obtain ⟨tail, ⟨k, hk, rfl, hb⟩, hat⟩ := reads_classFile.sound (Input.Before.start bytes) hi
    obtain ⟨hbytes, hin, -⟩ := steady_classFile.of_ok (Nat.zero_le _) hi
    have hle : i.position ≤ bytes.size := hin
    -- The end is where the reader stands behind the method table.
    refine ⟨i.position, hle, fun rest => ?_, fun n hn => ?_⟩
    · have hl : i.position + tail.length = bytes.size := by rw [hat.length, hbytes]
      have hend : i.position = k.wire.length := by
        have hsize : bytes.data.toList.length = bytes.size := rfl
        rw [hb, List.length_append] at hsize
        omega
      have hfront : (bytes.extract 0 i.position ++ rest).data.toList = k.wire ++ rest.data.toList := by
        rw [ByteArray.data_append, ByteArray.data_extract, Array.toList_append, Array.toList_extract,
          List.extract_eq_take_drop, hb, hend]
        simp
      have hp := parse_wire hk rest.data.toList
      rwa [← hfront] at hp
    · have hsplit : bytes = bytes.extract 0 n ++ bytes.extract n bytes.size := by
        rw [← ByteArray.extract_eq_extract_append_extract n (Nat.zero_le _) (by omega),
          ByteArray.extract_zero_size]
      have hsize : (bytes.extract 0 n).size = n := by
        rw [ByteArray.size_extract]
        omega
      have hcut := parse_of_cut (bytes.extract 0 n) (bytes.extract n bytes.size) (by rwa [← hsplit])
        (by rwa [hsize])
      rwa [hsize] at hcut
  · intro e he hne rest
    rcases steady_classFile.of_error (Nat.zero_le _) (parse_eq_error_iff_run.mp he) with ⟨p, -, h⟩ | h
    · exact absurd h (hne p)
    · exact parse_eq_error_iff_run.mpr (h rest)

end ClassLocator.ClassFile

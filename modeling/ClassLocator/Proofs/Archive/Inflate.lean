import ClassLocator.Archive.Inflate
import Mathlib.Data.Nat.Basic
/-!
Expanding deflated data up to a limit. Main statement: the bytes that the data expand to under a limit are
the beginning of those without one.
-/

namespace ClassLocator.Archive.Inflate

def Begins (output whole : ByteArray) : Prop := ∃ rest, whole = output ++ rest

theorem Begins.refl (output : ByteArray) : Begins output output := ⟨ByteArray.empty, by simp⟩

theorem Begins.trans {a b c : ByteArray} (hab : Begins a b) (hbc : Begins b c) : Begins a c := by
  obtain ⟨r, rfl⟩ := hab
  obtain ⟨t, rfl⟩ := hbc
  exact ⟨r ++ t, ByteArray.append_assoc⟩

theorem Begins.size_le {a b : ByteArray} (h : Begins a b) : a.size ≤ b.size := by
  obtain ⟨r, rfl⟩ := h
  rw [ByteArray.size_append]
  omega

theorem Begins.extract {a b : ByteArray} (h : Begins a b) {limit : Nat} (hl : limit ≤ a.size) :
    b.extract 0 limit = a.extract 0 limit := by
  obtain ⟨r, rfl⟩ := h
  have hr : r.extract (0 - a.size) (limit - a.size) = ByteArray.empty := by
    rw [ByteArray.extract_eq_empty_iff]
    omega
  rw [ByteArray.extract_append, hr, ByteArray.append_empty]

theorem begins_push (output : ByteArray) (b : UInt8) : Begins output (output.push b) :=
  ⟨[b].toByteArray, ByteArray.append_toByteArray_singleton.symm⟩

theorem begins_copy (distance n : Nat) (output : ByteArray) : Begins output (copy distance n output) := by
  induction n generalizing output with
  | zero => exact .refl output
  | succ n ih =>
    simp only [copy]
    split
    · exact (begins_push output _).trans (ih _)
    · exact (begins_push output _).trans (ih _)

theorem begins_stored (data : ByteArray) (position : Nat) (output : ByteArray) :
    Begins output (stored data position output).1 := by
  simp only [stored]
  split
  · split
    · exact ⟨_, rfl⟩
    · exact .refl output
  · exact .refl output

section

variable {α β : Type}

/-- How results show that a limit stopped them: their bytes, and whether it did. -/
structure View (α : Type) where
  bytes : α → ByteArray
  isOpen : α → Prop

/-- A result under a limit, next to the one without: the limit may stop it on the way there, once there
are that many bytes. -/
def Limited (v : View α) (limit : Nat) (whole a : α) : Prop :=
  a = whole ∨ v.isOpen a ∧ limit ≤ (v.bytes a).size ∧ Begins (v.bytes a) (v.bytes whole)

/-- Behind `output` the data expand to one result, and under each limit to it or to a beginning of it. -/
def StopsShort (v : View α) (output : ByteArray) (expand : Nat → α) : Prop :=
  ∃ whole, ¬v.isOpen whole ∧ Begins output (v.bytes whole) ∧ ∀ limit, Limited v limit whole (expand limit)

variable {v : View α} {w : View β} {output output' : ByteArray}

theorem stopsShort_const {a : α} (ha : ¬v.isOpen a) (hb : Begins output (v.bytes a)) :
    StopsShort v output fun _ => a := ⟨a, ha, hb, fun _ => .inl rfl⟩

theorem StopsShort.begins {expand : Nat → α} (h : StopsShort v output' expand)
    (hb : Begins output output') : StopsShort v output expand :=
  h.imp fun _ hw => ⟨hw.1, hb.trans hw.2.1, hw.2.2⟩

/-- The same holds if the expansion stops where the limit is reached already. -/
theorem StopsShort.guard {expand : Nat → α} (h : StopsShort v output expand) (stopped : α)
    (ho : v.isOpen stopped) (hb : v.bytes stopped = output) :
    StopsShort v output fun limit => if limit ≤ output.size then stopped else expand limit := by
  obtain ⟨whole, hwhole, hout, hexpand⟩ := h
  refine ⟨whole, hwhole, hout, fun limit => ?_⟩
  by_cases hl : limit ≤ output.size
  · simp only [if_pos hl]
    exact .inr ⟨ho, by rwa [hb], by rwa [hb]⟩
  · simp only [if_neg hl]
    exact hexpand limit

theorem StopsShort.bind {first : Nat → α} (h : StopsShort v output first) (next : Nat → α → β)
    (hopen : ∀ limit a, v.isOpen a → w.isOpen (next limit a) ∧ w.bytes (next limit a) = v.bytes a)
    (hnext : ∀ a, ¬v.isOpen a → StopsShort w (v.bytes a) fun limit => next limit a) :
    StopsShort w output fun limit => next limit (first limit) := by
  obtain ⟨a, ha, hout, hfirst⟩ := h
  obtain ⟨whole, hwhole, hbytes, hexpand⟩ := hnext a ha
  refine ⟨whole, hwhole, hout.trans hbytes, fun limit => ?_⟩
  cases hfirst limit with
  | inl heq =>
    simp only [heq]
    exact hexpand limit
  | inr hstop =>
    obtain ⟨hopened, hl, hb⟩ := hstop
    obtain ⟨hw, hbw⟩ := hopen limit _ hopened
    exact .inr ⟨hw, by rwa [hbw], by rw [hbw]; exact hb.trans hbytes⟩

end

def blockView : View (ByteArray × Status) := ⟨Prod.fst, fun r => r.2 = .ended .open⟩

def excerptView : View Excerpt := ⟨Excerpt.bytes, fun x => x.ending = .open⟩

theorem stopsShort_failed (output : ByteArray) (fault : DataFault) :
    StopsShort blockView output fun _ => (output, failed fault) :=
  stopsShort_const (by simp [blockView, failed]) (.refl output)

section

variable (literals distances : Code) (data : ByteArray) (limit fuel position : Nat) (output : ByteArray)

theorem symbols_zero : symbols literals distances data limit 0 position output =
    (output, failed .incomplete) := rfl

-- Stated by hand, since the literals in the tests are too deep for the equations that Lean makes.
set_option maxRecDepth 2000 in
theorem symbols_succ : symbols literals distances data limit (fuel + 1) position output =
    if limit ≤ output.size then (output, .ended .open)
    else
      match literals.decode data position with
      | .error e => (output, failed e)
      | .ok (symbol, p) =>
        if symbol < 256 then
          symbols literals distances data limit fuel p (output.push symbol.toUInt8)
        else if symbol = 256 then (output, .at p)
        else
          match reference distances data symbol p with
          | .error e => (output, failed e)
          | .ok (length, distance, p) =>
            symbols literals distances data limit fuel p (copy distance length output) := by
  rfl

end

theorem stopsShort_symbols (literals distances : Code) (data : ByteArray) (fuel position : Nat)
    (output : ByteArray) : StopsShort blockView output fun limit =>
      symbols literals distances data limit fuel position output := by
  induction fuel generalizing position output with
  | zero =>
    simp only [symbols_zero]
    exact stopsShort_failed output _
  | succ fuel ih =>
    simp only [symbols_succ]
    refine StopsShort.guard ?_ (output, Status.ended .open) rfl rfl
    cases literals.decode data position with
    | error e => exact stopsShort_failed output e
    | ok r =>
      obtain ⟨symbol, p⟩ := r
      by_cases hliteral : symbol < 256
      · simp only [hliteral, if_true]
        exact (ih p _).begins (begins_push output _)
      by_cases hend : symbol = 256
      · simp only [hend, if_true]
        exact stopsShort_const (by simp [blockView]) (.refl output)
      simp only [hliteral, hend, if_false]
      cases reference distances data symbol p with
      | error e => exact stopsShort_failed output e
      | ok r =>
        obtain ⟨length, distance, p⟩ := r
        exact (ih p _).begins (begins_copy distance length output)

theorem stopsShort_stored (data : ByteArray) (position : Nat) (output : ByteArray) :
    StopsShort blockView output fun _ => stored data position output := by
  refine stopsShort_const ?_ (begins_stored data position output)
  simp only [blockView, stored]
  split
  · split
    · simp only
      split <;> simp [failed]
    · simp [failed]
  · simp [failed]

theorem stopsShort_block (data : ByteArray) (fuel kind position : Nat) (output : ByteArray) :
    StopsShort blockView output fun limit => block data limit fuel kind position output := by
  match kind with
  | 0 => exact stopsShort_stored data position output
  | 1 => exact stopsShort_symbols ..
  | 2 =>
    simp only [block]
    cases ownCodes data position with
    | error e => exact stopsShort_failed output e
    | ok codes => exact stopsShort_symbols ..
  | kind + 3 => exact stopsShort_failed output _

def afterBlock (data : ByteArray) (fuel header limit : Nat) : ByteArray × Status → Excerpt
  | (output, .ended ending) => ⟨output, ending⟩
  | (output, .at p) =>
    if header % 2 = 0 then blocks data limit fuel p output
    else if limit ≤ output.size then ⟨output, .open⟩
    else ⟨output, .complete⟩

theorem stopsShort_blocks (data : ByteArray) (fuel position : Nat) (output : ByteArray) :
    StopsShort excerptView output fun limit => blocks data limit fuel position output := by
  induction fuel generalizing position output with
  | zero => exact stopsShort_const (by simp [excerptView]) (.refl output)
  | succ fuel ih =>
    simp only [blocks]
    refine StopsShort.guard ?_ (Excerpt.mk output .open) rfl rfl
    cases bits? data position 3 with
    | none => exact stopsShort_const (by simp [excerptView]) (.refl output)
    | some header =>
      refine (stopsShort_block data (fuel + 1) (header / 2) (position + 3) output).bind
        (afterBlock data fuel header) ?_ ?_
      · intro limit r hopen
        obtain ⟨output', status⟩ := r
        obtain rfl : status = .ended .open := hopen
        exact ⟨rfl, rfl⟩
      · intro r hopen
        obtain ⟨output', status⟩ := r
        cases status with
        | ended ending =>
          refine stopsShort_const ?_ (.refl output')
          intro hending
          exact hopen (congrArg Status.ended hending)
        | «at» p =>
          by_cases hmore : header % 2 = 0
          · simp only [afterBlock, hmore, if_true]
            exact ih p output'
          · simp only [afterBlock, hmore, if_false]
            refine StopsShort.guard (stopsShort_const ?_ (.refl output'))
              (Excerpt.mk output' .open) rfl rfl
            simp [excerptView]

end Inflate

/-- What the data expand to under a limit is the beginning of what they expand to without. -/
theorem exists_inflate (data : ByteArray) : ∃ whole : Excerpt, whole.ending ≠ .open ∧
    ∀ limit, Inflate.Limited Inflate.excerptView limit whole (inflate data limit) := by
  obtain ⟨whole, hopen, -, h⟩ :=
    Inflate.stopsShort_blocks data (8 * data.size + 1) 0 ByteArray.empty
  exact ⟨whole, hopen, h⟩

end ClassLocator.Archive

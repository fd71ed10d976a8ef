import ClassLocator.Archive.Entry
import Mathlib.Data.Nat.Basic
/-!
Streams of bytes that are read in portions, and reading one up to a limit. Main statement: whatever the
portions are, reading up to a limit gives the same bytes, takes none beyond the limit, and meets the end of
the stream if and only if the stream is shorter than the limit.
-/

namespace ClassLocator.Archive

/-- A finite stream of bytes and what is at its end: nothing, once everything was checked, or a fault. -/
structure Stream where
  bytes : ByteArray
  fault? : Option DataFault

namespace Stream

structure Progress where
  consumed : Nat := 0
  /-- The end of the stream, or the fault there, was met. -/
  atEnd : Bool := false
  deriving DecidableEq, Repr

def ending (s : Stream) : Ending := s.fault?.elim .complete .failed

def whole (s : Stream) : Excerpt := ⟨s.bytes, s.ending⟩

/-- How many bytes the next portion has, of `n` that were asked for, if the reader would like to hand out
`wanted`: at least one, and no more than are left. -/
def portion (s : Stream) (wanted n : Nat) (p : Progress) : Nat :=
  min (max 1 wanted) (min n (s.bytes.size - p.consumed))

/-- Reads on until `limit` bytes more were taken or the end is met, and gives them behind those `taken`
before. The reader likes portions of sizes that it chooses by the place and by what is asked for. -/
def readOn (s : Stream) (wanted : Progress → Nat → Nat) (limit : Nat) (taken : ByteArray) (p : Progress) :
    Excerpt × Progress :=
  if limit = 0 then (⟨taken, .open⟩, p)
  else if s.bytes.size ≤ p.consumed then (⟨taken, s.ending⟩, { p with atEnd := true })
  else
    let n := s.portion (wanted p limit) limit p
    readOn s wanted (limit - n) (taken ++ s.bytes.extract p.consumed (p.consumed + n))
      { p with consumed := p.consumed + n }
  termination_by limit
  decreasing_by
    simp only [portion]
    omega

def take (s : Stream) (wanted : Progress → Nat → Nat) (limit : Nat) : StateM Progress Excerpt :=
  s.readOn wanted limit ByteArray.empty

variable {s : Stream} {wanted : Progress → Nat → Nat} {limit : Nat} {taken : ByteArray} {p : Progress}

/-- Each portion is what the stream has next, so the portions put together are what it has in all. -/
theorem readOn_eq (hp : p.consumed ≤ s.bytes.size) (ht : taken = s.bytes.extract 0 p.consumed) :
    s.readOn wanted limit taken p =
      if limit ≤ s.bytes.size - p.consumed then
        (⟨s.bytes.extract 0 (p.consumed + limit), .open⟩, { p with consumed := p.consumed + limit })
      else (s.whole, ⟨s.bytes.size, true⟩) := by
  fun_induction readOn s wanted limit taken p with
  | case1 taken p => simp [ht]
  | case2 limit taken p hlimit hend =>
    have hc : p.consumed = s.bytes.size := by omega
    rw [if_neg (by omega), ht, hc, ByteArray.extract_zero_size, whole]
  | case3 limit taken p hlimit hend n ih =>
    have hn : n ≤ limit ∧ p.consumed + n ≤ s.bytes.size := by
      simp only [n, portion]
      omega
    rw [ih hn.2 ?_]
    · have hsum : p.consumed + n + (limit - n) = p.consumed + limit := by omega
      have hiff : limit - n ≤ s.bytes.size - (p.consumed + n) ↔ limit ≤ s.bytes.size - p.consumed := by
        omega
      simp only [hsum, hiff]
    · rw [ht]
      exact (ByteArray.extract_eq_extract_append_extract _ (by omega) (by omega)).symm

/-- Reading a stream from its beginning does not depend on the portions. -/
theorem take_eq (s : Stream) (wanted : Progress → Nat → Nat) (limit : Nat) :
    s.take wanted limit {} = (s.whole.upTo limit,
      if limit ≤ s.bytes.size then { consumed := limit } else ⟨s.bytes.size, true⟩) := by
  rw [take, readOn_eq (by simp) (by simp)]
  by_cases h : limit ≤ s.bytes.size
  · simp [Excerpt.upTo, whole, h]
  · simp [Excerpt.upTo, whole, h]

end Stream

end ClassLocator.Archive

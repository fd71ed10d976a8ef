/-!
Reading UTF-8 that may be damaged. Each longest stretch of bytes that begins a character without
completing it becomes one replacement character, and the byte that broke it is looked at afresh.
-/

namespace ClassLocator.Text.Utf8

def replacement : Char := '\uFFFD'

/-- A character of which some bytes are still to come: how many, between which bounds the next one
must lie, and the bits read so far. -/
structure Pending where
  owed : Nat
  low : UInt8
  high : UInt8
  bits : Nat

inductive First where
  | whole (c : Char)
  | lead (p : Pending)
  | wrong

def first (b : UInt8) : First :=
  let n := b.toNat
  if n < 0x80 then .whole (Char.ofNat n)
  else if n < 0xC2 then .wrong
  else if n < 0xE0 then .lead ⟨1, 0x80, 0xBF, n - 0xC0⟩
  else if n = 0xE0 then .lead ⟨2, 0xA0, 0xBF, 0⟩
  else if n = 0xED then .lead ⟨2, 0x80, 0x9F, 0xD⟩
  else if n < 0xF0 then .lead ⟨2, 0x80, 0xBF, n - 0xE0⟩
  else if n = 0xF0 then .lead ⟨3, 0x90, 0xBF, 0⟩
  else if n < 0xF4 then .lead ⟨3, 0x80, 0xBF, n - 0xF0⟩
  else if n = 0xF4 then .lead ⟨3, 0x80, 0x8F, 4⟩
  else .wrong

def start (acc : List Char) (b : UInt8) : Option Pending × List Char :=
  match first b with
  | .whole c => (none, c :: acc)
  | .lead p => (some p, acc)
  | .wrong => (none, replacement :: acc)

def step : Option Pending × List Char → UInt8 → Option Pending × List Char
  | (none, acc), b => start acc b
  | (some p, acc), b =>
    if p.low ≤ b ∧ b ≤ p.high then
      let bits := p.bits * 64 + (b.toNat - 0x80)
      if p.owed ≤ 1 then (none, Char.ofNat bits :: acc)
      else (some ⟨p.owed - 1, 0x80, 0xBF, bits⟩, acc)
    else start (replacement :: acc) b

def finish : Option Pending × List Char → List Char
  | (none, acc) => acc.reverse
  | (some _, acc) => (replacement :: acc).reverse

def decodeLossy (bytes : ByteArray) : String :=
  match String.fromUTF8? bytes with
  | some s => s
  | none => String.ofList (finish (bytes.foldl step (none, [])))

end ClassLocator.Text.Utf8

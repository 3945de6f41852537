import RegionSalvage.Bytes
import RegionSalvage.Zlib.Fault

/-! # Bits of a zlib stream

A position in a stream is a number of bits.  Bits are taken from the low end of each byte, and a
number of several bits has its low bit first.  Asking for bits that are not there starves.
-/

namespace RegionSalvage.Zlib

/-- The number made of the `n` bits from `pos` on. -/
def bitsValue (input : ByteArray) : (pos n : Nat) → Nat
  | _, 0 => 0
  | pos, n + 1 => (bitAt input pos).toNat + 2 * bitsValue input (pos + 1) n

/-- Takes `n` bits at `pos`: their value and the position behind them. -/
def takeBits (input : ByteArray) (pos n : Nat) : Except Stop (Nat × Nat) :=
  if pos + n ≤ 8 * input.size then .ok (bitsValue input pos n, pos + n) else .error .starved

/-- The first position at or behind `pos` where a byte starts. -/
def alignToByte (pos : Nat) : Nat := (pos + 7) / 8 * 8

end RegionSalvage.Zlib

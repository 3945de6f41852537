/-! # UTF-8 with replacement

Text that is not valid UTF-8 is still read: every maximal part that starts a character and cannot
be finished, and every byte that cannot start one, becomes one replacement character.
-/

namespace RegionSalvage.Utf8

/-- How a lead byte continues: how many bytes follow, the payload bits it has itself, and the range
of the byte after it. -/
structure Lead where
  following : Nat
  bits : Nat
  low : Nat
  high : Nat
deriving DecidableEq, Repr

/-- The lead bytes of characters of more than one byte.  The range of the second byte excludes
overlong forms, surrogates and code points past the last one. -/
def lead? (b : Nat) : Option Lead :=
  if b < 0xC2 then none
  else if b < 0xE0 then some ⟨1, b - 0xC0, 0x80, 0xBF⟩
  else if b = 0xE0 then some ⟨2, 0, 0xA0, 0xBF⟩
  else if b = 0xED then some ⟨2, 0xD, 0x80, 0x9F⟩
  else if b < 0xF0 then some ⟨2, b - 0xE0, 0x80, 0xBF⟩
  else if b = 0xF0 then some ⟨3, 0, 0x90, 0xBF⟩
  else if b < 0xF4 then some ⟨3, b - 0xF0, 0x80, 0xBF⟩
  else if b = 0xF4 then some ⟨3, 4, 0x80, 0x8F⟩
  else none

/-- What has been read of a character that is not finished. -/
structure Pending where
  /-- Bytes still missing. -/
  missing : Nat
  bits : Nat
  low : Nat
  high : Nat
deriving DecidableEq, Repr

def replacement : Char := '\uFFFD'

/-- Takes a byte that starts a character. -/
def start (b : Nat) (out : String) : String × Option Pending :=
  if b < 0x80 then (out.push (Char.ofNat b), none)
  else match lead? b with
    | none => (out.push replacement, none)
    | some l => (out, some ⟨l.following, l.bits, l.low, l.high⟩)

/-- Takes one byte. -/
def step : String × Option Pending → UInt8 → String × Option Pending
  | (out, none), b => start b.toNat out
  | (out, some p), b =>
    if p.low ≤ b.toNat && b.toNat ≤ p.high then
      let bits := p.bits * 64 + (b.toNat - 0x80)
      if p.missing = 1 then (out.push (Char.ofNat bits), none)
      else (out, some ⟨p.missing - 1, bits, 0x80, 0xBF⟩)
    else start b.toNat (out.push replacement)

def decode (bytes : ByteArray) : String :=
  match bytes.data.foldl step ("", none) with
  | (out, none) => out
  | (out, some _) => out.push replacement

end RegionSalvage.Utf8

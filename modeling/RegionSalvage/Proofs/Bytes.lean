import Mathlib
import RegionSalvage.Bytes

/-! # Reading bytes out of slices, joins and paddings

What `octet` finds in a byte string that was cut out of another one, put together from two, or
padded with zeros.  Words and bits are read octet by octet, so the lemmas about them follow; a
number that was cut into little-endian bytes is read as it was (`le64_leBytes`).
`ext_octet` goes the other way: byte strings of one size with the same octets are equal.
-/

namespace RegionSalvage

/-! ## Octets -/

theorem le32_lt (b : ByteArray) (i : Nat) : le32 b i < 0x100000000 := by
  have h₀ := octet_lt b i
  have h₁ := octet_lt b (i + 1)
  have h₂ := octet_lt b (i + 2)
  have h₃ := octet_lt b (i + 2 + 1)
  simp only [le32, le16]
  omega

theorem octet_of_lt {b : ByteArray} {i : Nat} (h : i < b.size) : octet b i = b[i].toNat := by
  rw [octet, dif_pos h]

theorem octet_of_le {b : ByteArray} {i : Nat} (h : b.size ≤ i) : octet b i = 0 := by
  rw [octet, dif_neg (by omega)]

theorem ext_octet {a b : ByteArray} (hsize : a.size = b.size)
    (h : ∀ i < a.size, octet a i = octet b i) : a = b := by
  apply ByteArray.ext_getElem hsize
  intro i ha hb
  have := h i ha
  rw [octet_of_lt ha, octet_of_lt hb] at this
  exact UInt8.toNat_inj.1 this

theorem octet_append_left {a b : ByteArray} {i : Nat} (h : i < a.size) :
    octet (a ++ b) i = octet a i := by
  rw [octet_of_lt h, octet_of_lt (by rw [ByteArray.size_append]; omega),
    ByteArray.getElem_append_left h]

theorem octet_append_right (a b : ByteArray) (i : Nat) :
    octet (a ++ b) (a.size + i) = octet b i := by
  by_cases h : i < b.size
  · rw [octet_of_lt h, octet_of_lt (by rw [ByteArray.size_append]; omega),
      ByteArray.getElem_append_right (by omega)]
    simp
  · rw [octet_of_le (b := b) (by omega), octet_of_le (by rw [ByteArray.size_append]; omega)]

/-- Past the end of the bytes there is nothing to see in the slice either. -/
theorem octet_slice {b : ByteArray} {start stop i : Nat} (h : start + i < stop) :
    octet (slice b start stop) i = octet b (start + i) := by
  by_cases hsize : start + i < b.size
  · rw [octet_of_lt hsize, octet_of_lt (by rw [size_slice]; omega)]
    simp only [slice, ByteArray.getElem_extract]
    congr 2
    omega
  · rw [octet_of_le (by rw [size_slice]; omega), octet_of_le (by omega)]

@[simp] theorem slice_self (b : ByteArray) (i : Nat) : slice b i i = .empty := by
  apply ext_octet
  · rw [size_slice, Nat.sub_self]
    rfl
  · intro j hj
    rw [size_slice, Nat.sub_self] at hj
    exact absurd hj (Nat.not_lt_zero j)

theorem slice_append_slice {b : ByteArray} {start mid stop : Nat} (hstart : start ≤ mid)
    (hstop : mid ≤ stop) : slice b start mid ++ slice b mid stop = slice b start stop := by
  rw [slice, slice, slice, ByteArray.extract_append_extract]
  congr 1 <;> omega

theorem slice_append_left (a b : ByteArray) : slice (a ++ b) 0 a.size = a := by
  apply ext_octet
  · rw [size_slice, ByteArray.size_append]
    omega
  · intro i hi
    rw [size_slice, ByteArray.size_append] at hi
    rw [octet_slice (by omega), Nat.zero_add, octet_append_left (by omega)]

@[simp] theorem slice_whole (b : ByteArray) : slice b 0 b.size = b := by
  rw [slice, Nat.zero_min, Nat.min_self, ByteArray.extract_zero_size]

theorem slice_append_right (a b : ByteArray) (start stop : Nat) :
    slice (a ++ b) (a.size + start) (a.size + stop) = slice b start stop := by
  apply ext_octet
  · rw [size_slice, size_slice, ByteArray.size_append]
    omega
  · intro i hi
    rw [size_slice, ByteArray.size_append] at hi
    rw [octet_slice (by omega), octet_slice (by omega), Nat.add_assoc, octet_append_right]

/-- A byte string that agrees with a shorter one as far as that goes starts with it. -/
theorem exists_append {a b : ByteArray} (hsize : a.size ≤ b.size)
    (h : ∀ i < a.size, octet b i = octet a i) : ∃ rest, b = a ++ rest := by
  refine ⟨slice b a.size b.size, ?_⟩
  have hfront : slice b 0 a.size = a := by
    apply ext_octet
    · rw [size_slice]
      omega
    · intro i hi
      rw [size_slice] at hi
      rw [octet_slice (by omega), Nat.zero_add, h i (by omega)]
  calc b = slice b 0 a.size ++ slice b a.size b.size := by
        rw [slice_append_slice (Nat.zero_le _) hsize, slice_whole]
    _ = a ++ slice b a.size b.size := by rw [hfront]

theorem octet_push_of_lt (b : ByteArray) (x : UInt8) {i : Nat} (h : i < b.size) :
    octet (b.push x) i = octet b i := by
  rw [← ByteArray.append_toByteArray_singleton]
  exact octet_append_left h

theorem octet_push_size (b : ByteArray) (x : UInt8) : octet (b.push x) b.size = x.toNat := by
  rw [← ByteArray.append_toByteArray_singleton]
  exact octet_append_right b _ 0

theorem octet_push_zero (b : ByteArray) (i : Nat) : octet (b.push 0) i = octet b i := by
  by_cases h : i < b.size
  · exact octet_push_of_lt b 0 h
  · rw [octet_of_le (b := b) (by omega)]
    by_cases hlast : i = b.size
    · rw [hlast, octet_push_size]
      rfl
    · exact octet_of_le (by rw [ByteArray.size_push]; omega)

@[simp] theorem octet_padZeros (n : Nat) (b : ByteArray) (i : Nat) :
    octet (padZeros n b) i = octet b i := by
  induction n generalizing b with
  | zero => rfl
  | succ n ih => rw [padZeros, ih, octet_push_zero]

@[simp] theorem octet_zeros (n i : Nat) : octet (zeros n) i = 0 := by
  rw [zeros, octet_padZeros]
  exact octet_of_le (Nat.zero_le i)

/-- Zeros are known by their octets. -/
theorem eq_zeros_iff {b : ByteArray} {n : Nat} : b = zeros n ↔ b.size = n ∧ ∀ i, octet b i = 0 := by
  constructor
  · rintro rfl
    exact ⟨size_zeros n, octet_zeros n⟩
  · rintro ⟨hsize, hoctet⟩
    apply ext_octet (hsize.trans (size_zeros n).symm)
    intro i _
    rw [hoctet, octet_zeros]

/-! ## Bits -/

theorem bitAt_append_left {a b : ByteArray} {i : Nat} (h : i < 8 * a.size) :
    bitAt (a ++ b) i = bitAt a i := by
  rw [bitAt, bitAt, octet_append_left (by omega)]

theorem bitAt_append_right (a b : ByteArray) (i : Nat) :
    bitAt (a ++ b) (8 * a.size + i) = bitAt b i := by
  rw [bitAt, bitAt, Nat.mul_add_div (by omega), octet_append_right, Nat.mul_add_mod]

@[simp] theorem bitAt_padZeros (n : Nat) (b : ByteArray) (i : Nat) :
    bitAt (padZeros n b) i = bitAt b i := by
  rw [bitAt, bitAt, octet_padZeros]

theorem bitAt_of_le {b : ByteArray} {i : Nat} (h : 8 * b.size ≤ i) : bitAt b i = false := by
  rw [bitAt, octet_of_le (by omega), Nat.zero_testBit]

theorem lt_of_bitAt {b : ByteArray} {i : Nat} (h : bitAt b i = true) : i < 8 * b.size := by
  apply Nat.lt_of_not_le
  intro hle
  rw [bitAt_of_le hle] at h
  cases h

/-! ## Words -/

theorem le16_slice {b : ByteArray} {start stop i : Nat} (h : start + i + 2 ≤ stop) :
    le16 (slice b start stop) i = le16 b (start + i) := by
  rw [le16, le16, octet_slice (by omega), octet_slice (by omega)]
  rfl

theorem le32_slice {b : ByteArray} {start stop i : Nat} (h : start + i + 4 ≤ stop) :
    le32 (slice b start stop) i = le32 b (start + i) := by
  rw [le32, le32, le16_slice (by omega), le16_slice (by omega)]
  rfl

theorem be32_slice {b : ByteArray} {start stop i : Nat} (h : start + i + 4 ≤ stop) :
    be32 (slice b start stop) i = be32 b (start + i) := by
  rw [be32, be32, octet_slice (by omega), octet_slice (by omega), octet_slice (by omega),
    octet_slice (by omega)]
  rfl

theorem le64_append_left {a b : ByteArray} {i : Nat} (h : i + 8 ≤ a.size) :
    le64 (a ++ b) i = le64 a i := by
  have hoctet {j : Nat} (hj : j < a.size) := octet_append_left (b := b) hj
  simp only [le64, le32, le16]
  rw [hoctet (by omega), hoctet (by omega), hoctet (by omega), hoctet (by omega),
    hoctet (by omega), hoctet (by omega), hoctet (by omega), hoctet (by omega)]

theorem le64_append_right (a b : ByteArray) (i : Nat) : le64 (a ++ b) (a.size + i) = le64 b i := by
  simp only [le64, le32, le16, Nat.add_assoc, octet_append_right]

/-- A word whose octets are the digits of a number is this number. -/
theorem be32_of_digits {b : ByteArray} {i n : Nat} (hn : n < 0x100000000)
    (h₀ : octet b i = (UInt8.ofNat (n / 0x1000000)).toNat)
    (h₁ : octet b (i + 1) = (UInt8.ofNat (n / 0x10000)).toNat)
    (h₂ : octet b (i + 2) = (UInt8.ofNat (n / 0x100)).toNat)
    (h₃ : octet b (i + 3) = (UInt8.ofNat n).toNat) : be32 b i = n := by
  rw [be32, h₀, h₁, h₂, h₃]
  simp only [UInt8.toNat_ofNat']
  omega

theorem be32_append_left {a b : ByteArray} {i : Nat} (h : i + 4 ≤ a.size) :
    be32 (a ++ b) i = be32 a i := by
  rw [be32, be32, octet_append_left (by omega), octet_append_left (by omega),
    octet_append_left (by omega), octet_append_left (by omega)]

theorem be32_append_right (a b : ByteArray) (i : Nat) : be32 (a ++ b) (a.size + i) = be32 b i := by
  simp only [be32, Nat.add_assoc, octet_append_right]

/-- The words of a byte string go on in another one where no word is cut. -/
theorem words_append {a b : ByteArray} (h : 4 ∣ a.size) : words (a ++ b) = words a ++ words b := by
  obtain ⟨n, hn⟩ := h
  have hcount : (a ++ b).size / 4 = n + b.size / 4 := by
    rw [ByteArray.size_append, hn]
    omega
  have hbefore : a.size / 4 = n := by omega
  rw [words, hcount, List.range_add, List.map_append, List.map_map, words, words, hbefore]
  refine congrArg₂ (· ++ ·) ?_ ?_
  · apply List.map_congr_left
    intro i hi
    have hlt := List.mem_range.1 hi
    exact be32_append_left (by omega)
  · apply List.map_congr_left
    intro i _
    rw [Function.comp_apply, Nat.mul_add, ← hn, be32_append_right]

theorem words_zeros (n : Nat) : words (zeros (4 * n)) = List.replicate n 0 := by
  rw [words, size_zeros, Nat.mul_div_cancel_left n (by decide), List.eq_replicate_iff]
  refine ⟨by rw [List.length_map, List.length_range], fun word hword => ?_⟩
  obtain ⟨i, -, rfl⟩ := List.mem_map.1 hword
  rw [be32, octet_zeros, octet_zeros, octet_zeros, octet_zeros]

/-! ## Little-endian bytes -/

theorem leBytes_eq_append (n v : Nat) (out : ByteArray) :
    leBytes n v out = out ++ leBytes n v .empty := by
  induction n generalizing v out with
  | zero => exact ByteArray.append_empty.symm
  | succ n ih =>
    rw [leBytes, leBytes, ih, ih _ (ByteArray.empty.push _),
      ← ByteArray.append_toByteArray_singleton, ← ByteArray.append_toByteArray_singleton,
      ByteArray.empty_append, ByteArray.append_assoc]

theorem octet_leBytes_of_lt (n v : Nat) {out : ByteArray} {i : Nat} (h : i < out.size) :
    octet (leBytes n v out) i = octet out i := by
  induction n generalizing v out with
  | zero => rfl
  | succ n ih =>
    rw [leBytes, ih _ (by rw [ByteArray.size_push]; omega), octet_push_of_lt _ _ h]

theorem octet_leBytes {n i : Nat} (h : i < n) (v : Nat) (out : ByteArray) :
    octet (leBytes n v out) (out.size + i) = v / 256 ^ i % 256 := by
  induction n generalizing v out i with
  | zero => exact absurd h (Nat.not_lt_zero i)
  | succ n ih =>
    rw [leBytes]
    cases i with
    | zero =>
      rw [octet_leBytes_of_lt _ _ (by rw [ByteArray.size_push]; omega), Nat.add_zero,
        octet_push_size, Nat.pow_zero, Nat.div_one, UInt8.toNat_ofNat']
      exact Nat.mod_mod_of_dvd v ⟨1, rfl⟩
    | succ i =>
      have hrest := ih (Nat.lt_of_succ_lt_succ h) (v / 256) (out.push (UInt8.ofNat (v % 256)))
      rw [ByteArray.size_push, Nat.add_assoc, Nat.add_comm 1] at hrest
      rw [hrest, Nat.div_div_eq_div_mul, Nat.pow_succ, Nat.mul_comm]

theorem le64_leBytes {v : Nat} (h : v < 0x10000000000000000) (out : ByteArray) :
    le64 (leBytes 8 v out) out.size = v := by
  have hoctet {i : Nat} (hi : i < 8) := octet_leBytes hi v out
  have h₀ := hoctet (show 0 < 8 by decide)
  rw [Nat.add_zero] at h₀
  simp only [le64, le32, le16, Nat.add_assoc, Nat.reduceAdd]
  rw [h₀, hoctet (show 1 < 8 by decide), hoctet (show 2 < 8 by decide),
    hoctet (show 3 < 8 by decide), hoctet (show 4 < 8 by decide), hoctet (show 5 < 8 by decide),
    hoctet (show 6 < 8 by decide), hoctet (show 7 < 8 by decide)]
  omega

/-! ## Sparse byte strings -/

/-- `n` bytes, zero but for the listed ones. -/
def sparse (n : Nat) (contents : List (Nat × UInt8)) : ByteArray :=
  ⟨Array.ofFn fun i : Fin n => (contents.lookup i.val).getD 0⟩

@[simp] theorem size_sparse (n : Nat) (contents : List (Nat × UInt8)) :
    (sparse n contents).size = n :=
  Array.size_ofFn

theorem octet_sparse (n : Nat) (contents : List (Nat × UInt8)) (i : Nat) :
    octet (sparse n contents) i = if i < n then ((contents.lookup i).getD 0).toNat else 0 := by
  by_cases h : i < n
  · rw [if_pos h, octet_of_lt (by rwa [size_sparse])]
    exact congrArg UInt8.toNat (Array.getElem_ofFn _)
  · rw [if_neg h, octet_of_le (by rw [size_sparse]; omega)]

def sparseOctet (n : Nat) (contents : List (Nat × UInt8)) (i : Nat) : Nat :=
  if i < n then ((contents.lookup i).getD 0).toNat else 0

theorem le16_sparse (n : Nat) (contents : List (Nat × UInt8)) (i : Nat) :
    le16 (sparse n contents) i =
      sparseOctet n contents i + 256 * sparseOctet n contents (i + 1) := by
  rw [le16, octet_sparse, octet_sparse]
  rfl

theorem le32_sparse (n : Nat) (contents : List (Nat × UInt8)) (i : Nat) :
    le32 (sparse n contents) i =
      sparseOctet n contents i + 256 * sparseOctet n contents (i + 1) +
        65536 * (sparseOctet n contents (i + 2) + 256 * sparseOctet n contents (i + 3)) := by
  rw [le32, le16_sparse, le16_sparse]

theorem be32_sparse (n : Nat) (contents : List (Nat × UInt8)) (i : Nat) :
    be32 (sparse n contents) i =
      ((sparseOctet n contents i * 256 + sparseOctet n contents (i + 1)) * 256 +
        sparseOctet n contents (i + 2)) * 256 + sparseOctet n contents (i + 3) := by
  rw [be32, octet_sparse, octet_sparse, octet_sparse, octet_sparse]
  rfl

end RegionSalvage

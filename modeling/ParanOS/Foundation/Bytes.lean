import Mathlib.Data.Nat.Bitwise

/-! # Byte buffers and little-endian fields

A buffer is identified with the byte found at each offset. Every store is a
bounded copy, so one pair of lemmas (inside and outside the copied window)
describes all of them. Offsets are never checked against a length here: a
program that must stay inside its buffer proves so about its own offsets.
-/

namespace Foundation

/-- Unsigned 32-bit wrap-around. -/
def u32 (value : Nat) : Nat := value % 4294967296

theorem u32_of_lt {value : Nat} (small : value < 4294967296) : u32 value = value :=
  Nat.mod_eq_of_lt small

theorem u32_lt (value : Nat) : u32 value < 4294967296 :=
  Nat.mod_lt _ (by omega)

/-- The bytes of a buffer by offset. -/
abbrev Buffer := Nat → UInt8

namespace Buffer

/-! ## Reading -/

def getU16 (buffer : Buffer) (offset : Nat) : Nat :=
  (buffer offset).toNat + 256 * (buffer (offset + 1)).toNat

def getU32 (buffer : Buffer) (offset : Nat) : Nat :=
  buffer.getU16 offset + 65536 * buffer.getU16 (offset + 2)

def getU64 (buffer : Buffer) (offset : Nat) : Nat :=
  buffer.getU32 offset + 4294967296 * buffer.getU32 (offset + 4)

/-- The `count` bytes from `offset` on, in order. -/
def bytes (buffer : Buffer) (offset count : Nat) : List UInt8 :=
  (List.range count).map fun index => buffer (offset + index)

/-! ## Writing -/

/-- `memcpy`: `count` bytes of `source` stored from `offset` on. -/
def copy (buffer : Buffer) (offset count : Nat) (source : Buffer) : Buffer :=
  fun index =>
    if offset ≤ index ∧ index < offset + count then source (index - offset)
    else buffer index

/-- `memset`. -/
def fill (buffer : Buffer) (offset count : Nat) (byte : UInt8) : Buffer :=
  buffer.copy offset count fun _ => byte

/-- The bytes of a list, followed by zeros. -/
def ofList (values : List UInt8) : Buffer :=
  fun index => values.getD index 0

/-- The little-endian bytes of a number. -/
def littleEndian (value : Nat) : Buffer :=
  fun index => UInt8.ofNat (value / 256 ^ index)

def putU8 (buffer : Buffer) (offset : Nat) (value : UInt8) : Buffer :=
  buffer.copy offset 1 fun _ => value

def putU16 (buffer : Buffer) (offset value : Nat) : Buffer :=
  buffer.copy offset 2 (littleEndian value)

def putU32 (buffer : Buffer) (offset value : Nat) : Buffer :=
  buffer.copy offset 4 (littleEndian value)

def putU64 (buffer : Buffer) (offset value : Nat) : Buffer :=
  buffer.copy offset 8 (littleEndian value)

/-! ## Copies and windows -/

theorem copy_inside {buffer source : Buffer} {offset count index : Nat}
    (lower : offset ≤ index) (upper : index < offset + count) :
    buffer.copy offset count source index = source (index - offset) :=
  if_pos ⟨lower, upper⟩

theorem copy_outside {buffer source : Buffer} {offset count index : Nat}
    (outside : index < offset ∨ offset + count ≤ index) :
    buffer.copy offset count source index = buffer index := by
  apply if_neg
  omega

@[simp] theorem bytes_length (buffer : Buffer) (offset count : Nat) :
    (buffer.bytes offset count).length = count := by
  simp [bytes]

theorem bytes_congr {left right : Buffer} {leftOffset rightOffset count : Nat}
    (agree : ∀ index, index < count →
      left (leftOffset + index) = right (rightOffset + index)) :
    left.bytes leftOffset count = right.bytes rightOffset count := by
  apply List.map_congr_left
  intro index member
  exact agree index (List.mem_range.mp member)

/-- Reading back a list that was laid out from `offset` on. -/
theorem bytes_eq_of_getD {buffer : Buffer} {offset : Nat} {values : List UInt8}
    (agree : ∀ index, index < values.length →
      buffer (offset + index) = values.getD index 0) :
    buffer.bytes offset values.length = values := by
  apply List.ext_getElem
  · simp
  · intro index _ bound
    have byte := agree index bound
    rw [List.getD_eq_getElem?_getD, List.getElem?_eq_getElem bound] at byte
    simpa [bytes] using byte

theorem bytes_add (buffer : Buffer) (offset first second : Nat) :
    buffer.bytes offset (first + second) =
      buffer.bytes offset first ++ buffer.bytes (offset + first) second := by
  simp [bytes, List.range_add, Nat.add_assoc]

theorem bytes_take (buffer : Buffer) (offset count limit : Nat) :
    (buffer.bytes offset count).take limit = buffer.bytes offset (min limit count) := by
  rw [bytes, ← List.map_take, List.take_range]
  rfl

/-- Consecutive windows of one size make up one window. -/
theorem bytes_windows (buffer : Buffer) (size count : Nat) :
    (List.range count).flatMap (fun index => buffer.bytes (index * size) size) =
      buffer.bytes 0 (count * size) := by
  induction count with
  | zero => simp [bytes]
  | succ count induction =>
      rw [List.range_succ, List.flatMap_append, induction, Nat.add_mul, Nat.one_mul, bytes_add]
      simp

/-- Cutting a piece out of a list and reading it back is reading the list. -/
theorem bytes_ofList_piece (values : List UInt8) (offset size : Nat) :
    (ofList ((values.drop offset).take size)).bytes 0 size =
      (ofList values).bytes offset size := by
  apply bytes_congr
  intro index bound
  simp only [ofList, List.getD_eq_getElem?_getD, Nat.zero_add]
  rw [List.getElem?_take_of_lt bound, List.getElem?_drop]

theorem bytes_ofList_take (values : List UInt8) {count limit : Nat}
    (short : limit ≤ values.length) (fits : limit ≤ count) :
    ((ofList values).bytes 0 count).take limit = values.take limit := by
  have size : (values.take limit).length = limit := by
    rw [List.length_take]
    omega
  have prefixBytes : (ofList values).bytes 0 (values.take limit).length = values.take limit := by
    apply bytes_eq_of_getD
    intro index bound
    rw [size] at bound
    simp only [ofList, List.getD_eq_getElem?_getD, Nat.zero_add]
    rw [List.getElem?_take_of_lt bound]
  rw [size] at prefixBytes
  rw [bytes_take, Nat.min_eq_left fits]
  exact prefixBytes

/-! ## Fields and windows -/

theorem getU16_congr {left right : Buffer} {leftOffset rightOffset : Nat}
    (agree : ∀ index, index < 2 →
      left (leftOffset + index) = right (rightOffset + index)) :
    left.getU16 leftOffset = right.getU16 rightOffset := by
  have low := agree 0 (by omega)
  have high := agree 1 (by omega)
  simp only [Nat.add_zero] at low
  simp only [getU16, low, high]

theorem getU32_congr {left right : Buffer} {leftOffset rightOffset : Nat}
    (agree : ∀ index, index < 4 →
      left (leftOffset + index) = right (rightOffset + index)) :
    left.getU32 leftOffset = right.getU32 rightOffset := by
  have low : left.getU16 leftOffset = right.getU16 rightOffset :=
    getU16_congr fun index bound => agree index (by omega)
  have high : left.getU16 (leftOffset + 2) = right.getU16 (rightOffset + 2) :=
    getU16_congr fun index bound => by
      simpa [Nat.add_assoc] using agree (2 + index) (by omega)
  simp only [getU32, low, high]

theorem getU64_congr {left right : Buffer} {leftOffset rightOffset : Nat}
    (agree : ∀ index, index < 8 →
      left (leftOffset + index) = right (rightOffset + index)) :
    left.getU64 leftOffset = right.getU64 rightOffset := by
  have low : left.getU32 leftOffset = right.getU32 rightOffset :=
    getU32_congr fun index bound => agree index (by omega)
  have high : left.getU32 (leftOffset + 4) = right.getU32 (rightOffset + 4) :=
    getU32_congr fun index bound => by
      simpa [Nat.add_assoc] using agree (4 + index) (by omega)
  simp only [getU64, low, high]

theorem getU16_copy_outside {buffer source : Buffer} {offset count start : Nat}
    (outside : start + 2 ≤ offset ∨ offset + count ≤ start) :
    (buffer.copy offset count source).getU16 start = buffer.getU16 start :=
  getU16_congr fun _ bound => copy_outside (by omega)

theorem getU32_copy_outside {buffer source : Buffer} {offset count start : Nat}
    (outside : start + 4 ≤ offset ∨ offset + count ≤ start) :
    (buffer.copy offset count source).getU32 start = buffer.getU32 start :=
  getU32_congr fun _ bound => copy_outside (by omega)

theorem getU64_copy_outside {buffer source : Buffer} {offset count start : Nat}
    (outside : start + 8 ≤ offset ∨ offset + count ≤ start) :
    (buffer.copy offset count source).getU64 start = buffer.getU64 start :=
  getU64_congr fun _ bound => copy_outside (by omega)

theorem getU16_lt (buffer : Buffer) (offset : Nat) :
    buffer.getU16 offset < 65536 := by
  have low := (buffer offset).toNat_lt
  have high := (buffer (offset + 1)).toNat_lt
  simp only [getU16]
  omega

theorem getU32_lt (buffer : Buffer) (offset : Nat) :
    buffer.getU32 offset < 4294967296 := by
  have low := buffer.getU16_lt offset
  have high := buffer.getU16_lt (offset + 2)
  simp only [getU32]
  omega

/-! ## Reading back a stored number -/

theorem littleEndian_toNat (value index : Nat) :
    (littleEndian value index).toNat = value / 256 ^ index % 256 := by
  simp [littleEndian, UInt8.toNat_ofNat']

theorem littleEndian_testBit (value index bit : Nat) :
    (littleEndian value index).toNat.testBit bit =
      (decide (bit < 8) && value.testBit (8 * index + bit)) := by
  have byte : (256 : Nat) = 2 ^ 8 := rfl
  rw [littleEndian_toNat, byte, ← Nat.pow_mul, Nat.testBit_mod_two_pow,
    Nat.testBit_div_two_pow, Nat.add_comm]

theorem getU16_littleEndian (value : Nat) :
    (littleEndian value).getU16 0 = value % 65536 := by
  simp only [getU16, littleEndian_toNat]
  omega

theorem getU32_littleEndian (value : Nat) :
    (littleEndian value).getU32 0 = value % 4294967296 := by
  simp only [getU32, getU16, littleEndian_toNat]
  omega

theorem getU64_littleEndian (value : Nat) :
    (littleEndian value).getU64 0 = value % 18446744073709551616 := by
  simp only [getU64, getU32, getU16, littleEndian_toNat]
  omega

theorem getU16_putU16 (buffer : Buffer) (offset value : Nat) :
    (buffer.putU16 offset value).getU16 offset = value % 65536 := by
  rw [← getU16_littleEndian]
  apply getU16_congr
  intro index bound
  rw [putU16, copy_inside (by omega) (by omega)]
  congr 1
  omega

theorem getU32_putU32 (buffer : Buffer) (offset value : Nat) :
    (buffer.putU32 offset value).getU32 offset = value % 4294967296 := by
  rw [← getU32_littleEndian]
  apply getU32_congr
  intro index bound
  rw [putU32, copy_inside (by omega) (by omega)]
  congr 1
  omega

theorem getU64_putU64 (buffer : Buffer) (offset value : Nat) :
    (buffer.putU64 offset value).getU64 offset = value % 18446744073709551616 := by
  rw [← getU64_littleEndian]
  apply getU64_congr
  intro index bound
  rw [putU64, copy_inside (by omega) (by omega)]
  congr 1
  omega

/-- Writing the number that is already there changes nothing. -/
theorem putU32_getU32 (buffer : Buffer) (offset : Nat) :
    buffer.putU32 offset (buffer.getU32 offset) = buffer := by
  funext index
  by_cases inside : offset ≤ index ∧ index < offset + 4
  · rw [putU32, copy_inside inside.1 inside.2]
    apply UInt8.toNat_inj.mp
    rw [littleEndian_toNat]
    have first := (buffer offset).toNat_lt
    have second := (buffer (offset + 1)).toNat_lt
    have third := (buffer (offset + 2)).toNat_lt
    have fourth := (buffer (offset + 2 + 1)).toNat_lt
    have position : index = offset ∨ index = offset + 1 ∨ index = offset + 2 ∨
        index = offset + 2 + 1 := by omega
    rcases position with rfl | rfl | rfl | rfl <;>
      simp only [getU32, getU16, Nat.add_sub_cancel_left, Nat.sub_self, Nat.add_assoc] at * <;>
      omega
  · exact copy_outside (by omega)

/-- The bits of a number are those of its bytes. -/
theorem getU32_testBit (buffer : Buffer) (offset : Nat) {index bit : Nat} (inside : index < 4)
    (small : bit < 8) :
    (buffer.getU32 offset).testBit (8 * index + bit) =
      (buffer (offset + index)).toNat.testBit bit := by
  have stored := congrFun (buffer.putU32_getU32 offset) (offset + index)
  rw [putU32, copy_inside (by omega) (by omega), Nat.add_sub_cancel_left] at stored
  rw [← stored, littleEndian_testBit, decide_eq_true small, Bool.true_and]

end Buffer

/-! ## Masks -/

theorem and_lowMask (value width : Nat) :
    value &&& (2 ^ width - 1) = value % 2 ^ width :=
  Nat.and_two_pow_sub_one_eq_mod value width

theorem and_highMask {value : Nat} (width : Nat) {total : Nat} (fits : value < 2 ^ total)
    (ordered : width ≤ total) :
    value &&& (2 ^ total - 2 ^ width) = value / 2 ^ width * 2 ^ width := by
  apply Nat.eq_of_testBit_eq
  intro index
  have maskBits : (2 ^ total - 2 ^ width).testBit index =
      (decide (width ≤ index) && decide (index < total)) := by
    have product : 2 ^ total - 2 ^ width = (2 ^ (total - width) - 1) * 2 ^ width := by
      rw [Nat.sub_mul, ← Nat.pow_add, Nat.sub_add_cancel ordered, Nat.one_mul]
    rw [product, Nat.testBit_mul_two_pow, Nat.testBit_two_pow_sub_one]
    by_cases above : width ≤ index
    · simp only [above, decide_true, Bool.true_and, decide_eq_decide]
      omega
    · simp [above]
  rw [Nat.testBit_and, maskBits, Nat.testBit_mul_two_pow, Nat.testBit_div_two_pow]
  by_cases above : width ≤ index
  · rw [Nat.sub_add_cancel above]
    by_cases below : index < total
    · simp [above, below]
    · have clear : value.testBit index = false :=
        Nat.testBit_lt_two_pow (Nat.lt_of_lt_of_le fits
          (Nat.pow_le_pow_right (by omega) (by omega)))
      simp [clear]
  · simp [above]

/-- Joining the low bits of one number with the high bits of another, as a
read-modify-write of a packed field does. -/
theorem and_or_highMask (low high width total : Nat) (fits : high < 2 ^ total)
    (ordered : width ≤ total) :
    (low % 2 ^ width) ||| (high &&& (2 ^ total - 2 ^ width)) =
      low % 2 ^ width + high / 2 ^ width * 2 ^ width := by
  rw [and_highMask width fits ordered, Nat.or_comm, Nat.mul_comm, ← Nat.two_pow_add_eq_or_of_lt
    (Nat.mod_lt _ (Nat.two_pow_pos width))]
  omega

end Foundation

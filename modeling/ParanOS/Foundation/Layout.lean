import ParanOS.Foundation.Bytes

/-! # Bytes laid out in a buffer

A list of bytes at an offset of a buffer. Concatenated lists lie one behind the other,
and a field inside a list is the field of the buffer.
-/

namespace Foundation

/-- The little-endian bytes of a 32-bit number. -/
def le32 (value : Nat) : List UInt8 := (Buffer.littleEndian value).bytes 0 4

@[simp] theorem le32_length (value : Nat) : (le32 value).length = 4 := Buffer.bytes_length _ _ _

namespace Buffer

/-- The list lies in the buffer from an offset on. -/
def Holds (buffer : Buffer) (offset : Nat) (values : List UInt8) : Prop :=
  ∀ index < values.length, buffer (offset + index) = ofList values index

theorem holds_ofList (values : List UInt8) : (ofList values).Holds 0 values := by
  intro index _
  rw [Nat.zero_add]

variable {buffer : Buffer} {offset : Nat}

theorem holds_append {first second : List UInt8} :
    buffer.Holds offset (first ++ second) ↔
      buffer.Holds offset first ∧ buffer.Holds (offset + first.length) second := by
  simp only [Holds, ofList, List.getD_eq_getElem?_getD, List.length_append]
  constructor
  · intro holds
    refine ⟨?_, ?_⟩
    · intro index below
      rw [holds index (by omega), List.getElem?_append_left below]
    · intro index below
      rw [Nat.add_assoc, holds _ (by omega), List.getElem?_append_right (by omega),
        Nat.add_sub_cancel_left]
  · rintro ⟨holdsFirst, holdsSecond⟩ index below
    by_cases early : index < first.length
    · rw [holdsFirst index early, List.getElem?_append_left early]
    · have late := holdsSecond (index - first.length) (by omega)
      rw [List.getElem?_append_right (by omega), ← late]
      congr 1
      omega

theorem Holds.getU16 {values : List UInt8} {field : Nat} (holds : buffer.Holds offset values)
    (inside : field + 2 ≤ values.length) :
    buffer.getU16 (offset + field) = (ofList values).getU16 field := by
  apply getU16_congr
  intro index below
  rw [Nat.add_assoc, holds _ (by omega)]

theorem Holds.getU32 {values : List UInt8} {field : Nat} (holds : buffer.Holds offset values)
    (inside : field + 4 ≤ values.length) :
    buffer.getU32 (offset + field) = (ofList values).getU32 field := by
  apply getU32_congr
  intro index below
  rw [Nat.add_assoc, holds _ (by omega)]

theorem Holds.getU32_le32 {value : Nat} (holds : buffer.Holds offset (le32 value))
    (narrow : value < 4294967296) : buffer.getU32 offset = value := by
  have stored : buffer.getU32 offset = (littleEndian value).getU32 0 := by
    apply getU32_congr
    intro index below
    rw [holds index (by simpa using below)]
    simp [ofList, le32, bytes, List.getD_eq_getElem?_getD, below]
  rw [stored, getU32_littleEndian, Nat.mod_eq_of_lt narrow]

end Buffer

end Foundation

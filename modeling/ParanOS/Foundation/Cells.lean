import ParanOS.Foundation.Device

/-! # Numbers packed in sectors

An array of 32-bit numbers that lie one behind the other in sectors of equal size. What is
stored at one index is read back there and changes no other index, as long as different
sectors of the array have different addresses.
-/

namespace Foundation

/-- Cells of equal width in one sector do not overlap. -/
theorem cells_apart {width size index other : Nat} (aligned : width ∣ size)
    (different : other ≠ index) (sameSector : width * other / size = width * index / size) :
    width * other % size + width ≤ width * index % size ∨
      width * index % size + width ≤ width * other % size := by
  rcases aligned with ⟨count, rfl⟩
  rcases Nat.eq_zero_or_pos width with rfl | positive
  · simp
  · rw [Nat.mul_div_mul_left _ _ positive, Nat.mul_div_mul_left _ _ positive] at sameSector
    rw [Nat.mul_mod_mul_left, Nat.mul_mod_mul_left]
    have left := Nat.div_add_mod other count
    have right := Nat.div_add_mod index count
    rw [sameSector] at left
    rcases Nat.lt_or_gt_of_ne (show other % count ≠ index % count by omega) with before | behind
    · exact .inl (Nat.mul_le_mul_left width before)
    · exact .inr (Nat.mul_le_mul_left width behind)

/-- An array of 32-bit numbers: the bytes of a sector, and the addresses of the sectors. -/
structure Cells where
  size : Nat
  lba : Nat → Nat

namespace Cells

variable {cells : Cells} {limit index other : Nat}

/-- The address of the sector that the number is in. -/
def place (cells : Cells) (index : Nat) : Nat := cells.lba (4 * index / cells.size)

def get (cells : Cells) (sectors : Nat → Buffer) (index : Nat) : Nat :=
  (sectors (cells.place index)).getU32 (4 * index % cells.size)

def set (cells : Cells) (sectors : Nat → Buffer) (index value : Nat) : Nat → Buffer :=
  store sectors (cells.place index)
    ((sectors (cells.place index)).putU32 (4 * index % cells.size) value)

/-- Below the limit, no number lies in two sectors and no two sectors have one address. -/
structure Apart (cells : Cells) (limit : Nat) : Prop where
  aligned : 4 ∣ cells.size
  distinct : ∀ index < limit, ∀ other < limit, cells.place other = cells.place index →
    4 * other / cells.size = 4 * index / cells.size

theorem get_set_same (sectors : Nat → Buffer) (value : Nat) :
    cells.get (cells.set sectors index value) index = value % 4294967296 := by
  rw [get, set, store_same, Buffer.getU32_putU32]

theorem get_set_other (apart : cells.Apart limit) (inside : index < limit)
    (inside' : other < limit) (different : other ≠ index) (sectors : Nat → Buffer) (value : Nat) :
    cells.get (cells.set sectors index value) other = cells.get sectors other := by
  rw [get, set]
  by_cases sameSector : cells.place other = cells.place index
  · have quotients := apart.distinct index inside other inside' sameSector
    rw [sameSector, store_same, Buffer.putU32, Buffer.getU32_copy_outside
      (cells_apart apart.aligned different quotients), ← sameSector, get]
  · rw [store_other sameSector, get]

theorem set_elsewhere {lba : Nat} (different : lba ≠ cells.place index) (sectors : Nat → Buffer)
    (value : Nat) : cells.set sectors index value lba = sectors lba :=
  store_other different

end Cells

end Foundation

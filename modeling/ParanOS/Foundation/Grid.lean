import Mathlib.Algebra.Order.Ring.Int
import Mathlib.Tactic.Linarith

/-! # Places in a grid

Division of an offset by the size of a cell, rounding towards zero as in C. From 0 on the
quotient is the number of the cell; the last offsets below 0 give the first cell as well.
-/

namespace Foundation

theorem tdiv_eq_iff {offset size index : Int} (positive : 0 < size) (inside : 0 ≤ offset) :
    Int.tdiv offset size = index ↔ index * size ≤ offset ∧ offset < (index + 1) * size := by
  rw [Int.tdiv_eq_ediv_of_nonneg inside]
  constructor
  · intro quotient
    rw [← quotient]
    exact ⟨Int.ediv_mul_le offset (Int.ne_of_gt positive),
      Int.lt_ediv_add_one_mul_self offset positive⟩
  · intro bounds
    have upper : offset / size < index + 1 := Int.ediv_lt_of_lt_mul positive bounds.2
    have lower : index ≤ offset / size := Int.le_ediv_of_mul_le positive bounds.1
    omega

/-- Rounding towards zero takes what is just before the first cell for a part of it. -/
theorem tdiv_eq_zero {offset size : Int} (below : offset ≤ 0) (near : -size < offset) :
    Int.tdiv offset size = 0 := by
  have flipped : Int.tdiv (-offset) size = 0 := Int.tdiv_eq_zero_of_lt (by omega) (by omega)
  rw [Int.neg_tdiv] at flipped
  omega

/-- Counted row by row, a cell is one of the grid. -/
theorem row_col_lt {row col rows cols : Nat} (inRows : row < rows) (inCols : col < cols) :
    row * cols + col < rows * cols := by
  have next : (row + 1) * cols ≤ rows * cols := Nat.mul_le_mul_right _ inRows
  rw [Nat.succ_mul] at next
  omega

/-- A cell is known by its row and its column. -/
theorem row_col_iff {index row col cols : Nat} (inside : col < cols) :
    index = row * cols + col ↔ index / cols = row ∧ index % cols = col := by
  constructor
  · rintro rfl
    rw [Nat.mul_comm, Nat.mul_add_div (by omega), Nat.div_eq_of_lt inside, Nat.mul_add_mod,
      Nat.mod_eq_of_lt inside]
    exact ⟨rfl, rfl⟩
  · rintro ⟨rfl, rfl⟩
    exact (Nat.div_add_mod' index cols).symm

theorem row_col_inj {row col row' col' cols : Nat} (inside : col < cols) (inside' : col' < cols) :
    row * cols + col = row' * cols + col' ↔ row = row' ∧ col = col' := by
  constructor
  · intro same
    have place := (row_col_iff inside).mp same.symm
    have place' := (@row_col_iff _ row' col' cols inside').mp rfl
    rw [place.1, place.2] at place'
    exact place'
  · rintro ⟨rfl, rfl⟩
    rfl

end Foundation

import ParanOS.Foundation.Grid

/-! # Scaling a grid

A picture of some rows and columns is shown with others: a cell of the target takes the cell of
the source at the same fraction of the way, rounded down. To keep the proportions, one side is
given and the other one is the source's, scaled and rounded; if that is too long, the other side
is given instead.
-/

namespace Foundation

/-- The place in the source for a place in the target. -/
def nearest (source target index : Nat) : Nat := index * source / target

theorem nearest_lt {source target index : Nat} (some : 0 < source) (inside : index < target) :
    nearest source target index < source := by
  apply Nat.div_lt_of_lt_mul
  exact Nat.mul_lt_mul_of_pos_right inside some

theorem nearest_index_lt {rows cols targetRows targetCols y x : Nat} (nonempty : 0 < rows * cols)
    (inRows : y < targetRows) (inCols : x < targetCols) :
    nearest rows targetRows y * cols + nearest cols targetCols x < rows * cols :=
  row_col_lt (nearest_lt (Nat.pos_of_mul_pos_right nonempty) inRows)
    (nearest_lt (Nat.pos_of_mul_pos_left nonempty) inCols)

/-- A side of the source, scaled as the other one is, with something added before the division
to round. -/
def scaled (side other given rounding : Nat) : Nat := (side * given + rounding) / other

/-- Where one side would be scaled to more than there is, the other side fits. -/
theorem scaled_le_of_lt_scaled {side other given limit rounding rounding' : Nat}
    (small : rounding < other) (small' : rounding' < side)
    (long : limit < scaled side other given rounding) :
    scaled other side limit rounding' ≤ given := by
  have above : (limit + 1) * other ≤ side * given + rounding := by
    rw [← Nat.le_div_iff_mul_le (by omega)]
    exact long
  rw [Nat.succ_mul] at above
  have less : scaled other side limit rounding' < given + 1 := by
    apply Nat.div_lt_of_lt_mul
    rw [Nat.mul_succ, Nat.mul_comm other]
    omega
  omega

end Foundation

import ParanOS.Screen.Framebuffer

/-! # Copies between rectangles of the visible buffer

A rectangle is copied row by row, downwards or upwards, and each row byte by byte in the order
that the addresses ask for. No byte is read after it has been overwritten, however the
rectangles overlap.
-/

namespace ParanOS

open Foundation

namespace Framebuffer

/-- The rectangle is inside the screen. -/
def Contains (fb : Framebuffer) (x y w h : Int) : Prop :=
  0 ≤ x ∧ 0 ≤ y ∧ x + w ≤ s32 fb.width ∧ y + h ≤ s32 fb.height

instance (fb : Framebuffer) (x y w h : Int) : Decidable (fb.Contains x y w h) :=
  inferInstanceAs (Decidable (_ ∧ _))

/-- The rows of a rectangle in the order in which they are copied. -/
def rowOrder (h : Nat) (sy dy : Int) : List Nat :=
  if dy > sy then (List.range h).reverse else List.range h

/-- What `fb_copy_rect_front` copies inside the visible buffer. -/
def copyRectFront (fb : Framebuffer) (sx sy w h dx dy : Int) : List (Copy Nat) :=
  if w ≤ 0 ∨ h ≤ 0 then []
  else if fb.bpp ≠ 24 ∧ fb.bpp ≠ 32 then []
  else if sx < 0 ∨ sy < 0 ∨ dx < 0 ∨ dy < 0 then []
  else if sx + w > s32 fb.width ∨ dx + w > s32 fb.width ∨ sy + h > s32 fb.height ∨
      dy + h > s32 fb.height then []
  else
    (rowOrder h.toNat sy dy).flatMap fun i : Nat =>
      memmoveExact (fb.offset dx.toNat (dy + i).toNat) (fb.offset sx.toNat (sy + i).toNat)
        (w.toNat * (fb.bpp / 8))

theorem mem_rowOrder {h : Nat} {sy dy : Int} {i : Nat} : i ∈ rowOrder h sy dy ↔ i < h := by
  rw [rowOrder]
  split <;> simp

/-- The row that is written is not one that is read later. -/
theorem rowOrder_pairwise (h : Nat) (sy dy : Int) :
    (rowOrder h sy dy).Pairwise fun earlier later : Nat => dy + earlier ≠ sy + later := by
  rw [rowOrder]
  split
  · next down =>
      rw [List.pairwise_reverse]
      apply List.pairwise_lt_range.imp
      intro later earlier less
      omega
  · next up =>
      apply List.pairwise_lt_range.imp
      intro earlier later less
      omega

/-- A byte of a row of the rectangle does not belong to another row. -/
theorem Layout.row_byte_ne {fb : Framebuffer} (layout : fb.Layout)
    {x x' y y' w index index' : Nat} (inside : x + w ≤ fb.width) (inside' : x' + w ≤ fb.width)
    (small : index < w * (fb.bpp / 8)) (small' : index' < w * (fb.bpp / 8)) (other : y ≠ y') :
    fb.offset x y + index ≠ fb.offset x' y' + index' := by
  have rows := layout.rows
  have fits : (x + w) * (fb.bpp / 8) ≤ fb.width * (fb.bpp / 8) := Nat.mul_le_mul_right _ inside
  have fits' : (x' + w) * (fb.bpp / 8) ≤ fb.width * (fb.bpp / 8) := Nat.mul_le_mul_right _ inside'
  rw [Nat.add_mul] at fits fits'
  rw [offset, offset, Nat.add_assoc, Nat.add_assoc]
  intro same
  exact other ((row_col_inj (by omega) (by omega)).mp same).1

section

variable {fb : Framebuffer} {sx sy w h dx dy : Int}

/-- The copies of a call that passes the checks. -/
theorem copyRectFront_inside (layout : fb.Layout) (wide : 0 < w) (high : 0 < h)
    (source : fb.Contains sx sy w h) (target : fb.Contains dx dy w h) :
    fb.copyRectFront sx sy w h dx dy = (rowOrder h.toNat sy dy).flatMap fun i =>
      memmoveExact (fb.offset dx.toNat (dy.toNat + i)) (fb.offset sx.toNat (sy.toNat + i))
        (w.toNat * (fb.bpp / 8)) := by
  rcases source with ⟨left, top, right, bottom⟩
  rcases target with ⟨left', top', right', bottom'⟩
  have depth := layout.depth
  rw [copyRectFront, if_neg (by omega), if_neg (by omega), if_neg (by omega), if_neg (by omega)]
  congr 1
  funext i
  rw [Int.toNat_add top' (Int.natCast_nonneg i), Int.toNat_add top (Int.natCast_nonneg i),
    Int.toNat_natCast]

theorem Contains.right_le {x y : Int} (inside : fb.Contains x y w h) (wide : 0 < w) :
    x.toNat + w.toNat ≤ fb.width := by
  rcases inside with ⟨left, _, right, _⟩
  have bound := s32_le fb.width
  omega

/-- No byte is read after it has been overwritten. -/
theorem copyRectFront_unspoiled (layout : fb.Layout) (wide : 0 < w) (high : 0 < h)
    (source : fb.Contains sx sy w h) (target : fb.Contains dx dy w h) :
    Copy.Unspoiled (fb.copyRectFront sx sy w h dx dy) := by
  rw [copyRectFront_inside layout wide high source target, Copy.Unspoiled, List.pairwise_flatMap]
  constructor
  · intro i _
    exact memmoveExact_unspoiled _ _ _
  · apply (rowOrder_pairwise h.toNat sy dy).imp
    intro i i' apart copy member copy' member'
    rcases exists_of_mem_memmoveExact member with ⟨index, below, rfl⟩
    rcases exists_of_mem_memmoveExact member' with ⟨index', below', rfl⟩
    have top := source.2.1
    have top' := target.2.1
    exact layout.row_byte_ne (target.right_le wide) (source.right_le wide) below below' (by omega)

/-- The copies of a call that moves the rectangle. -/
theorem mem_copyRectFront (layout : fb.Layout) (wide : 0 < w) (high : 0 < h)
    (source : fb.Contains sx sy w h) (target : fb.Contains dx dy w h)
    (moved : ¬ (dx = sx ∧ dy = sy)) {copy : Copy Nat} :
    copy ∈ fb.copyRectFront sx sy w h dx dy ↔
      ∃ i < h.toNat, ∃ index < w.toNat * (fb.bpp / 8),
        copy = ⟨fb.offset dx.toNat (dy.toNat + i) + index,
          fb.offset sx.toNat (sy.toNat + i) + index⟩ := by
  rw [copyRectFront_inside layout wide high source target, List.mem_flatMap]
  have different : ∀ i : Nat, fb.offset dx.toNat (dy.toNat + i) ≠
      fb.offset sx.toNat (sy.toNat + i) := by
    intro i same
    have right := source.right_le wide
    have right' := target.right_le wide
    have place := (layout.byte_inj (by omega) (by omega) layout.bytes_pos layout.bytes_pos).mp same
    have left := source.1
    have left' := target.1
    have top := source.2.1
    have top' := target.2.1
    exact moved (by omega)
  constructor
  · rintro ⟨i, inOrder, member⟩
    exact ⟨i, mem_rowOrder.mp inOrder, (mem_memmoveExact (different i)).mp member⟩
  · rintro ⟨i, below, member⟩
    exact ⟨i, mem_rowOrder.mpr below, (mem_memmoveExact (different i)).mpr member⟩

/-- For all rectangles inside the screen, however they overlap: the destination has the pixels
that the source had before, and every other byte is unchanged. -/
theorem copyRectFront_snapshot (layout : fb.Layout) (wide : 0 < w) (high : 0 < h)
    (source : fb.Contains sx sy w h) (target : fb.Contains dx dy w h) (front : Buffer) :
    let front' := Copy.run (fb.copyRectFront sx sy w h dx dy) front
    (∀ i j byte : Nat, i < w → j < h → byte < fb.bpp / 8 →
        front' (fb.offset (dx.toNat + i) (dy.toNat + j) + byte) =
          front (fb.offset (sx.toNat + i) (sy.toNat + j) + byte)) ∧
      ∀ place, (∀ i j byte : Nat, i < w → j < h → byte < fb.bpp / 8 →
          place ≠ fb.offset (dx.toNat + i) (dy.toNat + j) + byte) →
        front' place = front place := by
  intro front'
  by_cases moved : dx = sx ∧ dy = sy
  · rcases moved with ⟨rfl, rfl⟩
    have unmoved : front' = front := by
      have nothing : fb.copyRectFront dx dy w h dx dy = [] := by
        rw [copyRectFront_inside layout wide high source target, List.flatMap_eq_nil_iff]
        intro i _
        rw [memmoveExact, if_pos (.inr rfl)]
      change Copy.run (fb.copyRectFront dx dy w h dx dy) front = front
      rw [nothing]
      rfl
    rw [unmoved]
    exact ⟨fun _ _ _ _ _ _ => rfl, fun _ _ => rfl⟩
  · have copies := fun copy => @mem_copyRectFront fb sx sy w h dx dy layout wide high source target
      moved copy
    have snapshot : front' = Copy.transfer (fb.copyRectFront sx sy w h dx dy) front front :=
      Copy.run_eq_transfer (copyRectFront_unspoiled layout wide high source target) front
    have right := target.right_le wide
    rw [snapshot]
    constructor
    · intro i j byte column row small
      have index := @row_col_lt i byte w.toNat (fb.bpp / 8) (by omega) small
      rw [offset_add_byte, offset_add_byte]
      apply Copy.transfer_of_exists
      · exact ⟨_, (copies _).mpr ⟨j, by omega, _, index, rfl⟩, rfl⟩
      · intro copy member here
        rcases (copies copy).mp member with ⟨j', _, index', below', rfl⟩
        have sameRow : dy.toNat + j' = dy.toNat + j := by
          by_contra other
          exact layout.row_byte_ne right right below' index other here
        have sameIndex : index' = i * (fb.bpp / 8) + byte := by
          rw [sameRow] at here
          exact Nat.add_left_cancel here
        rw [sameIndex, Nat.add_left_cancel sameRow]
    · intro place outside
      apply Copy.transfer_of_forall_ne
      intro copy member here
      rcases (copies copy).mp member with ⟨j, row, index, below, rfl⟩
      have column : index / (fb.bpp / 8) < w.toNat :=
        Nat.div_lt_of_lt_mul (by rwa [Nat.mul_comm] at below)
      apply outside (index / (fb.bpp / 8)) j (index % (fb.bpp / 8)) (by omega) (by omega)
        (Nat.mod_lt _ layout.bytes_pos)
      rw [offset_add_byte, Nat.div_add_mod']
      exact here.symm

/-- A rectangle is moved to the right over a part of itself. -/
theorem copyRectFront_snapshot_right :
    let fb : Framebuffer := ⟨4, 1, 12, 24⟩
    let front : Buffer := fun place => UInt8.ofNat place
    let front' := Copy.run (fb.copyRectFront 0 0 3 1 1 0) front
    front' (fb.offset 2 0) = front (fb.offset 1 0) ∧
      front' (fb.offset 3 0) = front (fb.offset 2 0) := by
  intro fb front front'
  have copied := (@copyRectFront_snapshot fb 0 0 3 1 1 0 ⟨.inl rfl, by decide⟩ (by decide)
    (by decide) (by decide) (by decide) front).1
  exact ⟨copied 1 0 0 (by decide) (by decide) (by decide),
    copied 2 0 0 (by decide) (by decide) (by decide)⟩

end

end Framebuffer

end ParanOS

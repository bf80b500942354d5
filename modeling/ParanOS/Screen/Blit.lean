import ParanOS.Screen.Copy

/-! # Updates of a part of the screen

The corners of a rectangle are clamped to the screen, the left one from below and the right one
from above only. For a rectangle beside the screen they change places, and the number of bytes
in a row is then the unsigned value of a negative difference.
-/

namespace ParanOS

open Foundation

/-- The conversion of an `int` to `size_t`. -/
def sizeT (value : Int) : Nat := (value % 18446744073709551616).toNat

/-- What an `int` can be. -/
def IntRange (value : Int) : Prop := -2147483648 ≤ value ∧ value < 2147483648

instance (value : Int) : Decidable (IntRange value) := inferInstanceAs (Decidable (_ ∧ _))

namespace Framebuffer

/-- What `fb_blit_rect_to_front` copies from the back buffer, if there is one, to the visible
buffer. -/
def blitRectToFront (fb : Framebuffer) (x y w h : Int) : List (Copy Nat) :=
  if w ≤ 0 ∨ h ≤ 0 then []
  else
    let x0 := if x < 0 then 0 else x
    let y0 := if y < 0 then 0 else y
    let x1 := if x + w > s32 fb.width then s32 fb.width else x + w
    let y1 := if y + h > s32 fb.height then s32 fb.height else y + h
    let bytes := sizeT (x1 - x0) * (fb.bpp / 8) % 18446744073709551616
    (List.range' y0.toNat (y1 - y0).toNat).flatMap fun yy =>
      memcpyExact (fb.offset x0.toNat yy) (fb.offset x0.toNat yy) bytes

/-- A pixel on the screen that is in the rectangle. -/
def Shows (fb : Framebuffer) (x y w h : Int) (px py : Nat) : Prop :=
  fb.OnScreen px py ∧ x ≤ px ∧ px < x + w ∧ y ≤ py ∧ py < y + h

/-- The copies read and write only bytes of the pixels of the rectangle on the screen; afterwards
these are as in the back buffer, and all other bytes are as before. -/
structure Updates (fb : Framebuffer) (x y w h : Int) (copies : List (Copy Nat)) : Prop where
  accesses : ∀ copy ∈ copies, ∃ px py byte, fb.Shows x y w h px py ∧ byte < fb.bpp / 8 ∧
    copy = ⟨fb.offset px py + byte, fb.offset px py + byte⟩
  shown : ∀ (front back : Buffer) px py byte, fb.Shows x y w h px py → byte < fb.bpp / 8 →
    Copy.transfer copies back front (fb.offset px py + byte) = back (fb.offset px py + byte)
  others : ∀ (front back : Buffer) place,
    (∀ px py byte, fb.Shows x y w h px py → byte < fb.bpp / 8 → place ≠ fb.offset px py + byte) →
      Copy.transfer copies back front place = front place

/-- No row of the rectangle is on the screen. -/
def NoRow (fb : Framebuffer) (y h : Int) : Prop :=
  ∀ row, ¬ (y ≤ row ∧ row < y + h ∧ 0 ≤ row ∧ row < s32 fb.height)

/-- Unless the rectangle has no columns or no row on the screen, it begins at most at the right
edge of the screen and ends at least at the left one. -/
def MeetsEdges (fb : Framebuffer) (x y w h : Int) : Prop :=
  w ≤ 0 ∨ fb.NoRow y h ∨ (x ≤ s32 fb.width ∧ 0 ≤ x + w)

theorem s32_ge (word : Nat) : -2147483648 ≤ s32 word := by
  rw [s32]
  split <;> omega

theorem sizeT_of_nonneg {value : Int} (nonneg : 0 ≤ value) (small : value < 4294967296) :
    sizeT value = value.toNat := by
  rw [sizeT, Int.emod_eq_of_lt nonneg (by omega)]

/-- The bytes of a row, if the corners have changed places. -/
theorem sizeT_of_neg {value : Int} {bytes : Nat} (negative : value < 0)
    (near : -4294967296 ≤ value) (some : 0 < bytes) (few : bytes ≤ 4) :
    0 < sizeT value * bytes % 18446744073709551616 := by
  have wrapped : sizeT value = 18446744073709551616 - value.natAbs := by
    have positive : 0 ≤ value + 18446744073709551616 := by omega
    rw [sizeT, ← Int.add_emod_right, Int.emod_eq_of_lt positive (by omega)]
    omega
  have product : value.natAbs * bytes ≤ 4294967296 * 4 := Nat.mul_le_mul (by omega) few
  have positive : 0 < value.natAbs * bytes := Nat.mul_pos (by omega) some
  have split : (18446744073709551616 - value.natAbs) * bytes =
      18446744073709551616 - value.natAbs * bytes + 18446744073709551616 * (bytes - 1) := by
    rw [Nat.sub_mul]
    omega
  rw [wrapped, split, Nat.add_mul_mod_self_left, Nat.mod_eq_of_lt (by omega)]
  omega

section

variable {fb : Framebuffer} {x y w h : Int}

theorem updates_of_accesses {copies : List (Copy Nat)}
    (accesses : ∀ copy ∈ copies, ∃ px py byte, fb.Shows x y w h px py ∧ byte < fb.bpp / 8 ∧
      copy = ⟨fb.offset px py + byte, fb.offset px py + byte⟩)
    (all : ∀ px py byte, fb.Shows x y w h px py → byte < fb.bpp / 8 →
      ∃ copy ∈ copies, copy.dst = fb.offset px py + byte) : fb.Updates x y w h copies := by
  refine ⟨accesses, ?_, ?_⟩
  · intro front back px py byte shows small
    apply Copy.transfer_of_exists (all px py byte shows small)
    intro copy member here
    rcases accesses copy member with ⟨_, _, _, _, _, rfl⟩
    exact here
  · intro front back place outside
    apply Copy.transfer_of_forall_ne
    intro copy member here
    rcases accesses copy member with ⟨px, py, byte, shows, small, rfl⟩
    exact outside px py byte shows small here.symm

/-- The number of bytes that are copied in a row. -/
def rowBytes (fb : Framebuffer) (x w : Int) : Nat :=
  sizeT (min (x + w) (s32 fb.width) - max x 0) * (fb.bpp / 8) % 18446744073709551616

theorem mem_blitRectToFront (wide : 0 < w) (high : 0 < h) {copy : Copy Nat} :
    copy ∈ fb.blitRectToFront x y w h ↔
      ∃ row : Nat, (y ≤ row ∧ row < y + h ∧ row < s32 fb.height) ∧
        ∃ index < fb.rowBytes x w, copy = ⟨fb.offset (max x 0).toNat row + index,
          fb.offset (max x 0).toNat row + index⟩ := by
  have left : (if x < 0 then 0 else x) = max x 0 := by omega
  have top : (if y < 0 then 0 else y) = max y 0 := by omega
  have right : (if x + w > s32 fb.width then s32 fb.width else x + w) =
      min (x + w) (s32 fb.width) := by omega
  have bottom : (if y + h > s32 fb.height then s32 fb.height else y + h) =
      min (y + h) (s32 fb.height) := by omega
  rw [blitRectToFront, if_neg (by omega)]
  simp only [left, top, right, bottom]
  rw [List.mem_flatMap]
  apply exists_congr
  intro row
  rw [List.mem_range'_1, memcpyExact, Copy.mem_up, rowBytes]
  apply and_congr_left'
  omega

/-- Without rows and columns nothing is copied. -/
theorem blitRectToFront_nothing (nothing : w ≤ 0 ∨ fb.NoRow y h) :
    fb.blitRectToFront x y w h = [] := by
  by_cases positive : 0 < w ∧ 0 < h
  · rw [List.eq_nil_iff_forall_not_mem]
    intro copy member
    rcases (mem_blitRectToFront positive.1 positive.2).mp member with ⟨row, inside, _⟩
    rcases nothing with narrow | noRow
    · omega
    · exact noRow row ⟨inside.1, inside.2.1, Int.natCast_nonneg row, inside.2.2⟩
  · rw [blitRectToFront, if_pos (by omega)]

/-- A row of the rectangle that is on the screen, if the corners stay in order. -/
theorem rowBytes_eq {fb : Framebuffer} {x w : Int} (nonneg : 0 ≤ s32 fb.width)
    (layout : fb.Layout) (wide : 0 < w) (right : IntRange (x + w))
    (meets : x ≤ s32 fb.width ∧ 0 ≤ x + w) :
    fb.rowBytes x w = (min (x + w) (s32 fb.width) - max x 0).toNat * (fb.bpp / 8) := by
  have depth := layout.depth
  have few : fb.bpp / 8 ≤ 4 := by omega
  have upper := right.2
  have small : (min (x + w) (s32 fb.width) - max x 0).toNat * (fb.bpp / 8) ≤ 2147483648 * 4 :=
    Nat.mul_le_mul (by omega) few
  rw [rowBytes, sizeT_of_nonneg (by omega) (by omega), Nat.mod_eq_of_lt (by omega)]

/-- If the corners stay in order, the pixels between them are copied. -/
theorem blitRectToFront_updates (layout : fb.Layout) (nonneg : 0 ≤ s32 fb.width) (wide : 0 < w)
    (high : 0 < h) (right : IntRange (x + w)) (meets : x ≤ s32 fb.width ∧ 0 ≤ x + w) :
    fb.Updates x y w h (fb.blitRectToFront x y w h) := by
  have bytes := rowBytes_eq nonneg layout wide right meets
  have some := layout.bytes_pos
  apply updates_of_accesses
  · intro copy member
    rcases (mem_blitRectToFront wide high).mp member with ⟨row, inside, index, below, rfl⟩
    rw [bytes] at below
    have column : index / (fb.bpp / 8) < (min (x + w) (s32 fb.width) - max x 0).toNat :=
      Nat.div_lt_of_lt_mul (by rwa [Nat.mul_comm] at below)
    have place := Nat.div_add_mod' index (fb.bpp / 8)
    generalize index / (fb.bpp / 8) = i at column place
    refine ⟨(max x 0).toNat + i, row, index % (fb.bpp / 8), ?_, Nat.mod_lt _ some, ?_⟩
    · constructor
      · exact ⟨by omega, by omega, by omega, inside.2.2⟩
      · exact ⟨by omega, by omega, inside.1, inside.2.1⟩
    · rw [offset_add_byte, place]
  · intro px py byte shows small
    rcases shows with ⟨⟨_, _, onRight, onBottom⟩, atLeft, atRight, atTop, atBottom⟩
    have column : px = (max x 0).toNat + (px - (max x 0).toNat) := by omega
    have index := @row_col_lt (px - (max x 0).toNat) byte
      (min (x + w) (s32 fb.width) - max x 0).toNat (fb.bpp / 8) (by omega) small
    refine ⟨_, (mem_blitRectToFront wide high).mpr
      ⟨py, ⟨atTop, atBottom, onBottom⟩, _, by rwa [bytes], rfl⟩, ?_⟩
    rw [← offset_add_byte, ← column]

/-- Where there is nothing to copy, nothing of the rectangle is on the screen. -/
theorem updates_of_nothing (nothing : w ≤ 0 ∨ fb.NoRow y h) :
    fb.Updates x y w h (fb.blitRectToFront x y w h) := by
  rw [blitRectToFront_nothing nothing]
  apply updates_of_accesses
  · intro copy member
    cases member
  · intro px py byte shows small
    rcases shows with ⟨⟨_, _, onRight, onBottom⟩, atLeft, atRight, atTop, atBottom⟩
    rcases nothing with narrow | noRow
    · omega
    · exact absurd ⟨atTop, atBottom, Int.natCast_nonneg py, onBottom⟩ (noRow py)

/-- If the corners had changed places, a byte would be copied that is not of the rectangle. -/
theorem Updates.meetsEdges (layout : fb.Layout) (left : IntRange x) (right : IntRange (x + w))
    (updates : fb.Updates x y w h (fb.blitRectToFront x y w h)) : fb.MeetsEdges x y w h := by
  have depth := layout.depth
  by_contra outside
  rw [MeetsEdges, not_or, not_or, NoRow, not_forall] at outside
  rcases outside with ⟨wide, ⟨row, isRow⟩, beside⟩
  rcases not_not.mp isRow with ⟨atTop, atBottom, onTop, onBottom⟩
  have wide : 0 < w := by omega
  have high : 0 < h := by omega
  have some : 0 < fb.rowBytes x w := by
    have lower := left.2
    have lower' := right.1
    have range := s32_ge fb.width
    exact sizeT_of_neg (by omega) (by omega) layout.bytes_pos (by omega)
  have copied := (@mem_blitRectToFront fb x y w h wide high _).mpr
    ⟨row.toNat, by omega, 0, some, rfl⟩
  rcases updates.accesses _ copied with ⟨px, py, byte, shows, _⟩
  rcases shows with ⟨⟨_, _, onRight, _⟩, atLeft, atRight, _, _⟩
  omega

/-- For every rectangle whose corners are ints: an update copies the pixels of the rectangle that
are on the screen and nothing else just if the rectangle meets the condition. -/
theorem blitRectToFront_updates_iff (layout : fb.Layout) (pitch : fb.pitch < 4294967296)
    (left : IntRange x) (right : IntRange (x + w)) :
    fb.Updates x y w h (fb.blitRectToFront x y w h) ↔ fb.MeetsEdges x y w h := by
  have depth := layout.depth
  have rows := layout.rows
  have three : fb.width * 3 ≤ fb.width * (fb.bpp / 8) := Nat.mul_le_mul_left _ (by omega)
  have nonneg : 0 ≤ s32 fb.width := by
    rw [s32_of_lt (by omega)]
    exact Int.natCast_nonneg _
  constructor
  · exact fun updates => updates.meetsEdges layout left right
  · rintro (narrow | noRow | edges)
    · exact updates_of_nothing (.inl narrow)
    · exact updates_of_nothing (.inr noRow)
    · by_cases positive : 0 < w ∧ 0 < h
      · exact blitRectToFront_updates layout nonneg positive.1 positive.2 right edges
      · apply updates_of_nothing
        by_cases wide : 0 < w
        · right
          intro row
          omega
        · exact .inl (by omega)

end

/-- A rectangle of which one column and one row are on the screen. -/
theorem blitRectToFront_updates_iff_corner :
    let fb : Framebuffer := ⟨4, 4, 16, 32⟩
    fb.Updates 3 (-2) 5 3 (fb.blitRectToFront 3 (-2) 5 3) := by
  intro fb
  exact (@blitRectToFront_updates_iff fb 3 (-2) 5 3 ⟨.inr rfl, by decide⟩ (by decide) (by decide)
    (by decide)).mpr (.inr (.inr (by decide)))

/-- A rectangle to the right of the screen has no pixel there, but almost 2^64 bytes are copied. -/
theorem blitRectToFront_overruns :
    let fb : Framebuffer := ⟨4, 4, 16, 32⟩
    fb.rowBytes 5 1 = 18446744073709551612 ∧ (∀ px py, ¬ fb.Shows 5 0 1 1 px py) ∧
      ¬ fb.Updates 5 0 1 1 (fb.blitRectToFront 5 0 1 1) := by
  intro fb
  have copied : ⟨20, 20⟩ ∈ fb.blitRectToFront 5 0 1 1 :=
    (mem_blitRectToFront (by decide) (by decide)).mpr
      ⟨0, by decide, 0, by decide +kernel, by decide⟩
  have beside : ∀ px py, ¬ fb.Shows 5 0 1 1 px py := by
    rintro px py ⟨⟨_, _, onRight, _⟩, atLeft, _⟩
    have width : s32 fb.width = 4 := by decide
    omega
  refine ⟨by decide +kernel, beside, ?_⟩
  intro updates
  rcases updates.accesses _ copied with ⟨px, py, byte, shows, _⟩
  exact beside px py shows

end Framebuffer

end ParanOS

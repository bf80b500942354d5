import Mathlib.Algebra.Order.Ring.Nat
import Mathlib.Tactic.Linarith
import ParanOS.Foundation.Copies
import ParanOS.Foundation.Grid
import ParanOS.Media.Bmp

/-! # The framebuffer

Width, height, bytes per row and bits per pixel as the boot loader reports them. The visible
buffer and the back buffer have the same layout; places in them are byte offsets. What reads and
writes them byte by byte is the list of its copies.
-/

namespace ParanOS

open Foundation

/-- The numbers of `fb_t`, which are unsigned. -/
structure Framebuffer where
  width : Nat
  height : Nat
  pitch : Nat
  bpp : Nat
  deriving DecidableEq

namespace Framebuffer

/-- The layouts that the claims about the framebuffer are made for. -/
structure Layout (fb : Framebuffer) : Prop where
  depth : fb.bpp = 24 ∨ fb.bpp = 32
  rows : fb.width * (fb.bpp / 8) ≤ fb.pitch

def offset (fb : Framebuffer) (x y : Nat) : Nat := y * fb.pitch + x * (fb.bpp / 8)

/-- The check of `put_pixel_raw` and of every other function that draws. -/
def OnScreen (fb : Framebuffer) (x y : Int) : Prop :=
  0 ≤ x ∧ 0 ≤ y ∧ x < s32 fb.width ∧ y < s32 fb.height

instance (fb : Framebuffer) (x y : Int) : Decidable (fb.OnScreen x y) :=
  inferInstanceAs (Decidable (_ ∧ _))

theorem s32_le (word : Nat) : s32 word ≤ word := by
  rw [s32]
  split <;> omega

theorem Layout.bytes_pos {fb : Framebuffer} (layout : fb.Layout) : 0 < fb.bpp / 8 := by
  have depth := layout.depth
  omega

/-- A byte of a pixel is in the row of the pixel. -/
theorem Layout.byte_lt_pitch {fb : Framebuffer} (layout : fb.Layout) {x byte : Nat}
    (inside : x < fb.width) (small : byte < fb.bpp / 8) : x * (fb.bpp / 8) + byte < fb.pitch := by
  have rows := layout.rows
  have below := row_col_lt inside small
  omega

/-- A byte belongs to one pixel. -/
theorem Layout.byte_inj {fb : Framebuffer} (layout : fb.Layout) {x y byte x' y' byte' : Nat}
    (inside : x < fb.width) (inside' : x' < fb.width) (small : byte < fb.bpp / 8)
    (small' : byte' < fb.bpp / 8) :
    fb.offset x y + byte = fb.offset x' y' + byte' ↔ x = x' ∧ y = y' ∧ byte = byte' := by
  rw [offset, offset, Nat.add_assoc, Nat.add_assoc]
  rw [row_col_inj (layout.byte_lt_pitch inside small) (layout.byte_lt_pitch inside' small'),
    row_col_inj small small']
  exact and_left_comm

/-- A byte of a row of a rectangle as a byte of one of its pixels. -/
theorem offset_add_byte (fb : Framebuffer) (x y i byte : Nat) :
    fb.offset (x + i) y + byte = fb.offset x y + (i * (fb.bpp / 8) + byte) := by
  rw [offset, offset, Nat.add_mul]
  omega

end Framebuffer

/-! ## Copying bytes -/

/-- `memcpy_exact`, for pointers that are not null. -/
def memcpyExact (dst src n : Nat) : List (Copy Nat) := Copy.up n dst src

def memmoveExact (dst src n : Nat) : List (Copy Nat) :=
  if n = 0 ∨ dst = src then []
  else if dst < src then Copy.up n dst src
  else Copy.down n dst src

theorem mem_memmoveExact {dst src n : Nat} {copy : Copy Nat} (different : dst ≠ src) :
    copy ∈ memmoveExact dst src n ↔ ∃ index < n, copy = ⟨dst + index, src + index⟩ := by
  rw [memmoveExact]
  split
  · next nothing =>
      have zero : n = 0 := nothing.resolve_right different
      simp [zero]
  · split
    · exact Copy.mem_up
    · exact Copy.mem_down

theorem exists_of_mem_memmoveExact {dst src n : Nat} {copy : Copy Nat}
    (member : copy ∈ memmoveExact dst src n) :
    ∃ index < n, copy = ⟨dst + index, src + index⟩ := by
  by_cases same : dst = src
  · rw [memmoveExact, if_pos (.inr same)] at member
    cases member
  · exact (mem_memmoveExact same).mp member

/-- The order of the bytes depends on which pointer is lower. -/
theorem memmoveExact_unspoiled (dst src n : Nat) : Copy.Unspoiled (memmoveExact dst src n) := by
  rw [memmoveExact]
  split
  · exact List.Pairwise.nil
  · next some =>
      split
      · next lower => exact Copy.up_unspoiled lower n
      · next higher => exact Copy.down_unspoiled (by omega) n

end ParanOS

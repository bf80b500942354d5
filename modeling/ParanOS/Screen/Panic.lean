import ParanOS.Screen.Framebuffer

/-! # The panic screen

The background is filled with 32-bit words, one for each pixel, which are numbered without
regard to the bytes of a row and to the depth. So the words are a beginning of the buffer.
-/

namespace ParanOS

open Foundation

/-! ## Colours -/

/-- The bytes of a pixel in the order of the framebuffer: blue, green, red. -/
def colorByte (color : UInt32) (byte : Nat) : UInt8 := Buffer.littleEndian color.toNat byte

namespace Framebuffer

/-- The words that `draw_box` writes, in their order. The index is computed in 32 bits. -/
def boxWords (fb : Framebuffer) : List Nat :=
  (List.range fb.height).flatMap fun y => (List.range fb.width).map fun x => u32 (y * fb.width + x)

def drawBox (fb : Framebuffer) (color : UInt32) (front : Buffer) : Buffer :=
  fb.boxWords.foldl (fun front word => front.putU32 (4 * word) color.toNat) front

/-- All that is written is in the buffer, and every pixel gets the colour. -/
structure Fills (fb : Framebuffer) : Prop where
  inside : ∀ word ∈ fb.boxWords, 4 * word + 4 ≤ fb.height * fb.pitch
  colored : ∀ (color : UInt32) (front : Buffer) (x y byte : Nat), x < fb.width → y < fb.height →
    byte < 3 → fb.drawBox color front (fb.offset x y + byte) = colorByte color byte

/-- The modes in which a pixel is a word, and the words of all pixels follow one another. Where
there is one row or one column only, not all of this matters. -/
structure Packed (fb : Framebuffer) : Prop where
  depth : fb.bpp = 32 ∨ fb.width = 1
  row : 4 * fb.width ≤ fb.pitch
  rows : fb.height = 1 ∨ fb.pitch = 4 * fb.width
  indices : fb.width * fb.height ≤ 4294967296

/-- The modes that `fb_map` accepts, with what the numbers of a mode can be. -/
structure Mode (fb : Framebuffer) : Prop where
  layout : fb.Layout
  width_pos : 0 < fb.width
  height_pos : 0 < fb.height
  height_lt : fb.height < 4294967296

/-! ## The words -/

theorem mem_boxWords {fb : Framebuffer} {word : Nat} :
    word ∈ fb.boxWords ↔ word < fb.width * fb.height ∧ word < 4294967296 := by
  rw [boxWords, List.mem_flatMap]
  constructor
  · rintro ⟨y, row, member⟩
    rcases List.mem_map.mp member with ⟨x, column, rfl⟩
    rw [List.mem_range] at row column
    have below := row_col_lt row column
    rw [Nat.mul_comm fb.width]
    exact ⟨Nat.lt_of_le_of_lt (Nat.mod_le _ _) below, u32_lt _⟩
  · rintro ⟨below, narrow⟩
    have wide : 0 < fb.width := Nat.pos_of_mul_pos_right (Nat.zero_lt_of_lt below)
    refine ⟨word / fb.width, List.mem_range.mpr (Nat.div_lt_of_lt_mul below), ?_⟩
    refine List.mem_map.mpr ⟨word % fb.width, List.mem_range.mpr (Nat.mod_lt _ wide), ?_⟩
    rw [Nat.div_add_mod', u32_of_lt narrow]

/-- A byte of a word that is written has the byte of the colour. -/
theorem putWords_apply (words : List Nat) (color place : Nat) (front : Buffer) :
    words.foldl (fun front word => front.putU32 (4 * word) color) front place =
      if place / 4 ∈ words then Buffer.littleEndian color (place % 4) else front place := by
  induction words generalizing front with
  | nil => rfl
  | cons word rest induction =>
      rw [List.foldl_cons, induction]
      by_cases later : place / 4 ∈ rest
      · rw [if_pos later, if_pos (List.mem_cons_of_mem word later)]
      · rw [if_neg later, Buffer.putU32]
        by_cases here : place / 4 = word
        · rw [if_pos (by rw [here]; exact List.mem_cons_self),
            Buffer.copy_inside (by omega) (by omega)]
          congr 1
          omega
        · have neither : place / 4 ∉ word :: rest := by
            rw [List.mem_cons, not_or]
            exact ⟨here, later⟩
          rw [if_neg neither, Buffer.copy_outside (by omega)]

/-- The buffer after the panic screen has been drawn: its beginning consists of words. -/
theorem drawBox_apply (fb : Framebuffer) (color : UInt32) (front : Buffer) (place : Nat) :
    fb.drawBox color front place =
      if place / 4 < fb.width * fb.height ∧ place / 4 < 4294967296 then
        colorByte color (place % 4)
      else front place := by
  rw [drawBox, putWords_apply]
  simp only [mem_boxWords]
  rfl

/-! ## Which modes are filled -/

/-- In a packed mode the word of a pixel is where the pixel is. -/
theorem Packed.offset_eq {fb : Framebuffer} (packed : fb.Packed) {x y : Nat}
    (column : x < fb.width) (row : y < fb.height) :
    fb.offset x y = 4 * (y * fb.width + x) := by
  have bytes : x * (fb.bpp / 8) = 4 * x := by
    rcases packed.depth with depth | narrow
    · rw [depth, Nat.mul_comm]
    · have first : x = 0 := by omega
      rw [first, Nat.zero_mul, Nat.mul_zero]
  have start : y * fb.pitch = 4 * (y * fb.width) := by
    rcases packed.rows with single | exact_
    · have first : y = 0 := by omega
      rw [first, Nat.zero_mul, Nat.zero_mul, Nat.mul_zero]
    · rw [exact_, Nat.mul_left_comm]
  rw [offset, bytes, start, Nat.mul_add]

theorem Packed.fills {fb : Framebuffer} (packed : fb.Packed) : fb.Fills where
  inside := by
    intro word member
    have below := (mem_boxWords.mp member).1
    have rows : fb.height * (4 * fb.width) ≤ fb.height * fb.pitch :=
      Nat.mul_le_mul_left _ packed.row
    rw [Nat.mul_left_comm, Nat.mul_comm fb.height fb.width] at rows
    omega
  colored := by
    intro color front x y byte column row small
    have below := row_col_lt row column
    have indices := packed.indices
    rw [Nat.mul_comm fb.height] at below
    have word : (4 * (y * fb.width + x) + byte) / 4 = y * fb.width + x := by omega
    have part : (4 * (y * fb.width + x) + byte) % 4 = byte := by omega
    rw [packed.offset_eq column row, drawBox_apply, word, part, if_pos]
    omega

/-- A colour of which all bytes differ shows where the pixels are. -/
theorem Fills.place {fb : Framebuffer} (fills : fb.Fills) {x y : Nat} (column : x < fb.width)
    (row : y < fb.height) :
    fb.offset x y % 4 = 0 ∧ fb.offset x y + 2 < 4 * (fb.width * fb.height) ∧
      fb.offset x y + 2 < 4 * 4294967296 := by
  have parts : ∀ part < 4, colorByte 0x04030201 part = UInt8.ofNat (part + 1) := by decide
  have shown : ∀ byte < 3, (if (fb.offset x y + byte) / 4 < fb.width * fb.height ∧
      (fb.offset x y + byte) / 4 < 4294967296 then
        colorByte 0x04030201 ((fb.offset x y + byte) % 4) else 0) = UInt8.ofNat (byte + 1) := by
    intro byte small
    rw [← parts byte (by omega), ← fills.colored 0x04030201 (fun _ => 0) x y byte column row small,
      drawBox_apply]
  have first := shown 0 (by omega)
  have last := shown 2 (by omega)
  split at last
  · next written =>
      split at first
      · rw [Nat.add_zero, parts _ (Nat.mod_lt _ (by omega))] at first
        have remainder : fb.offset x y % 4 < 4 := Nat.mod_lt _ (by omega)
        have zero : ∀ part < 4, UInt8.ofNat (part + 1) = UInt8.ofNat (0 + 1) → part = 0 := by decide
        have aligned := zero _ remainder first
        omega
      · exact absurd first (by decide)
  · exact absurd last (by decide)

/-! ## What a filled screen tells about the mode -/

theorem Mode.pixels_eq {fb : Framebuffer} (mode : fb.Mode) :
    fb.width * fb.height = fb.width * (fb.height - 1) + fb.width := by
  have high := mode.height_pos
  rw [← Nat.mul_succ, Nat.succ_eq_add_one, Nat.sub_add_cancel high]

namespace Fills

variable {fb : Framebuffer} (fills : fb.Fills) (mode : fb.Mode)
include fills mode

theorem deep_or_narrow : fb.bpp = 32 ∨ fb.width = 1 := by
  have wide := mode.width_pos
  have depth := mode.layout.depth
  by_cases narrow : fb.width = 1
  · exact .inr narrow
  · have second := (@Fills.place fb fills 1 0 (by omega) mode.height_pos).1
    rw [offset, Nat.zero_mul, Nat.one_mul, Nat.zero_add] at second
    omega

theorem row_words : 4 * fb.width ≤ fb.pitch := by
  have high := mode.height_pos
  have rows := mode.layout.rows
  rcases fills.deep_or_narrow mode with deep | narrow
  · rw [deep, Nat.mul_comm] at rows
    exact rows
  · -- the last word has to be in the buffer
    have last : fb.height - 1 ∈ fb.boxWords := mem_boxWords.mpr
      ⟨by rw [narrow, Nat.one_mul]; omega, Nat.lt_of_le_of_lt (Nat.sub_le _ 1) mode.height_lt⟩
    have inside := fills.inside _ last
    have bytes : fb.height * 4 ≤ fb.height * fb.pitch := by omega
    rw [narrow]
    exact Nat.le_of_mul_le_mul_left bytes high

theorem aligned (several : fb.height ≠ 1) : fb.pitch % 4 = 0 := by
  have high := mode.height_pos
  have second := (@Fills.place fb fills 0 1 mode.width_pos (by omega)).1
  rwa [offset, Nat.zero_mul, Nat.one_mul, Nat.add_zero] at second

/-- The bytes of the last pixel are in a word that is written. -/
theorem last_pixel :
    (fb.height - 1) * fb.pitch + 4 * (fb.width - 1) + 2 <
        4 * (fb.width * (fb.height - 1) + fb.width) ∧
      (fb.height - 1) * fb.pitch + 4 * (fb.width - 1) + 2 < 4 * 4294967296 := by
  have wide := mode.width_pos
  have high := mode.height_pos
  have final := (fills.place (Nat.sub_one_lt_of_lt wide) (Nat.sub_one_lt_of_lt high)).2
  have column : (fb.width - 1) * (fb.bpp / 8) = 4 * (fb.width - 1) := by
    rcases fills.deep_or_narrow mode with deep | narrow
    · rw [deep, Nat.mul_comm]
    · rw [narrow, Nat.sub_self, Nat.zero_mul, Nat.mul_zero]
  rwa [offset, column, mode.pixels_eq] at final

theorem packed : fb.Packed := by
  have wide := mode.width_pos
  have high := mode.height_pos
  have row := fills.row_words mode
  have final := fills.last_pixel mode
  refine ⟨fills.deep_or_narrow mode, row, ?_, ?_⟩
  · by_contra unpacked
    rw [not_or] at unpacked
    have padded : 4 * fb.width + 4 ≤ fb.pitch := by
      have whole := fills.aligned mode unpacked.1
      omega
    have above : (fb.height - 1) * (4 * fb.width + 4) ≤ (fb.height - 1) * fb.pitch :=
      Nat.mul_le_mul_left _ padded
    rw [Nat.mul_add, Nat.mul_left_comm, Nat.mul_comm _ fb.width] at above
    omega
  · have above : (fb.height - 1) * (4 * fb.width) ≤ (fb.height - 1) * fb.pitch :=
      Nat.mul_le_mul_left _ row
    have product := mode.pixels_eq
    rw [Nat.mul_left_comm, Nat.mul_comm _ fb.width] at above
    omega

end Fills

/-- For every mode: the panic screen writes inside the buffer only, and fills the screen, just if
the mode is packed. -/
theorem fills_iff {fb : Framebuffer} (mode : fb.Mode) : fb.Fills ↔ fb.Packed :=
  ⟨fun fills => fills.packed mode, fun packed => packed.fills⟩

/-- A screen of two rows without padding. -/
theorem fills_iff_packed : (⟨3, 2, 12, 32⟩ : Framebuffer).Fills := by
  have mode : (⟨3, 2, 12, 32⟩ : Framebuffer).Mode :=
    ⟨⟨.inr rfl, by decide⟩, by decide, by decide, by decide⟩
  exact (fills_iff mode).mpr ⟨.inl rfl, by decide, .inr rfl, by decide⟩

/-- With 24 bits a pixel, the last words are behind the buffer; with padded rows, the last pixels
are not filled. -/
theorem drawBox_overruns :
    let deep : Framebuffer := ⟨4, 2, 12, 24⟩
    let padded : Framebuffer := ⟨4, 2, 32, 32⟩
    7 ∈ deep.boxWords ∧ ¬ 4 * 7 + 4 ≤ deep.height * deep.pitch ∧ ¬ deep.Fills ∧
      padded.drawBox 0x101010 (fun _ => 0) (padded.offset 3 1) = 0 ∧ ¬ padded.Fills := by
  intro deep padded
  have written : 7 ∈ deep.boxWords := by decide
  have unfilled : padded.drawBox 0x101010 (fun _ => 0) (padded.offset 3 1) = 0 := by
    rw [drawBox_apply]
    decide
  refine ⟨written, by decide, ?_, unfilled, ?_⟩
  · intro fills
    exact absurd (fills.inside 7 written) (by decide)
  · intro fills
    have colored := fills.colored 0x101010 (fun _ => 0) 3 1 0 (by decide) (by decide) (by decide)
    rw [Nat.add_zero, unfilled] at colored
    exact absurd colored (by decide)

end Framebuffer

end ParanOS

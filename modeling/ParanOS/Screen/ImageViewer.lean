import ParanOS.Media.Viewer
import ParanOS.Screen.Letterbox

/-! # The window of the image viewer

`imgview_render` of `kernel.c`. The picture is scaled to the width of the window, or to its
height if it is too high then. The height for the width of the window is narrowed to an `int`
before it is compared, so that a picture that is high enough seems to have a negative height.
-/

namespace ParanOS

open Foundation

/-- `(int)` of a number of 64 bits. -/
def narrowInt (value : Int) : Int := s32 (toU32 value)

/-- `draw_w` and `draw_h`. -/
def imgviewFit (imgW imgH availW availH : Int) : Int × Int :=
  let drawH := narrowInt (Int.tdiv (imgH * availW) imgW)
  if drawH > availH then (narrowInt (Int.tdiv (imgW * availH) imgH), availH) else (availW, drawH)

/-- The picture that is shown: its size, and the words from its memory on, by an index of type
`int`. -/
structure ViewerImage where
  w : Int
  h : Int
  pixels : Int → UInt32

/-- A word that nothing was stored into is what it was before. -/
def Picture.viewerImage (picture : Picture) (memory : Int → UInt32) : ViewerImage :=
  ⟨picture.w, picture.h, fun index =>
    (cellAt picture.stores index).elim (memory index) UInt32.ofNat⟩

/-- The start of the picture in the window, in one direction. -/
def imgviewStart (start size drawn : Int) : Int :=
  let d := start + Int.tdiv (size - drawn) 2
  if d < start then start else d

def imgviewPixel (rect : Rect) (imgW imgH drawW drawH y x : Int) : ScaledPixel Int :=
  let sy := narrowInt (Int.tdiv (y * imgH) drawH)
  let sx := narrowInt (Int.tdiv (x * imgW) drawW)
  ⟨imgviewStart rect.wx rect.ww drawW + x, imgviewStart rect.wy rect.wh drawH + y,
    sy * imgW + sx⟩

def imgviewDraw (fb : Framebuffer) (rect : Rect) (image : ViewerImage) (buf : Buffer) : Buffer :=
  let availW := rect.ww - 16
  let availH := rect.wh - 16
  if availW > 0 ∧ availH > 0 then
    let (drawW, drawH) := imgviewFit image.w image.h availW availH
    (Framebuffer.counting 0 drawH).foldl (fun buf y =>
      (Framebuffer.counting 0 drawW).foldl (fun buf x =>
        let pixel := imgviewPixel rect image.w image.h drawW drawH y x
        fb.fbPutpixel pixel.x pixel.y (image.pixels pixel.index) buf) buf) buf
  else buf

def colorAccent : UInt32 := 0xFF4C8DFF

def imgviewRender (fb : Framebuffer) (font : Font) (window : Window) (image : Option ViewerImage)
    (buf : Buffer) : Buffer :=
  if !window.isOpen || window.minimized then buf
  else
    let ⟨wx, wy, ww, wh⟩ := window.rect
    let buf := fb.drawRect (wx - 2) (wy - 24) (ww + 4) (wh + 26) 0xFF101010 buf
    let buf := fb.uiDrawHgradRect wx (wy - 22) ww 20 0xFF2F3948 0xFF252E3A buf
    let buf := fb.drawText font (wx + 8) (wy - 20) (ascii "Image Viewer") colorAccent 0 buf
    let closeX := wx + ww - 18 - 6
    let closeY := wy - 20
    let buf := fb.uiDrawHgradRect closeX closeY 18 14 0xFF6E2B2B 0xFF581F1F buf
    let buf := fb.drawText font (closeX + 5) (closeY - 1) (ascii "X") 0xFFFBECEC 0 buf
    let buf := fb.drawRect wx wy ww wh 0xFF0F141C buf
    let noImage := fb.drawText font (wx + 8) (wy + 8) (ascii "No image loaded") 0xFFB0B6BF
      0xFF0C1016 buf
    match image with
    | none => noImage
    | some image =>
        if image.w > 0 ∧ image.h > 0 then imgviewDraw fb window.rect image buf else noImage

/-! ## The fit -/

/-- The pixel is in the window, below its title. -/
def Rect.Holds {ι : Type} (rect : Rect) (pixel : ScaledPixel ι) : Prop :=
  rect.wx ≤ pixel.x ∧ pixel.x < rect.wx + rect.ww ∧
    rect.wy ≤ pixel.y ∧ pixel.y < rect.wy + rect.wh

/-- What the window is meant to show: the picture, as large as it fits, from words of the picture
to pixels of the window. -/
structure ImageFits (rect : Rect) (imgW imgH : Int) (drawn : Int × Int) : Prop where
  width : 0 ≤ drawn.1 ∧ drawn.1 ≤ rect.ww - 16
  height : 0 ≤ drawn.2 ∧ drawn.2 ≤ rect.wh - 16
  full : drawn.1 = rect.ww - 16 ∨ drawn.2 = rect.wh - 16
  reads : ∀ y ∈ Framebuffer.counting 0 drawn.2, ∀ x ∈ Framebuffer.counting 0 drawn.1,
    0 ≤ (imgviewPixel rect imgW imgH drawn.1 drawn.2 y x).index ∧
      (imgviewPixel rect imgW imgH drawn.1 drawn.2 y x).index < imgW * imgH
  draws : ∀ y ∈ Framebuffer.counting 0 drawn.2, ∀ x ∈ Framebuffer.counting 0 drawn.1,
    rect.Holds (imgviewPixel rect imgW imgH drawn.1 drawn.2 y x)

theorem narrowInt_natCast (value : Nat) : narrowInt value = s32 (u32 value) := by
  have word : toU32 (value : Int) = u32 value := by
    rw [toU32, u32]
    omega
  rw [narrowInt, word]

theorem narrowInt_of_lt {value : Nat} (small : value < 2147483648) : narrowInt value = value := by
  rw [narrowInt_natCast, u32_of_lt (by omega), s32_of_lt small]

/-- A row or a column of the picture, for one that is drawn. -/
theorem narrowInt_nearest {side drawn index : Nat} (some : 0 < side) (small : side < 2147483648)
    (inside : index < drawn) :
    narrowInt (Int.tdiv (index * side) drawn) = nearest side drawn index := by
  have less := nearest_lt some inside
  have quotient : Int.tdiv (index * side) drawn = (nearest side drawn index : Nat) := by
    rw [nearest, Int.ofNat_tdiv, Nat.cast_mul]
  rw [quotient, narrowInt_of_lt (by omega)]

theorem imgviewStart_inside {start size drawn index : Int} (drawn_le : drawn ≤ size)
    (inside : 0 ≤ index ∧ index < drawn) :
    start ≤ imgviewStart start size drawn + index ∧
      imgviewStart start size drawn + index < start + size := by
  have half : Int.tdiv (size - drawn) 2 = (size - drawn) / 2 :=
    Int.tdiv_eq_ediv_of_nonneg (by omega)
  simp only [imgviewStart, half]
  split <;> omega

section

variable {rect : Rect} {w h availW availH : Nat} (width : 0 < w ∧ w < 2147483648)
  (height : 0 < h ∧ h < 2147483648) (across : rect.ww = availW + 16) (down : rect.wh = availH + 16)
include width height across down

/-- A size that is not longer than the window is drawn within it, from words of the picture. -/
theorem imageFits_of_le {drawW drawH : Nat} (fits : drawW ≤ availW ∧ drawH ≤ availH)
    (full : drawW = availW ∨ drawH = availH) : ImageFits rect w h (drawW, drawH) := by
  constructor
  · simp only
    omega
  · simp only
    omega
  · simp only
    omega
  · intro y rows x columns
    rw [Framebuffer.mem_counting] at rows columns
    rcases Int.eq_ofNat_of_zero_le rows.1 with ⟨row, rfl⟩
    rcases Int.eq_ofNat_of_zero_le columns.1 with ⟨column, rfl⟩
    have inside := nearest_index_lt (Nat.mul_pos height.1 width.1)
      (Int.ofNat_lt.mp rows.2) (Int.ofNat_lt.mp columns.2)
    simp only [imgviewPixel]
    rw [narrowInt_nearest height.1 height.2 (Int.ofNat_lt.mp rows.2),
      narrowInt_nearest width.1 width.2 (Int.ofNat_lt.mp columns.2), Int.mul_comm (w : Int) h]
    exact ⟨by positivity, by exact_mod_cast inside⟩
  · intro y rows x columns
    rw [Framebuffer.mem_counting] at rows columns
    have right := @imgviewStart_inside rect.wx rect.ww drawW x (by omega) columns
    have below := @imgviewStart_inside rect.wy rect.wh drawH y (by omega) rows
    exact ⟨right.1, right.2, below.1, below.2⟩

omit across down in
theorem imgviewFit_eq (narrow : availW < 2147483648 ∧ availH < 2147483648) :
    imgviewFit w h availW availH =
      if (availH : Int) < s32 (u32 (scaled h w availW 0)) then
        (((scaled w h availH 0 : Nat) : Int), (availH : Int))
      else ((availW : Int), s32 (u32 (scaled h w availW 0))) := by
  have quotient (side other given : Nat) :
      Int.tdiv (side * given) other = (scaled side other given 0 : Nat) := by
    rw [scaled, Nat.add_zero, Int.ofNat_tdiv, Nat.cast_mul]
  rw [imgviewFit, quotient, quotient, narrowInt_natCast]
  by_cases high : (availH : Int) < s32 (u32 (scaled h w availW 0))
  · have above : availH < scaled h w availW 0 := by
      have wrapped : u32 (scaled h w availW 0) ≤ scaled h w availW 0 := Nat.mod_le _ _
      have signed := Framebuffer.s32_le (u32 (scaled h w availW 0))
      omega
    have fits := scaled_le_of_lt_scaled width.1 height.1 above
    rw [if_pos high, if_pos high, narrowInt_of_lt (by omega)]
  · rw [if_neg high, if_neg high]

/-- The picture fits unless its height for the width of the window is taken for a negative
number. -/
theorem imageFits_iff (narrow : availW < 2147483648 ∧ availH < 2147483648) :
    ImageFits rect w h (imgviewFit w h availW availH) ↔
      scaled h w availW 0 % 4294967296 < 2147483648 := by
  rw [imgviewFit_eq width height narrow]
  generalize quotient : scaled h w availW 0 = drawH
  have word : u32 drawH = drawH % 4294967296 := rfl
  constructor
  · intro fits
    by_contra negative
    have below : s32 (u32 drawH) < 0 := by
      rw [s32, word]
      split <;> omega
    rw [if_neg (by omega)] at fits
    have drawn := fits.height.1
    exact absurd drawn (by simp only; omega)
  · intro small
    rw [s32_of_lt (by omega), word]
    split
    · next high =>
        have above : availH < scaled h w availW 0 := by
          rw [quotient]
          omega
        have fits := scaled_le_of_lt_scaled width.1 height.1 above
        exact imageFits_of_le width height across down ⟨fits, Nat.le_refl _⟩ (.inr rfl)
    · next low =>
        exact imageFits_of_le width height across down ⟨Nat.le_refl _, by omega⟩ (.inl rfl)

end

/-- A step that never writes a byte leaves it as it was, however often it is taken. -/
theorem foldl_same {α : Type} {each : Buffer → α → Buffer} {place : Nat} (values : List α)
    (one : ∀ buf, ∀ step ∈ values, each buf step place = buf place) (buf : Buffer) :
    values.foldl each buf place = buf place := by
  have never := @Framebuffer.foldl_apply _ each place 0 (fun _ => False) _ values
    (by simpa using one) buf
  simpa using never

/-- A picture that fits changes nothing on the screen outside its window. -/
theorem imgviewDraw_outside {fb : Framebuffer} (layout : fb.Layout) {rect : Rect}
    {image : ViewerImage} (fits : ImageFits rect image.w image.h
      (imgviewFit image.w image.h (rect.ww - 16) (rect.wh - 16))) (buf : Buffer) {px py byte : Nat}
    (on : fb.OnScreen px py) (small : byte < fb.bpp / 8)
    (outside : ¬ rect.Holds (⟨px, py, ()⟩ : ScaledPixel Unit)) :
    imgviewDraw fb rect image buf (fb.offset px py + byte) = buf (fb.offset px py + byte) := by
  rw [imgviewDraw]
  dsimp only
  split
  · apply foldl_same
    intro buf y rows
    apply foldl_same
    intro buf x columns
    have inside := fits.draws y rows x columns
    rw [Framebuffer.fbPutpixel, Framebuffer.putPixelRaw_apply layout _ _ _ buf on small, if_neg]
    rintro ⟨across, down⟩
    rw [Rect.Holds, ← across, ← down] at inside
    exact outside inside
  · rfl

/-! ## Pictures that were loaded -/

/-- The sizes of a picture that was loaded. -/
theorem imgviewLoadBmpFile_sizes {granted : Nat → Bool} {length : Nat} {buf : Buffer}
    {picture : Picture} (loaded : (imgviewLoadBmpFile granted length buf).1 = some (some picture)) :
    (0 < picture.w ∧ picture.w < 2147483648) ∧ picture.h < 2147483648 := by
  cases accepted : imgviewHeader length buf with
  | none =>
      rw [imgviewLoadBmpFile, accepted] at loaded
      simp [withPicture] at loaded
  | some header =>
      rw [imgviewLoadBmpFile, accepted] at loaded
      have fields := (accepted_of_imgviewHeader accepted).1
      rcases @of_withPicture _ granted length 0 buf header _ picture loaded with ⟨_, decoded, _⟩
      rcases of_imgviewDecode decoded with ⟨width, height, _⟩
      have tall := fields.height
      rw [width, height]
      exact ⟨fields.width, (s32_bounds (by omega)).2⟩

/-- A file that is as long as its header says is loaded if there is memory. -/
theorem imgviewLoadBmpFile_returns {length : Nat} {buf : Buffer} {header : PictureHeader}
    (accepted : imgviewHeader length buf = some header) (long : header.fileSize ≤ length)
    (inside : header.dataOff < header.fileSize) :
    ∃ picture, (imgviewLoadBmpFile (fun _ => true) length buf).1 = some (some picture) ∧
      picture.w = header.w ∧ picture.h = s32 header.h := by
  rcases imgviewRow_stores buf header with ⟨values, returned⟩
  have decoded : ∃ rows, (PeekM.each (imgviewRow header) (List.range header.h) buf).1 = some rows :=
    ⟨_, PeekM.each_fst fun y _ => returned y⟩
  rcases decoded with ⟨rows, decoded⟩
  refine ⟨⟨header.w, s32 header.h, rows.flatten⟩, ?_, rfl, rfl⟩
  rw [imgviewLoadBmpFile, accepted, withPicture, if_neg (by simp), if_neg (by omega),
    if_neg (by omega), if_neg (by simp), PeekM.bind_fst, imgviewDecode, PeekM.bind_fst, decoded]
  rfl

/-- A loaded picture fits into a window exactly if its height for the width of the window is not
taken for a negative number. -/
theorem imgviewRender_fits_iff {granted : Nat → Bool} {length : Nat} {buf : Buffer}
    {picture : Picture} (loaded : (imgviewLoadBmpFile granted length buf).1 = some (some picture))
    (positive : 0 < picture.w ∧ 0 < picture.h) {rect : Rect}
    (width : 180 ≤ rect.ww ∧ rect.ww ≤ 8192) (height : 140 ≤ rect.wh ∧ rect.wh ≤ 8192) :
    ImageFits rect picture.w picture.h
        (imgviewFit picture.w picture.h (rect.ww - 16) (rect.wh - 16)) ↔
      picture.h * (rect.ww - 16) / picture.w % 4294967296 < 2147483648 := by
  have sizes := imgviewLoadBmpFile_sizes loaded
  rcases Int.eq_ofNat_of_zero_le (show 0 ≤ picture.w by omega) with ⟨w, wide⟩
  rcases Int.eq_ofNat_of_zero_le (show 0 ≤ picture.h by omega) with ⟨h, tall⟩
  rcases Int.eq_ofNat_of_zero_le (show 0 ≤ rect.ww - 16 by omega) with ⟨availW, across⟩
  rcases Int.eq_ofNat_of_zero_le (show 0 ≤ rect.wh - 16 by omega) with ⟨availH, down⟩
  have fits := @imageFits_iff rect w h availW availH (by omega) (by omega) (by omega) (by omega)
    (by omega)
  have quotient : picture.h * (rect.ww - 16) / picture.w % 4294967296 =
      (scaled h w availW 0 % 4294967296 : Nat) := by
    rw [wide, tall, across, scaled, Nat.add_zero]
    norm_cast
  rw [quotient, wide, tall, across, down, fits]
  omega

/-- The header of a file with 1048576 rows of one pixel, and no colours behind it. -/
def towerBmp : Buffer := Buffer.ofList
  [0x42, 0x4D, 54, 0, 64, 0, 0, 0, 0, 0, 54, 0, 0, 0, 40, 0, 0, 0, 1, 0, 0, 0, 0, 0, 16, 0, 1, 0,
    24, 0]

theorem towerBmp_header :
    imgviewHeader 4194358 towerBmp = some ⟨4194358, 54, 1, 1048576, .bits24⟩ := by
  decide

theorem imgviewRender_fits_iff_tower :
    ∃ picture, (imgviewLoadBmpFile (fun _ => true) 4194358 towerBmp).1 = some (some picture) ∧
      ImageFits ⟨160, 110, 420, 340⟩ picture.w picture.h
        (imgviewFit picture.w picture.h (420 - 16) (340 - 16)) := by
  rcases imgviewLoadBmpFile_returns towerBmp_header (by decide) (by decide) with
    ⟨picture, loaded, width, height⟩
  have tall : s32 (PictureHeader.h ⟨4194358, 54, 1, 1048576, .bits24⟩) = 1048576 := by decide
  rw [tall] at height
  refine ⟨picture, loaded, ?_⟩
  refine (@imgviewRender_fits_iff _ _ _ _ loaded ?_ ⟨160, 110, 420, 340⟩ (by decide)
    (by decide)).mpr ?_
  · rw [width, height]
    decide
  · rw [width, height]
    decide

/-- In a window 2064 pixels wide the height of that picture is 2^31, which is taken for -2^31. -/
theorem imgviewRender_negative_height :
    ¬ ∀ (granted : Nat → Bool) (length : Nat) (buf : Buffer) (picture : Picture),
      (imgviewLoadBmpFile granted length buf).1 = some (some picture) →
      0 < picture.w ∧ 0 < picture.h → ∀ rect : Rect, 180 ≤ rect.ww ∧ rect.ww ≤ 8192 →
      140 ≤ rect.wh ∧ rect.wh ≤ 8192 → ImageFits rect picture.w picture.h
        (imgviewFit picture.w picture.h (rect.ww - 16) (rect.wh - 16)) := by
  intro claim
  rcases imgviewLoadBmpFile_returns towerBmp_header (by decide) (by decide) with
    ⟨picture, loaded, width, height⟩
  have tall : s32 (PictureHeader.h ⟨4194358, 54, 1, 1048576, .bits24⟩) = 1048576 := by decide
  rw [tall] at height
  have fits := claim _ _ _ picture loaded (by rw [width, height]; decide) ⟨0, 0, 2064, 600⟩
    (by decide) (by decide)
  rw [width, height] at fits
  exact absurd fits.height.1 (by decide)

end ParanOS

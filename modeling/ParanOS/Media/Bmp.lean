import ParanOS.Foundation.Footprint
import ParanOS.Mm.Vmm

/-! # The wallpaper

`load_bmp_header` and `load_bmp_into_bg` of `desktop.c`. A file is a buffer with a size;
the decoder runs on the buffer with the offsets that it reads. Numbers of 32 bits wrap
where the source computes with them; a product of two of them in 64 bits does not. What
`wp_alloc` grants and how large the screen is are inputs.
-/

namespace ParanOS

open Foundation

/-! ## Signed numbers -/

/-- The number of type `int` that a word of 32 bits stands for. -/
def s32 (word : Nat) : Int := if word < 2147483648 then word else (word : Int) - 4294967296

/-- A number of type `int` converted to `uint32_t`. -/
def toU32 (value : Int) : Nat := (value % 4294967296).toNat

/-- A number of type `int` converted to `uint64_t`. -/
def toU64 (value : Int) : Nat := (value % 18446744073709551616).toNat

/-- `(h < 0) ? -h : h`. The least number has no negative in 32 bits and stays. -/
def absInt (h : Int) : Int := if h < 0 then s32 (toU32 (-h)) else h

theorem s32_bounds {word : Nat} (narrow : word < 4294967296) :
    -2147483648 ≤ s32 word ∧ s32 word < 2147483648 := by
  rw [s32]
  split <;> omega

theorem s32_of_lt {word : Nat} (small : word < 2147483648) : s32 word = word := if_pos small

theorem toU32_of_nat {value : Nat} (narrow : value < 4294967296) : toU32 value = value := by
  rw [toU32]
  omega

/-! ## The header -/

/-- The numbers of bits per pixel that the wallpaper may have. -/
inductive BmpDepth
  | bits4
  | bits8
  | bits24
  | bits32
  deriving DecidableEq

def BmpDepth.bpp : BmpDepth → Nat
  | .bits4 => 4
  | .bits8 => 8
  | .bits24 => 24
  | .bits32 => 32

def BmpDepth.ofBpp (bpp : Nat) : Option BmpDepth :=
  if bpp = 4 then some .bits4
  else if bpp = 8 then some .bits8
  else if bpp = 24 then some .bits24
  else if bpp = 32 then some .bits32
  else none

/-- Pixels are numbers of colours in a palette. -/
def BmpDepth.indexed : BmpDepth → Bool
  | .bits4 | .bits8 => true
  | .bits24 | .bits32 => false

structure BmpHeader where
  size : Nat
  dataOff : Nat
  w : Int
  h : Int
  depth : BmpDepth
  paletteColors : Nat
  deriving DecidableEq

/-- The header, or `none` where the source returns -1. -/
def loadBmpHeader (buf : Buffer) (len : Nat) : Option BmpHeader :=
  if len < 54 then none
  else if buf 0 ≠ 0x42 ∨ buf 1 ≠ 0x4D then none -- 'B' 'M'
  else
    let fileSize := buf.getU32 2
    let dataOff := buf.getU32 10
    let hdrSize := buf.getU32 14
    if hdrSize < 40 then none
    else
      let w := s32 (buf.getU32 18)
      let h := s32 (buf.getU32 22)
      let planes := buf.getU16 26
      let comp := buf.getU32 30
      match BmpDepth.ofBpp (buf.getU16 28) with
      | none => none
      | some depth =>
          if planes ≠ 1 ∨ comp ≠ 0 then none
          else if w ≤ 0 ∨ h = 0 then none
          else
            let clrUsed := buf.getU32 46
            let paletteColors :=
              if depth.indexed then if clrUsed ≠ 0 then clrUsed else 2 ^ depth.bpp else 0
            some ⟨fileSize, dataOff, w, h, depth, paletteColors⟩

/-! ## The size of the picture -/

structure WallpaperEnv where
  fbWidth : Nat
  fbHeight : Nat
  /-- Whether `wp_alloc` has that many bytes. -/
  granted : Nat → Bool

def WallpaperEnv.maxPx (env : WallpaperEnv) : Nat :=
  if env.fbWidth ≠ 0 ∧ env.fbHeight ≠ 0 then env.fbWidth * env.fbHeight else 1920 * 1080

def halve (side : Nat) : Nat := if side > 1 then u32 (side + 1) / 2 else 1

/-- The first loop: halve the sides until the picture has at most `maxPx` pixels. -/
def fitWithin (maxPx : Nat) : (fuel w h : Nat) → Option (Nat × Nat)
  | 0, _, _ => none
  | fuel + 1, w, h =>
      if w * h > maxPx then fitWithin maxPx fuel (halve w) (halve h) else some (w, h)

/-- The second loop: halve the sides until there is memory; `some none` is none even for
one pixel. -/
def attemptAlloc (granted : Nat → Bool) : (fuel w h : Nat) → Option (Option (Nat × Nat))
  | 0, _, _ => none
  | fuel + 1, w, h =>
      if w ≥ 1 ∧ h ≥ 1 then
        if granted (w * h * 4) then some (some (w, h))
        else if w = 1 ∧ h = 1 then some none
        else attemptAlloc granted fuel (halve w) (halve h)
      else some none

/-- Both loops. After 32 rounds a side of 32 bits is 1. -/
def wallpaperTarget (env : WallpaperEnv) (w h : Nat) : Option (Option (Nat × Nat)) := do
  let (w, h) ← fitWithin env.maxPx 33 w h
  attemptAlloc env.granted 33 w h

/-! ## Decoding -/

def argb (a r g b : UInt8) : Nat :=
  a.toNat * 16777216 + r.toNat * 65536 + g.toNat * 256 + b.toNat

/-- `if (a == 0) a = 0xFF`. -/
def solidAlpha (a : UInt8) : UInt8 := if a = 0 then 0xFF else a

structure Palette where
  start : Nat
  colors : Nat

def Palette.pixel (palette : Palette) (idx : Nat) : PeekM Nat := do
  let idx := if idx ≥ palette.colors then 0 else idx
  let b ← peek8 (palette.start + idx * 4)
  let g ← peek8 (palette.start + idx * 4 + 1)
  let r ← peek8 (palette.start + idx * 4 + 2)
  let a ← peek8 (palette.start + idx * 4 + 3)
  pure (argb (solidAlpha a) r g b)

/-- The body of the column loop for the pixel in column `sx` of the row at `src`. -/
def wallpaperPixel (palette : Palette) (depth : BmpDepth) (src sx : Nat) : PeekM Nat :=
  match depth with
  | .bits24 => do
      let b ← peek8 (src + u32 (sx * 3))
      let g ← peek8 (src + u32 (sx * 3 + 1))
      let r ← peek8 (src + u32 (sx * 3 + 2))
      pure (argb 0xFF r g b)
  | .bits32 => do
      let b ← peek8 (src + u32 (sx * 4))
      let g ← peek8 (src + u32 (sx * 4 + 1))
      let r ← peek8 (src + u32 (sx * 4 + 2))
      let a ← peek8 (src + u32 (sx * 4 + 3))
      pure (argb (solidAlpha a) r g b)
  | .bits8 => do
      let idx ← peek8 (src + sx)
      palette.pixel idx.toNat
  | .bits4 => do
      let byte ← peek8 (src + sx / 2)
      palette.pixel (if sx % 2 = 1 then byte.toNat % 16 else byte.toNat / 16)

def wallpaperColumn (w : Int) (targetW x : Nat) : Nat := u32 (x * w.toNat / targetW)

/-- Where the row for row `y` of the picture starts in the pixel data. -/
def wallpaperRowOffset (h : Int) (rowStride targetH y : Nat) : Nat :=
  let absH := absInt h
  let sy := u32 (u64 (y * toU64 absH) / targetH)
  let srcY := if h > 0 then absH - 1 - s32 sy else s32 sy
  u32 (toU32 srcY * rowStride)

/-- A row: the stores into the picture, by index. -/
def wallpaperRow (header : BmpHeader) (palette : Palette) (rowStride targetW targetH y : Nat) :
    PeekM (List (Nat × Nat)) :=
  let src := header.dataOff + wallpaperRowOffset header.h rowStride targetH y
  PeekM.each (fun x => do
    let value ← wallpaperPixel palette header.depth src (wallpaperColumn header.w targetW x)
    pure (u32 (y * targetW) + x, value)) (List.range targetW)

structure Wallpaper where
  w : Nat
  h : Nat
  pixels : List (List (Nat × Nat))
  deriving DecidableEq

def BmpHeader.rowStride (header : BmpHeader) : Nat :=
  u32 (u32 (header.depth.bpp * toU32 header.w) + 31) / 32 * 4

/-- The checks of the palette, for pixels that are numbers of colours. -/
def paletteRefused (header : BmpHeader) (fileSize paletteStart : Nat) : Prop :=
  header.depth.indexed ∧
    (paletteStart + u32 (header.paletteColors * 4) > fileSize ∨
      paletteStart + u32 (header.paletteColors * 4) > header.dataOff ∨ header.paletteColors = 0)

instance (header : BmpHeader) (fileSize paletteStart : Nat) :
    Decidable (paletteRefused header fileSize paletteStart) := inferInstanceAs (Decidable (_ ∧ _))

/-- The check of the pixel data. -/
def pixelsRefused (header : BmpHeader) (fileSize : Nat) : Prop :=
  u64 (header.dataOff + u64 (header.rowStride * toU64 (absInt header.h))) > fileSize

instance (header : BmpHeader) (fileSize : Nat) : Decidable (pixelsRefused header fileSize) :=
  inferInstanceAs (Decidable (_ > _))

/-- The picture, or `none` where the source returns -1. -/
def loadBmpIntoBg (env : WallpaperEnv) (fileSize : Nat) (header : BmpHeader) :
    PeekM (Option Wallpaper) :=
  if fileSize = 0 then pure none
  else if header.dataOff ≥ fileSize then pure none
  else if fileSize < 18 then pure none
  else do
    let hdrSize ← peek32 14
    if hdrSize > fileSize ∨ u32 (14 + hdrSize) > fileSize then pure none
    else if paletteRefused header fileSize (u32 (14 + hdrSize)) then pure none
    else if pixelsRefused header fileSize then pure none
    else
      match wallpaperTarget env (toU32 header.w) (toU32 (absInt header.h)) with
      | none => PeekM.diverge
      | some none => pure none
      | some (some (targetW, targetH)) => do
          let pixels ← PeekM.each
            (wallpaperRow header ⟨u32 (14 + hdrSize), header.paletteColors⟩ header.rowStride
              targetW targetH) (List.range targetH)
          pure (some ⟨targetW, targetH, pixels⟩)

/-! ## The loops for the size return -/

theorem halve_pos (side : Nat) (narrow : side < 4294967295) : 1 ≤ halve side := by
  rw [halve]
  split
  · rw [u32_of_lt (by omega)]
    omega
  · exact Nat.le_refl 1

theorem halve_le {side fuel : Nat} (small : side ≤ 2 ^ (fuel + 1)) : halve side ≤ 2 ^ fuel := by
  have double : 2 ^ (fuel + 1) = 2 * 2 ^ fuel := Nat.pow_succ'
  have power : 1 ≤ 2 ^ fuel := Nat.one_le_two_pow
  rw [halve]
  split
  · have wrapped : u32 (side + 1) ≤ side + 1 := Nat.mod_le _ _
    omega
  · exact power

theorem halve_le_self {side : Nat} (some : 1 ≤ side) : halve side ≤ side := by
  rw [halve]
  split
  · have wrapped : u32 (side + 1) ≤ side + 1 := Nat.mod_le _ _
    omega
  · exact some

/-- The sides of the picture are not zero and not greater than those of the file's. -/
structure SidesWithin (w h : Nat) (target : Nat × Nat) : Prop where
  width : 1 ≤ target.1 ∧ target.1 ≤ w
  height : 1 ≤ target.2 ∧ target.2 ≤ h

theorem SidesWithin.of_halve {w h : Nat} {target : Nat × Nat}
    (width : 1 ≤ w ∧ w ≤ 2147483648) (height : 1 ≤ h ∧ h ≤ 2147483648)
    (within : SidesWithin (halve w) (halve h) target) : SidesWithin w h target := by
  have first := halve_le_self width.1
  have second := halve_le_self height.1
  have inside := within.width
  have below := within.height
  exact ⟨⟨inside.1, by omega⟩, ⟨below.1, by omega⟩⟩

theorem halve_bounds {side : Nat} (bounds : 1 ≤ side ∧ side ≤ 2147483648) :
    1 ≤ halve side ∧ halve side ≤ 2147483648 := by
  have smaller := halve_le_self bounds.1
  exact ⟨halve_pos side (by omega), by omega⟩

theorem fitWithin_returns {maxPx fuel w h : Nat} (some : 1 ≤ maxPx) (width : w ≤ 2 ^ fuel)
    (height : h ≤ 2 ^ fuel) : fitWithin maxPx (fuel + 1) w h ≠ none := by
  induction fuel generalizing w h with
  | zero =>
      have product : w * h ≤ 1 * 1 := Nat.mul_le_mul width height
      rw [fitWithin, if_neg (by omega)]
      exact Option.some_ne_none _
  | succ fuel induction =>
      rw [fitWithin]
      split
      · exact induction (halve_le width) (halve_le height)
      · exact Option.some_ne_none _

theorem fitWithin_within {maxPx fuel w h : Nat} {target : Nat × Nat}
    (width : 1 ≤ w ∧ w ≤ 2147483648) (height : 1 ≤ h ∧ h ≤ 2147483648)
    (fits : fitWithin maxPx fuel w h = some target) : SidesWithin w h target := by
  induction fuel generalizing w h with
  | zero => simp [fitWithin] at fits
  | succ fuel induction =>
      rw [fitWithin] at fits
      split at fits
      · exact (induction (halve_bounds width) (halve_bounds height) fits).of_halve width height
      · rw [← Option.some.inj fits]
        exact ⟨⟨width.1, Nat.le_refl w⟩, ⟨height.1, Nat.le_refl h⟩⟩

theorem attemptAlloc_returns {granted : Nat → Bool} {fuel w h : Nat} (width : w ≤ 2 ^ fuel)
    (height : h ≤ 2 ^ fuel) : attemptAlloc granted (fuel + 1) w h ≠ none := by
  induction fuel generalizing w h with
  | zero =>
      have sides : w ≥ 1 ∧ h ≥ 1 → w = 1 ∧ h = 1 := by omega
      rw [attemptAlloc]
      split
      · next some =>
          split
          · exact Option.some_ne_none _
          · rw [if_pos (sides some)]
            exact Option.some_ne_none _
      · exact Option.some_ne_none _
  | succ fuel induction =>
      rw [attemptAlloc]
      split
      · split
        · exact Option.some_ne_none _
        · split
          · exact Option.some_ne_none _
          · exact induction (halve_le width) (halve_le height)
      · exact Option.some_ne_none _

theorem attemptAlloc_within {granted : Nat → Bool} {fuel w h : Nat} {target : Nat × Nat}
    (width : 1 ≤ w ∧ w ≤ 2147483648) (height : 1 ≤ h ∧ h ≤ 2147483648)
    (got : attemptAlloc granted fuel w h = some (some target)) : SidesWithin w h target := by
  induction fuel generalizing w h with
  | zero => simp [attemptAlloc] at got
  | succ fuel induction =>
      rw [attemptAlloc, if_pos ⟨width.1, height.1⟩] at got
      split at got
      · rw [← Option.some.inj (Option.some.inj got)]
        exact ⟨⟨width.1, Nat.le_refl w⟩, ⟨height.1, Nat.le_refl h⟩⟩
      · split at got
        · simp at got
        · exact (induction (halve_bounds width) (halve_bounds height) got).of_halve width height

theorem WallpaperEnv.maxPx_pos (env : WallpaperEnv) : 1 ≤ env.maxPx := by
  rw [WallpaperEnv.maxPx]
  split
  · next sides => exact Nat.mul_pos (by omega) (by omega)
  · decide

/-- The loops never use up their bound. -/
theorem wallpaperTarget_returns (env : WallpaperEnv) {w h : Nat}
    (width : 1 ≤ w ∧ w ≤ 2147483648) (height : 1 ≤ h ∧ h ≤ 2147483648) :
    wallpaperTarget env w h ≠ none := by
  have fits := @fitWithin_returns env.maxPx 32 w h env.maxPx_pos (by omega) (by omega)
  rw [wallpaperTarget]
  cases fit : fitWithin env.maxPx 33 w h with
  | none => exact absurd fit fits
  | some sides =>
      have within := fitWithin_within width height fit
      have first := within.width
      have second := within.height
      exact @attemptAlloc_returns env.granted 32 sides.1 sides.2 (by omega) (by omega)

theorem wallpaperTarget_within {env : WallpaperEnv} {w h : Nat} {target : Nat × Nat}
    (width : 1 ≤ w ∧ w ≤ 2147483648) (height : 1 ≤ h ∧ h ≤ 2147483648)
    (got : wallpaperTarget env w h = some (some target)) : SidesWithin w h target := by
  rw [wallpaperTarget] at got
  cases fit : fitWithin env.maxPx 33 w h with
  | none => simp [fit] at got
  | some sides =>
      have within := fitWithin_within width height fit
      have first := within.width
      have second := within.height
      simp only [fit, Option.bind_eq_bind, Option.bind_some] at got
      have inner := attemptAlloc_within (by omega) (by omega) got
      have third := inner.width
      have fourth := inner.height
      exact ⟨⟨third.1, by omega⟩, ⟨fourth.1, by omega⟩⟩

/-! ## What a pixel reads -/

/-- The bytes of the pixel in column `sx`, from the start of its row. -/
def pixelOffsets (depth : BmpDepth) (sx : Nat) : List Nat :=
  match depth with
  | .bits24 => [u32 (sx * 3), u32 (sx * 3 + 1), u32 (sx * 3 + 2)]
  | .bits32 => [u32 (sx * 4), u32 (sx * 4 + 1), u32 (sx * 4 + 2), u32 (sx * 4 + 3)]
  | .bits8 => [sx]
  | .bits4 => [sx / 2]

/-- The colour of the palette that the pixel in column `sx` of the row at `src` names. -/
def namedColor (buf : Buffer) (colors : Nat) (depth : BmpDepth) (src sx : Nat) : Nat :=
  let idx := match depth with
    | .bits4 =>
        let byte := (buf (src + sx / 2)).toNat
        if sx % 2 = 1 then byte % 16 else byte / 16
    | _ => (buf (src + sx)).toNat
  if idx ≥ colors then 0 else idx

theorem namedColor_lt {colors : Nat} (some : colors ≠ 0) (buf : Buffer) (depth : BmpDepth)
    (src sx : Nat) : namedColor buf colors depth src sx < colors := by
  have clamped : ∀ idx, (if idx ≥ colors then 0 else idx) < colors := by
    intro idx
    split <;> omega
  exact clamped _

theorem Palette.pixel_readsBelow (buf : Buffer) (palette : Palette) (limit idx : Nat) :
    ReadsBelow limit (palette.pixel idx) buf ↔
      palette.start + (if idx ≥ palette.colors then 0 else idx) * 4 + 3 < limit := by
  simp only [Palette.pixel, readsBelow_bind, readsBelow_peek8, readsBelow_pure, peek8_fst,
    Option.some.injEq, forall_eq', and_true]
  omega

theorem Palette.pixel_returns (buf : Buffer) (palette : Palette) (idx : Nat) :
    ∃ value, (palette.pixel idx buf).1 = some value := by
  simp only [Palette.pixel, PeekM.bind_fst, peek8_fst, Option.bind_some, PeekM.pure_apply]
  exact ⟨_, rfl⟩

theorem wallpaperPixel_returns (buf : Buffer) (palette : Palette) (depth : BmpDepth)
    (src sx : Nat) : ∃ value, (wallpaperPixel palette depth src sx buf).1 = some value := by
  cases depth with
  | bits4 =>
      simp only [wallpaperPixel, PeekM.bind_fst, peek8_fst, Option.bind_some]
      exact Palette.pixel_returns _ _ _
  | bits8 =>
      simp only [wallpaperPixel, PeekM.bind_fst, peek8_fst, Option.bind_some]
      exact Palette.pixel_returns _ _ _
  | bits24 => exact ⟨_, rfl⟩
  | bits32 => exact ⟨_, rfl⟩

theorem wallpaperPixel_readsBelow (buf : Buffer) (palette : Palette) (depth : BmpDepth)
    (limit src sx : Nat) :
    ReadsBelow limit (wallpaperPixel palette depth src sx) buf ↔
      (∀ offset ∈ pixelOffsets depth sx, src + offset < limit) ∧
      (depth.indexed →
        palette.start + namedColor buf palette.colors depth src sx * 4 + 3 < limit) := by
  cases depth with
  | bits4 =>
      simp only [wallpaperPixel, readsBelow_bind, readsBelow_peek8, peek8_fst, Option.some.injEq,
        forall_eq', Palette.pixel_readsBelow, pixelOffsets, List.mem_singleton, forall_eq,
        BmpDepth.indexed, true_imp_iff, namedColor]
  | bits8 =>
      simp only [wallpaperPixel, readsBelow_bind, readsBelow_peek8, peek8_fst, Option.some.injEq,
        forall_eq', Palette.pixel_readsBelow, pixelOffsets, List.mem_singleton, forall_eq,
        BmpDepth.indexed, true_imp_iff, namedColor]
  | bits24 =>
      simp [wallpaperPixel, readsBelow_bind, pixelOffsets, BmpDepth.indexed]
  | bits32 =>
      simp [wallpaperPixel, readsBelow_bind, pixelOffsets, BmpDepth.indexed]

/-- The stores of a row, each with the pixel that was decoded. -/
theorem wallpaperRow_pixels (buf : Buffer) (header : BmpHeader) (palette : Palette)
    (rowStride targetW targetH : Nat) :
    ∃ values : Nat → Nat → Nat × Nat, ∀ y x,
      (((wallpaperPixel palette header.depth
        (header.dataOff + wallpaperRowOffset header.h rowStride targetH y)
        (wallpaperColumn header.w targetW x)) >>= fun value =>
          pure (u32 (y * targetW) + x, value) : PeekM (Nat × Nat)) buf).1 = some (values y x) := by
  have pixel : ∀ y x, ∃ value, (((wallpaperPixel palette header.depth
      (header.dataOff + wallpaperRowOffset header.h rowStride targetH y)
      (wallpaperColumn header.w targetW x)) >>= fun value =>
        pure (u32 (y * targetW) + x, value) : PeekM (Nat × Nat)) buf).1 = some value := by
    intro y x
    rcases wallpaperPixel_returns buf palette header.depth
      (header.dataOff + wallpaperRowOffset header.h rowStride targetH y)
      (wallpaperColumn header.w targetW x) with ⟨value, returned⟩
    rw [PeekM.bind_fst, returned]
    exact ⟨_, rfl⟩
  choose values returned using pixel
  exact ⟨values, returned⟩

theorem wallpaperRows_returns (buf : Buffer) (header : BmpHeader) (palette : Palette)
    (rowStride targetW targetH : Nat) :
    ∃ pixels, (PeekM.each (wallpaperRow header palette rowStride targetW targetH)
      (List.range targetH) buf).1 = some pixels := by
  rcases wallpaperRow_pixels buf header palette rowStride targetW targetH with ⟨values, returned⟩
  exact ⟨_, PeekM.each_fst fun y _ => PeekM.each_fst fun x _ => returned y x⟩

/-- The reads of the rows are those of their pixels. -/
theorem wallpaperRows_readsBelow (buf : Buffer) (header : BmpHeader) (palette : Palette)
    (rowStride targetW targetH limit : Nat) :
    ReadsBelow limit (PeekM.each (wallpaperRow header palette rowStride targetW targetH)
      (List.range targetH)) buf ↔
      ∀ y < targetH, ∀ x < targetW,
        ReadsBelow limit (wallpaperPixel palette header.depth
          (header.dataOff + wallpaperRowOffset header.h rowStride targetH y)
          (wallpaperColumn header.w targetW x)) buf := by
  rcases wallpaperRow_pixels buf header palette rowStride targetW targetH with ⟨values, returned⟩
  have rows : ∀ y, (wallpaperRow header palette rowStride targetW targetH y buf).1 =
      some ((List.range targetW).map (values y)) := by
    intro y
    exact PeekM.each_fst fun x _ => returned y x
  rw [readsBelow_each fun y _ => rows y]
  simp only [List.mem_range]
  constructor
  · intro below y inside x column
    have row := (readsBelow_each fun x _ => returned y x).mp (below y inside) x
      (List.mem_range.mpr column)
    exact (readsBelow_bind.mp row).1
  · intro below y inside
    refine (readsBelow_each fun x _ => returned y x).mpr ?_
    intro x column
    rw [readsBelow_bind]
    exact ⟨below y inside x (List.mem_range.mp column), fun value _ => by simp⟩

end ParanOS

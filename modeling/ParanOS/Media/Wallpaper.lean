import ParanOS.Foundation.Scaling
import ParanOS.Media.Bmp

/-! # Where the wallpaper is read from

Which bytes of the file `load_bmp_into_bg` reads. It computes the bytes of a row and of
the palette in 32 bits and compares the results with the size of the file in 64 bits. Where
the products fit, all pixels and colours are in the file; where one wraps, the check is
made with another number than the pixels or the colours need.
-/

namespace ParanOS

open Foundation

/-! ## Accepted headers -/

/-- The fields of a header that is accepted. -/
structure BmpHeader.Accepted (header : BmpHeader) : Prop where
  width : 0 < header.w ∧ header.w < 2147483648
  height : -2147483648 ≤ header.h ∧ header.h < 2147483648
  height_ne_zero : header.h ≠ 0
  colored : header.depth.indexed → header.paletteColors ≠ 0

theorem BmpDepth.palette_ne_zero (depth : BmpDepth) : 2 ^ depth.bpp ≠ 0 := by
  cases depth <;> decide

theorem accepted_of_loadBmpHeader {buf : Buffer} {len : Nat} {header : BmpHeader}
    (accepted : loadBmpHeader buf len = some header) : header.Accepted := by
  rw [loadBmpHeader] at accepted
  split at accepted
  · simp at accepted
  · split at accepted
    · simp at accepted
    · simp only at accepted
      split at accepted
      · simp at accepted
      · split at accepted
        · simp at accepted
        · next depth known =>
            split at accepted
            · simp at accepted
            · split at accepted
              · simp at accepted
              · next sides =>
                  rw [← Option.some.inj accepted]
                  have width := s32_bounds (buf.getU32_lt 18)
                  have height := s32_bounds (buf.getU32_lt 22)
                  have colors := depth.palette_ne_zero
                  have positive : 0 < s32 (buf.getU32 18) := by omega
                  have nonzero : s32 (buf.getU32 22) ≠ 0 := by omega
                  refine ⟨⟨positive, width.2⟩, height, nonzero, ?_⟩
                  intro indexed
                  simp only at indexed
                  simp only [indexed, if_true]
                  split
                  · assumption
                  · exact colors

theorem absInt_eq {h : Int} (range : -2147483648 < h ∧ h < 2147483648) : absInt h = h.natAbs := by
  rw [absInt]
  split
  · have negated : toU32 (-h) = h.natAbs := by
      rw [toU32]
      omega
    rw [negated, s32_of_lt (by omega)]
  · omega

theorem absInt_cases {h : Int} (range : -2147483648 ≤ h ∧ h < 2147483648) (nonzero : h ≠ 0) :
    absInt h = -2147483648 ∨ ∃ height : Nat, absInt h = height ∧ 1 ≤ height ∧
      height < 2147483648 := by
  by_cases least : h = -2147483648
  · rw [least]
    exact .inl (by decide)
  · exact .inr ⟨h.natAbs, absInt_eq (by omega), by omega, by omega⟩

theorem BmpHeader.rowStride_le (header : BmpHeader) : header.rowStride ≤ 536870908 := by
  have wrapped := u32_lt (u32 (header.depth.bpp * toU32 header.w) + 31)
  rw [BmpHeader.rowStride]
  omega

/-- Where the check of the pixel data passes and a row is not empty, the pixel data of
all rows is in the file. -/
theorem rows_of_not_refused {header : BmpHeader} {fileSize : Nat} (accepted : header.Accepted)
    (narrow : fileSize < 4294967296) (inside : header.dataOff < fileSize)
    (checked : ¬ pixelsRefused header fileSize) (nonempty : header.rowStride ≠ 0) :
    ∃ height : Nat, absInt header.h = height ∧ 1 ≤ height ∧ height < 2147483648 ∧
      header.dataOff + header.rowStride * height ≤ fileSize := by
  have stride := header.rowStride_le
  have multiple : 4 ∣ header.rowStride := ⟨_, Nat.mul_comm _ 4⟩
  rw [pixelsRefused] at checked
  rcases absInt_cases accepted.height accepted.height_ne_zero with least | ⟨height, value, bounds⟩
  · -- the height sign-extends to 2^64 - 2^31
    have extended : toU64 (-2147483648) = 18446744071562067968 := by decide
    rw [least, extended] at checked
    simp only [u64] at checked
    omega
  · refine ⟨height, value, bounds.1, bounds.2, ?_⟩
    have extended : toU64 (height : Int) = height := by
      rw [toU64]
      omega
    have product : header.rowStride * height ≤ 536870908 * 2147483648 :=
      Nat.mul_le_mul stride (by omega)
    rw [value, extended] at checked
    simp only [u64] at checked
    rw [Nat.mod_eq_of_lt (show header.rowStride * height < 18446744073709551616 by omega),
      Nat.mod_eq_of_lt (by omega)] at checked
    omega

/-- The row of the file that row `y` of the picture comes from, counted in the file. -/
def wallpaperSourceRow (h : Int) (targetH y : Nat) : Int :=
  let absH := absInt h
  let sy := u32 (u64 (y * toU64 absH) / targetH)
  if h > 0 then absH - 1 - s32 sy else s32 sy

theorem wallpaperRowOffset_eq (h : Int) (rowStride targetH y : Nat) :
    wallpaperRowOffset h rowStride targetH y =
      u32 (toU32 (wallpaperSourceRow h targetH y) * rowStride) := rfl

theorem wallpaperSourceRow_inside {h : Int} {height targetH y : Nat} (value : absInt h = height)
    (small : height < 2147483648) (some : 1 ≤ height) (below : y < targetH)
    (within : targetH ≤ height) :
    0 ≤ wallpaperSourceRow h targetH y ∧ wallpaperSourceRow h targetH y < height := by
  have extended : toU64 (height : Int) = height := by
    rw [toU64]
    omega
  have row : nearest height targetH y < height := nearest_lt some below
  have product : y * height ≤ 2147483648 * 2147483648 := Nat.mul_le_mul (by omega) (by omega)
  rw [nearest] at row
  rw [wallpaperSourceRow, value, extended]
  simp only [u64]
  rw [Nat.mod_eq_of_lt (show y * height < 18446744073709551616 by omega)]
  generalize y * height / targetH = sy at row
  rw [u32_of_lt (show sy < 4294967296 by omega), s32_of_lt (show sy < 2147483648 by omega)]
  split <;> omega

/-- A row of the picture comes from a row of the file. -/
theorem wallpaperRowOffset_inside {header : BmpHeader} {fileSize targetH y : Nat}
    (accepted : header.Accepted) (narrow : fileSize < 4294967296)
    (inside : header.dataOff < fileSize) (checked : ¬ pixelsRefused header fileSize)
    (nonempty : header.rowStride ≠ 0) (below : y < targetH)
    (within : targetH ≤ toU32 (absInt header.h)) :
    header.dataOff + wallpaperRowOffset header.h header.rowStride targetH y + header.rowStride ≤
      fileSize := by
  rcases rows_of_not_refused accepted narrow inside checked nonempty with
    ⟨height, value, some, small, fits⟩
  rw [value, toU32_of_nat (by omega)] at within
  have row := wallpaperSourceRow_inside value small some below within
  rw [wallpaperRowOffset_eq]
  generalize wallpaperSourceRow header.h targetH y = srcY at row
  rcases Int.eq_ofNat_of_zero_le row.1 with ⟨srcY, rfl⟩
  have rows : (srcY + 1) * header.rowStride ≤ height * header.rowStride :=
    Nat.mul_le_mul_right _ (by omega)
  rw [Nat.succ_mul, Nat.mul_comm height] at rows
  rw [toU32_of_nat (by omega), u32_of_lt (by omega)]
  omega

/-! ## Columns -/

theorem BmpHeader.Accepted.toU32_w {header : BmpHeader} (accepted : header.Accepted) :
    toU32 header.w = header.w.toNat := by
  have width := accepted.width
  rw [toU32]
  omega

theorem BmpHeader.Accepted.target_width {header : BmpHeader} (accepted : header.Accepted) :
    1 ≤ toU32 header.w ∧ toU32 header.w ≤ 2147483648 := by
  have width := accepted.width
  rw [accepted.toU32_w]
  omega

theorem BmpHeader.Accepted.target_height {header : BmpHeader} (accepted : header.Accepted) :
    1 ≤ toU32 (absInt header.h) ∧ toU32 (absInt header.h) ≤ 2147483648 := by
  rcases absInt_cases accepted.height accepted.height_ne_zero with least | ⟨height, value, bounds⟩
  · rw [least]
    decide
  · rw [value, toU32_of_nat (by omega)]
    omega

theorem wallpaperColumn_eq {w : Int} {targetW x : Nat} (width : 0 < w ∧ w < 2147483648)
    (below : x < targetW) :
    wallpaperColumn w targetW x = x * w.toNat / targetW ∧
      x * w.toNat / targetW < w.toNat := by
  have column : x * w.toNat / targetW < w.toNat := nearest_lt (by omega) below
  exact ⟨u32_of_lt (by omega), column⟩

/-- No product that the code computes in 32 bits wraps. -/
structure BmpHeader.Unwrapped (header : BmpHeader) : Prop where
  stride : header.depth.bpp * header.w.toNat + 31 < 4294967296
  palette : header.depth.indexed → header.paletteColors < 1073741824

/-- A row that did not wrap has all its pixels. -/
theorem pixelOffsets_lt {header : BmpHeader} {sx : Nat} (accepted : header.Accepted)
    (unwrapped : header.depth.bpp * header.w.toNat + 31 < 4294967296)
    (column : sx < header.w.toNat) :
    ∀ offset ∈ pixelOffsets header.depth sx, offset < header.rowStride := by
  have stride : header.rowStride = (header.depth.bpp * header.w.toNat + 31) / 32 * 4 := by
    have product : header.depth.bpp * header.w.toNat < 4294967296 := by omega
    rw [BmpHeader.rowStride, accepted.toU32_w, u32_of_lt product, u32_of_lt unwrapped]
  rw [stride]
  clear stride
  intro offset member
  cases depth : header.depth with
  | bits4 =>
      simp only [depth, pixelOffsets, List.mem_singleton, BmpDepth.bpp] at member unwrapped ⊢
      omega
  | bits8 =>
      simp only [depth, pixelOffsets, List.mem_singleton, BmpDepth.bpp] at member unwrapped ⊢
      omega
  | bits24 =>
      simp only [depth, BmpDepth.bpp] at unwrapped ⊢
      have small : sx * 3 + 2 < 4294967296 := by omega
      simp only [depth, pixelOffsets, List.mem_cons, List.not_mem_nil, or_false,
        u32_of_lt small, u32_of_lt (show sx * 3 + 1 < 4294967296 by omega),
        u32_of_lt (show sx * 3 < 4294967296 by omega)] at member
      omega
  | bits32 =>
      simp only [depth, BmpDepth.bpp] at unwrapped ⊢
      have small : sx * 4 + 3 < 4294967296 := by omega
      simp only [depth, pixelOffsets, List.mem_cons, List.not_mem_nil, or_false,
        u32_of_lt small, u32_of_lt (show sx * 4 + 2 < 4294967296 by omega),
        u32_of_lt (show sx * 4 + 1 < 4294967296 by omega),
        u32_of_lt (show sx * 4 < 4294967296 by omega)] at member
      omega

/-- Of at least two columns of a wide row one is far from its start, and not so far that
its offset wraps. -/
theorem exists_far_column {w targetW : Nat} (wide : 134217728 ≤ w) (narrow : w < 2147483648)
    (two : 2 ≤ targetW) :
    ∃ x < targetW, 67108864 ≤ x * w / targetW ∧ x * w / targetW < 1073741824 := by
  by_cases just : targetW = 2
  · refine ⟨1, by omega, ?_⟩
    rw [just]
    omega
  · have split := Nat.div_add_mod (67108864 * targetW + (w - 1)) w
    have rest := Nat.mod_lt (67108864 * targetW + (w - 1)) (show 0 < w by omega)
    generalize (67108864 * targetW + (w - 1)) / w = x at split
    rw [Nat.mul_comm w x] at split
    have area : 134217728 * targetW ≤ targetW * w := by
      rw [Nat.mul_comm]
      exact Nat.mul_le_mul_left _ wide
    have rows : 3 * w ≤ targetW * w := Nat.mul_le_mul_right _ (by omega)
    refine ⟨x, ?_, ?_, ?_⟩
    · by_contra beyond
      have more : targetW * w ≤ x * w := Nat.mul_le_mul_right _ (by omega)
      omega
    · rw [Nat.le_div_iff_mul_le (by omega)]
      omega
    · rw [Nat.div_lt_iff_lt_mul (by omega)]
      omega

theorem exists_far_offset {depth : BmpDepth} {sx : Nat} (far : 67108864 ≤ sx)
    (near : sx < 1073741824) : ∃ offset ∈ pixelOffsets depth sx, 16777216 ≤ offset := by
  cases depth with
  | bits4 => exact ⟨sx / 2, by simp [pixelOffsets], by omega⟩
  | bits8 => exact ⟨sx, by simp [pixelOffsets], by omega⟩
  | bits24 =>
      refine ⟨u32 (sx * 3), by simp [pixelOffsets], ?_⟩
      rw [u32_of_lt (by omega)]
      omega
  | bits32 =>
      refine ⟨u32 (sx * 4), by simp [pixelOffsets], ?_⟩
      rw [u32_of_lt (by omega)]
      omega

/-- The bytes of a pixel in column 0. -/
def BmpDepth.firstBytes : BmpDepth → Nat
  | .bits4 | .bits8 => 1
  | .bits24 => 3
  | .bits32 => 4

theorem pixelOffsets_zero (depth : BmpDepth) (base limit : Nat) :
    (∀ offset ∈ pixelOffsets depth 0, base + offset < limit) ↔ base + depth.firstBytes ≤ limit := by
  cases depth with
  | bits4 =>
      simp only [pixelOffsets, List.mem_singleton, forall_eq, BmpDepth.firstBytes]
      omega
  | bits8 =>
      simp only [pixelOffsets, List.mem_singleton, forall_eq, BmpDepth.firstBytes]
      omega
  | bits24 =>
      simp only [pixelOffsets, List.mem_cons, List.not_mem_nil, or_false, forall_eq_or_imp,
        forall_eq, BmpDepth.firstBytes, u32]
      omega
  | bits32 =>
      simp only [pixelOffsets, List.mem_cons, List.not_mem_nil, or_false, forall_eq_or_imp,
        forall_eq, BmpDepth.firstBytes, u32]
      omega

/-! ## What the decoder reads -/

/-- What holds behind the checks. -/
structure WallpaperChecked (buf : Buffer) (fileSize : Nat) (header : BmpHeader) : Prop where
  long : 18 ≤ fileSize
  inside : header.dataOff < fileSize
  headerSize : buf.getU32 14 ≤ fileSize ∧ u32 (14 + buf.getU32 14) ≤ fileSize
  palette : ¬ paletteRefused header fileSize (u32 (14 + buf.getU32 14))
  pixels : ¬ pixelsRefused header fileSize

/-- Every byte of the pixels is in the file. -/
def PixelsInside (fileSize : Nat) (header : BmpHeader) (targetW targetH : Nat) : Prop :=
  ∀ y < targetH, ∀ x < targetW,
    ∀ offset ∈ pixelOffsets header.depth (wallpaperColumn header.w targetW x),
      header.dataOff + wallpaperRowOffset header.h header.rowStride targetH y + offset < fileSize

/-- Every colour that a pixel names is in the file. -/
def ColorsInside (buf : Buffer) (fileSize : Nat) (header : BmpHeader) (targetW targetH : Nat) :
    Prop :=
  ∀ y < targetH, ∀ x < targetW,
    u32 (14 + buf.getU32 14) + namedColor buf header.paletteColors header.depth
      (header.dataOff + wallpaperRowOffset header.h header.rowStride targetH y)
      (wallpaperColumn header.w targetW x) * 4 + 3 < fileSize

/-- A decoder that returns 0 passed its checks, and its reads are those of the pixels. -/
theorem of_loadBmpIntoBg {env : WallpaperEnv} {buf : Buffer} {fileSize : Nat} {header : BmpHeader}
    {wallpaper : Wallpaper}
    (ran : (loadBmpIntoBg env fileSize header buf).1 = some (some wallpaper)) :
    WallpaperChecked buf fileSize header ∧
      wallpaperTarget env (toU32 header.w) (toU32 (absInt header.h)) =
        some (some (wallpaper.w, wallpaper.h)) ∧
      (ReadsBelow fileSize (loadBmpIntoBg env fileSize header) buf ↔
        PixelsInside fileSize header wallpaper.w wallpaper.h ∧
          (header.depth.indexed → ColorsInside buf fileSize header wallpaper.w wallpaper.h)) := by
  rw [loadBmpIntoBg] at ran ⊢
  by_cases empty : fileSize = 0
  · simp [empty] at ran
  by_cases outside : header.dataOff ≥ fileSize
  · simp [empty, outside] at ran
  by_cases short : fileSize < 18
  · simp [empty, outside, short] at ran
  simp only [empty, outside, short, if_false] at ran ⊢
  simp only [PeekM.bind_fst, peek32_fst, Option.bind_some] at ran
  have first : 14 + 3 < fileSize := by omega
  simp only [readsBelow_bind, readsBelow_peek32, peek32_fst, Option.some.injEq, forall_eq', first,
    true_and]
  split at ran
  · simp at ran
  next headerFits =>
  rw [if_neg headerFits]
  split at ran
  · simp at ran
  next palette =>
  rw [if_neg palette]
  split at ran
  · simp at ran
  next pixels =>
  rw [if_neg pixels]
  cases target : wallpaperTarget env (toU32 header.w) (toU32 (absInt header.h)) with
  | none => simp [target] at ran
  | some granted =>
      cases granted with
      | none => simp [target] at ran
      | some sides =>
          rcases sides with ⟨targetW, targetH⟩
          simp only [target, PeekM.bind_fst, PeekM.pure_apply, Option.bind_eq_some_iff,
            Option.some.injEq] at ran
          rcases ran with ⟨rows, _, result⟩
          rw [← result]
          refine ⟨⟨by omega, by omega, by omega, palette, pixels⟩, rfl, ?_⟩
          rw [readsBelow_bind, wallpaperRows_readsBelow]
          simp only [readsBelow_pure, implies_true, and_true, wallpaperPixel_readsBelow]
          constructor
          · intro below
            exact ⟨fun y row x column => (below y row x column).1,
              fun indexed y row x column => (below y row x column).2 indexed⟩
          · rintro ⟨offsets, colors⟩ y row x column
            exact ⟨offsets y row x column, fun indexed => colors indexed y row x column⟩

/-- Behind the checks a picture that there is memory for is decoded. -/
theorem WallpaperChecked.returns {env : WallpaperEnv} {buf : Buffer} {fileSize : Nat}
    {header : BmpHeader} {targetW targetH : Nat} (checked : WallpaperChecked buf fileSize header)
    (target : wallpaperTarget env (toU32 header.w) (toU32 (absInt header.h)) =
      some (some (targetW, targetH))) :
    ∃ pixels, (loadBmpIntoBg env fileSize header buf).1 =
      some (some ⟨targetW, targetH, pixels⟩) := by
  have long := checked.long
  have inside := checked.inside
  have fits := checked.headerSize
  rcases wallpaperRows_returns buf header ⟨u32 (14 + buf.getU32 14), header.paletteColors⟩
    header.rowStride targetW targetH with ⟨pixels, rows⟩
  refine ⟨pixels, ?_⟩
  rw [loadBmpIntoBg, if_neg (by omega), if_neg (by omega), if_neg (by omega), PeekM.bind_fst,
    peek32_fst, Option.bind_some, if_neg (by omega), if_neg checked.palette, if_neg checked.pixels]
  simp only [target, PeekM.bind_fst, rows, Option.bind_some, PeekM.pure_apply]

section

variable {env : WallpaperEnv} {buf : Buffer} {fileSize targetW targetH : Nat} {header : BmpHeader}
  (accepted : header.Accepted) (narrow : fileSize < 4294967296)
  (checked : WallpaperChecked buf fileSize header)
  (within : SidesWithin (toU32 header.w) (toU32 (absInt header.h)) (targetW, targetH))
include accepted narrow checked within

theorem pixelsInside_of_unwrapped
    (unwrapped : header.depth.bpp * header.w.toNat + 31 < 4294967296) :
    PixelsInside fileSize header targetW targetH := by
  intro y row x column offset member
  rcases wallpaperColumn_eq accepted.width column with ⟨value, less⟩
  rw [value] at member
  have bytes := pixelOffsets_lt accepted unwrapped less offset member
  have nonempty : header.rowStride ≠ 0 := by omega
  have fits := wallpaperRowOffset_inside accepted narrow checked.inside checked.pixels nonempty row
    within.height.2
  omega

/-- In a file as large as the callers allow, a row that wrapped has pixels outside the
file unless only its first pixel is read. -/
theorem pixelsInside_iff (limited : fileSize ≤ 16777216) :
    PixelsInside fileSize header targetW targetH ↔
      header.depth.bpp * header.w.toNat + 31 < 4294967296 ∨
        targetW = 1 ∧ (header.rowStride ≠ 0 ∨
          header.dataOff + header.depth.firstBytes ≤ fileSize) := by
  have width := accepted.width
  have inside := within.width
  have height := within.height
  constructor
  · intro pixels
    by_cases unwrapped : header.depth.bpp * header.w.toNat + 31 < 4294967296
    · exact .inl unwrapped
    · right
      have wide : 134217728 ≤ header.w.toNat := by
        cases depth : header.depth <;> simp only [depth, BmpDepth.bpp] at unwrapped <;> omega
      have one : targetW = 1 := by
        by_contra more
        rcases exists_far_column wide (by omega) (show 2 ≤ targetW by omega) with
          ⟨x, column, far, near⟩
        rcases @exists_far_offset header.depth _ far near with ⟨offset, member, large⟩
        have read := pixels 0 (by omega) x column offset
          (by rw [(wallpaperColumn_eq width column).1]; exact member)
        omega
      refine ⟨one, ?_⟩
      by_cases nonempty : header.rowStride = 0
      · right
        rw [← pixelOffsets_zero]
        intro offset member
        have start : wallpaperRowOffset header.h header.rowStride targetH 0 = 0 := by
          rw [wallpaperRowOffset, nonempty, Nat.mul_zero]
          rfl
        have column : wallpaperColumn header.w targetW 0 = 0 := by
          rw [wallpaperColumn, Nat.zero_mul, Nat.zero_div]
          rfl
        have read := pixels 0 (by omega) 0 (by omega) offset (by rw [column]; exact member)
        rw [start] at read
        exact read
      · exact .inl nonempty
  · intro condition
    rcases condition with unwrapped | ⟨one, fits⟩
    · exact pixelsInside_of_unwrapped accepted narrow checked within unwrapped
    · intro y row x column
      have zero : x = 0 := by omega
      have first : wallpaperColumn header.w targetW x = 0 := by
        rw [wallpaperColumn, zero, Nat.zero_mul, Nat.zero_div]
        rfl
      rw [first, pixelOffsets_zero]
      by_cases nonempty : header.rowStride = 0
      · have start : wallpaperRowOffset header.h header.rowStride targetH y = 0 := by
          rw [wallpaperRowOffset, nonempty, Nat.mul_zero]
          rfl
        rw [start]
        exact fits.resolve_left (not_not.mpr nonempty)
      · have rows := wallpaperRowOffset_inside accepted narrow checked.inside checked.pixels
          nonempty row height.2
        have four : 4 ∣ header.rowStride := ⟨_, Nat.mul_comm _ 4⟩
        have bytes : header.depth.firstBytes ≤ 4 := by
          cases header.depth <;> decide
        omega

omit narrow within in
/-- A palette whose size did not wrap is in the file. -/
theorem colorsInside_of_unwrapped (indexed : header.depth.indexed)
    (unwrapped : header.paletteColors < 1073741824) :
    ColorsInside buf fileSize header targetW targetH := by
  intro y row x column
  have palette := checked.palette
  simp only [paletteRefused, indexed, true_and, not_or, u32_of_lt
    (show header.paletteColors * 4 < 4294967296 by omega)] at palette
  have some := accepted.colored indexed
  have named : namedColor buf header.paletteColors header.depth
      (header.dataOff + wallpaperRowOffset header.h header.rowStride targetH y)
      (wallpaperColumn header.w targetW x) < header.paletteColors := namedColor_lt some _ _ _ _
  omega

end

/-- The products do not wrap, or what is read lies in the file nevertheless: only the
first pixel of each row, or colours that are in the file. -/
structure WallpaperInside (buf : Buffer) (fileSize : Nat) (header : BmpHeader)
    (targetW targetH : Nat) : Prop where
  pixels : header.depth.bpp * header.w.toNat + 31 < 4294967296 ∨
    targetW = 1 ∧ (header.rowStride ≠ 0 ∨ header.dataOff + header.depth.firstBytes ≤ fileSize)
  colors : header.depth.indexed → header.paletteColors < 1073741824 ∨
    ColorsInside buf fileSize header targetW targetH

/-- The decoder reads only the file if no product wraps. In a file as large as the
callers allow it does exactly if what is read lies in the file nevertheless. -/
theorem loadBmpIntoBg_inside_iff {env : WallpaperEnv} {buf : Buffer} {len fileSize : Nat}
    {header : BmpHeader} {wallpaper : Wallpaper} (accepted : loadBmpHeader buf len = some header)
    (narrow : fileSize < 4294967296)
    (ran : (loadBmpIntoBg env fileSize header buf).1 = some (some wallpaper)) :
    (header.Unwrapped → ReadsBelow fileSize (loadBmpIntoBg env fileSize header) buf) ∧
    (fileSize ≤ 16777216 →
      ∀ targetW targetH, wallpaperTarget env (toU32 header.w) (toU32 (absInt header.h)) =
        some (some (targetW, targetH)) →
      (ReadsBelow fileSize (loadBmpIntoBg env fileSize header) buf ↔
        WallpaperInside buf fileSize header targetW targetH)) := by
  have accepted := accepted_of_loadBmpHeader accepted
  rcases of_loadBmpIntoBg ran with ⟨checked, target, reads⟩
  have within := wallpaperTarget_within accepted.target_width accepted.target_height target
  rw [reads]
  refine ⟨?_, ?_⟩
  · intro unwrapped
    exact ⟨pixelsInside_of_unwrapped accepted narrow checked within unwrapped.stride,
      fun indexed => colorsInside_of_unwrapped accepted checked indexed (unwrapped.palette indexed)⟩
  · intro limited targetW targetH same
    rw [target, Option.some.injEq, Option.some.injEq, Prod.mk.injEq] at same
    rw [← same.1, ← same.2, pixelsInside_iff accepted narrow checked within limited]
    constructor
    · rintro ⟨pixels, colors⟩
      exact ⟨pixels, fun indexed => .inr (colors indexed)⟩
    · intro inside
      refine ⟨inside.pixels, ?_⟩
      intro indexed
      rcases inside.colors indexed with unwrapped | colors
      · exact colorsInside_of_unwrapped accepted checked indexed unwrapped
      · exact colors

/-- A file with one pixel of 24 bits. -/
def onePixelBmp : Buffer := Buffer.ofList
  [0x42, 0x4D, 58, 0, 0, 0, 0, 0, 0, 0, 54, 0, 0, 0, 40, 0, 0, 0, 1, 0, 0, 0, 1, 0, 0, 0, 1, 0,
    24, 0, 0, 0, 0, 0, 4, 0, 0, 0, 0, 0, 0, 0, 0, 0, 0, 0, 0, 0, 0, 0, 0, 0, 0, 0, 1, 2, 3, 0]

/-- A screen, and memory for everything. -/
def roomyEnv : WallpaperEnv := ⟨1920, 1080, fun _ => true⟩

theorem loadBmpIntoBg_inside_onePixel :
    ReadsBelow 58 (loadBmpIntoBg roomyEnv 58 ⟨58, 54, 1, 1, .bits24, 0⟩) onePixelBmp := by
  have accepted : loadBmpHeader onePixelBmp 58 = some ⟨58, 54, 1, 1, .bits24, 0⟩ := by decide
  have ran : (loadBmpIntoBg roomyEnv 58 ⟨58, 54, 1, 1, .bits24, 0⟩ onePixelBmp).1 =
      some (some ⟨1, 1, [[(0, 0xFF030201)]]⟩) := by decide
  exact (loadBmpIntoBg_inside_iff accepted (by decide) ran).1 ⟨by decide, by decide⟩

/-- A file of 58 bytes that has one row of 2^27 pixels of 32 bits by its header. -/
def wideBmp : Buffer := Buffer.ofList
  [0x42, 0x4D, 58, 0, 0, 0, 0, 0, 0, 0, 54, 0, 0, 0, 40, 0, 0, 0, 0, 0, 0, 8, 1, 0, 0, 0, 1, 0,
    32, 0, 0, 0, 0, 0, 0, 0, 0, 0, 0, 0, 0, 0, 0, 0, 0, 0, 0, 0, 0, 0, 0, 0, 0, 0, 1, 2, 3, 0]

/-- The bytes of the row wrap to 0, and the check passes. -/
theorem loadBmpIntoBg_reads_outside :
    ¬ ∀ (env : WallpaperEnv) (buf : Buffer) (len fileSize : Nat) (header : BmpHeader)
      (wallpaper : Wallpaper), loadBmpHeader buf len = some header → fileSize < 4294967296 →
      (loadBmpIntoBg env fileSize header buf).1 = some (some wallpaper) →
      ReadsBelow fileSize (loadBmpIntoBg env fileSize header) buf := by
  intro claim
  have accepted : loadBmpHeader wideBmp 58 = some ⟨58, 54, 134217728, 1, .bits32, 0⟩ := by decide
  have checked : WallpaperChecked wideBmp 58 ⟨58, 54, 134217728, 1, .bits32, 0⟩ := by
    refine ⟨?_, ?_, ?_, ?_, ?_⟩ <;> decide
  have target : wallpaperTarget roomyEnv 134217728 1 = some (some (1048576, 1)) := by decide
  rcases checked.returns target with ⟨pixels, ran⟩
  have below := claim roomyEnv wideBmp 58 58 _ _ accepted (by decide) ran
  have header := accepted_of_loadBmpHeader accepted
  have within := wallpaperTarget_within header.target_width header.target_height target
  have inside := ((of_loadBmpIntoBg ran).2.2.mp below).1
  rw [pixelsInside_iff header (by decide) checked within (by decide)] at inside
  exact absurd inside (by decide)

end ParanOS

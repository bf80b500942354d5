import ParanOS.Screen.Framebuffer

/-! # Drawing

The functions that draw into the back buffer: pixels, rectangles, gradients, rectangles with
round corners, and text. What is on the screen after drawing depends on what was on the screen
before, but not on the bytes between the rows.
-/

namespace ParanOS

open Foundation

/-! ## Colours -/

/-- `color >> shift & 0xFF`. -/
def channel (color : UInt32) (shift : UInt32) : UInt8 := (color >>> shift).toUInt8

def uiClamp8 (v : Int) : UInt8 := if v < 0 then 0 else if v > 255 then 255 else UInt8.ofNat v.toNat

def packColor (a r g b : UInt8) : UInt32 :=
  a.toUInt32 <<< 24 ||| r.toUInt32 <<< 16 ||| g.toUInt32 <<< 8 ||| b.toUInt32

def uiShadeColor (argb : UInt32) (delta : Int) : UInt32 :=
  let shade := fun shift => uiClamp8 ((channel argb shift).toNat + delta)
  packColor (channel argb 24) (shade 16) (shade 8) (shade 0)

def uiLerpColor (c0 c1 : UInt32) (i n : Int) : UInt32 :=
  if n ≤ 0 then c0
  else
    let lerp := fun shift =>
      let from0 : Int := (channel c0 shift).toNat
      let to1 : Int := (channel c1 shift).toNat
      uiClamp8 (from0 + Int.tdiv ((to1 - from0) * i) n)
    packColor (lerp 24) (lerp 16) (lerp 8) (lerp 0)

def blendOver (bg fg : UInt32) (alpha : UInt8) : UInt32 :=
  let inv := 255 - alpha.toUInt32
  let blend := fun shift =>
    ((channel fg shift).toUInt32 * alpha.toUInt32 + (channel bg shift).toUInt32 * inv + 127) / 255
  (0xFF : UInt32) <<< 24 ||| blend 16 <<< 16 ||| blend 8 <<< 8 ||| blend 0

/-! ## Pixels -/

namespace Framebuffer

/-- Three bytes of a pixel, and the fourth if the pixel has four. -/
def putPixelBytes (four : Bool) (p : Nat) (b g r a : UInt8) (buf : Buffer) : Buffer :=
  let buf := ((buf.putU8 p b).putU8 (p + 1) g).putU8 (p + 2) r
  if four then buf.putU8 (p + 3) a else buf

def putPixelRaw (fb : Framebuffer) (x y : Int) (color : UInt32) (buf : Buffer) : Buffer :=
  if ¬ fb.OnScreen x y then buf
  else if fb.bpp = 24 ∨ fb.bpp = 32 then
    putPixelBytes (fb.bpp = 32) (fb.offset x.toNat y.toNat) (channel color 0) (channel color 8)
      (channel color 16) 0xFF buf
  else buf

/-- `fb_putpixel` into the back buffer. -/
def fbPutpixel (fb : Framebuffer) (x y : Int) (color : UInt32) (buf : Buffer) : Buffer :=
  fb.putPixelRaw x y color buf

def readPixelColor (p : Nat) (buf : Buffer) : UInt32 :=
  packColor 0xFF (buf (p + 2)) (buf (p + 1)) (buf p)

def blendPutpixel (fb : Framebuffer) (x y : Int) (fg bg : UInt32) (alpha : UInt8)
    (bgTransparent : Bool) (buf : Buffer) : Buffer :=
  if ¬ fb.OnScreen x y then buf
  else if fb.bpp / 8 ≠ 3 ∧ fb.bpp / 8 ≠ 4 then buf
  else
    let p := fb.offset x.toNat y.toNat
    let dst := if bgTransparent then readPixelColor p buf else bg
    let out := blendOver dst fg alpha
    putPixelBytes (fb.bpp / 8 = 4) p (channel out 0) (channel out 8) (channel out 16)
      (channel out 24) buf

/-! ## Rectangles -/

/-- The values of the counter in `for (i = start; i < stop; ++i)`. -/
def counting (start stop : Int) : List Int :=
  (List.range (stop - start).toNat).map fun index : Nat => start + index

def drawRect (fb : Framebuffer) (x y w h : Int) (argb : UInt32) (buf : Buffer) : Buffer :=
  if w ≤ 0 ∨ h ≤ 0 then buf
  else
    let x2 := if x + w > s32 fb.width then s32 fb.width else x + w
    let y2 := if y + h > s32 fb.height then s32 fb.height else y + h
    let x := if x < 0 then 0 else x
    let y := if y < 0 then 0 else y
    (counting y y2).foldl (fun buf yy =>
      (counting x x2).foldl (fun buf xx => fb.putPixelRaw xx yy argb buf) buf) buf

def uiDrawHgradRect (fb : Framebuffer) (x y w h : Int) (top bottom : UInt32) (buf : Buffer) :
    Buffer :=
  if h ≤ 0 ∨ w ≤ 0 then buf
  else if h = 1 then fb.drawRect x y w 1 top buf
  else
    (counting 0 h).foldl (fun buf i =>
      fb.drawRect x (y + i) w 1 (uiLerpColor top bottom i (h - 1)) buf) buf

/-- `ui_fill_round_rect`: the core, and the corners by a circle. -/
def uiFillRoundRect (fb : Framebuffer) (x y w h radius : Int) (color : UInt32) (buf : Buffer) :
    Buffer :=
  if w ≤ 0 ∨ h ≤ 0 then buf
  else
    let r := if radius < 0 then 0 else radius
    let r := if r * 2 > w then Int.tdiv w 2 else r
    let r := if r * 2 > h then Int.tdiv h 2 else r
    let buf := fb.drawRect (x + r) y (w - 2 * r) h color buf
    if r = 0 then buf
    else
      let buf := fb.drawRect x (y + r) r (h - 2 * r) color buf
      let buf := fb.drawRect (x + w - r) (y + r) r (h - 2 * r) color buf
      (counting 0 r).foldl (fun buf dy =>
        (counting 0 r).foldl (fun buf dx =>
          if dx * dx + dy * dy > r * r then buf
          else
            let buf := fb.putPixelRaw (x + r - 1 - dx) (y + r - 1 - dy) color buf
            let buf := fb.putPixelRaw (x + w - r + dx) (y + r - 1 - dy) color buf
            let buf := fb.putPixelRaw (x + r - 1 - dx) (y + h - r + dy) color buf
            fb.putPixelRaw (x + w - r + dx) (y + h - r + dy) color buf) buf) buf

/-! ## Text -/

end Framebuffer

/-- The font that `psf_init` has found: coverage in bytes, or bits of rows of eight pixels. -/
structure Font where
  gray8 : Bool
  width : Nat
  height : Nat
  pitch : Nat
  count : Nat
  glyphs : Buffer

def Font.glyph (font : Font) (char : UInt8) : Buffer :=
  let uc := if char.toNat ≥ font.count then 63 else char.toNat
  fun index => font.glyphs (font.pitch * font.height * uc + index)

namespace Framebuffer

def drawGrayDot (fb : Framebuffer) (x y : Int) (a : UInt8) (fg bg : UInt32) (buf : Buffer) :
    Buffer :=
  let bgTransparent := bg >>> 24 = 0
  if a = 0 then if ¬ bgTransparent then fb.fbPutpixel x y bg buf else buf
  else if bgTransparent ∧ a = 255 then fb.fbPutpixel x y fg buf
  else fb.blendPutpixel x y fg bg a bgTransparent buf

def drawBit (fb : Framebuffer) (x y : Int) (set : Bool) (fg bg : UInt32) (buf : Buffer) : Buffer :=
  if set then fb.fbPutpixel x y fg buf
  else if bg >>> 24 ≠ 0 then fb.fbPutpixel x y bg buf
  else buf

def drawGlyph (fb : Framebuffer) (font : Font) (px py : Int) (char : UInt8) (fg bg : UInt32)
    (buf : Buffer) : Buffer :=
  let g := font.glyph char
  (List.range font.height).foldl (fun buf (r : Nat) =>
    if font.gray8 then
      (List.range font.width).foldl (fun buf (c : Nat) =>
        fb.drawGrayDot (px + c) (py + r) (g (r * font.pitch + c)) fg bg buf) buf
    else
      (List.range (min font.width 8)).foldl (fun buf (c : Nat) =>
        fb.drawBit (px + c) (py + r) ((g r).toNat.testBit (7 - c)) fg bg buf) buf) buf

/-- `draw_text`, which ends at the first NUL. -/
def drawText (fb : Framebuffer) (font : Font) : (px py : Int) → (s : List UInt8) →
    (fg bg : UInt32) → Buffer → Buffer
  | _, _, [], _, _, buf => buf
  | px, py, char :: rest, fg, bg, buf =>
      if char = 0 then buf
      else fb.drawText font (px + font.width) py rest fg bg
        (fb.drawGlyph font px py char fg bg buf)

/-! ## What is on the screen -/

/-- Two buffers have the same pixels on the screen. -/
def SameScreen (fb : Framebuffer) (left right : Buffer) : Prop :=
  ∀ x y byte : Nat, fb.OnScreen x y → byte < fb.bpp / 8 →
    left (fb.offset x y + byte) = right (fb.offset x y + byte)

/-- What is on the screen afterwards depends only on what is on the screen before. -/
def Respects (fb : Framebuffer) (draw : Buffer → Buffer) : Prop :=
  ∀ left right, fb.SameScreen left right → fb.SameScreen (draw left) (draw right)

/-- What is on the screen afterwards does not depend on anything. -/
def Covers (fb : Framebuffer) (draw : Buffer → Buffer) : Prop :=
  ∀ left right, fb.SameScreen (draw left) (draw right)

section

variable {fb : Framebuffer} {draw later : Buffer → Buffer}

theorem SameScreen.trans {left middle right : Buffer} (first : fb.SameScreen left middle)
    (second : fb.SameScreen middle right) : fb.SameScreen left right :=
  fun x y byte on small => (first x y byte on small).trans (second x y byte on small)

theorem Respects.id : fb.Respects fun buf => buf := fun _ _ same => same

theorem Respects.comp (first : fb.Respects draw) (second : fb.Respects later) :
    fb.Respects fun buf => later (draw buf) :=
  fun left right same => second _ _ (first left right same)

theorem Covers.comp (first : fb.Covers draw) (second : fb.Respects later) :
    fb.Covers fun buf => later (draw buf) :=
  fun left right => second _ _ (first left right)

theorem Respects.ite {condition : Prop} [Decidable condition] (first : fb.Respects draw)
    (second : fb.Respects later) :
    fb.Respects fun buf => if condition then draw buf else later buf := by
  intro left right same
  dsimp only
  split
  · exact first left right same
  · exact second left right same

theorem Respects.foldl {α : Type} (values : List α) {each : Buffer → α → Buffer}
    (respects : ∀ value, fb.Respects fun buf => each buf value) :
    fb.Respects fun buf => values.foldl each buf := by
  induction values with
  | nil => exact Respects.id
  | cons value rest induction => exact (respects value).comp induction

end

/-! ## Single pixels -/

/-- The bytes of a pixel. -/
def pixelByte (b g r a : UInt8) : Nat → UInt8
  | 0 => b
  | 1 => g
  | 2 => r
  | _ => a

/-- A byte of a pixel that `put_pixel_raw` has written. -/
def rawByte (color : UInt32) : Nat → UInt8 :=
  pixelByte (channel color 0) (channel color 8) (channel color 16) 0xFF

theorem putU8_apply (buf : Buffer) (offset : Nat) (value : UInt8) (place : Nat) :
    buf.putU8 offset value place = if place = offset then value else buf place := by
  rw [Buffer.putU8, Buffer.copy]
  by_cases here : place = offset
  · rw [if_pos here, if_pos (by omega)]
  · rw [if_neg here, if_neg (by omega)]

theorem putPixelBytes_inside {four : Bool} {byte : Nat} (p : Nat) (b g r a : UInt8) (buf : Buffer)
    (small : byte < 3 ∨ byte = 3 ∧ four = true) :
    putPixelBytes four p b g r a buf (p + byte) = pixelByte b g r a byte := by
  rcases small with small | ⟨rfl, rfl⟩
  · have bytes : byte = 0 ∨ byte = 1 ∨ byte = 2 := by omega
    rcases bytes with rfl | rfl | rfl
    · cases four <;> simp [putPixelBytes, putU8_apply, pixelByte]
    · cases four <;> simp [putPixelBytes, putU8_apply, pixelByte]
    · cases four <;> simp [putPixelBytes, putU8_apply, pixelByte]
  · simp [putPixelBytes, putU8_apply, pixelByte]

theorem putPixelBytes_outside {four : Bool} {p place : Nat} (b g r a : UInt8) (buf : Buffer)
    (outside : ∀ byte, byte < 3 ∨ byte = 3 ∧ four = true → place ≠ p + byte) :
    putPixelBytes four p b g r a buf place = buf place := by
  have first : place ≠ p := outside 0 (.inl (by omega))
  have second := outside 1 (.inl (by omega))
  have third := outside 2 (.inl (by omega))
  cases four with
  | false => simp [putPixelBytes, putU8_apply, first, second, third]
  | true =>
      have fourth := outside 3 (.inr ⟨rfl, rfl⟩)
      simp [putPixelBytes, putU8_apply, first, second, third, fourth]

section

variable {fb : Framebuffer}

theorem OnScreen.lt_width {x y : Nat} (on : fb.OnScreen x y) : x < fb.width := by
  have bound := s32_le fb.width
  have right := on.2.2.1
  omega

theorem Layout.byte_iff (layout : fb.Layout) {byte : Nat} :
    byte < fb.bpp / 8 ↔ byte < 3 ∨ byte = 3 ∧ decide (fb.bpp / 8 = 4) = true := by
  have depth := layout.depth
  rw [decide_eq_true_iff]
  omega

theorem Layout.depth_eq (layout : fb.Layout) :
    decide (fb.bpp = 32) = decide (fb.bpp / 8 = 4) := by
  have depth := layout.depth
  rw [decide_eq_decide]
  omega

/-- Bytes that are written at one pixel, seen at a pixel. -/
theorem putPixelBytes_apply (layout : fb.Layout) {x y px py byte : Nat} (on : fb.OnScreen x y)
    (on' : fb.OnScreen px py) (small : byte < fb.bpp / 8) (b g r a : UInt8) (buf : Buffer) :
    putPixelBytes (fb.bpp / 8 = 4) (fb.offset x y) b g r a buf (fb.offset px py + byte) =
      if px = x ∧ py = y then pixelByte b g r a byte else buf (fb.offset px py + byte) := by
  by_cases here : px = x ∧ py = y
  · rw [if_pos here, here.1, here.2]
    exact putPixelBytes_inside _ _ _ _ _ _ (layout.byte_iff.mp small)
  · rw [if_neg here]
    apply putPixelBytes_outside
    intro byte' small' same
    rw [← layout.byte_iff] at small'
    have place := (layout.byte_inj on'.lt_width on.lt_width small small').mp same
    exact here ⟨place.1, place.2.1⟩

theorem putPixelRaw_apply (layout : fb.Layout) (x y : Int) (color : UInt32) (buf : Buffer)
    {px py byte : Nat} (on : fb.OnScreen px py) (small : byte < fb.bpp / 8) :
    fb.putPixelRaw x y color buf (fb.offset px py + byte) =
      if (px : Int) = x ∧ (py : Int) = y then rawByte color byte
      else buf (fb.offset px py + byte) := by
  rw [putPixelRaw]
  by_cases inside : fb.OnScreen x y
  · have left := inside.1
    have top := inside.2.1
    have inside' : fb.OnScreen x.toNat y.toNat := by
      rwa [Int.toNat_of_nonneg left, Int.toNat_of_nonneg top]
    rw [if_neg (not_not.mpr inside), if_pos layout.depth, layout.depth_eq,
      putPixelBytes_apply layout inside' on small]
    by_cases here : (px : Int) = x ∧ (py : Int) = y
    · rw [if_pos here, if_pos (by omega)]
      rfl
    · rw [if_neg here, if_neg (by omega)]
  · rw [if_pos inside, if_neg]
    rintro ⟨rfl, rfl⟩
    exact inside on

theorem putPixelRaw_respects (layout : fb.Layout) (x y : Int) (color : UInt32) :
    fb.Respects (fb.putPixelRaw x y color) := by
  intro left right same px py byte on small
  rw [putPixelRaw_apply layout x y color left on small,
    putPixelRaw_apply layout x y color right on small, same px py byte on small]

/-- What is read from a pixel on the screen is on the screen. -/
theorem readPixelColor_same (layout : fb.Layout) {left right : Buffer}
    (same : fb.SameScreen left right) {x y : Nat} (on : fb.OnScreen x y) :
    readPixelColor (fb.offset x y) left = readPixelColor (fb.offset x y) right := by
  have byte := fun byte small => same x y byte on (layout.byte_iff.mpr (.inl small))
  have blue := byte 0 (by omega)
  have green := byte 1 (by omega)
  have red := byte 2 (by omega)
  rw [Nat.add_zero] at blue
  rw [readPixelColor, readPixelColor, blue, green, red]

theorem blendPutpixel_respects (layout : fb.Layout) (x y : Int) (fg bg : UInt32) (alpha : UInt8)
    (bgTransparent : Bool) : fb.Respects (fb.blendPutpixel x y fg bg alpha bgTransparent) := by
  intro left right same px py byte on small
  rw [blendPutpixel, blendPutpixel]
  by_cases inside : fb.OnScreen x y
  · have inside' : fb.OnScreen x.toNat y.toNat := by
      rwa [Int.toNat_of_nonneg inside.1, Int.toNat_of_nonneg inside.2.1]
    have depth := layout.depth
    have known : ¬ (fb.bpp / 8 ≠ 3 ∧ fb.bpp / 8 ≠ 4) := by omega
    rw [if_neg (not_not.mpr inside), if_neg (not_not.mpr inside), if_neg known, if_neg known]
    rw [readPixelColor_same layout same inside', putPixelBytes_apply layout inside' on small,
      putPixelBytes_apply layout inside' on small, same px py byte on small]
  · rw [if_pos inside, if_pos inside]
    exact same px py byte on small

/-! ## Rectangles on the screen -/

theorem mem_counting {start stop value : Int} :
    value ∈ counting start stop ↔ start ≤ value ∧ value < stop := by
  rw [counting, List.mem_map]
  constructor
  · rintro ⟨index, member, rfl⟩
    rw [List.mem_range] at member
    omega
  · intro range
    exact ⟨(value - start).toNat, List.mem_range.mpr (by omega), by omega⟩

/-- A byte after many steps, each of which writes one value there or leaves it alone. -/
theorem foldl_apply {α : Type} {each : Buffer → α → Buffer} {place : Nat} {value : UInt8}
    {hits : α → Prop} [DecidablePred hits] (values : List α)
    (one : ∀ buf, ∀ step ∈ values, each buf step place = if hits step then value else buf place)
    (buf : Buffer) :
    values.foldl each buf place = if ∃ step ∈ values, hits step then value else buf place := by
  induction values generalizing buf with
  | nil => simp
  | cons step rest induction =>
      have now := one buf step List.mem_cons_self
      have later := induction fun buf other member =>
        one buf other (List.mem_cons_of_mem step member)
      rw [List.foldl_cons, later, now]
      by_cases some : ∃ other ∈ rest, hits other
      · rw [if_pos some, if_pos (List.exists_mem_cons_of_exists some)]
      · simp [some]

theorem drawRect_apply (layout : fb.Layout) (x y w h : Int) (argb : UInt32) (buf : Buffer)
    {px py byte : Nat} (on : fb.OnScreen px py) (small : byte < fb.bpp / 8) :
    fb.drawRect x y w h argb buf (fb.offset px py + byte) =
      if x ≤ px ∧ px < x + w ∧ y ≤ py ∧ py < y + h then rawByte argb byte
      else buf (fb.offset px py + byte) := by
  rcases on with ⟨onLeft, onTop, onRight, onBottom⟩
  rw [drawRect]
  by_cases empty : w ≤ 0 ∨ h ≤ 0
  · rw [if_pos empty, if_neg (by omega)]
  · rw [if_neg empty]
    have row : ∀ (yy start stop : Int) (buf : Buffer),
        (counting start stop).foldl (fun buf xx => fb.putPixelRaw xx yy argb buf) buf
            (fb.offset px py + byte) =
          if ∃ xx ∈ counting start stop, (px : Int) = xx ∧ (py : Int) = yy then rawByte argb byte
          else buf (fb.offset px py + byte) := fun yy start stop =>
      foldl_apply (counting start stop) fun buf xx _ =>
        putPixelRaw_apply layout xx yy argb buf ⟨onLeft, onTop, onRight, onBottom⟩ small
    rw [foldl_apply _ fun buf yy _ => row yy _ _ buf]
    apply if_congr _ rfl rfl
    simp only [mem_counting]
    constructor
    · rintro ⟨yy, inRows, xx, inRow, rfl, rfl⟩
      split at inRows <;> split at inRow <;> omega
    · intro inside
      refine ⟨py, ?_, px, ?_, rfl, rfl⟩
      · split <;> split <;> omega
      · split <;> split <;> omega

theorem drawRect_respects (layout : fb.Layout) (x y w h : Int) (argb : UInt32) :
    fb.Respects (fb.drawRect x y w h argb) := by
  intro left right same px py byte on small
  rw [drawRect_apply layout x y w h argb left on small,
    drawRect_apply layout x y w h argb right on small, same px py byte on small]

/-! ## Larger things -/

theorem uiDrawHgradRect_apply (layout : fb.Layout) (x y w h : Int) (top bottom : UInt32)
    (buf : Buffer) {px py byte : Nat} (on : fb.OnScreen px py) (small : byte < fb.bpp / 8) :
    fb.uiDrawHgradRect x y w h top bottom buf (fb.offset px py + byte) =
      if x ≤ px ∧ px < x + w ∧ y ≤ py ∧ py < y + h then
        rawByte (uiLerpColor top bottom (py - y) (h - 1)) byte
      else buf (fb.offset px py + byte) := by
  rw [uiDrawHgradRect]
  by_cases empty : h ≤ 0 ∨ w ≤ 0
  · rw [if_pos empty, if_neg (by omega)]
  · rw [if_neg empty]
    by_cases single : h = 1
    · have plain : uiLerpColor top bottom (py - y) (h - 1) = top := by
        rw [uiLerpColor, if_pos (by omega)]
      rw [if_pos single, drawRect_apply layout _ _ _ _ _ buf on small, plain, single]
    · -- the row of the pixel gives its colour
      have row : ∀ (buf : Buffer), ∀ i ∈ counting 0 h,
          fb.drawRect x (y + i) w 1 (uiLerpColor top bottom i (h - 1)) buf
              (fb.offset px py + byte) =
            if (x ≤ px ∧ px < x + w) ∧ i = py - y then
              rawByte (uiLerpColor top bottom (py - y) (h - 1)) byte
            else buf (fb.offset px py + byte) := by
        intro buf i _
        rw [drawRect_apply layout _ _ _ _ _ buf on small]
        by_cases here : i = py - y
        · rw [here]
          apply if_congr _ rfl rfl
          omega
        · rw [if_neg (by omega), if_neg (by omega)]
      rw [if_neg single, foldl_apply _ row]
      apply if_congr _ rfl rfl
      simp only [mem_counting]
      constructor
      · rintro ⟨i, range, inRow, rfl⟩
        omega
      · intro inside
        exact ⟨py - y, by omega, ⟨inside.1, inside.2.1⟩, rfl⟩

theorem uiDrawHgradRect_respects (layout : fb.Layout) (x y w h : Int) (top bottom : UInt32) :
    fb.Respects (fb.uiDrawHgradRect x y w h top bottom) := by
  intro left right same px py byte on small
  rw [uiDrawHgradRect_apply layout _ _ _ _ _ _ left on small,
    uiDrawHgradRect_apply layout _ _ _ _ _ _ right on small, same px py byte on small]

/-- A gradient over the whole screen leaves nothing of what was there. -/
theorem uiDrawHgradRect_covers (layout : fb.Layout) (top bottom : UInt32) :
    fb.Covers (fb.uiDrawHgradRect 0 0 (s32 fb.width) (s32 fb.height) top bottom) := by
  intro left right px py byte on small
  rcases on with ⟨onLeft, onTop, onRight, onBottom⟩
  have on : fb.OnScreen px py := ⟨onLeft, onTop, onRight, onBottom⟩
  have inside : (0 : Int) ≤ px ∧ (px : Int) < 0 + s32 fb.width ∧ (0 : Int) ≤ py ∧
      (py : Int) < 0 + s32 fb.height := by omega
  rw [uiDrawHgradRect_apply layout _ _ _ _ _ _ left on small,
    uiDrawHgradRect_apply layout _ _ _ _ _ _ right on small, if_pos inside, if_pos inside]

theorem uiFillRoundRect_respects (layout : fb.Layout) (x y w h radius : Int) (color : UInt32) :
    fb.Respects (fb.uiFillRoundRect x y w h radius color) := by
  have pixel := fun x y => putPixelRaw_respects layout x y color
  have rect := fun x y w h => drawRect_respects layout x y w h color
  unfold uiFillRoundRect
  apply Respects.ite Respects.id
  dsimp only
  generalize (if _ * 2 > h then _ else _ : Int) = r
  apply Respects.ite (rect _ _ _ _)
  have core := ((rect (x + r) y (w - 2 * r) h).comp (rect x (y + r) r (h - 2 * r))).comp
    (rect (x + w - r) (y + r) r (h - 2 * r))
  apply core.comp (Respects.foldl (counting 0 r) _)
  intro dy
  apply Respects.foldl
  intro dx
  apply Respects.ite Respects.id
  exact (((pixel _ _).comp (pixel _ _)).comp (pixel _ _)).comp (pixel _ _)

theorem drawGrayDot_respects (layout : fb.Layout) (x y : Int) (a : UInt8) (fg bg : UInt32) :
    fb.Respects (fb.drawGrayDot x y a fg bg) := by
  have pixel := fun color => putPixelRaw_respects layout x y color
  unfold drawGrayDot fbPutpixel
  dsimp only
  apply Respects.ite
  · exact (pixel bg).ite Respects.id
  · exact (pixel fg).ite (blendPutpixel_respects layout x y fg bg a _)

theorem drawBit_respects (layout : fb.Layout) (x y : Int) (set : Bool) (fg bg : UInt32) :
    fb.Respects (fb.drawBit x y set fg bg) := by
  have pixel := fun color => putPixelRaw_respects layout x y color
  unfold drawBit fbPutpixel
  exact (pixel fg).ite ((pixel bg).ite Respects.id)

theorem drawGlyph_respects (layout : fb.Layout) (font : Font) (px py : Int) (char : UInt8)
    (fg bg : UInt32) : fb.Respects (fb.drawGlyph font px py char fg bg) := by
  unfold drawGlyph
  apply Respects.foldl
  intro r
  apply Respects.ite
  · apply Respects.foldl
    intro c
    exact drawGrayDot_respects layout _ _ _ _ _
  · apply Respects.foldl
    intro c
    exact drawBit_respects layout _ _ _ _ _

theorem drawText_respects (layout : fb.Layout) (font : Font) (px py : Int) (s : List UInt8)
    (fg bg : UInt32) : fb.Respects (fb.drawText font px py s fg bg) := by
  induction s generalizing px with
  | nil => exact Respects.id
  | cons char rest induction =>
      intro left right same
      rw [drawText, drawText]
      split
      · exact same
      · exact induction _ _ _ (drawGlyph_respects layout font px py char fg bg left right same)

end

end Framebuffer

end ParanOS

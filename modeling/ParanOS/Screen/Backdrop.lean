import ParanOS.Kernel.State
import ParanOS.Media.Wallpaper
import ParanOS.Screen.Draw

/-! # The desktop background

The backdrop of the desktop is drawn when something has changed, and is then kept in a cache.
The cache is allocated when it is first needed; if there is no memory for it, the backdrop is
drawn all the same and counts as unchanged from then on.
-/

namespace ParanOS

open Foundation

/-! ## The globals -/

/-- `rect_t`. -/
structure IconRect where
  x : Int
  y : Int
  w : Int
  h : Int

/-- A picture that has been loaded, with the memory that its pixels were stored in. -/
structure WallpaperImage where
  w : Nat
  h : Nat
  pixels : Nat → Nat

/-- The globals of `desktop.c` that drawing uses. The wallpaper is there if it has been loaded. -/
structure DesktopScreen where
  items : Nat → DesktopItem
  itemCount : Nat
  selection : Int
  rects : Nat → IconRect
  layoutValid : Bool
  bgCache : Option Buffer
  bgCacheBytes : Nat
  bgDirty : Bool
  wallpaper : Option WallpaperImage

namespace DesktopScreen

/-- The globals before `desktop_init`. -/
def zero : DesktopScreen :=
  ⟨fun _ => ⟨[], 0, 0⟩, 0, -1, fun _ => ⟨0, 0, 0, 0⟩, false, none, 0, true, none⟩

def init (desktop : DesktopScreen) : DesktopScreen :=
  { desktop with itemCount := 0, selection := -1, bgDirty := true, layoutValid := false }

def setItems (items : Option (Nat → DesktopItem)) (count : Int) (desktop : DesktopScreen) :
    DesktopScreen :=
  match items with
  | none => desktop.init
  | some items =>
      if count ≤ 0 then desktop.init
      else
        let count := if count > desktopMaxItems then desktopMaxItems else count.toNat
        { desktop with
          items := fun i => if i < count then items i else desktop.items i
          itemCount := count
          selection := -1
          bgDirty := true
          layoutValid := false }

def setSelection (idx : Int) (desktop : DesktopScreen) : DesktopScreen :=
  { desktop with
    selection := if idx < 0 ∨ idx ≥ desktop.itemCount then -1 else idx
    bgDirty := true }

def markDirty (desktop : DesktopScreen) : DesktopScreen := { desktop with bgDirty := true }

end DesktopScreen

/-- What `desktop_load_wallpaper` gets: the first bytes of the file, the file if it could be read
into memory, and what the memory for the pixels held before. -/
structure WallpaperLoad where
  env : WallpaperEnv
  hdr : Buffer
  read : Nat
  file : Option Buffer
  memory : Nat → Nat

/-- The pixels are stored one after another. -/
def Wallpaper.image (wallpaper : Wallpaper) (memory : Nat → Nat) : WallpaperImage :=
  ⟨wallpaper.w, wallpaper.h, wallpaper.pixels.flatten.foldl
    (fun memory store => Function.update memory store.1 store.2) memory⟩

/-- The picture, or `none` where the source returns -1. -/
def WallpaperLoad.image (load : WallpaperLoad) : Option WallpaperImage := do
  let header ← loadBmpHeader load.hdr load.read
  if header.size = 0 ∨ header.size > 16777216 then none
  else
    let file ← load.file
    let wallpaper ← ((loadBmpIntoBg load.env header.size header file).1).join
    some (wallpaper.image load.memory)

namespace DesktopScreen

def loadWallpaper (load : WallpaperLoad) (desktop : DesktopScreen) : DesktopScreen :=
  match load.image with
  | none => desktop
  | some picture => { desktop with wallpaper := some picture, bgDirty := true }

/-! ## Icons -/

/-- The loop of `desktop_layout_icons`, from an icon on. -/
def layoutLoop (fb : Framebuffer) : (count i : Nat) → (x y : Int) → (Nat → IconRect) →
    Nat → IconRect
  | 0, _, _, _, rects => rects
  | count + 1, i, x, y, rects =>
      let maxW := if fb.width > 28 then s32 fb.width - 28 else 0
      let rects := Function.update rects i ⟨x, y, 44, 44 + 16⟩
      if x + 104 + 104 > maxW then layoutLoop fb count (i + 1) 28 (y + 86) rects
      else layoutLoop fb count (i + 1) (x + 104) y rects

def layoutIcons (fb : Framebuffer) (desktop : DesktopScreen) : DesktopScreen :=
  { desktop with
    rects := layoutLoop fb desktop.itemCount 0 28 56 desktop.rects
    layoutValid := true }

/-- The part of `desktop_hit_test` and of drawing that makes sure of the layout. -/
def ensureLayout (fb : Framebuffer) (desktop : DesktopScreen) : DesktopScreen :=
  if !desktop.layoutValid then desktop.layoutIcons fb else desktop

def themeAccent : UInt32 := 0xFF4C8DFF
def themeText : UInt32 := 0xFF2F3645
def themeSurface : UInt32 := 0xFFF6F8FC
def themeCard : UInt32 := 0xFFF0F3F9

/-- One turn of the loop of `desktop_draw_icons`. -/
def drawIcon (fb : Framebuffer) (font : Font) (item : DesktopItem) (rect : IconRect)
    (selected : Bool) (buf : Buffer) : Buffer :=
  let ic : UInt32 := if item.isDir then 0xFF6FA9FF else 0xFF7BC67E
  let x := rect.x
  let y := rect.y
  let iconW := rect.w
  let iconH := rect.h - 16
  let tileX := x - 8
  let tileY := y - 8
  let tileW := iconW + 16
  let tileH := iconH + 22
  let buf :=
    if selected then
      fb.uiFillRoundRect (tileX + 1) (tileY + 1) (tileW - 2) (tileH - 2) 9 themeSurface
        (fb.uiFillRoundRect tileX tileY tileW tileH 10 (uiShadeColor themeAccent 18) buf)
    else fb.uiFillRoundRect tileX tileY tileW tileH 10 themeCard buf
  let buf := fb.uiFillRoundRect x y iconW iconH 10 ic buf
  let buf := fb.drawRect x y iconW 2 (uiShadeColor ic 14) buf
  fb.drawText font x (y + iconH + 6) item.name themeText 0 buf

def drawIcons (fb : Framebuffer) (font : Font) (desktop : DesktopScreen) (buf : Buffer) : Buffer :=
  (List.range desktop.itemCount).foldl (fun buf i =>
    drawIcon fb font (desktop.items i) (desktop.rects i) (i = desktop.selection) buf) buf

/-! ## The backdrop -/

/-- The size at which the wallpaper is shown. -/
def fitSize (fb : Framebuffer) (picture : WallpaperImage) : Nat × Nat :=
  let fitH := u32 ((picture.h * fb.width + picture.w / 2) / picture.w)
  if fitH > fb.height then
    (u32 ((picture.w * fb.height + picture.h / 2) / picture.h), fb.height)
  else (fb.width, fitH)

def drawWallpaperLetterbox (fb : Framebuffer) (picture : WallpaperImage) (buf : Buffer) : Buffer :=
  if picture.w = 0 ∨ picture.h = 0 then buf
  else
    let buf := fb.uiDrawHgradRect 0 0 (s32 fb.width) (s32 fb.height) 0xFFEFF3F9 0xFFE3EAF4 buf
    let (fitW, fitH) := fitSize fb picture
    let dstX := Int.tdiv (s32 fb.width - s32 fitW) 2
    let dstY := Int.tdiv (s32 fb.height - s32 fitH) 2
    let dstX := if dstX < 0 then 0 else dstX
    let dstY := if dstY < 0 then 0 else dstY
    (List.range fitH).foldl (fun buf y =>
      (List.range fitW).foldl (fun buf x =>
        let row := u32 (y * picture.h / fitH * picture.w)
        let c := UInt32.ofNat (picture.pixels (row + x * picture.w / fitW))
        fb.putPixelRaw (dstX + s32 x) (dstY + s32 y) c buf) buf) buf

/-- The gradients that are drawn when there is no wallpaper. -/
def drawGlow (fb : Framebuffer) (buf : Buffer) : Buffer :=
  let buf := fb.uiDrawHgradRect 0 0 (s32 fb.width) (s32 fb.height) 0xFFF7F9FC 0xFFE7ECF4 buf
  let glowW := s32 (fb.width / 2)
  let glowH := s32 (fb.height / 2)
  let buf := fb.uiDrawHgradRect (s32 fb.width - glowW) 0 glowW glowH 0xFFDFEAF9 0xFFC9D8F2 buf
  fb.uiDrawHgradRect 0 (s32 fb.height - glowH) glowW glowH 0xFFC9D8F2 0xFFDFEAF9 buf

/-- The bars at the top and at the bottom. -/
def drawBars (fb : Framebuffer) (font : Font) (buf : Buffer) : Buffer :=
  let buf := fb.uiDrawHgradRect 0 0 (s32 fb.width) 32 0xFFFFFFFF 0xFFE8EDF5 buf
  let buf := fb.drawRect 0 31 (s32 fb.width) 1 0xFFD5DEEA buf
  let buf := fb.drawText font 12 8 (ascii "ParanOS") themeAccent 0 buf
  let taskbarY := s32 fb.height - 34
  let buf := fb.uiDrawHgradRect 0 taskbarY (s32 fb.width) 34 0xFFFDFEFE 0xFFE7EDF6 buf
  let buf := fb.drawRect 0 taskbarY (s32 fb.width) 1 0xFFD5DEEA buf
  fb.drawText font 12 (taskbarY + 9) (ascii "Launch") themeAccent 0 buf

def drawBase (fb : Framebuffer) (wallpaper : Option WallpaperImage) (buf : Buffer) : Buffer :=
  match wallpaper with
  | some picture => drawWallpaperLetterbox fb picture buf
  | none => drawGlow fb buf

/-- `desktop_draw_backdrop`. -/
def drawBackdrop (fb : Framebuffer) (font : Font) (desktop : DesktopScreen) (buf : Buffer) :
    DesktopScreen × Buffer :=
  let buf := drawBars fb font (drawBase fb desktop.wallpaper buf)
  let desktop := desktop.ensureLayout fb
  (desktop, drawIcons fb font desktop buf)

/-! ## The cache -/

/-- `ensure_desktop_bg_cache`, with what `kmalloc` returns if it is asked. -/
def ensureBgCache (fb : Framebuffer) (granted : Option Buffer) (desktop : DesktopScreen) :
    Bool × DesktopScreen :=
  let frameBytes := fb.pitch * fb.height
  if frameBytes = 0 then (false, desktop)
  else if desktop.bgCache.isSome ∧ desktop.bgCacheBytes = frameBytes then (true, desktop)
  else match granted with
    | some buf => (true, { desktop with bgCache := some buf, bgCacheBytes := frameBytes })
    | none => (false, { desktop with bgCache := none, bgCacheBytes := 0 })

/-- `desktop_draw_background`. The pointer to the cache is null just if there is none. -/
def drawBackground (fb : Framebuffer) (font : Font) (granted : Option Buffer)
    (desktop : DesktopScreen) (back : Buffer) : DesktopScreen × Buffer :=
  let frameBytes := fb.pitch * fb.height
  let (haveCache, desktop) := desktop.ensureBgCache fb granted
  if desktop.bgDirty ∨ haveCache = false then
    let (desktop, back) := drawBackdrop fb font desktop back
    let bgCache := if haveCache then desktop.bgCache.map fun cache => cache.copy 0 frameBytes back
      else desktop.bgCache
    ({ desktop with bgCache := bgCache, bgDirty := false }, back)
  else match desktop.bgCache with
    | some cache => (desktop, back.copy 0 frameBytes cache)
    | none => (desktop, back)

/-! ## Runs -/

/-- What can happen. Other code may draw over the back buffer in any way. -/
inductive Event
  | init
  | setItems (items : Option (Nat → DesktopItem)) (count : Int)
  | setSelection (idx : Int)
  | markDirty
  | loadWallpaper (load : WallpaperLoad)
  | hitTest
  | overdraw (back : Buffer)
  | draw (granted : Option Buffer)

def after (fb : Framebuffer) (font : Font) (state : DesktopScreen × Buffer) :
    Event → DesktopScreen × Buffer
  | .init => (state.1.init, state.2)
  | .setItems items count => (state.1.setItems items count, state.2)
  | .setSelection idx => (state.1.setSelection idx, state.2)
  | .markDirty => (state.1.markDirty, state.2)
  | .loadWallpaper load => (state.1.loadWallpaper load, state.2)
  | .hitTest => (state.1.ensureLayout fb, state.2)
  | .overdraw back => (state.1, back)
  | .draw granted => drawBackground fb font granted state.1 state.2

end DesktopScreen

end ParanOS

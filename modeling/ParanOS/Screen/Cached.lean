import ParanOS.Screen.Backdrop

/-! # The cache of the background

What is on the screen after the background has been drawn is the backdrop of the current icons,
selection and wallpaper, as long as no cache is allocated at a time when nothing counts as
changed: such a cache is shown without having been filled.
-/

namespace ParanOS

open Foundation Framebuffer

namespace DesktopScreen

/-! ## The layout -/

/-- The places of the icons do not depend on what their records held before. -/
theorem layoutLoop_congr (fb : Framebuffer) {rects rects' : Nat → IconRect} {count i : Nat}
    {x y : Int} (same : ∀ j < i, rects j = rects' j) :
    ∀ j < i + count, layoutLoop fb count i x y rects j = layoutLoop fb count i x y rects' j := by
  induction count generalizing i x y rects rects' with
  | zero => exact same
  | succ count induction =>
      intro j below
      have next : ∀ j < i + 1, Function.update rects i ⟨x, y, 44, 44 + 16⟩ j =
          Function.update rects' i ⟨x, y, 44, 44 + 16⟩ j := by
        intro j before
        by_cases here : j = i
        · rw [here, Function.update_self, Function.update_self]
        · rw [Function.update_of_ne here, Function.update_of_ne here]
          exact same j (by omega)
      rw [layoutLoop, layoutLoop]
      generalize (if fb.width > 28 then s32 fb.width - 28 else 0) = maxW
      split
      · exact induction next j (by omega)
      · exact induction next j (by omega)

/-- Where an icon is placed. -/
def placed (fb : Framebuffer) (count : Nat) : Nat → IconRect :=
  layoutLoop fb count 0 28 56 zero.rects

/-- The records are those of the layout, if they are said to be. -/
def Laid (fb : Framebuffer) (desktop : DesktopScreen) : Prop :=
  desktop.layoutValid = true →
    ∀ i < desktop.itemCount, desktop.rects i = placed fb desktop.itemCount i

theorem ensureLayout_alike (fb : Framebuffer) (desktop : DesktopScreen) :
    ∃ rects, desktop.ensureLayout fb = { desktop with rects := rects, layoutValid := true } := by
  rw [ensureLayout]
  split
  · exact ⟨_, rfl⟩
  · next valid =>
      have known : desktop.layoutValid = true := by simpa using valid
      exact ⟨desktop.rects, by rw [← known]⟩

theorem Laid.ensureLayout {fb : Framebuffer} {desktop : DesktopScreen} (laid : desktop.Laid fb) :
    ∀ i < desktop.itemCount,
      (desktop.ensureLayout fb).rects i = placed fb desktop.itemCount i := by
  intro i below
  rw [DesktopScreen.ensureLayout]
  split
  · have none : ∀ j < 0, desktop.rects j = zero.rects j := fun j before => by omega
    exact layoutLoop_congr fb none i (by omega)
  · next valid => exact laid (by simpa using valid) i below

/-! ## What the backdrop depends on -/

/-- The backdrop as it is drawn when the icons are laid out anew. -/
def shown (fb : Framebuffer) (font : Font) (desktop : DesktopScreen) (start : Buffer) : Buffer :=
  (drawBackdrop fb font { desktop with layoutValid := false } start).2

/-- The same icons, selection and wallpaper. -/
structure Alike (desktop desktop' : DesktopScreen) : Prop where
  items : desktop.items = desktop'.items
  itemCount : desktop.itemCount = desktop'.itemCount
  selection : desktop.selection = desktop'.selection
  wallpaper : desktop.wallpaper = desktop'.wallpaper

/-- Drawing with a layout that is kept or made anew is the same. -/
theorem drawBackdrop_eq {fb : Framebuffer} {desktop desktop' : DesktopScreen}
    (alike : Alike desktop desktop') (laid : desktop.Laid fb) (laid' : desktop'.Laid fb)
    (font : Font) (buf : Buffer) :
    (drawBackdrop fb font desktop buf).2 = (drawBackdrop fb font desktop' buf).2 := by
  have places : ∀ i < desktop.itemCount,
      (desktop.ensureLayout fb).rects i = (desktop'.ensureLayout fb).rects i := by
    intro i below
    rw [laid.ensureLayout i below, laid'.ensureLayout i (alike.itemCount ▸ below), alike.itemCount]
  rcases ensureLayout_alike fb desktop with ⟨rects, layout⟩
  rcases ensureLayout_alike fb desktop' with ⟨rects', layout'⟩
  rw [layout, layout'] at places
  rw [drawBackdrop, drawBackdrop, layout, layout', alike.wallpaper]
  dsimp only [drawIcons]
  rw [← alike.itemCount, ← alike.items, ← alike.selection]
  apply List.foldl_ext
  intro buf i member
  have place : rects i = rects' i := places i (List.mem_range.mp member)
  rw [place]

theorem laid_of_invalid {fb : Framebuffer} {desktop : DesktopScreen}
    (invalid : desktop.layoutValid = false) : desktop.Laid fb := by
  intro valid
  rw [invalid] at valid
  cases valid

theorem shown_congr {desktop desktop' : DesktopScreen} (alike : Alike desktop desktop')
    (fb : Framebuffer) (font : Font) : shown fb font desktop = shown fb font desktop' := by
  funext start
  exact @drawBackdrop_eq fb { desktop with layoutValid := false }
    { desktop' with layoutValid := false }
    ⟨alike.items, alike.itemCount, alike.selection, alike.wallpaper⟩ (laid_of_invalid rfl)
    (laid_of_invalid rfl) font start

theorem drawBackdrop_shown {fb : Framebuffer} {desktop : DesktopScreen} (laid : desktop.Laid fb)
    (font : Font) (buf : Buffer) :
    (drawBackdrop fb font desktop buf).2 = shown fb font desktop buf :=
  @drawBackdrop_eq fb desktop { desktop with layoutValid := false } ⟨rfl, rfl, rfl, rfl⟩ laid
    (laid_of_invalid rfl) font buf

/-! ## The backdrop covers the screen -/

section

variable {fb : Framebuffer}

theorem drawIcon_respects (layout : fb.Layout) (font : Font) (item : DesktopItem)
    (rect : IconRect) (selected : Bool) : fb.Respects (drawIcon fb font item rect selected) := by
  have round := fun x y w h radius color => uiFillRoundRect_respects layout x y w h radius color
  have line := fun x y w h color => drawRect_respects layout x y w h color
  have text := fun x y s fg => drawText_respects layout font x y s fg 0
  have tile : fb.Respects fun buf =>
      if selected then
        fb.uiFillRoundRect (rect.x - 8 + 1) (rect.y - 8 + 1) (rect.w + 16 - 2)
          (rect.h - 16 + 22 - 2) 9 themeSurface (fb.uiFillRoundRect (rect.x - 8) (rect.y - 8)
            (rect.w + 16) (rect.h - 16 + 22) 10 (uiShadeColor themeAccent 18) buf)
      else fb.uiFillRoundRect (rect.x - 8) (rect.y - 8) (rect.w + 16) (rect.h - 16 + 22) 10
        themeCard buf :=
    Respects.ite ((round _ _ _ _ _ _).comp (round _ _ _ _ _ _)) (round _ _ _ _ _ _)
  exact ((tile.comp (round _ _ _ _ _ _)).comp (line _ _ _ _ _)).comp (text _ _ _ _)

theorem drawBars_respects (layout : fb.Layout) (font : Font) :
    fb.Respects (drawBars fb font) := by
  have gradient := fun x y w h top bottom => uiDrawHgradRect_respects layout x y w h top bottom
  have line := fun x y w h color => drawRect_respects layout x y w h color
  have text := fun x y s fg => drawText_respects layout font x y s fg 0
  unfold drawBars
  exact (((((gradient _ _ _ _ _ _).comp (line _ _ _ _ _)).comp (text _ _ _ _)).comp
    (gradient _ _ _ _ _ _)).comp (line _ _ _ _ _)).comp (text _ _ _ _)

/-- A wallpaper that is there has a size. -/
def Sided (wallpaper : Option WallpaperImage) : Prop :=
  ∀ picture, wallpaper = some picture → ¬ (picture.w = 0 ∨ picture.h = 0)

theorem drawBase_covers (layout : fb.Layout) {wallpaper : Option WallpaperImage}
    (sided : Sided wallpaper) : fb.Covers (drawBase fb wallpaper) := by
  have gradient := fun x y w h top bottom => uiDrawHgradRect_respects layout x y w h top bottom
  cases wallpaper with
  | none =>
      exact ((uiDrawHgradRect_covers layout _ _).comp (gradient _ _ _ _ _ _)).comp
        (gradient _ _ _ _ _ _)
  | some picture =>
      unfold drawBase drawWallpaperLetterbox
      dsimp only
      simp only [if_neg (sided picture rfl)]
      apply (uiDrawHgradRect_covers layout _ _).comp (Respects.foldl _ _)
      intro y
      apply Respects.foldl
      intro x
      exact putPixelRaw_respects layout _ _ _

theorem shown_covers (layout : fb.Layout) (font : Font) {desktop : DesktopScreen}
    (sided : Sided desktop.wallpaper) : fb.Covers (shown fb font desktop) := by
  have base := (drawBase_covers layout sided).comp (drawBars_respects layout font)
  have icons : ∀ desktop, fb.Respects (drawIcons fb font desktop) := fun desktop =>
    Respects.foldl (List.range desktop.itemCount) fun i => drawIcon_respects layout font _ _ _
  exact base.comp (icons _)

/-- All pixels are in the bytes of a frame. -/
theorem copyFrame_same (layout : fb.Layout) (target source : Buffer) :
    fb.SameScreen (target.copy 0 (fb.pitch * fb.height) source) source := by
  intro x y byte on small
  have column := layout.byte_lt_pitch on.lt_width small
  have row : y + 1 ≤ fb.height := by
    have bound := s32_le fb.height
    have bottom := on.2.2.2
    omega
  have rows : (y + 1) * fb.pitch ≤ fb.height * fb.pitch := Nat.mul_le_mul_right _ row
  rw [Nat.succ_mul, Nat.mul_comm fb.height] at rows
  rw [Buffer.copy_inside (Nat.zero_le _) (by rw [offset]; omega), Nat.sub_zero]

/-! ## What holds between two events -/

/-- The cache, if there is one and nothing has changed, shows the backdrop. -/
structure Current (fb : Framebuffer) (font : Font) (desktop : DesktopScreen) : Prop where
  laid : desktop.Laid fb
  sided : Sided desktop.wallpaper
  bytes : desktop.bgCache ≠ none → desktop.bgCacheBytes = fb.pitch * fb.height
  fresh : desktop.bgDirty = false → ∀ cache, desktop.bgCache = some cache →
    ∀ start, fb.SameScreen cache (shown fb font desktop start)

variable {font : Font} {desktop : DesktopScreen}

theorem Current.of_dirty (laid : desktop.Laid fb) (sided : Sided desktop.wallpaper)
    (bytes : desktop.bgCache ≠ none → desktop.bgCacheBytes = fb.pitch * fb.height)
    (dirty : desktop.bgDirty = true) : Current fb font desktop where
  laid := laid
  sided := sided
  bytes := bytes
  fresh := by
    intro clean
    rw [dirty] at clean
    cases clean

theorem zero_current : Current fb font zero := by
  apply Current.of_dirty (laid_of_invalid rfl) _ _ rfl
  · intro picture loaded
    cases loaded
  · intro some
    exact absurd rfl some

theorem Current.init (current : Current fb font desktop) : Current fb font desktop.init :=
  .of_dirty (laid_of_invalid rfl) current.sided current.bytes rfl

theorem Current.setItems (current : Current fb font desktop)
    (items : Option (Nat → DesktopItem)) (count : Int) :
    Current fb font (desktop.setItems items count) := by
  cases items with
  | none => exact current.init
  | some items =>
      rw [DesktopScreen.setItems]
      split
      · exact current.init
      · exact .of_dirty (laid_of_invalid rfl) current.sided current.bytes rfl

theorem Current.setSelection (current : Current fb font desktop) (idx : Int) :
    Current fb font (desktop.setSelection idx) :=
  .of_dirty current.laid current.sided current.bytes rfl

theorem Current.markDirty (current : Current fb font desktop) :
    Current fb font desktop.markDirty :=
  .of_dirty current.laid current.sided current.bytes rfl

/-- A picture that is loaded has a size. -/
theorem image_sided (load : WallpaperLoad) : Sided load.image := by
  intro picture loaded
  rw [WallpaperLoad.image] at loaded
  rcases Option.bind_eq_some_iff.mp loaded with ⟨header, accepted, loaded⟩
  split at loaded
  · cases loaded
  · rcases Option.bind_eq_some_iff.mp loaded with ⟨file, _, loaded⟩
    rcases Option.bind_eq_some_iff.mp loaded with ⟨wallpaper, ran, stored⟩
    have accepted := accepted_of_loadBmpHeader accepted
    have target := (of_loadBmpIntoBg (Option.join_eq_some_iff.mp ran)).2.1
    have within := wallpaperTarget_within accepted.target_width accepted.target_height target
    have width := within.width.1
    have height := within.height.1
    rw [← Option.some.inj stored, Wallpaper.image]
    dsimp only at *
    omega

theorem Current.loadWallpaper (current : Current fb font desktop) (load : WallpaperLoad) :
    Current fb font (desktop.loadWallpaper load) := by
  rw [DesktopScreen.loadWallpaper]
  split
  · exact current
  · next picture loaded =>
      exact .of_dirty current.laid (loaded ▸ image_sided load) current.bytes rfl

theorem Current.hitTest (current : Current fb font desktop) :
    Current fb font (desktop.ensureLayout fb) := by
  have places := current.laid.ensureLayout
  rcases ensureLayout_alike fb desktop with ⟨rects, same⟩
  rw [same] at places ⊢
  refine ⟨fun _ => places, current.sided, current.bytes, ?_⟩
  intro clean cache cached start
  have alike : Alike { desktop with rects := rects, layoutValid := true } desktop :=
    ⟨rfl, rfl, rfl, rfl⟩
  rw [shown_congr alike]
  exact current.fresh clean cache cached start

/-! ## Drawing the background -/

/-- No cache is allocated while nothing counts as changed. -/
def Granted (desktop : DesktopScreen) (granted : Option Buffer) : Prop :=
  desktop.bgCache ≠ none ∨ desktop.bgDirty = true ∨ granted = none

/-- The backdrop is drawn: it is on the screen, and in the cache if there is one. -/
theorem redrawn (layout : fb.Layout) (laid : desktop.Laid fb) (sided : Sided desktop.wallpaper)
    (back : Buffer) {bgCache : Option Buffer}
    (filled : ∀ cache, bgCache = some cache →
      fb.SameScreen cache (drawBackdrop fb font desktop back).2)
    (bytes : bgCache ≠ none → desktop.bgCacheBytes = fb.pitch * fb.height) :
    let desktop' : DesktopScreen := { (drawBackdrop fb font desktop back).1 with
      bgCache := bgCache, bgDirty := false }
    Current fb font desktop' ∧
      ∀ start, fb.SameScreen (drawBackdrop fb font desktop back).2
        (shown fb font desktop' start) := by
  have places := laid.ensureLayout
  rcases ensureLayout_alike fb desktop with ⟨rects, same⟩
  have drawn : (drawBackdrop fb font desktop back).1 =
      { desktop with rects := rects, layoutValid := true } := same
  rw [same] at places
  intro desktop'
  have covers : ∀ start, fb.SameScreen (drawBackdrop fb font desktop back).2
      (shown fb font desktop' start) := by
    intro start
    have alike : Alike desktop' desktop := by
      constructor <;> simp only [desktop', drawn]
    rw [drawBackdrop_shown laid, shown_congr alike]
    exact shown_covers layout font sided back start
  refine ⟨?_, covers⟩
  constructor
  · simp only [desktop', drawn]
    exact fun _ => places
  · simp only [desktop', drawn]
    exact sided
  · simp only [desktop', drawn]
    exact bytes
  · intro _ cache cached start
    exact (filled cache cached).trans (covers start)

theorem drawBackdrop_bgCache (fb : Framebuffer) (font : Font) (desktop : DesktopScreen)
    (back : Buffer) : (drawBackdrop fb font desktop back).1.bgCache = desktop.bgCache := by
  rcases ensureLayout_alike fb desktop with ⟨rects, same⟩
  rw [drawBackdrop]
  dsimp only
  rw [same]

/-- A call that draws the backdrop. -/
theorem drawBackground_redraws (layout : fb.Layout) {granted : Option Buffer} {haveCache : Bool}
    {ready : DesktopScreen} (ensured : desktop.ensureBgCache fb granted = (haveCache, ready))
    (changed : ready.bgDirty = true ∨ haveCache = false) (laid : ready.Laid fb)
    (sided : Sided ready.wallpaper)
    (bytes : haveCache = true → ready.bgCacheBytes = fb.pitch * fb.height)
    (empty : haveCache = false → ready.bgCache = none) (back : Buffer) :
    Current fb font (drawBackground fb font granted desktop back).1 ∧
      ∀ start, fb.SameScreen (drawBackground fb font granted desktop back).2
        (shown fb font (drawBackground fb font granted desktop back).1 start) := by
  rw [drawBackground, ensured]
  dsimp only
  rw [if_pos changed, drawBackdrop_bgCache]
  apply redrawn layout laid sided back
  · intro filled isFilled
    cases haveCache with
    | true =>
        rcases Option.map_eq_some_iff.mp isFilled with ⟨cache, _, rfl⟩
        exact copyFrame_same layout cache _
    | false =>
        rw [if_neg (by decide), empty rfl] at isFilled
        cases isFilled
  · intro some
    cases haveCache with
    | true => exact bytes rfl
    | false => exact absurd (empty rfl) some

/-- Drawing the background shows the backdrop. -/
theorem Current.draw (layout : fb.Layout) (frame : fb.pitch * fb.height ≠ 0)
    (current : Current fb font desktop) {granted : Option Buffer}
    (sound : Granted desktop granted) (back : Buffer) :
    Current fb font (drawBackground fb font granted desktop back).1 ∧
      ∀ start, fb.SameScreen (drawBackground fb font granted desktop back).2
        (shown fb font (drawBackground fb font granted desktop back).1 start) := by
  cases cached : desktop.bgCache with
  | some cache =>
      have some : desktop.bgCache ≠ none := by rw [cached]; exact Option.some_ne_none cache
      have bytes := current.bytes some
      have ensured : desktop.ensureBgCache fb granted = (true, desktop) := by
        unfold ensureBgCache
        rw [if_neg frame, if_pos ⟨Option.isSome_iff_ne_none.mpr some, bytes⟩]
      cases dirty : desktop.bgDirty with
      | true =>
          exact drawBackground_redraws layout ensured (.inl dirty) current.laid current.sided
            (fun _ => bytes) nofun back
      | false =>
          rw [drawBackground, ensured]
          dsimp only
          rw [if_neg (by simp [dirty]), cached]
          refine ⟨current, ?_⟩
          intro start
          exact (copyFrame_same layout back cache).trans (current.fresh dirty cache cached start)
  | none =>
      have missing : ¬ (desktop.bgCache.isSome = true ∧
          desktop.bgCacheBytes = fb.pitch * fb.height) := by simp [cached]
      cases granted with
      | none =>
          have ensured : desktop.ensureBgCache fb none =
              (false, { desktop with bgCache := none, bgCacheBytes := 0 }) := by
            unfold ensureBgCache
            rw [if_neg frame, if_neg missing]
          exact drawBackground_redraws layout ensured (.inr rfl) current.laid current.sided
            nofun (fun _ => rfl) back
      | some buf =>
          have dirty : desktop.bgDirty = true := by
            rcases sound with some | dirty | refused
            · exact absurd cached some
            · exact dirty
            · cases refused
          have ensured : desktop.ensureBgCache fb (some buf) =
              (true, { desktop with
                bgCache := some buf, bgCacheBytes := fb.pitch * fb.height }) := by
            unfold ensureBgCache
            rw [if_neg frame, if_neg missing]
          exact drawBackground_redraws layout ensured (.inl dirty) current.laid current.sided
            (fun _ => rfl) nofun back

/-! ## Runs -/

/-- The condition on an event. -/
def Allowed (desktop : DesktopScreen) : Event → Prop
  | .draw granted => Granted desktop granted
  | _ => True

/-- The states after events that meet the condition, from the start of the system on. -/
inductive Reaches (fb : Framebuffer) (font : Font) : DesktopScreen × Buffer → Prop
  | start (back : Buffer) : Reaches fb font (zero, back)
  | event {state : DesktopScreen × Buffer} {event : Event} : Reaches fb font state →
      Allowed state.1 event → Reaches fb font (after fb font state event)

theorem Reaches.current (layout : fb.Layout) (frame : fb.pitch * fb.height ≠ 0)
    {state : DesktopScreen × Buffer} (reaches : Reaches fb font state) :
    Current fb font state.1 := by
  induction reaches with
  | start back => exact zero_current
  | @event state event _ allowed current =>
      cases event with
      | init => exact current.init
      | setItems items count => exact current.setItems items count
      | setSelection idx => exact current.setSelection idx
      | markDirty => exact current.markDirty
      | loadWallpaper load => exact current.loadWallpaper load
      | hitTest => exact current.hitTest
      | overdraw back => exact current
      | draw granted => exact (current.draw layout frame allowed state.2).1

/-- In every run whose events meet the condition: after the background has been drawn, the screen
shows what the backdrop is for the current icons, selection and wallpaper, whatever it is drawn
over. -/
theorem drawBackground_shown (layout : fb.Layout) (wide : 64 ≤ fb.width) (high : 64 ≤ fb.height)
    {state : DesktopScreen × Buffer} (reaches : Reaches fb font state) {granted : Option Buffer}
    (allowed : Allowed state.1 (.draw granted)) :
    let state' := after fb font state (.draw granted)
    ∀ start, fb.SameScreen state'.2 (shown fb font state'.1 start) := by
  have some : 0 < fb.width * (fb.bpp / 8) := Nat.mul_pos (by omega) layout.bytes_pos
  have rows := layout.rows
  have frame : fb.pitch * fb.height ≠ 0 := Nat.mul_ne_zero (by omega) (by omega)
  exact ((reaches.current layout frame).draw layout frame allowed state.2).2

end

/-- A small screen, and a font whose characters have no rows. -/
def smallScreen : Framebuffer := ⟨64, 64, 192, 24⟩

def blankFont : Font := ⟨false, 8, 0, 1, 256, fun _ => 0⟩

/-- The backdrop is drawn without a cache, drawn over, and drawn into a cache. -/
theorem drawBackground_shown_again :
    let memory : Buffer := fun _ => 0
    let drawn := after smallScreen blankFont (zero, memory) (.draw none)
    let state := after smallScreen blankFont (after smallScreen blankFont drawn (.overdraw memory))
      .markDirty
    let state' := after smallScreen blankFont state (.draw (some memory))
    smallScreen.SameScreen state'.2 (shown smallScreen blankFont state'.1 memory) := by
  intro memory drawn state state'
  have first : Reaches smallScreen blankFont drawn := .event (.start memory) (.inr (.inr rfl))
  have overdrawn : Reaches smallScreen blankFont
      (after smallScreen blankFont drawn (.overdraw memory)) := .event first trivial
  have marked : Reaches smallScreen blankFont state := .event overdrawn trivial
  exact drawBackground_shown ⟨.inl rfl, by decide⟩ (by decide) (by decide) marked
    (.inr (.inl rfl)) memory

theorem drawText_blank (fb : Framebuffer) {font : Font} (blank : font.height = 0)
    (px py : Int) (s : List UInt8) (fg bg : UInt32) (buf : Buffer) :
    fb.drawText font px py s fg bg buf = buf := by
  induction s generalizing px buf with
  | nil => rfl
  | cons char rest induction =>
      have glyph : fb.drawGlyph font px py char fg bg buf = buf := by
        rw [drawGlyph, blank]
        rfl
      rw [drawText, glyph, induction, ite_self]

theorem shown_plain (fb : Framebuffer) (font : Font) {desktop : DesktopScreen}
    (empty : desktop.itemCount = 0) (plain : desktop.wallpaper = none) (start : Buffer) :
    shown fb font desktop start = drawBars fb font (drawBase fb none start) := by
  rcases ensureLayout_alike fb { desktop with layoutValid := false } with ⟨rects, same⟩
  rw [shown, drawBackdrop]
  dsimp only
  rw [same, drawIcons, empty, plain]
  rfl

/-- The backdrop is drawn when there is no memory for a cache. At the next call there is memory,
and what is in it is shown. -/
theorem drawBackground_shows_memory :
    let memory : Buffer := fun _ => 0
    let state := after smallScreen blankFont (zero, memory) (.draw none)
    let state' := after smallScreen blankFont state (.draw (some memory))
    state'.2 0 = 0 ∧ shown smallScreen blankFont state'.1 memory 0 = 0xFF ∧
      ¬ smallScreen.SameScreen state'.2 (shown smallScreen blankFont state'.1 memory) := by
  intro memory state state'
  have onScreen : smallScreen.OnScreen (0 : Nat) (0 : Nat) := by decide
  have layout : smallScreen.Layout := ⟨.inl rfl, by decide⟩
  have small : 0 < smallScreen.bpp / 8 := by decide
  have stale : state'.2 0 = 0 := by
    rfl
  have white : shown smallScreen blankFont state'.1 memory
      (smallScreen.offset 0 0 + 0) = 0xFF := by
    rw [shown_plain smallScreen blankFont rfl rfl, drawBars]
    simp only [@drawText_blank smallScreen blankFont rfl]
    rw [drawRect_apply layout _ _ _ _ _ _ onScreen small, if_neg (by decide),
      uiDrawHgradRect_apply layout _ _ _ _ _ _ _ onScreen small, if_neg (by decide),
      drawRect_apply layout _ _ _ _ _ _ onScreen small, if_neg (by decide),
      uiDrawHgradRect_apply layout _ _ _ _ _ _ _ onScreen small, if_pos (by decide)]
    decide
  refine ⟨stale, white, ?_⟩
  intro same
  have pixel := same 0 0 0 onScreen small
  rw [white] at pixel
  exact absurd (stale.symm.trans pixel) (by decide)

end DesktopScreen

end ParanOS

import ParanOS.Screen.Backdrop

/-! # From the size of a file to the picture on the screen

The wallpaper is made smaller while it is loaded, and is drawn into the middle of the screen at
the size that keeps its proportions. All sizes are narrowed to 32 bits after they were computed.
Whatever the sizes of the file and of the screen are, no index and no coordinate leaves its range.
-/

namespace ParanOS

open Foundation

/-! ## Bytes that drawing leaves alone -/

namespace Framebuffer

/-- No pixel on the screen has the byte. -/
def OffScreen (fb : Framebuffer) (place : Nat) : Prop :=
  ∀ px py byte : Nat, fb.OnScreen px py → byte < fb.bpp / 8 → place ≠ fb.offset px py + byte

/-- Only bytes of pixels on the screen are written. -/
def Spares (fb : Framebuffer) (draw : Buffer → Buffer) : Prop :=
  ∀ buf place, fb.OffScreen place → draw buf place = buf place

section

variable {fb : Framebuffer} {draw later : Buffer → Buffer}

theorem Spares.id : fb.Spares fun buf => buf := fun _ _ _ => rfl

theorem Spares.comp (first : fb.Spares draw) (second : fb.Spares later) :
    fb.Spares fun buf => later (draw buf) :=
  fun buf place off => (second (draw buf) place off).trans (first buf place off)

theorem Spares.ite {condition : Prop} [Decidable condition] (first : fb.Spares draw)
    (second : fb.Spares later) :
    fb.Spares fun buf => if condition then draw buf else later buf := by
  intro buf place off
  dsimp only
  split
  · exact first buf place off
  · exact second buf place off

theorem Spares.foldl {α : Type} (values : List α) {each : Buffer → α → Buffer}
    (spares : ∀ value, fb.Spares fun buf => each buf value) :
    fb.Spares fun buf => values.foldl each buf := by
  induction values with
  | nil => exact Spares.id
  | cons value rest induction => exact (spares value).comp induction

theorem putPixelRaw_spares (x y : Int) (color : UInt32) : fb.Spares (fb.putPixelRaw x y color) := by
  intro buf place off
  rw [putPixelRaw]
  by_cases inside : fb.OnScreen x y
  · rw [if_neg (not_not.mpr inside)]
    split
    · next depth =>
        apply putPixelBytes_outside
        intro byte small
        rw [decide_eq_true_iff] at small
        have inside' : fb.OnScreen x.toNat y.toNat := by
          rwa [Int.toNat_of_nonneg inside.1, Int.toNat_of_nonneg inside.2.1]
        exact off x.toNat y.toNat byte inside' (by omega)
    · rfl
  · rw [if_pos inside]

theorem drawRect_spares (x y w h : Int) (argb : UInt32) :
    fb.Spares (fb.drawRect x y w h argb) := by
  unfold drawRect
  apply Spares.ite Spares.id
  apply Spares.foldl
  intro yy
  apply Spares.foldl
  exact fun xx => putPixelRaw_spares xx yy argb

theorem uiDrawHgradRect_spares (x y w h : Int) (top bottom : UInt32) :
    fb.Spares (fb.uiDrawHgradRect x y w h top bottom) := by
  unfold uiDrawHgradRect
  apply Spares.ite Spares.id
  apply Spares.ite (drawRect_spares _ _ _ _ _)
  apply Spares.foldl
  exact fun i => drawRect_spares _ _ _ _ _

end

end Framebuffer

/-! ## The size that is stored -/

theorem SidesWithin.trans {w h : Nat} {middle target : Nat × Nat} (first : SidesWithin w h middle)
    (second : SidesWithin middle.1 middle.2 target) : SidesWithin w h target :=
  ⟨⟨second.width.1, second.width.2.trans first.width.2⟩,
    ⟨second.height.1, second.height.2.trans first.height.2⟩⟩

theorem SidesWithin.product_le {w h : Nat} {target : Nat × Nat} (within : SidesWithin w h target) :
    target.1 * target.2 ≤ w * h :=
  Nat.mul_le_mul within.width.2 within.height.2

theorem fitWithin_product {maxPx fuel w h : Nat} {target : Nat × Nat}
    (fits : fitWithin maxPx fuel w h = some target) : target.1 * target.2 ≤ maxPx := by
  induction fuel generalizing w h with
  | zero => simp [fitWithin] at fits
  | succ fuel induction =>
      rw [fitWithin] at fits
      split at fits
      · exact induction fits
      · next small =>
          rw [← Option.some.inj fits]
          exact Nat.le_of_not_lt small

theorem WallpaperEnv.maxPx_eq {env : WallpaperEnv} (screen : 1 ≤ env.fbWidth ∧ 1 ≤ env.fbHeight) :
    env.maxPx = env.fbWidth * env.fbHeight := by
  rw [WallpaperEnv.maxPx, if_pos ⟨by omega, by omega⟩]

theorem wallpaperTarget_product {env : WallpaperEnv} {w h : Nat} {target : Nat × Nat}
    (width : 1 ≤ w ∧ w ≤ 2147483648) (height : 1 ≤ h ∧ h ≤ 2147483648)
    (got : wallpaperTarget env w h = some (some target)) : target.1 * target.2 ≤ env.maxPx := by
  rw [wallpaperTarget] at got
  cases fit : fitWithin env.maxPx 33 w h with
  | none => simp [fit] at got
  | some fitting =>
      have within := fitWithin_within width height fit
      have inside := within.width
      have below := within.height
      simp only [fit, Option.bind_eq_bind, Option.bind_some] at got
      exact (attemptAlloc_within (by omega) (by omega) got).product_le.trans (fitWithin_product fit)

/-- The second loop with the outcome of every request by its number. -/
def attemptAllocBy (outcomes : Nat → Bool) : (fuel w h : Nat) → Option (Option (Nat × Nat))
  | 0, _, _ => none
  | fuel + 1, w, h =>
      if w ≥ 1 ∧ h ≥ 1 then
        if outcomes 0 then some (some (w, h))
        else if w = 1 ∧ h = 1 then some none
        else attemptAllocBy (fun request => outcomes (request + 1)) fuel (halve w) (halve h)
      else some none

theorem halve_lt {side : Nat} (more : 1 < side) (narrow : side ≤ 2147483648) :
    halve side < side := by
  rw [halve, if_pos more, u32_of_lt (by omega)]
  omega

/-- The requests become smaller. -/
theorem halved_product_lt {w h : Nat} (width : 1 ≤ w ∧ w ≤ 2147483648)
    (height : 1 ≤ h ∧ h ≤ 2147483648) (more : ¬ (w = 1 ∧ h = 1)) :
    halve w * halve h < w * h := by
  have first := halve_le_self width.1
  have second := halve_le_self height.1
  by_cases wide : 1 < w
  · exact Nat.mul_lt_mul_of_lt_of_le (halve_lt wide width.2) second (by omega)
  · exact Nat.mul_lt_mul_of_le_of_lt first (halve_lt (by omega) height.2) (by omega)

theorem attemptAlloc_congr {granted granted' : Nat → Bool} {fuel w h : Nat}
    (width : 1 ≤ w ∧ w ≤ 2147483648) (height : 1 ≤ h ∧ h ≤ 2147483648)
    (same : ∀ bytes ≤ w * h * 4, granted bytes = granted' bytes) :
    attemptAlloc granted fuel w h = attemptAlloc granted' fuel w h := by
  induction fuel generalizing w h with
  | zero => rfl
  | succ fuel induction =>
      rw [attemptAlloc, attemptAlloc, same _ (Nat.le_refl _)]
      by_cases last : w = 1 ∧ h = 1
      · simp only [if_pos last]
      · have less := halved_product_lt width height last
        rw [induction (halve_bounds width) (halve_bounds height) fun bytes small =>
          same bytes (by omega)]

/-- No size is asked for twice, so every sequence of outcomes comes from what is granted by
size. -/
theorem exists_granted (outcomes : Nat → Bool) (fuel : Nat) {w h : Nat}
    (width : 1 ≤ w ∧ w ≤ 2147483648) (height : 1 ≤ h ∧ h ≤ 2147483648) :
    ∃ granted, attemptAlloc granted fuel w h = attemptAllocBy outcomes fuel w h := by
  induction fuel generalizing outcomes w h with
  | zero => exact ⟨fun _ => false, rfl⟩
  | succ fuel induction =>
      by_cases last : w = 1 ∧ h = 1
      · refine ⟨fun _ => outcomes 0, ?_⟩
        rw [attemptAlloc, attemptAllocBy]
        simp only [if_pos last]
      · have less := halved_product_lt width height last
        rcases induction (fun request => outcomes (request + 1)) (halve_bounds width)
          (halve_bounds height) with ⟨granted, later⟩
        refine ⟨fun bytes => if bytes = w * h * 4 then outcomes 0 else granted bytes, ?_⟩
        rw [attemptAlloc, attemptAllocBy, ← later, if_pos rfl,
          attemptAlloc_congr (halve_bounds width) (halve_bounds height)]
        intro bytes small
        exact if_neg (by omega)

/-- Both loops, for a sequence of outcomes. -/
def wallpaperTargetBy (fb : Framebuffer) (outcomes : Nat → Bool) (w h : Nat) :
    Option ((Nat × Nat) × Option (Nat × Nat)) := do
  let fitting ← fitWithin (WallpaperEnv.maxPx ⟨fb.width, fb.height, fun _ => false⟩) 33 w h
  let stored ← attemptAllocBy outcomes 33 fitting.1 fitting.2
  some (fitting, stored)

/-- Both loops end, with a picture that is not empty, not larger than the file's and has no more
pixels than the screen. -/
theorem wallpaperTargetBy_returns {fb : Framebuffer} (screen : 1 ≤ fb.width ∧ 1 ≤ fb.height)
    (outcomes : Nat → Bool) {w h : Nat} (width : 1 ≤ w ∧ w ≤ 2147483648)
    (height : 1 ≤ h ∧ h ≤ 2147483648) :
    ∃ fitting stored, wallpaperTargetBy fb outcomes w h = some (fitting, stored) ∧
      (∃ granted, wallpaperTarget ⟨fb.width, fb.height, granted⟩ w h = some stored) ∧
      ∀ target, target = fitting ∨ stored = some target →
        SidesWithin w h target ∧ target.1 * target.2 ≤ fb.width * fb.height := by
  have most (granted : Nat → Bool) :
      WallpaperEnv.maxPx ⟨fb.width, fb.height, granted⟩ = fb.width * fb.height :=
    WallpaperEnv.maxPx_eq screen
  have nonempty : 1 ≤ fb.width * fb.height := Nat.mul_pos screen.1 screen.2
  have fits := @fitWithin_returns (fb.width * fb.height) 32 w h nonempty (by omega) (by omega)
  rcases Option.ne_none_iff_exists'.mp fits with ⟨fitting, fit⟩
  have within := fitWithin_within width height fit
  have product := fitWithin_product fit
  have inside := within.width
  have below := within.height
  rcases @exists_granted outcomes 33 fitting.1 fitting.2 (by omega) (by omega) with
    ⟨granted, same⟩
  have ends := @attemptAlloc_returns granted 32 fitting.1 fitting.2 (by omega) (by omega)
  rcases Option.ne_none_iff_exists'.mp ends with ⟨stored, got⟩
  have later : attemptAllocBy outcomes 33 fitting.1 fitting.2 = some stored := same ▸ got
  refine ⟨fitting, stored, ?_, ⟨granted, ?_⟩, ?_⟩
  · simp only [wallpaperTargetBy, most, fit, later, Option.bind_eq_bind, Option.bind_some]
  · simp only [wallpaperTarget, most, fit, got, Option.bind_eq_bind, Option.bind_some]
  · rintro target (rfl | rfl)
    · exact ⟨within, product⟩
    · have smaller := attemptAlloc_within (by omega) (by omega) got
      exact ⟨within.trans smaller, smaller.product_le.trans product⟩

/-! ## The size on the screen -/

/-- `dst_x` and `dst_y`: where something that long begins in the middle of the screen. -/
def centred (full fit : Nat) : Int :=
  let dst := Int.tdiv (s32 full - s32 fit) 2
  if dst < 0 then 0 else dst

theorem centred_inside {full fit i : Nat} (narrow : full < 4294967296) (fits : fit ≤ full)
    (inside : i < fit) :
    toU32 (centred full fit + s32 i) < full ∧
      (full < 2147483648 → 0 ≤ centred full fit + s32 i ∧ centred full fit + s32 i < s32 full) := by
  have left : (if Int.tdiv (s32 full - s32 fit) 2 < 0 then 0 else Int.tdiv (s32 full - s32 fit) 2) =
      if s32 full < s32 fit then 0 else (s32 full - s32 fit) / 2 := by
    by_cases order : s32 full < s32 fit
    · rw [if_pos order]
      have positive : 0 ≤ Int.tdiv (s32 fit - s32 full) 2 := Int.tdiv_nonneg (by omega) (by omega)
      rw [← Int.neg_sub, Int.neg_tdiv]
      split <;> omega
    · have quotient : Int.tdiv (s32 full - s32 fit) 2 = (s32 full - s32 fit) / 2 :=
        Int.tdiv_eq_ediv_of_nonneg (by omega)
      rw [if_neg order, quotient, if_neg (by omega)]
  simp only [centred, left]
  simp only [s32, toU32]
  omega

/-- A pixel that is drawn: its coordinates, and the index of the word that is read for it. -/
structure ScaledPixel (ι : Type) where
  x : Int
  y : Int
  index : ι

namespace DesktopScreen

/-- Neither side is longer than the screen, also where the height does not fit into 32 bits. -/
theorem fitSize_le (fb : Framebuffer) {picture : WallpaperImage}
    (sides : 1 ≤ picture.w ∧ 1 ≤ picture.h) :
    (fitSize fb picture).1 ≤ fb.width ∧ (fitSize fb picture).2 ≤ fb.height := by
  rw [fitSize]
  split
  · next high =>
      have wrapped : u32 ((picture.h * fb.width + picture.w / 2) / picture.w) ≤
        scaled picture.h picture.w fb.width (picture.w / 2) := Nat.mod_le _ _
      have fits := @scaled_le_of_lt_scaled picture.h picture.w fb.width fb.height (picture.w / 2)
        (picture.h / 2) (by omega) (by omega) (by omega)
      have cut : u32 ((picture.w * fb.height + picture.h / 2) / picture.h) ≤
        scaled picture.w picture.h fb.height (picture.h / 2) := Nat.mod_le _ _
      exact ⟨cut.trans fits, Nat.le_refl _⟩
  · next low => exact ⟨Nat.le_refl _, Nat.le_of_not_lt low⟩

/-! ## What is read and drawn -/

def letterboxPixel (fb : Framebuffer) (picture : WallpaperImage) (y x : Nat) : ScaledPixel Nat :=
  let (fitW, fitH) := fitSize fb picture
  let row := u32 (y * picture.h / fitH * picture.w)
  ⟨centred fb.width fitW + s32 x, centred fb.height fitH + s32 y, row + x * picture.w / fitW⟩

theorem drawWallpaperLetterbox_eq (fb : Framebuffer) (picture : WallpaperImage) (buf : Buffer) :
    drawWallpaperLetterbox fb picture buf =
      if picture.w = 0 ∨ picture.h = 0 then buf
      else (List.range (fitSize fb picture).2).foldl (fun buf y =>
        (List.range (fitSize fb picture).1).foldl (fun buf x =>
          let pixel := letterboxPixel fb picture y x
          fb.putPixelRaw pixel.x pixel.y (UInt32.ofNat (picture.pixels pixel.index)) buf) buf)
        (fb.uiDrawHgradRect 0 0 (s32 fb.width) (s32 fb.height) 0xFFEFF3F9 0xFFE3EAF4 buf) := rfl

theorem drawWallpaperLetterbox_spares (fb : Framebuffer) (picture : WallpaperImage) :
    fb.Spares (drawWallpaperLetterbox fb picture) := by
  unfold drawWallpaperLetterbox
  apply Framebuffer.Spares.ite Framebuffer.Spares.id
  apply (Framebuffer.uiDrawHgradRect_spares _ _ _ _ _ _).comp (Framebuffer.Spares.foldl _ _)
  intro y
  apply Framebuffer.Spares.foldl
  exact fun x => Framebuffer.putPixelRaw_spares _ _ _

/-- Nothing that `draw_wallpaper_letterbox` computes leaves its range: the divisors, the words
that are read, and the coordinates, as unsigned numbers for every size of the screen and as
the numbers that they are compared as for those below 2^31. -/
structure LetterboxInRange (fb : Framebuffer) (picture : WallpaperImage) : Prop where
  divisors : picture.w ≠ 0 ∧ picture.h ≠ 0 ∧ ∀ y < (fitSize fb picture).2,
    (fitSize fb picture).2 ≠ 0 ∧ ∀ x < (fitSize fb picture).1, (fitSize fb picture).1 ≠ 0
  reads : ∀ y < (fitSize fb picture).2, ∀ x < (fitSize fb picture).1,
    (letterboxPixel fb picture y x).index < picture.w * picture.h
  draws : ∀ y < (fitSize fb picture).2, ∀ x < (fitSize fb picture).1,
    toU32 (letterboxPixel fb picture y x).x < fb.width ∧
      toU32 (letterboxPixel fb picture y x).y < fb.height
  onScreen : fb.width < 2147483648 ∧ fb.height < 2147483648 → ∀ y < (fitSize fb picture).2,
    ∀ x < (fitSize fb picture).1,
      fb.OnScreen (letterboxPixel fb picture y x).x (letterboxPixel fb picture y x).y
  spares : fb.Spares (drawWallpaperLetterbox fb picture)

theorem letterbox_inRange {fb : Framebuffer} {picture : WallpaperImage}
    (narrow : fb.width < 4294967296 ∧ fb.height < 4294967296)
    (sides : 1 ≤ picture.w ∧ 1 ≤ picture.h) (few : picture.w * picture.h < 4294967296) :
    LetterboxInRange fb picture := by
  have fits := fitSize_le fb sides
  have across {x : Nat} (column : x < (fitSize fb picture).1) :=
    centred_inside narrow.1 fits.1 column
  have down {y : Nat} (row : y < (fitSize fb picture).2) :=
    centred_inside narrow.2 fits.2 row
  constructor
  · exact ⟨by omega, by omega, fun y row => ⟨by omega, fun x column => by omega⟩⟩
  · intro y row x column
    have some : 0 < picture.h * picture.w := Nat.mul_pos sides.2 sides.1
    have inside := nearest_index_lt some row column
    rw [Nat.mul_comm picture.h] at inside
    have unwrapped : u32 (nearest picture.h (fitSize fb picture).2 y * picture.w) =
        nearest picture.h (fitSize fb picture).2 y * picture.w := u32_of_lt (by omega)
    rw [← unwrapped] at inside
    exact inside
  · exact fun y row x column => ⟨(across column).1, (down row).1⟩
  · intro small y row x column
    have first := (across column).2 small.1
    have second := (down row).2 small.2
    exact ⟨first.1, second.1, first.2, second.2⟩
  · exact drawWallpaperLetterbox_spares fb picture

end DesktopScreen

/-! ## The whole way -/

/-- Every wallpaper that was loaded for this screen is drawn within its range. -/
theorem WallpaperLoad.image_inRange {fb : Framebuffer} (screen : 1 ≤ fb.width ∧ 1 ≤ fb.height)
    (few : fb.width * fb.height < 4294967296) {load : WallpaperLoad}
    (same : load.env.fbWidth = fb.width ∧ load.env.fbHeight = fb.height)
    {picture : WallpaperImage} (loaded : load.image = some picture) :
    DesktopScreen.LetterboxInRange fb picture := by
  rw [WallpaperLoad.image] at loaded
  rcases Option.bind_eq_some_iff.mp loaded with ⟨header, accepted, loaded⟩
  replace accepted := accepted_of_loadBmpHeader accepted
  split at loaded
  · simp at loaded
  · rcases Option.bind_eq_some_iff.mp loaded with ⟨file, _, loaded⟩
    rcases Option.bind_eq_some_iff.mp loaded with ⟨wallpaper, decoded, shown⟩
    rw [← Option.some.inj shown]
    have target := (of_loadBmpIntoBg (Option.join_eq_some_iff.mp decoded)).2.1
    have within := wallpaperTarget_within accepted.target_width accepted.target_height target
    have product := wallpaperTarget_product accepted.target_width accepted.target_height target
    rw [WallpaperEnv.maxPx_eq (by omega), same.1, same.2] at product
    have sides : fb.width ≤ fb.width * fb.height ∧ fb.height ≤ fb.width * fb.height :=
      ⟨Nat.le_mul_of_pos_right _ screen.2, Nat.le_mul_of_pos_left _ screen.1⟩
    exact DesktopScreen.letterbox_inRange (by omega) ⟨within.width.1, within.height.1⟩
      (product.trans_lt few)

/-- The rows and columns of the file that the picture is made of are in the file. -/
structure SamplesInside (w h : Int) (target : Nat × Nat) : Prop where
  rows : ∀ y < target.2, 0 ≤ wallpaperSourceRow h target.2 y ∧
    wallpaperSourceRow h target.2 y < h.natAbs
  columns : ∀ x < target.1, wallpaperColumn w target.1 x < w.toNat

theorem SidesWithin.samplesInside {w h : Int} {target : Nat × Nat}
    (width : 1 ≤ w ∧ w < 2147483648) (height : 1 ≤ h.natAbs ∧ h.natAbs < 2147483648)
    (within : SidesWithin w.toNat h.natAbs target) : SamplesInside w h target := by
  have value : absInt h = h.natAbs := absInt_eq (by omega)
  constructor
  · intro y row
    exact wallpaperSourceRow_inside value height.2 height.1 row within.height.2
  · intro x column
    rcases wallpaperColumn_eq (w := w) (by omega) column with ⟨same, inside⟩
    rw [same]
    exact inside

/-- For every size of the file and of the screen, and whichever requests for memory fail, the
loops end; what they end with is not empty and has no more pixels than the screen; it is made of
rows and columns of the file; and it is drawn within its range. -/
theorem wallpaper_inRange {fb : Framebuffer} (screen : 1 ≤ fb.width ∧ 1 ≤ fb.height)
    (few : fb.width * fb.height < 4294967296) {w h : Int} (width : 1 ≤ w ∧ w < 2147483648)
    (height : 1 ≤ h.natAbs ∧ h.natAbs < 2147483648) (outcomes : Nat → Bool) :
    ∃ fitting stored,
      wallpaperTargetBy fb outcomes (toU32 w) (toU32 (absInt h)) = some (fitting, stored) ∧
      (∃ granted, wallpaperTarget ⟨fb.width, fb.height, granted⟩ (toU32 w) (toU32 (absInt h)) =
        some stored) ∧
      ∀ target, target = fitting ∨ stored = some target →
        SidesWithin w.toNat h.natAbs target ∧ target.1 * target.2 ≤ fb.width * fb.height ∧
        SamplesInside w h target ∧
        ∀ pixels, DesktopScreen.LetterboxInRange fb ⟨target.1, target.2, pixels⟩ := by
  have wide : toU32 w = w.toNat := by
    rw [toU32]
    omega
  have high : toU32 (absInt h) = h.natAbs := by
    rw [absInt_eq (by omega), toU32_of_nat (by omega)]
  have sides : fb.width ≤ fb.width * fb.height ∧ fb.height ≤ fb.width * fb.height :=
    ⟨Nat.le_mul_of_pos_right _ screen.2, Nat.le_mul_of_pos_left _ screen.1⟩
  rw [wide, high]
  rcases @wallpaperTargetBy_returns fb screen outcomes w.toNat h.natAbs (by omega) (by omega) with
    ⟨fitting, stored, returned, granted, targets⟩
  refine ⟨fitting, stored, returned, granted, ?_⟩
  intro target reached
  rcases targets target reached with ⟨within, product⟩
  refine ⟨within, product, within.samplesInside width height, ?_⟩
  intro pixels
  exact DesktopScreen.letterbox_inRange (by omega) ⟨within.width.1, within.height.1⟩
    (product.trans_lt few)

/-- A picture of one column that is higher than 32 bits when it is fitted to a screen. -/
theorem wallpaper_inRange_column :
    ∃ fitting stored,
      wallpaperTargetBy ⟨65536, 65535, 262144, 32⟩ (fun _ => true) (toU32 1)
        (toU32 (absInt (-2147483647))) = some (fitting, stored) ∧
      ∀ target, target = fitting ∨ stored = some target →
        ∀ pixels, DesktopScreen.LetterboxInRange ⟨65536, 65535, 262144, 32⟩
          ⟨target.1, target.2, pixels⟩ := by
  rcases @wallpaper_inRange ⟨65536, 65535, 262144, 32⟩ ⟨by decide, by decide⟩ (by decide) 1
    (-2147483647) ⟨by decide, by decide⟩ ⟨by decide, by decide⟩ fun _ => true with
    ⟨fitting, stored, returned, _, targets⟩
  exact ⟨fitting, stored, returned, fun target reached => (targets target reached).2.2.2⟩

end ParanOS

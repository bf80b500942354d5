import ParanOS.Foundation.Scaling
import ParanOS.Media.Viewer

/-! # The cursor

`cursor_load_from_disk` of `kernel.c`. It stops decoding at a row that is not in the file
and takes the picture as it is then, shrunk to the size of a cursor. Which rows are missing
depends on the order in which the file stores them, and which of the missing ones are drawn
on the rows that the smaller copy takes.
-/

namespace ParanOS

open Foundation

/-! ## The code -/

def cursorHeader (length : Nat) (buf : Buffer) : Option PictureHeader :=
  pictureHeader (4 * 1024 * 1024) (fun depth => depth = .bits32) length buf

def cursorRowBytes (header : PictureHeader) : Nat := u32 (header.w.toNat * 4)

/-- The row loop, which is left at the first row that is not in the file. -/
def cursorRows (header : PictureHeader) : (count y : Nat) → PeekM (List (List (Nat × Nat)))
  | 0, _ => pure []
  | count + 1, y =>
      let sy := header.sourceRow y
      let rowBytes := cursorRowBytes header
      if sy * rowBytes + rowBytes > header.fileSize - header.dataOff then pure []
      else do
        let row ← pictureRow header (header.dataOff + sy * rowBytes) y
        let rest ← cursorRows header count (y + 1)
        pure (row :: rest)

def cursorMaxDim : Int := 32

/-- The sides of the cursor. -/
def cursorTarget (w : Int) (h : Nat) : Int × Int :=
  let targetW := w
  let targetH := s32 h
  if targetW > cursorMaxDim ∨ targetH > cursorMaxDim then
    let (targetW, targetH) :=
      if targetW ≥ targetH then (cursorMaxDim, s32 (toU32 ((h : Int) * cursorMaxDim / w)))
      else (s32 (toU32 (w * cursorMaxDim / s32 h)), cursorMaxDim)
    (if targetW < 8 then 8 else targetW, if targetH < 8 then 8 else targetH)
  else (targetW, targetH)

/-- An image for the cursor: the words that are drawn, row by row. -/
structure CursorImage where
  w : Int
  h : Int
  pixels : List (Option Nat)
  deriving DecidableEq

/-- The words of a picture that are drawn when it is taken `w` times `h` pixels large,
each from the word of a pixel of the memory. -/
def drawnPixels (w h : Int) (pixel : Int → Int → Option Nat) : List (Option Nat) :=
  (List.range h.toNat).flatMap fun (y : Nat) =>
    (List.range w.toNat).map fun (x : Nat) => pixel y x

/-- `scaled` and its sides: the picture itself, or a smaller copy if there is memory
for it. -/
def cursorScale (granted : Bool) (w : Int) (h : Nat) (stores : List (Nat × Nat)) : CursorImage :=
  let (targetW, targetH) := cursorTarget w h
  if (targetW ≠ w ∨ targetH ≠ s32 h) ∧ granted then
    ⟨targetW, targetH, drawnPixels targetW targetH fun y x =>
      cellAt stores ((y * s32 h).tdiv targetH * w + (x * w).tdiv targetW)⟩
  else ⟨w, s32 h, drawnPixels w (s32 h) fun y x => cellAt stores (y * w + x)⟩

def cursorDecode (granted : Nat → Bool) (header : PictureHeader) : PeekM CursorImage := do
  let rows ← cursorRows header header.h 0
  pure (cursorScale (granted 2) header.w header.h rows.flatten)

/-- The cursor image, or `none` where the source leaves the cursor as it is. -/
def cursorLoadFromDisk (granted : Nat → Bool) (length : Nat) : PeekM (Option CursorImage) :=
  fun buf => withPicture granted length (cursorHeader length buf) (cursorDecode granted) buf

theorem accepted_of_cursorHeader {length : Nat} {buf : Buffer} {header : PictureHeader}
    (accepted : cursorHeader length buf = some header) :
    header.Accepted 4194304 ∧ header.depth = .bits32 := by
  rcases accepted_of_pictureHeader accepted with ⟨fields, known⟩
  exact ⟨fields, of_decide_eq_true known⟩

/-! ## The rows of the cursor -/

/-- The row of the file that row `y` is lies in the file. -/
def PictureHeader.RowFits (header : PictureHeader) (y : Nat) : Prop :=
  header.sourceRow y * cursorRowBytes header + cursorRowBytes header ≤
    header.fileSize - header.dataOff

/-- The loop decodes the rows from `y` up to the first one that is not in the file. -/
structure CursorRun (header : PictureHeader) (buf : Buffer) (count y stop : Nat) : Prop where
  bounds : y ≤ stop ∧ stop ≤ y + count
  fits : ∀ row, y ≤ row → row < stop → header.RowFits row
  ends : stop < y + count → ¬ header.RowFits stop
  stores : ∃ rows, (cursorRows header count y buf).1 = some rows ∧
    ∀ index, (∃ store ∈ rows.flatten, store.1 = index) ↔
      ∃ row, (y ≤ row ∧ row < stop) ∧ ∃ x < header.w.toNat,
        u32 (row * header.w.toNat + x) = index
  reads : ∀ limit, ReadsBelow limit (cursorRows header count y) buf ↔
    ∀ row, y ≤ row → row < stop → ReadsBelow limit (pictureRow header
      (header.dataOff + header.sourceRow row * cursorRowBytes header) row) buf

/-- The loop is left at once. -/
theorem CursorRun.nothing {header : PictureHeader} {buf : Buffer} {count y : Nat}
    (left : cursorRows header count y = pure [])
    (ends : y < y + count → ¬ header.RowFits y) : CursorRun header buf count y y where
  bounds := by omega
  fits := by
    intro row lower upper
    omega
  ends := ends
  stores := by
    refine ⟨[], by rw [left]; rfl, ?_⟩
    intro index
    simp only [List.flatten_nil, List.not_mem_nil, false_and, exists_false, false_iff, not_exists]
    intro row bounds
    omega
  reads := by
    intro limit
    rw [left, readsBelow_pure, true_iff]
    intro row lower upper
    omega

/-- The loop decodes a row and goes on. -/
theorem CursorRun.more {header : PictureHeader} {buf : Buffer} {count y stop : Nat}
    (fits : header.RowFits y) (rest : CursorRun header buf count (y + 1) stop) :
    CursorRun header buf (count + 1) y stop := by
  have bounds := rest.bounds
  rcases pictureRow_indices buf header
    (header.dataOff + header.sourceRow y * cursorRowBytes header) y with ⟨head, row, indices⟩
  rcases rest.stores with ⟨rows, remaining, stores⟩
  have first : ∀ {P : Nat → Prop}, (∀ row, y ≤ row → row < stop → P row) ↔
      P y ∧ ∀ row, y + 1 ≤ row → row < stop → P row := by
    intro P
    constructor
    · intro all
      exact ⟨all y (by omega) (by omega), fun row lower => all row (by omega)⟩
    · rintro ⟨here, others⟩ row lower upper
      by_cases same : row = y
      · rw [same]
        exact here
      · exact others row (by omega) upper
  have run : cursorRows header (count + 1) y = (do
      let row ← pictureRow header
        (header.dataOff + header.sourceRow y * cursorRowBytes header) y
      let rest ← cursorRows header count (y + 1)
      pure (row :: rest)) := by
    rw [cursorRows, if_neg]
    exact Nat.not_lt.mpr fits
  refine ⟨by omega, first.mpr ⟨fits, rest.fits⟩, ?_, ?_, ?_⟩
  · intro early
    exact rest.ends (by omega)
  · refine ⟨head :: rows, ?_, ?_⟩
    · rw [run, PeekM.bind_fst, row, Option.bind_some, PeekM.bind_fst, remaining]
      rfl
    · intro index
      simp only [List.flatten_cons, List.mem_append, or_and_right, exists_or, indices, stores]
      constructor
      · intro stored
        rcases stored with here | ⟨other, bounds, column⟩
        · exact ⟨y, by omega, here⟩
        · exact ⟨other, by omega, column⟩
      · rintro ⟨other, bounds, column⟩
        by_cases same : other = y
        · rw [same] at column
          exact .inl column
        · exact .inr ⟨other, by omega, column⟩
  · intro limit
    rw [run, readsBelow_bind, first, ← rest.reads limit, row]
    simp only [Option.some.injEq, forall_eq', readsBelow_bind, readsBelow_pure, implies_true,
      and_true]

theorem cursorRows_run (header : PictureHeader) (buf : Buffer) (count y : Nat) :
    ∃ stop, CursorRun header buf count y stop := by
  induction count generalizing y with
  | zero => exact ⟨y, .nothing rfl (by omega)⟩
  | succ count induction =>
      by_cases fits : header.RowFits y
      · rcases induction (y + 1) with ⟨stop, rest⟩
        exact ⟨stop, rest.more fits⟩
      · refine ⟨y, .nothing ?_ fun _ => fits⟩
        rw [cursorRows, if_pos]
        exact Nat.not_le.mp fits

/-- How many rows the file must have for row `sy` to be decoded. The rows of a file that
is stored from the bottom up are decoded from its end on. -/
def PictureHeader.rowsNeeded (header : PictureHeader) (sy : Nat) : Nat :=
  if header.topDown then sy + 1 else header.h

section

variable {header : PictureHeader} {buf : Buffer} {stop : Nat} (accepted : header.Accepted 4194304)
  (run : CursorRun header buf header.h 0 stop)
include accepted run

/-- A row that is too wide for 32 bits is read outside the file. -/
theorem CursorRun.stop_eq_zero (depth : header.depth = .bits32) (wide : 1073741824 ≤ header.w)
    (reads : ReadsBelow header.fileSize (cursorRows header header.h 0) buf) : stop = 0 := by
  by_contra some
  have size := accepted.size
  have row := (run.reads header.fileSize).mp reads 0 (by omega) (by omega)
  have byte := (pictureRow_readsBelow (.inr depth) buf _ _ _).mp row 1073741823 (by omega) 0
    (by rw [depth]; decide)
  rw [depth, show BmpDepth.bits32.bytes = 4 from rfl, u32_of_lt (by omega)] at byte
  omega

variable (narrow : header.w < 1073741824)
include narrow

omit run in
theorem cursorRowBytes_eq : cursorRowBytes header = header.w.toNat * 4 := by
  have width := accepted.width
  exact u32_of_lt (by omega)

/-- The rows that are decoded are in the file. -/
theorem CursorRun.readsBelow (depth : header.depth = .bits32)
    (inside : header.dataOff < header.fileSize) :
    ReadsBelow header.fileSize (cursorRows header header.h 0) buf := by
  have size := accepted.size
  rw [run.reads]
  intro row lower upper
  have fits := run.fits row lower upper
  rw [PictureHeader.RowFits] at fits
  rw [pictureRow_readsBelow (.inr depth)]
  intro x column k byte
  rw [depth, show BmpDepth.bits32.bytes = 4 from rfl] at byte ⊢
  have bytes := cursorRowBytes_eq accepted narrow
  rw [u32_of_lt (by omega)]
  omega

theorem CursorRun.words : stop * (header.w.toNat * 4) ≤ header.fileSize - header.dataOff := by
  have bounds := run.bounds
  have bytes := cursorRowBytes_eq accepted narrow
  by_cases none : stop = 0
  · rw [none, Nat.zero_mul]
    exact Nat.zero_le _
  · cases order : header.topDown with
    | true =>
        have last := run.fits (stop - 1) (by omega) (by omega)
        simp only [PictureHeader.RowFits, PictureHeader.sourceRow, order, if_true, bytes] at last
        rw [← Nat.succ_mul, Nat.succ_eq_add_one, Nat.sub_add_cancel (by omega)] at last
        exact last
    | false =>
        have first := run.fits 0 (by omega) (by omega)
        simp only [PictureHeader.RowFits, PictureHeader.sourceRow, order, Bool.false_eq_true,
          if_false, bytes, Nat.sub_zero] at first
        rw [← Nat.succ_mul, Nat.succ_eq_add_one, Nat.sub_add_cancel accepted.height.1] at first
        have rows : stop * (header.w.toNat * 4) ≤ header.h * (header.w.toNat * 4) :=
          Nat.mul_le_mul_right _ (by omega)
        omega

theorem CursorRun.lt_stop_iff {sy : Nat} (below : sy < header.h) :
    sy < stop ↔
      header.rowsNeeded sy * (header.w.toNat * 4) ≤ header.fileSize - header.dataOff := by
  have bounds := run.bounds
  have bytes := cursorRowBytes_eq accepted narrow
  have height := accepted.height
  have fits : ∀ row, header.RowFits row ↔
      (header.sourceRow row + 1) * (header.w.toNat * 4) ≤ header.fileSize - header.dataOff := by
    intro row
    rw [PictureHeader.RowFits, bytes, Nat.succ_mul]
  cases order : header.topDown with
  | true =>
      simp only [PictureHeader.rowsNeeded, order, if_true]
      constructor
      · intro decoded
        have row := (fits sy).mp (run.fits sy (by omega) decoded)
        simp only [PictureHeader.sourceRow, order, if_true] at row
        exact row
      · intro enough
        by_contra beyond
        refine run.ends (by omega) ((fits stop).mpr ?_)
        simp only [PictureHeader.sourceRow, order, if_true]
        have rows : (stop + 1) * (header.w.toNat * 4) ≤ (sy + 1) * (header.w.toNat * 4) :=
          Nat.mul_le_mul_right _ (by omega)
        omega
  | false =>
      simp only [PictureHeader.rowsNeeded, order, Bool.false_eq_true, if_false]
      constructor
      · intro decoded
        have row := (fits 0).mp (run.fits 0 (by omega) (by omega))
        simp only [PictureHeader.sourceRow, order, Bool.false_eq_true, if_false, Nat.sub_zero]
          at row
        rw [Nat.sub_add_cancel height.1] at row
        exact row
      · intro enough
        by_contra beyond
        refine run.ends (by omega) ((fits stop).mpr ?_)
        simp only [PictureHeader.sourceRow, order, Bool.false_eq_true, if_false]
        have rows : (header.h - 1 - stop + 1) * (header.w.toNat * 4) ≤
            header.h * (header.w.toNat * 4) := Nat.mul_le_mul_right _ (by omega)
        omega

/-- A word of the picture was stored exactly if its row was decoded. -/
theorem CursorRun.cellAt_iff {rows : List (List (Nat × Nat))} {sy sx : Nat}
    (decoded : (cursorRows header header.h 0 buf).1 = some rows) (column : sx < header.w.toNat) :
    cellAt rows.flatten ((sy * header.w.toNat + sx : Nat) : Int) ≠ none ↔ sy < stop := by
  have size := accepted.size
  have words := run.words accepted narrow
  rcases run.stores with ⟨rows', decoded', stores⟩
  have same : rows = rows' := Option.some.inj (decoded.symm.trans decoded')
  have stored : ∀ index : Nat, (∃ store ∈ rows.flatten, (store.1 : Int) = index) ↔
      ∃ store ∈ rows.flatten, store.1 = index := by
    intro index
    simp only [Int.natCast_inj]
  have place : ∀ row x, row < stop → x < header.w.toNat →
      u32 (row * header.w.toNat + x) = row * header.w.toNat + x := by
    intro row x decoded column
    have rows : (row + 1) * (header.w.toNat * 4) ≤ stop * (header.w.toNat * 4) :=
      Nat.mul_le_mul_right _ decoded
    rw [Nat.succ_mul, ← Nat.mul_assoc] at rows
    exact u32_of_lt (by omega)
  rw [cellAt_ne_none, stored, same, stores]
  constructor
  · rintro ⟨row, bounds, x, inside, index⟩
    rw [place row x bounds.2 inside] at index
    have first : (row * header.w.toNat + x) / header.w.toNat = row := by
      rw [Nat.mul_comm, Nat.mul_add_div (by omega), Nat.div_eq_of_lt inside, Nat.add_zero]
    have second : (sy * header.w.toNat + sx) / header.w.toNat = sy := by
      rw [Nat.mul_comm, Nat.mul_add_div (by omega), Nat.div_eq_of_lt column, Nat.add_zero]
    rw [index, second] at first
    omega
  · intro decoded
    exact ⟨sy, by omega, sx, column, place sy sx decoded column⟩

end

/-! ## The smaller copy -/

theorem forall_drawnPixels {w h : Int} {pixel : Int → Int → Option Nat} :
    (∀ drawn ∈ drawnPixels w h pixel, drawn ≠ none) ↔
      ∀ y < h.toNat, ∀ x < w.toNat, pixel y x ≠ none := by
  simp only [drawnPixels, List.mem_flatMap, List.mem_map, List.mem_range]
  constructor
  · intro all y row x column
    exact all _ ⟨y, row, x, column, rfl⟩
  · rintro all drawn ⟨y, row, x, column, value⟩
    rw [← value]
    exact all y row x column

/-- With memory for a copy, the words that are drawn are those of the pixels that the
copy takes. -/
theorem forall_cursorScale {w : Int} {h : Nat} {stores : List (Nat × Nat)} (width : w ≠ 0)
    (height : s32 h ≠ 0) :
    (∀ drawn ∈ (cursorScale true w h stores).pixels, drawn ≠ none) ↔
      ∀ y < (cursorTarget w h).2.toNat, ∀ x < (cursorTarget w h).1.toNat,
        cellAt stores ((y * s32 h).tdiv (cursorTarget w h).2 * w +
          (x * w).tdiv (cursorTarget w h).1) ≠ none := by
  simp only [cursorScale, and_true]
  split
  · simp only [forall_drawnPixels]
  · next same =>
      simp only [ne_eq, not_or, not_not] at same
      simp only [forall_drawnPixels, same.1, same.2, Int.mul_tdiv_cancel _ width,
        Int.mul_tdiv_cancel _ height]

theorem cursorTarget_pos {w : Int} {h : Nat} (width : 0 < w) (height : 0 < s32 h) :
    0 < (cursorTarget w h).1 ∧ 0 < (cursorTarget w h).2 := by
  simp only [cursorTarget]
  split
  · constructor
    · simp only
      split <;> omega
    · simp only
      split <;> omega
  · exact ⟨width, height⟩

/-- A height that has no positive number of type `int`. -/
theorem cursorTarget_least {w : Int} (wide : 32 < w) (narrow : w < 2147483648) :
    ∃ height : Nat, cursorTarget w 2147483648 = (32, (height : Int)) ∧ 32 ≤ height ∧
      height < 2147483648 := by
  have low : 32 ≤ 68719476736 / w := by
    rw [Int.le_ediv_iff_mul_le (by omega)]
    omega
  have high : 68719476736 / w < 2147483648 := by
    rw [Int.ediv_lt_iff_lt_mul (by omega)]
    omega
  have least : s32 2147483648 = -2147483648 := by decide
  refine ⟨(68719476736 / w).toNat, ?_, by omega, by omega⟩
  have scaled : s32 (toU32 (68719476736 / w)) = 68719476736 / w := by
    rw [toU32, Int.emod_eq_of_lt (by omega) (by omega), s32_of_lt (by omega)]
    omega
  have product : ((2147483648 : Nat) : Int) * 32 = 68719476736 := by decide
  have order : w ≥ -2147483648 := by omega
  have tall : ¬ 68719476736 / w < 8 := by omega
  simp only [cursorTarget, cursorMaxDim, least, product, scaled, if_pos order, if_neg tall]
  rw [if_pos (.inl wide), Int.toNat_of_nonneg (by omega)]
  rfl

/-- The last row that is drawn. -/
def PictureHeader.lastDrawn (header : PictureHeader) : Nat :=
  ((cursorTarget header.w header.h).2.toNat - 1) * header.h /
    (cursorTarget header.w header.h).2.toNat

theorem PictureHeader.lastDrawn_lt {header : PictureHeader} {limit : Nat}
    (accepted : header.Accepted limit) (positive : header.h < 2147483648) :
    header.lastDrawn < header.h := by
  have height := accepted.height
  have sides := cursorTarget_pos accepted.width.1 (show 0 < s32 header.h by
    rw [s32_of_lt positive]
    omega)
  exact nearest_lt (by omega) (by omega)

/-- All words that are drawn were stored exactly if the last row that is drawn was
decoded. -/
theorem CursorRun.drawn_iff {header : PictureHeader} {buf : Buffer} {stop : Nat}
    {rows : List (List (Nat × Nat))} (accepted : header.Accepted 4194304)
    (run : CursorRun header buf header.h 0 stop) (narrow : header.w < 1073741824)
    (positive : header.h < 2147483648)
    (decoded : (cursorRows header header.h 0 buf).1 = some rows) :
    (∀ drawn ∈ (cursorScale true header.w header.h rows.flatten).pixels, drawn ≠ none) ↔
      header.lastDrawn < stop := by
  have width := accepted.width
  have height := accepted.height
  have same : s32 header.h = header.h := s32_of_lt positive
  have sides := cursorTarget_pos width.1 (show 0 < s32 header.h by omega)
  have columns : 0 < (cursorTarget header.w header.h).1.toNat := by omega
  have lines : 0 < (cursorTarget header.w header.h).2.toNat := by omega
  have place : ∀ y x : Nat,
      (y * s32 header.h).tdiv (cursorTarget header.w header.h).2 * header.w +
          (x * header.w).tdiv (cursorTarget header.w header.h).1 =
        ((y * header.h / (cursorTarget header.w header.h).2.toNat * header.w.toNat +
          x * header.w.toNat / (cursorTarget header.w header.h).1.toNat : Nat) : Int) := by
    intro y x
    have row : ((y : Int) * s32 header.h).tdiv (cursorTarget header.w header.h).2 =
        ((y * header.h / (cursorTarget header.w header.h).2.toNat : Nat) : Int) := by
      rw [same, Int.ofNat_tdiv, Int.natCast_mul, Int.toNat_of_nonneg (by omega)]
    have column : ((x : Int) * header.w).tdiv (cursorTarget header.w header.h).1 =
        ((x * header.w.toNat / (cursorTarget header.w header.h).1.toNat : Nat) : Int) := by
      rw [Int.ofNat_tdiv, Int.natCast_mul, Int.toNat_of_nonneg (by omega),
        Int.toNat_of_nonneg (by omega)]
    rw [row, column, Int.natCast_add, Int.natCast_mul, Int.toNat_of_nonneg (by omega)]
  rw [forall_cursorScale (by omega) (by omega), PictureHeader.lastDrawn]
  simp only [place]
  generalize (cursorTarget header.w header.h).1.toNat = targetW at columns
  generalize (cursorTarget header.w header.h).2.toNat = targetH at lines
  have inside : ∀ x < targetW, x * header.w.toNat / targetW < header.w.toNat := by
    intro x column
    exact nearest_lt (by omega) column
  constructor
  · intro stored
    have last := stored (targetH - 1) (by omega) 0 columns
    exact (run.cellAt_iff accepted narrow decoded (inside 0 columns)).mp last
  · intro last y row x column
    rw [run.cellAt_iff accepted narrow decoded (inside x column)]
    have earlier : y * header.h / targetH ≤ (targetH - 1) * header.h / targetH :=
      Nat.div_le_div_right (Nat.mul_le_mul_right _ (by omega))
    omega

/-! ## What is drawn -/

/-- The file has the rows that are drawn; a file from the bottom up has all rows. The
least height is taken for a negative one, of which nothing is drawn unless it is
scaled. -/
def PictureHeader.CursorComplete (header : PictureHeader) : Prop :=
  header.h = 2147483648 ∧ header.w ≤ 32 ∨
    header.h < 2147483648 ∧
      header.dataOff + header.rowsNeeded header.lastDrawn * (header.w.toNat * 4) ≤ header.fileSize

/-- Only bytes of the file were read, and every word of the cursor was stored. -/
def cursorSound (granted : Nat → Bool) (length fileSize : Nat) (buf : Buffer)
    (image : CursorImage) : Prop :=
  ReadsBelow fileSize (cursorLoadFromDisk granted length) buf ∧
    ∀ drawn ∈ image.pixels, drawn ≠ none

section

variable {header : PictureHeader} {buf : Buffer} {stop : Nat} {rows : List (List (Nat × Nat))}
  (accepted : header.Accepted 4194304) (depth : header.depth = .bits32)
  (inside : header.dataOff < header.fileSize) (run : CursorRun header buf header.h 0 stop)
  (decoded : (cursorRows header header.h 0 buf).1 = some rows)
include accepted depth inside run decoded

omit decoded in
/-- Of the least height nothing is drawn, or words before the picture. -/
theorem CursorRun.sound_least (least : header.h = 2147483648) :
    (ReadsBelow header.fileSize (cursorRows header header.h 0) buf ∧
      ∀ drawn ∈ (cursorScale true header.w header.h rows.flatten).pixels, drawn ≠ none) ↔
      header.w ≤ 32 := by
  have width := accepted.width
  have negative : s32 header.h = -2147483648 := by
    rw [least]
    decide
  rw [forall_cursorScale (by omega) (by omega)]
  constructor
  · rintro ⟨_, stored⟩
    by_contra wide
    rcases cursorTarget_least (show 32 < header.w by omega) width.2 with
      ⟨height, target, tall, small⟩
    rw [negative, least, target] at stored
    simp only [Int.toNat_natCast] at stored
    have word := stored 1 (by omega) 0 (show 0 < 32 by omega)
    rcases cellAt_ne_none.mp word with ⟨store, _, index⟩
    have row : ((1 : Nat) * (-2147483648) : Int).tdiv height ≤ -1 := by
      have quotient : 1 ≤ (2147483648 : Int) / height := by
        rw [Int.le_ediv_iff_mul_le (by omega)]
        omega
      rw [Int.natCast_one, Int.one_mul, Int.neg_tdiv, Int.tdiv_eq_ediv_of_nonneg (by omega)]
      omega
    have before := Int.mul_le_mul_of_nonneg_right row (show 0 ≤ header.w by omega)
    rw [Int.natCast_zero, Int.zero_mul, Int.zero_tdiv] at index
    omega
  · intro small
    refine ⟨run.readsBelow accepted (by omega) depth inside, ?_⟩
    have target : (cursorTarget header.w header.h).2 = -2147483648 := by
      rw [cursorTarget, negative, if_neg]
      simp only [cursorMaxDim]
      omega
    rw [target]
    intro y row
    exact absurd row (Nat.not_lt_zero y)

theorem CursorRun.sound_iff (positive : header.h < 2147483648) :
    (ReadsBelow header.fileSize (cursorRows header header.h 0) buf ∧
      ∀ drawn ∈ (cursorScale true header.w header.h rows.flatten).pixels, drawn ≠ none) ↔
      header.dataOff + header.rowsNeeded header.lastDrawn * (header.w.toNat * 4) ≤
        header.fileSize := by
  have width := accepted.width
  have size := accepted.size
  have height := accepted.height
  have below := PictureHeader.lastDrawn_lt accepted positive
  by_cases narrow : header.w < 1073741824
  · have reads := run.readsBelow accepted narrow depth inside
    rw [run.drawn_iff accepted narrow positive decoded, run.lt_stop_iff accepted narrow below]
    constructor
    · intro both
      omega
    · intro enough
      exact ⟨reads, by omega⟩
  · constructor
    · rintro ⟨reads, stored⟩
      have none := run.stop_eq_zero accepted depth (by omega) reads
      rw [forall_cursorScale (by omega) (by rw [s32_of_lt positive]; omega)] at stored
      have sides := cursorTarget_pos width.1 (show 0 < s32 header.h by
        rw [s32_of_lt positive]
        omega)
      have word := stored 0 (by omega) 0 (by omega)
      rcases cellAt_ne_none.mp word with ⟨store, member, _⟩
      rcases run.stores with ⟨rows', decoded', stores⟩
      rw [Option.some.inj (decoded.symm.trans decoded')] at member
      rcases (stores store.1).mp ⟨store, member, rfl⟩ with ⟨row, bounds, _⟩
      omega
    · intro enough
      have some : 1 ≤ header.rowsNeeded header.lastDrawn := by
        rw [PictureHeader.rowsNeeded]
        split <;> omega
      have bytes := Nat.mul_le_mul_right (header.w.toNat * 4) some
      omega

end

theorem cursorSound_iff {granted : Nat → Bool} {length : Nat} {buf : Buffer}
    {header : PictureHeader} {image : CursorImage}
    (accepted : cursorHeader length buf = some header) (enough : granted 2 = true)
    (ran : (cursorLoadFromDisk granted length buf).1 = some (some image)) :
    cursorSound granted length header.fileSize buf image ↔ header.CursorComplete := by
  rcases accepted_of_cursorHeader accepted with ⟨fields, depth⟩
  have height := fields.height
  have loaded : cursorLoadFromDisk granted length buf =
      withPicture granted length (some header) (cursorDecode granted) buf := by
    rw [cursorLoadFromDisk, accepted]
  rw [loaded] at ran
  rcases @of_withPicture _ granted length header.fileSize buf header _ image ran with
    ⟨inside, decoded, reads⟩
  rcases cursorRows_run header buf header.h 0 with ⟨stop, run⟩
  rcases run.stores with ⟨rows, decodedRows, _⟩
  rw [cursorDecode, PeekM.bind_fst, decodedRows, enough] at decoded
  simp only [Option.bind_some, PeekM.pure_apply, Option.some.injEq] at decoded
  have decodeReads : ReadsBelow header.fileSize (cursorDecode granted header) buf ↔
      ReadsBelow header.fileSize (cursorRows header header.h 0) buf := by
    rw [cursorDecode, readsBelow_bind]
    simp
  rw [cursorSound, ReadsBelow, loaded, ← ReadsBelow, reads, decodeReads, ← decoded,
    PictureHeader.CursorComplete]
  by_cases least : header.h = 2147483648
  · rw [run.sound_least fields depth inside least]
    simp only [least, true_and, Nat.lt_irrefl, false_and, or_false]
  · have positive : header.h < 2147483648 := by omega
    rw [run.sound_iff fields depth inside decodedRows positive]
    simp only [least, false_and, false_or, positive, true_and]

/-- The viewer and the cursor read only the file and draw only what they decoded exactly
if the file has the rows for it. -/
theorem bmpDecoders_sound_iff (granted : Nat → Bool) (length : Nat) (buf : Buffer)
    (header : PictureHeader) :
    (∀ picture, imgviewHeader length buf = some header →
      (imgviewLoadBmpFile granted length buf).1 = some (some picture) →
      (imgviewSound granted length header.fileSize buf picture ↔ header.Complete)) ∧
    (∀ image, cursorHeader length buf = some header → granted 2 = true →
      (cursorLoadFromDisk granted length buf).1 = some (some image) →
      (cursorSound granted length header.fileSize buf image ↔ header.CursorComplete)) := by
  constructor
  · intro picture accepted ran
    exact imgviewSound_iff accepted ran
  · intro image accepted enough ran
    exact cursorSound_iff accepted enough ran

/-- A file of 58 bytes with rows of one pixel. -/
def columnBmp (height bpp : UInt8) : Buffer := Buffer.ofList
  [0x42, 0x4D, 58, 0, 0, 0, 0, 0, 0, 0, 54, 0, 0, 0, 40, 0, 0, 0, 1, 0, 0, 0, height, 0, 0, 0, 1, 0,
    bpp, 0, 0, 0, 0, 0, 4, 0, 0, 0, 0, 0, 0, 0, 0, 0, 0, 0, 0, 0, 0, 0, 0, 0, 0, 0, 1, 2, 3, 0xFF]

theorem bmpDecoders_sound_onePixel :
    imgviewSound (fun _ => true) 58 58 (columnBmp 1 24) ⟨1, 1, [(0, 0xFF030201)]⟩ ∧
      cursorSound (fun _ => true) 58 58 (columnBmp 1 32) ⟨1, 1, [some 0xFF030201]⟩ := by
  have viewed : imgviewHeader 58 (columnBmp 1 24) = some ⟨58, 54, 1, 1, .bits24⟩ := by decide
  have viewer : (imgviewLoadBmpFile (fun _ => true) 58 (columnBmp 1 24)).1 =
      some (some ⟨1, 1, [(0, 0xFF030201)]⟩) := by decide
  have accepted : cursorHeader 58 (columnBmp 1 32) = some ⟨58, 54, 1, 1, .bits32⟩ := by decide
  have cursor : (cursorLoadFromDisk (fun _ => true) 58 (columnBmp 1 32)).1 =
      some (some ⟨1, 1, [some 0xFF030201]⟩) := by decide
  refine ⟨?_, ?_⟩
  · exact ((bmpDecoders_sound_iff _ _ _ _).1 _ viewed viewer).mpr (by
      unfold PictureHeader.Complete
      decide)
  · exact ((bmpDecoders_sound_iff _ _ _ _).2 _ accepted rfl cursor).mpr (by
      unfold PictureHeader.CursorComplete
      decide)

/-- Of a file with one row where its header says two, the viewer reads the row behind the
end, and the cursor draws two pixels that it never stored. -/
theorem bmpDecoders_leave_file :
    (¬ ∀ (granted : Nat → Bool) (length : Nat) (buf : Buffer) (header : PictureHeader)
      (picture : Picture), imgviewHeader length buf = some header →
      (imgviewLoadBmpFile granted length buf).1 = some (some picture) →
      imgviewSound granted length header.fileSize buf picture) ∧
    ¬ ∀ (granted : Nat → Bool) (length : Nat) (buf : Buffer) (header : PictureHeader)
      (image : CursorImage), cursorHeader length buf = some header →
      (∀ request, granted request = true) →
      (cursorLoadFromDisk granted length buf).1 = some (some image) →
      cursorSound granted length header.fileSize buf image := by
  refine ⟨?_, ?_⟩
  · intro claim
    have accepted : imgviewHeader 58 (columnBmp 2 24) = some ⟨58, 54, 1, 2, .bits24⟩ := by decide
    have ran : (imgviewLoadBmpFile (fun _ => true) 58 (columnBmp 2 24)).1 =
        some (some ⟨1, 2, [(0, 0xFF000000), (1, 0xFF030201)]⟩) := by decide
    have complete := (imgviewSound_iff accepted ran).mp (claim _ _ _ _ _ accepted ran)
    unfold PictureHeader.Complete at complete
    exact absurd complete (by decide)
  · intro claim
    have accepted : cursorHeader 58 (columnBmp 2 32) = some ⟨58, 54, 1, 2, .bits32⟩ := by decide
    have ran : (cursorLoadFromDisk (fun _ => true) 58 (columnBmp 2 32)).1 =
        some (some ⟨1, 2, [none, none]⟩) := by decide
    have sound := claim _ _ _ _ _ accepted (fun _ => rfl) ran
    exact absurd sound.2 (by decide)

end ParanOS

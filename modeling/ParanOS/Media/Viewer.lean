import ParanOS.Foundation.Grid
import ParanOS.Media.Bmp

/-! # The image viewer

What `imgview_load_bmp` and `cursor_load_from_disk` of `kernel.c` have in common, the header
and the way a file is loaded and a row is decoded, and the first of them. The viewer decodes
all rows without a check. The decoders start from the contents of the file; the reads of the
disk that bring it are modelled with the windows. The memory for a decoded picture is the list
of the stores into it, so a word of it may be one that nothing was stored into.
-/

namespace ParanOS

open Foundation

/-! ## Loading -/

structure PictureHeader where
  fileSize : Nat
  dataOff : Nat
  w : Int
  hRaw : Int
  depth : BmpDepth
  deriving DecidableEq

/-- The header of a file of `length` bytes. The decoders differ in the size and the
depths that they know. -/
def pictureHeader (limit : Nat) (known : BmpDepth → Bool) (length : Nat) (buf : Buffer) :
    Option PictureHeader :=
  if min length 128 < 54 then none
  else if buf 0 ≠ 0x42 ∨ buf 1 ≠ 0x4D then none -- 'B' 'M'
  else
    let fileSize := buf.getU32 2
    let dataOff := buf.getU32 10
    let w := s32 (buf.getU32 18)
    let hRaw := s32 (buf.getU32 22)
    let planes := buf.getU16 26
    let comp := buf.getU32 30
    if fileSize = 0 ∨ fileSize > limit then none
    else
      match BmpDepth.ofBpp (buf.getU16 28) with
      | none => none
      | some depth =>
          if planes ≠ 1 ∨ ¬ known depth ∨ comp ≠ 0 ∨ w ≤ 0 ∨ hRaw = 0 then none
          else some ⟨fileSize, dataOff, w, hRaw, depth⟩

def imgviewHeader (length : Nat) (buf : Buffer) : Option PictureHeader :=
  pictureHeader (8 * 1024 * 1024) (fun depth => depth = .bits24 ∨ depth = .bits32) length buf

namespace PictureHeader

def h (header : PictureHeader) : Nat :=
  if header.hRaw < 0 then toU32 (-header.hRaw) else toU32 header.hRaw

def topDown (header : PictureHeader) : Bool := header.hRaw < 0

/-- The row of the file that row `y` of the picture is. -/
def sourceRow (header : PictureHeader) (y : Nat) : Nat :=
  if header.topDown then y else header.h - 1 - y

end PictureHeader

/-- The file and the memory for the picture, then the picture. `granted` is whether
`kmalloc` grants the requests, in order. -/
def withPicture {α : Type} (granted : Nat → Bool) (length : Nat) (header : Option PictureHeader)
    (decode : PictureHeader → PeekM α) : PeekM (Option α) :=
  match header with
  | none => pure none
  | some header =>
      if ¬ granted 0 then pure none
      else if min length header.fileSize < header.fileSize then pure none
      else if header.dataOff ≥ header.fileSize then pure none
      else if ¬ granted 1 then pure none
      else do
        let picture ← decode header
        pure (some picture)

/-! ## Decoding -/

/-- The pixel in column `x` of the row at `row`. -/
def picturePixel (depth : BmpDepth) (row x : Nat) : PeekM Nat := do
  let b ← peek8 (row + u32 (x * (depth.bpp / 8)))
  let g ← peek8 (row + u32 (x * (depth.bpp / 8) + 1))
  let r ← peek8 (row + u32 (x * (depth.bpp / 8) + 2))
  let a ← if depth = .bits32 then peek8 (row + u32 (x * 4 + 3)) else pure 0xFF
  pure (argb a r g b)

/-- A row of the picture: its stores, by index. -/
def pictureRow (header : PictureHeader) (row y : Nat) : PeekM (List (Nat × Nat)) :=
  PeekM.each (fun x => do
    let value ← picturePixel header.depth row x
    pure (u32 (y * header.w.toNat + x), value)) (List.range header.w.toNat)

/-- What a word of a picture's memory holds, `none` if nothing was stored. The index is
of type `int`; one that does not fit is a word outside the memory. -/
def cellAt (stores : List (Nat × Nat)) (index : Int) : Option Nat :=
  (stores.reverse.find? fun store => (store.1 : Int) = index).map Prod.snd

structure Picture where
  w : Int
  h : Int
  stores : List (Nat × Nat)
  deriving DecidableEq

def imgviewRowBytes (header : PictureHeader) : Nat :=
  u32 (u32 (header.w.toNat * header.depth.bpp) + 31) / 32 * 4

def imgviewRow (header : PictureHeader) (y : Nat) : PeekM (List (Nat × Nat)) :=
  pictureRow header
    (header.dataOff + u32 (header.sourceRow y * imgviewRowBytes header)) y

def imgviewDecode (header : PictureHeader) : PeekM Picture := do
  let rows ← PeekM.each (imgviewRow header) (List.range header.h)
  pure ⟨header.w, s32 header.h, rows.flatten⟩

/-- `imgview_load_bmp` of a file: the picture, or `none` where the source returns -1. -/
def imgviewLoadBmpFile (granted : Nat → Bool) (length : Nat) : PeekM (Option Picture) := fun buf =>
  withPicture granted length (imgviewHeader length buf) imgviewDecode buf

/-! ## Headers that are accepted -/

/-- The fields of a header that is accepted. -/
structure PictureHeader.Accepted (header : PictureHeader) (limit : Nat) : Prop where
  size : header.fileSize ≤ limit
  width : 0 < header.w ∧ header.w < 2147483648
  height : 1 ≤ header.h ∧ header.h ≤ 2147483648

theorem accepted_of_pictureHeader {limit length : Nat} {known : BmpDepth → Bool} {buf : Buffer}
    {header : PictureHeader} (accepted : pictureHeader limit known length buf = some header) :
    header.Accepted limit ∧ known header.depth := by
  rw [pictureHeader] at accepted
  split at accepted
  · simp at accepted
  · split at accepted
    · simp at accepted
    · simp only at accepted
      split at accepted
      · simp at accepted
      · split at accepted
        · simp at accepted
        · next size depth _ =>
            split at accepted
            · simp at accepted
            · next fields =>
                simp only [not_or, not_not] at fields size
                rw [← Option.some.inj accepted]
                have width := s32_bounds (buf.getU32_lt 18)
                have height := s32_bounds (buf.getU32_lt 22)
                refine ⟨⟨?_, ⟨?_, width.2⟩, ?_⟩, fields.2.1⟩
                · simp only
                  omega
                · simp only
                  omega
                · simp only [PictureHeader.h, toU32]
                  split <;> omega

theorem accepted_of_imgviewHeader {length : Nat} {buf : Buffer} {header : PictureHeader}
    (accepted : imgviewHeader length buf = some header) :
    header.Accepted 8388608 ∧ (header.depth = .bits24 ∨ header.depth = .bits32) := by
  rcases accepted_of_pictureHeader accepted with ⟨fields, known⟩
  exact ⟨fields, of_decide_eq_true known⟩

/-- A file that was loaded, and what the decoder does with it. -/
theorem of_withPicture {α : Type} {granted : Nat → Bool} {length limit : Nat} {buf : Buffer}
    {header : PictureHeader} {decode : PictureHeader → PeekM α} {picture : α}
    (ran : (withPicture granted length (some header) decode buf).1 = some (some picture)) :
    header.dataOff < header.fileSize ∧ (decode header buf).1 = some picture ∧
      (ReadsBelow limit (withPicture granted length (some header) decode) buf ↔
        ReadsBelow limit (decode header) buf) := by
  simp only [withPicture] at ran ⊢
  split at ran
  · simp at ran
  next first =>
  rw [if_neg first]
  split at ran
  · simp at ran
  next read =>
  rw [if_neg read]
  split at ran
  · simp at ran
  next inside =>
  rw [if_neg inside]
  split at ran
  · simp at ran
  next second =>
  rw [if_neg second, readsBelow_bind]
  simp only [PeekM.bind_fst, PeekM.pure_apply, Option.bind_eq_some_iff, Option.some.injEq] at ran
  rcases ran with ⟨value, decoded, same⟩
  rw [← same]
  exact ⟨by omega, decoded, by simp⟩

/-! ## Rows -/

/-- The bytes of a pixel. -/
def BmpDepth.bytes (depth : BmpDepth) : Nat := depth.bpp / 8

section

variable {depth : BmpDepth} (known : depth = .bits24 ∨ depth = .bits32)
include known

theorem BmpDepth.bytes_bounds : 3 ≤ depth.bytes ∧ depth.bytes ≤ 4 ∧
    depth.bpp = 8 * depth.bytes := by
  rcases known with rfl | rfl <;> decide

theorem picturePixel_readsBelow (buf : Buffer) (limit row x : Nat) :
    ReadsBelow limit (picturePixel depth row x) buf ↔
      ∀ k < depth.bytes, row + u32 (x * depth.bytes + k) < limit := by
  have first : ∀ {P : Nat → Prop}, (∀ k < 3, P k) ↔ P 0 ∧ P 1 ∧ P 2 := by
    intro P
    constructor
    · intro all
      exact ⟨all 0 (by omega), all 1 (by omega), all 2 (by omega)⟩
    · rintro ⟨zero, one, two⟩ k below
      have cases : k = 0 ∨ k = 1 ∨ k = 2 := by omega
      rcases cases with rfl | rfl | rfl
      · exact zero
      · exact one
      · exact two
  have four : ∀ {P : Nat → Prop}, (∀ k < 4, P k) ↔ P 0 ∧ P 1 ∧ P 2 ∧ P 3 := by
    intro P
    constructor
    · intro all
      exact ⟨all 0 (by omega), all 1 (by omega), all 2 (by omega), all 3 (by omega)⟩
    · rintro ⟨zero, one, two, three⟩ k below
      have cases : k < 3 ∨ k = 3 := by omega
      rcases cases with less | rfl
      · exact (@first P).mpr ⟨zero, one, two⟩ k less
      · exact three
  rcases known with rfl | rfl
  · simp [picturePixel, readsBelow_bind, BmpDepth.bytes, BmpDepth.bpp, first]
  · simp [picturePixel, readsBelow_bind, BmpDepth.bytes, BmpDepth.bpp, four]

end

theorem picturePixel_returns (buf : Buffer) (depth : BmpDepth) (row x : Nat) :
    ∃ value, (picturePixel depth row x buf).1 = some value := by
  simp only [picturePixel, PeekM.bind_fst, peek8_fst, Option.bind_some]
  split
  · exact ⟨_, rfl⟩
  · exact ⟨_, rfl⟩

/-- The stores of a row, by their indices. -/
theorem pictureRow_stores (buf : Buffer) (header : PictureHeader) :
    ∃ values : Nat → Nat → Nat, ∀ row y,
      (pictureRow header row y buf).1 = some ((List.range header.w.toNat).map fun x =>
        (u32 (y * header.w.toNat + x), values row x)) ∧
      ∀ x, (((picturePixel header.depth row x) >>= fun value =>
        pure (u32 (y * header.w.toNat + x), value) : PeekM (Nat × Nat)) buf).1 =
          some (u32 (y * header.w.toNat + x), values row x) := by
  have pixels := fun row x => picturePixel_returns buf header.depth row x
  choose values returned using pixels
  refine ⟨values, ?_⟩
  intro row y
  have stores : ∀ x, (((picturePixel header.depth row x) >>= fun value =>
      pure (u32 (y * header.w.toNat + x), value) : PeekM (Nat × Nat)) buf).1 =
        some (u32 (y * header.w.toNat + x), values row x) := by
    intro x
    rw [PeekM.bind_fst, returned]
    rfl
  exact ⟨PeekM.each_fst fun x _ => stores x, stores⟩

/-- A row is stored into the words of its pixels. -/
theorem pictureRow_indices (buf : Buffer) (header : PictureHeader) (row y : Nat) :
    ∃ stores, (pictureRow header row y buf).1 = some stores ∧
      ∀ index, (∃ store ∈ stores, store.1 = index) ↔
        ∃ x < header.w.toNat, u32 (y * header.w.toNat + x) = index := by
  rcases pictureRow_stores buf header with ⟨values, returned⟩
  refine ⟨_, (returned row y).1, ?_⟩
  intro index
  simp

theorem pictureRow_readsBelow {header : PictureHeader}
    (known : header.depth = .bits24 ∨ header.depth = .bits32) (buf : Buffer) (limit row y : Nat) :
    ReadsBelow limit (pictureRow header row y) buf ↔
      ∀ x < header.w.toNat, ∀ k < header.depth.bytes,
        row + u32 (x * header.depth.bytes + k) < limit := by
  rcases pictureRow_stores buf header with ⟨values, returned⟩
  rw [pictureRow, readsBelow_each fun x _ => (returned row y).2 x]
  simp only [List.mem_range, readsBelow_bind, readsBelow_pure, implies_true, and_true,
    picturePixel_readsBelow known]

/-! ## Stores -/

theorem cellAt_ne_none {stores : List (Nat × Nat)} {index : Int} :
    cellAt stores index ≠ none ↔ ∃ store ∈ stores, (store.1 : Int) = index := by
  rw [cellAt, Ne, Option.map_eq_none_iff, List.find?_eq_none]
  simp

/-! ## The viewer -/

/-- The bytes of a row in the file. -/
def PictureHeader.stride (header : PictureHeader) : Nat :=
  (header.w.toNat * header.depth.bpp + 31) / 32 * 4

/-- The file has all rows, the last one up to its last pixel. -/
def PictureHeader.Complete (header : PictureHeader) : Prop :=
  header.dataOff + (header.h - 1) * header.stride + header.w.toNat * header.depth.bytes ≤
    header.fileSize

theorem PictureHeader.stride_bounds {header : PictureHeader}
    (known : header.depth = .bits24 ∨ header.depth = .bits32) :
    header.w.toNat * header.depth.bytes ≤ header.stride ∧
      header.stride ≤ header.w.toNat * header.depth.bytes + 3 := by
  rw [PictureHeader.stride, (BmpDepth.bytes_bounds known).2.2, Nat.mul_left_comm]
  omega

section

variable {header : PictureHeader} (accepted : header.Accepted 8388608)
  (known : header.depth = .bits24 ∨ header.depth = .bits32)
include accepted known

theorem imgviewRowBytes_eq (short : header.w.toNat * header.depth.bytes ≤ header.fileSize) :
    imgviewRowBytes header = header.stride := by
  have size := accepted.size
  have bits : header.w.toNat * header.depth.bpp = 8 * (header.w.toNat * header.depth.bytes) := by
    rw [(BmpDepth.bytes_bounds known).2.2, Nat.mul_left_comm]
  rw [imgviewRowBytes, PictureHeader.stride, bits,
    u32_of_lt (show 8 * (header.w.toNat * header.depth.bytes) < 4294967296 by omega),
    u32_of_lt (by omega)]

/-- All bytes that are read are in the file exactly if the file is complete. Where the
numbers wrap, a byte before the first one that wraps is outside the file already. -/
theorem imgviewBytes_inside_iff (inside : header.dataOff < header.fileSize) :
    (∀ sy < header.h, ∀ x < header.w.toNat, ∀ k < header.depth.bytes,
      header.dataOff + u32 (sy * imgviewRowBytes header) + u32 (x * header.depth.bytes + k) <
        header.fileSize) ↔ header.Complete := by
  have size := accepted.size
  have width := accepted.width
  have height := accepted.height
  have bytes := BmpDepth.bytes_bounds known
  have stride := PictureHeader.stride_bounds known
  constructor
  · intro reads
    have short : header.w.toNat * header.depth.bytes ≤ header.fileSize := by
      by_contra long
      have split := Nat.div_add_mod' header.fileSize header.depth.bytes
      have column : header.fileSize / header.depth.bytes < header.w.toNat := by
        rw [Nat.div_lt_iff_lt_mul (by omega)]
        omega
      have read := reads 0 (by omega) _ column _ (Nat.mod_lt header.fileSize (by omega))
      rw [split, u32_of_lt (show header.fileSize < 4294967296 by omega)] at read
      omega
    rw [imgviewRowBytes_eq accepted known short] at reads
    have some : 0 < header.w.toNat * header.depth.bytes := Nat.mul_pos (by omega) (by omega)
    have rows : (header.h - 1) * header.stride ≤ header.fileSize := by
      by_contra many
      have split := Nat.div_add_mod' header.fileSize header.stride
      have rest := Nat.mod_lt header.fileSize (show 0 < header.stride by omega)
      have row : header.fileSize / header.stride < header.h - 1 := by
        rw [Nat.div_lt_iff_lt_mul (by omega)]
        omega
      have read := reads (header.fileSize / header.stride + 1) (by omega) 0 (by omega) 0 (by omega)
      rw [Nat.succ_mul, u32_of_lt (by omega)] at read
      omega
    have last := reads (header.h - 1) (by omega) (header.w.toNat - 1) (by omega)
      (header.depth.bytes - 1) (by omega)
    have rowEnd : (header.w.toNat - 1) * header.depth.bytes + header.depth.bytes =
        header.w.toNat * header.depth.bytes := by
      rw [← Nat.succ_mul, Nat.succ_eq_add_one, Nat.sub_add_cancel (by omega)]
    rw [u32_of_lt (show (header.h - 1) * header.stride < 4294967296 by omega),
      u32_of_lt (by omega)] at last
    rw [PictureHeader.Complete]
    omega
  · intro complete sy row x column k byte
    rw [PictureHeader.Complete] at complete
    have rows : sy * header.stride ≤ (header.h - 1) * header.stride :=
      Nat.mul_le_mul_right _ (by omega)
    have columns : (x + 1) * header.depth.bytes ≤ header.w.toNat * header.depth.bytes :=
      Nat.mul_le_mul_right _ column
    rw [Nat.succ_mul] at columns
    rw [imgviewRowBytes_eq accepted known (by omega), u32_of_lt (by omega), u32_of_lt (by omega)]
    omega

/-- The pixels of a complete file are fewer than its bytes. -/
theorem PictureHeader.Complete.few (complete : header.Complete) :
    header.h * header.w.toNat ≤ header.fileSize := by
  have bytes := BmpDepth.bytes_bounds known
  have stride := PictureHeader.stride_bounds known
  have height := accepted.height
  have pixels : header.w.toNat * 1 ≤ header.w.toNat * header.depth.bytes :=
    Nat.mul_le_mul_left _ (by omega)
  have rows : (header.h - 1) * header.w.toNat ≤ (header.h - 1) * header.stride :=
    Nat.mul_le_mul_left _ (by omega)
  have split : (header.h - 1) * header.w.toNat + header.w.toNat = header.h * header.w.toNat := by
    rw [← Nat.succ_mul, Nat.succ_eq_add_one, Nat.sub_add_cancel height.1]
  rw [PictureHeader.Complete] at complete
  omega

end

theorem PictureHeader.forall_sourceRow {header : PictureHeader} {P : Nat → Prop} :
    (∀ y < header.h, P (header.sourceRow y)) ↔ ∀ sy < header.h, P sy := by
  constructor
  · intro rows sy inside
    have row := rows (header.sourceRow sy)
    cases order : header.topDown with
    | true =>
        simp only [PictureHeader.sourceRow, order, if_true] at row
        exact row inside
    | false =>
        simp only [PictureHeader.sourceRow, order, Bool.false_eq_true, if_false] at row
        have back : header.h - 1 - (header.h - 1 - sy) = sy := by omega
        rw [back] at row
        exact row (by omega)
  · intro rows y inside
    apply rows
    rw [PictureHeader.sourceRow]
    split <;> omega

theorem imgviewRow_stores (buf : Buffer) (header : PictureHeader) :
    ∃ values : Nat → Nat → Nat, ∀ y,
      (imgviewRow header y buf).1 = some ((List.range header.w.toNat).map fun x =>
        (u32 (y * header.w.toNat + x), values y x)) := by
  rcases pictureRow_stores buf header with ⟨values, returned⟩
  exact ⟨fun y => values (header.dataOff + u32 (header.sourceRow y * imgviewRowBytes header)),
    fun y => (returned _ y).1⟩

theorem imgviewDecode_readsBelow {header : PictureHeader}
    (known : header.depth = .bits24 ∨ header.depth = .bits32) (buf : Buffer) (limit : Nat) :
    ReadsBelow limit (imgviewDecode header) buf ↔
      ∀ sy < header.h, ∀ x < header.w.toNat, ∀ k < header.depth.bytes,
        header.dataOff + u32 (sy * imgviewRowBytes header) + u32 (x * header.depth.bytes + k) <
          limit := by
  rcases imgviewRow_stores buf header with ⟨values, returned⟩
  rw [imgviewDecode, readsBelow_bind, readsBelow_each fun y _ => returned y]
  simp only [readsBelow_pure, implies_true, and_true, List.mem_range,
    imgviewRow, pictureRow_readsBelow known]
  exact @PictureHeader.forall_sourceRow header fun sy => ∀ x < header.w.toNat,
    ∀ k < header.depth.bytes, header.dataOff + u32 (sy * imgviewRowBytes header) +
      u32 (x * header.depth.bytes + k) < limit

theorem of_imgviewDecode {header : PictureHeader} {buf : Buffer} {picture : Picture}
    (decoded : (imgviewDecode header buf).1 = some picture) :
    picture.w = header.w ∧ picture.h = s32 header.h ∧
      ∀ y < header.h, ∀ x < header.w.toNat,
        ∃ store ∈ picture.stores, store.1 = u32 (y * header.w.toNat + x) := by
  rcases imgviewRow_stores buf header with ⟨values, returned⟩
  rw [imgviewDecode, PeekM.bind_fst, PeekM.each_fst fun y _ => returned y] at decoded
  simp only [Option.bind_some, PeekM.pure_apply, Option.some.injEq] at decoded
  rw [← decoded]
  refine ⟨rfl, rfl, ?_⟩
  intro y row x column
  refine ⟨(u32 (y * header.w.toNat + x), values y x), ?_, rfl⟩
  rw [List.mem_flatten]
  exact ⟨_, List.mem_map.mpr ⟨y, List.mem_range.mpr row, rfl⟩,
    List.mem_map.mpr ⟨x, List.mem_range.mpr column, rfl⟩⟩

/-- What the viewer may draw: only bytes of the file were read, and every pixel of the
picture was stored. -/
def imgviewSound (granted : Nat → Bool) (length fileSize : Nat) (buf : Buffer)
    (picture : Picture) : Prop :=
  ReadsBelow fileSize (imgviewLoadBmpFile granted length) buf ∧
    ∀ sy sx : Nat, (sy : Int) < picture.h → (sx : Int) < picture.w →
      cellAt picture.stores (sy * picture.w + sx) ≠ none

theorem imgviewSound_iff {granted : Nat → Bool} {length : Nat} {buf : Buffer}
    {header : PictureHeader} {picture : Picture} (accepted : imgviewHeader length buf = some header)
    (ran : (imgviewLoadBmpFile granted length buf).1 = some (some picture)) :
    imgviewSound granted length header.fileSize buf picture ↔ header.Complete := by
  rcases accepted_of_imgviewHeader accepted with ⟨fields, known⟩
  have run : imgviewLoadBmpFile granted length buf =
      withPicture granted length (some header) imgviewDecode buf := by
    rw [imgviewLoadBmpFile, accepted]
  rw [run] at ran
  rcases @of_withPicture _ granted length header.fileSize buf header _ picture ran with
    ⟨inside, decoded, reads⟩
  rw [imgviewSound, ReadsBelow, run, ← ReadsBelow, reads, imgviewDecode_readsBelow known,
    imgviewBytes_inside_iff fields known inside]
  constructor
  · intro both
    exact both.1
  · intro complete
    refine ⟨complete, ?_⟩
    intro sy sx row column
    rcases of_imgviewDecode decoded with ⟨width, height, stored⟩
    have few := complete.few fields known
    have size := fields.size
    have bounds := fields.width
    have below : s32 header.h ≤ header.h := by
      rw [s32]
      split <;> omega
    rw [width] at column
    rw [height] at row
    rcases stored sy (by omega) sx (by omega) with ⟨store, member, index⟩
    have place : sy * header.w.toNat + sx < header.h * header.w.toNat :=
      row_col_lt (by omega) (by omega)
    rw [u32_of_lt (by omega)] at index
    refine cellAt_ne_none.mpr ⟨store, member, ?_⟩
    rw [index, width]
    push_cast
    rw [Int.toNat_of_nonneg (by omega)]

end ParanOS

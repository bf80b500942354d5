import ParanOS.Foundation.Objects
import ParanOS.Mm.Blocks

/-! # The heap that the allocators make

Whoever frees only what is allocated has a heap of separate objects: each block is new
and cleared, keeps what is stored in it until it is freed, and is moved with its
contents. The blocks are in memory that was usable.
-/

namespace ParanOS.Memmap

open Foundation

/-! ## The calls -/

/-- What a client of the allocators does. -/
inductive Call where
  | alloc (count : UInt64) (type : UInt32) (alignment : UInt64) (allowHighAllocs : Bool)
  | conv (count : UInt64)
  | free (ptr count : UInt64)
  | realloc (ptr oldSize newSize : UInt64)
  | store (address : Nat) (value : UInt8)

/-- The pointer that the call returns, 0 for none, and the memory after it. -/
def Call.run (memory : Memory) : Call → Except Fault (UInt64 × Memory)
  | .alloc count type alignment allowHighAllocs =>
      extMemAllocTypeAlignedMode memory count type alignment allowHighAllocs
  | .conv count => convMemAlloc memory count
  | .free ptr count =>
      match pmmFree memory ptr count with
      | .error fault => .error fault
      | .ok memory => .ok (0, memory)
  | .realloc ptr oldSize newSize => pmmRealloc memory ptr oldSize newSize
  | .store address value => .ok (0, { memory with
      bytes := fun other => if other = address then value else memory.bytes other })

def released (objects : List (Object UInt8)) (ptr : UInt64) : List (Object UInt8) :=
  objects.filter fun object => object.base ≠ ptr.toNat

def valuesAt (objects : List (Object UInt8)) (ptr : UInt64) : List UInt8 :=
  ((objects.find? fun object => object.base = ptr.toNat).map Object.values).getD []

/-- Values at a new place, with zeros up to the size of the place. -/
def moved (values : List UInt8) (size : Nat) : List UInt8 :=
  values ++ List.replicate (size - values.length) 0

/-- The objects after the call, with the pointer that it has returned. -/
def Call.effect (result : UInt64) (objects : List (Object UInt8)) : Call → List (Object UInt8)
  | .alloc count _ alignment _ => ⟨result.toNat, moved [] (blockSize count alignment)⟩ :: objects
  | .conv count => ⟨result.toNat, moved [] (blockSize count 4096)⟩ :: objects
  | .free ptr _ => released objects ptr
  | .realloc ptr oldSize newSize =>
      if newSize = 0 then if ptr = 0 then objects else released objects ptr
      else if ptr = 0 then ⟨result.toNat, moved [] (blockSize newSize 4096)⟩ :: objects
      else
        let kept := (valuesAt objects ptr).take (min newSize.toNat oldSize.toNat)
        ⟨result.toNat, moved kept (blockSize newSize 4096)⟩ :: released objects ptr
  | .store address value => objects.map (Object.write address value)

/-- The block at a pointer, with the size that has been asked for. -/
def Owns (objects : List (Object UInt8)) (ptr count : UInt64) : Prop :=
  ∃ object ∈ objects, object.base = ptr.toNat ∧ object.values.length = blockSize count 4096

/-- A call of a client that frees only what is allocated. -/
def Call.Legal (objects : List (Object UInt8)) : Call → Prop
  | .alloc count type alignment _ => Request count alignment ∧ type ≠ usable
  | .conv count => Request count 4096
  | .free ptr count => Request count 4096 ∧ Owns objects ptr count
  | .realloc ptr oldSize newSize =>
      (newSize ≠ 0 → Request newSize 4096) ∧
        (ptr ≠ 0 → Request oldSize 4096 ∧ Owns objects ptr oldSize)
  | .store address _ => ∃ object ∈ objects, object.Around address

/-- The objects lie in memory that was usable at the start and is not usable now, and hold
what they should. No other memory has been written. -/
structure Heap (start memory : Memory) (objects : List (Object UInt8)) : Prop where
  settled : Settled memory.memmap
  carries : Carries memory.bytes objects
  full : ∀ object ∈ objects, 0 < object.values.length
  taken : ∀ object ∈ objects, ∀ address, object.Around address →
    ∃ kind, kinds memory.memmap address = some kind ∧ kind ≠ usable
  convBase : memory.convBase.toNat ≤ 0x100000 ∧ 4096 ∣ memory.convBase.toNat
  within : ∀ address, kinds memory.memmap address = some usable →
    kinds start.memmap address = some usable
  inside : ∀ object ∈ objects, ∀ address, object.Around address →
    kinds start.memmap address = some usable
  outside : ∀ address, kinds start.memmap address ≠ some usable →
    memory.bytes address = start.bytes address

/-! ## Blocks of low memory -/

/-- A range over usable memory is taken only where it is. -/
theorem memmapAllocRangeIn_usable {entries result : List Entry} {base length : UInt64}
    {type : UInt32} (settled : Settled entries) (range : Range base length)
    (run : memmapAllocRangeIn entries base length type usable false false false =
      .ok (true, result)) :
    (∀ address, base.toNat ≤ address → address < base.toNat + length.toNat →
      kinds entries address = some usable) ∧
      Settled result ∧ kinds result = settle
        (Region.paint (kinds entries) base.toNat (base.toNat + length.toNat) type) := by
  have full := range.full
  rcases memmapAllocRangeIn_spec settled range.high run with
    ⟨_, untaken, _⟩ | ⟨_, _, _, resultSettled, types⟩
  · rcases untaken rfl with none | simulated
    · rw [none] at full
      exact absurd full (Nat.lt_irrefl _)
    · simp at simulated
  · refine ⟨?_, resultSettled, types⟩
    rw [memmapAllocRangeIn] at run
    have nonzero : length ≠ 0 := by
      intro none
      rw [none] at full
      exact absurd full (Nat.lt_irrefl _)
    rw [if_neg nonzero, Bool.false_and, if_neg Bool.false_ne_true] at run
    split at run
    · next holds =>
        rcases List.any_eq_true.mp holds with ⟨entry, member, inside⟩
        have proper := settled.toSound.proper member
        rw [Entry.holds, decide_eq_true_eq, Entry.top, ge_iff_le, UInt64.le_iff_toNat_le,
          UInt64.lt_iff_toNat_lt, UInt64.le_iff_toNat_le, proper.toNat_top, range.toNat_top]
          at inside
        rcases inside with ⟨kind, low, _, high⟩
        intro address above below
        apply settled.tiles.kindAt_eq_some.mpr
        refine ⟨entry.region, List.mem_map_of_mem member, ⟨low.trans above, ?_⟩, ?_⟩
        · exact below.trans_le high
        · exact kind.resolve_left (by decide)
    · simp at run

theorem convLoop_allocated {count base : UInt64} (request : Request count 4096) {fuel : Nat}
    {memory after : Memory} (settled : Settled memory.memmap)
    (low : memory.convBase.toNat ≤ 0x100000) (aligned : 4096 ∣ memory.convBase.toNat)
    (run : convLoop (alignUp count 4096) fuel memory = .ok (base, after)) :
    Allocated memory after (blockSize count 4096) bootloaderReclaimable base 0x100000 4096 ∧
      after.convBase.toNat ≤ 0x100000 ∧ 4096 ∣ after.convBase.toNat := by
  have size := request.toNat_alignUp
  have sizes := request.blockSize_bounds
  have full := request.full
  have bound := request.bound
  have page : (4096 : UInt64).toNat = 4096 := rfl
  rw [page] at sizes bound
  have pages : 4096 ∣ blockSize count 4096 := Nat.dvd_mul_left _ _
  have pageLe : 4096 ≤ blockSize count 4096 := Nat.le_of_dvd (by omega) pages
  induction fuel generalizing memory with
  | zero => simp [convLoop] at run
  | succ fuel induction =>
      rw [convLoop] at run
      split at run
      · simp at run
      · next below =>
          have sum : (memory.convBase + alignUp count 4096).toNat =
              memory.convBase.toNat + blockSize count 4096 := by
            rw [UInt64.toNat_add, size]
            exact Nat.mod_eq_of_lt (by omega)
          rw [gt_iff_lt, UInt64.lt_iff_toNat_lt, sum, Nat.not_lt] at below
          change _ ≤ 1048576 at below
          have range : Range memory.convBase (alignUp count 4096) := ⟨by omega, by omega⟩
          rw [memmapAllocRange] at run
          split at run
          · simp at run
          · next taken paints =>
              split at paints
              · simp at paints
              · next table ran =>
                  rw [Except.ok.injEq, Prod.mk.injEq] at paints
                  rcases paints with ⟨rfl, rfl⟩
                  rcases memmapAllocRangeIn_usable settled range ran with
                    ⟨free, tableSettled, types⟩
                  split at run
                  · simp at run
                  · next tidied tidy =>
                      rw [Except.ok.injEq, Prod.mk.injEq] at run
                      rcases run with ⟨rfl, rfl⟩
                      rcases sanitise_settle tableSettled.toSound tidy with
                        ⟨tidySettled, _, same⟩
                      rw [tableSettled.settle_kinds] at same
                      rw [size] at free types
                      refine ⟨⟨tidySettled, ⟨aligned, below, free⟩, ⟨_, le_rfl, below,
                        free, same.trans types⟩, ?_⟩, ?_, ?_⟩
                      · dsimp only
                        rw [size]
                      · dsimp only
                        omega
                      · dsimp only
                        rw [sum]
                        exact Nat.dvd_add aligned pages
          · next untaken paints =>
              split at paints
              · simp at paints
              · next table ran =>
                  rw [Except.ok.injEq, Prod.mk.injEq] at paints
                  rcases paints with ⟨rfl, rfl⟩
                  rcases memmapAllocRangeIn_spec settled range.high ran with
                    ⟨rfl, _, _⟩ | ⟨_, absurd, _⟩
                  · have next : (memory.convBase + 4096).toNat =
                        memory.convBase.toNat + 4096 := by
                      rw [UInt64.toNat_add, page]
                      exact Nat.mod_eq_of_lt (by omega)
                    have later : Allocated { memory with convBase := memory.convBase + 4096 }
                        after (blockSize count 4096) bootloaderReclaimable base 0x100000 4096 ∧
                        after.convBase.toNat ≤ 0x100000 ∧ 4096 ∣ after.convBase.toNat := by
                      refine induction ?_ ?_ ?_ run
                      · exact settled
                      · dsimp only
                        omega
                      · dsimp only
                        rw [next]
                        exact Nat.dvd_add aligned (Nat.dvd_refl _)
                    rcases later with ⟨allocated, rest⟩
                    exact ⟨⟨allocated.settled, allocated.fits, allocated.types,
                      allocated.bytes⟩, rest⟩
                  · simp at absurd

/-! ## The heap -/

theorem kinds_bound {entries : List Entry} (sound : Sound entries) {address : Nat}
    {kind : UInt32} (found : kinds entries address = some kind) : address + 1 < 2 ^ 63 := by
  rcases sound.tiles.kindAt_eq_some.mp found with ⟨region, member, covers, _⟩
  exact Nat.lt_of_le_of_lt covers.2 (sound.high region member)

namespace Heap

variable {start memory after : Memory} {objects : List (Object UInt8)}

/-- Usable memory lies outside the objects. -/
theorem not_around (heap : Heap start memory objects) {object : Object UInt8} (member : object ∈ objects)
    {address : Nat} (free : kinds memory.memmap address = some usable) :
    ¬ object.Around address := by
  intro around
  rcases heap.taken object member address around with ⟨kind, found, other⟩
  rw [free] at found
  exact other (Option.some.inj found).symm

theorem moved_nil_stands {bytes : Nat → UInt8} (base size : Nat) :
    (Object.mk base (moved [] size)).Stands (memset bytes base 0 size) := by
  intro index value found
  rcases List.getElem?_eq_some_iff.mp found with ⟨less, same⟩
  simp only [moved, List.nil_append, List.length_nil, Nat.sub_zero, List.length_replicate,
    List.getElem_replicate] at less same
  rw [memset, if_pos ⟨Nat.le_add_right _ _, Nat.add_lt_add_left less _⟩]
  exact same

theorem length_moved_nil (size : Nat) : (moved [] size).length = size := by simp [moved]

theorem alloc (heap : Heap start memory objects) {size limit alignment : Nat} {type : UInt32}
    {base : UInt64} (allocated : Allocated memory after size type base limit alignment)
    (full : 0 < size) (other : type ≠ usable)
    (convBase : after.convBase.toNat ≤ 0x100000 ∧ 4096 ∣ after.convBase.toNat) :
    Heap start after (⟨base.toNat, moved [] size⟩ :: objects) := by
  rcases allocated.types with ⟨top, long, _, free, types⟩
  have around : ∀ address, (Object.mk base.toNat (moved [] size)).Around address →
      base.toNat ≤ address ∧ address < base.toNat + size := by
    intro address inside
    rwa [Object.Around, length_moved_nil] at inside
  constructor
  · exact allocated.settled
  · rw [allocated.bytes]
    apply Carries.cons
    · apply heap.carries.congr
      intro object member address inside
      rw [memset, if_neg]
      exact fun block => heap.not_around member
        (free address block.1 (block.2.trans_le long)) inside
    · intro object member address inside
      have block := around address inside
      exact heap.not_around member (free address block.1 (block.2.trans_le long))
    · exact moved_nil_stands _ _
  · intro object member
    rcases List.mem_cons.mp member with rfl | old
    · rw [length_moved_nil]
      exact full
    · exact heap.full object old
  · intro object member address inside
    rw [types]
    rcases List.mem_cons.mp member with rfl | old
    · have block := around address inside
      exact ⟨type, settle_paint_inside ⟨block.1, block.2.trans_le long⟩
        fun same => absurd same other, other⟩
    · rw [settle_paint_outside fun block => heap.not_around old
        (free address block.1 block.2) inside, heap.settled.settle_kinds]
      exact heap.taken object old address inside
  · exact convBase
  · intro address usableNow
    rw [types] at usableNow
    by_cases block : base.toNat ≤ address ∧ address < top
    · rw [settle_paint_inside block fun same => absurd same other] at usableNow
      exact absurd (Option.some.inj usableNow) other
    · rw [settle_paint_outside block, heap.settled.settle_kinds] at usableNow
      exact heap.within address usableNow
  · intro object member address inside
    rcases List.mem_cons.mp member with rfl | old
    · have block := around address inside
      exact heap.within address (free address block.1 (block.2.trans_le long))
    · exact heap.inside object old address inside
  · intro address foreign
    rw [allocated.bytes, memset, if_neg]
    · exact heap.outside address foreign
    · exact fun block => foreign
        (heap.within address (free address block.1 (block.2.trans_le long)))

theorem mem_released {ptr : UInt64} {object : Object UInt8} :
    object ∈ released objects ptr ↔ object ∈ objects ∧ object.base ≠ ptr.toNat := by
  rw [released, List.mem_filter, decide_eq_true_eq]

/-- Only one object begins at an address. -/
theorem base_unique (heap : Heap start memory objects) {first second : Object UInt8}
    (left : first ∈ objects) (right : second ∈ objects) (same : first.base = second.base) :
    first = second :=
  heap.carries.unique left right
    ⟨Nat.le_refl _, Nat.lt_add_of_pos_right (heap.full first left)⟩
    ⟨same ▸ Nat.le_refl _, same ▸ Nat.lt_add_of_pos_right (heap.full second right)⟩

/-- What `pmm_free` does with a block: its addresses are usable, and no byte changes. -/
theorem free_types (heap : Heap start memory objects) {ptr count : UInt64}
    (request : Request count 4096) (owns : Owns objects ptr count)
    (run : pmmFree memory ptr count = .ok after) :
    Settled after.memmap ∧
      kinds after.memmap = settle (Region.paint (kinds memory.memmap) ptr.toNat
        (ptr.toNat + blockSize count 4096) usable) ∧
      after.bytes = memory.bytes ∧ after.convBase = memory.convBase := by
  rcases owns with ⟨object, member, base, length⟩
  have full := heap.full object member
  have size := request.toNat_alignUp
  have high : ptr.toNat + blockSize count 4096 < 2 ^ 63 := by
    have last : object.Around (ptr.toNat + blockSize count 4096 - 1) := ⟨by omega, by omega⟩
    rcases heap.taken object member _ last with ⟨kind, found, _⟩
    have bound := kinds_bound heap.settled.toSound found
    omega
  rw [pmmFree] at run
  split at run
  · simp at run
  · split at run
    · simp at run
    · next taken freed frees =>
        rw [Except.ok.injEq] at run
        rw [← run]
        rw [memmapAllocRange] at frees
        split at frees
        · simp at frees
        · next took table ran =>
            rw [Except.ok.injEq, Prod.mk.injEq] at frees
            rcases frees with ⟨_, rfl⟩
            rcases memmapAllocRangeIn_spec heap.settled (by omega) ran with
              ⟨_, untaken, quiet⟩ | ⟨_, _, _, settled, types⟩
            · cases took with
              | true =>
                  rcases untaken rfl with none | simulated
                  · rw [none] at size
                    change 0 = _ at size
                    omega
                  · simp at simulated
              | false => simp at quiet
            · exact ⟨settled, size ▸ types, rfl, rfl⟩

/-- The other objects stay after `pmm_free`. -/
theorem free (heap : Heap start memory objects) {ptr count : UInt64} (request : Request count 4096)
    (owns : Owns objects ptr count) (run : pmmFree memory ptr count = .ok after) :
    Heap start after (released objects ptr) := by
  rcases heap.free_types request owns run with ⟨settled, types, bytes, convBase⟩
  rcases owns with ⟨object, member, base, length⟩
  have others : ∀ other ∈ released objects ptr, other ∈ objects ∧ other.Apart object := by
    intro other otherIn
    rcases mem_released.mp otherIn with ⟨old, different⟩
    refine ⟨old, ?_⟩
    intro address inside meets
    exact different ((heap.carries.unique old member inside meets) ▸ base)
  constructor
  · exact settled
  · rw [bytes]
    exact heap.carries.sublist List.filter_sublist
  · exact fun other otherIn => heap.full other (others other otherIn).1
  · intro other otherIn address inside
    rw [types, settle_paint_outside, heap.settled.settle_kinds]
    · exact heap.taken other (others other otherIn).1 address inside
    · rintro ⟨above, below⟩
      exact (others other otherIn).2 address inside
        ⟨base ▸ above, by rw [length, base]; exact below⟩
  · rw [convBase]
    exact heap.convBase
  · intro address usableNow
    by_cases block : ptr.toNat ≤ address ∧ address < ptr.toNat + blockSize count 4096
    · exact heap.inside object member address
        ⟨base ▸ block.1, by rw [length, base]; exact block.2⟩
    · rw [types, settle_paint_outside block, heap.settled.settle_kinds] at usableNow
      exact heap.within address usableNow
  · exact fun other otherIn => heap.inside other (others other otherIn).1
  · rw [bytes]
    exact heap.outside

/-- The bytes of a block that is moved. -/
theorem valuesAt_eq (heap : Heap start memory objects) {object : Object UInt8} {ptr : UInt64}
    (member : object ∈ objects) (base : object.base = ptr.toNat) :
    valuesAt objects ptr = object.values := by
  rw [valuesAt]
  cases search : objects.find? fun object => object.base = ptr.toNat with
  | none =>
      have absent := List.find?_eq_none.mp search object member
      simp [base] at absent
  | some other =>
      have otherBase : other.base = ptr.toNat := by simpa using List.find?_some search
      have same := heap.base_unique (List.mem_of_find?_eq_some search) member
        (otherBase.trans base.symm)
      rw [same]
      rfl

/-- Copying into a cleared object gives it the values, with zeros behind them. -/
theorem copy {bytes : Nat → UInt8} {base source size : Nat} {values : List UInt8}
    (clear : (Object.mk base (moved [] size)).Stands bytes) (fits : values.length ≤ size)
    (stands : ∀ index, ∀ value ∈ values[index]?, bytes (source + index) = value) :
    (Object.mk base (moved values size)).Stands
      (memcpy bytes base source values.length) := by
  intro index value found
  dsimp only at found ⊢
  rw [memcpy]
  rw [moved, List.getElem?_append] at found
  split at found
  · next inside =>
      rw [if_pos ⟨Nat.le_add_right _ _, Nat.add_lt_add_left inside _⟩, Nat.add_sub_cancel_left]
      exact stands index value found
  · next outside =>
      rw [if_neg fun both => outside (Nat.lt_of_add_lt_add_left both.2)]
      have less := (List.getElem?_eq_some_iff.mp found).1
      rw [List.length_replicate] at less
      rw [List.getElem?_replicate_of_lt (by omega), Option.mem_def, Option.some.injEq] at found
      apply clear index value
      rw [moved, List.nil_append, List.length_nil, Nat.sub_zero]
      dsimp only
      rw [List.getElem?_replicate_of_lt (by omega), found]
      rfl

/-- A block that is moved keeps what the smaller of the two sizes has of it. -/
theorem move (heap : Heap start memory objects) {middle : Memory} {ptr oldSize newSize base : UInt64}
    (oldRequest : Request oldSize 4096) (newRequest : Request newSize 4096)
    (owns : Owns objects ptr oldSize)
    (grown : Heap start middle (⟨base.toNat, moved [] (blockSize newSize 4096)⟩ :: objects))
    (run : pmmFree { middle with
      bytes := memcpy middle.bytes base.toNat ptr.toNat (min newSize.toNat oldSize.toNat) }
      ptr oldSize = .ok after) :
    Heap start after (⟨base.toNat, moved ((valuesAt objects ptr).take
      (min newSize.toNat oldSize.toNat)) (blockSize newSize 4096)⟩ :: released objects ptr) := by
  have newFull := newRequest.full
  have newSizes := newRequest.blockSize_bounds
  have oldSizes := oldRequest.blockSize_bounds
  rcases owns with ⟨object, member, begins, length⟩
  have values := heap.valuesAt_eq member begins
  have apart := (List.pairwise_cons.mp grown.carries.apart).1 object member
  generalize count : min newSize.toNat oldSize.toNat = kept at run ⊢
  have keptLength : ((valuesAt objects ptr).take kept).length = kept := by
    rw [values, List.length_take, length]
    omega
  have movedLength : (moved ((valuesAt objects ptr).take kept) (blockSize newSize 4096)).length =
      blockSize newSize 4096 := by
    rw [moved, List.length_append, List.length_replicate, keptLength]
    omega
  have around : ∀ address, (Object.mk base.toNat (moved ((valuesAt objects ptr).take kept)
      (blockSize newSize 4096))).Around address ↔
      (Object.mk base.toNat (moved [] (blockSize newSize 4096))).Around address := by
    intro address
    rw [Object.Around, Object.Around, movedLength, length_moved_nil]
  -- the heap between the copy and the release of the old block
  have copied : Heap start { middle with bytes := memcpy middle.bytes base.toNat ptr.toNat kept }
      (⟨base.toNat, moved ((valuesAt objects ptr).take kept) (blockSize newSize 4096)⟩ ::
        objects) := by
    have newApart := List.pairwise_cons.mp grown.carries.apart
    constructor
    · exact grown.settled
    · apply Carries.cons
      · apply (grown.carries.sublist (List.sublist_cons_self _ _)).congr
        intro other otherIn address inside
        dsimp only
        rw [memcpy, if_neg]
        rintro ⟨above, below⟩
        refine newApart.1 other otherIn address ⟨above, ?_⟩ inside
        rw [length_moved_nil]
        dsimp only
        omega
      · intro other otherIn address inside
        exact newApart.1 other otherIn address ((around address).mp inside)
      · have clear := grown.carries.stands _ List.mem_cons_self
        have stands : ∀ index, ∀ value ∈ ((valuesAt objects ptr).take kept)[index]?,
            middle.bytes (ptr.toNat + index) = value := by
          intro index value found
          rw [values] at found
          rw [← begins]
          refine grown.carries.stands object (List.mem_cons_of_mem _ member) index value ?_
          rw [List.getElem?_take] at found
          split at found
          · exact found
          · simp at found
        have copies := copy clear (by rw [keptLength]; omega) stands
        rwa [keptLength] at copies
    · intro other otherIn
      rcases List.mem_cons.mp otherIn with rfl | old
      · rw [movedLength]
        omega
      · exact heap.full other old
    · intro other otherIn address inside
      rcases List.mem_cons.mp otherIn with rfl | old
      · exact grown.taken _ List.mem_cons_self address ((around address).mp inside)
      · exact grown.taken other (List.mem_cons_of_mem _ old) address inside
    · exact grown.convBase
    · exact grown.within
    · intro other otherIn address inside
      rcases List.mem_cons.mp otherIn with rfl | old
      · exact grown.inside _ List.mem_cons_self address ((around address).mp inside)
      · exact grown.inside other (List.mem_cons_of_mem _ old) address inside
    · intro address foreign
      dsimp only
      rw [memcpy, if_neg]
      · exact grown.outside address foreign
      · rintro ⟨above, below⟩
        refine foreign (grown.inside _ List.mem_cons_self address ⟨above, ?_⟩)
        rw [length_moved_nil]
        dsimp only
        omega
  have different : base.toNat ≠ ptr.toNat := by
    intro same
    refine apart ptr.toNat ⟨same ▸ Nat.le_refl _, ?_⟩
      ⟨begins ▸ Nat.le_refl _, begins ▸ Nat.lt_add_of_pos_right (heap.full object member)⟩
    rw [length_moved_nil]
    dsimp only
    omega
  have freed := copied.free oldRequest
    ⟨object, List.mem_cons_of_mem _ member, begins, length⟩ run
  rwa [released, List.filter_cons_of_pos (by simpa using different), ← released] at freed

/-- Storing in an object changes that object alone. -/
theorem store (heap : Heap start memory objects) {address : Nat} (value : UInt8)
    (stored : ∃ object ∈ objects, object.Around address) :
    Heap start { memory with
        bytes := fun other => if other = address then value else memory.bytes other }
      (objects.map (Object.write address value)) := by
  constructor
  · exact heap.settled
  · exact heap.carries.write address value
  · intro object member
    rcases List.mem_map.mp member with ⟨old, oldIn, rfl⟩
    rw [Object.write_length]
    exact heap.full old oldIn
  · intro object member other inside
    rcases List.mem_map.mp member with ⟨old, oldIn, rfl⟩
    exact heap.taken old oldIn other ((old.around_write other).mp inside)
  · exact heap.convBase
  · exact heap.within
  · intro object member other inside
    rcases List.mem_map.mp member with ⟨old, oldIn, rfl⟩
    exact heap.inside old oldIn other ((old.around_write other).mp inside)
  · intro other foreign
    rcases stored with ⟨object, member, around⟩
    dsimp only
    rw [if_neg]
    · exact heap.outside other foreign
    · rintro rfl
      exact foreign (heap.inside object member other around)

end Heap

/-! ## Runs -/

theorem alloc_heap {start memory after : Memory} {objects : List (Object UInt8)}
    (heap : Heap start memory objects) {count alignment base : UInt64} {type : UInt32}
    {allowHighAllocs : Bool} (request : Request count alignment) (other : type ≠ usable)
    (run : extMemAllocTypeAlignedMode memory count type alignment allowHighAllocs =
      .ok (base, after)) :
    Heap start after (⟨base.toNat, moved [] (blockSize count alignment)⟩ :: objects) := by
  rcases extMemAlloc_allocated heap.settled request run with ⟨allocated, convBase, _⟩
  have full := request.full
  have sizes := request.blockSize_bounds
  exact heap.alloc allocated (by omega) other (convBase ▸ heap.convBase)

/-- A legal call does to the objects what it says. -/
theorem Call.run_heap {start memory after : Memory} {objects : List (Object UInt8)}
    (heap : Heap start memory objects) {call : Call} (legal : call.Legal objects) {result : UInt64}
    (run : call.run memory = .ok (result, after)) : Heap start after (call.effect result objects) := by
  have reclaimable : bootloaderReclaimable ≠ usable := by decide
  cases call with
  | alloc count type alignment allowHighAllocs => exact alloc_heap heap legal.1 legal.2 run
  | conv count =>
      have request : Request count 4096 := legal
      have full := request.full
      have sizes := request.blockSize_bounds
      rw [Call.run, convMemAlloc] at run
      split at run
      · simp at run
      · rcases convLoop_allocated request heap.settled heap.convBase.1 heap.convBase.2 run with
          ⟨allocated, convBase⟩
        exact heap.alloc allocated (by omega) reclaimable convBase
  | free ptr count =>
      rw [Call.run] at run
      split at run
      · simp at run
      · next freed frees =>
          rw [Except.ok.injEq, Prod.mk.injEq] at run
          rw [← run.2]
          exact heap.free legal.1 legal.2 frees
  | realloc ptr oldSize newSize =>
      rcases legal with ⟨newRequest, oldRequest⟩
      rw [Call.run, pmmRealloc] at run
      rw [Call.effect]
      split at run
      · next none =>
          rw [if_pos none]
          split at run
          · next some =>
              rw [if_neg some]
              split at run
              · simp at run
              · next freed frees =>
                  rw [Except.ok.injEq, Prod.mk.injEq] at run
                  rw [← run.2]
                  exact heap.free (oldRequest some).1 (oldRequest some).2 frees
          · next null =>
              rw [Except.ok.injEq, Prod.mk.injEq] at run
              rw [← run.2, if_pos (not_not.mp null)]
              exact heap
      · next some =>
          rw [if_neg some]
          split at run
          · next null =>
              rw [if_pos null]
              exact alloc_heap heap (newRequest some) reclaimable run
          · next object =>
              rw [if_neg object]
              split at run
              · simp at run
              · next base middle allocates =>
                  have grown := alloc_heap heap (newRequest some) reclaimable allocates
                  have smaller : (if newSize > oldSize then oldSize else newSize).toNat =
                      min newSize.toNat oldSize.toNat := by
                    split
                    · next larger =>
                        rw [gt_iff_lt, UInt64.lt_iff_toNat_lt] at larger
                        omega
                    · next smaller =>
                        rw [gt_iff_lt, UInt64.lt_iff_toNat_lt] at smaller
                        omega
                  dsimp only at run
                  rw [smaller] at run
                  split at run
                  · simp at run
                  · next freed frees =>
                      rw [Except.ok.injEq, Prod.mk.injEq] at run
                      rw [← run.1, ← run.2]
                      exact heap.move (oldRequest object).1 (newRequest some)
                        (oldRequest object).2 grown frees
  | store address value =>
      rw [Call.run, Except.ok.injEq, Prod.mk.injEq] at run
      rw [← run.2]
      exact heap.store value legal

/-- Calls one after another, with the objects that they leave. -/
def runCalls : List Call → Memory → List (Object UInt8) →
    Except Fault (Memory × List (Object UInt8))
  | [], memory, objects => .ok (memory, objects)
  | call :: calls, memory, objects =>
      match call.run memory with
      | .error fault => .error fault
      | .ok (result, after) => runCalls calls after (call.effect result objects)

/-- Each call of the run is legal where it is made. -/
def LegalRun : List Call → Memory → List (Object UInt8) → Prop
  | [], _, _ => True
  | call :: calls, memory, objects =>
      call.Legal objects ∧ ∀ result after, call.run memory = .ok (result, after) →
        LegalRun calls after (call.effect result objects)

/-- Every run of legal calls keeps a heap of separate objects with their contents. -/
theorem runCalls_heap {calls : List Call} {start memory after : Memory}
    {objects left : List (Object UInt8)} (heap : Heap start memory objects)
    (legal : LegalRun calls memory objects)
    (run : runCalls calls memory objects = .ok (after, left)) : Heap start after left := by
  induction calls generalizing memory objects with
  | nil =>
      rw [runCalls, Except.ok.injEq, Prod.mk.injEq] at run
      rw [← run.1, ← run.2]
      exact heap
  | cons call calls induction =>
      rw [runCalls] at run
      split at run
      · simp at run
      · next result middle ran =>
          exact induction (Call.run_heap heap legal.1 ran) (legal.2 result middle ran) run

/-- From a tidied table, without objects. -/
theorem Heap.empty {memory : Memory} (settled : Settled memory.memmap)
    (low : memory.convBase.toNat ≤ 0x100000) (aligned : 4096 ∣ memory.convBase.toNat) :
    Heap memory memory [] where
  settled := settled
  carries := Carries.nil
  full := fun _ member => absurd member List.not_mem_nil
  taken := fun _ member => absurd member List.not_mem_nil
  convBase := ⟨low, aligned⟩
  within := fun _ usableNow => usableNow
  inside := fun _ member => absurd member List.not_mem_nil
  outside := fun _ _ => rfl

/-- However the allocators are used, the blocks that are not freed are separate objects in
memory that was usable, with the contents that the calls have given them, and nothing else
has been written. -/
theorem objects_of_runCalls {calls : List Call} {memory after : Memory}
    {objects : List (Object UInt8)} (settled : Settled memory.memmap)
    (low : memory.convBase.toNat ≤ 0x100000) (aligned : 4096 ∣ memory.convBase.toNat)
    (legal : LegalRun calls memory [])
    (run : runCalls calls memory [] = .ok (after, objects)) :
    Carries after.bytes objects ∧ Settled after.memmap ∧
      (∀ object ∈ objects, ∀ address, object.Around address →
        kinds memory.memmap address = some usable ∧
          kinds after.memmap address ≠ some usable) ∧
      ∀ address, kinds memory.memmap address ≠ some usable →
        after.bytes address = memory.bytes address := by
  have heap := runCalls_heap (Heap.empty settled low aligned) legal run
  refine ⟨heap.carries, heap.settled, ?_, heap.outside⟩
  intro object member address around
  refine ⟨heap.inside object member address around, ?_⟩
  rcases heap.taken object member address around with ⟨kind, found, other⟩
  rw [found, Ne, Option.some.injEq]
  exact other

/-- Ten bytes, of which one is written, and ten more. -/
def smallCalls : List Call :=
  [.alloc 10 0x1000 16 false, .store 0x9FF3 42, .alloc 10 0x1000 16 false]

theorem smallCalls_legal : LegalRun smallCalls smallMemory [] := by
  have request : Request 10 16 := ⟨by decide, by decide, by decide⟩
  refine ⟨⟨request, by decide⟩, ?_⟩
  intro result after ran
  cases ran
  refine ⟨⟨_, List.mem_cons_self, by decide, by decide⟩, ?_⟩
  intro result after ran
  cases ran
  exact ⟨⟨request, by decide⟩, fun _ _ _ => trivial⟩

theorem objects_of_runCalls_small : ∃ after,
    runCalls smallCalls smallMemory [] = .ok (after,
      [⟨0x9FE0, List.replicate 16 0⟩, ⟨0x9FF0, (List.replicate 16 0).set 3 42⟩]) ∧
      Carries after.bytes
        [⟨0x9FE0, List.replicate 16 0⟩, ⟨0x9FF0, (List.replicate 16 0).set 3 42⟩] := by
  refine ⟨_, rfl, ?_⟩
  exact (objects_of_runCalls smallMemory_settled (by decide) (by decide) smallCalls_legal rfl).1

end ParanOS.Memmap

import ParanOS.Foundation.Bytes

/-! # The kernel heap

`kheap_init` and `kmalloc` of `kernel.c`: a heap from which memory is only
taken. Addresses and sizes are 64-bit words, and so is the sum that is compared
with the end of the heap.
-/

namespace ParanOS

open Foundation

/-! ## The code -/

/-- `KERNEL_VMA` of the linker script. -/
def kernelVma : UInt64 := 0xFFFFFFFF80000000

def pageSize : UInt64 := 4096

def kheapPages : UInt64 := 8192

def alignUp (value align : UInt64) : UInt64 := (value + (align - 1)) &&& ~~~(align - 1)

structure Kheap where
  kheapBegin : UInt64
  kheapEnd : UInt64
  kheapBrk : UInt64
  deriving DecidableEq

/-- The heap behind a kernel that ends at `__kernel_high_end`. -/
def kheapInit (kernelHighEnd : UInt64) : Kheap :=
  let hb := alignUp kernelHighEnd pageSize
  ⟨hb, hb + kheapPages * pageSize, hb⟩

/-- The address of the block, 0 for none, and the heap afterwards. -/
def kmalloc (heap : Kheap) (sz : UInt64) : UInt64 × Kheap :=
  if sz = 0 then (0, heap)
  else
    let p := alignUp heap.kheapBrk 8
    if p + sz > heap.kheapEnd then (0, heap)
    else (p, { heap with kheapBrk := p + sz })

/-! ## Blocks -/

structure Block where
  ptr : UInt64
  size : UInt64

/-- What a caller expects of a block, given those handed out before. -/
structure Block.Sound (heap : Kheap) (given : List Block) (block : Block) : Prop where
  aligned : block.ptr.toNat % 8 = 0
  above : heap.kheapBegin.toNat ≤ block.ptr.toNat
  below : block.ptr.toNat + block.size.toNat ≤ heap.kheapEnd.toNat
  apart : ∀ other ∈ given, other.ptr.toNat + other.size.toNat ≤ block.ptr.toNat ∨
    block.ptr.toNat + block.size.toNat ≤ other.ptr.toNat

/-- The blocks of a sequence of requests are sound, and the break never moves
back. -/
def RequestsSound : List UInt64 → Kheap → List Block → Prop
  | [], _, _ => True
  | sz :: rest, heap, given =>
      let (p, heap') := kmalloc heap sz
      heap.kheapBrk ≤ heap'.kheapBrk ∧
        if p = 0 then RequestsSound rest heap' given
        else Block.Sound heap given ⟨p, sz⟩ ∧ RequestsSound rest heap' (⟨p, sz⟩ :: given)

/-- The end of no requested block is beyond the address space. -/
def RequestsFit : List UInt64 → Kheap → Prop
  | [], _ => True
  | sz :: rest, heap =>
      (alignUp heap.kheapBrk 8).toNat + sz.toNat < 18446744073709551616 ∧
        RequestsFit rest (kmalloc heap sz).2

/-! ## One request -/

theorem alignUp_toNat {value align : UInt64} (width : Nat) (narrow : width ≤ 64)
    (power : align.toNat = 2 ^ width)
    (fits : value.toNat + (2 ^ width - 1) < 18446744073709551616) :
    (alignUp value align).toNat = (value.toNat + (2 ^ width - 1)) / 2 ^ width * 2 ^ width := by
  have positive := Nat.two_pow_pos width
  have mask : (align - 1).toNat = 2 ^ width - 1 := by
    rw [UInt64.toNat_sub_of_le _ _ (by rw [UInt64.le_iff_toNat_le, power]; exact positive), power]
    rfl
  have sum : (value + (align - 1)).toNat = value.toNat + (2 ^ width - 1) := by
    rw [UInt64.toNat_add, mask]
    exact Nat.mod_eq_of_lt fits
  have complement : UInt64.size - 1 - (2 ^ width - 1) = 2 ^ 64 - 2 ^ width := by
    have size : UInt64.size = 2 ^ 64 := rfl
    omega
  rw [alignUp, UInt64.toNat_and, UInt64.toNat_not, mask, sum, complement]
  exact and_highMask width fits narrow

/-- A heap in the upper half of the address space, with the break inside. -/
structure Kheap.Placed (heap : Kheap) : Prop where
  high : kernelVma.toNat ≤ heap.kheapBegin.toNat
  pages : heap.kheapEnd.toNat % 4096 = 0
  begun : heap.kheapBegin.toNat ≤ heap.kheapBrk.toNat
  inside : heap.kheapBrk.toNat ≤ heap.kheapEnd.toNat

section

variable {heap : Kheap} (placed : heap.Placed)
include placed

/-- The next block starts at the first multiple of eight in the rest of the
heap. -/
theorem Kheap.Placed.next :
    (alignUp heap.kheapBrk 8).toNat = (heap.kheapBrk.toNat + 7) / 8 * 8 ∧
      heap.kheapBrk.toNat ≤ (alignUp heap.kheapBrk 8).toNat ∧
      (alignUp heap.kheapBrk 8).toNat ≤ heap.kheapEnd.toNat := by
  have inside := placed.inside
  have pages := placed.pages
  have bound := heap.kheapEnd.toNat_lt
  have aligned := @alignUp_toNat heap.kheapBrk 8 3 (by decide) rfl (by omega)
  simp only [Nat.reducePow, Nat.reduceSub] at aligned
  omega

theorem Kheap.Placed.next_ne_zero : alignUp heap.kheapBrk 8 ≠ 0 := by
  intro zero
  have start := placed.next.2.1
  have high := placed.high
  have begun := placed.begun
  have value : kernelVma.toNat = 18446744071562067968 := rfl
  rw [zero] at start
  simp only [UInt64.toNat_zero] at start
  omega

/-- A request that fits into the address space is refused or gets the next
block. -/
theorem kmalloc_fitting {sz : UInt64}
    (fits : (alignUp heap.kheapBrk 8).toNat + sz.toNat < 18446744073709551616) :
    kmalloc heap sz = (0, heap) ∨
      ∃ heap', kmalloc heap sz = (alignUp heap.kheapBrk 8, heap') ∧ heap'.Placed ∧
        heap'.kheapBegin = heap.kheapBegin ∧ heap'.kheapEnd = heap.kheapEnd ∧
        heap'.kheapBrk.toNat = (alignUp heap.kheapBrk 8).toNat + sz.toNat ∧
        heap'.kheapBrk.toNat ≤ heap.kheapEnd.toNat := by
  rcases placed.next with ⟨_, start, _⟩
  have sum : (alignUp heap.kheapBrk 8 + sz).toNat =
      (alignUp heap.kheapBrk 8).toNat + sz.toNat := by
    rw [UInt64.toNat_add]
    exact Nat.mod_eq_of_lt fits
  have begun := placed.begun
  simp only [kmalloc]
  split
  · exact .inl rfl
  · split
    · exact .inl rfl
    · next room =>
        have below : (alignUp heap.kheapBrk 8 + sz).toNat ≤ heap.kheapEnd.toNat := by
          rw [← UInt64.le_iff_toNat_le]
          exact UInt64.not_lt.mp room
        refine .inr ⟨_, rfl, ⟨placed.high, placed.pages, ?_, below⟩, rfl, rfl, sum, below⟩
        simp only [sum]
        omega

/-- A request whose end is beyond the address space passes the check. -/
theorem kmalloc_wrapping {sz : UInt64}
    (wraps : 18446744073709551616 ≤ (alignUp heap.kheapBrk 8).toNat + sz.toNat) :
    (kmalloc heap sz).1 = alignUp heap.kheapBrk 8 := by
  rcases placed.next with ⟨_, _, inside⟩
  have bound := heap.kheapEnd.toNat_lt
  have small := sz.toNat_lt
  have wanted : sz ≠ 0 := by
    rintro rfl
    simp only [UInt64.toNat_zero] at wraps
    omega
  have passes : ¬ alignUp heap.kheapBrk 8 + sz > heap.kheapEnd := by
    rw [gt_iff_lt, UInt64.not_lt, UInt64.le_iff_toNat_le, UInt64.toNat_add]
    omega
  simp only [kmalloc, if_neg wanted, if_neg passes]

end

/-! ## Sequences of requests -/

theorem requestsSound_iff {requests : List UInt64} {heap : Kheap} {given : List Block}
    (placed : heap.Placed)
    (below : ∀ block ∈ given, block.ptr.toNat + block.size.toNat ≤ heap.kheapBrk.toNat) :
    RequestsSound requests heap given ↔ RequestsFit requests heap := by
  induction requests generalizing heap given with
  | nil => simp [RequestsSound, RequestsFit]
  | cons sz rest induction =>
      rcases placed.next with ⟨exact, start, _⟩
      have nonzero := placed.next_ne_zero
      simp only [RequestsSound, RequestsFit]
      by_cases fits : (alignUp heap.kheapBrk 8).toNat + sz.toNat < 18446744073709551616
      · cases kmalloc_fitting placed fits with
        | inl refused =>
            simp only [refused, UInt64.le_refl, if_true, true_and, fits]
            exact induction placed below
        | inr granted =>
            rcases granted with ⟨heap', ran, placed', sameBegin, sameEnd, brk, inside⟩
            have behind := fun block member => below block member
            have begun := placed.begun
            simp only [ran, nonzero, if_false, fits, true_and]
            rw [@induction _ (⟨alignUp heap.kheapBrk 8, sz⟩ :: given) placed' ?_]
            · refine ⟨fun sound => sound.2.2, fun rest => ⟨?_, ⟨?_, ?_, ?_, ?_⟩, rest⟩⟩
              · rw [UInt64.le_iff_toNat_le]
                omega
              · simp only [exact, Nat.mul_mod_left]
              · simp only
                omega
              · simp only
                omega
              · intro other member
                have earlier := behind other member
                simp only
                omega
            · intro block member
              cases List.mem_cons.mp member with
              | inl new =>
                  rw [new]
                  simp only
                  omega
              | inr old =>
                  have earlier := behind block old
                  omega
      · have returned := @kmalloc_wrapping heap placed sz (by omega)
        simp only [returned, nonzero, if_false, fits, false_and, iff_false]
        rintro ⟨_, sound, _⟩
        have inside := sound.below
        have bound := heap.kheapEnd.toNat_lt
        simp only at inside
        omega

theorem kheapInit_placed {kernelHighEnd : UInt64} (linked : kernelVma ≤ kernelHighEnd)
    (room : kernelHighEnd.toNat + 4095 + 33554432 < 18446744073709551616) :
    (kheapInit kernelHighEnd).Placed := by
  have aligned := @alignUp_toNat kernelHighEnd pageSize 12 (by decide) rfl (by omega)
  simp only [Nat.reducePow, Nat.reduceSub] at aligned
  rw [UInt64.le_iff_toNat_le] at linked
  have length : (kheapPages * pageSize).toNat = 33554432 := by decide
  have limit : (alignUp kernelHighEnd pageSize + kheapPages * pageSize).toNat =
      (alignUp kernelHighEnd pageSize).toNat + 33554432 := by
    rw [UInt64.toNat_add, length, Nat.mod_eq_of_lt]
    omega
  constructor
  · simp only [kheapInit]
    omega
  · simp only [kheapInit, limit]
    omega
  · exact Nat.le_refl _
  · simp only [kheapInit, limit]
    omega

/-- Behind a kernel in the upper 2 GiB, the blocks of a sequence of requests are
sound exactly when the end of each lies in the address space. -/
theorem kmalloc_requestsSound_iff {kernelHighEnd : UInt64} (linked : kernelVma ≤ kernelHighEnd)
    (room : kernelHighEnd.toNat + 4095 + 33554432 < 18446744073709551616)
    (requests : List UInt64) :
    RequestsSound requests (kheapInit kernelHighEnd) [] ↔
      RequestsFit requests (kheapInit kernelHighEnd) :=
  requestsSound_iff (kheapInit_placed linked room) (by simp)

theorem kmalloc_requestsSound_small :
    RequestsSound [100, 50000000, 24] (kheapInit 0xFFFFFFFF80400123) [] :=
  (kmalloc_requestsSound_iff (by decide) (by decide) [100, 50000000, 24]).mpr (by
    simp only [RequestsFit]
    decide)

/-- The pixels of a bitmap of 2^31 - 1 columns and 2^31 rows: the block is
granted at the start of the heap and the break moves below the kernel. -/
theorem kmalloc_grants_wrapping :
    ¬ ∀ (kernelHighEnd : UInt64) (requests : List UInt64), kernelVma ≤ kernelHighEnd →
      kernelHighEnd.toNat + 4095 + 33554432 < 18446744073709551616 →
      RequestsSound requests (kheapInit kernelHighEnd) [] := by
  intro claim
  have sound := claim 0xFFFFFFFF80400000 [0x7FFFFFFF * 0x80000000 * 4] (by decide) (by decide)
  simp only [RequestsSound] at sound
  exact absurd sound.1 (by decide)

end ParanOS

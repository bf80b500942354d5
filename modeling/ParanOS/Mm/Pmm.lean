import ParanOS.Kernel.Heap

/-! # The page pool

`pmm.c` hands out pages from a pool of 64 MiB behind the kernel image and takes none
back. Most of its calls return an address in the direct map of all memory, which
starts at the offset that `vmm_hhdm_offset` reports, and one returns the physical
address. The counts are those of the boot memory map where there is one, and of the
pool otherwise. `align_up` of `pmm.c` is that of the kernel heap.
-/

namespace ParanOS

open Foundation

/-! ## The code -/

structure MemmapEntry where
  length : UInt64
  type : UInt32

/-- What the pool gets from outside: where the kernel image ends, the start of the
direct map and the raw memory map. -/
structure PmmMachine where
  kernelPhysEnd : UInt64
  hhdmOffset : UInt64
  rawMemmap : List MemmapEntry

/-- The static variables of `pmm.c`. -/
structure Pmm where
  fbBase : UInt64
  fbLimit : UInt64
  fbCursor : UInt64
  fbTotalPages : UInt32
  memmapTotalPages : UInt32
  memmapTotalReady : Bool
  bootTotalPages : UInt32

/-- The variables before the first call. The loader may have set the page count. -/
def Pmm.booted (bootTotalPages : UInt32) : Pmm := ⟨0, 0, 0, 0, 0, false, bootTotalPages⟩

def fallbackPoolSize : UInt64 := 64 * 1024 * 1024

def ensureFallbackPool (machine : PmmMachine) (pmm : Pmm) : Pmm :=
  if pmm.fbBase ≠ 0 then pmm
  else
    let base := alignUp machine.kernelPhysEnd pageSize
    let limit := base + fallbackPoolSize
    { pmm with
      fbBase := base
      fbLimit := limit
      fbCursor := base
      fbTotalPages := ((limit - base) / pageSize).toUInt32 }

/-- Usable, reclaimable from the loader, kernel and modules, framebuffer,
reclaimable from EFI. -/
def MemmapEntry.isCounted (entry : MemmapEntry) : Bool :=
  entry.type == 1 || entry.type == 0x1000 || entry.type == 0x1001 || entry.type == 0x1002 ||
    entry.type == 0x2000

def memmapLength (memmap : List MemmapEntry) : UInt64 :=
  memmap.foldl (fun total entry => if entry.isCounted then total + entry.length else total) 0

def computeMemmapTotal (machine : PmmMachine) (pmm : Pmm) : Pmm :=
  if pmm.bootTotalPages ≠ 0 then
    { pmm with memmapTotalPages := pmm.bootTotalPages, memmapTotalReady := true }
  else if pmm.memmapTotalReady then pmm
  else
    let total := memmapLength machine.rawMemmap
    if total > 0 then
      { pmm with memmapTotalPages := (total / pageSize).toUInt32, memmapTotalReady := true }
    else pmm

def pmmInit (machine : PmmMachine) (pmm : Pmm) : Pmm := ensureFallbackPool machine pmm

/-- The address of the page in the direct map, 0 for none. -/
def pmmAlloc (machine : PmmMachine) (pmm : Pmm) : UInt64 × Pmm :=
  let pmm := ensureFallbackPool machine pmm
  if pmm.fbCursor + pageSize > pmm.fbLimit then (0, pmm)
  else
    let phys := pmm.fbCursor
    (phys + machine.hhdmOffset, { pmm with fbCursor := pmm.fbCursor + pageSize })

def pmmAllocPhys (machine : PmmMachine) (pmm : Pmm) : UInt32 × Pmm :=
  let (addr, pmm) := pmmAlloc machine pmm
  if addr = 0 then (0, pmm)
  else if addr ≥ machine.hhdmOffset then ((addr - machine.hhdmOffset).toUInt32, pmm)
  else (addr.toUInt32, pmm)

def pmmAllocLow4m (machine : PmmMachine) (pmm : Pmm) : UInt64 × Pmm := pmmAlloc machine pmm

def pmmAllocContig (machine : PmmMachine) (pages : UInt32) (pmm : Pmm) : UInt64 × Pmm :=
  let pmm := ensureFallbackPool machine pmm
  let need := pages.toUInt64 * pageSize
  if pmm.fbCursor + need > pmm.fbLimit then (0, pmm)
  else
    let phys := pmm.fbCursor
    (phys + machine.hhdmOffset, { pmm with fbCursor := pmm.fbCursor + need })

def pmmFreeCount (machine : PmmMachine) (pmm : Pmm) : UInt32 × Pmm :=
  let pmm := computeMemmapTotal machine (ensureFallbackPool machine pmm)
  let fbUsed := if pmm.fbCursor > pmm.fbBase then
    ((pmm.fbCursor - pmm.fbBase) / pageSize).toUInt32 else 0
  if pmm.memmapTotalPages = 0 then
    (if pmm.fbLimit > pmm.fbCursor then
      ((pmm.fbLimit - pmm.fbCursor) / pageSize).toUInt32 else 0, pmm)
  else if pmm.memmapTotalPages > fbUsed then (pmm.memmapTotalPages - fbUsed, pmm)
  else (0, pmm)

def pmmTotalCount (machine : PmmMachine) (pmm : Pmm) : UInt32 × Pmm :=
  let pmm := computeMemmapTotal machine (ensureFallbackPool machine pmm)
  if pmm.memmapTotalPages ≠ 0 then (pmm.memmapTotalPages, pmm) else (pmm.fbTotalPages, pmm)

/-! ## Sequences of calls -/

inductive PmmCall
  | alloc
  | allocPhys
  | allocLow4m
  | allocContig (pages : UInt32)
  | freeCount
  | totalCount
  deriving DecidableEq

/-- Pages that a call has handed out: the value that it returned, the physical
address of the first page and the number of pages. -/
structure PageGrant where
  returned : Nat
  phys : Nat
  pages : Nat
  deriving DecidableEq

/-- The pages behind an address of the direct map, none behind the null pointer. -/
def mappedGrant (machine : PmmMachine) (va : UInt64) (pages : Nat) : Option PageGrant :=
  if va = 0 then none else some ⟨va.toNat, va.toNat - machine.hhdmOffset.toNat, pages⟩

def physGrant (phys : UInt32) : Option PageGrant :=
  if phys = 0 then none else some ⟨phys.toNat, phys.toNat, 1⟩

def PmmCall.run (machine : PmmMachine) (pmm : Pmm) : PmmCall → Option PageGrant × Pmm
  | .alloc => ((mappedGrant machine (pmmAlloc machine pmm).1 1), (pmmAlloc machine pmm).2)
  | .allocPhys => (physGrant (pmmAllocPhys machine pmm).1, (pmmAllocPhys machine pmm).2)
  | .allocLow4m =>
      (mappedGrant machine (pmmAllocLow4m machine pmm).1 1, (pmmAllocLow4m machine pmm).2)
  | .allocContig pages =>
      (mappedGrant machine (pmmAllocContig machine pages pmm).1 pages.toNat,
        (pmmAllocContig machine pages pmm).2)
  | .freeCount => (none, (pmmFreeCount machine pmm).2)
  | .totalCount => (none, (pmmTotalCount machine pmm).2)

/-- What the calls hand out, the last first, and the variables afterwards. -/
def runPmmCalls (machine : PmmMachine) : List PmmCall → Pmm → List PageGrant → List PageGrant × Pmm
  | [], pmm, given => (given, pmm)
  | call :: rest, pmm, given =>
      let (grant, pmm) := call.run machine pmm
      runPmmCalls machine rest pmm (grant.toList ++ given)

/-- The call asks for pages, and for at least one. -/
def PmmCall.Allocates : PmmCall → Prop
  | .allocContig pages => pages ≠ 0
  | .freeCount | .totalCount => False
  | _ => True

/-- A kernel image whose pool lies in the first 4 GiB, and a direct map that covers
them. -/
structure PmmMachine.Placed (machine : PmmMachine) : Prop where
  base : alignUp machine.kernelPhysEnd pageSize ≠ 0
  low : (alignUp machine.kernelPhysEnd pageSize).toNat < 4294967296 - fallbackPoolSize.toNat
  mapAligned : machine.hhdmOffset.toNat % 4096 = 0
  mapRoom : machine.hhdmOffset.toNat + 4294967296 ≤ 18446744073709551616

/-- The number of pages of the boot memory map, as far as 32 bits hold it. -/
def PmmMachine.memmapTotal (machine : PmmMachine) (bootTotalPages : UInt32) : UInt32 :=
  if bootTotalPages ≠ 0 then bootTotalPages
  else (memmapLength machine.rawMemmap / pageSize).toUInt32

def pagesGiven (given : List PageGrant) : Nat := (given.map PageGrant.pages).sum

/-- What a caller expects of the pages. -/
structure PageGrant.Sound (pmm : Pmm) (grant : PageGrant) : Prop where
  returnedAligned : grant.returned % 4096 = 0
  physAligned : grant.phys % 4096 = 0
  above : pmm.fbBase.toNat ≤ grant.phys
  below : grant.phys + 4096 * grant.pages ≤ pmm.fbLimit.toNat

def PageGrant.Apart (grant other : PageGrant) : Prop :=
  grant.phys + 4096 * grant.pages ≤ other.phys ∨ other.phys + 4096 * other.pages ≤ grant.phys

/-! ## The variables between calls -/

/-- The pool is set up and `used` of its pages are handed out. -/
structure Pmm.Pool (machine : PmmMachine) (used : Nat) (pmm : Pmm) : Prop where
  base : pmm.fbBase = alignUp machine.kernelPhysEnd pageSize
  limit : pmm.fbLimit = alignUp machine.kernelPhysEnd pageSize + fallbackPoolSize
  cursor : pmm.fbCursor.toNat = pmm.fbBase.toNat + 4096 * used
  room : pmm.fbCursor.toNat ≤ pmm.fbLimit.toNat
  total : pmm.fbTotalPages = 16384

/-- The count of the memory map is not made yet or is the count. -/
structure Pmm.Counted (machine : PmmMachine) (bootTotalPages : UInt32) (pmm : Pmm) : Prop where
  boot : pmm.bootTotalPages = bootTotalPages
  pending : pmm.memmapTotalReady = false → pmm.memmapTotalPages = 0
  ready : pmm.memmapTotalReady = true → pmm.memmapTotalPages = machine.memmapTotal bootTotalPages

theorem alignUp_page (value : UInt64) : (alignUp value pageSize).toNat % 4096 = 0 := by
  have mask : (~~~(pageSize - 1)).toNat = 2 ^ 64 - 2 ^ 12 := by decide
  rw [alignUp, UInt64.toNat_and, mask,
    and_highMask 12 (value + (pageSize - 1)).toNat_lt (by decide)]
  exact Nat.mul_mod_left _ _

section

variable {machine : PmmMachine} (placed : machine.Placed)
include placed

theorem PmmMachine.Placed.limit :
    (alignUp machine.kernelPhysEnd pageSize + fallbackPoolSize).toNat =
      (alignUp machine.kernelPhysEnd pageSize).toNat + 67108864 := by
  have low := placed.low
  have size : fallbackPoolSize.toNat = 67108864 := by decide
  rw [UInt64.toNat_add, size, Nat.mod_eq_of_lt]
  omega

theorem pmmInit_pool (bootTotalPages : UInt32) :
    (pmmInit machine (Pmm.booted bootTotalPages)).Pool machine 0 := by
  have length : alignUp machine.kernelPhysEnd pageSize + fallbackPoolSize -
      alignUp machine.kernelPhysEnd pageSize = fallbackPoolSize := by
    rw [UInt64.add_comm, UInt64.add_sub_cancel]
  have pages : (fallbackPoolSize / pageSize).toUInt32 = 16384 := by decide
  have limit := placed.limit
  simp only [pmmInit, ensureFallbackPool, Pmm.booted, ne_eq, not_true_eq_false, if_false, length,
    pages]
  constructor
  · rfl
  · rfl
  · rfl
  · simp only [limit]
    omega
  · rfl

end

theorem pmmInit_counted (machine : PmmMachine) (bootTotalPages : UInt32) :
    (pmmInit machine (Pmm.booted bootTotalPages)).Counted machine bootTotalPages := by
  simp only [pmmInit, ensureFallbackPool, Pmm.booted, ne_eq, not_true_eq_false, if_false]
  constructor
  · rfl
  · intro _
    rfl
  · intro ready
    simp at ready

theorem ensureFallbackPool_set {machine : PmmMachine} {pmm : Pmm} (set : pmm.fbBase ≠ 0) :
    ensureFallbackPool machine pmm = pmm := by
  rw [ensureFallbackPool, if_pos set]

theorem Pmm.Pool.ensured {machine : PmmMachine} (placed : machine.Placed) {used : Nat} {pmm : Pmm}
    (pool : pmm.Pool machine used) : ensureFallbackPool machine pmm = pmm := by
  apply ensureFallbackPool_set
  rw [pool.base]
  exact placed.base

/-- The first call sets the pool up as `pmm_init` does. -/
theorem PmmCall.run_pmmInit {machine : PmmMachine} {pmm : Pmm}
    (set : (pmmInit machine pmm).fbBase ≠ 0) (call : PmmCall) :
    call.run machine (pmmInit machine pmm) = call.run machine pmm := by
  have again : ensureFallbackPool machine (pmmInit machine pmm) =
      ensureFallbackPool machine pmm := ensureFallbackPool_set set
  cases call <;>
    simp only [PmmCall.run, pmmAlloc, pmmAllocPhys, pmmAllocLow4m, pmmAllocContig, pmmFreeCount,
      pmmTotalCount, again]

/-! ## One call -/

theorem pmmAlloc_eq (machine : PmmMachine) (pmm : Pmm) :
    pmmAlloc machine pmm = pmmAllocContig machine 1 pmm := by
  have need : (1 : UInt32).toUInt64 * pageSize = pageSize := by decide
  simp only [pmmAlloc, pmmAllocContig, need]

/-- Counting the memory map leaves the pool alone. -/
theorem computeMemmapTotal_spec {machine : PmmMachine} {bootTotalPages : UInt32} {pmm : Pmm}
    (counted : pmm.Counted machine bootTotalPages) :
    (computeMemmapTotal machine pmm).Counted machine bootTotalPages ∧
      (computeMemmapTotal machine pmm).memmapTotalPages = machine.memmapTotal bootTotalPages ∧
      computeMemmapTotal machine pmm =
        { pmm with
          memmapTotalPages := (computeMemmapTotal machine pmm).memmapTotalPages
          memmapTotalReady := (computeMemmapTotal machine pmm).memmapTotalReady } := by
  cases counted.boot
  simp only [computeMemmapTotal]
  split
  · next given =>
      have total : machine.memmapTotal pmm.bootTotalPages = pmm.bootTotalPages := by
        rw [PmmMachine.memmapTotal, if_pos given]
      exact ⟨⟨rfl, fun pending => by simp at pending, fun _ => total.symm⟩, total.symm, rfl⟩
  · next absent =>
      have total : machine.memmapTotal pmm.bootTotalPages =
          (memmapLength machine.rawMemmap / pageSize).toUInt32 := by
        rw [PmmMachine.memmapTotal, if_neg absent]
      split
      · next ready => exact ⟨counted, counted.ready ready, rfl⟩
      · next pending =>
          have unset := counted.pending (by simpa using pending)
          split
          · exact ⟨⟨rfl, fun pending => by simp at pending, fun _ => total.symm⟩, total.symm, rfl⟩
          · next empty =>
              have zero : memmapLength machine.rawMemmap = 0 :=
                UInt64.le_zero_iff.mp (UInt64.not_lt.mp empty)
              refine ⟨counted, ?_, rfl⟩
              rw [unset, total, zero]
              decide

theorem Pmm.Pool.cursor_aligned {machine : PmmMachine} {used : Nat} {pmm : Pmm}
    (pool : pmm.Pool machine used) : pmm.fbCursor.toNat % 4096 = 0 := by
  have aligned := alignUp_page machine.kernelPhysEnd
  rw [← pool.base] at aligned
  have cursor := pool.cursor
  omega

theorem Pmm.Pool.cursor_pos {machine : PmmMachine} (placed : machine.Placed) {used : Nat}
    {pmm : Pmm} (pool : pmm.Pool machine used) : 0 < pmm.fbCursor.toNat := by
  have base : 0 < pmm.fbBase.toNat := by
    rw [pool.base, Nat.pos_iff_ne_zero, ne_eq, ← UInt64.toNat_zero, UInt64.toNat_inj]
    exact placed.base
  have cursor := pool.cursor
  omega

theorem Pmm.Pool.of_memmap {machine : PmmMachine} {used : Nat} {pmm : Pmm}
    (pool : pmm.Pool machine used) (pages : UInt32) (ready : Bool) :
    { pmm with memmapTotalPages := pages, memmapTotalReady := ready }.Pool machine used :=
  ⟨pool.base, pool.limit, pool.cursor, pool.room, pool.total⟩

section

variable {machine : PmmMachine} (placed : machine.Placed)
include placed

/-- A request is refused or gets the next pages of the pool. -/
theorem pmmAllocContig_spec {used : Nat} {pmm : Pmm} {bootTotalPages : UInt32}
    (pool : pmm.Pool machine used) (counted : pmm.Counted machine bootTotalPages)
    (pages : UInt32) :
    pmmAllocContig machine pages pmm = (0, pmm) ∨
      ∃ va pmm', pmmAllocContig machine pages pmm = (va, pmm') ∧ va ≠ 0 ∧
        va.toNat = pmm.fbCursor.toNat + machine.hhdmOffset.toNat ∧
        pmm'.Pool machine (used + pages.toNat) ∧ pmm'.Counted machine bootTotalPages := by
  have low := placed.low
  have mapRoom := placed.mapRoom
  have limit : pmm.fbLimit.toNat = (alignUp machine.kernelPhysEnd pageSize).toNat + 67108864 := by
    rw [pool.limit, placed.limit]
  have size : fallbackPoolSize.toNat = 67108864 := by decide
  have few := pages.toNat_lt
  have cursor := pool.cursor
  have positive := pool.cursor_pos placed
  have room := pool.room
  have page : pageSize.toNat = 4096 := by decide
  have need : (pages.toUInt64 * pageSize).toNat = pages.toNat * 4096 := by
    rw [UInt64.toNat_mul, UInt32.toNat_toUInt64, page, Nat.mod_eq_of_lt]
    omega
  have sum : (pmm.fbCursor + pages.toUInt64 * pageSize).toNat =
      pmm.fbCursor.toNat + pages.toNat * 4096 := by
    rw [UInt64.toNat_add, need, Nat.mod_eq_of_lt]
    omega
  have mapped : (pmm.fbCursor + machine.hhdmOffset).toNat =
      pmm.fbCursor.toNat + machine.hhdmOffset.toNat := by
    rw [UInt64.toNat_add, Nat.mod_eq_of_lt]
    omega
  simp only [pmmAllocContig, pool.ensured placed]
  split
  · exact .inl rfl
  · next fits =>
      have inside : (pmm.fbCursor + pages.toUInt64 * pageSize).toNat ≤ pmm.fbLimit.toNat := by
        rw [← UInt64.le_iff_toNat_le]
        exact UInt64.not_lt.mp fits
      refine .inr ⟨_, _, rfl, ?_, mapped, ⟨pool.base, pool.limit, ?_, inside, pool.total⟩,
        ⟨counted.boot, counted.pending, counted.ready⟩⟩
      · intro null
        rw [null, UInt64.toNat_zero] at mapped
        omega
      · simp only [sum, cursor]
        omega

/-- What a call that asks for pages can do: nothing, or hand out the next pages of the
pool. -/
def Requested (machine : PmmMachine) (bootTotalPages : UInt32) (used : Nat) (pmm : Pmm)
    (result : Option PageGrant × Pmm) : Prop :=
  result = (none, pmm) ∨
    ∃ grant pmm', result = (some grant, pmm') ∧ grant.returned % 4096 = 0 ∧
      grant.phys = pmm.fbCursor.toNat ∧ pmm'.Pool machine (used + grant.pages) ∧
      pmm'.Counted machine bootTotalPages

/-- The calls that return an address of the direct map. -/
theorem mappedGrant_requested {used : Nat} {pmm : Pmm} {bootTotalPages : UInt32}
    (pool : pmm.Pool machine used) (counted : pmm.Counted machine bootTotalPages)
    (pages : UInt32) :
    Requested machine bootTotalPages used pmm
      (mappedGrant machine (pmmAllocContig machine pages pmm).1 pages.toNat,
        (pmmAllocContig machine pages pmm).2) := by
  have aligned := pool.cursor_aligned
  have mapAligned := placed.mapAligned
  cases pmmAllocContig_spec placed pool counted pages with
  | inl refused =>
      left
      simp only [refused, mappedGrant, if_true]
  | inr granted =>
      rcases granted with ⟨va, pmm', ran, nonzero, address, pool', counted'⟩
      right
      refine ⟨⟨va.toNat, va.toNat - machine.hhdmOffset.toNat, pages.toNat⟩, pmm', ?_, ?_, ?_,
        pool', counted'⟩
      · simp only [ran, mappedGrant, if_neg nonzero]
      · simp only
        omega
      · simp only
        omega

theorem physGrant_requested {used : Nat} {pmm : Pmm} {bootTotalPages : UInt32}
    (pool : pmm.Pool machine used) (counted : pmm.Counted machine bootTotalPages) :
    Requested machine bootTotalPages used pmm
      (physGrant (pmmAllocPhys machine pmm).1, (pmmAllocPhys machine pmm).2) := by
  have aligned := pool.cursor_aligned
  have positive := pool.cursor_pos placed
  have room := pool.room
  rw [pool.limit, placed.limit] at room
  have low := placed.low
  have size : fallbackPoolSize.toNat = 67108864 := by decide
  simp only [pmmAllocPhys, pmmAlloc_eq]
  cases pmmAllocContig_spec placed pool counted 1 with
  | inl refused =>
      left
      simp only [refused, physGrant, if_true]
  | inr granted =>
      rcases granted with ⟨va, pmm', ran, nonzero, address, pool', counted'⟩
      have beyond : va ≥ machine.hhdmOffset := by
        rw [ge_iff_le, UInt64.le_iff_toNat_le]
        omega
      have phys : (va - machine.hhdmOffset).toUInt32.toNat = pmm.fbCursor.toNat := by
        rw [UInt64.toNat_toUInt32, UInt64.toNat_sub_of_le _ _ beyond, address]
        omega
      have given : (va - machine.hhdmOffset).toUInt32 ≠ 0 := by
        intro null
        rw [null, UInt32.toNat_zero] at phys
        omega
      right
      refine ⟨⟨pmm.fbCursor.toNat, pmm.fbCursor.toNat, 1⟩, pmm', ?_, aligned, rfl, pool',
        counted'⟩
      simp only [ran, if_neg nonzero, if_pos beyond, physGrant, if_neg given, phys]

theorem PmmCall.run_requested {used : Nat} {pmm : Pmm} {bootTotalPages : UInt32}
    (pool : pmm.Pool machine used) (counted : pmm.Counted machine bootTotalPages)
    {call : PmmCall} (allocates : call.Allocates) :
    Requested machine bootTotalPages used pmm (call.run machine pmm) := by
  have one := mappedGrant_requested placed pool counted 1
  rw [← pmmAlloc_eq] at one
  cases call with
  | alloc => exact one
  | allocPhys => exact physGrant_requested placed pool counted
  | allocLow4m => exact one
  | allocContig pages => exact mappedGrant_requested placed pool counted pages
  | freeCount => exact absurd allocates id
  | totalCount => exact absurd allocates id

/-- The counting calls hand out nothing and leave the pool alone. -/
theorem PmmCall.run_counts {used : Nat} {pmm : Pmm} {bootTotalPages : UInt32}
    (pool : pmm.Pool machine used) (counted : pmm.Counted machine bootTotalPages)
    {call : PmmCall} (counts : call = .freeCount ∨ call = .totalCount) :
    call.run machine pmm = (none, computeMemmapTotal machine pmm) ∧
      (computeMemmapTotal machine pmm).Pool machine used ∧
      (computeMemmapTotal machine pmm).Counted machine bootTotalPages := by
  rcases computeMemmapTotal_spec counted with ⟨counted', _, same⟩
  refine ⟨?_, ?_, counted'⟩
  · cases counts with
    | inl free =>
        rw [free]
        simp only [PmmCall.run, pmmFreeCount, pool.ensured placed, apply_ite Prod.snd, ite_self]
    | inr total =>
        rw [total]
        simp only [PmmCall.run, pmmTotalCount, pool.ensured placed, apply_ite Prod.snd, ite_self]
  · rw [same]
    exact pool.of_memmap _ _

theorem Pmm.Pool.used_le {used : Nat} {pmm : Pmm} (pool : pmm.Pool machine used) :
    pmm.fbLimit.toNat = pmm.fbBase.toNat + 67108864 ∧ used ≤ 16384 := by
  have limit : pmm.fbLimit.toNat = pmm.fbBase.toNat + 67108864 := by
    rw [pool.limit, pool.base, placed.limit]
  have cursor := pool.cursor
  have room := pool.room
  exact ⟨limit, by omega⟩

/-- The pages that the counts take as used are those handed out. -/
theorem Pmm.Pool.counts {used : Nat} {pmm : Pmm} {bootTotalPages : UInt32}
    (pool : pmm.Pool machine used) (counted : pmm.Counted machine bootTotalPages)
    (enough : machine.memmapTotal bootTotalPages = 0 ∨
      used ≤ (machine.memmapTotal bootTotalPages).toNat) :
    (pmmFreeCount machine pmm).1.toNat + used = (pmmTotalCount machine pmm).1.toNat := by
  rcases computeMemmapTotal_spec counted with ⟨_, count, same⟩
  rcases pool.used_le placed with ⟨limit, few⟩
  have cursor := pool.cursor
  have page : pageSize.toNat = 4096 := by decide
  have usedPages : (if pmm.fbCursor > pmm.fbBase then
      ((pmm.fbCursor - pmm.fbBase) / pageSize).toUInt32 else 0).toNat = used := by
    split
    · next above =>
        have ordered : pmm.fbBase ≤ pmm.fbCursor := UInt64.le_of_lt above
        rw [UInt64.toNat_toUInt32, UInt64.toNat_div, UInt64.toNat_sub_of_le _ _ ordered, page]
        omega
    · next below =>
        rw [gt_iff_lt, UInt64.lt_iff_toNat_lt] at below
        rw [UInt32.toNat_zero]
        omega
  have freePages : (if pmm.fbLimit > pmm.fbCursor then
      ((pmm.fbLimit - pmm.fbCursor) / pageSize).toUInt32 else 0).toNat = 16384 - used := by
    split
    · next above =>
        have ordered : pmm.fbCursor ≤ pmm.fbLimit := UInt64.le_of_lt above
        rw [UInt64.toNat_toUInt32, UInt64.toNat_div, UInt64.toNat_sub_of_le _ _ ordered, page]
        omega
    · next below =>
        rw [gt_iff_lt, UInt64.lt_iff_toNat_lt] at below
        rw [UInt32.toNat_zero]
        omega
  simp only [pmmFreeCount, pmmTotalCount, pool.ensured placed]
  rw [same, count]
  simp only [pool.total]
  generalize (if pmm.fbCursor > pmm.fbBase then
    ((pmm.fbCursor - pmm.fbBase) / pageSize).toUInt32 else 0) = fbUsed at usedPages ⊢
  by_cases none : machine.memmapTotal bootTotalPages = 0
  · simp only [none, if_true, ne_eq, not_true_eq_false, if_false, freePages]
    change 16384 - used + used = 16384
    omega
  · have enough := enough.resolve_left none
    simp only [none, if_false, ne_eq, not_false_eq_true, if_true]
    split
    · next more =>
        rw [UInt32.toNat_sub_of_le _ _ (UInt32.le_of_lt more)]
        omega
    · next exhausted =>
        rw [gt_iff_lt, UInt32.lt_iff_toNat_lt] at exhausted
        rw [UInt32.toNat_zero]
        omega

/-! ## Runs -/

/-- What holds between two calls: the pages handed out fill the pool up to the
cursor. -/
structure PmmRun (machine : PmmMachine) (bootTotalPages : UInt32) (given : List PageGrant)
    (pmm : Pmm) : Prop where
  pool : pmm.Pool machine (pagesGiven given)
  counted : pmm.Counted machine bootTotalPages
  sound : ∀ grant ∈ given, grant.Sound pmm
  behind : ∀ grant ∈ given, grant.phys + 4096 * grant.pages ≤ pmm.fbCursor.toNat
  apart : given.Pairwise PageGrant.Apart

omit placed in
theorem PageGrant.Sound.of_pool {used used' : Nat} {pmm pmm' : Pmm} {grant : PageGrant}
    (sound : grant.Sound pmm) (pool : pmm.Pool machine used) (pool' : pmm'.Pool machine used') :
    grant.Sound pmm' := by
  have base : pmm'.fbBase = pmm.fbBase := by rw [pool.base, pool'.base]
  have limit : pmm'.fbLimit = pmm.fbLimit := by rw [pool.limit, pool'.limit]
  refine ⟨sound.returnedAligned, sound.physAligned, ?_, ?_⟩
  · rw [base]
    exact sound.above
  · rw [limit]
    exact sound.below

omit placed in
/-- The next pages of the pool join those handed out before. -/
theorem PmmRun.grant {bootTotalPages : UInt32} {given : List PageGrant} {pmm pmm' : Pmm}
    (run : PmmRun machine bootTotalPages given pmm) {grant : PageGrant}
    (aligned : grant.returned % 4096 = 0) (phys : grant.phys = pmm.fbCursor.toNat)
    (pool : pmm'.Pool machine (pagesGiven given + grant.pages))
    (counted : pmm'.Counted machine bootTotalPages) :
    PmmRun machine bootTotalPages (grant :: given) pmm' := by
  have before := run.pool.cursor
  have after := pool.cursor
  have cursorAligned := run.pool.cursor_aligned
  have room := pool.room
  have base : pmm'.fbBase = pmm.fbBase := by rw [pool.base, run.pool.base]
  rw [base] at after
  constructor
  · simpa [pagesGiven, Nat.add_comm] using pool
  · exact counted
  · intro other member
    cases List.mem_cons.mp member with
    | inl new =>
        rw [new]
        refine ⟨aligned, by omega, ?_, by omega⟩
        rw [base]
        omega
    | inr old => exact (run.sound other old).of_pool run.pool pool
  · intro other member
    cases List.mem_cons.mp member with
    | inl new =>
        rw [new]
        omega
    | inr old =>
        have earlier := run.behind other old
        omega
  · refine List.pairwise_cons.mpr ⟨?_, run.apart⟩
    intro other member
    have earlier := run.behind other member
    right
    omega

theorem PmmRun.step {bootTotalPages : UInt32} {given : List PageGrant} {pmm : Pmm}
    (run : PmmRun machine bootTotalPages given pmm) {call : PmmCall}
    (wanted : call ≠ .allocContig 0) :
    PmmRun machine bootTotalPages ((call.run machine pmm).1.toList ++ given)
      (call.run machine pmm).2 := by
  have kinds : (call = .freeCount ∨ call = .totalCount) ∨ call.Allocates := by
    cases call with
    | alloc | allocPhys | allocLow4m => exact .inr True.intro
    | allocContig pages => exact .inr fun zero => wanted (by rw [zero])
    | freeCount => exact .inl (.inl rfl)
    | totalCount => exact .inl (.inr rfl)
  cases kinds with
  | inl counts =>
      rcases PmmCall.run_counts placed run.pool run.counted counts with ⟨ran, pool, counted⟩
      rcases computeMemmapTotal_spec run.counted with ⟨_, _, same⟩
      have cursor : (computeMemmapTotal machine pmm).fbCursor = pmm.fbCursor := by rw [same]
      rw [ran]
      refine ⟨pool, counted, fun grant member => (run.sound grant member).of_pool run.pool pool,
        ?_, run.apart⟩
      simp only [cursor]
      exact run.behind
  | inr allocates =>
      cases PmmCall.run_requested placed run.pool run.counted allocates with
      | inl refused =>
          rw [refused]
          exact run
      | inr granted =>
          rcases granted with ⟨grant, pmm', ran, aligned, phys, pool, counted⟩
          rw [ran]
          exact run.grant aligned phys pool counted

theorem runPmmCalls_run {bootTotalPages : UInt32} {calls : List PmmCall}
    (wanted : .allocContig 0 ∉ calls) {given : List PageGrant} {pmm : Pmm}
    (run : PmmRun machine bootTotalPages given pmm) :
    PmmRun machine bootTotalPages (runPmmCalls machine calls pmm given).1
      (runPmmCalls machine calls pmm given).2 := by
  induction calls generalizing given pmm with
  | nil => exact run
  | cons call rest induction =>
      rw [List.mem_cons, not_or] at wanted
      exact induction wanted.2 (run.step placed (Ne.symm wanted.1))

theorem pmmInit_run (bootTotalPages : UInt32) :
    PmmRun machine bootTotalPages [] (pmmInit machine (Pmm.booted bootTotalPages)) :=
  ⟨pmmInit_pool placed bootTotalPages, pmmInit_counted machine bootTotalPages, by simp, by simp,
    .nil⟩

/-- Whatever calls are made, the pages handed out are aligned, in the pool and apart; a
call that fails changes nothing; and where the memory map is empty or covers the pages
handed out, the counts differ by their number. -/
theorem runPmmCalls_sound (bootTotalPages : UInt32) {calls : List PmmCall}
    (wanted : .allocContig 0 ∉ calls) :
    let start := pmmInit machine (Pmm.booted bootTotalPages)
    let (given, pmm) := runPmmCalls machine calls start []
    (∀ grant ∈ given, grant.Sound start) ∧ given.Pairwise PageGrant.Apart ∧
      (∀ call : PmmCall, call.Allocates → (call.run machine pmm).1 = none →
        (call.run machine pmm).2 = pmm) ∧
      (machine.memmapTotal bootTotalPages = 0 ∨
          pagesGiven given ≤ (machine.memmapTotal bootTotalPages).toNat →
        (pmmFreeCount machine pmm).1.toNat + pagesGiven given =
          (pmmTotalCount machine pmm).1.toNat) := by
  have start := pmmInit_run placed bootTotalPages
  have run := runPmmCalls_run placed wanted start
  refine ⟨?_, run.apart, ?_, run.pool.counts placed run.counted⟩
  · intro grant member
    exact (run.sound grant member).of_pool run.pool start.pool
  · intro call allocates fails
    cases PmmCall.run_requested placed run.pool run.counted allocates with
    | inl refused => rw [refused]
    | inr granted =>
        rcases granted with ⟨grant, pmm', ran, _⟩
        rw [ran] at fails
        simp at fails

end

/-- An image that ends in the middle of a page, and 128 MiB of usable memory. -/
def smallMachine : PmmMachine :=
  ⟨0x1234567, 0xFFFF800000000000, [⟨0x8000000, 1⟩, ⟨0x1000, 2⟩]⟩

def mixedCalls : List PmmCall :=
  [.alloc, .allocContig 3, .freeCount, .allocPhys, .allocContig 0xFFFFFFFF, .allocLow4m]

theorem runPmmCalls_sound_mixed :
    let start := pmmInit smallMachine (Pmm.booted 0)
    let (given, pmm) := runPmmCalls smallMachine mixedCalls start []
    given.map PageGrant.phys = [0x123A000, 0x1239000, 0x1236000, 0x1235000] ∧
      given.Pairwise PageGrant.Apart ∧
      (pmmFreeCount smallMachine pmm).1.toNat + 6 = (pmmTotalCount smallMachine pmm).1.toNat := by
  have placed : smallMachine.Placed := ⟨by decide, by decide, by decide, by decide⟩
  have sound := @runPmmCalls_sound smallMachine placed 0 mixedCalls (by decide)
  exact ⟨by decide, sound.2.1, sound.2.2.2 (.inr (by decide))⟩

end ParanOS

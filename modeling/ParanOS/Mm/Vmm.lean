import ParanOS.Foundation.Bytes
import ParanOS.Foundation.Radix

/-! # Page tables

The page tables of `vmm.c`. A table is named by its physical address, through which
`phys_to_virt` reaches it, and holds 512 entries of 64 bits. The pages that
`alloc_table` returns come from a list; where the list is empty, the kernel has no
memory left and the call does not return. The walks of `vmm.c` go down through five
or four levels in the same way on each, so they are written by recursion on the level.
-/

namespace ParanOS

open Foundation

/-- Unsigned 64-bit wrap-around. -/
def u64 (value : Nat) : Nat := value % 18446744073709551616

/-! ## Entries -/

def ptIsTable (entry : Nat) : Bool := entry.testBit 0 && !entry.testBit 7

def ptIsLarge (entry : Nat) : Bool := entry.testBit 0 && entry.testBit 7

/-- Present, writable, for the user. -/
def ptTableFlags : Nat := 7

def ptFlagLarge : Nat := 128

def pteNew (addr flags : Nat) : Nat := addr ||| flags

def pteAddr (entry : Nat) : Nat := entry &&& 0x0000FFFFFFFFF000

/-- The table that an entry points to. -/
def nextTable (entry : Nat) : Option Nat :=
  if ptIsTable entry then some (pteAddr entry) else none

/-! ## The state -/

inductive PagingLevels
  | four
  | five
  deriving DecidableEq

def PagingLevels.count : PagingLevels → Nat
  | .four => 4
  | .five => 5

structure Pagemap where
  levels : PagingLevels
  topLevel : Nat

/-- The entries of all tables, by the table's address and the index, and the pages
for new tables. -/
structure Mmu where
  tables : Store Nat Nat Nat
  supply : List Nat

inductive PageSize
  | size4KiB
  | size2MiB
  | size1GiB
  deriving DecidableEq

namespace PageSize

/-- The level whose entries map a page of this size. -/
def level : PageSize → Nat
  | .size4KiB => 1
  | .size2MiB => 2
  | .size1GiB => 3

def bytes : PageSize → Nat
  | .size4KiB => 0x1000
  | .size2MiB => 0x200000
  | .size1GiB => 0x40000000

end PageSize

/-- The shift of `virt` for the index on a level: 12, 21, 30, 39, 48. -/
def pageShift (level : Nat) : Nat := 12 + 9 * (level - 1)

def pageIndex (level virt : Nat) : Nat := (virt >>> pageShift level) &&& 0x1ff

/-! ## Mapping -/

namespace Mmu

def setEntry (mmu : Mmu) (table index entry : Nat) : Mmu :=
  { mmu with tables := mmu.tables.set table index entry }

def allocTable (mmu : Mmu) : Option (Nat × Mmu) :=
  match mmu.supply with
  | [] => none
  | page :: rest => some (page, ⟨mmu.tables.fill page 0, rest⟩)

/-- The next table, which is made if it is missing, or nothing if a large page is
there. -/
def getNextLevel (mmu : Mmu) (currentLevel entry : Nat) : Option (Option Nat × Mmu) :=
  let old := mmu.tables currentLevel entry
  if ptIsTable old then some (some (pteAddr old), mmu)
  else if ptIsLarge old then some (none, mmu)
  else
    match mmu.allocTable with
    | none => none
    | some (page, mmu) =>
        some (some page, mmu.setEntry currentLevel entry (pteNew page ptTableFlags))

/-- The part of `map_page` that goes down from a table to the one on level `target`.
Below the topmost of five levels the result -1 is not checked, and is used as a
pointer; the kernel does not get past that. -/
def descend (virt target : Nat) : (steps table : Nat) → Mmu → Option (Option Nat × Mmu)
  | 0, table, mmu => some (some table, mmu)
  | steps + 1, table, mmu =>
      match mmu.getNextLevel table (pageIndex (target + steps + 1) virt) with
      | none => none
      | some (none, mmu) => if target + steps + 1 = 5 then none else some (none, mmu)
      | some (some next, mmu) => descend virt target steps next mmu

/-- The entry that maps a page. For 4 KiB bit 12 of the flags, the PAT bit of a large
page, moves to bit 7. -/
def leafEntry (phys flags : Nat) : PageSize → Nat
  | .size4KiB =>
      if flags.testBit 12 then phys ||| ((flags &&& 0xFFFFFFFFFFFFEFFF) ||| 0x80)
      else phys ||| flags
  | .size2MiB | .size1GiB => phys ||| flags ||| ptFlagLarge

/-- `map_page` where an entry of the page's own size is written. -/
def setPage (pagemap : Pagemap) (virt phys flags : Nat) (size : PageSize) (mmu : Mmu) :
    Option Mmu :=
  match descend virt size.level (pagemap.levels.count - size.level) pagemap.topLevel mmu with
  | none => none
  | some (none, mmu) => some mmu
  | some (some table, mmu) =>
      some (mmu.setEntry table (pageIndex size.level virt) (leafEntry phys (flags ||| 1) size))

/-- The loop of `map_page` over the 2 MiB pages of 1 GiB. -/
def setPieces (pagemap : Pagemap) (virt phys flags : Nat) (mmu : Mmu) : Option Mmu :=
  (List.range 512).foldlM
    (fun mmu piece => setPage pagemap (u64 (virt + piece * 0x200000))
      (u64 (phys + piece * 0x200000)) flags .size2MiB mmu) mmu

def mapPage (cpuHas1gibPages : Bool) (pagemap : Pagemap) (virt phys flags : Nat)
    (size : PageSize) (mmu : Mmu) : Option Mmu :=
  if size = .size1GiB ∧ cpuHas1gibPages = false then
    match descend virt 3 (pagemap.levels.count - 3) pagemap.topLevel mmu with
    | none => none
    | some (none, mmu) => some mmu
    | some (some _, mmu) => setPieces pagemap virt phys (flags ||| 1) mmu
  else setPage pagemap virt phys flags size mmu

/-- The page size that a turn of `map_pages` takes. -/
def pickSize (virt phys rest : Nat) : PageSize :=
  if phys &&& (0x40000000 - 1) = 0 ∧ virt &&& (0x40000000 - 1) = 0 ∧ 0x40000000 ≤ rest then
    .size1GiB
  else if phys &&& (0x200000 - 1) = 0 ∧ virt &&& (0x200000 - 1) = 0 ∧ 0x200000 ≤ rest then
    .size2MiB
  else .size4KiB

/-- The loop of `map_pages`. -/
def mapPagesFrom (cpuHas1gibPages : Bool) (pagemap : Pagemap) (virt phys flags count : Nat) :
    (turns i : Nat) → Mmu → Option Mmu
  | 0, _, mmu => some mmu
  | turns + 1, i, mmu =>
      if i < count then
        let size := pickSize (u64 (virt + i)) (u64 (phys + i)) (count - i)
        match mapPage cpuHas1gibPages pagemap (u64 (virt + i)) (u64 (phys + i)) flags size mmu with
        | none => none
        | some mmu =>
            mapPagesFrom cpuHas1gibPages pagemap virt phys flags count turns (i + size.bytes) mmu
      else some mmu

/-- Each turn maps 4 KiB or more, so this many are enough. -/
def mapPages (cpuHas1gibPages : Bool) (pagemap : Pagemap) (virt phys flags count : Nat)
    (mmu : Mmu) : Option Mmu :=
  mapPagesFrom cpuHas1gibPages pagemap virt phys flags count ((count + 0xFFF) / 0x1000) 0 mmu

end Mmu

/-! ## The older interface -/

/-- Where an address is mapped: the level, the table and the index. -/
structure Location where
  level : Nat
  table : Nat
  index : Nat

namespace Mmu

/-- The walk of `locate_entry` from a table on `level` down. -/
def locate (tables : Store Nat Nat Nat) (virt : Nat) : (level table : Nat) → Option Location
  | 0, _ => none
  | 1, table => some ⟨1, table, pageIndex 1 virt⟩
  | level + 2, table =>
      let entry := tables table (pageIndex (level + 2) virt)
      if level + 2 ≤ 3 ∧ ptIsLarge entry then some ⟨level + 2, table, pageIndex (level + 2) virt⟩
      else if ptIsTable entry then locate tables virt (level + 1) (pteAddr entry)
      else none

def locateEntry (pagemap : Pagemap) (virt : Nat) (mmu : Mmu) : Option Location :=
  locate mmu.tables virt pagemap.levels.count pagemap.topLevel

def entryAt (mmu : Mmu) (location : Location) : Nat :=
  mmu.tables location.table location.index

/-- One bit of an entry, as a legacy flag. -/
def legacyFlag (entry bit : Nat) : Nat :=
  if entry.testBit bit then 1 <<< bit else 0

/-- `VMM_P`, `VMM_RW`, `VMM_US`, `VMM_PWT` and `VMM_PCD`. -/
def entryToLegacyFlags (entry : Nat) : Nat :=
  legacyFlag entry 0 ||| legacyFlag entry 1 ||| legacyFlag entry 2 ||| legacyFlag entry 3 |||
    legacyFlag entry 4

/-- The flags that `vmm_map` passes on. -/
def mapFlags (flags : Nat) : Nat :=
  legacyFlag flags 1 ||| legacyFlag flags 3 ||| legacyFlag flags 4

/-- Whether `vmm_map` and `vmm_unmap` find a page at the address. -/
def isMapped (pagemap : Pagemap) (virt : Nat) (mmu : Mmu) : Bool :=
  match mmu.locateEntry pagemap virt with
  | some location => (mmu.entryAt location).testBit 0
  | none => false

def vmmMap (cpuHas1gibPages : Bool) (pagemap : Pagemap) (virt phys flags : Nat) (mmu : Mmu) :
    Option (Int × Mmu) :=
  if virt &&& 0xFFF ≠ 0 ∨ phys &&& 0xFFF ≠ 0 then some (-1, mmu)
  else if mmu.isMapped pagemap virt then some (-3, mmu)
  else (mapPage cpuHas1gibPages pagemap virt phys (mapFlags flags) .size4KiB mmu).map
    fun mmu => (0, mmu)

def vmmUnmap (pagemap : Pagemap) (virt : Nat) (mmu : Mmu) : Int × Mmu :=
  if virt &&& 0xFFF ≠ 0 then (-1, mmu)
  else
    match mmu.locateEntry pagemap virt with
    | none => (-2, mmu)
    | some location =>
        if (mmu.entryAt location).testBit 0 then
          (0, mmu.setEntry location.table location.index 0)
        else (-3, mmu)

/-- The error code, or the physical address and the flags. -/
def vmmQuery (pagemap : Pagemap) (virt : Nat) (mmu : Mmu) : Except Int (Nat × Nat) :=
  match mmu.locateEntry pagemap virt with
  | none => .error (-1)
  | some location =>
      let entry := mmu.entryAt location
      if entry.testBit 0 then
        .ok (u64 (pteAddr entry + (virt &&& (2 ^ pageShift location.level - 1))),
          entryToLegacyFlags entry)
      else .error (-2)

end Mmu

end ParanOS

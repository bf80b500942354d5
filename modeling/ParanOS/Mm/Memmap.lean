import Mathlib.Algebra.Group.Nat.Defs
import ParanOS.Foundation.Regions
import ParanOS.Foundation.Selection

/-! # The memory map of the loader

`pmm.s2.c` keeps the memory in a table of at most 512 entries. A range that is given
a type takes its addresses from the entries around it, and the table is tidied after
each change: usable entries are trimmed and taken off the first page, the table is
sorted, and neighbours of one type are joined. The allocators take their blocks from
the usable entries, `ext_mem_alloc` from the top down. The build is the one for BIOS.
-/

namespace ParanOS.Memmap

open Foundation

/-- Why a call does not return: a panic with its text, or a loop that leaves the table. -/
inductive Fault where
  | panic (text : String)
  | pastTable
  | endless
  deriving DecidableEq

structure Entry where
  base : UInt64
  length : UInt64
  type : UInt32
  deriving DecidableEq

def usable : UInt32 := 1
def bootloaderReclaimable : UInt32 := 0x1000
def kernelAndModules : UInt32 := 0x1001
def acpiTables : UInt32 := 0x1003

def memmapMaxEntries : Nat := 512

def alignUp (value align : UInt64) : UInt64 := (value + (align - 1)) / align * align

def alignDown (value align : UInt64) : UInt64 := value / align * align

def Entry.top (entry : Entry) : UInt64 := entry.base + entry.length

/-! ## Tidying the table -/

/-- The last entry takes the place of one that has been removed before the others. -/
def lastFirst (rest : List Entry) : List Entry :=
  match rest.getLast? with
  | none => []
  | some last => last :: rest.dropLast

/-- A usable entry without what another one has of it. -/
def trim (entry other : Entry) : Except Fault Entry :=
  let base := entry.base
  let top := base + entry.length
  let resBase := other.base
  let resTop := resBase + other.length
  if (resBase ≥ base ∧ resBase < top) ∧ (resTop ≥ base ∧ resTop < top) then
    .error (.panic "A non-usable memory map entry is inside a usable section.")
  else
    let newTop := if resBase ≥ base ∧ resBase < top then resBase else top
    let newBase := if resTop ≥ base ∧ resTop < newTop then resTop else base
    .ok { entry with base := newBase, length := newTop - newBase }

/-- `align_entry`, which looks at the pointer to the length at its end. -/
def alignEntry (entry : Entry) : Option Entry :=
  if entry.length < 4096 then none
  else
    let base := alignUp entry.base 4096
    some { entry with base, length := alignDown (entry.length - (base - entry.base)) 4096 }

/-- The entry after its trimming, where it stays. -/
def alignTrimmed (alignEntries : Bool) (entry : Entry) : Option Entry :=
  if entry.length = 0 then none
  else if alignEntries then alignEntry entry
  else some entry

/-- The first loop, at the entry that is the head of `todo`. Each step moves on or
removes an entry. -/
def trimEntries (alignEntries : Bool) :
    (steps : Nat) → (done todo : List Entry) → Except Fault (List Entry)
  | 0, done, todo => .ok (done ++ todo)
  | _, done, [] => .ok done
  | steps + 1, done, entry :: rest =>
      if entry.type ≠ usable then trimEntries alignEntries steps (done ++ [entry]) rest
      else
        match (done ++ rest).foldlM trim entry with
        | .error fault => .error fault
        | .ok trimmed =>
            match alignTrimmed alignEntries trimmed with
            | some entry => trimEntries alignEntries steps (done ++ [entry]) rest
            | none => trimEntries alignEntries steps done (lastFirst rest)

/-- A usable entry without the first page. -/
def offFirstPage (entry : Entry) : Option Entry :=
  if entry.base < 0x1000 then
    if entry.base + entry.length ≤ 0x1000 then none
    else some { entry with base := 0x1000, length := entry.length - (0x1000 - entry.base) }
  else some entry

/-- The loop that removes empty entries and those on the first page. -/
def dropEntries : (steps : Nat) → (done todo : List Entry) → List Entry
  | 0, done, todo => done ++ todo
  | _, done, [] => done
  | steps + 1, done, entry :: rest =>
      if entry.type ≠ usable then dropEntries steps (done ++ [entry]) rest
      else
        match (offFirstPage entry).filter fun entry => entry.length ≠ 0 with
        | some entry => dropEntries steps (done ++ [entry]) rest
        | none => dropEntries steps done (lastFirst rest)

/-- The types of which neighbours are joined. -/
def merges (type : UInt32) : Bool :=
  type = bootloaderReclaimable || type = acpiTables || type = usable

/-- The loop that joins an entry with those behind it. -/
def mergeEntries (entry : Entry) : List Entry → List Entry
  | [] => [entry]
  | next :: rest =>
      if merges entry.type ∧ next.type = entry.type ∧ next.base = entry.base + entry.length then
        mergeEntries { entry with length := entry.length + next.length } rest
      else entry :: mergeEntries next rest

/-- The loop that sorts takes the number of entries less one for the number of its
passes, so it leaves an empty table. -/
def pmmSanitiseEntries (alignEntries : Bool) (entries : List Entry) :
    Except Fault (List Entry) :=
  match trimEntries alignEntries entries.length [] entries with
  | .error fault => .error fault
  | .ok trimmed =>
      let kept := dropEntries trimmed.length [] trimmed
      match selectionSort (fun entry => entry.base.toNat) (kept.length - 1) kept with
      | [] => .error .pastTable
      | entry :: rest => .ok (mergeEntries entry rest)

/-! ## Giving a range a type -/

/-- The loop over the entries around a new one, from `base` up to `top`. -/
def overlapLoop (base top : UInt64) :
    (fuel : Nat) → (done todo : List Entry) → Except Fault (List Entry)
  | 0, _, _ => .error .endless
  | _ + 1, done, [] => .ok done
  | fuel + 1, done, entry :: rest =>
      let entryBase := entry.base
      let entryTop := entry.base + entry.length
      if base ≤ entryBase ∧ top ≥ entryTop then overlapLoop base top fuel done (lastFirst rest)
      else if base ≤ entryBase ∧ top < entryTop ∧ top > entryBase then
        overlapLoop base top fuel
          (done ++ [{ entry with
            base := entry.base + (top - entryBase), length := entry.length - (top - entryBase) }])
          rest
      else if base > entryBase ∧ base < entryTop ∧ top ≥ entryTop then
        overlapLoop base top fuel
          (done ++ [{ entry with length := entry.length - (entryTop - base) }]) rest
      else if base > entryBase ∧ top < entryTop then
        if done.length + 1 + rest.length ≥ memmapMaxEntries then
          .error (.panic "Memory map exhausted.")
        else
          overlapLoop base top fuel
            (done ++ [{ entry with length := entry.length - (entryTop - base) }])
            (rest ++ [⟨top, entryTop - top, entry.type⟩])
      else overlapLoop base top fuel (done ++ [entry]) rest

def pmmNewEntry (entries : List Entry) (base length : UInt64) (type : UInt32) :
    Except Fault (List Entry) :=
  match overlapLoop base (base + length) (2 * entries.length + memmapMaxEntries + 1) []
      entries with
  | .error fault => .error fault
  | .ok entries =>
      if entries.length ≥ memmapMaxEntries then .error (.panic "Memory map exhausted.")
      else .ok (entries ++ [⟨base, length, type⟩])

def pmmCheckType (entries : List Entry) (addr : UInt64) : UInt64 :=
  match entries.find? fun entry => addr ≥ entry.base ∧ addr < entry.top with
  | some entry => entry.type.toUInt64
  | none => -1

/-- The new entry, and the table tidied after it. -/
def newAndSanitise (entries : List Entry) (base length : UInt64) (type : UInt32) :
    Except Fault (Bool × List Entry) :=
  match pmmNewEntry entries base length type with
  | .error fault => .error fault
  | .ok entries =>
      match pmmSanitiseEntries false entries with
      | .error fault => .error fault
      | .ok entries => .ok (true, entries)

/-- A range inside one entry of the overlaid type, or of any type for 0. -/
def Entry.holds (base length : UInt64) (overlayType : UInt32) (entry : Entry) : Bool :=
  (overlayType = 0 ∨ entry.type = overlayType) ∧
    base ≥ entry.base ∧ base < entry.top ∧ base + length ≤ entry.top

def memmapAllocRangeIn (entries : List Entry) (base length : UInt64) (type overlayType : UInt32)
    (doPanic simulation newEntry : Bool) : Except Fault (Bool × List Entry) :=
  if length = 0 then .ok (true, entries)
  else if simulation && newEntry then .ok (true, entries)
  else if entries.any (Entry.holds base length overlayType) then
    if simulation then .ok (true, entries) else newAndSanitise entries base length type
  else if !newEntry && doPanic then .error (.panic "Memory allocation failure.")
  else if !newEntry then .ok (false, entries)
  else newAndSanitise entries base length type

end ParanOS.Memmap

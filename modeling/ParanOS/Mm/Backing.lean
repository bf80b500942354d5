import Mathlib.Logic.Function.Iterate
import ParanOS.Mm.Pmm
import ParanOS.Mm.Query
import ParanOS.Mm.Translate

/-! # The frames behind allocated pages

`vmm_alloc_page` and `vmm_alloc_range` take a frame from the page pool for each page and
map it. `pmm_alloc` returns the frame's address in the direct map, while the tables hold
physical addresses. The page tables come from the same pool, and from the boot
allocator once the pool is empty.
-/

namespace ParanOS

open Foundation

/-! ## The code -/

/-- Where pages come from: the pool, and behind it the pages that `ext_mem_alloc` has. -/
structure PageSource where
  pmm : Pmm
  reserve : List Nat

/-- The page tables and the pages for everything else. -/
structure VmState where
  tables : Store Nat Nat Nat
  source : PageSource

/-- The state after a frame has been taken. -/
def VmState.withPool (state : VmState) (pmm : Pmm) : VmState :=
  { state with source := { state.source with pmm } }

/-- The physical address behind one of the direct map. The pages of the kernel image, which
has an address range of its own, are not in the pool. -/
def virtToPhys (machine : PmmMachine) (va : UInt64) : UInt64 :=
  if va ≥ machine.hhdmOffset then va - machine.hhdmOffset else va

/-- The page of `alloc_table`. -/
def PageSource.allocTable (machine : PmmMachine) (source : PageSource) :
    Option (Nat × PageSource) :=
  let (raw, pmm) := pmmAllocLow4m machine source.pmm
  if raw ≠ 0 then some ((virtToPhys machine raw).toNat, { source with pmm })
  else
    match source.reserve with
    | [] => none
    | page :: reserve => some (page, ⟨pmm, reserve⟩)

/-- The source after a table. -/
def PageSource.next (machine : PmmMachine) (source : PageSource) : PageSource :=
  ((source.allocTable machine).map Prod.snd).getD source

/-- The source after a number of tables. -/
def PageSource.take (machine : PmmMachine) (count : Nat) (source : PageSource) : PageSource :=
  (PageSource.next machine)^[count] source

/-- The physical addresses of the pages in the pool. -/
def Pmm.pages (machine : PmmMachine) (pmm : Pmm) : List Nat :=
  let pmm := ensureFallbackPool machine pmm
  (List.range ((pmm.fbLimit.toNat - pmm.fbCursor.toNat) / 0x1000)).map
    fun page => pmm.fbCursor.toNat + page * 0x1000

/-- All pages that are left, in the order in which they are taken. -/
def PageSource.supply (machine : PmmMachine) (source : PageSource) : List Nat :=
  source.pmm.pages machine ++ source.reserve

def VmState.mmu (machine : PmmMachine) (state : VmState) : Mmu :=
  ⟨state.tables, state.source.supply machine⟩

/-- `vmm_map_page`, with the tables taken from where pages come from. -/
def vmmMapPage (machine : PmmMachine) (cpuHas1gibPages : Bool) (pagemap : Pagemap)
    (virt phys flags : Nat) (state : VmState) : Option (Int × VmState) :=
  ((state.mmu machine).vmmMap cpuHas1gibPages pagemap virt phys (flags ||| 1)).map
    fun (code, mmu) =>
      (code, ⟨mmu.tables, state.source.take machine
        ((state.mmu machine).supply.length - mmu.supply.length)⟩)

/-- A page that has been mapped, and the physical address of the frame taken for it. -/
structure MappedPage where
  virt : Nat
  frame : Nat
  deriving DecidableEq

/-- The page, or nothing for the null pointer. A frame that could not be mapped goes to
`pmm_free`, which changes the pages of the boot allocator in a way that is left open. -/
def vmmAllocPage (machine : PmmMachine) (pmmFree : UInt64 → List Nat → Option (List Nat))
    (cpuHas1gibPages : Bool) (pagemap : Pagemap) (virt flags : Nat) (state : VmState) :
    Option (Option MappedPage × VmState) :=
  let (frame, pmm) := pmmAlloc machine state.source.pmm
  if frame = 0 then some (none, state.withPool pmm)
  else
    match vmmMapPage machine cpuHas1gibPages pagemap virt (frame.toNat &&& 0xFFFFF000) flags
        (state.withPool pmm) with
    | none => none
    | some (code, state) =>
        if code ≠ 0 then
          (pmmFree frame state.source.reserve).map fun reserve =>
            (none, { state with source := { state.source with reserve } })
        else some (some ⟨virt, (frame - machine.hhdmOffset).toNat⟩, state)

/-- The loop of `vmm_alloc_range` from page `i` on, `count` pages. The result of
`vmm_map_page` is not looked at, and a failing `pmm_alloc` does not return. -/
def vmmAllocRangeFrom (machine : PmmMachine) (cpuHas1gibPages : Bool) (pagemap : Pagemap)
    (vaStart flags : Nat) : (count i : Nat) → VmState → Option (List MappedPage × VmState)
  | 0, _, state => some ([], state)
  | count + 1, i, state =>
      let va := u64 (vaStart + i * 0x1000)
      let (pa, pmm) := pmmAlloc machine state.source.pmm
      if pa = 0 then none
      else
        match vmmMapPage machine cpuHas1gibPages pagemap va pa.toNat (flags % 2 ^ 32)
            (state.withPool pmm) with
        | none => none
        | some (code, state) =>
            (vmmAllocRangeFrom machine cpuHas1gibPages pagemap vaStart flags count (i + 1)
              state).map fun (pages, state) =>
                (if code = 0 then ⟨va, (pa - machine.hhdmOffset).toNat⟩ :: pages else pages, state)

/-- The number of pages that `vmm_alloc_range` goes through. -/
def rangePages (size : Nat) : Nat := u64 (size + 0xFFF) / 0x1000

def vmmAllocRange (machine : PmmMachine) (cpuHas1gibPages : Bool) (pagemap : Pagemap)
    (vaStart size flags : Nat) (state : VmState) : Option (List MappedPage × VmState) :=
  vmmAllocRangeFrom machine cpuHas1gibPages pagemap vaStart flags (rangePages size) 0 state

/-! ## The pool -/

namespace Pmm

def cursor (machine : PmmMachine) (pmm : Pmm) : Nat :=
  (ensureFallbackPool machine pmm).fbCursor.toNat

def limit (machine : PmmMachine) (pmm : Pmm) : Nat :=
  (ensureFallbackPool machine pmm).fbLimit.toNat

/-- A pool of whole pages below 2^48, all of which the direct map reaches. -/
structure Stocked (machine : PmmMachine) (pmm : Pmm) : Prop where
  base : (ensureFallbackPool machine pmm).fbBase ≠ 0
  positive : 0 < pmm.cursor machine
  aligned : pmm.cursor machine % 0x1000 = 0
  whole : pmm.limit machine % 0x1000 = 0
  ordered : pmm.cursor machine ≤ pmm.limit machine
  low : pmm.limit machine ≤ 2 ^ 48
  mapped : machine.hhdmOffset.toNat + pmm.limit machine ≤ 2 ^ 64

/-- A pool behind the kernel image is one. -/
theorem Pool.stocked {machine : PmmMachine} (placed : machine.Placed) {used : Nat} {pmm : Pmm}
    (pool : pmm.Pool machine used) : pmm.Stocked machine := by
  have ensured := pool.ensured placed
  have limit := (pool.used_le placed).1
  have base := alignUp_page machine.kernelPhysEnd
  rw [← pool.base] at base
  have low := placed.low
  rw [← pool.base] at low
  have size : fallbackPoolSize.toNat = 67108864 := by decide
  have room := placed.mapRoom
  have aligned := pool.cursor_aligned
  have positive := pool.cursor_pos placed
  have ordered := pool.room
  constructor <;> simp only [Pmm.cursor, Pmm.limit, ensured]
  · rw [pool.base]
    exact placed.base
  · exact positive
  · exact aligned
  · omega
  · exact ordered
  · omega
  · omega

section

variable {machine : PmmMachine} {pmm : Pmm} (stocked : pmm.Stocked machine)
include stocked

/-- Setting the pool up again changes nothing. -/
theorem Stocked.ensured : (ensureFallbackPool machine pmm).Stocked machine ∧
    (ensureFallbackPool machine pmm).cursor machine = pmm.cursor machine := by
  have again : ensureFallbackPool machine (ensureFallbackPool machine pmm) =
      ensureFallbackPool machine pmm := ensureFallbackPool_set stocked.base
  rcases stocked with ⟨base, positive, aligned, whole, ordered, low, mapped⟩
  refine ⟨?_, by simp only [Pmm.cursor, again]⟩
  constructor <;> simp only [Pmm.cursor, Pmm.limit, again] <;> assumption

/-- `pmm_alloc` takes the next page, unless the pool is empty. -/
theorem Stocked.pmmAlloc_cases :
    pmm.cursor machine = pmm.limit machine ∧
        pmmAlloc machine pmm = (0, ensureFallbackPool machine pmm) ∨
      pmm.cursor machine < pmm.limit machine ∧ ∃ va rest, pmmAlloc machine pmm = (va, rest) ∧
        va ≠ 0 ∧ va.toNat = pmm.cursor machine + machine.hhdmOffset.toNat ∧
        (va - machine.hhdmOffset).toNat = pmm.cursor machine ∧ rest.Stocked machine ∧
        rest.cursor machine = pmm.cursor machine + 0x1000 ∧
        rest.limit machine = pmm.limit machine := by
  rcases stocked with ⟨base, positive, aligned, whole, ordered, low, mapped⟩
  simp only [Pmm.cursor, Pmm.limit, pmmAlloc] at *
  generalize ensureFallbackPool machine pmm = pool at *
  have page : pageSize.toNat = 4096 := by decide
  have next : (pool.fbCursor + pageSize).toNat = pool.fbCursor.toNat + 4096 := by
    rw [UInt64.toNat_add, page, Nat.mod_eq_of_lt (by omega)]
  by_cases full : pool.fbCursor + pageSize > pool.fbLimit
  · left
    rw [if_pos full]
    rw [gt_iff_lt, UInt64.lt_iff_toNat_lt, next] at full
    exact ⟨by omega, rfl⟩
  · right
    rw [if_neg full]
    rw [gt_iff_lt, UInt64.lt_iff_toNat_lt, next] at full
    have sum : (pool.fbCursor + machine.hhdmOffset).toNat =
        pool.fbCursor.toNat + machine.hhdmOffset.toNat := by
      rw [UInt64.toNat_add, Nat.mod_eq_of_lt (by omega)]
    have again : ensureFallbackPool machine
        { pool with fbCursor := pool.fbCursor + pageSize } =
          { pool with fbCursor := pool.fbCursor + pageSize } := ensureFallbackPool_set base
    refine ⟨by omega, _, _, rfl, ?_, sum, ?_, ?_, ?_, ?_⟩
    · intro zero
      rw [zero] at sum
      simp at sum
      omega
    · rw [UInt64.add_sub_cancel]
    · constructor <;> simp only [Pmm.cursor, Pmm.limit, again, next]
      · exact base
      · omega
      · omega
      · exact whole
      · omega
      · exact low
      · exact mapped
    · rw [again]
      exact next
    · rw [again]

/-- A pool stays stocked. -/
theorem Stocked.pmmAlloc {va : UInt64} {rest : Pmm} (run : pmmAlloc machine pmm = (va, rest)) :
    rest.Stocked machine ∧ pmm.cursor machine ≤ rest.cursor machine := by
  rcases stocked.pmmAlloc_cases with ⟨_, same⟩ | ⟨_, address, later, same, _, _, _, good, cursor, _⟩
  · rw [run] at same
    cases same
    exact ⟨stocked.ensured.1, Nat.le_of_eq stocked.ensured.2.symm⟩
  · rw [run] at same
    cases same
    exact ⟨good, by omega⟩

/-- The pages of the pool begin with the one that is taken next. -/
theorem Stocked.pages_cons {rest : Pmm} (more : pmm.cursor machine < pmm.limit machine)
    (cursor : rest.cursor machine = pmm.cursor machine + 0x1000)
    (limit : rest.limit machine = pmm.limit machine) :
    pmm.pages machine = pmm.cursor machine :: rest.pages machine := by
  have aligned := stocked.aligned
  have whole := stocked.whole
  simp only [Pmm.pages]
  simp only [Pmm.cursor, Pmm.limit] at *
  have count : ((ensureFallbackPool machine pmm).fbLimit.toNat -
      (ensureFallbackPool machine pmm).fbCursor.toNat) / 0x1000 =
      ((ensureFallbackPool machine rest).fbLimit.toNat -
        (ensureFallbackPool machine rest).fbCursor.toNat) / 0x1000 + 1 := by
    omega
  rw [count, List.range_succ_eq_map, List.map_cons, List.map_map, Nat.zero_mul, Nat.add_zero]
  congr 1
  apply List.map_congr_left
  intro page _
  simp only [Function.comp, cursor]
  omega

end

end Pmm

/-! ## Where pages come from -/

namespace PageSource

/-- Its pool is stocked. -/
def Stocked (machine : PmmMachine) (source : PageSource) : Prop := source.pmm.Stocked machine

section

variable {machine : PmmMachine} {source : PageSource} (stocked : source.Stocked machine)
include stocked

/-- `alloc_table` takes the first page of those that are left. -/
theorem allocTable_cases :
    source.allocTable machine = none ∧ source.supply machine = [] ∨
    ∃ page rest, source.allocTable machine = some (page, rest) ∧
      source.supply machine = page :: rest.supply machine ∧ rest.Stocked machine ∧
      source.pmm.cursor machine ≤ rest.pmm.cursor machine := by
  rcases stocked.pmmAlloc_cases with ⟨empty, run⟩ |
    ⟨more, va, rest, run, some, address, frame, later⟩
  · have ensured : ensureFallbackPool machine (ensureFallbackPool machine source.pmm) =
        ensureFallbackPool machine source.pmm := ensureFallbackPool_set stocked.base
    have none : ∀ pmm : Pmm, ensureFallbackPool machine pmm =
        ensureFallbackPool machine source.pmm → pmm.pages machine = [] := by
      intro pmm same
      simp only [Pmm.cursor, Pmm.limit] at empty
      simp only [Pmm.pages, same, empty, Nat.sub_self]
      rfl
    simp only [allocTable, pmmAllocLow4m, run, supply, none source.pmm rfl]
    cases left : source.reserve with
    | nil => simp
    | cons page reserve =>
        right
        refine ⟨page, ⟨ensureFallbackPool machine source.pmm, reserve⟩, by simp, ?_, ?_, ?_⟩
        · rw [none _ ensured]
          rfl
        · exact (Pmm.Stocked.ensured stocked).1
        · exact Nat.le_of_eq (Pmm.Stocked.ensured stocked).2.symm
  · right
    have back : (virtToPhys machine va).toNat = source.pmm.cursor machine := by
      have above : machine.hhdmOffset ≤ va := by
        rw [UInt64.le_iff_toNat_le]
        omega
      rw [virtToPhys, if_pos above, frame]
    refine ⟨source.pmm.cursor machine, ⟨rest, source.reserve⟩, ?_, ?_, later.1, ?_⟩
    · simp only [allocTable, pmmAllocLow4m, run, if_pos some, back]
    · rw [supply, stocked.pages_cons more later.2.1 later.2.2]
      rfl
    · rw [later.2.1]
      omega

/-- Tables are taken from the front. -/
theorem take_spec (count : Nat) :
    (source.take machine count).supply machine = (source.supply machine).drop count ∧
      (source.take machine count).Stocked machine ∧
      source.pmm.cursor machine ≤ (source.take machine count).pmm.cursor machine := by
  induction count generalizing source with
  | zero => exact ⟨rfl, stocked, Nat.le_refl _⟩
  | succ count induction =>
      have step : source.take machine (count + 1) = (source.next machine).take machine count :=
        Function.iterate_succ_apply _ count source
      rw [step]
      rcases allocTable_cases stocked with ⟨run, empty⟩ | ⟨page, rest, run, supply, later, ordered⟩
      · have same : source.next machine = source := by
          rw [next, run]
          rfl
        have onwards := induction stocked
        rw [same, empty, List.drop_nil]
        rw [empty, List.drop_nil] at onwards
        exact onwards
      · have first : source.next machine = rest := by
          rw [next, run]
          rfl
        have onwards := induction later
        rw [first, supply, List.drop_succ_cons]
        exact ⟨onwards.1, onwards.2.1, Nat.le_trans ordered onwards.2.2⟩

end

end PageSource

/-! ## One page -/

namespace Mmu

theorem mapFlags_lt (flags : Nat) : mapFlags flags ||| 1 < 32 := by
  have bits : ∀ bit < 5, legacyFlag flags bit < 2 ^ 5 := by
    intro bit few
    rw [legacyFlag]
    split
    · rw [Nat.one_shiftLeft]
      exact Nat.pow_lt_pow_right (by decide) few
    · decide
  exact Nat.or_lt_two_pow (Nat.or_lt_two_pow (Nat.or_lt_two_pow (bits 1 (by decide))
    (bits 3 (by decide))) (bits 4 (by decide))) (by decide)

/-- The address of an entry is cut off at 48 bits. -/
theorem pteAddr_cut {phys flags : Nat} (aligned : phys % 0x1000 = 0) (small : flags < 32) :
    pteAddr (phys ||| flags) = phys % 2 ^ 48 := by
  have noFlag : flags % 2 ^ 48 / 2 ^ 12 = 0 := by omega
  rw [pteAddr_eq, Nat.or_mod_two_pow, Nat.or_div_two_pow, noFlag, Nat.or_zero]
  omega

/-- The physical address that `vmm_query` reports. -/
def reports (mmu : Mmu) (pagemap : Pagemap) (virt : Nat) : Option Nat :=
  (mmu.vmmQuery pagemap virt).toOption.map Prod.fst

theorem reports_eq (mmu : Mmu) (pagemap : Pagemap) (virt : Nat) :
    mmu.reports pagemap virt = (mmu.leaf pagemap (pagePath virt 1 pagemap.levels.count)).map
      fun page => (pageAt virt page.1 page.2).1 := by
  rw [reports, vmmQuery_toOption, Option.map_map]
  rfl

theorem isMapped_reports (mmu : Mmu) (pagemap : Pagemap) (virt : Nat) :
    mmu.isMapped pagemap virt = (mmu.reports pagemap virt).isSome := by
  rw [isMapped_eq, reports_eq, Option.isSome_map]

/-! ### The pages for tables -/

theorem getNextLevel_supply {mmu after : Mmu} {table index : Nat} {result : Option Nat}
    (run : mmu.getNextLevel table index = some (result, after)) :
    after.supply <:+ mmu.supply := by
  simp only [getNextLevel, allocTable] at run
  split at run
  · cases run
    exact List.suffix_rfl
  · split at run
    · cases run
      exact List.suffix_rfl
    · cases supply : mmu.supply with
      | nil =>
          rw [supply] at run
          cases run
      | cons page rest =>
          rw [supply] at run
          cases run
          exact List.suffix_cons page rest

theorem descend_supply {mmu after : Mmu} {virt target steps table : Nat} {result : Option Nat}
    (run : descend virt target steps table mmu = some (result, after)) :
    after.supply <:+ mmu.supply := by
  induction steps generalizing table mmu with
  | zero =>
      cases run
      exact List.suffix_rfl
  | succ steps induction =>
      rw [descend] at run
      split at run
      · cases run
      · next middle step =>
          split at run
          · cases run
          · cases run
            exact getNextLevel_supply step
      · next next middle step => exact (induction run).trans (getNextLevel_supply step)

theorem setPage_supply {mmu after : Mmu} {pagemap : Pagemap} {virt phys flags : Nat}
    {size : PageSize} (run : setPage pagemap virt phys flags size mmu = some after) :
    after.supply <:+ mmu.supply := by
  rw [setPage] at run
  split at run
  · cases run
  · next step =>
      cases run
      exact descend_supply step
  · next step =>
      cases run
      have fewer := descend_supply step
      exact fewer

/-- Fewer pages for tables. -/
theorem WellFormed.drop {mmu : Mmu} {pagemap : Pagemap} (wellFormed : mmu.WellFormed pagemap)
    {supply : List Nat} (fewer : supply <:+ mmu.supply) :
    (⟨mmu.tables, supply⟩ : Mmu).WellFormed pagemap :=
  ⟨wellFormed.unshared, wellFormed.upper, wellFormed.low,
    fewer.sublist.nodup wellFormed.supplyNodup,
    fun page member => wellFormed.supplyFresh page (fewer.subset member),
    fun page member => wellFormed.supplyPage page (fewer.subset member)⟩

/-! ### Mapping it -/

/-- `vmm_map` refuses, or maps the page. -/
theorem vmmMap_cases {mmu after : Mmu} {pagemap : Pagemap} {cpuHas1gibPages : Bool}
    {virt phys flags : Nat} {code : Int} (wellFormed : mmu.WellFormed pagemap)
    (run : mmu.vmmMap cpuHas1gibPages pagemap virt phys flags = some (code, after)) :
    code ≠ 0 ∧ after = mmu ∧ (virt % 0x1000 ≠ 0 ∨ phys % 0x1000 ≠ 0 ∨
      mmu.isMapped pagemap virt = true) ∨
    code = 0 ∧ virt % 0x1000 = 0 ∧ phys % 0x1000 = 0 ∧ mmu.isMapped pagemap virt = false ∧
      after.supply <:+ mmu.supply ∧
      mmu.Mapped after pagemap virt 1 (phys ||| (mapFlags flags ||| 1))
        (pagemap.levels.count - 1) := by
  have mask : ∀ value, value &&& 0xFFF = value % 0x1000 := by
    intro value
    exact Nat.and_two_pow_sub_one_eq_mod value 12
  rw [vmmMap, mask, mask] at run
  split at run
  · next uneven =>
      cases run
      left
      refine ⟨by decide, rfl, ?_⟩
      rw [← or_assoc]
      exact .inl uneven
  · next even =>
      rw [not_or, not_not, not_not] at even
      split at run
      · next mapped =>
          cases run
          exact .inl ⟨by decide, rfl, .inr (.inr mapped)⟩
      · next free =>
          right
          rw [Bool.not_eq_true] at free
          simp only [mapPage] at run
          rw [if_neg (by simp)] at run
          cases done : setPage pagemap virt phys (mapFlags flags) .size4KiB mmu with
          | none =>
              rw [done] at run
              cases run
          | some result =>
              rw [done] at run
              cases run
              have unmapped := free
              rw [isMapped_eq, Option.isSome_eq_false_iff, Option.isNone_iff_eq_none] at unmapped
              rcases setPage_cases virt phys (mapFlags flags) .size4KiB wellFormed unmapped with
                short | ⟨other, same, mapped⟩
              · rw [short.1] at done
                cases done
              · rw [done] at same
                cases same
                rw [leafEntry_small (mapFlags_lt flags)] at mapped
                exact ⟨rfl, even.1, even.2, free, setPage_supply done, mapped⟩

section

variable {mmu after : Mmu} {pagemap : Pagemap} {virt phys flags count : Nat}
  (mapped : mmu.Mapped after pagemap virt 1 (phys ||| (mapFlags flags ||| 1)) count)
include mapped

/-- The page is reported at the address it was mapped to, cut off at 48 bits. -/
theorem Mapped.reports (virtAligned : virt % 0x1000 = 0) (physAligned : phys % 0x1000 = 0) :
    after.reports pagemap virt = some (phys % 2 ^ 48) := by
  have inside := mapped.inside _ (pagePath_length _ _ _)
    (pagePrefix_self pagemap virt .size4KiB)
  have offset : virt &&& (2 ^ pageShift 1 - 1) = 0 := by
    rw [← virtAligned]
    exact Nat.and_two_pow_sub_one_eq_mod virt 12
  have noWrap : u64 (phys % 2 ^ 48) = phys % 2 ^ 48 :=
    Nat.mod_eq_of_lt (Nat.lt_of_lt_of_le (Nat.mod_lt _ (by decide)) (by decide))
  rw [reports_eq, inside, Option.map_some, pageAt, offset, Nat.add_zero,
    pteAddr_cut physAligned (mapFlags_lt flags), noWrap]

/-- The pages that were mapped before are reported as before. -/
theorem Mapped.reports_other (free : mmu.isMapped pagemap virt = false) {other : Nat}
    {address : Nat} (reported : mmu.reports pagemap other = some address) :
    after.reports pagemap other = some address := by
  have different : pageNumber pagemap other ≠ pageNumber pagemap virt := by
    intro same
    rw [← pagePath_eq_iff_pageNumber] at same
    rw [isMapped_eq, ← same, ← isMapped_eq, isMapped_reports, reported] at free
    cases free
  rw [← reported, Mmu.reports, mapped.other different, Mmu.reports]

end

end Mmu

/-! ## The pages of a call -/

/-- The tables are a tree, and the pool is stocked. -/
structure VmState.Sound (machine : PmmMachine) (pagemap : Pagemap) (state : VmState) : Prop where
  wellFormed : (state.mmu machine).WellFormed pagemap
  stocked : state.source.Stocked machine

/-- The physical address of the first page that the pool has left. -/
def VmState.cursor (machine : PmmMachine) (state : VmState) : Nat :=
  state.source.pmm.cursor machine

def VmState.reports (machine : PmmMachine) (pagemap : Pagemap) (state : VmState) (virt : Nat) :
    Option Nat :=
  (state.mmu machine).reports pagemap virt

/-- `vmm_query` reports the frame that was taken for the page. -/
def VmState.Backs (machine : PmmMachine) (pagemap : Pagemap) (state : VmState)
    (page : MappedPage) : Prop :=
  state.reports machine pagemap page.virt = some page.frame

section

variable {machine : PmmMachine} {pagemap : Pagemap} {state after : VmState}

theorem VmState.Sound.withPool (sound : state.Sound machine pagemap) {rest : Pmm}
    (more : state.cursor machine < state.source.pmm.limit machine)
    (stocked : rest.Stocked machine) (cursor : rest.cursor machine = state.cursor machine + 0x1000)
    (limit : rest.limit machine = state.source.pmm.limit machine) :
    (state.withPool rest).Sound machine pagemap ∧ pteAddr (state.cursor machine) =
      state.cursor machine := by
  have supply : (state.mmu machine).supply =
      state.cursor machine :: ((state.withPool rest).mmu machine).supply := by
    have pages := sound.stocked.pages_cons more cursor limit
    simp only [mmu, PageSource.supply, pages]
    rfl
  refine ⟨⟨?_, stocked⟩, ?_⟩
  · apply sound.wellFormed.drop
    rw [supply]
    exact List.suffix_cons _ _
  · apply sound.wellFormed.supplyPage
    rw [supply]
    exact List.mem_cons_self

variable {cpuHas1gibPages : Bool} {virt phys flags : Nat} {code : Int}
  (run : vmmMapPage machine cpuHas1gibPages pagemap virt phys flags state = some (code, after))
include run

/-- The pool only loses pages, whatever becomes of the mapping. -/
theorem vmmMapPage_stocked (stocked : state.source.Stocked machine) :
    after.source.Stocked machine ∧ state.cursor machine ≤ after.cursor machine := by
  rw [vmmMapPage, Option.map_eq_some_iff] at run
  rcases run with ⟨⟨answer, mmu⟩, _, same⟩
  cases same
  exact (PageSource.take_spec stocked _).2

/-- `vmm_map_page` refuses, or maps the page with tables from the source. -/
theorem vmmMapPage_cases (sound : state.Sound machine pagemap) :
    after.Sound machine pagemap ∧
      (code ≠ 0 ∧ after.mmu machine = state.mmu machine ∧
          (virt % 0x1000 ≠ 0 ∨ phys % 0x1000 ≠ 0 ∨
            (state.mmu machine).isMapped pagemap virt = true) ∨
        code = 0 ∧ virt % 0x1000 = 0 ∧ phys % 0x1000 = 0 ∧
          (state.mmu machine).isMapped pagemap virt = false ∧
          (state.mmu machine).Mapped (after.mmu machine) pagemap virt 1
            (phys ||| (Mmu.mapFlags (flags ||| 1) ||| 1)) (pagemap.levels.count - 1)) := by
  have stocked := (vmmMapPage_stocked run sound.stocked).1
  rw [vmmMapPage, Option.map_eq_some_iff] at run
  rcases run with ⟨⟨answer, mmu⟩, step, same⟩
  rw [Prod.mk.injEq] at same
  rcases same with ⟨rfl, result⟩
  have view : mmu.supply <:+ (state.mmu machine).supply → after.mmu machine = mmu := by
    intro fewer
    have dropped := (List.suffix_iff_eq_drop.mp fewer).symm
    have supply := (PageSource.take_spec sound.stocked
      ((state.mmu machine).supply.length - mmu.supply.length)).1
    rw [← result, VmState.mmu]
    simp only [supply]
    exact congrArg (Mmu.mk mmu.tables) dropped
  rcases Mmu.vmmMap_cases sound.wellFormed step with
    ⟨failed, rfl, cause⟩ | ⟨done, virtAligned, physAligned, free, fewer, mapped⟩
  · have kept := view List.suffix_rfl
    refine ⟨⟨?_, stocked⟩, .inl ⟨failed, kept, cause⟩⟩
    rw [kept]
    exact sound.wellFormed
  · have new := view fewer
    rw [← new] at mapped
    exact ⟨⟨mapped.wellFormed, stocked⟩, .inr ⟨done, virtAligned, physAligned, free, mapped⟩⟩

end

/-! ## `vmm_alloc_page` -/

/-- The mask of `vmm_alloc_page` has 32 bits. -/
theorem and_frameMask (frame : Nat) :
    frame &&& 0xFFFFF000 = frame % 2 ^ 32 / 0x1000 * 0x1000 := by
  have mask : (0xFFFFF000 : Nat) = (2 ^ 20 - 1) * 2 ^ 12 := by decide
  rw [show 0x1000 = 2 ^ 12 by decide]
  apply Nat.eq_of_testBit_eq
  intro bit
  rw [Nat.testBit_and, mask, Nat.testBit_mul_two_pow, Nat.testBit_mul_two_pow,
    Nat.testBit_two_pow_sub_one, Nat.testBit_div_two_pow, Nat.testBit_mod_two_pow]
  by_cases low : 12 ≤ bit
  · have inside : bit - 12 < 20 ↔ bit - 12 + 12 < 32 := by omega
    simp only [low, inside, decide_true, Bool.true_and, Nat.sub_add_cancel, Bool.and_comm]
  · simp [low]

theorem masked_eq_iff {frame offset : Nat} (aligned : frame % 0x1000 = 0) :
    (frame + offset) % 2 ^ 32 / 0x1000 * 0x1000 = frame ↔
      frame < 2 ^ 32 ∧ offset % 2 ^ 32 < 0x1000 := by
  constructor
  · intro same
    have low : frame < 2 ^ 32 := by omega
    refine ⟨low, ?_⟩
    omega
  · intro both
    omega

section

variable {machine : PmmMachine} {pmmFree : UInt64 → List Nat → Option (List Nat)}
  {cpuHas1gibPages : Bool} {pagemap : Pagemap} {virt flags : Nat} {state after : VmState}

/-- A page that `vmm_alloc_page` returns has been mapped to what the mask leaves of its
frame's address. -/
theorem vmmAllocPage_returned {page : MappedPage} (stocked : state.source.Stocked machine)
    (run : vmmAllocPage machine pmmFree cpuHas1gibPages pagemap virt flags state =
      some (some page, after)) :
    ∃ rest, state.cursor machine < state.source.pmm.limit machine ∧ rest.Stocked machine ∧
      rest.cursor machine = state.cursor machine + 0x1000 ∧
      rest.limit machine = state.source.pmm.limit machine ∧
      page = ⟨virt, state.cursor machine⟩ ∧
      vmmMapPage machine cpuHas1gibPages pagemap virt
        ((state.cursor machine + machine.hhdmOffset.toNat) % 2 ^ 32 / 0x1000 * 0x1000) flags
        (state.withPool rest) = some (0, after) := by
  rw [vmmAllocPage] at run
  rcases stocked.pmmAlloc_cases with
    ⟨empty, alloc⟩ | ⟨more, va, rest, alloc, some, address, frame, later⟩
  · rw [alloc] at run
    simp at run
  · rw [alloc] at run
    simp only [if_neg some, and_frameMask, address] at run
    refine ⟨rest, more, later.1, later.2.1, later.2.2, ?_⟩
    split at run
    · cases run
    · next code result step =>
        split at run
        · rw [Option.map_eq_some_iff] at run
          rcases run with ⟨reserve, _, same⟩
          cases same
        · next done =>
            rw [not_not] at done
            simp only [Option.some.injEq, Prod.mk.injEq] at run
            rcases run with ⟨rfl, rfl⟩
            rw [frame]
            rw [done] at step
            exact ⟨rfl, step⟩

/-- The page is reported at its frame exactly if the mask cuts off nothing but the offset of
the direct map. -/
theorem vmmAllocPage_backs_iff {page : MappedPage} (sound : state.Sound machine pagemap)
    (run : vmmAllocPage machine pmmFree cpuHas1gibPages pagemap virt flags state =
      some (some page, after)) :
    after.Backs machine pagemap page ↔
      state.cursor machine < 2 ^ 32 ∧ machine.hhdmOffset.toNat % 2 ^ 32 < 0x1000 := by
  rcases vmmAllocPage_returned sound.stocked run with
    ⟨rest, more, stocked, cursor, limit, rfl, step⟩
  have taken := sound.withPool more stocked cursor limit
  rcases (vmmMapPage_cases step taken.1).2 with ⟨failed, _⟩ |
    ⟨_, virtAligned, physAligned, _, mapped⟩
  · exact absurd rfl failed
  · have aligned : state.cursor machine % 0x1000 = 0 := sound.stocked.aligned
    have small : (state.cursor machine + machine.hhdmOffset.toNat) % 2 ^ 32 / 0x1000 * 0x1000 <
        2 ^ 48 := by omega
    rw [VmState.Backs, VmState.reports, mapped.reports virtAligned physAligned,
      Nat.mod_eq_of_lt small, Option.some.injEq]
    exact masked_eq_iff aligned

/-- Whatever `vmm_alloc_page` returns, no frame comes twice. -/
theorem vmmAllocPage_frames {page : Option MappedPage} (stocked : state.source.Stocked machine)
    (run : vmmAllocPage machine pmmFree cpuHas1gibPages pagemap virt flags state =
      some (page, after)) :
    after.source.Stocked machine ∧ state.cursor machine ≤ after.cursor machine ∧
      ∀ one ∈ page, one.frame = state.cursor machine ∧
        state.cursor machine < after.cursor machine := by
  cases page with
  | some one =>
      rcases vmmAllocPage_returned stocked run with ⟨rest, more, later, cursor, _, rfl, step⟩
      rcases vmmMapPage_stocked step later with ⟨last, ordered⟩
      have before : (state.withPool rest).cursor machine = state.cursor machine + 0x1000 := cursor
      refine ⟨last, by omega, ?_⟩
      intro other member
      cases member
      exact ⟨rfl, by omega⟩
  | none =>
      cases alloc : pmmAlloc machine state.source.pmm with
      | mk frame rest =>
          have taken := stocked.pmmAlloc alloc
          rw [vmmAllocPage, alloc] at run
          simp only at run
          have kept : after.source.Stocked machine ∧
              state.cursor machine ≤ after.cursor machine := by
            split at run
            · cases run
              exact taken
            · split at run
              · cases run
              · next code result step =>
                  have mapped := vmmMapPage_stocked step taken.1
                  split at run
                  · rw [Option.map_eq_some_iff] at run
                    rcases run with ⟨reserve, _, same⟩
                    cases same
                    exact ⟨mapped.1, Nat.le_trans taken.2 mapped.2⟩
                  · cases run
          exact ⟨kept.1, kept.2, fun one member => nomatch member⟩

end

/-! ## `vmm_alloc_range` -/

section

variable {machine : PmmMachine} {cpuHas1gibPages : Bool} {pagemap : Pagemap}
  {vaStart flags : Nat} {state after : VmState} {pages : List MappedPage}

/-- One turn of the loop. -/
theorem vmmAllocRangeFrom_step {count i : Nat} (stocked : state.source.Stocked machine)
    (run : vmmAllocRangeFrom machine cpuHas1gibPages pagemap vaStart flags (count + 1) i state =
      some (pages, after)) :
    ∃ rest code middle later, state.cursor machine < state.source.pmm.limit machine ∧
      rest.Stocked machine ∧ rest.cursor machine = state.cursor machine + 0x1000 ∧
      rest.limit machine = state.source.pmm.limit machine ∧
      vmmMapPage machine cpuHas1gibPages pagemap (u64 (vaStart + i * 0x1000))
        (state.cursor machine + machine.hhdmOffset.toNat) (flags % 2 ^ 32)
        (state.withPool rest) = some (code, middle) ∧
      vmmAllocRangeFrom machine cpuHas1gibPages pagemap vaStart flags count (i + 1) middle =
        some (later, after) ∧
      pages = if code = 0 then ⟨u64 (vaStart + i * 0x1000), state.cursor machine⟩ :: later
        else later := by
  rw [vmmAllocRangeFrom] at run
  rcases stocked.pmmAlloc_cases with
    ⟨empty, alloc⟩ | ⟨more, va, rest, alloc, some, address, frame, next⟩
  · rw [alloc] at run
    simp at run
  · rw [alloc] at run
    simp only [if_neg some, frame] at run
    rw [address] at run
    split at run
    · cases run
    · next code middle step =>
        rw [Option.map_eq_some_iff] at run
        rcases run with ⟨⟨later, result⟩, onwards, same⟩
        cases same
        exact ⟨rest, code, middle, later, more, next.1, next.2.1, next.2.2, step, onwards, rfl⟩

/-- The frames of a range go up through the pool. -/
theorem vmmAllocRangeFrom_frames {count i : Nat} (stocked : state.source.Stocked machine)
    (run : vmmAllocRangeFrom machine cpuHas1gibPages pagemap vaStart flags count i state =
      some (pages, after)) :
    after.source.Stocked machine ∧ state.cursor machine ≤ after.cursor machine ∧
      (∀ page ∈ pages, state.cursor machine ≤ page.frame ∧ page.frame < after.cursor machine) ∧
      (pages.map MappedPage.frame).Nodup := by
  induction count generalizing i state pages with
  | zero =>
      cases run
      exact ⟨stocked, Nat.le_refl _, by simp, List.nodup_nil⟩
  | succ count induction =>
      rcases vmmAllocRangeFrom_step stocked run with
        ⟨rest, code, middle, later, _, good, cursor, _, step, onwards, all⟩
      have mapped := vmmMapPage_stocked step good
      have before : (state.withPool rest).cursor machine = state.cursor machine + 0x1000 := cursor
      rcases induction mapped.1 onwards with ⟨last, ordered, bounds, distinct⟩
      have within : ∀ page ∈ later,
          state.cursor machine < page.frame ∧ page.frame < after.cursor machine := by
        intro page member
        have bound := bounds page member
        omega
      refine ⟨last, by omega, ?_, ?_⟩
      · intro page member
        rw [all] at member
        split at member
        · cases List.mem_cons.mp member with
          | inl first =>
              have bound : state.cursor machine < after.cursor machine := by omega
              rw [first]
              exact ⟨Nat.le_refl _, bound⟩
          | inr other =>
              have bound := within page other
              omega
        · have bound := within page member
          omega
      · rw [all]
        split
        · rw [List.map_cons, List.nodup_cons]
          refine ⟨?_, distinct⟩
          intro member
          rcases List.mem_map.mp member with ⟨page, other, same⟩
          have bound := (within page other).1
          rw [same] at bound
          exact Nat.lt_irrefl _ bound
        · exact distinct

/-- Each page of a range that has been mapped is reported at the address of its frame in the
direct map, cut off at 48 bits, and the pages mapped before as before. Nothing is mapped at
or to an address inside of a page. -/
theorem vmmAllocRangeFrom_reports {count i : Nat} (sound : state.Sound machine pagemap)
    (run : vmmAllocRangeFrom machine cpuHas1gibPages pagemap vaStart flags count i state =
      some (pages, after)) :
    (∀ page ∈ pages, page.frame < 2 ^ 48 ∧ vaStart % 0x1000 = 0 ∧
      machine.hhdmOffset.toNat % 0x1000 = 0 ∧ after.reports machine pagemap page.virt =
        some ((page.frame + machine.hhdmOffset.toNat) % 2 ^ 48)) ∧
    ∀ other address, state.reports machine pagemap other = some address →
      after.reports machine pagemap other = some address := by
  induction count generalizing i state pages with
  | zero =>
      cases run
      exact ⟨by simp, fun _ _ reported => reported⟩
  | succ count induction =>
      rcases vmmAllocRangeFrom_step sound.stocked run with
        ⟨rest, code, middle, later, more, good, cursor, limit, step, onwards, all⟩
      have taken := sound.withPool more good cursor limit
      have low : state.cursor machine < 2 ^ 48 := page_lt_of_aligned taken.2
      rcases vmmMapPage_cases step taken.1 with ⟨middleSound, outcome⟩
      have next := induction middleSound onwards
      rcases outcome with ⟨failed, kept, _⟩ | ⟨done, virtAligned, physAligned, free, mapped⟩
      · rw [all, if_neg failed]
        refine ⟨next.1, ?_⟩
        intro other address reported
        apply next.2
        rw [VmState.reports, kept]
        exact reported
      · rw [all, if_pos done]
        have here : middle.reports machine pagemap (u64 (vaStart + i * 0x1000)) =
            some ((state.cursor machine + machine.hhdmOffset.toNat) % 2 ^ 48) :=
          mapped.reports virtAligned physAligned
        constructor
        · intro page member
          cases List.mem_cons.mp member with
          | inl first =>
              have aligned : state.cursor machine % 0x1000 = 0 := sound.stocked.aligned
              rw [u64] at virtAligned
              rw [first]
              exact ⟨low, by omega, by omega, next.2 _ _ here⟩
          | inr other => exact next.1 page other
        · intro other address reported
          exact next.2 other address (mapped.reports_other free reported)

/-- Between whole pages, the first page is mapped. -/
theorem vmmAllocRangeFrom_first {count i : Nat} (sound : state.Sound machine pagemap)
    (virtAligned : vaStart % 0x1000 = 0) (mapAligned : machine.hhdmOffset.toNat % 0x1000 = 0)
    (free : (state.mmu machine).isMapped pagemap (u64 (vaStart + i * 0x1000)) = false)
    (run : vmmAllocRangeFrom machine cpuHas1gibPages pagemap vaStart flags (count + 1) i state =
      some (pages, after)) :
    ⟨u64 (vaStart + i * 0x1000), state.cursor machine⟩ ∈ pages := by
  rcases vmmAllocRangeFrom_step sound.stocked run with
    ⟨rest, code, middle, later, more, good, cursor, limit, step, onwards, all⟩
  have taken := sound.withPool more good cursor limit
  have aligned : state.cursor machine % 0x1000 = 0 := sound.stocked.aligned
  rcases (vmmMapPage_cases step taken.1).2 with ⟨_, _, cause⟩ | ⟨done, _⟩
  · rcases cause with uneven | uneven | mapped
    · rw [u64] at uneven
      omega
    · omega
    · have same : (state.withPool rest).reports machine pagemap (u64 (vaStart + i * 0x1000)) =
          state.reports machine pagemap (u64 (vaStart + i * 0x1000)) := rfl
      rw [Mmu.isMapped_reports] at free mapped
      simp only [VmState.reports] at same
      rw [same, free] at mapped
      cases mapped
  · rw [all, if_pos done]
    exact List.mem_cons_self

/-- All pages of the range are reported at their frames exactly if no page is mapped, or the
direct map starts at a multiple of 2^48. -/
theorem vmmAllocRange_backs_iff {size : Nat} (sound : state.Sound machine pagemap)
    (free : ∀ page < rangePages size,
      (state.mmu machine).isMapped pagemap (u64 (vaStart + page * 0x1000)) = false)
    (run : vmmAllocRange machine cpuHas1gibPages pagemap vaStart size flags state =
      some (pages, after)) :
    (∀ page ∈ pages, after.Backs machine pagemap page) ↔
      rangePages size = 0 ∨ vaStart % 0x1000 ≠ 0 ∨ machine.hhdmOffset.toNat % 0x1000 ≠ 0 ∨
        machine.hhdmOffset.toNat % 2 ^ 48 = 0 := by
  rw [vmmAllocRange] at run
  have reported := (vmmAllocRangeFrom_reports sound run).1
  constructor
  · intro every
    by_contra none
    simp only [not_or, ne_eq, not_not] at none
    rcases none with ⟨some, virtAligned, mapAligned, offset⟩
    have first := free 0 (Nat.pos_of_ne_zero some)
    rw [← Nat.succ_pred_eq_of_ne_zero some] at run
    have member := vmmAllocRangeFrom_first sound virtAligned mapAligned first run
    have low := (reported _ member).1
    have backed := every _ member
    rw [VmState.Backs, (reported _ member).2.2.2, Option.some.injEq] at backed
    simp only at low backed
    omega
  · intro cause page member
    have here := reported page member
    rw [VmState.Backs, here.2.2.2, Option.some.injEq]
    rcases cause with none | uneven | uneven | offset
    · rw [none] at run
      cases run
      cases member
    · exact absurd here.2.1 uneven
    · exact absurd here.2.2.1 uneven
    · have low := here.1
      omega

end

/-! ## Runs -/

/-- A call that allocates pages. -/
inductive VmCall
  | allocPage (virt flags : Nat)
  | allocRange (vaStart size flags : Nat)

/-- The pages that the call maps, with their frames. -/
def VmCall.run (machine : PmmMachine) (pmmFree : UInt64 → List Nat → Option (List Nat))
    (cpuHas1gibPages : Bool) (pagemap : Pagemap) (state : VmState) :
    VmCall → Option (List MappedPage × VmState)
  | .allocPage virt flags =>
      (vmmAllocPage machine pmmFree cpuHas1gibPages pagemap virt flags state).map
        fun (page, state) => (page.toList, state)
  | .allocRange vaStart size flags =>
      vmmAllocRange machine cpuHas1gibPages pagemap vaStart size flags state

def runVmCalls (machine : PmmMachine) (pmmFree : UInt64 → List Nat → Option (List Nat))
    (cpuHas1gibPages : Bool) (pagemap : Pagemap) :
    List VmCall → VmState → Option (List MappedPage × VmState)
  | [], state => some ([], state)
  | call :: calls, state =>
      match call.run machine pmmFree cpuHas1gibPages pagemap state with
      | none => none
      | some (pages, state) =>
          (runVmCalls machine pmmFree cpuHas1gibPages pagemap calls state).map
            fun (later, state) => (pages ++ later, state)

section

variable {machine : PmmMachine} {pmmFree : UInt64 → List Nat → Option (List Nat)}
  {cpuHas1gibPages : Bool} {pagemap : Pagemap} {state after : VmState} {pages : List MappedPage}

theorem VmCall.run_frames {call : VmCall} (stocked : state.source.Stocked machine)
    (run : call.run machine pmmFree cpuHas1gibPages pagemap state = some (pages, after)) :
    after.source.Stocked machine ∧ state.cursor machine ≤ after.cursor machine ∧
      (∀ page ∈ pages, state.cursor machine ≤ page.frame ∧ page.frame < after.cursor machine) ∧
      (pages.map MappedPage.frame).Nodup := by
  cases call with
  | allocPage virt flags =>
      rw [VmCall.run, Option.map_eq_some_iff] at run
      rcases run with ⟨⟨page, result⟩, step, same⟩
      cases same
      rcases vmmAllocPage_frames stocked step with ⟨later, ordered, frames⟩
      refine ⟨later, ordered, ?_, ?_⟩
      · intro one member
        have bound := frames one (Option.mem_toList.mp member)
        omega
      · cases page <;> simp
  | allocRange vaStart size flags => exact vmmAllocRangeFrom_frames stocked run

/-- The frames of one call lie behind those of the calls before. -/
theorem runVmCalls_frames {calls : List VmCall} (stocked : state.source.Stocked machine)
    (run : runVmCalls machine pmmFree cpuHas1gibPages pagemap calls state = some (pages, after)) :
    (∀ page ∈ pages, state.cursor machine ≤ page.frame) ∧
      (pages.map MappedPage.frame).Nodup := by
  induction calls generalizing state pages with
  | nil =>
      cases run
      exact ⟨by simp, List.nodup_nil⟩
  | cons call calls induction =>
      rw [runVmCalls] at run
      split at run
      · cases run
      · next first middle step =>
          rw [Option.map_eq_some_iff] at run
          rcases run with ⟨⟨later, result⟩, onwards, same⟩
          cases same
          rcases VmCall.run_frames stocked step with ⟨good, ordered, bounds, distinct⟩
          rcases induction good onwards with ⟨above, laterDistinct⟩
          constructor
          · intro page member
            cases List.mem_append.mp member with
            | inl early => exact (bounds page early).1
            | inr late => exact Nat.le_trans ordered (above page late)
          · rw [List.map_append, List.nodup_append]
            refine ⟨distinct, laterDistinct, ?_⟩
            intro frame early other late same
            rcases List.mem_map.mp early with ⟨page, member, rfl⟩
            rcases List.mem_map.mp late with ⟨next, nextMember, rfl⟩
            have low := (bounds page member).2
            have high := above next nextMember
            omega

/-- For a page that `vmm_alloc_page` returns, `vmm_query` reports its frame exactly where
the frame is below 2^32 and the low 32 bits of the direct map's start lie in one page; for
the pages of `vmm_alloc_range`, where the direct map starts at a multiple of 2^48, or
nothing is mapped. No two pages have one frame, whatever calls are made. -/
theorem vmmAlloc_backs_iff (sound : state.Sound machine pagemap) :
    (∀ virt flags page after,
      vmmAllocPage machine pmmFree cpuHas1gibPages pagemap virt flags state =
        some (some page, after) →
      page.virt = virt ∧
        page.frame = ((pmmAlloc machine state.source.pmm).1 - machine.hhdmOffset).toNat ∧
        (after.Backs machine pagemap page ↔
          state.cursor machine < 2 ^ 32 ∧ machine.hhdmOffset.toNat % 2 ^ 32 < 0x1000)) ∧
    (∀ vaStart size flags pages after,
      (∀ page < rangePages size,
        (state.mmu machine).isMapped pagemap (u64 (vaStart + page * 0x1000)) = false) →
      vmmAllocRange machine cpuHas1gibPages pagemap vaStart size flags state =
        some (pages, after) →
      ((∀ page ∈ pages, after.Backs machine pagemap page) ↔
        rangePages size = 0 ∨ vaStart % 0x1000 ≠ 0 ∨ machine.hhdmOffset.toNat % 0x1000 ≠ 0 ∨
          machine.hhdmOffset.toNat % 2 ^ 48 = 0)) ∧
    ∀ calls pages after,
      runVmCalls machine pmmFree cpuHas1gibPages pagemap calls state = some (pages, after) →
      (pages.map MappedPage.frame).Nodup := by
  refine ⟨?_, fun _ _ _ _ _ => vmmAllocRange_backs_iff sound, ?_⟩
  · intro virt flags page after run
    have iff := vmmAllocPage_backs_iff sound run
    rcases vmmAllocPage_returned sound.stocked run with ⟨rest, more, _, _, _, rfl, _⟩
    rcases sound.stocked.pmmAlloc_cases with ⟨empty, _⟩ | ⟨_, va, pool, alloc, _, _, frame, _⟩
    · exact absurd empty (Nat.ne_of_lt more)
    · rw [alloc]
      exact ⟨rfl, frame.symm, iff⟩
  · intro calls pages after run
    exact (runVmCalls_frames sound.stocked run).2

end

/-- An image that ends at 18 MiB, and a direct map. -/
def mappedMachine (hhdmOffset : UInt64) : PmmMachine := ⟨0x1234567, hhdmOffset, []⟩

/-- New tables of four levels, and the last eight pages of the pool. -/
def lastPages : VmState :=
  ⟨fun _ _ => 0, ⟨⟨0x1235000, 0x5235000, 0x522D000, 16384, 0, false, 0⟩, []⟩⟩

theorem lastPages_sound {hhdmOffset : UInt64} (room : hhdmOffset.toNat + 0x5235000 ≤ 2 ^ 64) :
    lastPages.Sound (mappedMachine hhdmOffset) ⟨.four, 0x1000⟩ := by
  have supply : (lastPages.mmu (mappedMachine hhdmOffset)).supply =
      [0x522D000, 0x522E000, 0x522F000, 0x5230000, 0x5231000, 0x5232000, 0x5233000,
        0x5234000] := by
    simp only [VmState.mmu, PageSource.supply, Pmm.pages]
    rw [ensureFallbackPool_set (by decide)]
    decide
  constructor
  · apply Mmu.wellFormed_new (fun _ => rfl)
    · rw [supply]
      decide
    · rw [supply]
      decide
    · rw [supply]
      decide
  · have ensured : ensureFallbackPool (mappedMachine hhdmOffset) lastPages.source.pmm =
        lastPages.source.pmm := ensureFallbackPool_set (by decide)
    constructor <;> simp only [Pmm.cursor, Pmm.limit, ensured]
    · decide
    · decide
    · decide
    · decide
    · decide
    · decide
    · exact room

/-- With the direct map at its usual place, a page is backed by its frame. -/
theorem vmmAlloc_backs_iff_page :
    ∃ page after, vmmAllocPage (mappedMachine 0xFFFF800000000000) (fun _ => some) true
        ⟨.four, 0x1000⟩ 0x400000 3 lastPages = some (some page, after) ∧
      after.Backs (mappedMachine 0xFFFF800000000000) ⟨.four, 0x1000⟩ page :=
  ⟨_, _, rfl, ((@vmmAlloc_backs_iff (mappedMachine 0xFFFF800000000000) (fun _ => some) true
    ⟨.four, 0x1000⟩ lastPages (lastPages_sound (by decide))).1 0x400000 3 _ _ rfl).2.2.mpr
    (by decide)⟩

/-- A range is not, nor is a page where the direct map is shifted by 1 GiB. -/
theorem alloc_reports_other_addresses :
    (∃ after, vmmAllocRange (mappedMachine 0xFFFF800000000000) true ⟨.four, 0x1000⟩ 0x400000
        0x1000 3 lastPages = some ([⟨0x400000, 0x522D000⟩], after) ∧
      after.reports (mappedMachine 0xFFFF800000000000) ⟨.four, 0x1000⟩ 0x400000 =
        some 0x80000522D000) ∧
    (∃ after, vmmAllocPage (mappedMachine 0xFFFF800040000000) (fun _ => some) true
        ⟨.four, 0x1000⟩ 0x400000 3 lastPages = some (some ⟨0x400000, 0x522D000⟩, after) ∧
      after.reports (mappedMachine 0xFFFF800040000000) ⟨.four, 0x1000⟩ 0x400000 =
        some 0x4522D000) ∧
    (¬ ∀ (machine : PmmMachine) (pagemap : Pagemap) (state : VmState),
      state.Sound machine pagemap → ∀ virt flags page after,
      vmmAllocPage machine (fun _ => some) true pagemap virt flags state =
        some (some page, after) → after.Backs machine pagemap page) ∧
    ¬ ∀ (machine : PmmMachine) (pagemap : Pagemap) (state : VmState),
      state.Sound machine pagemap → ∀ vaStart size flags pages after,
      (∀ page < rangePages size,
        (state.mmu machine).isMapped pagemap (u64 (vaStart + page * 0x1000)) = false) →
      vmmAllocRange machine true pagemap vaStart size flags state = some (pages, after) →
        ∀ page ∈ pages, after.Backs machine pagemap page := by
  refine ⟨⟨_, rfl, rfl⟩, ⟨_, rfl, rfl⟩, ?_, ?_⟩
  · intro claim
    have backed := claim (mappedMachine 0xFFFF800040000000) ⟨.four, 0x1000⟩ lastPages
      (lastPages_sound (by decide)) 0x400000 3 _ _ rfl
    have reported : some 0x4522D000 = some 0x522D000 := backed
    cases reported
  · intro claim
    have backed := claim (mappedMachine 0xFFFF800000000000) ⟨.four, 0x1000⟩ lastPages
      (lastPages_sound (by decide)) 0x400000 0x1000 3 _ _ (by decide) rfl
      ⟨0x400000, 0x522D000⟩ List.mem_cons_self
    have reported : some 0x80000522D000 = some 0x522D000 := backed
    cases reported

end ParanOS

import ParanOS.Foundation.CachedWalks
import ParanOS.Foundation.Traces
import ParanOS.Mm.Backing
import ParanOS.Mm.Unmap

/-! # Address translation behind the TLB

`vmm_map` and `vmm_unmap` change an entry of the tables and then have the processor drop
what it has cached for the address. The processor keeps the pages that its walks have
found, may walk at any time, and may drop pages at any time. Whatever it does, each
access goes where the tables say. What the tables say is a map of the addresses to which
`vmm_map` adds one page, and from which `vmm_unmap` takes the page of the address as a
whole, be it large or small.
-/

namespace ParanOS

open Foundation

/-! ## The processor -/

/-- A page as it is cached: its level, its number among the pages of that size, and the
entry that maps it. -/
structure CachedPage where
  level : Nat
  number : Nat
  entry : Nat
  deriving DecidableEq

def CachedPage.Covers (pagemap : Pagemap) (page : CachedPage) (virt : Nat) : Prop :=
  Canonical pagemap virt ∧ virt / 2 ^ pageShift page.level = page.number

/-- The physical address in the page. -/
def CachedPage.address (page : CachedPage) (virt : Nat) : Nat :=
  pageAddress virt (page.level, page.entry)

/-- The page at which the walk of an address ends. -/
def Mmu.page (mmu : Mmu) (pagemap : Pagemap) (virt : Nat) : Option CachedPage :=
  if Canonical pagemap virt then
    (mmu.leaf pagemap (pagePath virt 1 pagemap.levels.count)).map fun page =>
      ⟨page.1, virt / 2 ^ pageShift page.1, page.2⟩
  else none

/-- The tables in memory and the cache of the processor. -/
structure Processor where
  mmu : Mmu
  tlb : Set CachedPage

/-- A call with its result, an access to memory with the physical address it went to, or
something that the processor does on its own. -/
inductive PagingEvent
  | map (virt phys flags : Nat) (code : Int)
  | unmap (virt : Nat) (code : Int)
  | access (virt : Nat) (found : Option Nat)
  | refill

/-- `flush_tlb_single` comes at the end of a call that has changed the tables. -/
def Processor.flushed (tlb : Set CachedPage) (pagemap : Pagemap) (virt : Nat) (code : Int) :
    Set CachedPage :=
  if code = 0 then invalidate (CachedPage.Covers pagemap) tlb virt else tlb

inductive Processor.Step (cpuHas1gibPages : Bool) (pagemap : Pagemap) :
    PagingEvent → Processor → Processor → Prop
  | map {cpu virt phys flags code mmu} :
      cpu.mmu.vmmMap cpuHas1gibPages pagemap virt phys flags = some (code, mmu) →
      Step cpuHas1gibPages pagemap (.map virt phys flags code) cpu
        ⟨mmu, flushed cpu.tlb pagemap virt code⟩
  | unmap {cpu virt code mmu} : cpu.mmu.vmmUnmap pagemap virt = (code, mmu) →
      Step cpuHas1gibPages pagemap (.unmap virt code) cpu
        ⟨mmu, flushed cpu.tlb pagemap virt code⟩
  | hit {cpu virt page} : page ∈ cpu.tlb → page.Covers pagemap virt →
      Step cpuHas1gibPages pagemap (.access virt (some (page.address virt))) cpu cpu
  | miss {cpu virt} :
      Step cpuHas1gibPages pagemap (.access virt (cpu.mmu.translate pagemap virt)) cpu cpu
  | refill {cpu tlb} : Refill (cpu.mmu.page pagemap) cpu.tlb tlb →
      Step cpuHas1gibPages pagemap .refill cpu ⟨cpu.mmu, tlb⟩

/-! ## The address space -/

/-- For an address the size of its page and the physical address. -/
abbrev AddressSpace := Nat → Option (Nat × Nat)

namespace AddressSpace

def mapped (space : AddressSpace) (virt phys : Nat) : AddressSpace := fun address =>
  if virt ≤ address ∧ address < virt + 4096 then some (4096, phys + (address - virt))
  else space address

/-- Without the page of a size that an address is in. -/
def unmapped (space : AddressSpace) (virt bytes : Nat) : AddressSpace := fun address =>
  if address / bytes = virt / bytes then none else space address

inductive Step : PagingEvent → AddressSpace → AddressSpace → Prop
  | mapped {space virt phys flags} : virt % 4096 = 0 → phys % 4096 = 0 → space virt = none →
      Step (.map virt phys flags 0) space (space.mapped virt phys)
  | notMapped {space virt phys flags code} : code ≠ 0 →
      (virt % 4096 ≠ 0 ∨ phys % 4096 ≠ 0 ∨ space virt ≠ none) →
      Step (.map virt phys flags code) space space
  | unmapped {space virt bytes found} : virt % 4096 = 0 → space virt = some (bytes, found) →
      Step (.unmap virt 0) space (space.unmapped virt bytes)
  | notUnmapped {space virt code} : code ≠ 0 → (virt % 4096 ≠ 0 ∨ space virt = none) →
      Step (.unmap virt code) space space
  | access {space virt} : Step (.access virt ((space virt).map Prod.snd)) space space
  | refill {space} : Step .refill space space

end AddressSpace

/-- What the tables say. -/
def Mmu.space (mmu : Mmu) (pagemap : Pagemap) : AddressSpace := fun virt =>
  (mmu.page pagemap virt).map fun page => (2 ^ pageShift page.level, page.address virt)

/-- The addresses of a call are canonical, and physical ones have 52 bits. -/
def PagingEvent.Legal (pagemap : Pagemap) : PagingEvent → Prop
  | map virt phys _ _ => Canonical pagemap virt ∧ phys + 4096 ≤ 2 ^ 52
  | unmap virt _ => Canonical pagemap virt
  | access _ _ => True
  | refill => True

/-! ## Pages -/

namespace Mmu

/-- Canonical addresses are in one page of a size just if they share its indices. -/
theorem samePage_iff {pagemap : Pagemap} {virt address : Nat} (size : PageSize)
    (canonical : Canonical pagemap virt) (other : Canonical pagemap address) :
    pagePrefix pagemap virt size.level <+: pagePath address 1 pagemap.levels.count ↔
      address / 2 ^ pageShift size.level = virt / 2 ^ pageShift size.level := by
  rw [pagePrefix_iff_number, size_bytes]
  rcases pagemap with ⟨levels, topLevel⟩
  cases levels <;> cases size <;>
    simp only [Canonical, PagingLevels.count, PageSize.level, PageSize.bytes] at * <;> omega

/-- A page ends on one of the levels that pages have. -/
theorem leaf_size {mmu : Mmu} {pagemap : Pagemap} {path : List Nat} {level entry : Nat}
    (found : mmu.leaf pagemap path = some (level, entry)) :
    ∃ size : PageSize, size.level = level := by
  rcases Option.filter_eq_some_iff.mp found with ⟨stopped, isPage⟩
  have positive := Radix.stop_positive stopped
  simp only [isLeaf, Bool.and_eq_true, Bool.or_eq_true, beq_iff_eq, decide_eq_true_eq] at isPage
  have high : level = 1 ∨ level = 2 ∨ level = 3 := by
    rcases isPage.2 with lowest | large
    · exact .inl lowest
    · have few := large.1
      omega
  rcases high with rfl | rfl | rfl
  · exact ⟨.size4KiB, rfl⟩
  · exact ⟨.size2MiB, rfl⟩
  · exact ⟨.size1GiB, rfl⟩

/-- The indices of an address down to an entry are those of its page. -/
theorem pagePrefix_of_split {pagemap : Pagemap} {virt index : Nat} {size : PageSize}
    {before after : List Nat}
    (split : pagePath virt 1 pagemap.levels.count = before ++ index :: after)
    (depth : after.length + 1 = size.level) :
    pagePrefix pagemap virt size.level = before ++ [index] := by
  have levels := level_bounds pagemap.levels size
  have own := pagePrefix_self pagemap virt size
  have front : before ++ [index] <+: pagePath virt 1 pagemap.levels.count :=
    ⟨after, by rw [split, List.append_assoc]; rfl⟩
  have full := pagePath_length virt 1 pagemap.levels.count
  have length : (pagePrefix pagemap virt size.level).length = (before ++ [index]).length := by
    rw [split, List.length_append, List.length_cons] at full
    rw [pagePrefix, pagePath_length, List.length_append, List.length_singleton]
    omega
  exact (List.prefix_of_prefix_length_le own front (Nat.le_of_eq length)).eq_of_length length

section

variable {mmu : Mmu} {pagemap : Pagemap} {virt : Nat} {size : PageSize} {entry : Nat}
  (found : mmu.leaf pagemap (pagePath virt 1 pagemap.levels.count) = some (size.level, entry))
include found

/-- Where the entry of a page is. -/
theorem leaf_place : ∃ before index after table,
    pagePath virt 1 pagemap.levels.count = before ++ index :: after ∧
    pagePrefix pagemap virt size.level = before ++ [index] ∧
    mmu.follow pagemap before = some table ∧ after.length + 1 = size.level ∧
    mmu.tables table index = entry ∧ (after = [] ∨ nextTable entry = none) := by
  rcases Option.filter_eq_some_iff.mp found with ⟨stopped, _⟩
  rcases Radix.stop_split stopped with
    ⟨before, index, after, table, split, reached, depth, here, final⟩
  exact ⟨before, index, after, table, split, pagePrefix_of_split split depth, reached, depth, here,
    final⟩

/-- All addresses of a page have the page. -/
theorem leaf_of_prefix {path : List Nat} (full : path.length = pagemap.levels.count)
    (within : pagePrefix pagemap virt size.level <+: path) :
    mmu.leaf pagemap path = some (size.level, entry) := by
  rcases leaf_place found with
    ⟨before, index, after, table, split, front, reached, depth, here, final⟩
  rw [front] at within
  rcases within with ⟨rest, equal⟩
  rw [List.append_assoc, List.singleton_append] at equal
  have length := pagePath_length virt 1 pagemap.levels.count
  have same : rest.length = after.length := by
    rw [split, List.length_append, List.length_cons] at length
    rw [← equal, List.length_append, List.length_cons] at full
    omega
  have final' : rest = [] ∨ nextTable (mmu.tables table index) = none := by
    rcases final with lowest | missing
    · left
      apply List.eq_nil_of_length_eq_zero
      rw [same, lowest]
      rfl
    · rw [here]
      exact .inr missing
  have ends : mmu.stop pagemap path = some (size.level, entry) := by
    rw [← equal, ← here, ← depth, ← same]
    exact Radix.stop_of_ends reached final'
  rcases Option.filter_eq_some_iff.mp found with ⟨_, isPage⟩
  rw [leaf_of_stop ends, if_pos isPage]

end

theorem page_of_canonical {mmu : Mmu} {pagemap : Pagemap} {virt : Nat}
    (canonical : Canonical pagemap virt) : mmu.page pagemap virt =
      (mmu.leaf pagemap (pagePath virt 1 pagemap.levels.count)).map fun page =>
        ⟨page.1, virt / 2 ^ pageShift page.1, page.2⟩ :=
  if_pos canonical

theorem page_canonical {mmu : Mmu} {pagemap : Pagemap} {virt : Nat} {page : CachedPage}
    (found : mmu.page pagemap virt = some page) : Canonical pagemap virt := by
  by_contra outside
  rw [Mmu.page, if_neg outside] at found
  cases found

/-- A page that was found, as an entry of its size. -/
theorem page_leaf {mmu : Mmu} {pagemap : Pagemap} {virt : Nat} {page : CachedPage}
    (found : mmu.page pagemap virt = some page) : ∃ size : PageSize,
      page = ⟨size.level, virt / 2 ^ pageShift size.level, page.entry⟩ ∧
      mmu.leaf pagemap (pagePath virt 1 pagemap.levels.count) =
        some (size.level, page.entry) := by
  rw [page_of_canonical (page_canonical found), Option.map_eq_some_iff] at found
  rcases found with ⟨⟨level, entry⟩, found, rfl⟩
  rcases leaf_size found with ⟨size, rfl⟩
  exact ⟨size, rfl, found⟩

/-- The walks of all addresses in a page end at it. -/
theorem paged (mmu : Mmu) (pagemap : Pagemap) :
    Paged (CachedPage.Covers pagemap) (mmu.page pagemap) := by
  intro virt other page found covered
  rcases page_leaf found with ⟨size, shape, leaf⟩
  rw [shape] at covered ⊢
  have within := (samePage_iff size (page_canonical found) covered.1).mpr covered.2
  rw [page_of_canonical covered.1, leaf_of_prefix leaf (pagePath_length _ _ _) within,
    Option.map_some, covered.2]

theorem WellFormed.translate_page {mmu : Mmu} {pagemap : Pagemap}
    (wellFormed : mmu.WellFormed pagemap) (virt : Nat) :
    mmu.translate pagemap virt = (mmu.page pagemap virt).map fun page => page.address virt := by
  by_cases canonical : Canonical pagemap virt
  · rw [wellFormed.translate_eq canonical, page_of_canonical canonical, Option.map_map]
    rfl
  · rw [translate, Mmu.page, if_neg canonical, if_neg canonical]
    rfl

theorem isMapped_page {mmu : Mmu} {pagemap : Pagemap} {virt : Nat}
    (canonical : Canonical pagemap virt) :
    mmu.isMapped pagemap virt = (mmu.space pagemap virt).isSome := by
  rw [isMapped_eq, space, page_of_canonical canonical, Option.isSome_map, Option.isSome_map]

/-! ## What `vmm_unmap` clears -/

/-- A page has been taken away, and every other page is mapped as before. -/
structure Unmapped (before after : Mmu) (pagemap : Pagemap) (virt level : Nat) : Prop where
  wellFormed : after.WellFormed pagemap
  inside : ∀ path : List Nat, path.length = pagemap.levels.count →
    pagePrefix pagemap virt level <+: path → after.leaf pagemap path = none
  outside : ∀ path : List Nat, path.length = pagemap.levels.count →
    ¬ pagePrefix pagemap virt level <+: path →
    after.leaf pagemap path = before.leaf pagemap path

section

variable {mmu after : Mmu} {pagemap : Pagemap} {virt : Nat}

/-- Clearing the entry of a page takes the page away. -/
theorem WellFormed.clear (wellFormed : mmu.WellFormed pagemap) {size : PageSize}
    {before rest : List Nat} {table index : Nat}
    (split : pagePath virt 1 pagemap.levels.count = before ++ index :: rest)
    (reached : mmu.follow pagemap before = some table) (depth : rest.length + 1 = size.level) :
    mmu.Unmapped (mmu.setEntry table index 0) pagemap virt size.level := by
  have levels := level_bounds pagemap.levels size
  have place : before.length + size.level = pagemap.levels.count := by
    have full := congrArg List.length split
    rw [pagePath_length, List.length_append, List.length_cons] at full
    omega
  have final : size.level = 1 ∨ nextTable 0 = none := .inr rfl
  have front := pagePrefix_of_split split depth
  constructor
  · exact wellFormed.setEntry place reached levels.1 levels.2.1 final
  · intro path full within
    rw [front] at within
    rcases within with ⟨later, equal⟩
    rw [List.append_assoc, List.singleton_append] at equal
    have below : later.length + 1 = size.level := by
      rw [← equal, List.length_append, List.length_cons] at full
      omega
    have stopped := @setEntry_stop_inside mmu pagemap _ table index 0 _ wellFormed place reached
      levels.1 final later below
    rw [← equal]
    exact leaf_of_not_present stopped rfl
  · intro path full outside
    rw [front] at outside
    have kept := @setEntry_stop_other mmu pagemap _ table index 0 _ wellFormed place reached
      levels.1 path full outside
    rw [leaf, kept]
    rfl

/-- A present entry that `locate_entry` finds is that of the page of the address. -/
theorem locateEntry_page {location : Location}
    (located : mmu.locateEntry pagemap virt = some location)
    (present : (mmu.entryAt location).testBit 0 = true) : ∃ size before rest,
      pagePath virt 1 pagemap.levels.count = before ++ location.index :: rest ∧
      mmu.follow pagemap before = some location.table ∧
      rest.length + 1 = PageSize.level size ∧
      mmu.leaf pagemap (pagePath virt 1 pagemap.levels.count) =
        some (size.level, mmu.entryAt location) := by
  rcases locateEntry_meets located with ⟨before, rest, split, reached, depth, taken⟩
  have isPage : isLeaf location.level (mmu.entryAt location) = true := by
    rw [isLeaf_eq, taken, present]
    rfl
  have final : rest = [] ∨ nextTable (mmu.entryAt location) = none := by
    simp only [isLocated, Bool.or_eq_true, beq_iff_eq, Bool.and_eq_true] at taken
    rcases taken with lowest | large
    · left
      exact List.eq_nil_of_length_eq_zero (by omega)
    · exact .inr (nextTable_of_not_table (ptIsTable_of_large large.2))
  have stopped : mmu.stop pagemap (pagePath virt 1 pagemap.levels.count) =
      some (location.level, mmu.entryAt location) := by
    rw [split, ← depth]
    exact Radix.stop_of_ends reached final
  have found : mmu.leaf pagemap (pagePath virt 1 pagemap.levels.count) =
      some (location.level, mmu.entryAt location) := by
    rw [leaf_of_stop stopped, if_pos isPage]
  rcases leaf_size found with ⟨size, level⟩
  rw [← level] at found depth
  exact ⟨size, before, rest, split, reached, depth, found⟩

/-- `vmm_unmap` refuses, or takes away the page of the address. -/
theorem vmmUnmap_cases {code : Int} (wellFormed : mmu.WellFormed pagemap)
    (run : mmu.vmmUnmap pagemap virt = (code, after)) :
    code ≠ 0 ∧ after = mmu ∧ (virt % 4096 ≠ 0 ∨ mmu.isMapped pagemap virt = false) ∨
    code = 0 ∧ virt % 4096 = 0 ∧ ∃ size entry,
      mmu.leaf pagemap (pagePath virt 1 pagemap.levels.count) =
        some (PageSize.level size, entry) ∧
      mmu.Unmapped after pagemap virt size.level := by
  by_cases aligned : virt % 4096 = 0
  · rw [vmmUnmap_eq aligned] at run
    cases located : mmu.locateEntry pagemap virt with
    | none =>
        rw [located] at run
        cases run
        exact .inl ⟨by decide, rfl, .inr (by rw [isMapped, located])⟩
    | some location =>
        rw [located] at run
        cases present : (mmu.entryAt location).testBit 0 with
        | false =>
            simp only [present] at run
            cases run
            refine .inl ⟨by decide, rfl, .inr ?_⟩
            rw [isMapped, located]
            exact present
        | true =>
            simp only [present, if_true] at run
            cases run
            right
            rcases locateEntry_page located present with
              ⟨size, before, rest, split, reached, depth, found⟩
            exact ⟨rfl, aligned, size, _, found, wellFormed.clear split reached depth⟩
  · left
    have mask : virt &&& 0xFFF ≠ 0 := fun zero => aligned ((and_mask_eq_zero virt 12).mp zero)
    rw [vmmUnmap, if_pos mask] at run
    cases run
    exact ⟨by decide, rfl, .inl aligned⟩

end

/-! ## What a call changes -/

/-- Where the walks agree, so do the pages. -/
theorem page_congr {before after : Mmu} {pagemap : Pagemap} {virt : Nat}
    (same : after.leaf pagemap (pagePath virt 1 pagemap.levels.count) =
      before.leaf pagemap (pagePath virt 1 pagemap.levels.count)) :
    after.page pagemap virt = before.page pagemap virt := by
  rw [Mmu.page, Mmu.page, same]

/-- A page of one address in a page of 4 KiB covers them all. -/
theorem covers_small {mmu : Mmu} {pagemap : Pagemap} {virt other : Nat} {page : CachedPage}
    (found : mmu.page pagemap other = some page) (canonical : Canonical pagemap virt)
    (within : pagePrefix pagemap virt 1 <+: pagePath other 1 pagemap.levels.count) :
    page.Covers pagemap virt := by
  have number := (samePage_iff .size4KiB canonical (page_canonical found)).mp within
  rcases page_leaf found with ⟨size, shape, _⟩
  rw [size_bytes] at number
  rw [shape]
  refine ⟨canonical, ?_⟩
  rw [size_bytes]
  cases size <;> simp only [PageSize.bytes] at number ⊢ <;> omega

/-- The page of an address is that of each address in it. -/
theorem covers_whole {mmu : Mmu} {pagemap : Pagemap} {virt other entry : Nat} {size : PageSize}
    {page : CachedPage} (found : mmu.page pagemap other = some page)
    (canonical : Canonical pagemap virt)
    (leaf : mmu.leaf pagemap (pagePath virt 1 pagemap.levels.count) = some (size.level, entry))
    (within : pagePrefix pagemap virt size.level <+: pagePath other 1 pagemap.levels.count) :
    page.Covers pagemap virt := by
  have number := (samePage_iff size canonical (page_canonical found)).mp within
  rw [page_of_canonical (page_canonical found),
    leaf_of_prefix leaf (pagePath_length _ _ _) within, Option.map_some] at found
  cases found
  exact ⟨canonical, number.symm⟩

/-- Where the walks agree, so does what the tables say. -/
theorem space_congr {before after : Mmu} {pagemap : Pagemap} {virt : Nat}
    (same : after.leaf pagemap (pagePath virt 1 pagemap.levels.count) =
      before.leaf pagemap (pagePath virt 1 pagemap.levels.count)) :
    after.space pagemap virt = before.space pagemap virt := by
  rw [space, space, page_congr same]

theorem space_outside {mmu : Mmu} {pagemap : Pagemap} {virt : Nat}
    (outside : ¬ Canonical pagemap virt) : mmu.space pagemap virt = none := by
  rw [space, Mmu.page, if_neg outside]
  rfl

theorem space_of_leaf {mmu : Mmu} {pagemap : Pagemap} {virt level entry : Nat}
    (canonical : Canonical pagemap virt)
    (found : mmu.leaf pagemap (pagePath virt 1 pagemap.levels.count) = some (level, entry)) :
    mmu.space pagemap virt = some (2 ^ pageShift level, pageAddress virt (level, entry)) := by
  rw [space, page_of_canonical canonical, found]
  rfl

theorem mapFlags_plain (flags : Nat) : FlagsOnly (mapFlags flags) := by
  have small := mapFlags_lt flags
  have less : mapFlags flags ≤ mapFlags flags ||| 1 := Nat.left_le_or
  simp only [FlagsOnly]
  omega

section

variable {before after : Mmu} {pagemap : Pagemap} {virt : Nat} (canonical : Canonical pagemap virt)
include canonical

/-- A page of 4 KiB that has been mapped is found, and every other one as before. -/
theorem Mapped.space {phys flags count : Nat}
    (mapped : before.Mapped after pagemap virt 1 (phys ||| (mapFlags flags ||| 1)) count)
    (virtAligned : virt % 4096 = 0) (physAligned : phys % 4096 = 0)
    (bound : phys + 4096 ≤ 2 ^ 52) :
    after.space pagemap = (before.space pagemap).mapped virt phys := by
  funext address
  by_cases other : Canonical pagemap address
  · have full := pagePath_length address 1 pagemap.levels.count
    have within := (pagePrefix_iff_number pagemap virt address .size4KiB).trans
      (number_eq_iff .size4KiB virtAligned canonical other)
    by_cases inside : virt ≤ address ∧ address < virt + 4096
    · have found := mapped.inside _ full (within.mpr inside)
      have entry := frame_leafEntry (mapFlags_plain flags) .size4KiB physAligned (by omega)
      rw [leafEntry_small (mapFlags_lt flags)] at entry
      rw [space_of_leaf other found, AddressSpace.mapped, if_pos inside, pageAddress]
      simp only [PageSize.level] at entry
      rw [entry]
      have offset : address % 2 ^ pageShift 1 = address - virt := by
        simp only [pageShift]
        omega
      rw [offset]
      rfl
    · rw [AddressSpace.mapped, if_neg inside]
      exact space_congr (mapped.outside _ full fun prefixed => inside (within.mp prefixed))
  · have outside : ¬ (virt ≤ address ∧ address < virt + 4096) := fun inside =>
      other (canonical_page .size4KiB virtAligned canonical inside.1 inside.2)
    rw [AddressSpace.mapped, if_neg outside, space_outside other, space_outside other]

/-- A page that has been taken away is not found at any of its addresses. -/
theorem Unmapped.space {size : PageSize}
    (unmapped : before.Unmapped after pagemap virt size.level) :
    after.space pagemap = (before.space pagemap).unmapped virt (2 ^ pageShift size.level) := by
  funext address
  rw [AddressSpace.unmapped]
  by_cases other : Canonical pagemap address
  · have full := pagePath_length address 1 pagemap.levels.count
    have within := samePage_iff size canonical other
    by_cases inside : address / 2 ^ pageShift size.level = virt / 2 ^ pageShift size.level
    · rw [if_pos inside, Mmu.space, page_of_canonical other,
        unmapped.inside _ full (within.mpr inside)]
      rfl
    · rw [if_neg inside]
      exact space_congr (unmapped.outside _ full fun prefixed => inside (within.mp prefixed))
  · rw [space_outside other, space_outside other, ite_self]

end

end Mmu

/-! ## A step -/

/-- The tables are a tree, and the processor has cached only what they say. -/
structure Processor.Good (pagemap : Pagemap) (cpu : Processor) : Prop where
  wellFormed : cpu.mmu.WellFormed pagemap
  upToDate : UpToDate (CachedPage.Covers pagemap) (cpu.mmu.page pagemap) cpu.tlb

namespace Processor

variable {cpuHas1gibPages : Bool} {pagemap : Pagemap} {cpu next : Processor}

/-- Where only the walks through the page of an address change, it is enough to flush the
pages of that address. -/
theorem Good.flush {virt level : Nat} {mmu : Mmu} (good : cpu.Good pagemap)
    (wellFormed : mmu.WellFormed pagemap)
    (outside : ∀ path : List Nat, path.length = pagemap.levels.count →
      ¬ Mmu.pagePrefix pagemap virt level <+: path →
      mmu.leaf pagemap path = cpu.mmu.leaf pagemap path)
    (covered : ∀ other page, cpu.mmu.page pagemap other = some page →
      Mmu.pagePrefix pagemap virt level <+: pagePath other 1 pagemap.levels.count →
      page.Covers pagemap virt) :
    (⟨mmu, invalidate (CachedPage.Covers pagemap) cpu.tlb virt⟩ : Processor).Good pagemap := by
  refine ⟨wellFormed, good.upToDate.invalidate virt ?_⟩
  intro other page found uncovered
  rw [← found]
  exact Mmu.page_congr (outside _ (pagePath_length _ _ _) fun within =>
    uncovered (covered other page found within))

/-- After `vmm_map` the processor agrees with the tables again. -/
theorem Good.map {virt phys flags : Nat} {code : Int} {mmu : Mmu} (good : cpu.Good pagemap)
    (canonical : Canonical pagemap virt) (bound : phys + 4096 ≤ 2 ^ 52)
    (run : cpu.mmu.vmmMap cpuHas1gibPages pagemap virt phys flags = some (code, mmu)) :
    AddressSpace.Step (.map virt phys flags code) (cpu.mmu.space pagemap) (mmu.space pagemap) ∧
      (⟨mmu, flushed cpu.tlb pagemap virt code⟩ : Processor).Good pagemap := by
  have mapped := @Mmu.isMapped_page cpu.mmu pagemap virt canonical
  rcases Mmu.vmmMap_cases good.wellFormed run with ⟨failed, rfl, cause⟩ |
    ⟨rfl, virtAligned, physAligned, free, _, done⟩
  · rw [flushed, if_neg failed]
    refine ⟨.notMapped failed ?_, good⟩
    rw [mapped, Option.isSome_iff_ne_none] at cause
    exact cause
  · rw [flushed, if_pos rfl]
    rw [mapped, Option.isSome_eq_false_iff, Option.isNone_iff_eq_none] at free
    rw [done.space canonical virtAligned physAligned bound]
    exact ⟨.mapped virtAligned physAligned free, good.flush done.wellFormed done.outside
      fun _ _ found within => Mmu.covers_small found canonical within⟩

theorem Good.unmap {virt : Nat} {code : Int} {mmu : Mmu} (good : cpu.Good pagemap)
    (canonical : Canonical pagemap virt) (run : cpu.mmu.vmmUnmap pagemap virt = (code, mmu)) :
    AddressSpace.Step (.unmap virt code) (cpu.mmu.space pagemap) (mmu.space pagemap) ∧
      (⟨mmu, flushed cpu.tlb pagemap virt code⟩ : Processor).Good pagemap := by
  have mapped := @Mmu.isMapped_page cpu.mmu pagemap virt canonical
  rcases Mmu.vmmUnmap_cases good.wellFormed run with ⟨failed, rfl, cause⟩ |
    ⟨rfl, aligned, size, entry, found, done⟩
  · rw [flushed, if_neg failed]
    refine ⟨.notUnmapped failed ?_, good⟩
    rw [mapped, Option.isSome_eq_false_iff, Option.isNone_iff_eq_none] at cause
    exact cause
  · rw [flushed, if_pos rfl, done.space canonical]
    exact ⟨.unmapped aligned (Mmu.space_of_leaf canonical found), good.flush done.wellFormed
      done.outside fun _ _ cached within => Mmu.covers_whole cached canonical found within⟩

/-- A step of the processor is one of the address space. -/
theorem Good.step {event : PagingEvent} (good : cpu.Good pagemap) (legal : event.Legal pagemap)
    (stepped : Step cpuHas1gibPages pagemap event cpu next) :
    AddressSpace.Step event (cpu.mmu.space pagemap) (next.mmu.space pagemap) ∧
      next.Good pagemap := by
  cases stepped with
  | map run => exact good.map legal.1 legal.2 run
  | unmap run => exact good.unmap legal run
  | @hit _ virt page member covered =>
      refine ⟨?_, good⟩
      have found := good.upToDate page member virt covered
      have here : ((cpu.mmu.space pagemap virt).map Prod.snd) = some (page.address virt) := by
        rw [Mmu.space, found]
        rfl
      rw [← here]
      exact .access
  | @miss _ virt =>
      refine ⟨?_, good⟩
      have here : ((cpu.mmu.space pagemap virt).map Prod.snd) =
          cpu.mmu.translate pagemap virt := by
        rw [good.wellFormed.translate_page, Mmu.space, Option.map_map]
        rfl
      rw [← here]
      exact .access
  | refill refilled =>
      exact ⟨.refill, good.wellFormed, good.upToDate.refill (Mmu.paged cpu.mmu pagemap) refilled⟩

/-- A processor that has nothing cached. -/
theorem Good.empty {mmu : Mmu} (wellFormed : mmu.WellFormed pagemap) :
    (⟨mmu, ∅⟩ : Processor).Good pagemap := ⟨wellFormed, .empty⟩

/-- Whatever the processor caches, its run is one of the address space that the tables
describe: each access goes where the calls before it have mapped the address. -/
theorem run_space {events : List PagingEvent} (good : cpu.Good pagemap)
    (legal : ∀ event ∈ events, event.Legal pagemap)
    (run : Trace (Step cpuHas1gibPages pagemap) cpu events next) :
    Trace AddressSpace.Step (cpu.mmu.space pagemap) events (next.mmu.space pagemap) ∧
      next.Good pagemap := by
  induction run with
  | nil => exact ⟨.nil _, good⟩
  | cons stepped _ induction =>
      have one := good.step (legal _ List.mem_cons_self) stepped
      have rest := induction one.2 fun event member => legal event (List.mem_cons_of_mem _ member)
      exact ⟨.cons one.1 rest.1, rest.2⟩

/-- A page is mapped, cached, accessed and unmapped, after which it is not found. -/
theorem run_space_page : ∃ next : Processor,
    Trace AddressSpace.Step ((Mmu.topTable fun _ => 0).space Mmu.topMap)
      [.map 0x400000 0x200000 2 0, .refill, .access 0x400123 (some 0x200123), .unmap 0x400000 0,
        .access 0x400123 none] (next.mmu.space Mmu.topMap) ∧ next.Good Mmu.topMap := by
  have good : (⟨Mmu.topTable fun _ => 0, ∅⟩ : Processor).Good Mmu.topMap :=
    .empty (Mmu.wellFormed_new (fun _ => rfl) (by decide) (by decide) (by decide))
  have tables : ∃ one after,
      (Mmu.topTable fun _ => 0).vmmMap true Mmu.topMap 0x400000 0x200000 2 = some (0, one) ∧
      one.page Mmu.topMap 0x400000 = some ⟨1, 0x400, 0x200003⟩ ∧
      one.vmmUnmap Mmu.topMap 0x400000 = (0, after) ∧
      after.translate Mmu.topMap 0x400123 = none := ⟨_, _, rfl, rfl, rfl, rfl⟩
  rcases tables with ⟨one, after, mapped, cached, unmapped, gone⟩
  have covers : CachedPage.Covers Mmu.topMap ⟨1, 0x400, 0x200003⟩ 0x400123 := ⟨by decide, rfl⟩
  have address : (⟨1, 0x400, 0x200003⟩ : CachedPage).address 0x400123 = 0x200123 := by decide
  have hit : ∀ tlb, Step true Mmu.topMap (.access 0x400123 (some 0x200123))
      ⟨one, insert ⟨1, 0x400, 0x200003⟩ tlb⟩ ⟨one, insert ⟨1, 0x400, 0x200003⟩ tlb⟩ := by
    intro tlb
    rw [← address]
    exact .hit (Set.mem_insert _ _) covers
  have miss : ∀ tlb, Step true Mmu.topMap (.access 0x400123 none) ⟨after, tlb⟩ ⟨after, tlb⟩ := by
    intro tlb
    rw [← gone]
    exact @Step.miss true Mmu.topMap ⟨after, tlb⟩ 0x400123
  have run := Trace.cons (Step.map mapped : Step _ _ _ ⟨_, ∅⟩ _) (.cons (.refill (.fill cached))
    (.cons (hit _) (.cons (.unmap unmapped) (.cons (miss _) (.nil _)))))
  have legal : ∀ event ∈ [PagingEvent.map 0x400000 0x200000 2 0, .refill,
      .access 0x400123 (some 0x200123), .unmap 0x400000 0, .access 0x400123 none],
      event.Legal Mmu.topMap := by
    simp only [List.forall_mem_cons]
    have low : Canonical Mmu.topMap 0x400000 := by decide
    exact ⟨⟨low, by decide⟩, trivial, trivial, low, trivial, by simp⟩
  have spaces := run_space good legal run
  exact ⟨_, spaces⟩

end Processor

end ParanOS

import ParanOS.Mm.Tables

/-! # What `map_pages` maps

The hardware walks the tables of an address on its own: it takes the bits up to 51 of
an entry, and uses large pages of 2 MiB and 1 GiB. On well-formed tables it ends where
the walk of `vmm.c` does, so each page that `map_page` enters is the page that the
hardware finds. `map_pages` then maps its range piece by piece, whatever the sizes of
the pieces are.
-/

namespace ParanOS

open Foundation

/-! ## The hardware walk -/

/-- The bits of an entry that give the address of a page on a level. -/
def frame (entry level : Nat) : Nat :=
  entry % 2 ^ 52 / 2 ^ pageShift level * 2 ^ pageShift level

/-- The walk from a table on `level` down. Bit 7 marks a page of 2 MiB or 1 GiB, and is
reserved above. -/
def hardwareWalk (tables : Store Nat Nat Nat) (virt : Nat) : (level table : Nat) → Option Nat
  | 0, _ => none
  | level + 1, table =>
      let entry := tables table (virt / 2 ^ pageShift (level + 1) % 512)
      if entry.testBit 0 = false then none
      else if level = 0 ∨ level ≤ 2 ∧ entry.testBit 7 = true then
        some (frame entry (level + 1) + virt % 2 ^ pageShift (level + 1))
      else if entry.testBit 7 = true then none
      else hardwareWalk tables virt level (frame entry 1)

/-- The addresses whose upper bits are all the same. -/
def Canonical (pagemap : Pagemap) (virt : Nat) : Prop :=
  virt < 2 ^ (11 + 9 * pagemap.levels.count) ∨
    2 ^ 64 - 2 ^ (11 + 9 * pagemap.levels.count) ≤ virt ∧ virt < 2 ^ 64

instance (pagemap : Pagemap) (virt : Nat) : Decidable (Canonical pagemap virt) :=
  inferInstanceAs (Decidable (_ ∨ _))

/-- The physical address at which the hardware finds a virtual one. -/
def Mmu.translate (mmu : Mmu) (pagemap : Pagemap) (virt : Nat) : Option Nat :=
  if Canonical pagemap virt then
    hardwareWalk mmu.tables virt pagemap.levels.count pagemap.topLevel
  else none

/-! ## The walk and the tree -/

theorem pteAddr_eq (entry : Nat) : pteAddr entry = entry % 2 ^ 48 / 2 ^ 12 * 2 ^ 12 := by
  apply Nat.eq_of_testBit_eq
  intro bit
  rw [testBit_pteAddr, Nat.testBit_mul_two_pow, Nat.testBit_div_two_pow, Nat.testBit_mod_two_pow]
  by_cases low : 12 ≤ bit
  · simp [low, Bool.and_comm]
  · simp [low]

theorem frame_of_low {entry : Nat} (low : entry / 2 ^ 48 % 16 = 0) :
    frame entry 1 = pteAddr entry := by
  rw [pteAddr_eq, frame, pageShift]
  omega

/-- The physical address in the page of an entry. -/
def pageAddress (virt : Nat) (page : Nat × Nat) : Nat :=
  frame page.2 page.1 + virt % 2 ^ pageShift page.1

namespace Mmu

/-- The hardware finds the page at which the walk through the tree ends. -/
theorem hardwareWalk_eq {mmu : Mmu} {pagemap : Pagemap} (wellFormed : mmu.WellFormed pagemap)
    (virt level : Nat) {place : List Nat} {table : Nat}
    (found : mmu.follow pagemap place = some table)
    (depth : place.length + level = pagemap.levels.count) :
    hardwareWalk mmu.tables virt level table =
      ((Radix.stop nextTable mmu.tables table (pagePath virt 1 level)).filter
        fun final => isLeaf final.1 final.2).map (pageAddress virt) := by
  induction level generalizing place table with
  | zero => rfl
  | succ level induction =>
      rw [pagePath, Nat.add_comm 1 level, hardwareWalk, ← pageIndex_eq]
      generalize position : pageIndex (level + 1) virt = index
      have ends := @Radix.stop_here _ _ _ nextTable mmu.tables table index
        (pagePath virt 1 level)
      rw [pagePath_length] at ends
      cases present : (mmu.tables table index).testBit 0 with
      | false =>
          rw [ends (.inr (nextTable_of_not_table (not_table_of_not_present present)))]
          simp [Option.filter, isLeaf_of_not_present present]
      | true =>
          by_cases lowest : level = 0
          · subst lowest
            rw [ends (.inl rfl)]
            have isPage : isLeaf 1 (mmu.tables table index) = true := by
              simp only [isLeaf, present, Bool.true_and]
              rfl
            simp only [Option.filter, Nat.zero_add, isPage]
            rfl
          · cases large : (mmu.tables table index).testBit 7 with
            | true =>
                have noTable : ptIsTable (mmu.tables table index) = false := by
                  simp only [ptIsTable, large, Bool.not_true, Bool.and_false]
                rw [ends (.inr (nextTable_of_not_table noTable))]
                by_cases high : level ≤ 2
                · have isPage : isLeaf (level + 1) (mmu.tables table index) = true := by
                    have three : decide (level + 1 ≤ 3) = true := decide_eq_true (by omega)
                    rw [isLeaf, present, large, three, Bool.true_and, Bool.true_and, Bool.or_true]
                  simp [Option.filter, isPage, high, pageAddress]
                · have noPage : isLeaf (level + 1) (mmu.tables table index) = false := by
                    have first : (level + 1 == 1) = false := by simpa using lowest
                    have three : decide (level + 1 ≤ 3) = false := decide_eq_false (by omega)
                    rw [isLeaf, first, three, Bool.false_and, Bool.or_false, Bool.and_false]
                  simp [Option.filter, noPage, high, lowest]
            | false =>
                have isTable : ptIsTable (mmu.tables table index) = true := by
                  simp only [ptIsTable, present, large, Bool.not_false, Bool.and_true]
                have low := wellFormed.low place table (by omega) found index isTable
                have reached : mmu.follow pagemap (place ++ [index]) =
                    some (pteAddr (mmu.tables table index)) := by
                  rw [follow, Radix.follow_append found, Radix.follow_single,
                    nextTable_of_table isTable]
                have pointer : Radix.follow nextTable mmu.tables table [index] =
                    some (pteAddr (mmu.tables table index)) := by
                  rw [Radix.follow_single, nextTable_of_table isTable]
                have more : pagePath virt 1 level ≠ [] := by
                  intro none
                  have length := pagePath_length virt 1 level
                  rw [none] at length
                  exact lowest length.symm
                have onwards := Radix.stop_append pointer more
                rw [List.singleton_append] at onwards
                simp only [frame_of_low low, lowest]
                rw [onwards, ← induction reached (by simp; omega)]
                simp

theorem WellFormed.translate_eq {mmu : Mmu} {pagemap : Pagemap}
    (wellFormed : mmu.WellFormed pagemap) {virt : Nat} (canonical : Canonical pagemap virt) :
    mmu.translate pagemap virt =
      (mmu.leaf pagemap (pagePath virt 1 pagemap.levels.count)).map (pageAddress virt) := by
  rw [translate, if_pos canonical]
  exact @hardwareWalk_eq mmu pagemap wellFormed virt _ [] _ rfl (by simp)

/-! ## The address in an entry -/

/-- No bit that belongs to the address. -/
def FlagsOnly (flags : Nat) : Prop := flags / 2 ^ 13 % 2 ^ 39 = 0

instance (flags : Nat) : Decidable (FlagsOnly flags) := inferInstanceAs (Decidable (_ = _))

theorem FlagsOnly.testBit {flags bit : Nat} (plain : FlagsOnly flags) (low : 13 ≤ bit)
    (high : bit < 52) : flags.testBit bit = false := by
  have bits := Nat.testBit_mod_two_pow (flags / 2 ^ 13) 39 (bit - 13)
  rw [plain, Nat.zero_testBit, Nat.testBit_div_two_pow, Nat.sub_add_cancel low] at bits
  simpa [show bit - 13 < 39 by omega] using bits.symm

theorem testBit_small {value bit : Nat} (width : Nat) (small : value < 2 ^ width)
    (above : width ≤ bit) : value.testBit bit = false :=
  Nat.testBit_lt_two_pow (Nat.lt_of_lt_of_le small (Nat.pow_le_pow_right (by decide) above))

/-- The bits of the address in the entry for a page are those of its physical address. -/
theorem leafEntry_testBit {flags bit : Nat} (plain : FlagsOnly flags) (phys : Nat)
    (size : PageSize) (low : pageShift size.level ≤ bit) (high : bit < 52) :
    (leafEntry phys (flags ||| 1) size).testBit bit = phys.testBit bit := by
  have one : Nat.testBit 1 bit = false := by
    apply testBit_small 1 (by decide)
    simp only [pageShift] at low
    omega
  have noFlag : 13 ≤ bit → (flags ||| 1).testBit bit = false := by
    intro above
    rw [Nat.testBit_or, plain.testBit above high, one, Bool.or_false]
  cases size with
  | size4KiB =>
      simp only [pageShift, PageSize.level] at low
      have pat : Nat.testBit 0x80 bit = false := testBit_small 8 (by decide) (by omega)
      rw [leafEntry]
      by_cases atPat : bit = 12
      · subst atPat
        have cleared : Nat.testBit 0xFFFFFFFFFFFFEFFF 12 = false := by decide
        split
        · rw [Nat.testBit_or, Nat.testBit_or, Nat.testBit_and, cleared, pat]
          simp
        · rename_i clear
          rw [Nat.testBit_or]
          simp only [Bool.not_eq_true] at clear
          rw [clear, Bool.or_false]
      · have absent := noFlag (by omega)
        split
        · rw [Nat.testBit_or, Nat.testBit_or, Nat.testBit_and, absent, pat]
          simp
        · rw [Nat.testBit_or, absent, Bool.or_false]
  | size2MiB =>
      simp only [pageShift, PageSize.level] at low
      have mark : ptFlagLarge.testBit bit = false := testBit_small 8 (by decide) (by omega)
      rw [leafEntry, Nat.testBit_or, Nat.testBit_or, noFlag (by omega), mark, Bool.or_false,
        Bool.or_false]
  | size1GiB =>
      simp only [pageShift, PageSize.level] at low
      have mark : ptFlagLarge.testBit bit = false := testBit_small 8 (by decide) (by omega)
      rw [leafEntry, Nat.testBit_or, Nat.testBit_or, noFlag (by omega), mark, Bool.or_false,
        Bool.or_false]

theorem size_bytes (size : PageSize) : 2 ^ pageShift size.level = size.bytes := by
  cases size <;> rfl

theorem frame_leafEntry {flags phys : Nat} (plain : FlagsOnly flags) (size : PageSize)
    (aligned : phys % size.bytes = 0) (bound : phys < 2 ^ 52) :
    frame (leafEntry phys (flags ||| 1) size) size.level = phys := by
  have page : phys = phys / 2 ^ pageShift size.level * 2 ^ pageShift size.level := by
    have whole := Nat.div_add_mod phys (2 ^ pageShift size.level)
    rw [size_bytes] at whole ⊢
    rw [aligned, Nat.add_zero, Nat.mul_comm] at whole
    exact whole.symm
  rw [frame, page]
  congr 1
  apply Nat.eq_of_testBit_eq
  intro bit
  rw [← page, Nat.testBit_div_two_pow, Nat.testBit_mod_two_pow, Nat.testBit_div_two_pow]
  by_cases high : bit + pageShift size.level < 52
  · rw [leafEntry_testBit plain phys size (by omega) high]
    simp [high]
  · rw [testBit_small 52 bound (by omega)]
    simp [high]

/-! ## The addresses of a page -/

/-- The indices down to the level of a page are its number among the pages of its size. -/
theorem pagePrefix_iff_number (pagemap : Pagemap) (virt address : Nat) (size : PageSize) :
    pagePrefix pagemap virt size.level <+: pagePath address 1 pagemap.levels.count ↔
      virt / size.bytes % 512 ^ (pagemap.levels.count - size.level + 1) =
        address / size.bytes % 512 ^ (pagemap.levels.count - size.level + 1) := by
  have levels := level_bounds pagemap.levels size
  have length : ∀ virt, (pagePrefix pagemap virt size.level).length =
      pagemap.levels.count - size.level + 1 := fun virt => pagePath_length _ _ _
  have split := pagePath_add address 1 (pagemap.levels.count - size.level + 1) (size.level - 1)
  rw [show pagemap.levels.count - size.level + 1 + (size.level - 1) = pagemap.levels.count by omega,
    show 1 + (size.level - 1) = size.level by omega] at split
  have own : pagePrefix pagemap address size.level <+:
      pagePath address 1 pagemap.levels.count := ⟨_, split.symm⟩
  rw [← size_bytes, ← pagePath_eq_iff levels.1]
  constructor
  · intro within
    have shared := List.prefix_of_prefix_length_le within own
      (Nat.le_of_eq ((length virt).trans (length address).symm))
    exact shared.eq_of_length ((length virt).trans (length address).symm)
  · intro same
    rw [pagePrefix, same]
    exact own

/-- Canonical addresses in one page of a size have the same number. -/
theorem number_eq_iff {pagemap : Pagemap} {virt address : Nat} (size : PageSize)
    (aligned : virt % size.bytes = 0) (canonical : Canonical pagemap virt)
    (other : Canonical pagemap address) :
    virt / size.bytes % 512 ^ (pagemap.levels.count - size.level + 1) =
        address / size.bytes % 512 ^ (pagemap.levels.count - size.level + 1) ↔
      virt ≤ address ∧ address < virt + size.bytes := by
  rcases pagemap with ⟨levels, topLevel⟩
  cases levels <;> cases size <;>
    simp only [Canonical, PagingLevels.count, PageSize.level, PageSize.bytes] at * <;> omega

theorem canonical_page {pagemap : Pagemap} {virt address : Nat} (size : PageSize)
    (aligned : virt % size.bytes = 0) (canonical : Canonical pagemap virt)
    (lower : virt ≤ address) (upper : address < virt + size.bytes) :
    Canonical pagemap address := by
  rcases pagemap with ⟨levels, topLevel⟩
  cases levels <;> cases size <;>
    simp only [Canonical, PagingLevels.count, PageSize.bytes] at * <;> omega

/-! ## Mapping a range -/

/-- A range has been mapped with up to `need` new tables, and every address outside of it
is translated as before. -/
structure Extends (before after : Mmu) (pagemap : Pagemap) (virt phys size need : Nat) :
    Prop where
  wellFormed : after.WellFormed pagemap
  translate : ∀ address, after.translate pagemap address =
    if virt ≤ address ∧ address < virt + size then some (phys + (address - virt))
    else before.translate pagemap address
  supply : before.supply.length ≤ after.supply.length + need

namespace Extends

variable {before middle after : Mmu} {pagemap : Pagemap} {virt phys first second need more : Nat}

theorem refl (wellFormed : before.WellFormed pagemap) :
    before.Extends before pagemap virt phys 0 0 := by
  refine ⟨wellFormed, ?_, Nat.le_refl _⟩
  intro address
  rw [if_neg (by omega)]

/-- Two ranges behind each other make up one. -/
theorem append (left : before.Extends middle pagemap virt phys first need)
    (right : middle.Extends after pagemap (virt + first) (phys + first) second more) :
    before.Extends after pagemap virt phys (first + second) (need + more) := by
  refine ⟨right.wellFormed, ?_, ?_⟩
  · intro address
    rw [right.translate, left.translate]
    by_cases inFirst : virt ≤ address ∧ address < virt + first
    · rw [if_neg (by omega), if_pos inFirst, if_pos (by omega)]
    · by_cases inSecond : virt + first ≤ address ∧ address < virt + first + second
      · rw [if_pos inSecond, if_pos (by omega)]
        congr 1
        omega
      · rw [if_neg inSecond, if_neg inFirst, if_neg (by omega)]
  · have leftSupply := left.supply
    have rightSupply := right.supply
    omega

theorem mono (extended : before.Extends after pagemap virt phys first need) (enough : need ≤ more) :
    before.Extends after pagemap virt phys first more :=
  ⟨extended.wellFormed, extended.translate, by have supply := extended.supply; omega⟩

end Extends

/-- What is free stays free when tables are added. -/
theorem Grown.translate {before after : Mmu} {pagemap : Pagemap} {count : Nat}
    (growth : before.Grown after pagemap count) (wellFormed : before.WellFormed pagemap)
    (address : Nat) : after.translate pagemap address = before.translate pagemap address := by
  by_cases canonical : Canonical pagemap address
  · rw [growth.wellFormed.translate_eq canonical, wellFormed.translate_eq canonical,
      growth.leaf _ (pagePath_length _ _ _)]
  · rw [Mmu.translate, Mmu.translate, if_neg canonical, if_neg canonical]

/-- Mapping one page extends the translation by the addresses of the page. -/
theorem Mapped.extends {before after : Mmu} {pagemap : Pagemap} {virt phys flags count : Nat}
    {size : PageSize} (wellFormed : before.WellFormed pagemap)
    (mapped : before.Mapped after pagemap virt size.level (leafEntry phys (flags ||| 1) size) count)
    (virtAligned : virt % size.bytes = 0) (physAligned : phys % size.bytes = 0)
    (canonical : Canonical pagemap virt) (bound : phys + size.bytes ≤ 2 ^ 52)
    (plain : FlagsOnly flags) : before.Extends after pagemap virt phys size.bytes count := by
  have page := frame_leafEntry plain size physAligned
    (show phys < 2 ^ 52 by cases size <;> simp only [PageSize.bytes] at bound <;> omega)
  refine ⟨mapped.wellFormed, ?_, mapped.supply⟩
  intro address
  by_cases other : Canonical pagemap address
  · have full := pagePath_length address 1 pagemap.levels.count
    have within := (pagePrefix_iff_number pagemap virt address size).trans
      (number_eq_iff size virtAligned canonical other)
    rw [mapped.wellFormed.translate_eq other, wellFormed.translate_eq other]
    by_cases inside : virt ≤ address ∧ address < virt + size.bytes
    · rw [if_pos inside, mapped.inside _ full (within.mpr inside), Option.map_some, pageAddress,
        page, size_bytes]
      congr 2
      cases size <;> simp only [PageSize.bytes] at * <;> omega
    · rw [if_neg inside, mapped.outside _ full (fun prefixed => inside (within.mp prefixed))]
  · have outside : ¬ (virt ≤ address ∧ address < virt + size.bytes) := fun inside =>
      other (canonical_page size virtAligned canonical inside.1 inside.2)
    rw [if_neg outside, Mmu.translate, Mmu.translate, if_neg other, if_neg other]

theorem FlagsOnly.or_one {flags : Nat} (plain : FlagsOnly flags) : FlagsOnly (flags ||| 1) := by
  apply Nat.eq_of_testBit_eq
  intro bit
  rw [Nat.testBit_mod_two_pow, Nat.testBit_div_two_pow, Nat.zero_testBit, Nat.testBit_or,
    testBit_small 1 (show 1 < 2 ^ 1 by decide) (show 1 ≤ bit + 13 by omega), Bool.or_false]
  by_cases inside : bit < 39
  · rw [plain.testBit (by omega) (by omega), Bool.and_false]
  · simp [inside]

theorem canonical_lt {pagemap : Pagemap} {virt : Nat} (canonical : Canonical pagemap virt) :
    virt < 2 ^ 64 := by
  rcases pagemap with ⟨levels, topLevel⟩
  cases levels <;> simp only [Canonical, PagingLevels.count] at canonical <;> omega

section

variable {mmu : Mmu} {pagemap : Pagemap} {virt phys flags : Nat} {size : PageSize}
  (wellFormed : mmu.WellFormed pagemap) (virtAligned : virt % size.bytes = 0)
  (physAligned : phys % size.bytes = 0) (canonical : Canonical pagemap virt)
  (bound : phys + size.bytes ≤ 2 ^ 52) (plain : FlagsOnly flags)

include wellFormed virtAligned physAligned canonical bound plain

/-- A page is mapped, or the kernel has no page left for its tables. -/
theorem setPage_extends (clear : mmu.translate pagemap virt = none) :
    setPage pagemap virt phys flags size mmu = none ∧ mmu.supply.length < 4 ∨
    ∃ after, setPage pagemap virt phys flags size mmu = some after ∧
      mmu.Extends after pagemap virt phys size.bytes 4 := by
  have few : pagemap.levels.count - size.level ≤ 4 := by
    cases pagemap.levels <;> cases size <;> decide
  rw [wellFormed.translate_eq canonical, Option.map_eq_none_iff] at clear
  rcases setPage_cases virt phys flags size wellFormed clear with short | ⟨after, run, mapped⟩
  · exact .inl ⟨short.1, by omega⟩
  · have extended := mapped.extends wellFormed virtAligned physAligned canonical bound plain
    exact .inr ⟨after, run, extended.mono few⟩

end

/-- The 2 MiB pages of 1 GiB are mapped one after the other. -/
theorem setPieces_extends {mmu : Mmu} {pagemap : Pagemap} {virt phys flags : Nat}
    (wellFormed : mmu.WellFormed pagemap) (virtAligned : virt % 0x40000000 = 0)
    (physAligned : phys % 0x40000000 = 0) (canonical : Canonical pagemap virt)
    (bound : phys + 0x40000000 ≤ 2 ^ 52) (plain : FlagsOnly flags)
    (clear : ∀ address, virt ≤ address → address < virt + 0x40000000 →
      mmu.translate pagemap address = none) (pieces : Nat) (most : pieces ≤ 512) :
    let run := (List.range pieces).foldlM
      (fun mmu piece => setPage pagemap (u64 (virt + piece * 0x200000))
        (u64 (phys + piece * 0x200000)) flags .size2MiB mmu) mmu
    run = none ∧ mmu.supply.length < 4 * pieces ∨
    ∃ after, run = some after ∧
      mmu.Extends after pagemap virt phys (pieces * 0x200000) (4 * pieces) := by
  induction pieces with
  | zero => exact .inr ⟨mmu, rfl, .refl wellFormed⟩
  | succ pieces induction =>
      rw [List.range_succ, List.foldlM_append]
      rcases induction (by omega) with short | ⟨middle, run, extended⟩
      · left
        rw [short.1]
        exact ⟨rfl, by have few := short.2; omega⟩
      · have within : Canonical pagemap (virt + pieces * 0x200000) :=
          canonical_page .size1GiB virtAligned canonical (by omega)
            (by simp only [PageSize.bytes]; omega)
        have virtNoWrap : u64 (virt + pieces * 0x200000) = virt + pieces * 0x200000 :=
          Nat.mod_eq_of_lt (canonical_lt within)
        have physNoWrap : u64 (phys + pieces * 0x200000) = phys + pieces * 0x200000 :=
          Nat.mod_eq_of_lt (by omega)
        have free : middle.translate pagemap (virt + pieces * 0x200000) = none := by
          rw [extended.translate, if_neg (by omega)]
          exact clear _ (by omega) (by omega)
        have step := @setPage_extends middle pagemap (virt + pieces * 0x200000)
          (phys + pieces * 0x200000) flags .size2MiB extended.wellFormed
          (by simp only [PageSize.bytes]; omega) (by simp only [PageSize.bytes]; omega) within
          (by simp only [PageSize.bytes]; omega) plain free
        have supply := extended.supply
        simp only [run, List.foldlM_cons, List.foldlM_nil, virtNoWrap, physNoWrap]
        rcases step with short | ⟨after, done, further⟩
        · left
          have few := short.2
          refine ⟨?_, by omega⟩
          simp [short.1]
        · right
          refine ⟨after, by simp [done], ?_⟩
          have joined := extended.append further
          rw [show pieces * 0x200000 + PageSize.bytes .size2MiB = (pieces + 1) * 0x200000 by
            simp only [PageSize.bytes]; omega] at joined
          exact joined

/-- Going down to the table of 1 GiB pages, before its pieces are mapped. -/
theorem descend_gib {mmu : Mmu} {pagemap : Pagemap} {virt : Nat}
    (wellFormed : mmu.WellFormed pagemap) (canonical : Canonical pagemap virt)
    (clear : mmu.translate pagemap virt = none) :
    descend virt 3 (pagemap.levels.count - 3) pagemap.topLevel mmu = none ∧
      mmu.supply.length < 2 ∨
    ∃ table grown, descend virt 3 (pagemap.levels.count - 3) pagemap.topLevel mmu =
        some (some table, grown) ∧ mmu.Grown grown pagemap 2 := by
  have few : 3 + (pagemap.levels.count - 3) = pagemap.levels.count ∧
      pagemap.levels.count - 3 ≤ 2 := by
    cases pagemap.levels <;> decide
  have root : mmu.follow pagemap [] = some pagemap.topLevel := rfl
  rw [wellFormed.translate_eq canonical, Option.map_eq_none_iff,
    pagePath_split pagemap virt .size1GiB, ← List.nil_append (pagePath virt _ _ ++ _)] at clear
  rcases descend_cases virt 3 (pagemap.levels.count - 3) wellFormed root (pagePath_length _ _ _)
    (by simp [few.1]) (by decide) clear with short | ⟨table, grown, run, growth, _⟩
  · exact .inl ⟨short.1, by omega⟩
  · right
    refine ⟨table, grown, run, growth.wellFormed, growth.leaf, ?_⟩
    have supply := growth.supply
    omega

section

variable {mmu : Mmu} {pagemap : Pagemap} {virt phys flags : Nat} {size : PageSize}
  (cpuHas1gibPages : Bool) (wellFormed : mmu.WellFormed pagemap)
  (virtAligned : virt % size.bytes = 0) (physAligned : phys % size.bytes = 0)
  (canonical : Canonical pagemap virt) (bound : phys + size.bytes ≤ 2 ^ 52)
  (plain : FlagsOnly flags)

include wellFormed virtAligned physAligned canonical bound plain

/-- `map_page` maps its page in one piece or, without pages of 1 GiB, in 512. -/
theorem mapPage_extends (clear : ∀ address, virt ≤ address → address < virt + size.bytes →
      mmu.translate pagemap address = none) :
    mapPage cpuHas1gibPages pagemap virt phys flags size mmu = none ∧
      mmu.supply.length < 4 * (size.bytes / 0x1000) ∨
    ∃ after, mapPage cpuHas1gibPages pagemap virt phys flags size mmu = some after ∧
      mmu.Extends after pagemap virt phys size.bytes (4 * (size.bytes / 0x1000)) := by
  have positive : 0 < size.bytes := by cases size <;> decide
  have free := clear virt (Nat.le_refl _) (by omega)
  have enough : 4 ≤ 4 * (size.bytes / 0x1000) := by cases size <;> decide
  by_cases pieces : size = .size1GiB ∧ cpuHas1gibPages = false
  · rcases pieces with ⟨rfl, none⟩
    simp only [PageSize.bytes] at virtAligned physAligned bound clear enough ⊢
    rw [mapPage, if_pos ⟨rfl, none⟩]
    rcases descend_gib wellFormed canonical free with short | ⟨table, grown, run, growth⟩
    · left
      rw [short.1]
      exact ⟨rfl, by have few := short.2; omega⟩
    · have stillClear : ∀ address, virt ≤ address → address < virt + 0x40000000 →
          grown.translate pagemap address = Option.none := by
        intro address lower upper
        rw [growth.translate wellFormed]
        exact clear address lower upper
      have supply := growth.supply
      simp only [run, setPieces]
      rcases setPieces_extends growth.wellFormed virtAligned physAligned canonical bound
        plain.or_one stillClear 512 (Nat.le_refl _) with short | ⟨after, done, extended⟩
      · left
        exact ⟨short.1, by have few := short.2; omega⟩
      · right
        refine ⟨after, done, extended.wellFormed, ?_, ?_⟩
        · intro address
          rw [extended.translate, growth.translate wellFormed]
        · have later := extended.supply
          omega
  · rw [mapPage, if_neg pieces]
    rcases setPage_extends wellFormed virtAligned physAligned canonical bound plain free with
      short | ⟨after, done, extended⟩
    · exact .inl ⟨short.1, by omega⟩
    · exact .inr ⟨after, done, extended.mono enough⟩

end

/-! ## The whole range -/

theorem and_mask_eq_zero (value width : Nat) :
    value &&& (2 ^ width - 1) = 0 ↔ value % 2 ^ width = 0 := by
  rw [Nat.and_two_pow_sub_one_eq_mod]

/-- The size that is picked fits both addresses and the rest. -/
theorem pickSize_fits {virt phys rest : Nat} (virtAligned : virt % 0x1000 = 0)
    (physAligned : phys % 0x1000 = 0) (more : 0x1000 ≤ rest) :
    virt % (pickSize virt phys rest).bytes = 0 ∧ phys % (pickSize virt phys rest).bytes = 0 ∧
      (pickSize virt phys rest).bytes ≤ rest := by
  have gib := fun value => and_mask_eq_zero value 30
  have mib := fun value => and_mask_eq_zero value 21
  rw [pickSize]
  split
  · rename_i large
    exact ⟨(gib virt).mp large.2.1, (gib phys).mp large.1, large.2.2⟩
  · split
    · rename_i large
      exact ⟨(mib virt).mp large.2.1, (mib phys).mp large.1, large.2.2⟩
    · exact ⟨virtAligned, physAligned, more⟩

section

variable {pagemap : Pagemap} {virt phys flags count : Nat} (cpuHas1gibPages : Bool)
  (virtAligned : virt % 0x1000 = 0) (physAligned : phys % 0x1000 = 0)
  (countAligned : count % 0x1000 = 0)
  (canonical : ∀ address, virt ≤ address → address < virt + count → Canonical pagemap address)
  (bound : phys + count ≤ 2 ^ 52) (plain : FlagsOnly flags)

include virtAligned physAligned countAligned canonical bound plain

theorem mapPagesFrom_extends (turns : Nat) {i : Nat} {mmu : Mmu}
    (wellFormed : mmu.WellFormed pagemap) (aligned : i % 0x1000 = 0) (within : i ≤ count)
    (enough : count ≤ i + turns * 0x1000)
    (clear : ∀ address, virt + i ≤ address → address < virt + count →
      mmu.translate pagemap address = none) :
    let run := mapPagesFrom cpuHas1gibPages pagemap virt phys flags count turns i mmu
    run = none ∧ mmu.supply.length < 4 * ((count - i) / 0x1000) ∨
    ∃ after, run = some after ∧
      mmu.Extends after pagemap (virt + i) (phys + i) (count - i)
        (4 * ((count - i) / 0x1000)) := by
  induction turns generalizing i mmu with
  | zero =>
      have done : count - i = 0 := by omega
      rw [done]
      exact .inr ⟨mmu, rfl, .refl wellFormed⟩
  | succ turns induction =>
      by_cases more : i < count
      · have here : Canonical pagemap (virt + i) := canonical _ (by omega) (by omega)
        have virtNoWrap : u64 (virt + i) = virt + i := Nat.mod_eq_of_lt (canonical_lt here)
        have physNoWrap : u64 (phys + i) = phys + i := Nat.mod_eq_of_lt (by omega)
        simp only [mapPagesFrom, if_pos more, virtNoWrap, physNoWrap]
        have fits := @pickSize_fits (virt + i) (phys + i) (count - i) (by omega) (by omega)
          (by omega)
        generalize pickSize (virt + i) (phys + i) (count - i) = size at fits ⊢
        rcases fits with ⟨virtFits, physFits, sizeFits⟩
        have whole : size.bytes % 0x1000 = 0 ∧ 0x1000 ≤ size.bytes := by
          cases size <;> decide
        have needs : 4 * ((count - i) / 0x1000) =
            4 * (size.bytes / 0x1000) + 4 * ((count - (i + size.bytes)) / 0x1000) := by
          omega
        rcases mapPage_extends cpuHas1gibPages wellFormed virtFits physFits here (by omega) plain
          (fun address lower upper => clear address lower (by omega)) with
          short | ⟨middle, run, extended⟩
        · left
          rw [short.1]
          exact ⟨rfl, by have few := short.2; omega⟩
        · have stillClear : ∀ address, virt + (i + size.bytes) ≤ address →
              address < virt + count → middle.translate pagemap address = none := by
            intro address lower upper
            rw [extended.translate, if_neg (by omega)]
            exact clear address (by omega) upper
          have supply := extended.supply
          rw [run]
          rcases induction extended.wellFormed (by omega) (by omega) (by omega) stillClear with
            short | ⟨after, done, further⟩
          · left
            exact ⟨short.1, by have few := short.2; omega⟩
          · right
            refine ⟨after, done, ?_⟩
            rw [← Nat.add_assoc, ← Nat.add_assoc] at further
            have joined := extended.append further
            rw [← needs, show size.bytes + (count - (i + size.bytes)) = count - i by omega]
              at joined
            exact joined
      · have done : count - i = 0 := by omega
        simp only [mapPagesFrom, if_neg more]
        rw [done]
        exact .inr ⟨mmu, rfl, .refl wellFormed⟩

/-- `map_pages` maps its range and nothing else, with pages of any size, unless the kernel
has no page left for a table. -/
theorem mapPages_translate {mmu : Mmu} (wellFormed : mmu.WellFormed pagemap)
    (clear : ∀ address, virt ≤ address → address < virt + count →
      mmu.translate pagemap address = none) :
    mapPages cpuHas1gibPages pagemap virt phys flags count mmu = none ∧
      mmu.supply.length < 4 * (count / 0x1000) ∨
    ∃ after, mapPages cpuHas1gibPages pagemap virt phys flags count mmu = some after ∧
      after.WellFormed pagemap ∧
      ∀ address, after.translate pagemap address =
        if virt ≤ address ∧ address < virt + count then some (phys + (address - virt))
        else mmu.translate pagemap address := by
  rcases @mapPagesFrom_extends pagemap virt phys flags count cpuHas1gibPages virtAligned
    physAligned countAligned canonical bound plain ((count + 0xFFF) / 0x1000) 0 mmu wellFormed rfl
    (Nat.zero_le _) (by omega) clear with short | ⟨after, run, extended⟩
  · exact .inl short
  · exact .inr ⟨after, run, extended.wellFormed, extended.translate⟩

end

/-! ## Small page tables -/

/-- Four levels, of which only the top table has entries. -/
def topTable (entries : Nat → Nat) : Mmu :=
  ⟨fun table index => if table = 0x1000 then entries index else 0,
    [0x3000, 0x4000, 0x5000, 0x6000]⟩

def topMap : Pagemap := ⟨.four, 0x1000⟩

/-- Nothing is mapped in them. -/
theorem topTable_unmapped {entries : Nat → Nat}
    (lower : ∀ index, (entries index).testBit 0 = true → frame (entries index) 1 ≠ 0x1000)
    (address : Nat) : (topTable entries).translate topMap address = none := by
  rw [translate]
  split
  · show hardwareWalk (topTable entries).tables address 4 0x1000 = none
    rw [hardwareWalk]
    simp only [topTable, if_true]
    cases present : (entries (address / 2 ^ pageShift 4 % 512)).testBit 0 with
    | false => rfl
    | true =>
        simp only [hardwareWalk, if_neg (lower _ present)]
        simp
  · rfl

theorem mapPages_translate_new :
    ∃ after, mapPages true topMap 0x400000 0x200000 2 0x1000 (topTable fun _ => 0) = some after ∧
      after.WellFormed topMap ∧
      ∀ address, after.translate topMap address =
        if 0x400000 ≤ address ∧ address < 0x400000 + 0x1000 then
          some (0x200000 + (address - 0x400000))
        else (topTable fun _ => 0).translate topMap address :=
  (mapPages_translate true (by decide) (by decide) (by decide)
    (fun address lower upper => .inl (Nat.lt_trans upper (by decide))) (by decide)
    (by decide : FlagsOnly 2)
    (wellFormed_new (fun _ => rfl) (by decide) (by decide) (by decide))
    (fun address _ _ => topTable_unmapped (fun _ present => absurd present (by decide))
      address)).resolve_left (by decide)

/-- Where an address is found after one page has been mapped. -/
def foundAfter (entries : Nat → Nat) (virt phys flags address : Nat) : Option (Option Nat) :=
  (mapPages true topMap virt phys flags 0x1000 (topTable entries)).map
    fun after => after.translate topMap address

/-- Two entries of the top table share the next one. -/
def sharedEntries (index : Nat) : Nat := if index < 2 then 0x2007 else 0

/-- An entry of the top table is marked as a large page. -/
def markedEntries (index : Nat) : Nat := if index = 0 then 0x87 else 0

/-- A table is above 2^48. -/
def highEntries (index : Nat) : Nat := if index = 0 then 2 ^ 48 + 0x2007 else 0

/-- The limits of `map_pages`, where nothing is mapped before: a flag among the bits of
the address, a physical address of more than 52 bits and a virtual one that is not
canonical; then tables that are not well-formed. -/
theorem mapPages_limits :
    (∀ address, (topTable fun _ => 0).translate topMap address = none) ∧
    foundAfter (fun _ => 0) 0x400000 0x200000 0x100000 0x400000 = some (some 0x300000) ∧
    foundAfter (fun _ => 0) 0x400000 (2 ^ 52) 2 0x400000 = some (some 0) ∧
    foundAfter (fun _ => 0) (2 ^ 47) 0x200000 2 (2 ^ 47) = some none ∧
    (∀ address, (topTable sharedEntries).translate topMap address = none) ∧
    foundAfter sharedEntries 0x400000 0x200000 2 (2 ^ 39 + 0x400000) = some (some 0x200000) ∧
    (∀ address, (topTable markedEntries).translate topMap address = none) ∧
    foundAfter markedEntries 0x400000 0x200000 2 0x400000 = some none ∧
    (∀ address, (topTable highEntries).translate topMap address = none) ∧
    foundAfter highEntries 0x400000 0x200000 2 0x400000 = some none := by
  have shared : ∀ index, frame (sharedEntries index) 1 ≠ 0x1000 := by
    intro index
    rw [sharedEntries]
    split <;> decide
  have marked : ∀ index, frame (markedEntries index) 1 ≠ 0x1000 := by
    intro index
    rw [markedEntries]
    split <;> decide
  have high : ∀ index, frame (highEntries index) 1 ≠ 0x1000 := by
    intro index
    rw [highEntries]
    split <;> decide
  refine ⟨topTable_unmapped fun _ _ => by decide, ?_, ?_, ?_,
    topTable_unmapped fun index _ => shared index, ?_,
    topTable_unmapped fun index _ => marked index, ?_,
    topTable_unmapped fun index _ => high index, ?_⟩ <;> decide +kernel

end Mmu

end ParanOS

import ParanOS.Mm.Unmap

/-! # The addresses that `vmm_query` reports

`vmm_query` takes the address of a page from the bits 12 to 47 of its entry, whatever
the size of the page is. The hardware leaves out the low bits of a large page, where
bit 12 is the PAT bit, and takes the bits up to 51. The two agree on tables whose
entries have none of these bits, and `map_page` makes such tables unless it is told to
set one of them.
-/

namespace ParanOS

open Foundation

/-! ## The flags of a page -/

def vmmFlagWrite : Nat := 1 <<< 1

def vmmFlagNoexec : Nat := 1 <<< 63

/-- Write-combining, for the framebuffer. -/
def vmmFlagFb : Nat := 1 <<< 3 ||| 1 <<< 12

/-- The flags that are drawn from them. -/
def vmmFlags (write noexec fb : Bool) : Nat :=
  (if write then vmmFlagWrite else 0) ||| (if noexec then vmmFlagNoexec else 0) |||
    (if fb then vmmFlagFb else 0)

theorem vmmFlags_plain (write noexec fb : Bool) : Mmu.FlagsOnly (vmmFlags write noexec fb) := by
  cases write <;> cases noexec <;> cases fb <;> decide

/-- The flags for the framebuffer have the PAT bit of a large page. -/
theorem vmmFlags_pat (write noexec fb : Bool) :
    (vmmFlags write noexec fb).testBit 12 = fb := by
  cases write <;> cases noexec <;> cases fb <;> decide

namespace Mmu

/-! ## One entry -/

/-- Both addresses of the page of an entry are the same. -/
def EntryAgrees (page : Nat × Nat) : Prop := pteAddr page.2 = frame page.2 page.1

theorem entryAgrees_iff {level entry : Nat} (low : 1 ≤ level) (high : level ≤ 3) :
    EntryAgrees (level, entry) ↔
      entry / 2 ^ 12 % 2 ^ (9 * (level - 1)) = 0 ∧ entry / 2 ^ 48 % 16 = 0 := by
  have levels : level = 1 ∨ level = 2 ∨ level = 3 := by omega
  rw [EntryAgrees, pteAddr_eq, frame]
  rcases levels with rfl | rfl | rfl <;> simp only [pageShift] <;> omega

theorem pageAt_eq_iff (virt : Nat) {level entry : Nat} (low : 1 ≤ level) (high : level ≤ 3) :
    (pageAt virt level entry).1 = pageAddress virt (level, entry) ↔
      EntryAgrees (level, entry) := by
  have levels : level = 1 ∨ level = 2 ∨ level = 3 := by omega
  have address := pteAddr_eq entry
  rw [pageAt, pageAddress, EntryAgrees, Nat.and_two_pow_sub_one_eq_mod]
  have noWrap : u64 (pteAddr entry + virt % 2 ^ pageShift level) =
      pteAddr entry + virt % 2 ^ pageShift level := by
    apply Nat.mod_eq_of_lt
    rcases levels with rfl | rfl | rfl <;> simp only [pageShift] <;> omega
  rw [noWrap]
  exact Nat.add_right_cancel_iff

/-! ## The entry of a call -/

/-- The page that a call maps is reported as the hardware finds it. -/
def Reportable (phys flags : Nat) (size : PageSize) : Prop :=
  phys / 0x1000 % (size.bytes / 0x1000) = 0 ∧ phys / 2 ^ 48 % 16 = 0 ∧
    (size = .size4KiB ∨ flags.testBit 12 = false)

instance (phys flags : Nat) (size : PageSize) : Decidable (Reportable phys flags size) :=
  inferInstanceAs (Decidable (_ ∧ _))

theorem Reportable.or_one {phys flags : Nat} {size : PageSize}
    (reportable : Reportable phys flags size) : Reportable phys (flags ||| 1) size := by
  have one : Nat.testBit 1 12 = false := by decide
  rw [Reportable, Nat.testBit_or, one, Bool.or_false]
  exact reportable

section

variable {flags : Nat} (plain : FlagsOnly flags)
include plain

theorem leafEntry_above (phys : Nat) (size : PageSize) :
    leafEntry phys (flags ||| 1) size / 2 ^ 48 % 16 = phys / 2 ^ 48 % 16 := by
  apply Nat.eq_of_testBit_eq
  intro bit
  rw [show (16 : Nat) = 2 ^ 4 by decide, Nat.testBit_mod_two_pow, Nat.testBit_mod_two_pow,
    Nat.testBit_div_two_pow, Nat.testBit_div_two_pow]
  by_cases inside : bit < 4
  · have low : pageShift size.level ≤ bit + 48 := by
      cases size <;> simp only [pageShift, PageSize.level] <;> omega
    rw [leafEntry_testBit plain phys size low (by omega)]
  · simp [inside]

/-- Of the flags, only the PAT bit comes among the low bits of a page. -/
theorem flags_low {width : Nat} (positive : 0 < width) (few : width ≤ 39) :
    (flags ||| 1) / 2 ^ 12 % 2 ^ width = 0 ↔ flags.testBit 12 = false := by
  have one : Nat.testBit 1 12 = false := by decide
  have other : ∀ bit, 0 < bit → bit < width → (flags ||| 1).testBit (bit + 12) = false := by
    intro bit above inside
    rw [Nat.testBit_or, plain.testBit (by omega) (by omega), Bool.false_or]
    exact testBit_small 1 (by decide) (by omega)
  constructor
  · intro zero
    have bits := Nat.testBit_mod_two_pow ((flags ||| 1) / 2 ^ 12) width 0
    rw [zero, Nat.zero_testBit, Nat.testBit_div_two_pow, Nat.testBit_or] at bits
    simpa [positive, one] using bits.symm
  · intro clear
    apply Nat.eq_of_testBit_eq
    intro bit
    rw [Nat.testBit_mod_two_pow, Nat.testBit_div_two_pow, Nat.zero_testBit]
    by_cases inside : bit < width
    · by_cases lowest : bit = 0
      · subst lowest
        rw [Nat.testBit_or, Nat.zero_add, clear, one, Bool.or_false, Bool.and_false]
      · rw [other bit (by omega) inside, Bool.and_false]
    · simp [inside]

/-- The entry for a large page has the low bits of the address and the PAT bit. -/
theorem leafEntry_low (phys : Nat) {size : PageSize} (large : size ≠ .size4KiB) {width : Nat}
    (positive : 0 < width) (few : width ≤ 39) :
    leafEntry phys (flags ||| 1) size / 2 ^ 12 % 2 ^ width = 0 ↔
      phys / 2 ^ 12 % 2 ^ width = 0 ∧ flags.testBit 12 = false := by
  have mark : ptFlagLarge / 2 ^ 12 = 0 := by decide
  have entry : leafEntry phys (flags ||| 1) size = phys ||| (flags ||| 1) ||| ptFlagLarge := by
    cases size with
    | size4KiB => exact absurd rfl large
    | size2MiB => rfl
    | size1GiB => rfl
  rw [entry, Nat.or_div_two_pow, Nat.or_div_two_pow, mark, Nat.or_zero, Nat.or_mod_two_pow,
    Nat.or_eq_zero_iff, flags_low plain positive few]

theorem entryAgrees_leafEntry (phys : Nat) (size : PageSize) :
    EntryAgrees (size.level, leafEntry phys (flags ||| 1) size) ↔
      Reportable phys flags size := by
  have levels := level_bounds .four size
  rw [entryAgrees_iff levels.1 levels.2.1, leafEntry_above plain, Reportable]
  cases size with
  | size4KiB => simp [PageSize.level, PageSize.bytes, Nat.mod_one]
  | size2MiB =>
      have low := leafEntry_low plain phys (show PageSize.size2MiB ≠ .size4KiB by simp)
        (show 0 < 9 by decide) (by decide)
      simp only [PageSize.level, PageSize.bytes] at low ⊢
      rw [low, and_right_comm, and_assoc]
      simp
  | size1GiB =>
      have low := leafEntry_low plain phys (show PageSize.size1GiB ≠ .size4KiB by simp)
        (show 0 < 18 by decide) (by decide)
      simp only [PageSize.level, PageSize.bytes] at low ⊢
      rw [low, and_right_comm, and_assoc]
      simp

end

/-! ## Any call of `map_page` -/

/-- Going down adds tables, whether or not a large page is in the way. -/
theorem descend_grown {mmu after : Mmu} {pagemap : Pagemap} {place : List Nat} {table : Nat}
    {result : Option Nat} (virt target steps : Nat) (wellFormed : mmu.WellFormed pagemap)
    (found : mmu.follow pagemap place = some table)
    (depth : place.length + (target + steps) = pagemap.levels.count) (low : 1 ≤ target)
    (run : descend virt target steps table mmu = some (result, after)) :
    mmu.Grown after pagemap steps ∧ ∀ next, result = some next →
      after.follow pagemap (place ++ pagePath virt (target + 1) steps) = some next := by
  induction steps generalizing place table mmu with
  | zero =>
      cases run
      refine ⟨⟨wellFormed, fun _ _ => rfl, Nat.le_refl _⟩, ?_⟩
      intro next same
      cases same
      rw [pagePath, List.append_nil]
      exact found
  | succ steps induction =>
      have level : target + 1 + steps = target + steps + 1 := by omega
      rw [pagePath, level]
      rcases getNextLevel_cases found (pageIndex (target + steps + 1) virt) with
        ⟨next, step, reached⟩ | ⟨step, large⟩ | ⟨step, supply⟩ | ⟨page, rest, step, supply, absent⟩
      · simp only [descend, step] at run
        rcases induction wellFormed reached (by simp; omega) run with ⟨growth, onwards⟩
        refine ⟨⟨growth.wellFormed, growth.leaf, Nat.le_succ_of_le growth.supply⟩, ?_⟩
        rw [← List.singleton_append, ← List.append_assoc]
        exact onwards
      · simp only [descend, step] at run
        split at run
        · cases run
        · cases run
          refine ⟨⟨wellFormed, fun _ _ => rfl, by omega⟩, ?_⟩
          intro next same
          cases same
      · simp only [descend, step] at run
        cases run
      · have short : place.length + 1 < pagemap.levels.count := by omega
        have reached := @linked_follow mmu pagemap place table
          (pageIndex (target + steps + 1) virt) page rest wellFormed short found supply
        simp only [descend, step] at run
        rcases induction (wellFormed.linked short found supply) reached (by simp; omega) run with
          ⟨growth, onwards⟩
        have supplied := growth.supply
        have fewer : mmu.supply.length = rest.length + 1 := by rw [supply, List.length_cons]
        refine ⟨⟨growth.wellFormed, ?_, ?_⟩, ?_⟩
        · intro path full
          rw [growth.leaf path full, linked_leaf wellFormed short found supply absent full]
        · simp only [linked] at supplied
          omega
        · rw [← List.singleton_append, ← List.append_assoc]
          exact onwards

/-- `map_page` maps its page, or leaves the large page that is in the way. -/
theorem setPage_outcome {mmu after : Mmu} {pagemap : Pagemap} {virt phys flags : Nat}
    {size : PageSize} (wellFormed : mmu.WellFormed pagemap)
    (run : setPage pagemap virt phys flags size mmu = some after) :
    mmu.Grown after pagemap (pagemap.levels.count - size.level) ∨
      mmu.Mapped after pagemap virt size.level (leafEntry phys (flags ||| 1) size)
        (pagemap.levels.count - size.level) := by
  have levels := level_bounds pagemap.levels size
  rw [setPage] at run
  split at run
  · cases run
  · next grown blocked =>
      cases run
      exact .inl (@descend_grown mmu _ pagemap [] _ _ virt size.level
        (pagemap.levels.count - size.level) wellFormed rfl (by simp; omega) levels.1 blocked).1
  · next table grown reached =>
      cases run
      rcases @descend_grown mmu _ pagemap [] _ _ virt size.level
        (pagemap.levels.count - size.level) wellFormed rfl (by simp; omega) levels.1 reached with
        ⟨growth, found⟩
      exact .inr (growth.mapped (found table rfl) phys flags)

/-! ## Agreement -/

/-- For every address, `vmm_query` finds a page if the hardware does, and reports the same
physical address. -/
def QueryAgrees (pagemap : Pagemap) (mmu : Mmu) : Prop :=
  ∀ virt, Canonical pagemap virt →
    (mmu.vmmQuery pagemap virt).toOption.map Prod.fst = mmu.translate pagemap virt

section

variable {mmu middle after : Mmu} {pagemap : Pagemap}

/-- The entries of pages are on the lowest three levels. -/
theorem leaf_level {path : List Nat} {page : Nat × Nat}
    (found : mmu.leaf pagemap path = some page) : 1 ≤ page.1 ∧ page.1 ≤ 3 := by
  rw [leaf, Option.filter_eq_some_iff] at found
  have isPage := found.2
  simp only [isLeaf, Bool.and_eq_true, Bool.or_eq_true, beq_iff_eq, decide_eq_true_eq] at isPage
  exact ⟨Radix.stop_positive found.1, by omega⟩

/-- The agreement comes down to the entries of the pages. -/
theorem queryAgrees_iff (wellFormed : mmu.WellFormed pagemap) :
    QueryAgrees pagemap mmu ↔ ∀ virt, Canonical pagemap virt → ∀ page,
      mmu.leaf pagemap (pagePath virt 1 pagemap.levels.count) = some page →
        EntryAgrees page := by
  apply forall_congr'
  intro virt
  apply imp_congr_right
  intro canonical
  rw [vmmQuery_toOption, wellFormed.translate_eq canonical]
  cases found : mmu.leaf pagemap (pagePath virt 1 pagemap.levels.count) with
  | none => simp
  | some page =>
      have levels := leaf_level found
      simp only [Option.map_some, Option.some.injEq, forall_eq']
      exact pageAt_eq_iff virt levels.1 levels.2

/-- No page is mapped in new tables. -/
theorem queryAgrees_new (empty : ∀ index, mmu.tables pagemap.topLevel index = 0)
    (wellFormed : mmu.WellFormed pagemap) : QueryAgrees pagemap mmu := by
  rw [queryAgrees_iff wellFormed]
  intro virt _ page found
  have path : pagePath virt 1 pagemap.levels.count =
      pageIndex pagemap.levels.count virt :: pagePath virt 1 (pagemap.levels.count - 1) := by
    rw [count_succ, pagePath, Nat.add_comm]
    rfl
  have ends := @Radix.stop_here _ _ _ nextTable mmu.tables pagemap.topLevel
    (pageIndex pagemap.levels.count virt) (pagePath virt 1 (pagemap.levels.count - 1))
  rw [empty] at ends
  rw [path, leaf_of_not_present (ends (.inr rfl)) rfl] at found
  cases found

variable (wellFormed : mmu.WellFormed pagemap) (agrees : QueryAgrees pagemap mmu)
include wellFormed agrees

theorem Grown.queryAgrees {count : Nat} (growth : mmu.Grown after pagemap count) :
    QueryAgrees pagemap after := by
  rw [queryAgrees_iff growth.wellFormed]
  rw [queryAgrees_iff wellFormed] at agrees
  intro virt canonical page found
  rw [growth.leaf _ (pagePath_length _ _ _)] at found
  exact agrees virt canonical page found

/-- One more page keeps the agreement exactly if its entry agrees. -/
theorem Mapped.queryAgrees_iff {virt level entry count : Nat} (size : PageSize)
    (same : level = size.level) (mapped : mmu.Mapped after pagemap virt level entry count) :
    QueryAgrees pagemap after ↔ EntryAgrees (level, entry) := by
  rw [Mmu.queryAgrees_iff mapped.wellFormed]
  rw [Mmu.queryAgrees_iff wellFormed] at agrees
  constructor
  · intro every
    rcases exists_canonical pagemap virt with ⟨other, canonical, number⟩
    apply every other canonical
    rw [(pagePath_eq_iff_pageNumber pagemap other virt).mpr number]
    apply mapped.inside _ (pagePath_length _ _ _)
    rw [same]
    exact pagePrefix_self pagemap virt size
  · intro new other canonical page found
    have full := pagePath_length other 1 pagemap.levels.count
    by_cases within : pagePrefix pagemap virt level <+: pagePath other 1 pagemap.levels.count
    · rw [mapped.inside _ full within] at found
      cases found
      exact new
    · rw [mapped.outside _ full within] at found
      exact agrees other canonical page found

theorem setPage_queryAgrees {virt phys flags : Nat} {size : PageSize} (plain : FlagsOnly flags)
    (reportable : Reportable phys flags size)
    (run : setPage pagemap virt phys flags size mmu = some after) :
    after.WellFormed pagemap ∧ QueryAgrees pagemap after := by
  rcases setPage_outcome wellFormed run with growth | mapped
  · exact ⟨growth.wellFormed, growth.queryAgrees wellFormed agrees⟩
  · have new := (entryAgrees_leafEntry plain phys size).mpr reportable
    exact ⟨mapped.wellFormed, (mapped.queryAgrees_iff wellFormed agrees size rfl).mpr new⟩

end

/-! ## Runs -/

/-- One call of `map_page`, with flags for its users. -/
structure MapCall where
  virt : Nat
  phys : Nat
  write : Bool
  noexec : Bool
  fb : Bool
  size : PageSize

namespace MapCall

def flags (call : MapCall) : Nat := vmmFlags call.write call.noexec call.fb

def run (cpuHas1gibPages : Bool) (pagemap : Pagemap) (mmu : Mmu) (call : MapCall) : Option Mmu :=
  mmu.mapPage cpuHas1gibPages pagemap call.virt call.phys call.flags call.size

/-- The entries that the call writes are reported as the hardware reads them. -/
def Reports (cpuHas1gibPages : Bool) (call : MapCall) : Prop :=
  if call.size = .size1GiB ∧ cpuHas1gibPages = false then
    ∀ piece < 512, Reportable (u64 (call.phys + piece * 0x200000)) call.flags .size2MiB
  else Reportable call.phys call.flags call.size

instance (cpuHas1gibPages : Bool) (call : MapCall) : Decidable (call.Reports cpuHas1gibPages) :=
  inferInstanceAs (Decidable (ite _ _ _))

end MapCall

section

variable {mmu after : Mmu} {pagemap : Pagemap} {cpuHas1gibPages : Bool}

/-- The pieces of 1 GiB, one after the other. -/
theorem setPieces_queryAgrees {virt phys flags : Nat} (plain : FlagsOnly flags)
    (pieces : List Nat)
    (reportable : ∀ piece ∈ pieces, Reportable (u64 (phys + piece * 0x200000)) flags .size2MiB)
    (wellFormed : mmu.WellFormed pagemap) (agrees : QueryAgrees pagemap mmu)
    (run : pieces.foldlM (fun mmu piece => setPage pagemap (u64 (virt + piece * 0x200000))
      (u64 (phys + piece * 0x200000)) flags .size2MiB mmu) mmu = some after) :
    after.WellFormed pagemap ∧ QueryAgrees pagemap after := by
  induction pieces generalizing mmu with
  | nil =>
      cases run
      exact ⟨wellFormed, agrees⟩
  | cons piece pieces induction =>
      rw [List.foldlM_cons, Option.bind_eq_bind, Option.bind_eq_some_iff] at run
      rcases run with ⟨middle, step, rest⟩
      have next := setPage_queryAgrees wellFormed agrees plain
        (reportable piece List.mem_cons_self) step
      exact induction (fun other member => reportable other (List.mem_cons_of_mem _ member))
        next.1 next.2 rest

theorem MapCall.run_queryAgrees {call : MapCall} (reports : call.Reports cpuHas1gibPages)
    (wellFormed : mmu.WellFormed pagemap) (agrees : QueryAgrees pagemap mmu)
    (run : call.run cpuHas1gibPages pagemap mmu = some after) :
    after.WellFormed pagemap ∧ QueryAgrees pagemap after := by
  have plain := vmmFlags_plain call.write call.noexec call.fb
  have levels : 3 < pagemap.levels.count := by cases pagemap.levels <;> decide
  rw [MapCall.Reports] at reports
  rw [MapCall.run, mapPage] at run
  split at run
  · next pieces =>
      rw [if_pos pieces] at reports
      split at run
      · cases run
      · next grown blocked =>
          cases run
          have growth := (@descend_grown mmu _ pagemap [] _ _ call.virt 3
            (pagemap.levels.count - 3) wellFormed rfl (by simp; omega) (by decide) blocked).1
          exact ⟨growth.wellFormed, growth.queryAgrees wellFormed agrees⟩
      · next table grown reached =>
          have growth := (@descend_grown mmu _ pagemap [] _ _ call.virt 3
            (pagemap.levels.count - 3) wellFormed rfl (by simp; omega) (by decide) reached).1
          have every : ∀ piece ∈ List.range 512, Reportable (u64 (call.phys + piece * 0x200000))
              (call.flags ||| 1) .size2MiB := by
            intro piece member
            exact (reports piece (List.mem_range.mp member)).or_one
          rw [setPieces] at run
          exact setPieces_queryAgrees plain.or_one _ every growth.wellFormed
            (growth.queryAgrees wellFormed agrees) run
  · next whole =>
      rw [if_neg whole] at reports
      exact setPage_queryAgrees wellFormed agrees plain reports run

/-- In all tables that calls of `map_page` build from agreeing ones, `vmm_query` reports for
each address what the hardware finds, if no call gives a large page the PAT bit, an
address that is not a multiple of its size, or one with a bit from 48 to 51. Where a call
writes one entry, this is exactly when the tables agree afterwards. -/
theorem mapCalls_queryAgrees (wellFormed : mmu.WellFormed pagemap)
    (agrees : QueryAgrees pagemap mmu) :
    (∀ calls : List MapCall, (∀ call ∈ calls, call.Reports cpuHas1gibPages) →
      ∀ after, calls.foldlM (MapCall.run cpuHas1gibPages pagemap) mmu = some after →
        QueryAgrees pagemap after) ∧
    ∀ (call : MapCall) (after : Mmu), ¬ (call.size = .size1GiB ∧ cpuHas1gibPages = false) →
      mmu.leaf pagemap (pagePath call.virt 1 pagemap.levels.count) = none →
      call.run cpuHas1gibPages pagemap mmu = some after →
        (QueryAgrees pagemap after ↔ call.Reports cpuHas1gibPages) := by
  constructor
  · intro calls
    induction calls generalizing mmu with
    | nil =>
        intro _ after run
        cases run
        exact agrees
    | cons call calls induction =>
        intro reports after run
        rw [List.foldlM_cons, Option.bind_eq_bind, Option.bind_eq_some_iff] at run
        rcases run with ⟨middle, step, rest⟩
        have next :=
          MapCall.run_queryAgrees (reports call List.mem_cons_self) wellFormed agrees step
        exact induction next.1 next.2
          (fun other member => reports other (List.mem_cons_of_mem _ member)) after rest
  · intro call after whole clear run
    have plain := vmmFlags_plain call.write call.noexec call.fb
    rw [MapCall.run, mapPage, if_neg whole] at run
    rcases setPage_cases call.virt call.phys call.flags call.size wellFormed clear with
      short | ⟨other, done, mapped⟩
    · rw [short.1] at run
      cases run
    · rw [done] at run
      cases run
      rw [mapped.queryAgrees_iff wellFormed agrees call.size rfl, MapCall.Reports, if_neg whole]
      exact entryAgrees_leafEntry plain call.phys call.size

end

/-- A page of 4 KiB for the framebuffer, and one of 2 MiB without its flag. -/
theorem mapCalls_queryAgrees_new :
    ∃ after, [⟨0x400000, 0x201000, true, false, true, .size4KiB⟩,
        ⟨0x800000, 0x400000, true, true, false, .size2MiB⟩].foldlM
        (MapCall.run true ⟨.four, 0x1000⟩) newTables = some after ∧
      QueryAgrees ⟨.four, 0x1000⟩ after :=
  ⟨_, rfl, (@mapCalls_queryAgrees newTables ⟨.four, 0x1000⟩ true newTables_wellFormed
    (queryAgrees_new (fun _ => rfl) newTables_wellFormed)).1
    [⟨0x400000, 0x201000, true, false, true, .size4KiB⟩,
      ⟨0x800000, 0x400000, true, true, false, .size2MiB⟩] (by decide) _ rfl⟩

/-- A large page for the framebuffer. -/
def framebufferCall : MapCall := ⟨0x400000, 0x200000, true, false, true, .size2MiB⟩

/-- The framebuffer in a page of 2 MiB is reported 4 KiB behind where it is. -/
theorem query_adds_pat_bit :
    newTables.WellFormed ⟨.four, 0x1000⟩ ∧
    (∃ after, framebufferCall.run true ⟨.four, 0x1000⟩ newTables = some after ∧
      after.vmmQuery ⟨.four, 0x1000⟩ 0x400000 = .ok (0x201000, 11) ∧
      after.translate ⟨.four, 0x1000⟩ 0x400000 = some 0x200000) ∧
    ¬ ∀ (cpuHas1gibPages : Bool) (pagemap : Pagemap) (mmu : Mmu) (calls : List MapCall)
      (after : Mmu), mmu.WellFormed pagemap →
      (∀ index, mmu.tables pagemap.topLevel index = 0) →
      calls.foldlM (MapCall.run cpuHas1gibPages pagemap) mmu = some after →
      QueryAgrees pagemap after := by
  have reported : ∀ after, framebufferCall.run true ⟨.four, 0x1000⟩ newTables = some after →
      after.vmmQuery ⟨.four, 0x1000⟩ 0x400000 = .ok (0x201000, 11) ∧
      after.translate ⟨.four, 0x1000⟩ 0x400000 = some 0x200000 := by
    intro after run
    cases run
    exact ⟨rfl, rfl⟩
  refine ⟨newTables_wellFormed, ⟨_, rfl, reported _ rfl⟩, ?_⟩
  intro claim
  have agrees := claim true ⟨.four, 0x1000⟩ newTables [framebufferCall] _ newTables_wellFormed
    (fun _ => rfl) rfl 0x400000 (by decide)
  rw [(reported _ rfl).1, (reported _ rfl).2] at agrees
  cases agrees

end Mmu

end ParanOS

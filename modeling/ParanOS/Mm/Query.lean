import ParanOS.Mm.Tables

/-! # What `vmm_query` reports after `vmm_map`

Both walk the tables of the address. What `vmm_query` answers is decided by where the
walk ends, and whether it finds a page by the page mapped there. `vmm_map` leaves
`VMM_US` out of the entry, and the tables that it makes change the error code of the
pages around.
-/

namespace ParanOS

open Foundation

namespace Mmu

/-! ## The answer of a walk -/

/-- Whether `locate_entry` takes the entry at which a walk ends. -/
def isLocated (level entry : Nat) : Bool :=
  level == 1 || (decide (level ≤ 3) && ptIsLarge entry)

/-- What `vmm_query` reports about a page. -/
def pageAt (virt level entry : Nat) : Nat × Nat :=
  (u64 (pteAddr entry + (virt &&& (2 ^ pageShift level - 1))), entryToLegacyFlags entry)

def answer (virt level entry : Nat) : Except Int (Nat × Nat) :=
  if isLocated level entry then
    if entry.testBit 0 then .ok (pageAt virt level entry) else .error (-2)
  else .error (-1)

theorem isLeaf_eq (level entry : Nat) :
    isLeaf level entry = (isLocated level entry && entry.testBit 0) := by
  simp only [isLeaf, isLocated, ptIsLarge]
  cases entry.testBit 0 <;> cases entry.testBit 7 <;> simp

/-- `locate_entry` finds the entry at which the walk ends, if it takes it. -/
theorem locate_stop (tables : Store Nat Nat Nat) (virt level table : Nat) :
    ∃ final entry, Radix.stop nextTable tables table (pagePath virt 1 (level + 1)) =
        some (final, entry) ∧
      match locate tables virt (level + 1) table with
      | some location => location.level = final ∧
          tables location.table location.index = entry ∧ isLocated final entry = true
      | none => isLocated final entry = false := by
  induction level generalizing table with
  | zero => exact ⟨1, _, rfl, rfl, rfl, rfl⟩
  | succ level induction =>
      have index : 1 + (level + 1) = level + 2 := by omega
      cases isTable : ptIsTable (tables table (pageIndex (level + 2) virt)) with
      | true =>
          have noLarge := ptIsLarge_of_table isTable
          have reached : Radix.follow nextTable tables table [pageIndex (level + 2) virt] =
              some (pteAddr (tables table (pageIndex (level + 2) virt))) := by
            rw [Radix.follow_single, nextTable_of_table isTable]
          have ends := Radix.stop_append reached
            (show pagePath virt 1 (level + 1) ≠ [] by simp [pagePath])
          rcases induction (pteAddr (tables table (pageIndex (level + 2) virt))) with
            ⟨final, entry, stopped, located⟩
          refine ⟨final, entry, ?_, ?_⟩
          · rw [pagePath, index, ← stopped, ← ends]
            rfl
          · simp only [locate, isTable, noLarge]
            simpa using located
      | false =>
          have ends := @Radix.stop_here _ _ _ nextTable tables table
            (pageIndex (level + 2) virt) (pagePath virt 1 (level + 1))
            (.inr (nextTable_of_not_table isTable))
          refine ⟨level + 2, tables table (pageIndex (level + 2) virt), ?_, ?_⟩
          · rw [pagePath, index, ends, pagePath_length]
          · simp only [locate, isTable]
            by_cases taken : level + 2 ≤ 3 ∧ ptIsLarge (tables table (pageIndex (level + 2) virt))
            · rw [if_pos taken]
              exact ⟨rfl, rfl, by simp [isLocated, taken.1, taken.2]⟩
            · rw [if_neg taken]
              show isLocated _ _ = false
              by_cases low : level + 2 ≤ 3
              · have plain : ptIsLarge (tables table (pageIndex (level + 2) virt)) = false := by
                  simpa [low] using taken
                simp [isLocated, plain]
              · simp [isLocated, show ¬ level ≤ 1 by omega]

section

variable (mmu : Mmu) (pagemap : Pagemap) (virt : Nat)

theorem count_succ : pagemap.levels.count = pagemap.levels.count - 1 + 1 := by
  cases pagemap.levels <;> rfl

/-- The walk of an address ends somewhere, and that decides the answer. -/
theorem vmmQuery_stop : ∃ level entry,
    mmu.stop pagemap (pagePath virt 1 pagemap.levels.count) = some (level, entry) ∧
      mmu.vmmQuery pagemap virt = answer virt level entry ∧
      (mmu.locateEntry pagemap virt).isSome = isLocated level entry := by
  rcases locate_stop mmu.tables virt (pagemap.levels.count - 1) pagemap.topLevel with
    ⟨final, entry, stopped, located⟩
  rw [← count_succ] at stopped located
  refine ⟨final, entry, stopped, ?_⟩
  rw [vmmQuery, locateEntry]
  cases found : locate mmu.tables virt pagemap.levels.count pagemap.topLevel with
  | none =>
      rw [found] at located
      simp only [answer, located]
      simp
  | some location =>
      rw [found] at located
      rcases located with ⟨rfl, rfl, taken⟩
      simp only [answer, taken, entryAt, pageAt]
      simp

/-- Whether `vmm_query` succeeds, and with what, is decided by the page mapped there. -/
theorem vmmQuery_toOption : (mmu.vmmQuery pagemap virt).toOption =
    (mmu.leaf pagemap (pagePath virt 1 pagemap.levels.count)).map
      fun page => pageAt virt page.1 page.2 := by
  rcases vmmQuery_stop mmu pagemap virt with ⟨level, entry, stopped, query, _⟩
  rw [query, leaf_of_stop stopped, isLeaf_eq, answer]
  cases isLocated level entry <;> cases entry.testBit 0 <;> rfl

theorem isMapped_eq : mmu.isMapped pagemap virt =
    (mmu.leaf pagemap (pagePath virt 1 pagemap.levels.count)).isSome := by
  rcases locate_stop mmu.tables virt (pagemap.levels.count - 1) pagemap.topLevel with
    ⟨final, entry, stopped, located⟩
  rw [← count_succ] at stopped located
  rw [leaf_of_stop stopped, isLeaf_eq, isMapped, locateEntry]
  cases found : locate mmu.tables virt pagemap.levels.count pagemap.topLevel with
  | none =>
      rw [found] at located
      simp [located]
  | some location =>
      rw [found] at located
      rcases located with ⟨rfl, rfl, taken⟩
      simp only [entryAt, taken, Bool.true_and]
      cases (mmu.tables location.table location.index).testBit 0 <;> rfl

end

/-! ## The entry that `vmm_map` writes -/

theorem mapFlags_small {flags : Nat} (legacy : flags < 32) : mapFlags flags ||| 1 < 32 := by
  have small : ∀ flags : Fin 32, mapFlags flags.val ||| 1 < 32 := by decide
  exact small ⟨flags, legacy⟩

/-- `VMM_US` is the one flag that does not come back. -/
theorem legacyFlags_mapFlags {flags : Nat} (legacy : flags < 32) :
    entryToLegacyFlags (mapFlags flags ||| 1) = flags ||| 1 ↔ flags.testBit 2 = false := by
  have same : ∀ flags : Fin 32, entryToLegacyFlags (mapFlags flags.val ||| 1) = flags.val ||| 1 ↔
      flags.val.testBit 2 = false := by
    decide
  exact same ⟨flags, legacy⟩

section

variable {phys flags : Nat} (aligned : phys % 4096 = 0) (small : flags < 32)

include aligned

theorem testBit_of_aligned {bit : Nat} (low : bit < 12) : phys.testBit bit = false := by
  have bits := Nat.testBit_mod_two_pow phys 12 bit
  rw [show 2 ^ 12 = 4096 by decide, aligned] at bits
  simpa [low] using bits.symm

include small

theorem pteAddr_entry (bound : phys < 2 ^ 48) : pteAddr (phys ||| flags) = phys := by
  apply Nat.eq_of_testBit_eq
  intro bit
  rw [testBit_pteAddr, Nat.testBit_or]
  by_cases low : bit < 12
  · rw [testBit_of_aligned aligned low]
    simp [show ¬ 12 ≤ bit by omega]
  · have noFlag : flags.testBit bit = false :=
      Nat.testBit_lt_two_pow (Nat.lt_of_lt_of_le small
        (Nat.pow_le_pow_right (show 0 < 2 by decide) (show 5 ≤ bit by omega)))
    by_cases high : bit < 48
    · simp [noFlag, high, show 12 ≤ bit by omega]
    · have noBit : phys.testBit bit = false :=
        Nat.testBit_lt_two_pow (Nat.lt_of_lt_of_le bound
          (Nat.pow_le_pow_right (show 0 < 2 by decide) (show 48 ≤ bit by omega)))
      simp [noFlag, noBit]

omit small in
theorem legacyFlags_entry : entryToLegacyFlags (phys ||| flags) = entryToLegacyFlags flags := by
  simp only [entryToLegacyFlags, legacyFlag, Nat.testBit_or,
    testBit_of_aligned aligned (show 0 < 12 by decide),
    testBit_of_aligned aligned (show 1 < 12 by decide),
    testBit_of_aligned aligned (show 2 < 12 by decide),
    testBit_of_aligned aligned (show 3 < 12 by decide),
    testBit_of_aligned aligned (show 4 < 12 by decide), Bool.false_or]

omit aligned in
theorem leafEntry_small : leafEntry phys flags .size4KiB = phys ||| flags := by
  have noBit : flags.testBit 12 = false :=
    Nat.testBit_lt_two_pow (Nat.lt_of_lt_of_le small (by decide))
  simp [leafEntry, noBit]

end

/-! ## The pages around -/

/-- The page of an address: the tables leave out what is above 48 or 57 bits. -/
def pageNumber (pagemap : Pagemap) (virt : Nat) : Nat :=
  virt / 0x1000 % 512 ^ pagemap.levels.count

theorem pagePath_eq_iff_pageNumber (pagemap : Pagemap) (left right : Nat) :
    pagePath left 1 pagemap.levels.count = pagePath right 1 pagemap.levels.count ↔
      pageNumber pagemap left = pageNumber pagemap right :=
  pagePath_eq_iff (Nat.le_refl 1) pagemap.levels.count

theorem pagePath_snoc (pagemap : Pagemap) (virt : Nat) :
    pagePath virt 1 pagemap.levels.count =
      pagePath virt 2 (pagemap.levels.count - 1) ++ [pageIndex 1 virt] := by
  rw [← pagePrefix_eq, pagePrefix, ← count_succ]

/-- The other page of the two that differ in one bit. -/
def sibling (virt : Nat) : Nat :=
  if virt % 0x2000 = 0 then virt + 0x1000 else virt - 0x1000

section

variable (pagemap : Pagemap) {virt : Nat} (aligned : virt % 4096 = 0)

include aligned

theorem pageNumber_sibling : pageNumber pagemap (sibling virt) ≠ pageNumber pagemap virt := by
  have parity : ∀ address, pageNumber pagemap address % 2 = address / 0x1000 % 2 := by
    intro address
    rw [pageNumber]
    cases pagemap.levels <;> simp only [PagingLevels.count] <;> omega
  intro same
  have bits := congrArg (· % 2) same
  simp only [parity, sibling] at bits
  split at bits <;> omega

/-- Both pages are in one lowest table. -/
theorem pagePath_sibling (count : Nat) :
    pagePath (sibling virt) 2 count = pagePath virt 2 count := by
  rw [pagePath_eq_iff (show 1 ≤ 2 by decide)]
  congr 1
  simp only [sibling, pageShift]
  split <;> omega

end

/-! ## The walk to an existing table -/

/-- Where the tables exist, going down changes nothing. -/
theorem descend_found {mmu : Mmu} {pagemap : Pagemap} (virt target steps : Nat)
    {place : List Nat} {table next : Nat} (found : mmu.follow pagemap place = some table)
    (reached : mmu.follow pagemap (place ++ pagePath virt (target + 1) steps) = some next) :
    descend virt target steps table mmu = some (some next, mmu) := by
  induction steps generalizing place table with
  | zero =>
      rw [pagePath, List.append_nil, found] at reached
      cases reached
      rfl
  | succ steps induction =>
      have level : target + 1 + steps = target + steps + 1 := by omega
      rw [pagePath, level, follow, Radix.follow_append found] at reached
      cases isTable : ptIsTable (mmu.tables table (pageIndex (target + steps + 1) virt)) with
      | false =>
          simp only [Radix.follow, nextTable_of_not_table isTable] at reached
          cases reached
      | true =>
          have onwards : mmu.follow pagemap (place ++ [pageIndex (target + steps + 1) virt]) =
              some (pteAddr (mmu.tables table (pageIndex (target + steps + 1) virt))) := by
            rw [follow, Radix.follow_append found, Radix.follow_single, nextTable_of_table isTable]
          simp only [descend, getNextLevel, isTable]
          apply induction onwards
          simp only [Radix.follow, nextTable_of_table isTable] at reached
          rw [follow, Radix.follow_append onwards]
          exact reached

/-! ## Agreement -/

/-- What is expected of `vmm_map`: after a success `vmm_query` reports the page with its
flags, and what it tells of the other pages is as before; after a failure the tables
are as before. -/
def MapAgrees {α : Type} (tells : Except Int (Nat × Nat) → α) (cpuHas1gibPages : Bool)
    (pagemap : Pagemap) (virt phys flags : Nat) (mmu : Mmu) : Prop :=
  ∀ code after, mmu.vmmMap cpuHas1gibPages pagemap virt phys flags = some (code, after) →
    (code = 0 → after.vmmQuery pagemap virt = .ok (phys, flags ||| 1) ∧
      ∀ other, pageNumber pagemap other ≠ pageNumber pagemap virt →
        tells (after.vmmQuery pagemap other) = tells (mmu.vmmQuery pagemap other)) ∧
    (code ≠ 0 → after.tables = mmu.tables)

section

variable {mmu : Mmu} {pagemap : Pagemap} {virt phys flags : Nat} (cpuHas1gibPages : Bool)
  (wellFormed : mmu.WellFormed pagemap)
  (room : pagemap.levels.count - 1 ≤ mmu.supply.length)
  (virtAligned : virt % 4096 = 0) (physAligned : phys % 4096 = 0) (bound : phys < 2 ^ 48)
  (legacy : flags < 32)

theorem vmmMap_eq (virtAligned : virt % 4096 = 0) (physAligned : phys % 4096 = 0) :
    mmu.vmmMap cpuHas1gibPages pagemap virt phys flags =
      if mmu.isMapped pagemap virt then some (-3, mmu)
      else (setPage pagemap virt phys (mapFlags flags) .size4KiB mmu).map
        fun mmu => (0, mmu) := by
  have mask : ∀ value, value % 4096 = 0 → value &&& 0xFFF = 0 := by
    intro value aligned
    rw [← aligned]
    exact Nat.and_two_pow_sub_one_eq_mod value 12
  simp only [vmmMap, mask virt virtAligned, mask phys physAligned, mapPage]
  simp

include virtAligned physAligned in
theorem mapAgrees_of_mapped {α : Type} (tells : Except Int (Nat × Nat) → α)
    (mapped : mmu.isMapped pagemap virt = true) :
    MapAgrees tells cpuHas1gibPages pagemap virt phys flags mmu := by
  intro code after run
  rw [vmmMap_eq cpuHas1gibPages virtAligned physAligned, mapped] at run
  cases run
  exact ⟨fun zero => absurd zero (by decide), fun _ => rfl⟩

include wellFormed room legacy in
/-- Where nothing is mapped and there are pages for the tables, the page gets its entry. -/
theorem setPage_small (free : mmu.isMapped pagemap virt = false) :
    ∃ after, setPage pagemap virt phys (mapFlags flags) .size4KiB mmu = some after ∧
      mmu.Mapped after pagemap virt 1 (phys ||| (mapFlags flags ||| 1))
        (pagemap.levels.count - 1) := by
  rw [isMapped_eq, Option.isSome_eq_false_iff, Option.isNone_iff_eq_none] at free
  rcases setPage_cases virt phys (mapFlags flags) .size4KiB wellFormed free with short | done
  · have few := short.2
    simp only [PageSize.level] at few
    omega
  · rw [leafEntry_small (mapFlags_small legacy)] at done
    exact done

include physAligned bound legacy virtAligned in
theorem Mapped.vmmQuery {after : Mmu} {count : Nat}
    (mapped : mmu.Mapped after pagemap virt 1 (phys ||| (mapFlags flags ||| 1)) count) :
    after.vmmQuery pagemap virt = .ok (phys, entryToLegacyFlags (mapFlags flags ||| 1)) := by
  have small := mapFlags_small legacy
  have inside := mapped.inside _ (pagePath_length _ _ _)
    (pagePrefix_self pagemap virt .size4KiB)
  have found := vmmQuery_toOption after pagemap virt
  have offset : virt &&& (2 ^ pageShift 1 - 1) = 0 := by
    rw [← virtAligned]
    exact Nat.and_two_pow_sub_one_eq_mod virt 12
  have noWrap : u64 phys = phys := Nat.mod_eq_of_lt (by omega)
  rw [inside, Option.map_some, pageAt, pteAddr_entry physAligned small bound,
    legacyFlags_entry physAligned, offset, Nat.add_zero, noWrap] at found
  cases query : after.vmmQuery pagemap virt with
  | error code =>
      rw [query] at found
      cases found
  | ok page =>
      rw [query] at found
      exact congrArg Except.ok (Option.some.inj found)

/-- The other pages are mapped as before. -/
theorem Mapped.other {after : Mmu} {entry count other : Nat}
    (mapped : mmu.Mapped after pagemap virt 1 entry count)
    (different : pageNumber pagemap other ≠ pageNumber pagemap virt) :
    (after.vmmQuery pagemap other).toOption = (mmu.vmmQuery pagemap other).toOption := by
  have full := pagePath_length other 1 pagemap.levels.count
  have outside : ¬ pagePrefix pagemap virt 1 <+: pagePath other 1 pagemap.levels.count := by
    intro within
    rw [pagePrefix, ← count_succ] at within
    have same := within.eq_of_length (by rw [pagePath_length, full])
    exact different ((pagePath_eq_iff_pageNumber pagemap virt other).mp same).symm
  rw [vmmQuery_toOption, vmmQuery_toOption, mapped.outside _ full outside]

include wellFormed in
/-- Where the lowest table exists, the walks of the other pages end where they did. -/
theorem vmmQuery_of_located (free : mmu.isMapped pagemap virt = false)
    (located : mmu.locateEntry pagemap virt ≠ none) {after : Mmu}
    (run : setPage pagemap virt phys flags .size4KiB mmu = some after) {other : Nat}
    (different : pageNumber pagemap other ≠ pageNumber pagemap virt) :
    after.vmmQuery pagemap other = mmu.vmmQuery pagemap other := by
  rcases vmmQuery_stop mmu pagemap virt with ⟨level, entry, stopped, _, taken⟩
  rw [Option.isSome_iff_ne_none.mpr located] at taken
  rw [isMapped_eq, leaf_of_stop stopped, isLeaf_eq, ← taken, Bool.true_and] at free
  have absent : entry.testBit 0 = false := by
    cases present : entry.testBit 0 with
    | false => rfl
    | true => simp [present] at free
  have lowest : level = 1 := by
    simpa [isLocated, ptIsLarge, absent] using taken
  cases reached : mmu.follow pagemap (pagePath virt 2 (pagemap.levels.count - 1)) with
  | none =>
      rcases Radix.stop_of_lost reached with ⟨final, _, above, ends⟩
      rw [pagePath_snoc, stop, ends] at stopped
      cases stopped
      exact absurd lowest above
  | some table =>
      have found : descend virt 1 (pagemap.levels.count - 1) pagemap.topLevel mmu =
          some (some table, mmu) :=
        @descend_found mmu pagemap virt 1 _ [] _ _ rfl reached
      simp only [setPage, PageSize.level, found] at run
      cases run
      have depth : (pagePath virt 2 (pagemap.levels.count - 1)).length + 1 =
          pagemap.levels.count := by
        rw [pagePath_length, ← count_succ]
      have full := pagePath_length other 1 pagemap.levels.count
      have outside : ¬ pagePath virt 2 (pagemap.levels.count - 1) ++ [pageIndex 1 virt] <+:
          pagePath other 1 pagemap.levels.count := by
        intro within
        rw [← pagePath_snoc] at within
        have same := within.eq_of_length (by rw [pagePath_length, full])
        exact different ((pagePath_eq_iff_pageNumber pagemap virt other).mp same).symm
      rcases vmmQuery_stop mmu pagemap other with ⟨before, old, oldStopped, oldQuery, _⟩
      rcases vmmQuery_stop (mmu.setEntry table (pageIndex 1 virt)
        (leafEntry phys (flags ||| 1) .size4KiB)) pagemap other with
        ⟨later, new, newStopped, newQuery, _⟩
      rw [setEntry_stop_other wellFormed depth reached (Nat.le_refl 1) full outside,
        oldStopped] at newStopped
      cases newStopped
      rw [newQuery, oldQuery]

include virtAligned in
/-- Where the lowest table was missing, the error code of the next page has changed. -/
theorem vmmQuery_sibling (missing : mmu.locateEntry pagemap virt = none) {after : Mmu}
    {entry count : Nat} (mapped : mmu.Mapped after pagemap virt 1 entry count) :
    after.vmmQuery pagemap (sibling virt) ≠ mmu.vmmQuery pagemap (sibling virt) := by
  have path : pagePath (sibling virt) 1 pagemap.levels.count =
      pagePath virt 2 (pagemap.levels.count - 1) ++ [pageIndex 1 (sibling virt)] := by
    rw [pagePath_snoc, pagePath_sibling virtAligned]
  have before : mmu.vmmQuery pagemap (sibling virt) = .error (-1) := by
    rcases vmmQuery_stop mmu pagemap virt with ⟨level, entry, stopped, _, taken⟩
    rcases vmmQuery_stop mmu pagemap (sibling virt) with ⟨final, last, ends, query, _⟩
    rw [missing] at taken
    cases reached : mmu.follow pagemap (pagePath virt 2 (pagemap.levels.count - 1)) with
    | some table =>
        rw [pagePath_snoc, stop, Radix.stop_of_ends reached (.inl rfl)] at stopped
        cases stopped
        cases taken
    | none =>
        rcases Radix.stop_of_lost reached with ⟨_, _, _, same⟩
        rw [path, stop, same] at ends
        rw [pagePath_snoc, stop, same] at stopped
        cases ends
        cases stopped
        rw [query, answer, ← taken]
        rfl
  have later : after.vmmQuery pagemap (sibling virt) ≠ .error (-1) := by
    have inside := mapped.inside _ (pagePath_length _ _ _)
      (pagePrefix_self pagemap virt .size4KiB)
    rcases vmmQuery_stop after pagemap (sibling virt) with ⟨final, last, ends, query, _⟩
    cases reached : after.follow pagemap (pagePath virt 2 (pagemap.levels.count - 1)) with
    | some table =>
        rw [path, stop, Radix.stop_of_ends reached (.inl rfl)] at ends
        cases ends
        rw [query, answer]
        split
        · split
          · simp
          · simp
        · rename_i lost
          exact absurd rfl lost
    | none =>
        rcases Radix.stop_of_lost reached with ⟨level, entry, above, same⟩
        rw [pagePath_snoc, leaf_of_stop (same _)] at inside
        split at inside
        · cases inside
          exact absurd rfl above
        · cases inside
  intro unchanged
  exact later (unchanged.trans before)

include virtAligned physAligned bound legacy in
/-- After a success the agreement comes down to `VMM_US` and the other pages. -/
theorem mapAgrees_iff_kept {α : Type} (tells : Except Int (Nat × Nat) → α)
    (free : mmu.isMapped pagemap virt = false) {after : Mmu} {count : Nat}
    (run : setPage pagemap virt phys (mapFlags flags) .size4KiB mmu = some after)
    (mapped : mmu.Mapped after pagemap virt 1 (phys ||| (mapFlags flags ||| 1)) count) :
    MapAgrees tells cpuHas1gibPages pagemap virt phys flags mmu ↔
      flags.testBit 2 = false ∧
        ∀ other, pageNumber pagemap other ≠ pageNumber pagemap virt →
          tells (after.vmmQuery pagemap other) = tells (mmu.vmmQuery pagemap other) := by
  have ran : mmu.vmmMap cpuHas1gibPages pagemap virt phys flags = some (0, after) := by
    rw [vmmMap_eq cpuHas1gibPages virtAligned physAligned, free, run]
    rfl
  have query := mapped.vmmQuery virtAligned physAligned bound legacy
  have flagsKept := legacyFlags_mapFlags legacy
  constructor
  · intro agrees
    rcases (agrees 0 after ran).1 rfl with ⟨reported, kept⟩
    rw [query] at reported
    exact ⟨flagsKept.mp (congrArg Prod.snd (Except.ok.inj reported)), kept⟩
  · intro both code result ended
    rw [ran] at ended
    cases ended
    refine ⟨fun _ => ⟨?_, both.2⟩, fun failed => absurd rfl failed⟩
    rw [query, flagsKept.mpr both.1]

include wellFormed room virtAligned physAligned bound legacy in
/-- `vmm_query` agrees with `vmm_map` where `vmm_map` refuses, and else exactly for flags
without `VMM_US`. Its error codes are kept only where the lowest table exists. -/
theorem mapAgrees_iff :
    (MapAgrees Except.toOption cpuHas1gibPages pagemap virt phys flags mmu ↔
      mmu.isMapped pagemap virt = true ∨ flags.testBit 2 = false) ∧
    (MapAgrees id cpuHas1gibPages pagemap virt phys flags mmu ↔
      mmu.isMapped pagemap virt = true ∨
        flags.testBit 2 = false ∧ mmu.locateEntry pagemap virt ≠ none) := by
  cases free : mmu.isMapped pagemap virt with
  | true =>
      have agrees := @mapAgrees_of_mapped mmu pagemap virt phys flags cpuHas1gibPages virtAligned
        physAligned
      exact ⟨iff_of_true (agrees _ free) (.inl rfl), iff_of_true (agrees _ free) (.inl rfl)⟩
  | false =>
      rcases @setPage_small mmu pagemap virt phys flags wellFormed room legacy free with
        ⟨after, run, mapped⟩
      rw [mapAgrees_iff_kept cpuHas1gibPages virtAligned physAligned bound legacy _ free run mapped,
        mapAgrees_iff_kept cpuHas1gibPages virtAligned physAligned bound legacy _ free run mapped]
      simp only [Bool.false_eq_true, false_or]
      constructor
      · exact and_iff_left fun other different => mapped.other different
      · apply and_congr_right
        intro _
        constructor
        · intro kept missing
          exact vmmQuery_sibling virtAligned missing mapped
            (kept _ (pageNumber_sibling pagemap virtAligned))
        · intro located other different
          exact vmmQuery_of_located wellFormed free located run different

end

/-- The tables of a new page map, with pages for further tables. -/
def newTables : Mmu := ⟨fun _ _ => 0, [0x2000, 0x3000, 0x4000]⟩

theorem newTables_wellFormed : newTables.WellFormed ⟨.four, 0x1000⟩ :=
  wellFormed_new (fun _ => rfl) (by decide) (by decide) (by decide)

theorem mapAgrees_iff_new :
    MapAgrees Except.toOption false ⟨.four, 0x1000⟩ 0x400000 0x200000 3 newTables :=
  (mapAgrees_iff false newTables_wellFormed (by decide) (by decide) (by decide) (by decide)
    (by decide)).1.mpr (.inr (by decide))

/-- The page for a user program is reported without `VMM_US`. -/
theorem map_loses_user :
    newTables.WellFormed ⟨.four, 0x1000⟩ ∧
    (∃ after, newTables.vmmMap false ⟨.four, 0x1000⟩ 0x400000 0x200000 7 = some (0, after) ∧
      after.vmmQuery ⟨.four, 0x1000⟩ 0x400000 = .ok (0x200000, 3)) ∧
    ¬ MapAgrees Except.toOption false ⟨.four, 0x1000⟩ 0x400000 0x200000 7 newTables ∧
    ¬ MapAgrees id false ⟨.four, 0x1000⟩ 0x400000 0x200000 7 newTables := by
  have reported : ∀ after,
      newTables.vmmMap false ⟨.four, 0x1000⟩ 0x400000 0x200000 7 = some (0, after) →
      after.vmmQuery ⟨.four, 0x1000⟩ 0x400000 = .ok (0x200000, 3) := by
    intro after run
    cases run
    rfl
  refine ⟨newTables_wellFormed, ⟨_, rfl, reported _ rfl⟩, ?_, ?_⟩
  · intro agrees
    have expected := ((agrees 0 _ rfl).1 rfl).1
    rw [reported _ rfl] at expected
    cases expected
  · intro agrees
    have expected := ((agrees 0 _ rfl).1 rfl).1
    rw [reported _ rfl] at expected
    cases expected

end Mmu

end ParanOS

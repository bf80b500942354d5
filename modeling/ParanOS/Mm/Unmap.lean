import ParanOS.Mm.Query
import ParanOS.Mm.Translate

/-! # What `vmm_unmap` takes away

`vmm_unmap` clears the entry that the walk of an address ends at, whatever the level
of the entry is: a large page goes as a whole. `vmm_query` fails afterwards for the
addresses whose walks come to the entry, and answers as before for the others.
-/

namespace ParanOS

open Foundation

namespace Mmu

/-! ## The entry -/

/-- The walk of an address comes to the entry of a location. -/
def Comes (mmu : Mmu) (pagemap : Pagemap) (virt : Nat) (location : Location) : Prop :=
  Radix.Meets nextTable mmu.tables pagemap.topLevel (pagePath virt 1 pagemap.levels.count)
    location.table location.index

/-- The walk of an address comes to the entry that `locate_entry` finds. -/
theorem locate_meets {tables : Store Nat Nat Nat} {virt level table : Nat} {location : Location}
    (located : locate tables virt (level + 1) table = some location) :
    ∃ before after, pagePath virt 1 (level + 1) = before ++ location.index :: after ∧
      Radix.follow nextTable tables table before = some location.table ∧
      after.length + 1 = location.level ∧
      isLocated location.level (tables location.table location.index) = true := by
  induction level generalizing table with
  | zero =>
      simp only [locate, Option.some.injEq] at located
      subst located
      exact ⟨[], [], rfl, rfl, rfl, rfl⟩
  | succ level induction =>
      have index : 1 + (level + 1) = level + 2 := by omega
      simp only [locate] at located
      split at located
      · next large =>
          simp only [Option.some.injEq] at located
          subst located
          refine ⟨[], pagePath virt 1 (level + 1), ?_, rfl, by rw [pagePath_length], ?_⟩
          · rw [pagePath, index]
            rfl
          · simp [isLocated, large.1, large.2]
      · split at located
        · next isTable =>
            rcases induction located with ⟨before, after, path, reached, below⟩
            refine ⟨pageIndex (level + 2) virt :: before, after, ?_, ?_, below⟩
            · rw [pagePath, index, path]
              rfl
            · simp only [Radix.follow, nextTable_of_table isTable]
              exact reached
        · simp at located

section

variable {mmu : Mmu} {pagemap : Pagemap} {virt : Nat} {location : Location}

theorem locateEntry_meets (located : mmu.locateEntry pagemap virt = some location) :
    ∃ before after, pagePath virt 1 pagemap.levels.count = before ++ location.index :: after ∧
      mmu.follow pagemap before = some location.table ∧ after.length + 1 = location.level ∧
      isLocated location.level (mmu.entryAt location) = true := by
  rw [count_succ]
  rw [locateEntry, count_succ] at located
  exact locate_meets located

theorem locateEntry_comes (located : mmu.locateEntry pagemap virt = some location) :
    mmu.Comes pagemap virt location := by
  rcases locateEntry_meets located with ⟨before, after, path, reached, _⟩
  exact ⟨before, after, path, reached⟩

/-- What `vmm_query` answers when the walk ends at a cleared entry. -/
theorem answer_zero (virt level : Nat) :
    answer virt level 0 = .error (if level = 1 then -2 else -1) := by
  by_cases lowest : level = 1
  · subst lowest
    rfl
  · have notLocated : isLocated level 0 = false := by
      simp [isLocated, ptIsLarge, lowest]
    rw [answer, notLocated, if_neg lowest]
    rfl

theorem vmmQuery_of_stop {level entry : Nat}
    (stopped : mmu.stop pagemap (pagePath virt 1 pagemap.levels.count) = some (level, entry)) :
    mmu.vmmQuery pagemap virt = answer virt level entry := by
  rcases vmmQuery_stop mmu pagemap virt with ⟨final, last, ends, query, _⟩
  rw [stopped] at ends
  cases ends
  exact query

/-! ## The other addresses -/

theorem vmmQuery_unmet (unmet : ¬ mmu.Comes pagemap virt location) :
    (mmu.setEntry location.table location.index 0).vmmQuery pagemap virt =
      mmu.vmmQuery pagemap virt := by
  rcases vmmQuery_stop mmu pagemap virt with ⟨level, entry, stopped, query, _⟩
  have kept : (mmu.setEntry location.table location.index 0).stop pagemap
      (pagePath virt 1 pagemap.levels.count) =
      mmu.stop pagemap (pagePath virt 1 pagemap.levels.count) := Radix.stop_set_unmet unmet
  rw [query]
  exact vmmQuery_of_stop (kept.trans stopped)

/-- A walk that comes to the entry ends there once it is cleared. -/
theorem Comes.stop (met : mmu.Comes pagemap virt location) :
    ∃ before after, pagePath virt 1 pagemap.levels.count = before ++ location.index :: after ∧
      mmu.follow pagemap before = some location.table ∧
      (mmu.setEntry location.table location.index 0).stop pagemap
        (pagePath virt 1 pagemap.levels.count) = some (after.length + 1, 0) :=
  Radix.stop_set_met met rfl

/-- An address whose walk comes to the entry is not found any more. -/
theorem vmmQuery_met (met : mmu.Comes pagemap virt location) :
    ∃ code, (mmu.setEntry location.table location.index 0).vmmQuery pagemap virt =
      .error code := by
  rcases met.stop with ⟨before, after, _, _, stopped⟩
  exact ⟨_, (vmmQuery_of_stop stopped).trans (answer_zero _ _)⟩

/-- For such an address the answer stays the same only when no entry was found for it
before either. -/
theorem vmmQuery_met_iff (met : mmu.Comes pagemap virt location)
    (present : (mmu.entryAt location).testBit 0 = true) :
    (mmu.setEntry location.table location.index 0).vmmQuery pagemap virt =
        mmu.vmmQuery pagemap virt ↔ mmu.vmmQuery pagemap virt = .error (-1) := by
  rcases met.stop with ⟨before, after, path, reached, stopped⟩
  have later := (vmmQuery_of_stop stopped).trans (answer_zero _ _)
  rw [later]
  cases after with
  | nil =>
      -- the entry maps a page of 4 KiB here
      have found : mmu.vmmQuery pagemap virt =
          .ok (pageAt virt 1 (mmu.entryAt location)) := by
        have ends : mmu.stop pagemap (pagePath virt 1 pagemap.levels.count) =
            some (1, mmu.entryAt location) := by
          rw [path]
          exact Radix.stop_of_ends reached (.inl rfl)
        rw [vmmQuery_of_stop ends, answer, present]
        rfl
      rw [found]
      simp
  | cons second rest =>
      have higher : ¬ (second :: rest).length + 1 = 1 := by simp
      rw [if_neg higher]
      exact eq_comm

end

/-! ## One page -/

/-- What is expected of `vmm_unmap`: after a success the page is not found and all other
addresses are as before; after a failure the tables are. -/
def UnmapAgrees (pagemap : Pagemap) (virt : Nat) (mmu : Mmu) : Prop :=
  ∀ code after, mmu.vmmUnmap pagemap virt = (code, after) →
    (code = 0 → (∃ error, after.vmmQuery pagemap virt = .error error) ∧
      ∀ other, Canonical pagemap other → ¬ (virt ≤ other ∧ other < virt + 4096) →
        after.vmmQuery pagemap other = mmu.vmmQuery pagemap other) ∧
    (code ≠ 0 → after.tables = mmu.tables)

/-- The entry is also on the way of an address outside of the page, for which one is
found. -/
def EntryShared (pagemap : Pagemap) (virt : Nat) (mmu : Mmu) (location : Location) : Prop :=
  ∃ other, Canonical pagemap other ∧ ¬ (virt ≤ other ∧ other < virt + 4096) ∧
    mmu.Comes pagemap other location ∧ mmu.vmmQuery pagemap other ≠ .error (-1)

/-- Every page has an address that is canonical. -/
theorem exists_canonical (pagemap : Pagemap) (virt : Nat) :
    ∃ other, Canonical pagemap other ∧ pageNumber pagemap other = pageNumber pagemap virt := by
  rcases pagemap with ⟨levels, topLevel⟩
  cases levels with
  | four =>
      by_cases low : virt / 0x1000 % 512 ^ 4 < 512 ^ 4 / 2
      · refine ⟨virt / 0x1000 % 512 ^ 4 * 0x1000, ?_, ?_⟩ <;>
          simp only [Canonical, pageNumber, PagingLevels.count] <;> omega
      · refine ⟨2 ^ 64 - 2 ^ 48 + virt / 0x1000 % 512 ^ 4 * 0x1000, ?_, ?_⟩ <;>
          simp only [Canonical, pageNumber, PagingLevels.count] <;> omega
  | five =>
      by_cases low : virt / 0x1000 % 512 ^ 5 < 512 ^ 5 / 2
      · refine ⟨virt / 0x1000 % 512 ^ 5 * 0x1000, ?_, ?_⟩ <;>
          simp only [Canonical, pageNumber, PagingLevels.count] <;> omega
      · refine ⟨2 ^ 64 - 2 ^ 57 + virt / 0x1000 % 512 ^ 5 * 0x1000, ?_, ?_⟩ <;>
          simp only [Canonical, pageNumber, PagingLevels.count] <;> omega

section

variable {mmu : Mmu} {pagemap : Pagemap} {virt : Nat} {location : Location}
  (aligned : virt % 4096 = 0)
include aligned

theorem pageNumber_of_inside {other : Nat} (inside : virt ≤ other ∧ other < virt + 4096) :
    pageNumber pagemap other = pageNumber pagemap virt := by
  have page : other / 0x1000 = virt / 0x1000 := by omega
  rw [pageNumber, pageNumber, page]

theorem vmmUnmap_eq : mmu.vmmUnmap pagemap virt =
    match mmu.locateEntry pagemap virt with
    | none => (-2, mmu)
    | some location =>
        if (mmu.entryAt location).testBit 0 then
          (0, mmu.setEntry location.table location.index 0)
        else (-3, mmu) := by
  have mask : virt &&& 0xFFF = 0 := by
    rw [← aligned]
    exact Nat.and_two_pow_sub_one_eq_mod virt 12
  cases found : mmu.locateEntry pagemap virt <;>
    simp [vmmUnmap, mask, found]

/-- A refusal leaves the tables. -/
theorem unmapAgrees_of_refused (refused : mmu.isMapped pagemap virt = false) :
    UnmapAgrees pagemap virt mmu := by
  intro code after run
  rw [vmmUnmap_eq aligned] at run
  rw [isMapped] at refused
  cases located : mmu.locateEntry pagemap virt with
  | none =>
      rw [located] at run
      cases run
      exact ⟨fun zero => absurd zero (by decide), fun _ => rfl⟩
  | some location =>
      rw [located] at run refused
      simp only at run refused
      rw [refused] at run
      cases run
      exact ⟨fun zero => absurd zero (by decide), fun _ => rfl⟩

/-- Where an entry is cleared, the addresses that share it decide. -/
theorem unmapAgrees_iff_unshared (located : mmu.locateEntry pagemap virt = some location)
    (present : (mmu.entryAt location).testBit 0 = true) :
    UnmapAgrees pagemap virt mmu ↔ ¬ EntryShared pagemap virt mmu location := by
  have ran : mmu.vmmUnmap pagemap virt =
      (0, mmu.setEntry location.table location.index 0) := by
    rw [vmmUnmap_eq aligned, located]
    simp only [present, if_true]
  constructor
  · rintro agrees ⟨other, canonical, outside, comes, found⟩
    have kept := ((agrees _ _ ran).1 rfl).2 other canonical outside
    exact found ((vmmQuery_met_iff comes present).mp kept)
  · intro unshared code after run
    rw [ran] at run
    cases run
    refine ⟨fun _ => ⟨vmmQuery_met (locateEntry_comes located), ?_⟩,
      fun failed => absurd rfl failed⟩
    intro other canonical outside
    by_cases comes : mmu.Comes pagemap other location
    · apply (vmmQuery_met_iff comes present).mpr
      by_contra found
      exact unshared ⟨other, canonical, outside, comes, found⟩
    · exact vmmQuery_unmet comes

/-- A large page is shared by its other pages of 4 KiB. -/
theorem entryShared_of_large (located : mmu.locateEntry pagemap virt = some location)
    (present : (mmu.entryAt location).testBit 0 = true) (large : location.level ≠ 1) :
    EntryShared pagemap virt mmu location := by
  rcases locateEntry_meets located with ⟨before, after, path, reached, level, taken⟩
  rcases exists_canonical pagemap (sibling virt) with ⟨other, canonical, number⟩
  have otherPath : pagePath other 1 pagemap.levels.count =
      pagePath virt 2 (pagemap.levels.count - 1) ++ [pageIndex 1 (sibling virt)] := by
    rw [(pagePath_eq_iff_pageNumber pagemap other (sibling virt)).mpr number, pagePath_snoc,
      pagePath_sibling aligned]
  rw [pagePath_snoc] at path
  rcases List.eq_nil_or_concat' after with rfl | ⟨middle, last, rfl⟩
  · exact absurd level.symm large
  · have upper : pagePath virt 2 (pagemap.levels.count - 1) =
        before ++ location.index :: middle := by
      have same : pagePath virt 2 (pagemap.levels.count - 1) ++ [pageIndex 1 virt] =
          (before ++ location.index :: middle) ++ [last] := by
        rw [path, List.append_assoc]
        rfl
      exact (List.append_inj' same rfl).1
    rw [upper, List.append_assoc, List.cons_append] at otherPath
    refine ⟨other, canonical, ?_, ⟨_, _, otherPath, reached⟩, ?_⟩
    · intro inside
      apply pageNumber_sibling pagemap aligned
      rw [← number, pageNumber_of_inside aligned inside]
    · have marked : ptIsLarge (mmu.entryAt location) = true := by
        simp only [isLocated, beq_eq_false_iff_ne.mpr large, Bool.false_or,
          Bool.and_eq_true] at taken
        exact taken.2
      have ends : mmu.stop pagemap (pagePath other 1 pagemap.levels.count) =
          some (location.level, mmu.entryAt location) := by
        have final := Radix.stop_of_ends reached
          (.inr (nextTable_of_not_table (ptIsTable_of_large marked)) :
            middle ++ [pageIndex 1 (sibling virt)] = [] ∨ _)
        rw [otherPath, stop, final, ← level]
        simp only [List.length_append, List.length_singleton]
        rfl
      rw [vmmQuery_of_stop ends, answer, taken, present]
      simp

/-- In a tree an entry of 4 KiB belongs to one page. -/
theorem not_entryShared (wellFormed : mmu.WellFormed pagemap) (canonical : Canonical pagemap virt)
    (located : mmu.locateEntry pagemap virt = some location) (lowest : location.level = 1) :
    ¬ EntryShared pagemap virt mmu location := by
  rintro ⟨other, otherCanonical, outside, comes, _⟩
  rcases locateEntry_meets located with ⟨before, after, path, reached, level, _⟩
  rcases comes with ⟨before', after', path', reached'⟩
  have length := congrArg List.length path
  have length' := congrArg List.length path'
  simp only [pagePath_length, List.length_append, List.length_cons] at length length'
  have short : before.length < pagemap.levels.count := by omega
  have short' : before'.length < pagemap.levels.count := by omega
  have same := wellFormed.unshared short short' reached reached'
  subst same
  have ends : after = [] := List.length_eq_zero_iff.mp (by omega)
  have ends' : after' = [] := List.length_eq_zero_iff.mp (by omega)
  rw [ends] at path
  rw [ends'] at path'
  have number := (pagePath_eq_iff_pageNumber pagemap virt other).mp (path.trans path'.symm)
  apply outside
  apply (number_eq_iff .size4KiB aligned canonical otherCanonical).mp
  have count : pagemap.levels.count - PageSize.size4KiB.level + 1 = pagemap.levels.count := by
    cases pagemap.levels <;> rfl
  rw [count]
  exact number

/-- `vmm_unmap` removes one page exactly when it refuses, or clears an entry of 4 KiB that
no other address uses. In a tree of tables no other address does. -/
theorem unmapAgrees_iff :
    (UnmapAgrees pagemap virt mmu ↔ mmu.isMapped pagemap virt = false ∨
      ∃ location, mmu.locateEntry pagemap virt = some location ∧ location.level = 1 ∧
        ¬ EntryShared pagemap virt mmu location) ∧
    (mmu.WellFormed pagemap → Canonical pagemap virt →
      (UnmapAgrees pagemap virt mmu ↔ mmu.isMapped pagemap virt = false ∨
        ∃ location, mmu.locateEntry pagemap virt = some location ∧ location.level = 1)) := by
  cases mapped : mmu.isMapped pagemap virt with
  | false =>
      have agrees := unmapAgrees_of_refused aligned mapped
      exact ⟨iff_of_true agrees (.inl rfl), fun _ _ => iff_of_true agrees (.inl rfl)⟩
  | true =>
      rw [isMapped] at mapped
      cases located : mmu.locateEntry pagemap virt with
      | none =>
          rw [located] at mapped
          simp at mapped
      | some location =>
          rw [located] at mapped
          have agrees := unmapAgrees_iff_unshared aligned located mapped
          have shared := entryShared_of_large aligned located mapped
          simp only [Bool.true_eq_false, false_or, Option.some.injEq, exists_eq_left', agrees]
          constructor
          · constructor
            · intro unshared
              exact ⟨by_contra fun large => unshared (shared large), unshared⟩
            · exact And.right
          · intro wellFormed canonical
            constructor
            · exact fun unshared => by_contra fun large => unshared (shared large)
            · exact not_entryShared aligned wellFormed canonical located

end

/-- A page of 4 KiB in new tables is taken away alone. -/
theorem unmapAgrees_iff_new :
    ∃ after, newTables.vmmMap false ⟨.four, 0x1000⟩ 0x400000 0x200000 3 = some (0, after) ∧
      UnmapAgrees ⟨.four, 0x1000⟩ 0x400000 after := by
  have free : newTables.isMapped ⟨.four, 0x1000⟩ 0x400000 = false := by decide
  rcases @setPage_small newTables ⟨.four, 0x1000⟩ 0x400000 0x200000 3 newTables_wellFormed
    (by decide) (by decide) free with ⟨after, run, mapped⟩
  cases run
  exact ⟨_, rfl, ((unmapAgrees_iff (by decide)).2 mapped.wellFormed (by decide)).mpr
    (.inr ⟨_, rfl, rfl⟩)⟩

/-- New tables with a page of 2 MiB. -/
def largePage : Mmu :=
  (newTables.mapPage false ⟨.four, 0x1000⟩ 0x400000 0x200000 3 .size2MiB).getD newTables

/-- With one page of 4 KiB, all of the 2 MiB go. -/
theorem unmap_takes_large_page :
    newTables.mapPage false ⟨.four, 0x1000⟩ 0x400000 0x200000 3 .size2MiB = some largePage ∧
    largePage.vmmQuery ⟨.four, 0x1000⟩ 0x401000 = .ok (0x201000, 3) ∧
    ¬ ∀ (pagemap : Pagemap) (virt : Nat) (mmu : Mmu), virt % 4096 = 0 →
      Canonical pagemap virt → UnmapAgrees pagemap virt mmu := by
  refine ⟨rfl, rfl, ?_⟩
  intro claim
  have agrees := claim ⟨.four, 0x1000⟩ 0x400000 largePage (by decide) (by decide)
  have kept := ((agrees 0 (largePage.setEntry 0x3000 2 0) rfl).1 rfl).2 0x401000 (by decide)
    (by decide)
  have gone : (largePage.setEntry 0x3000 2 0).vmmQuery ⟨.four, 0x1000⟩ 0x401000 =
      .error (-1) := rfl
  have found : largePage.vmmQuery ⟨.four, 0x1000⟩ 0x401000 = .ok (0x201000, 3) := rfl
  rw [gone, found] at kept
  cases kept

end Mmu

end ParanOS

import ParanOS.Mm.Vmm

/-! # Well-formed page tables

The page tables form a tree: no two walks come to one table. New tables are empty
and outside of the tree, so that `map_page` changes the walks of one page only.
-/

namespace ParanOS

open Foundation

/-! ## Entries -/

theorem pageIndex_eq (level virt : Nat) :
    pageIndex level virt = virt / 2 ^ pageShift level % 512 := by
  rw [pageIndex, Nat.shiftRight_eq_div_pow]
  exact Nat.and_two_pow_sub_one_eq_mod _ 9

theorem nextTable_of_not_table {entry : Nat} (plain : ptIsTable entry = false) :
    nextTable entry = none := by
  simp [nextTable, plain]

theorem nextTable_of_table {entry : Nat} (table : ptIsTable entry = true) :
    nextTable entry = some (pteAddr entry) := by
  simp [nextTable, table]

theorem ptIsTable_of_large {entry : Nat} (large : ptIsLarge entry = true) :
    ptIsTable entry = false := by
  simp only [ptIsLarge, Bool.and_eq_true] at large
  simp [ptIsTable, large.2]

theorem ptIsLarge_of_table {entry : Nat} (table : ptIsTable entry = true) :
    ptIsLarge entry = false := by
  simp only [ptIsTable, Bool.and_eq_true, Bool.not_eq_true'] at table
  simp [ptIsLarge, table.2]

/-- An entry that is neither a table nor a large page is not present. -/
theorem not_present_of_plain {entry : Nat} (noTable : ptIsTable entry = false)
    (noLarge : ptIsLarge entry = false) : entry.testBit 0 = false := by
  cases present : entry.testBit 0 with
  | false => rfl
  | true =>
      cases large : entry.testBit 7 with
      | false => simp [ptIsTable, present, large] at noTable
      | true => simp [ptIsLarge, present, large] at noLarge

theorem not_table_of_not_present {entry : Nat} (absent : entry.testBit 0 = false) :
    ptIsTable entry = false := by
  simp [ptIsTable, absent]

theorem testBit_pteAddr (entry bit : Nat) :
    (pteAddr entry).testBit bit = (entry.testBit bit && decide (12 ≤ bit ∧ bit < 48)) := by
  have mask : (0x0000FFFFFFFFF000 : Nat) = (2 ^ 36 - 1) * 2 ^ 12 := by decide
  rw [pteAddr, Nat.testBit_and, mask, Nat.testBit_mul_two_pow, Nat.testBit_two_pow_sub_one]
  congr 1
  by_cases low : 12 ≤ bit
  · simp only [low, decide_true, Bool.true_and, true_and, decide_eq_decide]
    omega
  · simp [low]

theorem page_lt_of_aligned {page : Nat} (aligned : pteAddr page = page) : page < 2 ^ 48 := by
  have bound : pteAddr page ≤ 0x0000FFFFFFFFF000 := Nat.and_le_right
  omega

/-- The entry for a new table points to it. -/
theorem nextTable_pteNew {page : Nat} (aligned : pteAddr page = page) :
    nextTable (pteNew page ptTableFlags) = some page := by
  have bits : ∀ bit, page.testBit bit = (page.testBit bit && decide (12 ≤ bit ∧ bit < 48)) := by
    intro bit
    rw [← testBit_pteAddr, aligned]
  have clear : ∀ bit, bit < 12 → page.testBit bit = false := by
    intro bit small
    rw [bits]
    simp [show ¬ 12 ≤ bit by omega]
  have flags : ∀ bit, 12 ≤ bit → ptTableFlags.testBit bit = false := by
    intro bit large
    exact Nat.testBit_lt_two_pow (Nat.lt_of_lt_of_le (by decide : 7 < 2 ^ 12)
      (Nat.pow_le_pow_right (by omega) large))
  have table : ptIsTable (pteNew page ptTableFlags) = true := by
    simp only [ptIsTable, pteNew, Nat.testBit_or, clear 7 (by omega)]
    simp [ptTableFlags, Nat.testBit]
  rw [nextTable_of_table table]
  congr 1
  apply Nat.eq_of_testBit_eq
  intro bit
  rw [testBit_pteAddr, pteNew, Nat.testBit_or]
  by_cases high : 12 ≤ bit
  · rw [flags bit high, Bool.or_false, ← bits]
  · rw [clear bit (by omega)]
    simp [high]

/-! ## Paths -/

/-- The indices of an address on `count` levels, from the highest down to `lowest`. -/
def pagePath (virt lowest : Nat) : (count : Nat) → List Nat
  | 0 => []
  | count + 1 => pageIndex (lowest + count) virt :: pagePath virt lowest count

theorem pagePath_length (virt lowest count : Nat) :
    (pagePath virt lowest count).length = count := by
  induction count with
  | zero => rfl
  | succ count induction => simp [pagePath, induction]

theorem pagePath_add (virt lowest upper lower : Nat) :
    pagePath virt lowest (upper + lower) =
      pagePath virt (lowest + lower) upper ++ pagePath virt lowest lower := by
  induction upper with
  | zero => simp [pagePath]
  | succ upper induction =>
      rw [Nat.succ_add, pagePath, pagePath, induction, List.cons_append]
      congr 2
      omega

theorem pageIndex_above (lowest count virt : Nat) (low : 1 ≤ lowest) :
    pageIndex (lowest + count) virt = virt / 2 ^ pageShift lowest / 512 ^ count % 512 := by
  have power : 2 ^ pageShift (lowest + count) = 2 ^ pageShift lowest * 512 ^ count := by
    rw [show (512 : Nat) = 2 ^ 9 by decide, ← Nat.pow_mul, ← Nat.pow_add]
    congr 1
    simp only [pageShift]
    omega
  rw [pageIndex_eq, power, Nat.div_div_eq_div_mul]

/-- The indices of an address are the digits of its page number. -/
theorem pagePath_eq_iff {left right lowest : Nat} (low : 1 ≤ lowest) (count : Nat) :
    pagePath left lowest count = pagePath right lowest count ↔
      left / 2 ^ pageShift lowest % 512 ^ count = right / 2 ^ pageShift lowest % 512 ^ count := by
  induction count with
  | zero => simp [pagePath, Nat.mod_one]
  | succ count induction =>
      rw [pagePath, pagePath, List.cons.injEq, induction, pageIndex_above _ _ _ low,
        pageIndex_above _ _ _ low, Nat.mod_pow_succ, Nat.mod_pow_succ]
      have leftSmall := Nat.mod_lt (left / 2 ^ pageShift lowest) (Nat.pow_pos (n := count)
        (show 0 < 512 by decide))
      have rightSmall := Nat.mod_lt (right / 2 ^ pageShift lowest) (Nat.pow_pos (n := count)
        (show 0 < 512 by decide))
      constructor
      · intro both
        rw [both.1, both.2]
      · intro sums
        have digits := congrArg (· / 512 ^ count) sums
        have rests := congrArg (· % 512 ^ count) sums
        simp only [Nat.add_mul_div_left _ _ (Nat.pow_pos (show 0 < 512 by decide)),
          Nat.div_eq_of_lt leftSmall, Nat.div_eq_of_lt rightSmall, Nat.zero_add] at digits
        simp only [Nat.add_mul_mod_self_left, Nat.mod_eq_of_lt leftSmall,
          Nat.mod_eq_of_lt rightSmall] at rests
        exact ⟨digits, rests⟩

/-! ## The tree -/

/-- The page that the walk of a path ends at, with the level of its entry. -/
def isLeaf (level entry : Nat) : Bool :=
  entry.testBit 0 && (level == 1 || (decide (level ≤ 3) && entry.testBit 7))

theorem isLeaf_of_not_present {entry : Nat} (absent : entry.testBit 0 = false) (level : Nat) :
    isLeaf level entry = false := by
  simp only [isLeaf, absent, Bool.false_and]

namespace Mmu

def follow (mmu : Mmu) (pagemap : Pagemap) (path : List Nat) : Option Nat :=
  Radix.follow nextTable mmu.tables pagemap.topLevel path

def stop (mmu : Mmu) (pagemap : Pagemap) (path : List Nat) : Option (Nat × Nat) :=
  Radix.stop nextTable mmu.tables pagemap.topLevel path

def leaf (mmu : Mmu) (pagemap : Pagemap) (path : List Nat) : Option (Nat × Nat) :=
  (mmu.stop pagemap path).filter fun final => isLeaf final.1 final.2

theorem leaf_of_stop {mmu : Mmu} {pagemap : Pagemap} {path : List Nat} {level entry : Nat}
    (stopped : mmu.stop pagemap path = some (level, entry)) :
    mmu.leaf pagemap path = if isLeaf level entry then some (level, entry) else none := by
  rw [leaf, stopped]
  rfl

theorem leaf_of_not_present {mmu : Mmu} {pagemap : Pagemap} {path : List Nat}
    {level entry : Nat} (stopped : mmu.stop pagemap path = some (level, entry))
    (absent : entry.testBit 0 = false) : mmu.leaf pagemap path = none := by
  rw [leaf_of_stop stopped, isLeaf_of_not_present absent]
  rfl

/-- The page tables are a tree, with its tables below 2^48, where `PT_PADDR_MASK` ends.
On the levels above 1 GiB no entry is marked as a large page, which the hardware does
not have there. The pages for new tables are outside of the tree. -/
structure WellFormed (mmu : Mmu) (pagemap : Pagemap) : Prop where
  unshared : Radix.Unshared nextTable mmu.tables pagemap.topLevel pagemap.levels.count
  upper : ∀ place table, place.length + 3 < pagemap.levels.count →
    mmu.follow pagemap place = some table → ∀ index, ptIsLarge (mmu.tables table index) = false
  low : ∀ place table, place.length + 1 < pagemap.levels.count →
    mmu.follow pagemap place = some table → ∀ index,
    ptIsTable (mmu.tables table index) = true → mmu.tables table index / 2 ^ 48 % 16 = 0
  supplyNodup : mmu.supply.Nodup
  supplyFresh : ∀ page ∈ mmu.supply,
    Radix.Fresh nextTable mmu.tables pagemap.topLevel pagemap.levels.count page
  supplyPage : ∀ page ∈ mmu.supply, pteAddr page = page

/-- The tables of `new_pagemap`, which are one empty table. -/
theorem wellFormed_new {mmu : Mmu} {pagemap : Pagemap}
    (empty : ∀ index, mmu.tables pagemap.topLevel index = 0) (distinct : mmu.supply.Nodup)
    (apart : pagemap.topLevel ∉ mmu.supply)
    (aligned : ∀ page ∈ mmu.supply, pteAddr page = page) : mmu.WellFormed pagemap := by
  have only : ∀ path node, mmu.follow pagemap path = some node →
      path = [] ∧ node = pagemap.topLevel := by
    intro path node reached
    cases path with
    | nil => exact ⟨rfl, Option.some.inj reached.symm⟩
    | cons index rest =>
        simp only [follow, Radix.follow, empty index] at reached
        cases reached
  constructor
  · intro first second node _ _ firstReached secondReached
    rw [(only first node firstReached).1, (only second node secondReached).1]
  · intro place table _ reached index
    rw [(only place table reached).2, empty index]
    rfl
  · intro place table _ reached index _
    rw [(only place table reached).2, empty index]
    rfl
  · exact distinct
  · intro page member path _ reached
    exact apart ((only path page reached).2 ▸ member)
  · exact aligned

/-! ## A new table -/

/-- The state in which `get_next_level` has made a table. -/
def linked (mmu : Mmu) (table index page : Nat) (rest : List Nat) : Mmu :=
  ⟨(mmu.tables.fill page 0).set table index (pteNew page ptTableFlags), rest⟩

section

variable {mmu : Mmu} {pagemap : Pagemap} {place : List Nat} {table index page : Nat}
  {rest : List Nat} (wellFormed : mmu.WellFormed pagemap)
  (short : place.length + 1 < pagemap.levels.count)
  (found : mmu.follow pagemap place = some table) (supply : mmu.supply = page :: rest)

include wellFormed supply

theorem supply_fresh :
    Radix.Fresh nextTable mmu.tables pagemap.topLevel pagemap.levels.count page :=
  wellFormed.supplyFresh page (by rw [supply]; exact List.mem_cons_self)

theorem fresh_filled : Radix.Fresh nextTable (mmu.tables.fill page 0) pagemap.topLevel
    pagemap.levels.count page :=
  (supply_fresh wellFormed supply).fill (supply_fresh wellFormed supply) 0

theorem unshared_filled : Radix.Unshared nextTable (mmu.tables.fill page 0) pagemap.topLevel
    pagemap.levels.count :=
  wellFormed.unshared.fill (supply_fresh wellFormed supply) 0

theorem nextTable_new : nextTable (pteNew page ptTableFlags) = some page :=
  nextTable_pteNew (wellFormed.supplyPage page (by rw [supply]; exact List.mem_cons_self))

omit wellFormed supply in
theorem nextTable_filled (tables : Store Nat Nat Nat) (position : Nat) :
    nextTable (tables.fill page 0 page position) = none := by
  rw [Store.fill_here]
  rfl

include short found

theorem follow_filled :
    Radix.follow nextTable (mmu.tables.fill page 0) pagemap.topLevel place = some table := by
  rw [((supply_fresh wellFormed supply).walk_fill 0 (by omega)).1]
  exact found

theorem linked_follow : (mmu.linked table index page rest).follow pagemap (place ++ [index]) =
    some page := by
  have here : (mmu.linked table index page rest).follow pagemap place = some table :=
    Radix.follow_set_place (unshared_filled wellFormed supply) (by omega)
      (follow_filled wellFormed short found supply)
  have entry : (mmu.linked table index page rest).tables table index =
      pteNew page ptTableFlags := Store.set_here ..
  rw [follow, Radix.follow_append here, Radix.follow_single, entry,
    nextTable_new wellFormed supply]

/-- The paths in the state with a new table: the old ones and the one to it. -/
theorem linked_paths {path : List Nat} {other : Nat} (few : path.length < pagemap.levels.count)
    (reached : (mmu.linked table index page rest).follow pagemap path = some other) :
    mmu.follow pagemap path = some other ∨ path = place ++ [index] ∧ other = page := by
  have cases := Radix.follow_set_link (unshared_filled wellFormed supply) (by omega)
    (follow_filled wellFormed short found supply) (nextTable_new wellFormed supply)
    (fresh_filled wellFormed supply) (nextTable_filled mmu.tables) few reached
  rw [((supply_fresh wellFormed supply).walk_fill 0 (Nat.le_of_lt few)).1] at cases
  exact cases

/-- The entries of the tables in that state. -/
theorem linked_entry {path : List Nat} {other : Nat} (few : path.length < pagemap.levels.count)
    (reached : (mmu.linked table index page rest).follow pagemap path = some other)
    (position : Nat) :
    (mmu.linked table index page rest).tables other position = 0 ∨
      (mmu.linked table index page rest).tables other position = pteNew page ptTableFlags ∨
      mmu.follow pagemap path = some other ∧
        (mmu.linked table index page rest).tables other position = mmu.tables other position := by
  by_cases here : other = table ∧ position = index
  · rw [here.1, here.2]
    exact .inr (.inl (Store.set_here ..))
  · have kept : (mmu.linked table index page rest).tables other position =
        mmu.tables.fill page 0 other position := Store.set_other here
    rcases linked_paths wellFormed short found supply few reached with old | new
    · have different : other ≠ page := by
        intro same
        exact supply_fresh wellFormed supply path few (same ▸ old)
      right
      right
      rw [kept, Store.fill_other different]
      exact ⟨old, rfl⟩
    · left
      rw [kept, new.2, Store.fill_here]

/-- Paths past the new table end where they did. -/
theorem linked_stop_other {path : List Nat} (full : path.length = pagemap.levels.count)
    (outside : ¬ place ++ [index] <+: path) :
    (mmu.linked table index page rest).stop pagemap path = mmu.stop pagemap path := by
  have kept : (mmu.linked table index page rest).stop pagemap path =
      Radix.stop nextTable (mmu.tables.fill page 0) pagemap.topLevel path :=
    (Radix.walk_set_other (unshared_filled wellFormed supply) (by omega)
      (follow_filled wellFormed short found supply) (Nat.le_of_eq full) outside).2
  have filled := ((supply_fresh wellFormed supply).walk_fill 0 (Nat.le_of_eq full)).2
  exact kept.trans filled

/-- Paths through the new table end in it, at an entry that is not present. -/
theorem linked_stop_inside (index second : Nat) (later : List Nat) :
    (mmu.linked table index page rest).stop pagemap (place ++ index :: second :: later) =
      some (later.length + 1, 0) := by
  have inside := @Radix.stop_set_link _ _ _ nextTable _ _ _ _ _ _ _ index
    (pteNew page ptTableFlags) (unshared_filled wellFormed supply) (by omega)
    (follow_filled wellFormed short found supply) _ (nextTable_new wellFormed supply)
    (fresh_filled wellFormed supply) (nextTable_filled mmu.tables) second later
  rw [Store.fill_here] at inside
  exact inside

/-- No page is mapped or unmapped by a new table. -/
theorem linked_leaf (absent : (mmu.tables table index).testBit 0 = false) {path : List Nat}
    (full : path.length = pagemap.levels.count) :
    (mmu.linked table index page rest).leaf pagemap path = mmu.leaf pagemap path := by
  by_cases within : place ++ [index] <+: path
  · rcases within with ⟨later, equal⟩
    rw [List.append_assoc, List.singleton_append] at equal
    subst equal
    cases later with
    | nil =>
        simp only [List.length_append, List.length_cons, List.length_nil] at full
        omega
    | cons second later =>
        have before : mmu.stop pagemap (place ++ index :: second :: later) =
            some (later.length + 2, mmu.tables table index) :=
          Radix.stop_of_ends found
            (.inr (nextTable_of_not_table (not_table_of_not_present absent)))
        have inside := linked_stop_inside wellFormed short found supply index second later
        rw [leaf_of_not_present before absent, leaf_of_not_present inside (by decide)]
  · rw [leaf, leaf, linked_stop_other wellFormed short found supply full within]

theorem WellFormed.linked : (mmu.linked table index page rest).WellFormed pagemap := by
  have distinct := wellFormed.supplyNodup
  rw [supply, List.nodup_cons] at distinct
  have aligned := wellFormed.supplyPage page (by rw [supply]; exact List.mem_cons_self)
  have tableEntry : ptIsTable (pteNew page ptTableFlags) = true := by
    have pointer := nextTable_new wellFormed supply
    simp only [nextTable] at pointer
    split at pointer
    · assumption
    · cases pointer
  constructor
  · exact (unshared_filled wellFormed supply).set_link (by omega)
      (follow_filled wellFormed short found supply) (nextTable_new wellFormed supply)
      (fresh_filled wellFormed supply) (nextTable_filled mmu.tables)
  · intro path other few reached position
    rcases linked_entry wellFormed short found supply (by omega) reached position with
      zero | new | old
    · rw [zero]
      rfl
    · rw [new]
      exact ptIsLarge_of_table tableEntry
    · rw [old.2]
      exact wellFormed.upper path other few old.1 position
  · intro path other few reached position isTable
    rcases linked_entry wellFormed short found supply (by omega) reached position with
      zero | new | old
    · rw [zero]
      rfl
    · have bound : pteNew page ptTableFlags < 2 ^ 48 :=
        Nat.or_lt_two_pow (page_lt_of_aligned aligned) (by decide)
      rw [new, Nat.div_eq_of_lt bound]
    · rw [old.2] at isTable ⊢
      exact wellFormed.low path other few old.1 position isTable
  · exact distinct.2
  · intro other member
    have different : other ≠ page := fun same => distinct.1 (same ▸ member)
    have unused := wellFormed.supplyFresh other
      (by rw [supply]; exact List.mem_cons_of_mem _ member)
    exact Radix.Fresh.set_link (unshared_filled wellFormed supply) (by omega)
      (follow_filled wellFormed short found supply) (nextTable_new wellFormed supply)
      (fresh_filled wellFormed supply) (nextTable_filled mmu.tables)
      (unused.fill (supply_fresh wellFormed supply) 0) different
  · intro other member
    exact wellFormed.supplyPage other (by rw [supply]; exact List.mem_cons_of_mem _ member)

end

/-! ## A page -/

section

variable {mmu : Mmu} {pagemap : Pagemap} {place : List Nat} {table index entry level : Nat}
  (wellFormed : mmu.WellFormed pagemap) (depth : place.length + level = pagemap.levels.count)
  (found : mmu.follow pagemap place = some table) (low : 1 ≤ level) (high : level ≤ 3)
  (final : level = 1 ∨ nextTable entry = none)

include wellFormed depth found low final

theorem setEntry_follow {path : List Nat} {other : Nat}
    (few : path.length < pagemap.levels.count)
    (reached : (mmu.setEntry table index entry).follow pagemap path = some other) :
    mmu.follow pagemap path = some other := by
  have final : place.length + 1 = pagemap.levels.count ∨ nextTable entry = none := by
    rcases final with lowest | missing
    · left
      omega
    · exact .inr missing
  exact Radix.follow_set_final wellFormed.unshared (by omega) found final few reached

theorem setEntry_entry {path : List Nat} {other : Nat}
    (few : path.length < pagemap.levels.count)
    (reached : (mmu.setEntry table index entry).follow pagemap path = some other)
    (position : Nat) :
    path = place ∧ (mmu.setEntry table index entry).tables other position = entry ∨
      (mmu.setEntry table index entry).tables other position = mmu.tables other position := by
  have old := setEntry_follow wellFormed depth found low final few reached
  by_cases here : other = table ∧ position = index
  · left
    rw [here.1] at old ⊢
    rw [here.2]
    exact ⟨wellFormed.unshared few (by omega) old found, Store.set_here ..⟩
  · right
    exact Store.set_other here

include high

theorem WellFormed.setEntry : (mmu.setEntry table index entry).WellFormed pagemap := by
  have final' : place.length + 1 = pagemap.levels.count ∨ nextTable entry = none := by
    rcases final with lowest | missing
    · left
      omega
    · exact .inr missing
  constructor
  · exact wellFormed.unshared.set_final (by omega) found final'
  · intro path other few reached position
    have old := setEntry_follow wellFormed depth found low final (by omega) reached
    rcases setEntry_entry wellFormed depth found low final (by omega) reached position with
      new | kept
    · rw [new.1] at few
      omega
    · rw [kept]
      exact wellFormed.upper path other few old position
  · intro path other few reached position isTable
    have old := setEntry_follow wellFormed depth found low final (by omega) reached
    rcases setEntry_entry wellFormed depth found low final (by omega) reached position with
      new | kept
    · rw [new.1] at few
      have missing : nextTable entry = none := final.resolve_left (by omega)
      rw [new.2] at isTable
      rw [nextTable_of_table isTable] at missing
      cases missing
    · rw [kept] at isTable ⊢
      exact wellFormed.low path other few old position isTable
  · exact wellFormed.supplyNodup
  · intro other member
    exact Radix.Fresh.set_final wellFormed.unshared (by omega) found final'
      (wellFormed.supplyFresh other member)
  · exact wellFormed.supplyPage

omit high

theorem setEntry_stop_inside {later : List Nat} (rest : later.length + 1 = level) :
    (mmu.setEntry table index entry).stop pagemap (place ++ index :: later) =
      some (level, entry) := by
  have final : later = [] ∨ nextTable entry = none := by
    rcases final with lowest | missing
    · left
      exact List.eq_nil_of_length_eq_zero (by omega)
    · exact .inr missing
  rw [← rest]
  exact Radix.stop_set_here wellFormed.unshared (by omega) found final

omit final in
theorem setEntry_stop_other {path : List Nat} (full : path.length = pagemap.levels.count)
    (outside : ¬ place ++ [index] <+: path) :
    (mmu.setEntry table index entry).stop pagemap path = mmu.stop pagemap path :=
  (Radix.walk_set_other wellFormed.unshared (by omega) found (Nat.le_of_eq full) outside).2

end

/-! ## Going down -/

/-- What `get_next_level` does above the lowest level: it finds a table, it meets a
large page, it has no page left, or it makes a table. -/
theorem getNextLevel_cases {mmu : Mmu} {pagemap : Pagemap} {place : List Nat} {table : Nat}
    (found : mmu.follow pagemap place = some table) (index : Nat) :
    (∃ next, mmu.getNextLevel table index = some (some next, mmu) ∧
      mmu.follow pagemap (place ++ [index]) = some next) ∨
    mmu.getNextLevel table index = some (none, mmu) ∧
      ptIsLarge (mmu.tables table index) = true ∨
    mmu.getNextLevel table index = none ∧ mmu.supply = [] ∨
    ∃ page rest, mmu.getNextLevel table index =
        some (some page, mmu.linked table index page rest) ∧
      mmu.supply = page :: rest ∧ (mmu.tables table index).testBit 0 = false := by
  cases isTable : ptIsTable (mmu.tables table index) with
  | true =>
      left
      refine ⟨pteAddr (mmu.tables table index), by simp [getNextLevel, isTable], ?_⟩
      rw [follow, Radix.follow_append found, Radix.follow_single, nextTable_of_table isTable]
  | false =>
      right
      cases isLarge : ptIsLarge (mmu.tables table index) with
      | true => exact .inl ⟨by simp [getNextLevel, isTable, isLarge], rfl⟩
      | false =>
          right
          cases supply : mmu.supply with
          | nil => exact .inl ⟨by simp [getNextLevel, isTable, isLarge, allocTable, supply], rfl⟩
          | cons page rest =>
              right
              refine ⟨page, rest, ?_, rfl, not_present_of_plain isTable isLarge⟩
              simp only [getNextLevel, isTable, isLarge, allocTable, supply]
              rfl

/-- A path that comes to a large page is mapped. -/
theorem WellFormed.leaf_of_large {mmu : Mmu} {pagemap : Pagemap} {place rest : List Nat}
    {table index : Nat} (wellFormed : mmu.WellFormed pagemap)
    (found : mmu.follow pagemap place = some table)
    (full : (place ++ index :: rest).length = pagemap.levels.count)
    (large : ptIsLarge (mmu.tables table index) = true) :
    mmu.leaf pagemap (place ++ index :: rest) ≠ none := by
  rw [List.length_append, List.length_cons] at full
  have stopped : mmu.stop pagemap (place ++ index :: rest) =
      some (rest.length + 1, mmu.tables table index) :=
    Radix.stop_of_ends found (.inr (nextTable_of_not_table (ptIsTable_of_large large)))
  have below : rest.length + 1 ≤ 3 := by
    by_contra above
    have plain := wellFormed.upper place table (by omega) found index
    rw [plain] at large
    cases large
  simp only [ptIsLarge, Bool.and_eq_true] at large
  have isPage : isLeaf (rest.length + 1) (mmu.tables table index) = true := by
    simp only [isLeaf, large.1, large.2, below, decide_true, Bool.and_true, Bool.or_true]
  rw [leaf_of_stop stopped, isPage]
  simp

/-- Up to `count` tables have been added, and every page is mapped as before. -/
structure Grown (before after : Mmu) (pagemap : Pagemap) (count : Nat) : Prop where
  wellFormed : after.WellFormed pagemap
  leaf : ∀ path : List Nat, path.length = pagemap.levels.count →
    after.leaf pagemap path = before.leaf pagemap path
  supply : before.supply.length ≤ after.supply.length + count

/-- Where no large page is in the way, `map_page` comes to the table it looks for,
unless the kernel has no page left for a new table. -/
theorem descend_cases {mmu : Mmu} {pagemap : Pagemap} {place rest : List Nat} {table : Nat}
    (virt target steps : Nat) (wellFormed : mmu.WellFormed pagemap)
    (found : mmu.follow pagemap place = some table) (length : rest.length = target)
    (depth : place.length + (target + steps) = pagemap.levels.count) (low : 1 ≤ target)
    (clear : mmu.leaf pagemap (place ++ (pagePath virt (target + 1) steps ++ rest)) = none) :
    descend virt target steps table mmu = none ∧ mmu.supply.length < steps ∨
    ∃ next after, descend virt target steps table mmu = some (some next, after) ∧
      mmu.Grown after pagemap steps ∧
      after.follow pagemap (place ++ pagePath virt (target + 1) steps) = some next := by
  induction steps generalizing place table mmu with
  | zero =>
      right
      refine ⟨table, mmu, rfl, ⟨wellFormed, fun _ _ => rfl, Nat.le_refl _⟩, ?_⟩
      rw [pagePath, List.append_nil]
      exact found
  | succ steps induction =>
      have level : target + 1 + steps = target + steps + 1 := by omega
      rw [pagePath, level, List.cons_append] at clear
      rw [pagePath, level]
      rcases getNextLevel_cases found (pageIndex (target + steps + 1) virt) with
        ⟨next, run, reached⟩ | ⟨run, large⟩ | ⟨run, supply⟩ | ⟨page, later, run, supply, absent⟩
      · rw [← List.singleton_append, ← List.append_assoc] at clear ⊢
        rcases induction wellFormed reached (by simp; omega) clear with short | ⟨last, after, done⟩
        · left
          simp only [descend, run]
          exact ⟨short.1, by omega⟩
        · right
          refine ⟨last, after, by simp only [descend, run]; exact done.1, ?_, done.2.2⟩
          exact ⟨done.2.1.wellFormed, done.2.1.leaf, Nat.le_succ_of_le done.2.1.supply⟩
      · refine absurd clear (wellFormed.leaf_of_large found ?_ large)
        simp only [List.length_append, List.length_cons, pagePath_length, length]
        omega
      · left
        simp only [descend, run, supply]
        exact ⟨trivial, by simp⟩
      · have short : place.length + 1 < pagemap.levels.count := by omega
        have fewer : mmu.supply.length = later.length + 1 := by rw [supply, List.length_cons]
        have same := fun path full => @linked_leaf mmu pagemap place table _ page later wellFormed
          short found supply absent path full
        have reached := @linked_follow mmu pagemap place table
          (pageIndex (target + steps + 1) virt) page later wellFormed short found supply
        have stillClear := clear
        rw [← same _ (by simp [pagePath_length, length]; omega)] at stillClear
        rw [← List.singleton_append, ← List.append_assoc] at stillClear ⊢
        rcases induction (wellFormed.linked short found supply) reached (by simp; omega)
          stillClear with none | ⟨last, after, done⟩
        · left
          simp only [descend, run]
          exact ⟨none.1, fewer ▸ Nat.succ_lt_succ none.2⟩
        · right
          refine ⟨last, after, by simp only [descend, run]; exact done.1, ?_, done.2.2⟩
          have supplied := done.2.1.supply
          refine ⟨done.2.1.wellFormed, ?_, ?_⟩
          · intro path full
            rw [done.2.1.leaf path full, same path full]
          · simp only [linked] at supplied
            omega

/-! ## Mapping a page -/

theorem leafEntry_present (phys flags : Nat) (size : PageSize) :
    (leafEntry phys (flags ||| 1) size).testBit 0 = true := by
  have present : (flags ||| 1).testBit 0 = true := by
    rw [Nat.testBit_or, show Nat.testBit 1 0 = true by decide, Bool.or_true]
  cases size with
  | size4KiB =>
      rw [leafEntry]
      split
      · rw [Nat.testBit_or, Nat.testBit_or, Nat.testBit_and, present]
        simp
      · rw [Nat.testBit_or, present, Bool.or_true]
  | size2MiB =>
      simp only [leafEntry, Nat.testBit_or, present, Bool.or_true, Bool.true_or]
  | size1GiB =>
      simp only [leafEntry, Nat.testBit_or, present, Bool.or_true, Bool.true_or]

theorem leafEntry_large {size : PageSize} (large : size ≠ .size4KiB) (phys flags : Nat) :
    (leafEntry phys flags size).testBit 7 = true := by
  have mark : ptFlagLarge.testBit 7 = true := by decide
  cases size with
  | size4KiB => exact absurd rfl large
  | size2MiB => simp only [leafEntry, Nat.testBit_or, mark, Bool.or_true]
  | size1GiB => simp only [leafEntry, Nat.testBit_or, mark, Bool.or_true]

/-- The entry for a page is final on its level. -/
theorem leafEntry_final (phys flags : Nat) (size : PageSize) :
    size.level = 1 ∨ nextTable (leafEntry phys flags size) = none := by
  by_cases small : size = .size4KiB
  · left
    rw [small]
    rfl
  · right
    apply nextTable_of_not_table
    simp [ptIsTable, leafEntry_large small]

theorem leafEntry_isLeaf (phys flags : Nat) (size : PageSize) :
    isLeaf size.level (leafEntry phys (flags ||| 1) size) = true := by
  rw [isLeaf, leafEntry_present, Bool.true_and]
  by_cases small : size = .size4KiB
  · rw [small]
    rfl
  · rw [leafEntry_large small]
    cases size with
    | size4KiB => exact absurd rfl small
    | size2MiB => rfl
    | size1GiB => rfl

theorem level_bounds (levels : PagingLevels) (size : PageSize) :
    1 ≤ size.level ∧ size.level ≤ 3 ∧ size.level < levels.count := by
  cases levels <;> cases size <;> decide

/-- The indices that the addresses of a page share. -/
def pagePrefix (pagemap : Pagemap) (virt level : Nat) : List Nat :=
  pagePath virt level (pagemap.levels.count - level + 1)

/-- One page has been mapped, and every other page is mapped as before. -/
structure Mapped (before after : Mmu) (pagemap : Pagemap) (virt level entry count : Nat) :
    Prop where
  wellFormed : after.WellFormed pagemap
  inside : ∀ path : List Nat, path.length = pagemap.levels.count →
    pagePrefix pagemap virt level <+: path → after.leaf pagemap path = some (level, entry)
  outside : ∀ path : List Nat, path.length = pagemap.levels.count →
    ¬ pagePrefix pagemap virt level <+: path →
    after.leaf pagemap path = before.leaf pagemap path
  supply : before.supply.length ≤ after.supply.length + count

theorem pagePrefix_eq (pagemap : Pagemap) (virt level : Nat) :
    pagePrefix pagemap virt level =
      pagePath virt (level + 1) (pagemap.levels.count - level) ++ [pageIndex level virt] := by
  rw [pagePrefix, pagePath_add]
  rfl

theorem pagePath_split (pagemap : Pagemap) (virt : Nat) (size : PageSize) :
    pagePath virt 1 pagemap.levels.count =
      pagePath virt (size.level + 1) (pagemap.levels.count - size.level) ++
        pagePath virt 1 size.level := by
  have levels := level_bounds pagemap.levels size
  rw [Nat.add_comm size.level 1, ← pagePath_add]
  congr 1
  omega

/-- The page of an address is one of those its own indices lead to. -/
theorem pagePrefix_self (pagemap : Pagemap) (virt : Nat) (size : PageSize) :
    pagePrefix pagemap virt size.level <+: pagePath virt 1 pagemap.levels.count := by
  have lowest : pagePath virt 1 size.level =
      pageIndex size.level virt :: pagePath virt 1 (size.level - 1) := by
    cases size <;> rfl
  rw [pagePrefix_eq, pagePath_split pagemap virt size, lowest]
  exact ⟨pagePath virt 1 (size.level - 1), by simp⟩

/-- The entry for a page is written in the table that was looked for. -/
theorem Grown.mapped {before grown : Mmu} {pagemap : Pagemap} {virt count table : Nat}
    {size : PageSize} (growth : before.Grown grown pagemap count)
    (found : grown.follow pagemap
      (pagePath virt (size.level + 1) (pagemap.levels.count - size.level)) = some table)
    (phys flags : Nat) :
    before.Mapped (grown.setEntry table (pageIndex size.level virt)
      (leafEntry phys (flags ||| 1) size)) pagemap virt size.level
      (leafEntry phys (flags ||| 1) size) count := by
  have levels := level_bounds pagemap.levels size
  have depth : (pagePath virt (size.level + 1) (pagemap.levels.count - size.level)).length +
      size.level = pagemap.levels.count := by
    rw [pagePath_length]
    omega
  have final := leafEntry_final phys (flags ||| 1) size
  constructor
  · exact growth.wellFormed.setEntry depth found levels.1 levels.2.1 final
  · intro path full within
    rw [pagePrefix_eq] at within
    rcases within with ⟨later, equal⟩
    rw [List.append_assoc, List.singleton_append] at equal
    have rest : later.length + 1 = size.level := by
      rw [← equal, List.length_append, List.length_cons] at full
      omega
    have stopped := @setEntry_stop_inside grown pagemap _ table (pageIndex size.level virt) _ _
      growth.wellFormed depth found levels.1 final later rest
    rw [← equal, leaf_of_stop stopped, leafEntry_isLeaf]
    rfl
  · intro path full outside
    rw [pagePrefix_eq] at outside
    have kept := @setEntry_stop_other grown pagemap _ table (pageIndex size.level virt)
      (leafEntry phys (flags ||| 1) size) _ growth.wellFormed depth found levels.1 path full outside
    rw [Mmu.leaf, kept]
    exact growth.leaf path full
  · exact growth.supply

/-- Where nothing is mapped, `map_page` maps the page, unless the kernel has no page
left for a table. -/
theorem setPage_cases {mmu : Mmu} {pagemap : Pagemap} (virt phys flags : Nat) (size : PageSize)
    (wellFormed : mmu.WellFormed pagemap)
    (clear : mmu.leaf pagemap (pagePath virt 1 pagemap.levels.count) = none) :
    setPage pagemap virt phys flags size mmu = none ∧
      mmu.supply.length < pagemap.levels.count - size.level ∨
    ∃ after, setPage pagemap virt phys flags size mmu = some after ∧
      mmu.Mapped after pagemap virt size.level (leafEntry phys (flags ||| 1) size)
        (pagemap.levels.count - size.level) := by
  have levels := level_bounds pagemap.levels size
  have root : mmu.follow pagemap [] = some pagemap.topLevel := rfl
  rw [pagePath_split pagemap virt size, ← List.nil_append (pagePath virt _ _ ++ _)] at clear
  rcases descend_cases virt size.level (pagemap.levels.count - size.level) wellFormed root
    (pagePath_length _ _ _) (by simp; omega) levels.1 clear with none | ⟨table, grown, done⟩
  · left
    simp only [setPage, none.1]
    exact ⟨trivial, none.2⟩
  · right
    rcases done with ⟨run, growth, found⟩
    exact ⟨_, by simp only [setPage, run], growth.mapped found phys flags⟩

end Mmu

end ParanOS

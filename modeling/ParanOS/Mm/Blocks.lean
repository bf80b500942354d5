import ParanOS.Mm.ExtMem

/-! # Blocks from the top of the memory

In a tidied table the usable memory around a block lies in one entry, so the entry that
`ext_mem_alloc` finds has the highest block that fits anywhere. It gives up only where
no block fits, or where the table has no room for one more entry.
-/

namespace ParanOS.Memmap

open Foundation

/-- An aligned block of usable memory below a limit. -/
structure Fits (entries : List Entry) (size alignment limit base : Nat) : Prop where
  aligned : alignment ∣ base
  below : base + size ≤ limit
  free : ∀ address, base ≤ address → address < base + size → kinds entries address = some usable

section TopDown

variable {entries : List Entry} {count alignment : UInt64} {allowHighAllocs : Bool}

/-- An entry around a block that fits has a block at least as high. -/
theorem topBlock_of_fits (settled : Settled entries) (request : Request count alignment)
    {base : Nat} (fits : Fits entries (blockSize count alignment) alignment.toNat
      (allocLimit allowHighAllocs) base) :
    ∃ entry ∈ entries, ∃ allocBase length,
      topBlock (alignUp count alignment) alignment allowHighAllocs entry =
        some (allocBase, length) ∧ base ≤ allocBase.toNat ∧
      base + blockSize count alignment ≤ entry.base.toNat + entry.length.toNat := by
  have sizes := request.blockSize_bounds
  have full := request.full
  have joins : merges usable = true := rfl
  rcases settled.maximal.whole settled.tiles joins (Nat.lt_add_of_pos_right (by omega))
    fits.free with ⟨region, member, low, high, kind⟩
  rcases List.mem_map.mp member with ⟨entry, entryIn, rfl⟩
  have proper := settled.toSound.proper entryIn
  have properHigh := proper.high
  rw [Entry.region_low] at low
  rw [Entry.region_high] at high
  rw [Entry.region_kind] at kind
  have top : entry.topBelow allowHighAllocs ≤ entry.base.toNat + entry.length.toNat :=
    min_le_left _ _
  have above : base + blockSize count alignment ≤ entry.topBelow allowHighAllocs :=
    le_min high fits.below
  have product := Nat.div_mul_le_self
    (entry.topBelow allowHighAllocs - blockSize count alignment) alignment.toNat
  have highest : base ≤ (entry.topBelow allowHighAllocs - blockSize count alignment) /
      alignment.toNat * alignment.toNat := by
    rcases fits.aligned with ⟨factor, rfl⟩
    rw [Nat.mul_comm]
    apply Nat.mul_le_mul_right
    rw [Nat.le_div_iff_mul_le request.aligned, Nat.mul_comm]
    omega
  have exists_toNat : ∀ number < 2 ^ 64, ∃ value : UInt64, value.toNat = number :=
    fun number less => ⟨UInt64.ofNat number, UInt64.toNat_ofNat_of_lt' less⟩
  rcases exists_toNat ((entry.topBelow allowHighAllocs - blockSize count alignment) /
    alignment.toNat * alignment.toNat) (by omega) with ⟨allocBase, baseValue⟩
  rcases exists_toNat (entry.topBelow allowHighAllocs - allocBase.toNat) (by omega) with
    ⟨length, lengthValue⟩
  exact ⟨entry, entryIn, allocBase, length, (topBlock_eq_some request proper).mpr
    ⟨kind, by omega, baseValue, by omega, by omega⟩, by omega, high⟩

/-- The block that is found is the highest that fits. -/
theorem findSome_topBlock (settled : Settled entries) (request : Request count alignment)
    {allocBase length : UInt64}
    (found : entries.reverse.findSome?
      (topBlock (alignUp count alignment) alignment allowHighAllocs) = some (allocBase, length)) :
    (∃ entry ∈ entries, topBlock (alignUp count alignment) alignment allowHighAllocs entry =
      some (allocBase, length)) ∧
    ∀ base, Fits entries (blockSize count alignment) alignment.toNat
      (allocLimit allowHighAllocs) base → base ≤ allocBase.toNat := by
  rcases List.findSome?_eq_some_iff.mp found with ⟨above, entry, below, shape, block, none⟩
  have order : entries = below.reverse ++ entry :: above.reverse := by
    rw [← List.reverse_reverse entries, shape]
    simp
  refine ⟨⟨entry, order ▸ List.mem_append_right _ List.mem_cons_self, block⟩, ?_⟩
  intro base fits
  rcases topBlock_of_fits settled request fits with
    ⟨other, otherIn, otherBase, otherLength, otherBlock, highest, inside⟩
  rw [order] at otherIn
  rcases List.mem_append.mp otherIn with lower | here
  · have ordered := settled.ordered
    rw [order, regions_append] at ordered
    have before := (List.pairwise_append.mp ordered).2.2 other.region (List.mem_map_of_mem lower)
      entry.region List.mem_cons_self
    rw [Entry.region_high, Entry.region_low] at before
    have entryIn : entry ∈ entries := order ▸ List.mem_append_right _ List.mem_cons_self
    have low := ((topBlock_eq_some request (settled.toSound.proper entryIn)).mp block).2.2.2.1
    omega
  · rcases List.mem_cons.mp here with rfl | higher
    · rw [block, Option.some.injEq, Prod.mk.injEq] at otherBlock
      rw [otherBlock.1]
      exact highest
    · rw [none other (List.mem_reverse.mp higher)] at otherBlock
      simp at otherBlock

theorem findSome_topBlock_none (settled : Settled entries) (request : Request count alignment)
    (none : entries.reverse.findSome?
      (topBlock (alignUp count alignment) alignment allowHighAllocs) = none) {base : Nat} :
    ¬ Fits entries (blockSize count alignment) alignment.toNat (allocLimit allowHighAllocs)
      base := by
  intro fits
  rcases topBlock_of_fits settled request fits with ⟨entry, member, _, _, block, _⟩
  rw [List.findSome?_eq_none_iff.mp none entry (List.mem_reverse.mpr member)] at block
  simp at block

/-- The block of an entry fits, with the rest of the entry above it. -/
theorem fits_of_topBlock (settled : Settled entries) (request : Request count alignment)
    {entry : Entry} (member : entry ∈ entries) {allocBase length : UInt64}
    (block : topBlock (alignUp count alignment) alignment allowHighAllocs entry =
      some (allocBase, length)) :
    Fits entries (blockSize count alignment) alignment.toNat (allocLimit allowHighAllocs)
      allocBase.toNat ∧
      blockSize count alignment ≤ length.toNat ∧
      allocBase.toNat + length.toNat ≤ allocLimit allowHighAllocs ∧
      allocBase.toNat + length.toNat ≤ entry.base.toNat + entry.length.toNat ∧
      entry.base.toNat ≤ allocBase.toNat ∧ entry.type = usable := by
  rcases (topBlock_eq_some request (settled.toSound.proper member)).mp block with
    ⟨kind, long, base, low, sum⟩
  have product := Nat.div_mul_le_self
    (entry.topBelow allowHighAllocs - blockSize count alignment) alignment.toNat
  have top : entry.topBelow allowHighAllocs ≤ entry.base.toNat + entry.length.toNat :=
    min_le_left _ _
  have limit : entry.topBelow allowHighAllocs ≤ allocLimit allowHighAllocs := min_le_right _ _
  refine ⟨⟨base ▸ Nat.dvd_mul_left _ _, by omega, ?_⟩, by omega, by omega, by omega, low, kind⟩
  intro address above below
  apply settled.tiles.kindAt_eq_some.mpr
  refine ⟨entry.region, List.mem_map_of_mem member, ⟨?_, ?_⟩, kind⟩
  · rw [Entry.region_low]
    omega
  · rw [Entry.region_high]
    omega

end TopDown

/-! ## A call -/

/-- What a call that returns has done. The block may have a rest above it, which goes
with it. -/
structure Allocated (memory after : Memory) (size : Nat) (type : UInt32) (base : UInt64)
    (limit alignment : Nat) : Prop where
  settled : Settled after.memmap
  fits : Fits memory.memmap size alignment limit base.toNat
  types : ∃ top, base.toNat + size ≤ top ∧ top ≤ limit ∧
    (∀ address, base.toNat ≤ address → address < top →
      kinds memory.memmap address = some usable) ∧
    kinds after.memmap = settle (Region.paint (kinds memory.memmap) base.toNat top type)
  bytes : after.bytes = memset memory.bytes base.toNat 0 size

theorem extMemAlloc_allocated {memory after : Memory} {count alignment base : UInt64}
    {type : UInt32} {allowHighAllocs : Bool} (settled : Settled memory.memmap)
    (request : Request count alignment)
    (run : extMemAllocTypeAlignedMode memory count type alignment allowHighAllocs =
      .ok (base, after)) :
    Allocated memory after (blockSize count alignment) type base (allocLimit allowHighAllocs)
        alignment.toNat ∧
      after.convBase = memory.convBase ∧
      ∀ other, Fits memory.memmap (blockSize count alignment) alignment.toNat
        (allocLimit allowHighAllocs) other → other ≤ base.toNat := by
  rw [extMemAllocTypeAlignedMode] at run
  split at run
  · simp at run
  · split at run
    · simp at run
    · next allocBase length found =>
        rcases findSome_topBlock settled request found with ⟨⟨entry, member, block⟩, highest⟩
        rcases fits_of_topBlock settled request member block with
          ⟨fits, long, limit, inside, low, kind⟩
        have proper := settled.toSound.proper member
        have high := proper.high
        have sizes := request.blockSize_bounds
        have full := request.full
        rw [memmapAllocRange] at run
        split at run
        · simp at run
        · next taken painted paints =>
            split at paints
            · simp at paints
            · next tookIn table ran =>
                rw [Except.ok.injEq, Prod.mk.injEq] at paints
                rcases paints with ⟨rfl, rfl⟩
                split at run
                · simp at run
                · next tidied tidy =>
                    rw [Except.ok.injEq, Prod.mk.injEq] at run
                    rcases run with ⟨rfl, rfl⟩
                    rcases memmapAllocRangeIn_spec settled (by omega) ran with
                      ⟨_, untaken, loud⟩ | ⟨_, _, _, tableSettled, types⟩
                    · cases tookIn with
                      | true =>
                          rcases untaken rfl with none | simulated
                          · rw [none] at long
                            change _ ≤ 0 at long
                            omega
                          · simp at simulated
                      | false => simp at loud
                    · rcases sanitise_settle tableSettled.toSound tidy with
                        ⟨tidySettled, _, same⟩
                      rw [tableSettled.settle_kinds] at same
                      refine ⟨⟨tidySettled, fits, ⟨_, Nat.add_le_add_left long _, limit, ?_,
                        same.trans types⟩, ?_⟩, rfl, highest⟩
                      · intro address above below
                        apply settled.tiles.kindAt_eq_some.mpr
                        refine ⟨entry.region, List.mem_map_of_mem member, ⟨?_, ?_⟩, kind⟩
                        · rw [Entry.region_low]
                          omega
                        · rw [Entry.region_high]
                          omega
                      · rw [request.toNat_alignUp]

/-- A call gives the highest block that fits, finds that none does, or has no room in the
table. -/
theorem extMemAlloc_ends {memory : Memory} {count alignment : UInt64} {type : UInt32}
    {allowHighAllocs : Bool} (settled : Settled memory.memmap)
    (allowed : memory.allocationsDisallowed = false) (request : Request count alignment) :
    (∃ base after, extMemAllocTypeAlignedMode memory count type alignment allowHighAllocs =
      .ok (base, after)) ∨
    extMemAllocTypeAlignedMode memory count type alignment allowHighAllocs =
        .error (.panic "High memory allocator: Out of memory") ∧
      (∀ base, ¬ Fits memory.memmap (blockSize count alignment) alignment.toNat
        (allocLimit allowHighAllocs) base) ∨
    extMemAllocTypeAlignedMode memory count type alignment allowHighAllocs =
        .error (.panic "Memory map exhausted.") ∧
      memmapMaxEntries < memory.memmap.length + 2 := by
  rw [extMemAllocTypeAlignedMode, allowed, if_neg Bool.false_ne_true]
  cases found : memory.memmap.reverse.findSome?
      (topBlock (alignUp count alignment) alignment allowHighAllocs) with
  | none =>
      exact Or.inr (Or.inl ⟨rfl, fun _ => findSome_topBlock_none settled request found⟩)
  | some block =>
      rcases block with ⟨allocBase, length⟩
      rcases findSome_topBlock settled request found with ⟨⟨entry, member, block⟩, _⟩
      rcases fits_of_topBlock settled request member block with
        ⟨fits, long, limit, inside, low, kind⟩
      have proper := settled.toSound.proper member
      have high := proper.high
      have sizes := request.blockSize_bounds
      have full := request.full
      have range : Range allocBase length := ⟨by omega, by omega⟩
      have holds : memory.memmap.any (Entry.holds allocBase length usable) = true := by
        apply List.any_eq_true.mpr
        refine ⟨entry, member, ?_⟩
        rw [Entry.holds, decide_eq_true_eq]
        refine ⟨Or.inr kind, UInt64.le_iff_toNat_le.mpr low, ?_, ?_⟩
        · rw [UInt64.lt_iff_toNat_lt, Entry.top, proper.toNat_top]
          omega
        · rw [UInt64.le_iff_toNat_le, Entry.top, proper.toNat_top, range.toNat_top]
          exact inside
      have stays : 0x1000 ≤ allocBase.toNat := by
        by_contra below
        exact settled.firstPage _ (Nat.not_le.mp below)
          (fits.free _ (Nat.le_refl _) (Nat.lt_add_of_pos_right (by omega)))
      have nonzero : length ≠ 0 := by
        intro none
        rw [none] at long
        change _ ≤ 0 at long
        omega
      dsimp only
      rw [memmapAllocRange, memmapAllocRangeIn, if_neg nonzero, Bool.false_and,
        if_neg Bool.false_ne_true, if_pos holds, if_neg Bool.false_ne_true]
      rcases newAndSanitise_ends settled.toSound range (fun _ => stays) with
        ⟨table, ran⟩ | ⟨failed, much⟩
      · rcases newAndSanitise_spec settled.toSound range ran with ⟨_, tableSettled, types⟩
        have painted : Region.paint (kinds memory.memmap) allocBase.toNat
            (allocBase.toNat + length.toNat) type allocBase.toNat = some type :=
          if_pos ⟨Nat.le_refl _, by omega⟩
        have left : kinds table allocBase.toNat = some type := by
          rw [types, settle, painted, if_neg]
          exact fun both => absurd stays (Nat.not_le.mpr both.2)
        rcases sanitise_total tableSettled.toSound left (fun _ => stays) with ⟨tidied, tidy⟩
        left
        rw [ran]
        dsimp only
        rw [tidy]
        exact ⟨_, _, rfl⟩
      · rw [failed]
        exact Or.inr (Or.inr ⟨rfl, much⟩)

/-- A usable entry of nine pages, and a reserved one. -/
def smallMemory : Memory :=
  ⟨[⟨0x1000, 0x9000, 1⟩, ⟨0xF0000, 0x10000, 2⟩], fun _ => 7, false, 0x1000⟩

theorem smallMemory_settled : Settled smallMemory.memmap := by
  apply Settled.of_entries
  · unfold Region.Ordered
    decide
  · decide
  · decide
  · unfold Region.Maximal
    decide
  · decide

end ParanOS.Memmap

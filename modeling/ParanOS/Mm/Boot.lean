import ParanOS.Mm.ExtMem

/-! # The memory map at boot

`init_memmap` copies the map of the BIOS, without the area below 1 MiB that belongs to
it, tidies the table and keeps the range of the loader from being handed out.
-/

namespace ParanOS.Memmap

open Foundation

/-! ## The code -/

/-- What an entry of the BIOS puts into the table. The variable `top` is that of the
entry before it is cut. -/
def belowEbda (ebda : UInt64) (entry : Entry) : Option Entry :=
  let top := entry.base + entry.length
  if entry.type ≠ usable then some entry
  else if entry.base ≥ ebda ∧ entry.base < 0x100000 ∧ top ≤ 0x100000 then none
  else
    let raised := if entry.base ≥ ebda ∧ entry.base < 0x100000 then
        { entry with base := 0x100000, length := entry.length - (0x100000 - entry.base) }
      else entry
    if top > ebda ∧ top ≤ 0x100000 then
      some { raised with length := raised.length - (top - ebda) }
    else some raised

/-- The loop over the entries of the BIOS. -/
def copyE820 (ebda : UInt64) : (memmap e820 : List Entry) → Except Fault (List Entry)
  | memmap, [] => .ok memmap
  | memmap, entry :: rest =>
      if memmap.length = memmapMaxEntries then .error (.panic "Memory map exhausted.")
      else
        match belowEbda ebda entry with
        | none => copyE820 ebda memmap rest
        | some entry => copyE820 ebda (memmap ++ [entry]) rest

/-- The types that count as memory for the kernel. -/
def isCounted (type : UInt32) : Bool :=
  type = usable || type = bootloaderReclaimable || type = kernelAndModules || type = 0x1002 ||
    type = 0x2000

/-- The memory after `init_memmap`, and the pages for `pmm_set_boot_total_pages`. -/
def initMemmap (ebda bssEnd : UInt64) (e820 : List Entry) (bytes : Nat → UInt8) :
    Except Fault (Memory × UInt32) :=
  match copyE820 ebda [] e820 with
  | .error fault => .error fault
  | .ok copied =>
      match pmmSanitiseEntries false copied with
      | .error fault => .error fault
      | .ok tidied =>
          match memmapAllocRangeIn tidied 4096 (alignUp bssEnd 4096 - 4096) bootloaderReclaimable
              0 true false false with
          | .error fault => .error fault
          | .ok (_, reserved) =>
              match pmmSanitiseEntries false reserved with
              | .error fault => .error fault
              | .ok memmap =>
                  let total := memmap.foldl (fun total entry =>
                    if isCounted entry.type then total + entry.length else total) 0
                  .ok (⟨memmap, bytes, false, 4096⟩, (total / 4096).toUInt32)

/-! ## What is left of the map of the BIOS -/

/-- The addresses of an entry that `init_memmap` copies. A usable entry that begins below the
area of the BIOS and ends above 1 MiB is copied whole. -/
def Entry.Copied (ebda : UInt64) (entry : Entry) (address : Nat) : Prop :=
  entry.type = usable → ebda.toNat ≤ address → address < 0x100000 →
    entry.base.toNat < ebda.toNat ∧ 0x100000 < entry.base.toNat + entry.length.toNat

theorem belowEbda_parts {ebda : UInt64} {entry : Entry} (proper : entry.Proper)
    (low : ebda.toNat < 0x100000) :
    Region.Parts entry.region (regions (belowEbda ebda entry).toList)
      (entry.Copied ebda) := by
  have full := proper.full
  have high := proper.high
  have top := proper.toNat_top
  have mega : (0x100000 : UInt64).toNat = 1048576 := rfl
  have single : ∀ {kept : Entry}, kept.type = entry.type →
      entry.base.toNat ≤ kept.base.toNat → 0 < kept.length.toNat →
      kept.base.toNat + kept.length.toNat ≤ entry.base.toNat + entry.length.toNat →
      (∀ address, entry.region.Covers address →
        (kept.region.Covers address ↔ entry.Copied ebda address)) →
      Region.Parts entry.region (regions [kept]) (entry.Copied ebda) := by
    intro kept kind after some before same
    constructor
    · exact ⟨fun region member => by
        rw [List.mem_singleton.mp member]
        exact Nat.lt_add_of_pos_right some, List.pairwise_singleton _ _⟩
    · intro part member
      rw [List.mem_singleton.mp member, Entry.region_kind, kind, Entry.region_kind]
    · intro part member address covers
      rw [List.mem_singleton.mp member] at covers
      exact ⟨after.trans covers.1, covers.2.trans_le before⟩
    · intro address covers
      rw [← same address covers]
      simp
  have raises : entry.base ≥ ebda ∧ entry.base < 0x100000 ↔
      ebda.toNat ≤ entry.base.toNat ∧ entry.base.toNat < 1048576 := by
    rw [ge_iff_le, UInt64.le_iff_toNat_le, UInt64.lt_iff_toNat_lt, mega]
  have topLe : entry.base + entry.length ≤ 0x100000 ↔
      entry.base.toNat + entry.length.toNat ≤ 1048576 := by
    rw [UInt64.le_iff_toNat_le, top, mega]
  have topGt : entry.base + entry.length > ebda ↔
      ebda.toNat < entry.base.toNat + entry.length.toNat := by
    rw [gt_iff_lt, UInt64.lt_iff_toNat_lt, top]
  rw [belowEbda]
  dsimp only
  by_cases kind : entry.type = usable
  · have copied : ∀ address, entry.Copied ebda address ↔
        (ebda.toNat ≤ address → address < 1048576 →
          entry.base.toNat < ebda.toNat ∧ 1048576 < entry.base.toNat + entry.length.toNat) :=
      fun address => ⟨fun keeps => keeps kind, fun keeps _ => keeps⟩
    rw [if_neg (not_not.mpr kind)]
    by_cases raise : entry.base ≥ ebda ∧ entry.base < 0x100000
    · have raised := raises.mp raise
      split
      · next inside =>
          have short := topLe.mp inside.2.2
          apply Region.Parts.none
          rintro address ⟨above, below⟩ keeps
          rw [Entry.region_low] at above
          rw [Entry.region_high] at below
          have kept := (copied address).mp keeps (by omega) (by omega)
          omega
      · next outside =>
          have long : ¬ entry.base + entry.length ≤ 0x100000 :=
            fun short => outside ⟨raise.1, raise.2, short⟩
          have beyond := Nat.not_le.mp fun short => long (topLe.mpr short)
          rw [if_neg fun both => long both.2]
          have length : (entry.length - (0x100000 - entry.base)).toNat =
              entry.length.toNat - (1048576 - entry.base.toNat) := by
            have shift : (0x100000 - entry.base).toNat = 1048576 - entry.base.toNat :=
              UInt64.toNat_sub_of_le _ _ (UInt64.lt_iff_toNat_lt.mp raise.2).le
            rw [UInt64.toNat_sub_of_le _ _ (UInt64.le_iff_toNat_le.mpr (by omega)), shift]
          apply single
          · rfl
          · dsimp only
            omega
          · dsimp only
            omega
          · dsimp only
            omega
          · rintro address ⟨above, below⟩
            rw [Entry.region_low] at above
            rw [Entry.region_high] at below
            rw [copied, Region.Covers, Entry.region_low, Entry.region_high]
            dsimp only
            omega
    · have kept : ¬ (ebda.toNat ≤ entry.base.toNat ∧ entry.base.toNat < 1048576) :=
        fun both => raise (raises.mpr both)
      rw [if_neg fun both => raise ⟨both.1, both.2.1⟩, if_neg raise]
      split
      · next cut =>
          have beyond := topGt.mp cut.1
          have under := topLe.mp cut.2
          have length : (entry.length - (entry.base + entry.length - ebda)).toNat =
              ebda.toNat - entry.base.toNat := by
            have shift : (entry.base + entry.length - ebda).toNat =
                entry.base.toNat + entry.length.toNat - ebda.toNat := by
              rw [UInt64.toNat_sub_of_le _ _ (UInt64.le_iff_toNat_le.mpr (by omega)), top]
            rw [UInt64.toNat_sub_of_le _ _ (UInt64.le_iff_toNat_le.mpr (by omega)), shift]
            omega
          apply single
          · rfl
          · exact Nat.le_refl _
          · dsimp only
            omega
          · dsimp only
            omega
          · rintro address ⟨above, below⟩
            rw [Entry.region_low] at above
            rw [Entry.region_high] at below
            rw [copied, Region.Covers, Entry.region_low, Entry.region_high]
            dsimp only
            omega
      · next uncut =>
          have apart : ¬ (ebda.toNat < entry.base.toNat + entry.length.toNat ∧
              entry.base.toNat + entry.length.toNat ≤ 1048576) :=
            fun both => uncut ⟨topGt.mpr both.1, topLe.mpr both.2⟩
          apply Region.Parts.whole (Nat.lt_add_of_pos_right full)
          rintro address ⟨above, below⟩
          rw [Entry.region_low] at above
          rw [Entry.region_high] at below
          rw [copied]
          omega
  · rw [if_pos kind]
    exact Region.Parts.whole (Nat.lt_add_of_pos_right full) fun _ _ free => absurd free kind

theorem copyE820_eq {ebda : UInt64} {memmap e820 result : List Entry}
    (run : copyE820 ebda memmap e820 = .ok result) :
    result = memmap ++ e820.filterMap (belowEbda ebda) ∧
      (memmap.length ≤ memmapMaxEntries → result.length ≤ memmapMaxEntries) := by
  induction e820 generalizing memmap with
  | nil =>
      rw [copyE820, Except.ok.injEq] at run
      subst run
      exact ⟨(List.append_nil _).symm, fun room => room⟩
  | cons entry rest induction =>
      rw [copyE820] at run
      split at run
      · simp at run
      · next room =>
          cases shape : belowEbda ebda entry with
          | none =>
              rw [shape] at run
              rw [List.filterMap_cons_none shape]
              exact induction run
          | some kept =>
              rw [shape] at run
              rw [List.filterMap_cons_some shape]
              rcases induction run with ⟨same, fits⟩
              refine ⟨same.trans (List.append_cons memmap kept _).symm, fun less => fits ?_⟩
              rw [List.length_append, List.length_singleton]
              omega

/-- The table that is copied has the kinds of the map of the BIOS outside its area. -/
theorem copyE820_sound {ebda : UInt64} {e820 result : List Entry} (low : ebda.toNat < 0x100000)
    (tiles : Region.Tiles (regions e820)) (high : ∀ region ∈ regions e820, region.high < 2 ^ 63)
    (run : copyE820 ebda [] e820 = .ok result) :
    Sound result ∧ ∀ address kind, kinds result address = some kind ↔
      ∃ entry ∈ e820, entry.region.Covers address ∧ entry.type = kind ∧
        entry.Copied ebda address := by
  rcases copyE820_eq run with ⟨same, room⟩
  rw [List.nil_append] at same
  have shape : regions result =
      e820.flatMap fun entry => regions (belowEbda ebda entry).toList := by
    rw [same, regions, List.filterMap_eq_flatMap_toList, List.map_flatMap]
    rfl
  have proper : ∀ entry ∈ e820, entry.Proper := by
    intro entry member
    have full := tiles.full _ (List.mem_map_of_mem member)
    rw [Entry.region_low, Entry.region_high] at full
    exact ⟨by omega, high _ (List.mem_map_of_mem member)⟩
  have parts : ∀ entry ∈ e820, Region.Parts entry.region
      (regions (belowEbda ebda entry).toList) (entry.Copied ebda) :=
    fun entry member => belowEbda_parts (proper entry member) low
  refine ⟨⟨?_, ?_, room (Nat.zero_le _)⟩, ?_⟩
  · rw [shape]
    exact tiles.flatMap parts
  · rw [shape]
    intro region member
    rcases List.mem_flatMap.mp member with ⟨entry, entryIn, piece⟩
    have full := (parts entry entryIn).tiles.full region piece
    have last := (parts entry entryIn).inside region piece (region.high - 1)
      ⟨by omega, by omega⟩
    have bound := high _ (List.mem_map_of_mem entryIn)
    have before := last.2
    omega
  · intro address kind
    rw [kinds, shape]
    exact tiles.kindAt_flatMap parts

/-- At boot each address has the type that the BIOS gives it: the range of the loader is not
handed out, and neither is usable memory in the first page or in the area of the BIOS. -/
theorem initMemmap_types {ebda bssEnd : UInt64} {e820 : List Entry} {bytes : Nat → UInt8}
    {memory : Memory} {pages : UInt32} (low : ebda.toNat < 0x100000)
    (loader : 4096 ≤ bssEnd.toNat ∧ bssEnd.toNat < 2 ^ 62)
    (tiles : Region.Tiles (regions e820)) (high : ∀ region ∈ regions e820, region.high < 2 ^ 63)
    (run : initMemmap ebda bssEnd e820 bytes = .ok (memory, pages)) :
    Settled memory.memmap ∧ memory.allocationsDisallowed = false ∧
      ∀ address kind, kinds memory.memmap address = some kind ↔
        if 4096 ≤ address ∧ address < (bssEnd.toNat + 4095) / 4096 * 4096 then
          kind = bootloaderReclaimable
        else ∃ entry ∈ e820, entry.region.Covers address ∧ entry.type = kind ∧
          entry.Copied ebda address ∧ (kind = usable → 0x1000 ≤ address) := by
  have page : (4096 : UInt64).toNat = 4096 := rfl
  have aligned : (alignUp bssEnd 4096).toNat = (bssEnd.toNat + 4095) / 4096 * 4096 :=
    toNat_alignUp_page (by omega)
  have length : (alignUp bssEnd 4096 - 4096).toNat =
      (bssEnd.toNat + 4095) / 4096 * 4096 - 4096 := by
    rw [UInt64.toNat_sub_of_le _ _ (UInt64.le_iff_toNat_le.mpr (by omega)), aligned, page]
  rw [initMemmap] at run
  split at run
  · simp at run
  · next copied copies =>
      split at run
      · simp at run
      · next tidied tidies =>
          split at run
          · simp at run
          · next taken reserved reserves =>
              split at run
              · simp at run
              · next memmap settles =>
                  rw [Except.ok.injEq, Prod.mk.injEq] at run
                  rw [← run.1]
                  rcases copyE820_sound low tiles high copies with ⟨copiedSound, types⟩
                  rcases sanitise_settle copiedSound tidies with ⟨tidiedSettled, _, tidiedTypes⟩
                  have bound : (4096 : UInt64).toNat + (alignUp bssEnd 4096 - 4096).toNat <
                      2 ^ 63 := by
                    rw [length]
                    omega
                  have found : Settled reserved ∧ ∀ address, kinds reserved address =
                      if 4096 ≤ address ∧ address < (bssEnd.toNat + 4095) / 4096 * 4096 then
                        some bootloaderReclaimable
                      else kinds tidied address := by
                    rcases memmapAllocRangeIn_spec tidiedSettled bound reserves with
                      ⟨rfl, untaken, loud⟩ | ⟨_, _, _, reservedSettled, paints⟩
                    · refine ⟨tidiedSettled, fun address => ?_⟩
                      rw [if_neg]
                      rintro ⟨above, below⟩
                      cases taken with
                      | false => simp at loud
                      | true =>
                          rcases untaken rfl with none | simulated
                          · rw [none] at length
                            change 0 = _ at length
                            omega
                          · simp at simulated
                    · refine ⟨reservedSettled, fun address => ?_⟩
                      rw [paints]
                      have top : (4096 : UInt64).toNat + (alignUp bssEnd 4096 - 4096).toNat =
                          (bssEnd.toNat + 4095) / 4096 * 4096 := by
                        rw [length]
                        omega
                      rw [top, page]
                      by_cases inside : 4096 ≤ address ∧
                          address < (bssEnd.toNat + 4095) / 4096 * 4096
                      · rw [if_pos inside]
                        exact settle_paint_inside inside fun _ => inside.1
                      · rw [if_neg inside, settle_paint_outside inside,
                          tidiedSettled.settle_kinds]
                  rcases sanitise_settle found.1.toSound settles with ⟨settled, _, last⟩
                  refine ⟨settled, rfl, ?_⟩
                  intro address kind
                  dsimp only
                  rw [last, found.1.settle_kinds, found.2]
                  split
                  · rw [Option.some.injEq]
                    exact eq_comm
                  · rw [tidiedTypes, settle_eq_some, types]
                    constructor
                    · rintro ⟨⟨entry, member, covers, kinds, kept⟩, stays⟩
                      exact ⟨entry, member, covers, kinds, kept, stays⟩
                    · rintro ⟨entry, member, covers, kinds, kept, stays⟩
                      exact ⟨⟨entry, member, covers, kinds, kept⟩, stays⟩

/-- A map with the area of the BIOS from 0x9F000 on, and a loader that ends at 0x4800. -/
theorem initMemmap_types_small : ∃ memory pages,
    initMemmap 0x9F000 0x4800 [⟨0, 0x9FC00, 1⟩, ⟨0xF0000, 0x10000, 2⟩, ⟨0x100000, 0x100000, 1⟩]
        (fun _ => 0) = .ok (memory, pages) ∧
      memory.memmap = [⟨0x1000, 0x4000, 0x1000⟩, ⟨0x5000, 0x9A000, 1⟩, ⟨0xF0000, 0x10000, 2⟩,
        ⟨0x100000, 0x100000, 1⟩] ∧ Settled memory.memmap := by
  have tiles : Region.Tiles (regions
      [⟨0, 0x9FC00, 1⟩, ⟨0xF0000, 0x10000, 2⟩, ⟨0x100000, 0x100000, 1⟩]) := by
    apply Region.Ordered.tiles
    · unfold Region.Ordered
      decide
    · decide
  have high : ∀ region ∈ regions
      [⟨0, 0x9FC00, 1⟩, ⟨0xF0000, 0x10000, 2⟩, ⟨0x100000, 0x100000, 1⟩],
      region.high < 2 ^ 63 := by decide
  have low : (0x9F000 : UInt64).toNat < 0x100000 := by decide
  have loader : 4096 ≤ (0x4800 : UInt64).toNat ∧ (0x4800 : UInt64).toNat < 2 ^ 62 := by decide
  refine ⟨_, _, rfl, rfl, ?_⟩
  exact (initMemmap_types low loader tiles high rfl).1

end ParanOS.Memmap

import ParanOS.Fat.Table

/-! # The table as an array of 28-bit cells

Reading and writing single entries, for every volume with sectors of 512 bytes and without an
assumption about where the table lies. All 2^28 entries fill 2^21 sectors, so two sectors of
the table have different addresses also where the addresses wrap around.
-/

namespace ParanOS

open Foundation

/-- All 32 bits of the entry that `fat_read_fat_entry` reads. -/
def fatRawEntry (v : Vol) (sectors : Nat → Buffer) (clus : Nat) : Nat :=
  (sectors (fatSector v clus)).getU32 (fatEntOff v clus)

section

variable {v : Vol} (size : v.bytesPerSec = 512) {clus other : Nat} (small : clus < 268435456)
  (small' : other < 268435456)
include size

theorem Vol.table_apart : v.table.Apart 268435456 := by
  have bytes : v.table.size = 512 := size
  constructor
  · rw [bytes]
    decide
  · intro index below other below' same
    have address (sector : Nat) : v.table.lba sector = (v.fatLba + sector) % 4294967296 := rfl
    rw [Cells.place, Cells.place, bytes, address, address] at same
    rw [bytes]
    omega

include small

omit size in
theorem fatRawEntry_eq (sectors : Nat → Buffer) :
    fatRawEntry v sectors clus = v.table.get sectors clus := by
  rcases fatSector_eq_place v (show clus < 1073741824 by omega) with ⟨sector, offset⟩
  rw [fatRawEntry, sector, offset]
  rfl

include small'

/-- The entries after one has been written: that one has the low 28 bits of the value, and the
others have what they had. -/
theorem fatEntry_setFatEntry (sectors : Nat → Buffer) (val : Nat) :
    fatEntry v (setFatEntry v sectors clus val) other =
      if other = clus then val % 268435456 else fatEntry v sectors other := by
  rw [setFatEntry_eq_set v (by omega), fatEntry_eq_get v (by omega), fatEntry_eq_get v (by omega)]
  by_cases same : other = clus
  · have bound : v.table.get sectors clus < 4294967296 := Buffer.getU32_lt _ _
    rw [if_pos same, same, Cells.get_set_same]
    omega
  · rw [if_neg same, Cells.get_set_other (Vol.table_apart size) small small' same]

/-- The four bits above them are kept in all entries. -/
theorem fatRawEntry_setFatEntry (sectors : Nat → Buffer) (val : Nat) :
    fatRawEntry v (setFatEntry v sectors clus val) other / 268435456 =
      fatRawEntry v sectors other / 268435456 := by
  rw [setFatEntry_eq_set v (by omega), fatRawEntry_eq small', fatRawEntry_eq small']
  by_cases same : other = clus
  · have bound : v.table.get sectors clus < 4294967296 := Buffer.getU32_lt _ _
    rw [same, Cells.get_set_same]
    omega
  · rw [Cells.get_set_other (Vol.table_apart size) small small' same]

end

/-- Whichever calls fail, there is at most one write call, and only the sector of the entry can
change. -/
theorem fatWriteFatEntry_confined {v : Vol} {clus val : Nat} {device device' : Device} {code : Int}
    (ran : fatWriteFatEntry v clus val device = some (code, device')) :
    (∀ lba, lba ≠ fatSector v clus → device'.sectors lba = device.sectors lba) ∧
      (device'.writeFaults = device.writeFaults ∨
        device'.writeFaults = fun call => device.writeFaults (call + 1)) := by
  rw [fatWriteFatEntry, DiskM.bind_apply, rd, Option.bind_some] at ran
  by_cases unread : device.readFaults 0 = true
  · simp only [if_pos unread, DiskM.pure_apply, Option.some.injEq, Prod.mk.injEq] at ran
    rw [← ran.2]
    exact ⟨fun _ _ => rfl, .inl rfl⟩
  · simp only [if_neg unread, DiskM.bind_apply, wr, Option.bind_some, DiskM.ite_apply] at ran
    by_cases unwritten : device.writeFaults 0 = true
    · simp only [if_pos unwritten, DiskM.pure_apply, Option.some.injEq, Prod.mk.injEq] at ran
      rw [← ran.2]
      exact ⟨fun _ _ => rfl, .inr rfl⟩
    · simp only [if_neg unwritten, DiskM.pure_apply, Option.some.injEq, Prod.mk.injEq] at ran
      rw [← ran.2]
      refine ⟨?_, .inr rfl⟩
      intro lba different
      rw [u32_fatSector]
      exact store_other different

theorem fatRawEntry_and_topBits (v : Vol) (sectors : Nat → Buffer) (clus : Nat) :
    fatRawEntry v sectors clus &&& 0xF0000000 =
      fatRawEntry v sectors clus / 268435456 * 268435456 :=
  @and_highMask _ 28 32 (Buffer.getU32_lt _ _) (by omega)

/-- What is written into an entry is read from it, up to its upper four bits, and nothing else
changes: no other entry, no upper bits, no other sector. There is at most one write call. -/
theorem fatWriteFatEntry_cell {v : Vol} (size : v.bytesPerSec = 512) {clus : Nat}
    (small : clus < 268435456) (val : Nat) (sectors : Nat → Buffer) :
    ∃ sectors', fatWriteFatEntry v clus val (Device.healthy sectors) =
        some (0, Device.healthy sectors') ∧
      fatReadFatEntry v clus (Device.healthy sectors') =
        some (val &&& 0x0FFFFFFF, Device.healthy sectors') ∧
      (∀ other < 268435456, other ≠ clus → ∃ value,
        fatReadFatEntry v other (Device.healthy sectors) =
          some (value, Device.healthy sectors) ∧
        fatReadFatEntry v other (Device.healthy sectors') =
          some (value, Device.healthy sectors')) ∧
      (∀ other < 268435456, fatRawEntry v sectors' other &&& 0xF0000000 =
        fatRawEntry v sectors other &&& 0xF0000000) ∧
      (∀ lba, lba ≠ fatSector v clus → sectors' lba = sectors lba) ∧
      ∀ device code device', fatWriteFatEntry v clus val device = some (code, device') →
        device'.writeFaults = device.writeFaults ∨
          device'.writeFaults = fun call => device.writeFaults (call + 1) := by
  have written := fatWriteFatEntry_healthy v clus val sectors
  refine ⟨setFatEntry v sectors clus val, written, ?_, ?_, ?_, ?_, ?_⟩
  · have masked : val &&& 0x0FFFFFFF = val % 268435456 := and_lowMask val 28
    rw [fatReadFatEntry_healthy, fatEntry_setFatEntry size small small, if_pos rfl, masked]
  · intro other small' different
    refine ⟨fatEntry v sectors other, fatReadFatEntry_healthy v other sectors, ?_⟩
    rw [fatReadFatEntry_healthy, fatEntry_setFatEntry size small small', if_neg different]
  · intro other small'
    rw [fatRawEntry_and_topBits, fatRawEntry_and_topBits,
      fatRawEntry_setFatEntry size small small']
  · exact (fatWriteFatEntry_confined written).1
  · intro device code device' ran
    exact (fatWriteFatEntry_confined ran).2

theorem fatWriteFatEntry_cell_last :
    ∃ sectors', fatReadFatEntry ⟨.fat32, 512, 8, 32, 2, 2097152, 2, 4194336, 32, 1000000, 0, 0, 0,
        0, 0, 0, 0, 0⟩ 0x0FFFFFFF (Device.healthy sectors') =
      some (0x0FFFFFF7, Device.healthy sectors') := by
  rcases @fatWriteFatEntry_cell ⟨.fat32, 512, 8, 32, 2, 2097152, 2, 4194336, 32, 1000000, 0, 0, 0,
    0, 0, 0, 0, 0⟩ rfl 0x0FFFFFFF (by decide) 0xFFFFFFF7 fun _ _ => 0xA5 with ⟨sectors', _, read, _⟩
  exact ⟨sectors', read⟩

end ParanOS

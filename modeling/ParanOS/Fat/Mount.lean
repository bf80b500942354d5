import ParanOS.Fat.Volume

/-! # What mounting checks

`fat32_mount` reads one sector and decides from it. The results below say for
which boot sectors it returns 0 and what the stored geometry is then good for.
-/

namespace ParanOS

open Foundation

/-! ## Boot sectors without the exFAT name -/

def IsPowerOfTwo (value : Nat) : Prop := ∃ exponent, value = 2 ^ exponent

/-- A FAT32 BIOS parameter block with a geometry that the FAT32 layout
allows. -/
structure UsableBpb (sec : Buffer) : Prop where
  sectorSize : IsPowerOfTwo (sec.getU16 11) ∧ 512 ≤ sec.getU16 11 ∧ sec.getU16 11 ≤ 4096
  clusterSize : IsPowerOfTwo (sec 13).toNat
  reserved : 1 ≤ sec.getU16 14
  tables : 1 ≤ (sec 16).toNat
  noFat16Table : sec.getU16 22 = 0
  noFixedRoot : sec.getU16 17 = 0
  tableSize : 1 ≤ sec.getU32 36
  root : 2 ≤ sec.getU32 44
  sectors : sec.getU16 14 + (sec 16).toNat * sec.getU32 36 ≤
    if sec.getU32 32 ≠ 0 then sec.getU32 32 else sec.getU16 19

/-- Without the exFAT name, mounting succeeds exactly when the sector size is
between 1 and 4096 and a cluster has at least one sector; the other fields are
stored as they are found. -/
theorem fat32Mount_succeeds_iff (v : Vol) (partLbaStart : Nat)
    (sectors : Nat → Buffer)
    (unnamed : (sectors (u32 partLbaStart)).bytes 3 8 ≠ exfatName) :
    ∃ code vol, fat32Mount v partLbaStart (Device.healthy sectors) =
        some ((code, vol), Device.healthy sectors) ∧
      (code = 0 ∨ code = -3) ∧
      (code = 0 ↔ 1 ≤ (sectors (u32 partLbaStart) 13).toNat ∧
        1 ≤ (sectors (u32 partLbaStart)).getU16 11 ∧
        (sectors (u32 partLbaStart)).getU16 11 ≤ 4096) ∧
      vol.secPerClus = (sectors (u32 partLbaStart) 13).toNat ∧
      vol.bytesPerSec = (sectors (u32 partLbaStart)).getU16 11 := by
  have mounted := fat32Mount_healthy v partLbaStart sectors
  rw [if_neg unnamed] at mounted
  exact ⟨_, _, mounted, mountFat32_code_cases v _ partLbaStart,
    mountFat32_code v _ partLbaStart, mountFat32_fields v _ partLbaStart⟩

/-- A FAT16 boot sector: 512-byte sectors, four per cluster, a fixed root
directory of 512 entries and a 16-bit table size of 32. -/
def fat16BootSector : Buffer
  | 12 => 2
  | 13 => 4
  | 14 => 1
  | 16 => 2
  | 18 => 2
  | 20 => 0x80
  | 21 => 0xF8
  | 22 => 32
  | 510 => 0x55
  | 511 => 0xAA
  | _ => 0

def blankVol : Vol where
  fsType := .fat32
  bytesPerSec := 0
  secPerClus := 0
  rsvdSecCnt := 0
  numFats := 0
  fatSz32 := 0
  rootClus := 0
  firstDataLba := 0
  fatLba := 0
  totSec32 := 0
  partLbaStart := 0
  exfatFatLength := 0
  exfatHeapOffset := 0
  exfatClusterCount := 0
  exfatBitmapClus := 0
  exfatBitmapSize := 0
  exfatBpsShift := 0
  exfatSpcShift := 0

theorem fat32Mount_succeeds_iff_fat16 :
    fat16BootSector.bytes 3 8 ≠ exfatName ∧
      ∃ code vol, fat32Mount blankVol 0 (Device.healthy fun _ => fat16BootSector) =
          some ((code, vol), Device.healthy fun _ => fat16BootSector) ∧
        (code = 0 ∨ code = -3) ∧
        (code = 0 ↔ 1 ≤ (fat16BootSector 13).toNat ∧ 1 ≤ fat16BootSector.getU16 11 ∧
          fat16BootSector.getU16 11 ≤ 4096) ∧
        vol.secPerClus = (fat16BootSector 13).toNat ∧
        vol.bytesPerSec = fat16BootSector.getU16 11 := by
  refine ⟨by decide, ?_⟩
  exact fat32Mount_succeeds_iff blankVol 0 (fun _ => fat16BootSector) (by decide)

/-- The FAT16 volume is mounted as FAT32. -/
theorem fat32Mount_accepts_fat16 :
    ¬ ∀ (v : Vol) (partLbaStart : Nat) (sectors : Nat → Buffer) (vol : Vol),
      (sectors (u32 partLbaStart)).bytes 3 8 ≠ exfatName →
      fat32Mount v partLbaStart (Device.healthy sectors) =
        some ((0, vol), Device.healthy sectors) →
      UsableBpb (sectors (u32 partLbaStart)) := by
  intro claim
  have usable := claim blankVol 0 (fun _ => fat16BootSector)
    (mountFat32 blankVol fat16BootSector 0).2 (by decide) (by
      rw [fat32Mount_healthy, if_neg (by decide)]
      rfl)
  exact absurd usable.noFat16Table (by decide)

/-! ## Divisions after a successful mount -/

/-- After a successful mount the driver divides safely exactly when the volume
is FAT32, or the exFAT cluster shift stays below the width of
`sec_per_clus`. -/
theorem fat32Mount_dividesSafely_iff (v : Vol) (partLbaStart : Nat)
    (sectors : Nat → Buffer) (vol : Vol)
    (mounted : fat32Mount v partLbaStart (Device.healthy sectors) =
      some ((0, vol), Device.healthy sectors)) :
    vol.DividesSafely ↔
      ((sectors (u32 partLbaStart)).bytes 3 8 = exfatName →
        (sectors (u32 partLbaStart) 109).toNat % 32 < 8) := by
  rw [Vol.dividesSafely_iff]
  rw [fat32Mount_healthy] at mounted
  simp only [Option.some.injEq, Prod.mk.injEq, and_true] at mounted
  by_cases named : (sectors (u32 partLbaStart)).bytes 3 8 = exfatName
  · rw [if_pos named] at mounted
    have fields := mountExfat_fields v (sectors (u32 partLbaStart)) partLbaStart
    have sectorSize := mountExfat_accepts v (sectors (u32 partLbaStart)) partLbaStart
      (by rw [mounted])
    rw [mounted] at fields sectorSize
    rw [fields.1, shiftedOne_narrowed_pos]
    simp only [named, true_implies]
    exact and_iff_right sectorSize
  · rw [if_neg named] at mounted
    have fields := mountFat32_fields v (sectors (u32 partLbaStart)) partLbaStart
    have accepted := (mountFat32_code v (sectors (u32 partLbaStart)) partLbaStart).mp
      (by rw [mounted])
    rw [mounted] at fields
    dsimp only at fields
    simp only [named, false_implies, iff_true]
    omega

/-- An exFAT boot sector with 512-byte sectors and the given cluster shift. -/
def exfatBootSector (spcShift : UInt8) : Buffer
  | 3 => 0x45
  | 4 => 0x58
  | 5 => 0x46
  | 6 => 0x41
  | 7 => 0x54
  | 8 => 0x20
  | 9 => 0x20
  | 10 => 0x20
  | 108 => 9
  | 109 => spcShift
  | 110 => 1
  | _ => 0

theorem fat32Mount_dividesSafely_iff_cluster128 :
    (mountExfat blankVol (exfatBootSector 7) 0).2.DividesSafely ↔
      ((exfatBootSector 7).bytes 3 8 = exfatName →
        (exfatBootSector 7 109).toNat % 32 < 8) :=
  fat32Mount_dividesSafely_iff blankVol 0 (fun _ => exfatBootSector 7)
    (mountExfat blankVol (exfatBootSector 7) 0).2 (by
      rw [fat32Mount_healthy, if_pos (by decide)]
      rfl)

/-- With 256 sectors per cluster, `sec_per_clus` is stored as 0. -/
theorem fat32Mount_stores_zero_secPerClus :
    ¬ ∀ (v : Vol) (partLbaStart : Nat) (sectors : Nat → Buffer) (vol : Vol),
      fat32Mount v partLbaStart (Device.healthy sectors) =
        some ((0, vol), Device.healthy sectors) →
      vol.DividesSafely := by
  intro claim
  have safe := claim blankVol 0 (fun _ => exfatBootSector 8)
    (mountExfat blankVol (exfatBootSector 8) 0).2 (by
      rw [fat32Mount_healthy, if_pos (by decide)]
      rfl)
  exact absurd safe.2.1 (by decide)

end ParanOS

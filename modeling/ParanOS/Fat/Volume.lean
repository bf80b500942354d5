import ParanOS.Foundation.Device

/-! # Volumes and mounting

`fat32_vol_t` and `fat32_mount` of `fs_fat32.c`. Fields are natural numbers;
where the source narrows a value into a 8-, 16- or 32-bit field, the narrowing
is written out. Pointer arguments that the source checks against `NULL` are
always valid here.
-/

namespace ParanOS

open Foundation

inductive FsType
  | fat32
  | exfat
  deriving DecidableEq

/-- `fat32_vol_t`. -/
structure Vol where
  fsType : FsType
  bytesPerSec : Nat
  secPerClus : Nat
  rsvdSecCnt : Nat
  numFats : Nat
  fatSz32 : Nat
  rootClus : Nat
  firstDataLba : Nat
  fatLba : Nat
  totSec32 : Nat
  partLbaStart : Nat
  exfatFatLength : Nat
  exfatHeapOffset : Nat
  exfatClusterCount : Nat
  exfatBitmapClus : Nat
  exfatBitmapSize : Nat
  exfatBpsShift : Nat
  exfatSpcShift : Nat
  deriving DecidableEq

def maxSectorSize : Nat := 4096

/-- `bytes_per_sec * sec_per_clus`, the size of a cluster. -/
def Vol.clusterBytes (v : Vol) : Nat := v.bytesPerSec * v.secPerClus

/-- First sector of a cluster. The subtraction wraps for clusters 0 and 1. -/
def clusToLba (v : Vol) (clus : Nat) : Nat :=
  u32 (v.partLbaStart + v.firstDataLba +
    u32 (clus + 4294967294) * v.secPerClus)

/-! ## The boot sector -/

/-- `"EXFAT   "` at offset 3. -/
def exfatName : List UInt8 := [0x45, 0x58, 0x46, 0x41, 0x54, 0x20, 0x20, 0x20]

/-- `1u << shift`. The count is taken modulo 32, as the x86 shift does. -/
def shiftedOne (shift : Nat) : Nat := 2 ^ (shift % 32)

/-- The exFAT branch of `fat32_mount`. The reserved-sector count and the
location of the allocation bitmap keep the values they had. -/
def mountExfat (v : Vol) (sec : Buffer) (partLbaStart : Nat) : Int × Vol :=
  let bpsShift := (sec 108).toNat
  let spcShift := (sec 109).toNat
  let v := { v with
    fsType := .exfat
    exfatBpsShift := bpsShift
    exfatSpcShift := spcShift
    bytesPerSec := shiftedOne bpsShift % 65536
    secPerClus := shiftedOne spcShift % 256
    numFats := (sec 110).toNat
    fatSz32 := sec.getU32 84
    exfatFatLength := sec.getU32 84
    exfatHeapOffset := sec.getU32 88
    exfatClusterCount := sec.getU32 92
    rootClus := sec.getU32 96
    partLbaStart := partLbaStart
    fatLba := u32 (partLbaStart + sec.getU32 80)
    firstDataLba := sec.getU32 88
    totSec32 := sec.getU64 72 % 4294967296 }
  if v.bytesPerSec = 0 ∨ v.bytesPerSec > maxSectorSize then (-4, v) else (0, v)

/-- The FAT32 branch of `fat32_mount`. A missing boot signature is only
reported on the serial line. -/
def mountFat32 (v : Vol) (sec : Buffer) (partLbaStart : Nat) : Int × Vol :=
  let rsvdSecCnt := sec.getU16 14
  let numFats := (sec 16).toNat
  let fatSz32 := sec.getU32 36
  let v := { v with
    fsType := .fat32
    bytesPerSec := sec.getU16 11
    secPerClus := (sec 13).toNat
    rsvdSecCnt := rsvdSecCnt
    numFats := numFats
    fatSz32 := fatSz32
    rootClus := sec.getU32 44
    totSec32 := if sec.getU32 32 ≠ 0 then sec.getU32 32 else sec.getU16 19
    fatLba := u32 (partLbaStart + rsvdSecCnt)
    firstDataLba := u32 (rsvdSecCnt + numFats * fatSz32)
    partLbaStart := partLbaStart }
  if v.secPerClus = 0 ∨ v.bytesPerSec = 0 ∨ v.bytesPerSec > maxSectorSize then (-3, v)
  else (0, v)

def fat32Mount (v : Vol) (partLbaStart : Nat) : DiskM (Int × Vol) := do
  match ← rd partLbaStart with
  | none => pure (-2, v)
  | some sec =>
      if sec.bytes 3 8 = exfatName then pure (mountExfat v sec partLbaStart)
      else pure (mountFat32 v sec partLbaStart)

theorem fat32Mount_healthy (v : Vol) (partLbaStart : Nat) (sectors : Nat → Buffer) :
    fat32Mount v partLbaStart (Device.healthy sectors) =
      some (if (sectors (u32 partLbaStart)).bytes 3 8 = exfatName
          then mountExfat v (sectors (u32 partLbaStart)) partLbaStart
          else mountFat32 v (sectors (u32 partLbaStart)) partLbaStart,
        Device.healthy sectors) := by
  simp only [fat32Mount, DiskM.bind_apply, rd_healthy, Option.bind_some,
    DiskM.ite_apply, DiskM.pure_apply]
  split <;> rfl

/-! ## What a successful mount guarantees -/

/-- A mount that returns 0 has read the boot sector and filled in one of the two forms. -/
theorem fat32Mount_filled {v v' : Vol} {part : Nat} {device after : Device}
    (mounted : fat32Mount v part device = some ((0, v'), after)) :
    (0, v') = if (device.sectors (u32 part)).bytes 3 8 = exfatName
      then mountExfat v (device.sectors (u32 part)) part
      else mountFat32 v (device.sectors (u32 part)) part := by
  rw [fat32Mount, DiskM.bind_apply, rd, Option.bind_some] at mounted
  cases failed : device.readFaults 0 with
  | true => simp [failed] at mounted
  | false =>
      simp only [failed, Bool.false_eq_true, if_false, DiskM.ite_apply, DiskM.pure_apply]
        at mounted
      split at mounted
      · next exfat =>
          rw [if_pos exfat]
          exact (congrArg Prod.fst (Option.some.inj mounted)).symm
      · next other =>
          rw [if_neg other]
          exact (congrArg Prod.fst (Option.some.inj mounted)).symm

theorem mountFat32_code (v : Vol) (sec : Buffer) (partLbaStart : Nat) :
    (mountFat32 v sec partLbaStart).1 = 0 ↔
      1 ≤ (sec 13).toNat ∧ 1 ≤ sec.getU16 11 ∧ sec.getU16 11 ≤ maxSectorSize := by
  simp only [mountFat32]
  split
  · next refused =>
      constructor
      · intro accepted
        simp at accepted
      · omega
  · next usable =>
      constructor
      · omega
      · intro _
        rfl

theorem mountFat32_code_cases (v : Vol) (sec : Buffer) (partLbaStart : Nat) :
    (mountFat32 v sec partLbaStart).1 = 0 ∨ (mountFat32 v sec partLbaStart).1 = -3 := by
  dsimp only [mountFat32]
  by_cases refused : (sec 13).toNat = 0 ∨ sec.getU16 11 = 0 ∨
      sec.getU16 11 > maxSectorSize
  · rw [if_pos refused]
    exact .inr rfl
  · rw [if_neg refused]
    exact .inl rfl

theorem mountFat32_fields (v : Vol) (sec : Buffer) (partLbaStart : Nat) :
    (mountFat32 v sec partLbaStart).2.secPerClus = (sec 13).toNat ∧
      (mountFat32 v sec partLbaStart).2.bytesPerSec = sec.getU16 11 := by
  simp only [mountFat32]
  split <;> exact ⟨rfl, rfl⟩

theorem mountExfat_fields (v : Vol) (sec : Buffer) (partLbaStart : Nat) :
    (mountExfat v sec partLbaStart).2.secPerClus =
        shiftedOne (sec 109).toNat % 256 ∧
      (mountExfat v sec partLbaStart).2.bytesPerSec =
        shiftedOne (sec 108).toNat % 65536 := by
  simp only [mountExfat]
  split <;> exact ⟨rfl, rfl⟩

theorem mountExfat_accepts (v : Vol) (sec : Buffer) (partLbaStart : Nat)
    (accepted : (mountExfat v sec partLbaStart).1 = 0) :
    0 < (mountExfat v sec partLbaStart).2.bytesPerSec := by
  simp only [mountExfat] at accepted ⊢
  split at accepted
  · simp at accepted
  · next usable =>
      rw [if_neg usable]
      simp only [not_or] at usable
      exact Nat.pos_of_ne_zero usable.1

/-- The narrowed power of two is non-zero exactly below the eighth bit. -/
theorem shiftedOne_narrowed_pos (shift : Nat) :
    0 < shiftedOne shift % 256 ↔ shift % 32 < 8 := by
  unfold shiftedOne
  have bound : shift % 32 < 32 := Nat.mod_lt _ (by omega)
  generalize shift % 32 = count at bound
  constructor
  · intro positive
    by_contra large
    have divisible : 2 ^ 8 ∣ 2 ^ count := Nat.pow_dvd_pow 2 (by omega)
    have zero : 2 ^ count % 256 = 0 := Nat.mod_eq_zero_of_dvd divisible
    omega
  · intro small
    have fits : 2 ^ count < 2 ^ 8 := Nat.pow_lt_pow_right (by omega) small
    rw [Nat.mod_eq_of_lt (by simpa using fits)]
    exact Nat.two_pow_pos count

/-- The divisors of `fat_read_fat_entry`, `fat_write_fat_entry`,
`fat_alloc_free_cluster`, `exfat_alloc_cluster`, `exfat_mark_bitmap` and
`exfat_alloc_chain_for_size`: the sector size, the sectors of a cluster, and
the cluster size both exFAT functions compute from them. -/
def Vol.divisors (v : Vol) : List Nat :=
  [v.bytesPerSec, v.secPerClus, v.clusterBytes]

/-- No division or modulus of the driver can trap. -/
def Vol.DividesSafely (v : Vol) : Prop :=
  0 < v.bytesPerSec ∧ 0 < v.secPerClus ∧ ∀ divisor ∈ v.divisors, divisor ≠ 0

theorem Vol.dividesSafely_iff (v : Vol) :
    v.DividesSafely ↔ 0 < v.bytesPerSec ∧ 0 < v.secPerClus := by
  constructor
  · intro safe
    exact ⟨safe.1, safe.2.1⟩
  · intro positive
    refine ⟨positive.1, positive.2, ?_⟩
    have cluster := Nat.mul_pos positive.1 positive.2
    simp only [divisors, clusterBytes, List.mem_cons, List.not_mem_nil, or_false]
    rintro divisor (rfl | rfl | rfl) <;> omega

end ParanOS

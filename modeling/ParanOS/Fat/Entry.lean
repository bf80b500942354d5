import ParanOS.Fat.WellFormed

/-! # Entries as they are written

The fields of a directory entry after the stores of `fs_fat32.c`, and the
entries around it.
-/

namespace ParanOS

open Foundation

/-! ## Start cluster -/

theorem direntStartCluster_eq (de : Buffer) :
    direntStartCluster de = de.getU16 20 * 65536 + de.getU16 26 := by
  rw [direntStartCluster, ← Nat.shiftLeft_add_eq_or_of_lt (de.getU16_lt 26), Nat.shiftLeft_eq]

theorem putStart_outside {sec : Buffer} {off startClus index : Nat}
    (outside : index < off + 20 ∨ off + 28 ≤ index) :
    putStart sec off startClus index = sec index := by
  rw [putStart, Buffer.putU16, Buffer.copy_outside (by omega), Buffer.putU16,
    Buffer.copy_outside (by omega)]

theorem putStart_start {sec : Buffer} {off startClus : Nat} (small : startClus < 4294967296) :
    (putStart sec off startClus).getU16 (off + 20) * 65536 +
      (putStart sec off startClus).getU16 (off + 26) = startClus := by
  have high : (startClus >>> 16) &&& 0xFFFF = startClus / 65536 % 65536 := by
    rw [Nat.shiftRight_eq_div_pow]
    exact and_lowMask _ 16
  have low : startClus &&& 0xFFFF = startClus % 65536 := and_lowMask _ 16
  rw [putStart, Buffer.getU16_putU16, Buffer.putU16, Buffer.getU16_copy_outside (by omega),
    Buffer.getU16_putU16, high, low]
  omega

/-! ## Reading an entry's fields -/

theorem direntAt_getU16 {sec : Buffer} {off field : Nat} (inside : field + 2 ≤ 32) :
    (direntAt sec off).getU16 field = sec.getU16 (off + field) := by
  apply Buffer.getU16_congr
  intro index bound
  rw [direntAt_lt (by omega), Nat.add_assoc]

theorem direntAt_getU32 {sec : Buffer} {off field : Nat} (inside : field + 4 ≤ 32) :
    (direntAt sec off).getU32 field = sec.getU32 (off + field) := by
  apply Buffer.getU32_congr
  intro index bound
  rw [direntAt_lt (by omega), Nat.add_assoc]

theorem direntAt_start (sec : Buffer) (off : Nat) :
    direntStartCluster (direntAt sec off) =
      sec.getU16 (off + 20) * 65536 + sec.getU16 (off + 26) := by
  rw [direntStartCluster_eq, direntAt_getU16 (by omega), direntAt_getU16 (by omega)]

/-- Two sectors that agree on an entry's 32 bytes have the same entry. -/
theorem direntAt_congr {sec sec' : Buffer} {off : Nat}
    (agree : ∀ index, off ≤ index → index < off + 32 → sec' index = sec index) :
    direntAt sec' off = direntAt sec off := by
  funext index
  by_cases inside : index < 32
  · rw [direntAt_lt inside, direntAt_lt inside]
    exact agree _ (by omega) (by omega)
  · simp [direntAt, inside]

/-! ## A new entry -/

section

variable {sec : Buffer} {off : Nat} {name11 : List UInt8} {attr : UInt8}
  {startClus sizeBytes : Nat}

theorem putDirent_outside {index : Nat} (outside : index < off ∨ off + 32 ≤ index) :
    putDirent sec off name11 attr startClus sizeBytes index = sec index := by
  simp only [putDirent]
  rw [Buffer.putU32, Buffer.copy_outside (by omega), putStart_outside (by omega), Buffer.putU8,
    Buffer.copy_outside (by omega), Buffer.copy_outside (by omega), Buffer.fill,
    Buffer.copy_outside (by omega)]

theorem putDirent_name (length : name11.length = 11) :
    direntName (direntAt (putDirent sec off name11 attr startClus sizeBytes) off) = name11 := by
  rw [direntName_direntAt]
  rw [show 11 = name11.length from length.symm]
  apply Buffer.bytes_eq_of_getD
  intro index bound
  simp only [putDirent]
  rw [Buffer.putU32, Buffer.copy_outside (by omega), putStart_outside (by omega), Buffer.putU8,
    Buffer.copy_outside (by omega), Buffer.copy_inside (by omega) (by omega),
    Nat.add_sub_cancel_left]
  rfl

theorem putDirent_attr :
    direntAt (putDirent sec off name11 attr startClus sizeBytes) off 11 = attr := by
  rw [direntAt_lt (by omega)]
  simp only [putDirent]
  rw [Buffer.putU32, Buffer.copy_outside (by omega), putStart_outside (by omega), Buffer.putU8,
    Buffer.copy_inside (by omega) (by omega)]

theorem putDirent_start (small : startClus < 4294967296) :
    direntStartCluster
      (direntAt (putDirent sec off name11 attr startClus sizeBytes) off) = startClus := by
  rw [direntAt_start]
  simp only [putDirent]
  rw [Buffer.putU32, Buffer.getU16_copy_outside (by omega),
    Buffer.getU16_copy_outside (by omega)]
  exact putStart_start small

theorem putDirent_size :
    (direntAt (putDirent sec off name11 attr startClus sizeBytes) off).getU32 28 =
      sizeBytes % 4294967296 := by
  rw [direntAt_getU32 (by omega)]
  simp only [putDirent]
  exact Buffer.getU32_putU32 _ _ _

end

/-- The first byte of an entry is the first character of its name. -/
theorem direntName_head (de : Buffer) : (direntName de).getD 0 0 = de 0 := rfl

/-! ## An updated entry -/

/-- The stores of `fat32_write_file_path` to an existing entry. -/
def updateDirent (sec : Buffer) (off startClus sizeBytes : Nat) : Buffer :=
  (putStart sec off startClus).putU32 (off + 28) sizeBytes

section

variable {sec : Buffer} {off startClus sizeBytes : Nat}

theorem updateDirent_outside {index : Nat} (outside : index < off + 20 ∨ off + 32 ≤ index) :
    updateDirent sec off startClus sizeBytes index = sec index := by
  rw [updateDirent, Buffer.putU32, Buffer.copy_outside (by omega),
    putStart_outside (by omega)]

theorem updateDirent_name :
    direntName (direntAt (updateDirent sec off startClus sizeBytes) off) =
      direntName (direntAt sec off) := by
  rw [direntName_direntAt, direntName_direntAt]
  apply Buffer.bytes_congr
  intro index bound
  exact updateDirent_outside (by omega)

theorem updateDirent_attr :
    direntAt (updateDirent sec off startClus sizeBytes) off 11 = direntAt sec off 11 := by
  rw [direntAt_lt (by omega), direntAt_lt (by omega)]
  exact updateDirent_outside (by omega)

theorem updateDirent_start (small : startClus < 4294967296) :
    direntStartCluster (direntAt (updateDirent sec off startClus sizeBytes) off) =
      startClus := by
  rw [direntAt_start, updateDirent, Buffer.putU32, Buffer.getU16_copy_outside (by omega),
    Buffer.getU16_copy_outside (by omega)]
  exact putStart_start small

theorem updateDirent_size :
    (direntAt (updateDirent sec off startClus sizeBytes) off).getU32 28 =
      sizeBytes % 4294967296 := by
  rw [direntAt_getU32 (by omega)]
  exact Buffer.getU32_putU32 _ _ _

end

/-! ## The first sector of a directory -/

/-- A new directory lists nothing. -/
theorem dotSector_unlisted (newCl parentCl : Nat) {off : Nat} (aligned : 32 ∣ off) :
    ¬ Listed (direntAt (dotSector newCl parentCl) off) := by
  intro listed
  by_cases first : off = 0
  · subst first
    refine listed.2.1 ?_
    rw [dotSector, direntAt_congr fun index _ upper => putDirent_outside (by omega)]
    exact putDirent_name rfl
  · by_cases second : off = 32
    · subst second
      exact listed.2.2 (putDirent_name rfl)
    · apply listed.1.1
      rw [direntAt_lt (by omega), dotSector, putDirent_outside (by omega),
        putDirent_outside (by omega)]

theorem blank_unlisted {sec : Buffer} (off : Nat) (blank : ∀ index, sec index = 0) :
    ¬ Listed (direntAt sec off) := by
  intro listed
  apply listed.1.1
  rw [direntAt_lt (by omega)]
  exact blank _

/-! ## Entries of a store -/

theorem entryAt_write_same (store : ClusterStore) (slot : Slot) (sec : Buffer) :
    entryAt (store.write slot.cl slot.s sec) slot = direntAt sec slot.off := by
  rw [entryAt, ClusterStore.write_sector_same]

/-- Writing one entry's bytes leaves the entries of all other slots. -/
theorem entryAt_write_other {v : Vol} {store : ClusterStore} {changed slot : Slot}
    {sec : Buffer} (aligned : changed.off ∈ slotOffsets v) (aligned' : slot.off ∈ slotOffsets v)
    (outside : ∀ index, index < changed.off ∨ changed.off + 32 ≤ index →
      sec index = store.sector changed.cl changed.s index)
    (different : slot ≠ changed) :
    entryAt (store.write changed.cl changed.s sec) slot = entryAt store slot := by
  by_cases sameSector : slot.cl = changed.cl ∧ slot.s = changed.s
  · have offsets : slot.off ≠ changed.off := by
      intro equal
      exact different (by cases slot; cases changed; simp_all)
    have divides := (mem_slotOffsets.mp aligned).1
    have divides' := (mem_slotOffsets.mp aligned').1
    simp only [entryAt, sameSector, ClusterStore.write_sector_same]
    apply direntAt_congr
    intro index lower upper
    apply outside
    omega
  · rw [entryAt, entryAt, ClusterStore.write_sector_other (by omega)]

end ParanOS

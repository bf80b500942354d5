import ParanOS.Exfat.Encoding

/-! # The checksum of a stored set

The checksum of an exFAT set leaves out the two bytes that hold it. `exfat_checksum_entries`
adds these two in as they are passed, and counts the first byte as zero instead.
-/

namespace ParanOS

open Foundation

/-! ## Rotating sums -/

/-- A 16-bit number rotated to the right by one bit. -/
def rotateRight (sum : Nat) : Nat := sum / 2 + 32768 * (sum % 2)

/-- The next sum over a byte string. -/
def rotateAdd (sum : Nat) (byte : UInt8) : Nat := (rotateRight sum + byte.toNat) % 65536

theorem rotateRight_lt {sum : Nat} (short : sum < 65536) : rotateRight sum < 65536 := by
  simp only [rotateRight]
  omega

theorem rotateAdd_lt (sum : Nat) (byte : UInt8) : rotateAdd sum byte < 65536 :=
  Nat.mod_lt _ (by decide)

/-- The rotation as the source writes it. -/
theorem shifted_eq_rotateRight {sum : Nat} (short : sum < 65536) :
    ((sum >>> 1) ||| (sum <<< 15)) % 65536 = rotateRight sum := by
  have low : sum / 2 < 2 ^ 15 := by omega
  have joined : sum / 2 ||| 2 ^ 15 * sum = 2 ^ 15 * sum + sum / 2 := by
    rw [Nat.or_comm, ← Nat.two_pow_add_eq_or_of_lt low]
  rw [Nat.shiftRight_eq_div_pow, Nat.shiftLeft_eq, Nat.pow_one, Nat.mul_comm sum, joined,
    rotateRight]
  omega

/-- No two sums get the same next sum. -/
theorem rotateAdd_inj {left right : Nat} (byte : UInt8) (leftShort : left < 65536)
    (rightShort : right < 65536) :
    rotateAdd left byte = rotateAdd right byte ↔ left = right := by
  constructor
  · intro same
    have leftBound := rotateRight_lt leftShort
    have rightBound := rotateRight_lt rightShort
    have rotated : rotateRight left = rotateRight right := by
      simp only [rotateAdd] at same
      omega
    simp only [rotateRight] at rotated
    omega
  · intro same
    rw [same]

theorem rotateAdd_foldl_inj (bytes : List UInt8) {left right : Nat} (leftShort : left < 65536)
    (rightShort : right < 65536) :
    bytes.foldl rotateAdd left = bytes.foldl rotateAdd right ↔ left = right := by
  induction bytes generalizing left right with
  | nil => rfl
  | cons byte rest induction =>
      rw [List.foldl_cons, List.foldl_cons, induction (rotateAdd_lt _ _) (rotateAdd_lt _ _),
        rotateAdd_inj byte leftShort rightShort]

theorem rotateAdd_foldl_lt (bytes : List UInt8) {start : Nat} (short : start < 65536) :
    bytes.foldl rotateAdd start < 65536 := by
  induction bytes generalizing start with
  | nil => exact short
  | cons byte rest induction => exact induction (rotateAdd_lt _ _)

/-! ## The two sums -/

/-- The checksum of a set: every byte in order but the two in which it is stored. -/
def setChecksum (set : Buffer) (total : Nat) : Nat :=
  (((List.range (total * 32)).filter fun index => index ≠ 2 ∧ index ≠ 3).map set).foldl
    rotateAdd 0

/-- The first four bytes, and what is behind them. -/
theorem range_four {count : Nat} (enough : 4 ≤ count) :
    List.range count = [0, 1, 2, 3] ++ List.range' 4 (count - 4) := by
  have four : [0, 1, 2, 3] = List.range' 0 4 := rfl
  rw [List.range_eq_range', four, List.range'_append_1]
  congr 1
  omega

theorem setChecksum_eq (set : Buffer) {total : Nat} (positive : 1 ≤ total) :
    setChecksum set total =
      ((List.range' 4 (total * 32 - 4)).map set).foldl rotateAdd
        (rotateAdd (rotateAdd 0 (set 0)) (set 1)) := by
  have behind : (List.range' 4 (total * 32 - 4)).filter
      (fun index => index ≠ 2 ∧ index ≠ 3) = List.range' 4 (total * 32 - 4) := by
    rw [List.filter_eq_self]
    intro index member
    rw [List.mem_range'_1] at member
    simp only [decide_eq_true_eq]
    omega
  rw [setChecksum, range_four (by omega), List.filter_append, behind]
  rfl

/-- The first byte counts as zero; the third and the fourth are not left out. -/
theorem exfatChecksumEntries_eq (set : Buffer) {total : Nat} (positive : 1 ≤ total) :
    exfatChecksumEntries set total =
      ((List.range' 4 (total * 32 - 4)).map set).foldl rotateAdd
        (rotateAdd (rotateAdd (rotateAdd 0 (set 1)) (set 2)) (set 3)) := by
  have step : ∀ (indices : List Nat) (sum : Nat), 0 ∉ indices → sum < 65536 →
      indices.foldl (fun sum index => ((((sum >>> 1) ||| (sum <<< 15)) % 65536) +
        (if index = 0 then 0 else (set index).toNat)) % 65536) sum =
      (indices.map set).foldl rotateAdd sum := by
    intro indices
    induction indices with
    | nil => exact fun _ _ _ => rfl
    | cons index rest induction =>
        intro sum positive short
        rw [List.mem_cons, not_or] at positive
        rw [List.foldl_cons, List.map_cons, List.foldl_cons, shifted_eq_rotateRight short,
          if_neg (Ne.symm positive.1)]
        exact induction _ positive.2 (rotateAdd_lt _ _)
  have whole : List.range (total * 32) = 0 :: 1 :: 2 :: 3 :: List.range' 4 (total * 32 - 4) :=
    range_four (by omega)
  have others : 0 ∉ 1 :: 2 :: 3 :: List.range' 4 (total * 32 - 4) := by
    simp [List.mem_range'_1]
  rw [exfatChecksumEntries, whole, List.foldl_cons, if_pos rfl]
  exact step _ 0 others (by decide)

/-- The code's sum is the checksum of the set exactly if the sums over the first four bytes
agree. -/
theorem exfatChecksumEntries_iff {set stored : Buffer} {total : Nat} (positive : 1 ≤ total)
    (same : ∀ index < total * 32, index ≠ 2 → index ≠ 3 → stored index = set index) :
    exfatChecksumEntries set total = setChecksum stored total ↔
      rotateAdd (rotateAdd (set 1).toNat (set 2)) (set 3) =
        rotateAdd (set 0).toNat (set 1) := by
  have behind : (List.range' 4 (total * 32 - 4)).map stored =
      (List.range' 4 (total * 32 - 4)).map set := by
    apply List.map_congr_left
    intro index member
    rw [List.mem_range'_1] at member
    exact same index (by omega) (by omega) (by omega)
  have first : ∀ byte : UInt8, rotateAdd 0 byte = byte.toNat := by
    intro byte
    have bound := byte.toNat_lt
    simp only [rotateAdd, rotateRight]
    omega
  rw [exfatChecksumEntries_eq set positive, setChecksum_eq stored positive, behind,
    same 0 (by omega) (by decide) (by decide), same 1 (by omega) (by decide) (by decide),
    rotateAdd_foldl_inj _ (rotateAdd_lt _ _) (rotateAdd_lt _ _), first, first]

theorem exfatChecksumEntries_lt (set : Buffer) {total : Nat} (positive : 1 ≤ total) :
    exfatChecksumEntries set total < 65536 := by
  rw [exfatChecksumEntries_eq set positive]
  exact rotateAdd_foldl_lt _ (rotateAdd_lt _ _)

/-! ## The set on the device -/

section

variable {v : Vol} (cl start : Nat)

/-- The bytes from an offset of a cluster on, as they are read from the device. -/
def bytesFrom (v : Vol) (sectors : Nat → Buffer) (cl start : Nat) : Buffer := fun index =>
  sectors (u32 (clusToLba v cl + (start + index) / v.bytesPerSec))
    ((start + index) % v.bytesPerSec)

variable (positive : 0 < v.bytesPerSec) (slots : 32 ∣ v.bytesPerSec) (aligned : 32 ∣ start)
include positive slots aligned

/-- Writing the next slot leaves the slots before it as they are. -/
theorem exfatWriteEntry_bytesFrom (sectors : Nat → Buffer) (set : Buffer) {i : Nat}
    (short : i < 40)
    (before : ∀ index < i * 32, bytesFrom v sectors cl start index = set index) :
    ∃ sectors', exfatWriteEntry v cl (start + i * 32) (fun index => set (i * 32 + index))
        (Device.healthy sectors) = some (0, Device.healthy sectors') ∧
      ∀ index < (i + 1) * 32, bytesFrom v sectors' cl start index = set index := by
  have slotAligned : 32 ∣ start + i * 32 := Nat.dvd_add aligned (Nat.dvd_mul_left 32 i)
  refine ⟨store sectors (u32 (clusToLba v cl + (start + i * 32) / v.bytesPerSec))
    ((sectors (u32 (clusToLba v cl + (start + i * 32) / v.bytesPerSec))).copy
      ((start + i * 32) % v.bytesPerSec) 32 fun index => set (i * 32 + index)), rfl, ?_⟩
  intro index below
  rw [bytesFrom]
  by_cases here : i * 32 ≤ index
  · have place := slot_split positive slots slotAligned (show index - i * 32 < 32 by omega)
    have position : start + i * 32 + (index - i * 32) = start + index := by omega
    rw [position] at place
    rw [place.1, place.2, store_same, Buffer.copy_inside (by omega) (by omega)]
    congr 1
    omega
  · have earlier : start + index < start + i * 32 := by omega
    have near : (start + i * 32) / v.bytesPerSec ≤ (start + index) / v.bytesPerSec + 1280 := by
      calc
        (start + i * 32) / v.bytesPerSec
            ≤ (start + index + 1280 * v.bytesPerSec) / v.bytesPerSec :=
          Nat.div_le_div_right (by
            have bound := Nat.le_mul_of_pos_right 1280 positive
            omega)
        _ = (start + index) / v.bytesPerSec + 1280 := Nat.add_mul_div_right _ _ positive
    have ordered : (start + index) / v.bytesPerSec ≤ (start + i * 32) / v.bytesPerSec :=
      Nat.div_le_div_right (by omega)
    rw [← before index (by omega), bytesFrom]
    by_cases sameSector : (start + index) / v.bytesPerSec = (start + i * 32) / v.bytesPerSec
    · have left := Nat.div_add_mod (start + index) v.bytesPerSec
      have right := Nat.div_add_mod (start + i * 32) v.bytesPerSec
      rw [sameSector] at left
      rw [sameSector, store_same, Buffer.copy_outside (by omega)]
    · rw [store_other]
      unfold u32
      omega

theorem writeEntries_bytesFrom (set : Buffer) (count : Nat) {i : Nat} (sectors : Nat → Buffer)
    (short : i + count ≤ 40)
    (before : ∀ index < i * 32, bytesFrom v sectors cl start index = set index) :
    ∃ sectors', writeEntries v cl start set count i (Device.healthy sectors) =
        some (0, Device.healthy sectors') ∧
      ∀ index < (i + count) * 32, bytesFrom v sectors' cl start index = set index := by
  induction count generalizing i sectors with
  | zero => exact ⟨sectors, rfl, before⟩
  | succ count induction =>
      rcases exfatWriteEntry_bytesFrom cl start positive slots aligned sectors set (by omega)
        before with ⟨written, ran, further⟩
      rcases induction written (by omega) further with ⟨sectors', restRan, final⟩
      refine ⟨sectors', ?_, ?_⟩
      · rw [writeEntries, DiskM.bind_run ran, if_neg (by simp)]
        exact restRan
      · rw [show i + (count + 1) = i + 1 + count by omega]
        exact final

/-- The set is stored as it is passed, with the sum in its third and fourth byte. -/
theorem exfatWriteEntrySet_stored (sectors : Nat → Buffer) (set : Buffer) {total : Nat}
    (several : 2 ≤ total) (short : total ≤ 40) :
    ∃ sectors', exfatWriteEntrySet v cl start set total (Device.healthy sectors) =
        some (0, Device.healthy sectors') ∧
      (bytesFrom v sectors' cl start).getU16 2 = exfatChecksumEntries set total ∧
      ∀ index < total * 32, index ≠ 2 → index ≠ 3 →
        bytesFrom v sectors' cl start index = set index := by
  rcases writeEntries_bytesFrom cl start positive slots aligned (sealed set total) total sectors
    (show 0 + total ≤ 40 by omega) (by omega) with ⟨sectors', ran, stored⟩
  rw [Nat.zero_add] at stored
  refine ⟨sectors', ?_, ?_, ?_⟩
  · rw [exfatWriteEntrySet, if_neg (by omega)]
    exact ran
  · rw [Buffer.getU16_congr fun index _ => stored (2 + index) (by omega), sealed,
      Buffer.getU16_putU16, Nat.mod_eq_of_lt (exfatChecksumEntries_lt set (by omega))]
  · intro index below notLow notHigh
    rw [stored index below, sealed, Buffer.putU16, Buffer.copy_outside (by omega)]

/-- The number that is stored with a set is its checksum exactly if the sum over the second to
the fourth byte that are passed is the one over the first two. -/
theorem exfatWriteEntrySet_checksum_iff (sectors : Nat → Buffer) (set : Buffer) {total : Nat}
    (several : 2 ≤ total) (short : total ≤ 40) :
    ∃ sectors', exfatWriteEntrySet v cl start set total (Device.healthy sectors) =
        some (0, Device.healthy sectors') ∧
      ((bytesFrom v sectors' cl start).getU16 2 =
          setChecksum (bytesFrom v sectors' cl start) total ↔
        rotateAdd (rotateAdd (set 1).toNat (set 2)) (set 3) =
          rotateAdd (set 0).toNat (set 1)) := by
  rcases exfatWriteEntrySet_stored cl start positive slots aligned sectors set several short with
    ⟨sectors', ran, number, others⟩
  refine ⟨sectors', ran, ?_⟩
  rw [number, exfatChecksumEntries_iff (by omega) others]

end

/-- The set in the first two slots of cluster 5 whose first four bytes are 0. -/
theorem exfatWriteEntrySet_checksum_iff_zeros :
    ∃ sectors', exfatWriteEntrySet exfatVol 5 0 (fun _ => 0) 2
        (Device.healthy (exfatImage 0)) = some (0, Device.healthy sectors') ∧
      (bytesFrom exfatVol sectors' 5 0).getU16 2 =
        setChecksum (bytesFrom exfatVol sectors' 5 0) 2 := by
  rcases @exfatWriteEntrySet_checksum_iff exfatVol 5 0 (by decide) (by decide) (by decide)
    (exfatImage 0) (fun _ => 0) 2 (by decide) (by decide) with ⟨sectors', ran, agrees⟩
  exact ⟨sectors', ran, agrees.mpr (by decide)⟩

/-- The sums never agree for a set that the driver has built. -/
theorem exfatBuildEntrySet_checksum_ne {name : List UInt8} (first size : Nat) (isDir : Bool)
    (nonempty : name ≠ []) (short : name.length ≤ 255) {stored : Buffer}
    (same : ∀ index < entriesFor name * 32, index ≠ 2 → index ≠ 3 →
      stored index = exfatBuildEntrySet name first size isDir index) :
    exfatChecksumEntries (exfatBuildEntrySet name first size isDir) (entriesFor name) ≠
      setChecksum stored (entriesFor name) := by
  have bounds := entriesFor_bounds nonempty short
  have type : exfatBuildEntrySet name first size isDir 0 = exfatEntryFile :=
    (builtSet_other (by decide) (by decide)).symm.trans (builtSet_type name first size isDir)
  have count : exfatBuildEntrySet name first size isDir 1 = UInt8.ofNat (entriesFor name - 1) :=
    (builtSet_other (by decide) (by decide)).symm.trans
      (builtSet_secondary name first size isDir)
  have low : exfatBuildEntrySet name first size isDir 2 = 0 := by
    simp [exfatBuildEntrySet, Buffer.putU8, Buffer.putU16, Buffer.putU32, Buffer.putU64,
      Buffer.copy, nameEntries]
  have high : exfatBuildEntrySet name first size isDir 3 = 0 := by
    simp [exfatBuildEntrySet, Buffer.putU8, Buffer.putU16, Buffer.putU32, Buffer.putU64,
      Buffer.copy, nameEntries]
  have never : ∀ secondary < 19, 2 ≤ secondary →
      rotateAdd (rotateAdd (UInt8.ofNat secondary).toNat 0) 0 ≠
        rotateAdd exfatEntryFile.toNat (UInt8.ofNat secondary) := by
    decide
  rw [Ne, exfatChecksumEntries_iff (by omega) same, type, count, low, high]
  exact never (entriesFor name - 1) (by omega) (by omega)

/-- The number stored with the set of an empty file `a` is not its checksum. -/
theorem exfatWriteEntrySet_checksum_wrong :
    ¬ ∀ (v : Vol) (cl start total : Nat) (sectors : Nat → Buffer) (set : Buffer),
      0 < v.bytesPerSec → 32 ∣ v.bytesPerSec → 32 ∣ start → 2 ≤ total → total ≤ 40 →
      ∀ sectors', exfatWriteEntrySet v cl start set total (Device.healthy sectors) =
          some (0, Device.healthy sectors') →
        (bytesFrom v sectors' cl start).getU16 2 =
          setChecksum (bytesFrom v sectors' cl start) total := by
  intro claim
  rcases @exfatWriteEntrySet_stored exfatVol 5 0 (by decide) (by decide) (by decide)
    (exfatImage 0) (exfatBuildEntrySet [0x61] 0 0 false) 3 (by decide) (by decide) with
    ⟨sectors', ran, number, others⟩
  have equal := claim exfatVol 5 0 3 (exfatImage 0) (exfatBuildEntrySet [0x61] 0 0 false)
    (by decide) (by decide) (by decide) (by decide) (by decide) sectors' ran
  exact @exfatBuildEntrySet_checksum_ne [0x61] 0 0 false (by decide) (by decide) _ others
    (number.symm.trans equal)

end ParanOS

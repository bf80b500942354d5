import ParanOS.Exfat.Directory
import ParanOS.Fat.Lookup

/-! # The allocation bitmap

Where `exfat_mark_bitmap` finds the bit of a cluster, and what
`exfat_alloc_cluster` and the bitmap have to do with each other: the allocator
looks at the table only.
-/

namespace ParanOS

open Foundation

/-! ## On a healthy device -/

/-- The cluster that `exfat_walk_chain` arrives at. -/
def walkEntries (v : Vol) (sectors : Nat → Buffer) : (step cl : Nat) → Nat
  | 0, cl => cl
  | step + 1, cl =>
      if isEndCluster cl then cl else walkEntries v sectors step (fatEntry v sectors cl)

theorem exfatWalkChain_healthy (v : Vol) (sectors : Nat → Buffer) (step cl : Nat) :
    exfatWalkChain v step cl (Device.healthy sectors) =
      some (walkEntries v sectors step cl, Device.healthy sectors) := by
  induction step generalizing cl with
  | zero => rfl
  | succ step induction =>
      cases ended : isEndCluster cl with
      | true => simp [exfatWalkChain, walkEntries, ended]
      | false => simp [exfatWalkChain, walkEntries, ended, induction]

/-- The sector with the bit of a cluster. -/
def bitmapSector (v : Vol) (sectors : Nat → Buffer) (cl : Nat) : Nat :=
  u32 (clusToLba v (walkEntries v sectors (bitmapIndex cl / 8 / v.clusterBytes)
    v.exfatBitmapClus) + bitmapIndex cl / 8 % v.clusterBytes / v.bytesPerSec)

/-- The offset of its byte in that sector. -/
def bitmapOffset (v : Vol) (cl : Nat) : Nat :=
  bitmapIndex cl / 8 % v.clusterBytes % v.bytesPerSec

/-- The bitmap covers the cluster and its bit there is set. -/
def Marked (v : Vol) (sectors : Nat → Buffer) (cl : Nat) : Prop :=
  bitmapIndex cl / 8 < v.exfatBitmapSize ∧
    (sectors (bitmapSector v sectors cl) (bitmapOffset v cl)).toNat.testBit
      (bitmapIndex cl % 8) = true

instance (v : Vol) (sectors : Nat → Buffer) (cl : Nat) : Decidable (Marked v sectors cl) :=
  inferInstanceAs (Decidable (_ ∧ _))

theorem markBitmapByte_healthy (v : Vol) (sectors : Nat → Buffer) (cl : Nat) (used : Bool) :
    markBitmapByte v (bitmapIndex cl) used (Device.healthy sectors) =
      some (0, Device.healthy (store sectors (bitmapSector v sectors cl)
        ((sectors (bitmapSector v sectors cl)).putU8 (bitmapOffset v cl)
          (markByte (sectors (bitmapSector v sectors cl) (bitmapOffset v cl))
            (bitmapIndex cl % 8) used)))) := by
  simp [markBitmapByte, exfatWalkChain_healthy, bitmapSector, bitmapOffset]

theorem exfatMarkBitmap_returns (v : Vol) (sectors : Nat → Buffer) (cl : Nat) (used : Bool) :
    ∃ code sectors', exfatMarkBitmap v cl used (Device.healthy sectors) =
      some (code, Device.healthy sectors') := by
  unfold exfatMarkBitmap
  split
  · exact ⟨0, sectors, rfl⟩
  · split
    · exact ⟨0, sectors, rfl⟩
    · split
      · exact ⟨-1, sectors, rfl⟩
      · exact ⟨0, _, markBitmapByte_healthy v sectors cl used⟩

theorem exfatClaim_returns (v : Vol) (sectors : Nat → Buffer) (cl : Nat) :
    ∃ sectors', exfatClaim v cl (Device.healthy sectors) =
      some (cl, Device.healthy sectors') := by
  rcases exfatMarkBitmap_returns v (setFatEntry v sectors cl eocMark) cl true with
    ⟨code, sectors', ran⟩
  exact ⟨sectors', by simp [exfatClaim, ran]⟩

/-- The allocator returns the first cluster whose table entry is zero. -/
theorem exfatAllocScan_returns (v : Vol) (sectors : Nat → Buffer) (count : Nat) :
    ∃ sectors', allocScan v (exfatClaim v) count 2 (Device.healthy sectors) =
      some ((firstFree v sectors count 2).getD 0, Device.healthy sectors') := by
  rw [allocScan_healthy]
  cases firstFree v sectors count 2 with
  | none => exact ⟨sectors, rfl⟩
  | some free => exact exfatClaim_returns v sectors free

theorem exfatAllocCluster_returns (v : Vol) (sectors : Nat → Buffer) :
    ∃ sectors', exfatAllocCluster v (Device.healthy sectors) =
      some ((firstFree v sectors (exfatMaxClusters v - 2) 2).getD 0,
        Device.healthy sectors') :=
  exfatAllocScan_returns v sectors _

/-! ## The allocator and the bitmap -/

/-- Every cluster that the allocator returns had its bit clear before. -/
def AllocRespectsBitmap (v : Vol) (sectors : Nat → Buffer) : Prop :=
  ∀ cl device, exfatAllocCluster v (Device.healthy sectors) = some (cl, device) →
    cl ≠ 0 → ¬ Marked v sectors cl

theorem firstFree_lowest {v : Vol} {sectors : Nat → Buffer} {count cl lower : Nat}
    (found : firstFree v sectors count 2 = some cl) (above : 2 ≤ lower) (below : lower < cl) :
    fatEntry v sectors lower ≠ 0 := by
  rcases List.find?_eq_some_iff_append.mp found with ⟨_, before, after, split, earlier⟩
  have range := (firstFree_some found)
  have member : lower ∈ before := by
    have inside : lower ∈ List.range' 2 count := by
      rw [List.mem_range'_1]
      omega
    rw [split] at inside
    rcases List.mem_append.mp inside with here | later
    · exact here
    · -- the list ascends, so nothing behind the cluster found is below it
      have sorted := List.pairwise_lt_range' (s := 2) (n := count)
      rw [split, List.pairwise_append, List.pairwise_cons] at sorted
      rcases List.mem_cons.mp later with equal | behind
      · omega
      · have := sorted.2.1.1 lower behind
        omega
  simpa using earlier lower member

theorem firstFree_exists {v : Vol} {sectors : Nat → Buffer} {count cl : Nat}
    (above : 2 ≤ cl) (below : cl < 2 + count) (free : fatEntry v sectors cl = 0) :
    ∃ first, firstFree v sectors count 2 = some first ∧ first ≤ cl := by
  cases found : firstFree v sectors count 2 with
  | none =>
      have used := List.find?_eq_none.mp found cl (by rw [List.mem_range'_1]; omega)
      simp [free] at used
  | some first =>
      refine ⟨first, rfl, ?_⟩
      by_contra later
      exact firstFree_lowest found above (by omega) free

/-- The allocator respects the bitmap exactly when no cluster that is marked in
it is the lowest one with a zero table entry. -/
theorem allocRespectsBitmap_iff (v : Vol) (sectors : Nat → Buffer) :
    AllocRespectsBitmap v sectors ↔
      ∀ cl, 2 ≤ cl → cl < exfatMaxClusters v → fatEntry v sectors cl = 0 →
        Marked v sectors cl → ∃ lower, 2 ≤ lower ∧ lower < cl ∧ fatEntry v sectors lower = 0 := by
  rcases exfatAllocCluster_returns v sectors with ⟨sectors', ran⟩
  constructor
  · intro respects cl above below free marked
    rcases firstFree_exists above (show cl < 2 + (exfatMaxClusters v - 2) by omega) free with
      ⟨first, found, atMost⟩
    have range := firstFree_some found
    rw [found, Option.getD_some] at ran
    have clear := respects first _ ran (by omega)
    refine ⟨first, range.1, ?_, range.2.2⟩
    rcases Nat.lt_or_eq_of_le atMost with lower | equal
    · exact lower
    · exact absurd (equal ▸ marked) clear
  · intro condition cl device returned nonzero marked
    rw [ran] at returned
    simp only [Option.some.injEq, Prod.mk.injEq] at returned
    cases found : firstFree v sectors (exfatMaxClusters v - 2) 2 with
    | none =>
        rw [found] at returned
        exact nonzero returned.1.symm
    | some first =>
        rw [found, Option.getD_some] at returned
        have range := firstFree_some found
        rw [returned.1] at range found
        rcases condition cl range.1 (by omega) range.2.2 marked with
          ⟨lower, above, below, free⟩
        exact firstFree_lowest found above below free

/-! ## A volume with a contiguous file -/

/-- Sixteen clusters of one sector. The bitmap is in cluster 3, the root
directory in cluster 4. -/
def exfatVol : Vol where
  fsType := .exfat
  bytesPerSec := 512
  secPerClus := 1
  rsvdSecCnt := 0
  numFats := 1
  fatSz32 := 1
  rootClus := 4
  firstDataLba := 2
  fatLba := 1
  totSec32 := 18
  partLbaStart := 0
  exfatFatLength := 1
  exfatHeapOffset := 2
  exfatClusterCount := 16
  exfatBitmapClus := 3
  exfatBitmapSize := 2
  exfatBpsShift := 9
  exfatSpcShift := 0

/-- A root directory with the bitmap's entry, and the given bits for the first
eight clusters. -/
def exfatImage (bits : UInt8) : Nat → Buffer := fun lba =>
  if lba = 1 then Buffer.putU32 (Buffer.putU32 (fun _ => 0) 12 eocMark) 16 eocMark
  else if lba = 3 then Buffer.putU8 (fun _ => 0) 0 bits
  else if lba = 4 then
    Buffer.putU64 (Buffer.putU32 (Buffer.putU8 (fun _ => 0) 0 exfatEntryBitmap) 20 3) 24 2
  else fun _ => 0

/-- Cluster 2 belongs to a contiguous file: its bit is set, its table entry is
zero. The allocator hands it out. -/
theorem exfatAllocCluster_returns_marked :
    ¬ ∀ (v : Vol) (sectors : Nat → Buffer), v.exfatBitmapClus ≠ 0 →
      AllocRespectsBitmap v sectors := by
  intro claim
  rcases exfatAllocCluster_returns exfatVol (exfatImage 7) with ⟨sectors', ran⟩
  have found : firstFree exfatVol (exfatImage 7) (exfatMaxClusters exfatVol - 2) 2 = some 2 := by
    decide +kernel
  rw [found, Option.getD_some] at ran
  exact claim exfatVol (exfatImage 7) (by decide) 2 _ ran (by decide) (by decide +kernel)

end ParanOS

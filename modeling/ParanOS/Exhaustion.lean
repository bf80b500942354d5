import ParanOS.Exfat.Bitmap
import ParanOS.Fat.Contract

/-! # A full volume

Both allocators scan the table from cluster 2 up to the number of data clusters. The data
clusters end two behind that number, so the scan leaves out the last two of them.
-/

namespace ParanOS

open Foundation

/-- Where the allocator returns 0, none of the data clusters is free. -/
def ReportsFull (v : Vol) (alloc : DiskM Nat) (sectors : Nat → Buffer) (clusters : Nat) : Prop :=
  ∀ sectors', alloc (Device.healthy sectors) = some (0, Device.healthy sectors') →
    ∀ cl, 2 ≤ cl → cl < clusters + 2 → fatEntry v sectors' cl ≠ 0

/-- The number of data clusters of a FAT32 volume. -/
def Vol.dataClusters (v : Vol) : Nat :=
  u32 (v.totSec32 + 4294967296 - v.firstDataLba) / v.secPerClus

theorem firstFree_eq_none {v : Vol} {sectors : Nat → Buffer} {clusters : Nat} :
    firstFree v sectors (clusters - 2) 2 = none ↔
      ∀ cl, 2 ≤ cl → cl < clusters → fatEntry v sectors cl ≠ 0 := by
  rw [firstFree, List.find?_eq_none]
  constructor
  · intro none cl lower upper
    simpa using none cl (List.mem_range'_1.mpr (by omega))
  · intro used cl member
    rw [List.mem_range'_1] at member
    simpa using used cl member.1 (by omega)

section

variable {v : Vol} {claim : Nat → DiskM Nat} {sectors : Nat → Buffer} {scanned : Nat}
  (claims : ∀ cl, ∃ sectors', claim cl (Device.healthy sectors) =
    some (cl, Device.healthy sectors'))
include claims

/-- A scan that claims a cluster does not return 0. -/
theorem allocScan_eq_zero {sectors' : Nat → Buffer} :
    allocScan v claim (scanned - 2) 2 (Device.healthy sectors) =
        some (0, Device.healthy sectors') ↔
      sectors' = sectors ∧ ∀ cl, 2 ≤ cl → cl < scanned → fatEntry v sectors cl ≠ 0 := by
  rw [allocScan_healthy, ← firstFree_eq_none]
  cases found : firstFree v sectors (scanned - 2) 2 with
  | none =>
      simp only [Option.some.injEq, Prod.mk.injEq, true_and, and_true]
      constructor
      · intro same
        exact congrArg Device.sectors same.symm
      · intro same
        rw [same]
  | some free =>
      have range := firstFree_some found
      rcases claims free with ⟨claimed, ran⟩
      simp only [ran, Option.some.injEq, Prod.mk.injEq, reduceCtorEq, and_false, iff_false]
      omega

/-- Of the data clusters that the scan leaves out, none may be free when the others are not. -/
theorem allocScan_reportsFull_iff (clusters : Nat) :
    ReportsFull v (allocScan v claim (scanned - 2) 2) sectors clusters ↔
      (∃ cl, 2 ≤ cl ∧ cl < scanned ∧ fatEntry v sectors cl = 0) ∨
        ∀ cl, 2 ≤ cl → scanned ≤ cl → cl < clusters + 2 → fatEntry v sectors cl ≠ 0 := by
  constructor
  · intro reports
    by_cases free : ∃ cl, 2 ≤ cl ∧ cl < scanned ∧ fatEntry v sectors cl = 0
    · exact .inl free
    · right
      intro cl lower _ upper
      apply reports sectors _ cl lower upper
      apply (allocScan_eq_zero claims).mpr
      exact ⟨rfl, fun cl lower upper free' => free ⟨cl, lower, upper, free'⟩⟩
  · intro condition sectors' returned cl lower upper
    rcases (allocScan_eq_zero claims).mp returned with ⟨rfl, used⟩
    cases condition with
    | inl free =>
        rcases free with ⟨other, otherLower, otherUpper, free⟩
        exact absurd free (used other otherLower otherUpper)
    | inr last =>
        by_cases inside : cl < scanned
        · exact used cl lower inside
        · exact last cl lower (by omega) upper

end

theorem fatClaim_returns (v : Vol) (sectors : Nat → Buffer) (cl : Nat) :
    ∃ sectors', fatClaim v cl (Device.healthy sectors) = some (cl, Device.healthy sectors') :=
  ⟨setFatEntry v sectors cl eocMark, by simp [fatClaim]⟩

/-- An allocator that returns 0 leaves no cluster free, exactly if one of the clusters below
the number of clusters is free or neither of the last two is. -/
theorem allocators_reportFull_iff (v : Vol) (sectors : Nat → Buffer) :
    (v.dataClusters ≤ 1048574 →
      (ReportsFull v (fatAllocFreeCluster v) sectors v.dataClusters ↔
        (∃ cl, 2 ≤ cl ∧ cl < v.dataClusters ∧ fatEntry v sectors cl = 0) ∨
          ∀ cl, 2 ≤ cl → v.dataClusters ≤ cl → cl < v.dataClusters + 2 →
            fatEntry v sectors cl ≠ 0)) ∧
    (v.exfatClusterCount ≤ 1048574 →
      (ReportsFull v (exfatAllocCluster v) sectors v.exfatClusterCount ↔
        (∃ cl, 2 ≤ cl ∧ cl < v.exfatClusterCount ∧ fatEntry v sectors cl = 0) ∨
          ∀ cl, 2 ≤ cl → v.exfatClusterCount ≤ cl → cl < v.exfatClusterCount + 2 →
            fatEntry v sectors cl ≠ 0)) := by
  constructor
  · intro few
    have scanned : fatMaxClusters v = v.dataClusters :=
      Nat.min_eq_left (show v.dataClusters ≤ 1048576 by omega)
    rw [fatAllocFreeCluster, scanned]
    exact allocScan_reportsFull_iff (fatClaim_returns v sectors) _
  · intro few
    by_cases empty : v.exfatClusterCount = 0
    · -- no data cluster at all
      rw [empty]
      apply iff_of_true
      · intro _ _ cl lower upper
        omega
      · right
        intro cl lower _ upper
        omega
    · have scanned : exfatMaxClusters v = v.exfatClusterCount := by
        rw [exfatMaxClusters, if_pos empty]
        omega
      rw [exfatAllocCluster, scanned]
      exact allocScan_reportsFull_iff (exfatClaim_returns v sectors) _

/-- On a blank table, the allocators find a cluster. -/
theorem allocators_reportFull_iff_blank :
    ReportsFull smallVol (fatAllocFreeCluster smallVol) (fun _ _ => 0) smallVol.dataClusters ∧
      ReportsFull exfatVol (exfatAllocCluster exfatVol) (fun _ _ => 0)
        exfatVol.exfatClusterCount := by
  have small := (allocators_reportFull_iff smallVol fun _ _ => 0).1 (by decide)
  have exfat := (allocators_reportFull_iff exfatVol fun _ _ => 0).2 (by decide)
  exact ⟨small.mpr (.inl ⟨2, by decide, by decide, by decide⟩),
    exfat.mpr (.inl ⟨2, by decide, by decide, by decide⟩)⟩

/-- A table in which the last two data clusters are free, and no others. -/
def lastTwoFree (clusters : Nat) : Nat → Buffer := fun _ index =>
  if index < 4 * clusters then 0xFF else 0

/-- The last two clusters of both volumes are free when the allocators return 0. -/
theorem allocators_miss_last_two :
    (¬ ∀ (v : Vol) (sectors : Nat → Buffer), v.dataClusters ≤ 1048574 →
      ReportsFull v (fatAllocFreeCluster v) sectors v.dataClusters) ∧
    ¬ ∀ (v : Vol) (sectors : Nat → Buffer), v.exfatClusterCount ≤ 1048574 →
      ReportsFull v (exfatAllocCluster v) sectors v.exfatClusterCount := by
  constructor
  · intro claim
    have scanned : fatMaxClusters smallVol = smallVol.dataClusters := by decide +kernel
    have used : ∀ cl < smallVol.dataClusters, 2 ≤ cl →
        fatEntry smallVol (lastTwoFree smallVol.dataClusters) cl ≠ 0 := by
      decide +kernel
    apply claim smallVol (lastTwoFree smallVol.dataClusters) (by decide)
      (lastTwoFree smallVol.dataClusters) _ smallVol.dataClusters (by decide) (by decide)
      (by decide +kernel)
    rw [fatAllocFreeCluster, scanned]
    apply (allocScan_eq_zero (fatClaim_returns smallVol _)).mpr
    exact ⟨rfl, fun cl lower upper => used cl upper lower⟩
  · intro claim
    have scanned : exfatMaxClusters exfatVol = exfatVol.exfatClusterCount := by decide +kernel
    have used : ∀ cl < exfatVol.exfatClusterCount, 2 ≤ cl →
        fatEntry exfatVol (lastTwoFree exfatVol.exfatClusterCount) cl ≠ 0 := by
      decide +kernel
    apply claim exfatVol (lastTwoFree exfatVol.exfatClusterCount) (by decide)
      (lastTwoFree exfatVol.exfatClusterCount) _ exfatVol.exfatClusterCount (by decide)
      (by decide) (by decide +kernel)
    rw [exfatAllocCluster, scanned]
    apply (allocScan_eq_zero (exfatClaim_returns exfatVol _)).mpr
    exact ⟨rfl, fun cl lower upper => used cl upper lower⟩

end ParanOS

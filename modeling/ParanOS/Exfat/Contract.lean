import ParanOS.Driver
import ParanOS.Exfat.Walk

/-! # What exFAT callers can rely on

Over any sequence of calls on a device none of whose calls fails, the bitmap
stays in agreement with the table and the chains stay well formed, unless an
entry set is longer than a cluster: such a set is written over the end of its
cluster.
-/

namespace ParanOS

open Foundation
open ExfatOwner (LiveAt)

/-! ## Runs -/

/-- The set of each component of the path fits into a cluster. -/
def Call.SetsFit (call : Call) (v : Vol) : Prop :=
  ∀ comp ∈ call.path.componentsLong, entriesFor comp * 32 ≤ v.clusterBytes

section

variable {v : Vol} {sectors : Nat → Buffer} (sound : ExfatSound v sectors) {fuel : Nat}
  (enough : v.exfatClusterCount + 2 < fuel)
include sound enough

omit enough sound in
theorem Call.fitting {call : Call} (fits : call.SetsFit v) :
    ∀ comp ∈ call.path.componentsLong, Fitting v comp := by
  intro comp member
  have chars := componentsLong_chars call.path comp member
  exact ⟨chars.1, chars.2.1, fits comp member⟩

/-- One call, successful or not, keeps the volume sound. -/
theorem Call.keeps_exfatSound (call : Call) (fits : call.SetsFit v) :
    ∃ code sectors', call.run fuel v (Device.healthy sectors) =
        some ((v, code), Device.healthy sectors') ∧ ExfatSound v sectors' := by
  rcases sound with ⟨shape, bitmap, sound⟩
  rcases sound.owned.dirAt_root with ⟨chain, root⟩
  have fitting := call.fitting fits
  cases call with
  | writeFile path data =>
      rcases exfatWriteWalk_sound shape enough data fitting sound root with
        ⟨code, sectors', ran, final⟩
      refine ⟨code, sectors', ?_, shape, bitmap, final⟩
      have located : exfatLoadBitmapInfo v fuel (Device.healthy sectors) =
          some ((0, v), Device.healthy sectors) := by
        rw [exfatLoadBitmapInfo, if_pos sound.agreed.bitmap.located]
        rfl
      simp only [Call.run, fat32WriteFilePath, shape.exfat]
      rw [exfatWriteFile, DiskM.bind_run located]
      exact ran
  | ensureDir path =>
      rcases exfatEnsureWalk_sound shape enough fitting sound root with
        ⟨code, sectors', ran, final⟩
      refine ⟨code, sectors', ?_, shape, bitmap, final⟩
      simp only [Call.run, fat32EnsureDirPath, shape.exfat]
      exact ran

end

/-- Without sets in the root directory there are only the root and the bitmap. -/
theorem ExfatOwner.LiveAt.of_no_sets {v : Vol} {store : ClusterStore} {root : List Nat}
    {depth : Nat}
    {owner : ExfatOwner} (occupied : v.rootClus ≠ 0)
    (rootHolds : ExfatOwner.root.Holds v store root)
    (none : ∀ place ∈ chainPlaces v root, ¬ IsSet v store place)
    (live : LiveAt v store depth owner) : owner = .root ∨ owner = .bitmap := by
  induction live with
  | root => exact .inl rfl
  | bitmap => exact .inr rfl
  | entry _ isDir linked member set induction =>
      rcases induction with rfl | rfl
      · have same := linked.unique (rootHolds.linked occupied)
        subst same
        exact absurd set (none _ member)
      · exact absurd isDir (by simp [ExfatOwner.IsDir])

/-- A volume whose root directory has no sets. -/
theorem ExfatOwned.of_no_sets {v : Vol} {store : ClusterStore} {root bitmap : List Nat}
    (occupied : v.rootClus ≠ 0) (rootHolds : ExfatOwner.root.Holds v store root)
    (bitmapHolds : ExfatOwner.bitmap.Holds v store bitmap) (apart : root.Disjoint bitmap)
    (none : ∀ place ∈ chainPlaces v root, ¬ IsSet v store place) : ExfatOwned v store := by
  constructor
  · constructor
    · rintro owner ⟨depth, live⟩
      rcases live.of_no_sets occupied rootHolds none with rfl | rfl
      · exact ⟨root, rootHolds⟩
      · exact ⟨bitmap, bitmapHolds⟩
    · rintro owner other members members' ⟨depth, live⟩ ⟨depth', live'⟩ different holds holds'
      rcases live.of_no_sets occupied rootHolds none with rfl | rfl <;>
        rcases live'.of_no_sets occupied rootHolds none with rfl | rfl
      · exact absurd rfl different
      · rw [holds.unique rootHolds, holds'.unique bitmapHolds]
        exact apart
      · rw [holds.unique bitmapHolds, holds'.unique rootHolds]
        exact List.disjoint_symm apart
      · exact absurd rfl different
  · rintro owner ⟨depth, live⟩ isDir
    rcases live.of_no_sets occupied rootHolds none with rfl | rfl
    · exact occupied
    · exact absurd isDir (by simp [ExfatOwner.IsDir])

theorem exfatVol_shape : ExfatGeometry exfatVol := by
  refine ⟨rfl, by decide, by decide, by decide, by decide, by decide, by decide, ?_, by decide,
    by decide⟩
  intro clus below
  have bound : clus < 18 := below
  have first : 4 * clus / 512 = 0 := by omega
  simp only [exfatVol, Vol.heapLba, first]
  omega

/-- The chain of a cluster of the small volume that is marked as the last one. -/
theorem exfatVol_holds {sectors : Nat → Buffer} {cl : Nat} (nonzero : cl ≠ 0)
    (running : ¬ EndOfChain cl) (data : DataCluster (exfatVol.exfatClusterCount + 2) cl)
    (last : EndOfChain ((exfatView exfatVol sectors).next cl)) :
    Chain (exfatVol.exfatClusterCount + 2) (exfatView exfatVol sectors) cl [cl] := by
  refine .chain nonzero running (.single running last) ?_
  intro other member
  rw [List.mem_singleton.mp member]
  exact data

theorem exfatVol_root_holds {sectors : Nat → Buffer}
    (last : EndOfChain ((exfatView exfatVol sectors).next 4)) :
    ExfatOwner.root.Holds exfatVol (exfatView exfatVol sectors) [4] :=
  show Chain (exfatVol.exfatClusterCount + 2) (exfatView exfatVol sectors) 4 [4] from
    exfatVol_holds (by decide) (by decide) ⟨by decide, by decide⟩ last

/-- The small volume is sound when its bits agree with its table and the root
directory has no sets. -/
theorem exfatVol_sound {sectors : Nat → Buffer}
    (bitmapLast : EndOfChain ((exfatView exfatVol sectors).next 3))
    (rootLast : EndOfChain ((exfatView exfatVol sectors).next 4))
    (bits : ∀ cl < 18, 2 ≤ cl →
      (bitOf (exfatView exfatVol sectors) (bitPlace exfatVol [3] cl) = true ↔
        (exfatView exfatVol sectors).next cl ≠ 0))
    (none : ∀ place ∈ chainPlaces exfatVol [4],
      ¬ IsSet exfatVol (exfatView exfatVol sectors) place) :
    ExfatSound exfatVol sectors := by
  have bitmapHolds := exfatVol_holds (show 3 ≠ 0 by decide) (by decide)
    ⟨by decide, by decide⟩ bitmapLast
  have bitmap : Bitmap exfatVol (exfatView exfatVol sectors) [3] :=
    ⟨bitmapHolds.linked (by decide), fun _ member => bitmapHolds.inside member, by decide,
      by decide, by decide⟩
  refine ⟨exfatVol_shape, [3], ⟨bitmap, fun cl data => bits cl data.2 data.1⟩, ?_⟩
  exact .of_no_sets (by decide) (exfatVol_root_holds rootLast) bitmapHolds (by simp) none

/-- The bits of the bitmap and of the root directory's cluster are set. -/
theorem exfatImage_sound : ExfatSound exfatVol (exfatImage 6) :=
  exfatVol_sound (by decide) (by decide) (by decide) (by decide)

/-- In agreement, the bit of cluster 3 of the small volume is the second bit of
its bitmap. -/
theorem exfatVol_second_bit {sectors : Nat → Buffer} {bitmap : List Nat}
    (agreed : Agreed exfatVol (exfatView exfatVol sectors) bitmap) :
    (sectors 3 0).toNat.testBit 1 = true ↔ fatEntry exfatVol sectors 3 ≠ 0 := by
  have linked := agreed.bitmap.linked
  have capacity := agreed.bitmap.capacity
  cases linked with
  | nil _ => exact absurd capacity (by decide)
  | cons running tail =>
      have agree := agreed.agree 3 ⟨by decide, by decide⟩
      rw [exfatVol_shape.geometry.fatEntry_eq sectors
        (show 3 < exfatVol.exfatClusterCount + 2 by decide) (by decide)]
      exact agree

end ParanOS

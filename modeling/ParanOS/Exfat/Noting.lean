import ParanOS.Driver
import ParanOS.Exfat.Lookup

/-! # Calls on an exFAT volume just mounted

`fat32_mount` does not look for the allocation bitmap. The driver notes where it is when a
lookup or `exfat_load_bitmap_info` comes to its entry in the root directory. With that entry
in front of all sets, a call goes as if the bitmap had been known before.
-/

namespace ParanOS

open Foundation

/-- The slot is in use and has neither the bitmap's entry nor a set. -/
structure Skipped (v : Vol) (store : ClusterStore) (place : Place) : Prop where
  used : body v store place.cl place.off ≠ 0x00
  other : body v store place.cl place.off ≠ exfatEntryBitmap
  none : setAt v store place = none

/-- The volume with the bitmap that the entry in a slot names. -/
def Vol.notedAt (v : Vol) (store : ClusterStore) (place : Place) : Vol :=
  { v with
    exfatBitmapClus := (body v store place.cl).getU32 (place.off + 20)
    exfatBitmapSize := (body v store place.cl).getU64 (place.off + 24) }

/-- The bitmap's entry stands in one of the slots, in front of all sets. -/
inductive Announced (v : Vol) (store : ClusterStore) (place : Place) : List Place → Prop
  | here {rest} : body v store place.cl place.off = exfatEntryBitmap →
      Announced v store place (place :: rest)
  | behind {other rest} : Skipped v store other → Announced v store place rest →
      Announced v store place (other :: rest)

theorem Announced.split {v : Vol} {store : ClusterStore} {place : Place}
    {first second : List Place} (announced : Announced v store place (first ++ second)) :
    Announced v store place first ∨
      (∀ other ∈ first, Skipped v store other) ∧ Announced v store place second := by
  induction first with
  | nil => exact .inr ⟨by simp, announced⟩
  | cons head rest induction =>
      cases announced with
      | here entry => exact .inl (.here entry)
      | behind skipped later =>
          rcases induction later with inside | ⟨none, beyond⟩
          · exact .inl (.behind skipped inside)
          · refine .inr ⟨?_, beyond⟩
            intro other member
            rcases List.mem_cons.mp member with rfl | later
            · exact skipped
            · exact none other later

section

variable {v : Vol} (shape : ExfatGeometry v)
include shape

theorem ExfatGeometry.noted (store : ClusterStore) (place : Place) :
    ExfatGeometry (v.notedAt store place) where
  exfat := shape.exfat
  sector_small := shape.sector_small
  cluster_small := shape.cluster_small
  clusters := shape.clusters
  geometry :=
    have geometry := shape.geometry
    ⟨geometry.sector_pos, geometry.slot_dvd, geometry.cluster_pos, geometry.table_below,
      geometry.heap_end, geometry.heap_small⟩

/-! ## Slots -/

/-- Where the driver looks for the bitmap, it reads the entry as it is stored. -/
theorem noteBitmap_slot (sectors : Nat → Buffer) (cl : Nat) {off : Nat} (aligned : 32 ∣ off) :
    noteBitmap v ((exfatView v sectors).sector cl (off / v.bytesPerSec)) (off % v.bytesPerSec) =
      if body v (exfatView v sectors) cl off = exfatEntryBitmap ∧ v.exfatBitmapClus = 0 then
        v.notedAt (exfatView v sectors) ⟨cl, off⟩
      else v := by
  have bytes : ∀ index < 32, (exfatView v sectors).sector cl (off / v.bytesPerSec)
      (off % v.bytesPerSec + index) = body v (exfatView v sectors) cl (off + index) :=
    fun index below => body_slot shape _ cl aligned below
  rw [noteBitmap, body_slot_start shape (exfatView v sectors) cl aligned]
  have cluster : ((exfatView v sectors).sector cl (off / v.bytesPerSec)).getU32
      (off % v.bytesPerSec + 20) = (body v (exfatView v sectors) cl).getU32 (off + 20) := by
    apply Buffer.getU32_congr
    intro index below
    rw [Nat.add_assoc, Nat.add_assoc]
    exact bytes (20 + index) (by omega)
  have size : ((exfatView v sectors).sector cl (off / v.bytesPerSec)).getU64
      (off % v.bytesPerSec + 24) = (body v (exfatView v sectors) cl).getU64 (off + 24) := by
    apply Buffer.getU64_congr
    intro index below
    rw [Nat.add_assoc, Nat.add_assoc]
    exact bytes (24 + index) (by omega)
  rw [cluster, size]
  rfl

variable {sectors : Nat → Buffer} {cl off : Nat}
  (data : DataCluster (v.exfatClusterCount + 2) cl) (aligned : 32 ∣ off)
  (inside : off < v.clusterBytes) (rest : List Nat)
include data aligned inside

theorem findSlots_skipped (want : List UInt8)
    (skipped : Skipped v (exfatView v sectors) ⟨cl, off⟩) :
    findSlots v want cl (off :: rest) (Device.healthy sectors) =
      findSlots v want cl rest (Device.healthy sectors) := by
  have first := body_slot_start shape (exfatView v sectors) cl aligned
  have noted : noteBitmap v ((exfatView v sectors).sector cl (off / v.bytesPerSec))
      (off % v.bytesPerSec) = v := by
    rw [noteBitmap_slot shape sectors cl aligned, if_neg fun both => skipped.other both.1]
  rcases (exfatSetAt_reads shape sectors data aligned).healthy with
    ⟨_, set, _, ⟨impossible, _⟩ | ⟨_, rfl⟩, collected⟩
  · simp at impossible
  rw [skipped.none] at collected
  rw [findSlots, DiskM.bind_run (rd_slot shape sectors data inside)]
  simp only
  rw [first, if_neg skipped.used, noted, DiskM.bind_run collected]

theorem loadSlots_skipped (skipped : Skipped v (exfatView v sectors) ⟨cl, off⟩) :
    loadSlots v cl (off :: rest) (Device.healthy sectors) =
      loadSlots v cl rest (Device.healthy sectors) := by
  have first := body_slot_start shape (exfatView v sectors) cl aligned
  rw [loadSlots, DiskM.bind_run (rd_slot shape sectors data inside)]
  simp only
  rw [first, if_neg skipped.used, if_neg skipped.other]

variable (unknown : v.exfatBitmapClus = 0)
  (entry : body v (exfatView v sectors) cl off = exfatEntryBitmap)
include unknown entry

/-- Behind the bitmap's entry a lookup goes on with the noted volume. -/
theorem findSlots_here (want : List UInt8)
    (located : (v.notedAt (exfatView v sectors) ⟨cl, off⟩).exfatBitmapClus ≠ 0) :
    findSlots v want cl (off :: rest) (Device.healthy sectors) =
      findSlots (v.notedAt (exfatView v sectors) ⟨cl, off⟩) want cl (off :: rest)
        (Device.healthy sectors) := by
  have read := rd_slot shape sectors data inside
  have read' := rd_slot (shape.noted (exfatView v sectors) ⟨cl, off⟩) sectors data inside
  have used := body_slot_start shape (exfatView v sectors) cl aligned
  have noted := noteBitmap_slot shape sectors cl aligned
  rw [entry] at used
  rw [if_pos ⟨entry, unknown⟩] at noted
  rw [findSlots, DiskM.bind_run read, findSlots, DiskM.bind_run read']
  simp only
  rw [used, if_neg (by decide), noted]
  have used' : (exfatView (v.notedAt (exfatView v sectors) ⟨cl, off⟩) sectors).sector cl
      (off / (v.notedAt (exfatView v sectors) ⟨cl, off⟩).bytesPerSec)
      (off % (v.notedAt (exfatView v sectors) ⟨cl, off⟩).bytesPerSec) = exfatEntryBitmap := used
  have again : ∀ sec offInSec, noteBitmap (v.notedAt (exfatView v sectors) ⟨cl, off⟩) sec
      offInSec = v.notedAt (exfatView v sectors) ⟨cl, off⟩ := by
    intro sec offInSec
    rw [noteBitmap, if_neg fun both => located both.2]
  rw [used', if_neg (by decide), again]
  rfl

theorem loadSlots_here :
    loadSlots v cl (off :: rest) (Device.healthy sectors) =
      some (some (0, v.notedAt (exfatView v sectors) ⟨cl, off⟩), Device.healthy sectors) := by
  have first := body_slot_start shape (exfatView v sectors) cl aligned
  rw [entry] at first
  rw [loadSlots, DiskM.bind_run (rd_slot shape sectors data inside)]
  simp only
  rw [first, if_neg (by decide), if_pos rfl, noteBitmap_slot shape sectors cl aligned,
    if_pos ⟨entry, unknown⟩]
  rfl

end

/-! ## Clusters -/

section

variable {v : Vol} (shape : ExfatGeometry v) (unknown : v.exfatBitmapClus = 0)
  {sectors : Nat → Buffer} {place : Place}
include shape

theorem findSlots_skippedAll (want : List UInt8) {cl : Nat}
    (data : DataCluster (v.exfatClusterCount + 2) cl) (offsets : List Nat)
    (range : ∀ off ∈ offsets, 32 ∣ off ∧ off < v.clusterBytes)
    (skipped : ∀ off ∈ offsets, Skipped v (exfatView v sectors) ⟨cl, off⟩) :
    findSlots v want cl offsets (Device.healthy sectors) =
      some ((v, none), Device.healthy sectors) := by
  induction offsets with
  | nil => rfl
  | cons off rest induction =>
      have here := range off (by simp)
      rw [findSlots_skipped shape data here.1 here.2 rest want (skipped off (by simp))]
      exact induction (fun other member => range other (by simp [member]))
        fun other member => skipped other (by simp [member])

theorem loadSlots_skippedAll {cl : Nat} (data : DataCluster (v.exfatClusterCount + 2) cl)
    (offsets : List Nat) (range : ∀ off ∈ offsets, 32 ∣ off ∧ off < v.clusterBytes)
    (skipped : ∀ off ∈ offsets, Skipped v (exfatView v sectors) ⟨cl, off⟩) :
    loadSlots v cl offsets (Device.healthy sectors) = some (none, Device.healthy sectors) := by
  induction offsets with
  | nil => rfl
  | cons off rest induction =>
      have here := range off (by simp)
      rw [loadSlots_skipped shape data here.1 here.2 rest (skipped off (by simp))]
      exact induction (fun other member => range other (by simp [member]))
        fun other member => skipped other (by simp [member])

include unknown

theorem findSlots_announced (want : List UInt8)
    (located : (v.notedAt (exfatView v sectors) place).exfatBitmapClus ≠ 0) {cl : Nat}
    (data : DataCluster (v.exfatClusterCount + 2) cl) (offsets : List Nat)
    (range : ∀ off ∈ offsets, 32 ∣ off ∧ off < v.clusterBytes)
    (announced : Announced v (exfatView v sectors) place (offsets.map fun off => ⟨cl, off⟩)) :
    findSlots v want cl offsets (Device.healthy sectors) =
      findSlots (v.notedAt (exfatView v sectors) place) want cl offsets
        (Device.healthy sectors) := by
  have shape' := shape.noted (exfatView v sectors) place
  induction offsets with
  | nil => cases announced
  | cons off rest induction =>
      rcases range off (by simp) with ⟨aligned, inside⟩
      cases announced with
      | here entry => exact findSlots_here shape data aligned inside rest unknown entry want located
      | behind skipped later =>
          rw [findSlots_skipped shape data aligned inside rest want skipped,
            findSlots_skipped shape' data aligned inside rest want
              ⟨skipped.used, skipped.other, skipped.none⟩]
          exact induction (fun other member => range other (by simp [member])) later

theorem loadSlots_announced {cl : Nat} (data : DataCluster (v.exfatClusterCount + 2) cl)
    (offsets : List Nat) (range : ∀ off ∈ offsets, 32 ∣ off ∧ off < v.clusterBytes)
    (announced : Announced v (exfatView v sectors) place (offsets.map fun off => ⟨cl, off⟩)) :
    loadSlots v cl offsets (Device.healthy sectors) =
      some (some (0, v.notedAt (exfatView v sectors) place), Device.healthy sectors) := by
  induction offsets with
  | nil => cases announced
  | cons off rest induction =>
      rcases range off (by simp) with ⟨aligned, inside⟩
      cases announced with
      | here entry => exact loadSlots_here shape data aligned inside rest unknown entry
      | behind skipped later =>
          rw [loadSlots_skipped shape data aligned inside rest skipped]
          exact induction (fun other member => range other (by simp [member])) later

/-! ## Directories -/

/-- A lookup goes as if the bitmap had been known before. -/
theorem exfatFindInDir_announced (want : List UInt8)
    (located : (v.notedAt (exfatView v sectors) place).exfatBitmapClus ≠ 0)
    {start : Nat} {chain : List Nat}
    (linked : Linked (exfatView v sectors).next EndOfChain start chain)
    (data : ∀ cl ∈ chain, DataCluster (v.exfatClusterCount + 2) cl)
    (announced : Announced v (exfatView v sectors) place (chainPlaces v chain)) (fuel : Nat) :
    exfatFindInDir want fuel start v (Device.healthy sectors) =
      exfatFindInDir want fuel start (v.notedAt (exfatView v sectors) place)
        (Device.healthy sectors) := by
  have shape' := shape.noted (exfatView v sectors) place
  induction linked generalizing fuel with
  | nil _ => cases announced
  | @cons cl rest running tail induction =>
      cases fuel with
      | zero => rfl
      | succ fuel =>
          have clData := data cl (by simp)
          have range : ∀ off ∈ clusterOffsets v, 32 ∣ off ∧ off < v.clusterBytes :=
            fun off member => (mem_clusterOffsets shape).mp member
          have going : isEndCluster cl = false := by
            simpa [EndOfChain] using running
          rw [exfatFindInDir, exfatFindInDir, going, if_neg Bool.false_ne_true,
            if_neg Bool.false_ne_true]
          rw [chainPlaces, List.flatMap_cons] at announced
          rcases announced.split with here | ⟨skipped, later⟩
          · have same := findSlots_announced shape unknown want located clData _ range here
            simp only [DiskM.bind_apply, same]
            rfl
          · have skipped' : ∀ off ∈ clusterOffsets v, Skipped v (exfatView v sectors) ⟨cl, off⟩ :=
              fun off member => skipped _ (List.mem_map_of_mem member)
            have passed := findSlots_skippedAll shape want clData _ range skipped'
            have passed' := findSlots_skippedAll shape' want clData
              (clusterOffsets (v.notedAt (exfatView v sectors) place)) range
              fun off member => ⟨(skipped' off member).used, (skipped' off member).other,
                (skipped' off member).none⟩
            rw [DiskM.bind_run passed, DiskM.bind_run passed']
            simp only
            rw [DiskM.bind_run (fatReadFatEntry_healthy v cl sectors),
              DiskM.bind_run (fatReadFatEntry_healthy _ cl sectors),
              shape.geometry.fatEntry_eq sectors clData.2 running,
              shape'.geometry.fatEntry_eq sectors clData.2 running]
            exact induction (fun other member => data other (by simp [member])) later fuel

theorem loadClusters_announced {start fuel : Nat} {chain : List Nat}
    (linked : Linked (exfatView v sectors).next EndOfChain start chain)
    (data : ∀ cl ∈ chain, DataCluster (v.exfatClusterCount + 2) cl)
    (announced : Announced v (exfatView v sectors) place (chainPlaces v chain))
    (enough : chain.length < fuel) :
    loadClusters v fuel start (Device.healthy sectors) =
      some ((0, v.notedAt (exfatView v sectors) place), Device.healthy sectors) := by
  induction linked, enough using Linked.walk with
  | nil _ => cases announced
  | @cons cl rest fuel running tail shorter induction =>
      have clData := data cl (by simp)
      have range : ∀ off ∈ clusterOffsets v, 32 ∣ off ∧ off < v.clusterBytes :=
        fun off member => (mem_clusterOffsets shape).mp member
      have going : isEndCluster cl = false := by
        simpa [EndOfChain] using running
      rw [loadClusters, going, if_neg Bool.false_ne_true]
      rw [chainPlaces, List.flatMap_cons] at announced
      rcases announced.split with here | ⟨skipped, later⟩
      · rw [DiskM.bind_run (loadSlots_announced shape unknown clData _ range here)]
        rfl
      · rw [DiskM.bind_run (loadSlots_skippedAll shape clData _ range
          fun off member => skipped _ (List.mem_map_of_mem member))]
        simp only
        rw [DiskM.bind_run (fatReadFatEntry_healthy v cl sectors),
          shape.geometry.fatEntry_eq sectors clData.2 running]
        exact induction (fun other member => data other (by simp [member])) later

end

/-! ## Calls -/

/-- The driver does not know the bitmap of the volume yet. The root directory has the entry
of the bitmap in front of all sets. -/
structure JustMounted (v : Vol) (sectors : Nat → Buffer) (root : List Nat) (place : Place) :
    Prop where
  unknown : v.exfatBitmapClus = 0
  linked : Linked (exfatView v sectors).next EndOfChain v.rootClus root
  data : ∀ cl ∈ root, DataCluster (v.exfatClusterCount + 2) cl
  announced : Announced v (exfatView v sectors) place (chainPlaces v root)

/-- A call goes as if the bitmap had been known before, or there is nothing to do. -/
theorem JustMounted.run_eq {v : Vol} (shape : ExfatGeometry v) {sectors : Nat → Buffer}
    {root : List Nat} {place : Place} {fuel : Nat} (mounted : JustMounted v sectors root place)
    (located : (v.notedAt (exfatView v sectors) place).exfatBitmapClus ≠ 0)
    (enough : v.exfatClusterCount + 2 < fuel) (call : Call) :
    call.run fuel v (Device.healthy sectors) =
        call.run fuel (v.notedAt (exfatView v sectors) place) (Device.healthy sectors) ∨
      call.run fuel v (Device.healthy sectors) = some ((v, 0), Device.healthy sectors) := by
  have shape' := shape.noted (exfatView v sectors) place
  have short := length_le_of_nodup_of_lt mounted.linked.nodup fun cl member =>
    (mounted.data cl member).2
  cases call with
  | writeFile path data =>
      left
      have loaded : exfatLoadBitmapInfo v fuel (Device.healthy sectors) =
          some ((0, v.notedAt (exfatView v sectors) place), Device.healthy sectors) := by
        rw [exfatLoadBitmapInfo, if_neg (not_not.mpr mounted.unknown)]
        exact loadClusters_announced shape mounted.unknown mounted.linked mounted.data
          mounted.announced (by omega)
      have again : exfatLoadBitmapInfo (v.notedAt (exfatView v sectors) place) fuel
          (Device.healthy sectors) =
            some ((0, v.notedAt (exfatView v sectors) place), Device.healthy sectors) := by
        rw [exfatLoadBitmapInfo, if_pos located]
        rfl
      simp only [Call.run, fat32WriteFilePath, shape.exfat, shape'.exfat]
      rw [exfatWriteFile, exfatWriteFile, DiskM.bind_run loaded, DiskM.bind_run again]
  | ensureDir path =>
      simp only [Call.run, fat32EnsureDirPath, shape.exfat, shape'.exfat]
      cases path.componentsLong with
      | nil => exact .inr rfl
      | cons comp rest =>
          left
          have same := exfatFindInDir_announced shape mounted.unknown comp located mounted.linked
            mounted.data mounted.announced fuel
          simp only [exfatEnsureWalk, DiskM.bind_apply, same]
          rfl

end ParanOS

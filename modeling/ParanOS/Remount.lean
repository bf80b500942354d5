import ParanOS.Exfat.Bitmap
import ParanOS.Fat.Mount
import ParanOS.Fat.RootFile

/-! # Mounting over an earlier volume

The volume structure is filled in by every mount, also when it describes another volume
already. The exFAT branch leaves the location of the allocation bitmap as it was, and
the driver looks for the bitmap only where that location is zero.
-/

namespace ParanOS

open Foundation

/-! ## Fields that are not read -/

/-- The volume with the reserved-sector count and the exFAT fields of another one. -/
def Vol.withFieldsOf (v other : Vol) : Vol :=
  { v with
    rsvdSecCnt := other.rsvdSecCnt
    exfatFatLength := other.exfatFatLength
    exfatHeapOffset := other.exfatHeapOffset
    exfatClusterCount := other.exfatClusterCount
    exfatBitmapClus := other.exfatBitmapClus
    exfatBitmapSize := other.exfatBitmapSize
    exfatBpsShift := other.exfatBpsShift
    exfatSpcShift := other.exfatSpcShift }

section

variable (v other : Vol)

theorem dirScan_withFieldsOf {β : Type} (visit : Nat → Nat → Buffer → Nat → Option β)
    (failed exhausted : β) :
    dirScan (v.withFieldsOf other) visit failed exhausted = dirScan v visit failed exhausted := by
  funext fuel dirCl
  induction fuel generalizing dirCl with
  | zero => rfl
  | succ fuel induction =>
      rw [dirScan, dirScan]
      simp only [induction]
      rfl

theorem readSectors_withFieldsOf :
    readSectors (v.withFieldsOf other) = readSectors v := by
  funext lba count s left out
  induction count generalizing s left out with
  | zero => rfl
  | succ count induction =>
      rw [readSectors, readSectors]
      simp only [induction]
      rfl

theorem readClusters_withFieldsOf :
    readClusters (v.withFieldsOf other) = readClusters v := by
  funext fuel cl left out
  induction fuel generalizing cl left out with
  | zero => rfl
  | succ fuel induction =>
      rw [readClusters, readClusters]
      simp only [induction, readSectors_withFieldsOf]
      rfl

theorem writeSectors_withFieldsOf :
    writeSectors (v.withFieldsOf other) = writeSectors v := by
  funext lba count s src
  induction count generalizing s src with
  | zero => rfl
  | succ count induction =>
      rw [writeSectors, writeSectors]
      simp only [induction]
      rfl

theorem allocScan_withFieldsOf (claim : Nat → DiskM Nat) :
    allocScan (v.withFieldsOf other) claim = allocScan v claim := by
  funext count cl
  induction count generalizing cl with
  | zero => rfl
  | succ count induction =>
      rw [allocScan, allocScan]
      simp only [induction]
      rfl

theorem readFileFromCluster_withFieldsOf :
    readFileFromCluster (v.withFieldsOf other) = readFileFromCluster v := by
  funext fuel startClus fileSize maxBytes
  simp only [readFileFromCluster, readClusters_withFieldsOf]

theorem writeSingleCluster_withFieldsOf :
    writeSingleCluster (v.withFieldsOf other) = writeSingleCluster v := by
  funext clus data
  simp only [writeSingleCluster, writeSectors_withFieldsOf]
  rfl

theorem dirFindEntry_withFieldsOf :
    dirFindEntry (v.withFieldsOf other) = dirFindEntry v := by
  funext want11
  exact dirScan_withFieldsOf v other _ _ _

theorem createDirEntry_withFieldsOf :
    createDirEntry (v.withFieldsOf other) = createDirEntry v := by
  funext fuel parentCl name11 attr startClus sizeBytes
  simp only [createDirEntry, dirFindFreeSlot, dirScan_withFieldsOf]

theorem fatAllocFreeCluster_withFieldsOf :
    fatAllocFreeCluster (v.withFieldsOf other) = fatAllocFreeCluster v := by
  simp only [fatAllocFreeCluster, allocScan_withFieldsOf]
  rfl

theorem ensureDirectory_withFieldsOf :
    ensureDirectory (v.withFieldsOf other) = ensureDirectory v := by
  funext fuel parentCl name11
  simp only [ensureDirectory, makeDirectory, dirFindEntry_withFieldsOf,
    fatAllocFreeCluster_withFieldsOf, writeSectors_withFieldsOf, createDirEntry_withFieldsOf]
  rfl

theorem ensureWalk_withFieldsOf :
    ensureWalk (v.withFieldsOf other) = ensureWalk v := by
  funext fuel comps dirCl
  induction comps generalizing dirCl with
  | nil => rfl
  | cons comp rest induction =>
      rw [ensureWalk, ensureWalk]
      simp only [induction, ensureDirectory_withFieldsOf]
      rfl

theorem readWalk_withFieldsOf :
    readWalk (v.withFieldsOf other) = readWalk v := by
  funext fuel maxBytes comps dirCl
  induction comps generalizing dirCl with
  | nil => rfl
  | cons comp rest induction =>
      rw [readWalk, readWalk]
      simp only [induction, dirFindEntry_withFieldsOf, readFileFromCluster_withFieldsOf]
      rfl

theorem writeWalk_withFieldsOf :
    writeWalk (v.withFieldsOf other) = writeWalk v := by
  funext fuel data comps dirCl
  induction comps generalizing dirCl with
  | nil => rfl
  | cons comp rest induction =>
      rw [writeWalk, writeWalk]
      simp only [induction, dirFindEntry_withFieldsOf, ensureDirectory_withFieldsOf, createFile,
        overwriteFile, targetCluster, fatAllocFreeCluster_withFieldsOf,
        writeSingleCluster_withFieldsOf, createDirEntry_withFieldsOf]
      rfl

theorem listSectors_withFieldsOf :
    listSectors (v.withFieldsOf other) = listSectors v := by
  funext maxItems lba positions items
  induction positions generalizing items with
  | nil => rfl
  | cons s rest induction =>
      rw [listSectors, listSectors]
      simp only [induction]
      rfl

theorem listWalk_withFieldsOf :
    listWalk (v.withFieldsOf other) = listWalk v := by
  have clusters : listClusters (v.withFieldsOf other) = listClusters v := by
    funext maxItems fuel cl items
    induction fuel generalizing cl items with
    | zero => rfl
    | succ fuel induction =>
        rw [listClusters, listClusters]
        simp only [induction, listSectors_withFieldsOf]
        rfl
  funext fuel maxItems comps dirCl
  induction comps generalizing dirCl with
  | nil =>
      rw [listWalk, listWalk]
      simp only [clusters]
  | cons comp rest induction =>
      rw [listWalk, listWalk]
      simp only [induction, dirFindEntry_withFieldsOf]
      rfl

theorem readRootFile_withFieldsOf :
    readRootFile (v.withFieldsOf other) = readRootFile v := by
  funext fuel name maxBytes
  simp only [readRootFile, dirScan_withFieldsOf, readClusters_withFieldsOf]
  rfl

end

/-! ## The allocation bitmap before it is found -/

/-- The volume with another reserved-sector count and another size of the bitmap. -/
def Vol.withSizes (v : Vol) (rsvdSecCnt bitmapSize : Nat) : Vol :=
  { v with rsvdSecCnt := rsvdSecCnt, exfatBitmapSize := bitmapSize }

/-- The size of the bitmap is the same, or nothing reads it because the bitmap has not
been found. -/
def Vol.SizeIdle (v : Vol) (bitmapSize : Nat) : Prop :=
  v.exfatBitmapClus = 0 ∨ bitmapSize = v.exfatBitmapSize

section

variable (v : Vol) (rsvd size : Nat)

theorem exfatWalkChain_withSizes :
    exfatWalkChain (v.withSizes rsvd size) = exfatWalkChain v := by
  funext step cl
  induction step generalizing cl with
  | zero => rfl
  | succ step induction =>
      rw [exfatWalkChain, exfatWalkChain]
      simp only [induction]
      rfl

theorem writeSectors_withSizes :
    writeSectors (v.withSizes rsvd size) = writeSectors v :=
  writeSectors_withFieldsOf v (v.withSizes rsvd size)

theorem readFileFromCluster_withSizes :
    readFileFromCluster (v.withSizes rsvd size) = readFileFromCluster v :=
  readFileFromCluster_withFieldsOf v (v.withSizes rsvd size)

theorem exfatWriteChain_withSizes :
    exfatWriteChain (v.withSizes rsvd size) = exfatWriteChain v := by
  funext fuel start src
  induction fuel generalizing start src with
  | zero => rfl
  | succ fuel induction =>
      rw [exfatWriteChain, exfatWriteChain]
      simp only [induction, writeSectors_withSizes]
      rfl

theorem exfatZeroCluster_withSizes :
    exfatZeroCluster (v.withSizes rsvd size) = exfatZeroCluster v := by
  funext clus
  simp only [exfatZeroCluster, writeSectors_withSizes]
  rfl

theorem exfatSetAt_withSizes :
    exfatSetAt (v.withSizes rsvd size) = exfatSetAt v := by
  have loop : collectLoop (v.withSizes rsvd size) = collectLoop v := by
    funext lbaBase startByte count i last out
    induction count generalizing i last out with
    | zero => rfl
    | succ count induction =>
        rw [collectLoop, collectLoop]
        simp only [induction]
        rfl
  funext cluster byteOff sec
  simp only [exfatSetAt, exfatCollectEntries, loop]
  rfl

theorem exfatWriteEntrySet_withSizes :
    exfatWriteEntrySet (v.withSizes rsvd size) = exfatWriteEntrySet v := by
  have loop : writeEntries (v.withSizes rsvd size) = writeEntries v := by
    funext dirCl startByte setbuf count i
    induction count generalizing i with
    | zero => rfl
    | succ count induction =>
        rw [writeEntries, writeEntries]
        simp only [induction]
        rfl
  funext startCl startByte set totalEntries
  simp only [exfatWriteEntrySet, loop]

theorem freeClusters_withSizes :
    freeClusters (v.withSizes rsvd size) = freeClusters v := by
  have slots : freeSlots (v.withSizes rsvd size) = freeSlots v := by
    funext cluster totalEntries offsets run runStart
    induction offsets generalizing run runStart with
    | nil => rfl
    | cons byteOff rest induction =>
        rw [freeSlots, freeSlots]
        simp only [induction]
        rfl
  funext totalEntries fuel cluster prev
  induction fuel generalizing cluster prev with
  | zero => rfl
  | succ fuel induction =>
      rw [freeClusters, freeClusters]
      simp only [induction, slots]
      rfl

theorem exfatListDir_withSizes :
    exfatListDir (v.withSizes rsvd size) = exfatListDir v := by
  have slots : exfatListSlots (v.withSizes rsvd size) = exfatListSlots v := by
    funext maxItems cluster offsets items
    induction offsets generalizing items with
    | nil => rfl
    | cons byteOff rest induction =>
        rw [exfatListSlots, exfatListSlots]
        simp only [induction, exfatSetAt_withSizes]
        rfl
  funext maxItems fuel cluster items
  induction fuel generalizing cluster items with
  | zero => rfl
  | succ fuel induction =>
      rw [exfatListDir, exfatListDir]
      simp only [induction, slots]
      rfl

variable {v size} (idle : v.SizeIdle size)
include idle

theorem exfatMarkBitmap_withSizes :
    exfatMarkBitmap (v.withSizes rsvd size) = exfatMarkBitmap v := by
  funext cl used
  cases idle with
  | inl unknown =>
      have unknown' : (v.withSizes rsvd size).exfatBitmapClus = 0 := unknown
      rw [exfatMarkBitmap, exfatMarkBitmap, if_pos unknown, if_pos unknown']
  | inr same =>
      rw [same]
      simp only [exfatMarkBitmap, markBitmapByte, exfatWalkChain_withSizes]
      rfl

theorem exfatAllocCluster_withSizes :
    exfatAllocCluster (v.withSizes rsvd size) = exfatAllocCluster v := by
  have claim : exfatClaim (v.withSizes rsvd size) = exfatClaim v := by
    funext cl
    simp only [exfatClaim, exfatMarkBitmap_withSizes rsvd idle]
    rfl
  rw [exfatAllocCluster, exfatAllocCluster, claim]
  exact congrFun (congrFun (allocScan_withFieldsOf v (v.withSizes rsvd size) _) _) _

theorem exfatFreeChain_withSizes :
    exfatFreeChain (v.withSizes rsvd size) = exfatFreeChain v := by
  funext fuel cl
  induction fuel generalizing cl with
  | zero => rfl
  | succ fuel induction =>
      rw [exfatFreeChain, exfatFreeChain]
      simp only [induction, exfatMarkBitmap_withSizes rsvd idle]
      rfl

theorem exfatAllocChainForSize_withSizes :
    exfatAllocChainForSize (v.withSizes rsvd size) = exfatAllocChainForSize v := by
  have loop : allocChain (v.withSizes rsvd size) = allocChain v := by
    funext fuel need first prev
    induction need generalizing first prev with
    | zero => rfl
    | succ need induction =>
        rw [allocChain, allocChain]
        simp only [induction, rollBack, exfatAllocCluster_withSizes rsvd idle,
          exfatFreeChain_withSizes rsvd idle]
        rfl
  funext fuel bytes
  simp only [exfatAllocChainForSize, loop]
  rfl

theorem exfatFindFreeSet_withSizes :
    exfatFindFreeSet (v.withSizes rsvd size) = exfatFindFreeSet v := by
  funext fuel dirCl totalEntries
  simp only [exfatFindFreeSet, extendDirectory, freeClusters_withSizes,
    exfatAllocCluster_withSizes rsvd idle, exfatZeroCluster_withSizes]
  rfl

theorem exfatCreateEntry_withSizes :
    exfatCreateEntry (v.withSizes rsvd size) = exfatCreateEntry v := by
  funext fuel dirCl name isDir data
  simp only [exfatCreateEntry, allocContent, exfatAllocChainForSize_withSizes rsvd idle,
    exfatWriteChain_withSizes, exfatZeroCluster_withSizes, exfatFindFreeSet_withSizes rsvd idle,
    exfatWriteEntrySet_withSizes]
  rfl

theorem exfatOverwrite_withSizes :
    exfatOverwrite (v.withSizes rsvd size) = exfatOverwrite v := by
  funext fuel info name data
  simp only [exfatOverwrite, replaceContent, freeOld, exfatUpdateEntry,
    exfatAllocChainForSize_withSizes rsvd idle, exfatWriteChain_withSizes,
    exfatFreeChain_withSizes rsvd idle, exfatWriteEntrySet_withSizes]

end

/-! ## Operations that note the bitmap -/

/-- An exFAT volume and one that differs from it where nothing reads. -/
inductive SizesApart : Vol → Vol → Prop
  | intro {v : Vol} {size : Nat} (rsvd : Nat) (exfat : v.fsType = .exfat)
      (idle : v.SizeIdle size) : SizesApart v (v.withSizes rsvd size)

/-- Related volumes with the same result. -/
def Beside (related : Vol → Vol → Prop) {α : Type} (run run' : Vol × α) : Prop :=
  related run.1 run'.1 ∧ run.2 = run'.2

theorem Beside.pure {related : Vol → Vol → Prop} {v w : Vol} (holds : related v w) {α : Type}
    (value : α) : Lockstep (Beside related) (Pure.pure (v, value)) (Pure.pure (w, value)) :=
  Lockstep.pure ⟨holds, rfl⟩

/-- The same program on both sides, its result returned beside the volumes. -/
theorem Beside.of_same {related : Vol → Vol → Prop} {v w : Vol} (holds : related v w)
    {α β : Type} (program : DiskM α) (result : α → β) :
    Lockstep (Beside related)
      (do
        let value ← program
        Pure.pure (v, result value))
      (do
        let value ← program
        Pure.pure (w, result value)) :=
  .bind_same program fun value => Beside.pure holds (result value)

theorem SizesApart.note {v w : Vol} (apart : SizesApart v w) (sec : Buffer) (offInSec : Nat) :
    SizesApart (noteBitmap v sec offInSec) (noteBitmap w sec offInSec) := by
  cases apart with
  | @intro size rsvd exfat idle =>
      by_cases found : sec offInSec = exfatEntryBitmap ∧ v.exfatBitmapClus = 0
      · have found' : sec offInSec = exfatEntryBitmap ∧
            (v.withSizes rsvd size).exfatBitmapClus = 0 := found
        have noted := @SizesApart.intro { v with
          exfatBitmapClus := sec.getU32 (offInSec + 20)
          exfatBitmapSize := sec.getU64 (offInSec + 24) } _ rsvd exfat (.inr rfl)
        rw [noteBitmap, noteBitmap, if_pos found, if_pos found']
        exact noted
      · have missing : ¬ (sec offInSec = exfatEntryBitmap ∧
            (v.withSizes rsvd size).exfatBitmapClus = 0) := found
        rw [noteBitmap, noteBitmap, if_neg found, if_neg missing]
        exact .intro rsvd exfat idle

theorem SizesApart.setAt {v w : Vol} (apart : SizesApart v w) : exfatSetAt w = exfatSetAt v := by
  cases apart with
  | intro rsvd _ _ => exact exfatSetAt_withSizes v rsvd _

theorem SizesApart.readFile {v w : Vol} (apart : SizesApart v w) :
    readFileFromCluster w = readFileFromCluster v := by
  cases apart with
  | intro rsvd _ _ => exact readFileFromCluster_withSizes v rsvd _

theorem SizesApart.createEntry {v w : Vol} (apart : SizesApart v w) :
    exfatCreateEntry w = exfatCreateEntry v := by
  cases apart with
  | intro rsvd _ idle => exact exfatCreateEntry_withSizes rsvd idle

theorem SizesApart.overwrite {v w : Vol} (apart : SizesApart v w) :
    exfatOverwrite w = exfatOverwrite v := by
  cases apart with
  | intro rsvd _ idle => exact exfatOverwrite_withSizes rsvd idle

theorem findSlots_apart (want : List UInt8) (cluster : Nat) (offsets : List Nat) {v w : Vol}
    (apart : SizesApart v w) :
    Lockstep (Beside SizesApart) (findSlots v want cluster offsets)
      (findSlots w want cluster offsets) := by
  induction offsets generalizing v w with
  | nil => exact .pure ⟨apart, rfl⟩
  | cons byteOff rest induction =>
      cases apart with
      | @intro size rsvd exfat idle =>
          have apart : SizesApart v (v.withSizes rsvd size) := .intro rsvd exfat idle
          rw [findSlots, findSlots]
          apply Lockstep.bind_same
          intro sec
          cases sec with
          | none => exact .pure ⟨apart, rfl⟩
          | some sec =>
              apply Lockstep.ite
              · exact .pure ⟨apart, rfl⟩
              · have noted := apart.note sec (byteOff % v.bytesPerSec)
                apply (Lockstep.of_eq (congrFun (congrFun (congrFun noted.setAt.symm
                  cluster) byteOff) sec)).bind
                intro found found' same
                cases same
                cases found with
                | none => exact induction noted
                | some set =>
                    apply Lockstep.ite
                    · exact .pure ⟨noted, rfl⟩
                    · exact induction noted

theorem exfatFindInDir_apart (want : List UInt8) (fuel cluster : Nat) {v w : Vol}
    (apart : SizesApart v w) :
    Lockstep (Beside SizesApart) (exfatFindInDir want fuel cluster v)
      (exfatFindInDir want fuel cluster w) := by
  induction fuel generalizing cluster v w with
  | zero => exact .diverge
  | succ fuel induction =>
      rw [exfatFindInDir, exfatFindInDir]
      apply Lockstep.ite
      · exact .pure ⟨apart, rfl⟩
      · have offsets : clusterOffsets w = clusterOffsets v := by
          cases apart
          rfl
        rw [offsets]
        apply (findSlots_apart want cluster (clusterOffsets v) apart).bind
        rintro ⟨after, found⟩ ⟨after', found'⟩ ⟨stays, same⟩
        cases same
        cases found with
        | some result => exact .pure ⟨stays, rfl⟩
        | none =>
            cases stays with
            | intro rsvd exfat idle =>
                exact .bind_same (fatReadFatEntry after cluster) fun next =>
                  induction next (.intro rsvd exfat idle)

theorem loadSlots_apart (cluster : Nat) (offsets : List Nat) {v w : Vol}
    (apart : SizesApart v w) :
    Lockstep (Option.Rel fun run run' => run.1 = run'.1 ∧ SizesApart run.2 run'.2)
      (loadSlots v cluster offsets) (loadSlots w cluster offsets) := by
  induction offsets with
  | nil => exact .pure .none
  | cons byteOff rest induction =>
      have noted := fun sec => apart.note sec (byteOff % v.bytesPerSec)
      cases apart with
      | intro rsvd exfat idle =>
          rw [loadSlots, loadSlots]
          apply Lockstep.bind_same
          intro sec
          cases sec with
          | none => exact .pure (.some ⟨rfl, .intro rsvd exfat idle⟩)
          | some sec =>
              apply Lockstep.ite
              · exact .pure (.some ⟨rfl, .intro rsvd exfat idle⟩)
              · apply Lockstep.ite
                · exact .pure (.some ⟨rfl, noted sec⟩)
                · exact induction

theorem exfatLoadBitmapInfo_apart (fuel : Nat) {v w : Vol} (apart : SizesApart v w) :
    Lockstep (fun run run' => run.1 = run'.1 ∧ SizesApart run.2 run'.2)
      (exfatLoadBitmapInfo v fuel) (exfatLoadBitmapInfo w fuel) := by
  have clusters : ∀ cluster,
      Lockstep (fun run run' => run.1 = run'.1 ∧ SizesApart run.2 run'.2)
        (loadClusters v fuel cluster) (loadClusters w fuel cluster) := by
    induction fuel with
    | zero => exact fun _ => .diverge
    | succ fuel induction =>
        intro cluster
        have offsets : clusterOffsets w = clusterOffsets v := by
          cases apart
          rfl
        rw [loadClusters, loadClusters, offsets]
        apply Lockstep.ite
        · exact .pure ⟨rfl, apart⟩
        · apply (loadSlots_apart cluster (clusterOffsets v) apart).bind
          intro found found' same
          cases same with
          | some holds => exact .pure holds
          | none =>
              cases apart with
              | intro rsvd exfat idle => exact .bind_same (fatReadFatEntry v cluster) induction
  cases apart with
  | intro rsvd exfat idle =>
      rw [exfatLoadBitmapInfo, exfatLoadBitmapInfo]
      apply Lockstep.ite
      · exact .pure ⟨rfl, .intro rsvd exfat idle⟩
      · exact clusters v.rootClus

theorem followWalk_apart (fuel : Nat) (comps : List (List UInt8)) (dir : Nat) {v w : Vol}
    (apart : SizesApart v w) :
    Lockstep (Beside SizesApart) (followWalk fuel comps dir v) (followWalk fuel comps dir w) := by
  induction comps generalizing dir v w with
  | nil => exact .pure ⟨apart, rfl⟩
  | cons comp rest induction =>
      rw [followWalk, followWalk]
      apply (exfatFindInDir_apart comp fuel dir apart).bind
      rintro ⟨after, found⟩ ⟨after', found'⟩ ⟨stays, same⟩
      cases same
      cases found with
      | error code => exact .pure ⟨stays, rfl⟩
      | ok info =>
          apply Lockstep.ite
          · exact .pure ⟨stays, rfl⟩
          · apply Lockstep.ite
            · exact induction info.cluster stays
            · exact .pure ⟨stays, rfl⟩

theorem exfatReadWalk_apart (fuel maxBytes : Nat) (comps : List (List UInt8)) {v w : Vol}
    (apart : SizesApart v w) :
    Lockstep (Beside SizesApart) (exfatReadWalk fuel maxBytes comps v)
      (exfatReadWalk fuel maxBytes comps w) := by
  have root : w.rootClus = v.rootClus := by
    cases apart
    rfl
  rw [exfatReadWalk, exfatReadWalk, root]
  apply (followWalk_apart fuel comps v.rootClus apart).bind
  rintro ⟨after, found⟩ ⟨after', found'⟩ ⟨stays, same⟩
  cases same
  cases found with
  | error code => exact .pure ⟨stays, rfl⟩
  | ok found =>
      cases found with
      | none => exact .pure ⟨stays, rfl⟩
      | some info =>
          apply Lockstep.ite
          · exact .pure ⟨stays, rfl⟩
          · rw [stays.readFile]
            exact Beside.of_same stays _ id

theorem exfatWriteWalk_apart (fuel : Nat) (data : List UInt8) (comps : List (List UInt8))
    (dir : Nat) {v w : Vol} (apart : SizesApart v w) :
    Lockstep (Beside SizesApart) (exfatWriteWalk fuel data comps dir v)
      (exfatWriteWalk fuel data comps dir w) := by
  induction comps generalizing dir v w with
  | nil => exact .pure ⟨apart, rfl⟩
  | cons comp rest induction =>
      rw [exfatWriteWalk, exfatWriteWalk]
      apply (exfatFindInDir_apart comp fuel dir apart).bind
      rintro ⟨after, found⟩ ⟨after', found'⟩ ⟨stays, same⟩
      cases same
      cases found with
      | error code =>
          simp only [stays.createEntry]
          apply Lockstep.ite
          · exact Beside.of_same stays _ Prod.fst
          · apply Lockstep.bind_same
            intro created
            apply Lockstep.ite
            · exact .pure ⟨stays, rfl⟩
            · exact induction created.2 stays
      | ok info =>
          simp only [stays.overwrite]
          apply Lockstep.ite
          · exact Beside.of_same stays _ id
          · apply Lockstep.ite
            · exact induction info.cluster stays
            · exact .pure ⟨stays, rfl⟩

theorem exfatWriteFile_apart (fuel : Nat) (comps : List (List UInt8)) (data : List UInt8)
    {v w : Vol} (apart : SizesApart v w) :
    Lockstep (Beside SizesApart) (exfatWriteFile v fuel comps data)
      (exfatWriteFile w fuel comps data) := by
  rw [exfatWriteFile, exfatWriteFile]
  apply (exfatLoadBitmapInfo_apart fuel apart).bind
  rintro ⟨code, after⟩ ⟨code', after'⟩ ⟨_, stays⟩
  have root : after'.rootClus = after.rootClus := by
    cases stays
    rfl
  simp only [root]
  exact exfatWriteWalk_apart fuel data comps after.rootClus stays

theorem exfatEnsureWalk_apart (fuel : Nat) (comps : List (List UInt8)) (dir : Nat) {v w : Vol}
    (apart : SizesApart v w) :
    Lockstep (Beside SizesApart) (exfatEnsureWalk fuel comps dir v)
      (exfatEnsureWalk fuel comps dir w) := by
  induction comps generalizing dir v w with
  | nil => exact .pure ⟨apart, rfl⟩
  | cons comp rest induction =>
      rw [exfatEnsureWalk, exfatEnsureWalk]
      apply (exfatFindInDir_apart comp fuel dir apart).bind
      rintro ⟨after, found⟩ ⟨after', found'⟩ ⟨stays, same⟩
      cases same
      cases found with
      | error code =>
          simp only [stays.createEntry]
          apply Lockstep.bind_same
          intro created
          apply Lockstep.ite
          · exact .pure ⟨stays, rfl⟩
          · exact induction created.2 stays
      | ok info =>
          apply Lockstep.ite
          · exact induction info.cluster stays
          · exact .pure ⟨stays, rfl⟩

theorem exfatListWalk_apart (fuel maxItems : Nat) (comps : List (List UInt8)) (dir : Nat)
    {v w : Vol} (apart : SizesApart v w) :
    Lockstep (Beside SizesApart) (exfatListWalk fuel maxItems comps dir v)
      (exfatListWalk fuel maxItems comps dir w) := by
  induction comps generalizing dir v w with
  | nil =>
      cases apart with
      | @intro size rsvd exfat idle =>
          rw [exfatListWalk, exfatListWalk, exfatListDir_withSizes v rsvd size]
          exact Beside.of_same (.intro rsvd exfat idle) _ id
  | cons comp rest induction =>
      rw [exfatListWalk, exfatListWalk]
      apply (exfatFindInDir_apart comp fuel dir apart).bind
      rintro ⟨after, found⟩ ⟨after', found'⟩ ⟨stays, same⟩
      cases same
      cases found with
      | error code => exact .pure ⟨stays, rfl⟩
      | ok info =>
          apply Lockstep.ite
          · exact induction info.cluster stays
          · exact .pure ⟨stays, rfl⟩

/-! ## Later operations -/

/-- An operation on a mounted volume. -/
inductive Request
  | readPath (path : CString) (maxBytes : Nat)
  | readRoot (name : CString) (maxBytes : Nat)
  | write (path : CString) (data : List UInt8)
  | ensure (path : CString)
  | list (path : CString) (maxItems : Int)

/-- What an operation returns: its code, the bytes read and the items listed. -/
structure Reply where
  code : Int
  outBytes : Nat
  out : List UInt8
  items : List Dirent
  deriving DecidableEq

def Reply.ofRead (result : ReadResult) : Reply := ⟨result.code, result.outBytes, result.out, []⟩

def Reply.ofCode (code : Int) : Reply := ⟨code, 0, [], []⟩

def Reply.ofList (result : Int × List Dirent) : Reply := ⟨result.1, 0, [], result.2⟩

def Request.run (fuel : Nat) (v : Vol) : Request → DiskM (Vol × Reply)
  | readPath path maxBytes => do
      let (v, result) ← fat32ReadFilePath v fuel path maxBytes
      pure (v, .ofRead result)
  | readRoot name maxBytes => do
      let (v, result) ← fat32ReadFile v fuel name maxBytes
      pure (v, .ofRead result)
  | write path data => do
      let (v, code) ← fat32WriteFilePath v fuel path data
      pure (v, .ofCode code)
  | ensure path => do
      let (v, code) ← fat32EnsureDirPath v fuel path
      pure (v, .ofCode code)
  | list path maxItems => do
      let (v, result) ← fat32ListDirPath v fuel path maxItems
      pure (v, .ofList result)

/-- Operations one after another, and what they return. -/
def runRequests (fuel : Nat) : List Request → Vol → DiskM (List Reply)
  | [], _ => pure []
  | request :: rest, v => do
      let (v, reply) ← request.run fuel v
      let replies ← runRequests fuel rest v
      pure (reply :: replies)

/-- All later operations go the same way on both volumes: whatever the device does, they
make the same calls and return the same. -/
def BehaveAlike (v w : Vol) : Prop :=
  ∀ fuel requests, Lockstep (fun replies replies' => replies = replies')
    (runRequests fuel requests v) (runRequests fuel requests w)

/-- The fields that operations read are the same. -/
inductive AlikeInUse : Vol → Vol → Prop
  | fat32 {v : Vol} (other : Vol) : v.fsType = .fat32 → AlikeInUse v (v.withFieldsOf other)
  | exfat {v w : Vol} : SizesApart v w → AlikeInUse v w

/-- A reply made of the result of an operation. -/
theorem Beside.reply {related : Vol → Vol → Prop} {α β : Type}
    {program program' : DiskM (Vol × α)} (alike : Lockstep (Beside related) program program')
    (reply : α → β) :
    Lockstep (Beside related)
      (do
        let run ← program
        Pure.pure (run.1, reply run.2))
      (do
        let run ← program'
        Pure.pure (run.1, reply run.2)) := by
  apply alike.bind
  rintro run run' ⟨stays, same⟩
  rw [same]
  exact .pure ⟨stays, rfl⟩

theorem SizesApart.beside {α : Type} {program program' : DiskM (Vol × α)}
    (steps : Lockstep (Beside SizesApart) program program') :
    Lockstep (Beside AlikeInUse) program program' :=
  steps.mono fun _ _ holds => ⟨.exfat holds.1, holds.2⟩

theorem SizesApart.fsType {v w : Vol} (apart : SizesApart v w) :
    v.fsType = .exfat ∧ w.fsType = .exfat ∧ w.rootClus = v.rootClus := by
  cases apart with
  | intro rsvd exfat idle => exact ⟨exfat, exfat, rfl⟩

theorem fat32ReadFilePath_alike {v w : Vol} (alike : AlikeInUse v w) (fuel : Nat)
    (path : CString) (maxBytes : Nat) :
    Lockstep (Beside AlikeInUse) (fat32ReadFilePath v fuel path maxBytes)
      (fat32ReadFilePath w fuel path maxBytes) := by
  have stays := alike
  cases alike with
  | fat32 other fat32 =>
      have fat32' : (v.withFieldsOf other).fsType = .fat32 := fat32
      simp only [fat32ReadFilePath, fat32, fat32', readWalk_withFieldsOf]
      exact Beside.of_same stays _ id
  | exfat apart =>
      simp only [fat32ReadFilePath, apart.fsType.1, apart.fsType.2.1]
      exact SizesApart.beside (exfatReadWalk_apart fuel maxBytes path.componentsLong apart)

theorem fat32ReadFile_alike {v w : Vol} (alike : AlikeInUse v w) (fuel : Nat)
    (name : CString) (maxBytes : Nat) :
    Lockstep (Beside AlikeInUse) (fat32ReadFile v fuel name maxBytes)
      (fat32ReadFile w fuel name maxBytes) := by
  have stays := alike
  cases alike with
  | fat32 other fat32 =>
      have fat32' : (v.withFieldsOf other).fsType = .fat32 := fat32
      simp only [fat32ReadFile, fat32, fat32', readRootFile_withFieldsOf]
      exact Beside.of_same stays _ id
  | exfat apart =>
      simp only [fat32ReadFile, apart.fsType.1, apart.fsType.2.1]
      exact fat32ReadFilePath_alike stays fuel name maxBytes

theorem fat32WriteFilePath_alike {v w : Vol} (alike : AlikeInUse v w) (fuel : Nat)
    (path : CString) (data : List UInt8) :
    Lockstep (Beside AlikeInUse) (fat32WriteFilePath v fuel path data)
      (fat32WriteFilePath w fuel path data) := by
  have stays := alike
  cases alike with
  | fat32 other fat32 =>
      have fat32' : (v.withFieldsOf other).fsType = .fat32 := fat32
      simp only [fat32WriteFilePath, fat32, fat32', writeWalk_withFieldsOf]
      exact Beside.of_same stays _ id
  | exfat apart =>
      simp only [fat32WriteFilePath, apart.fsType.1, apart.fsType.2.1]
      exact SizesApart.beside
        (exfatWriteFile_apart fuel path.componentsLong data apart)

theorem fat32EnsureDirPath_alike {v w : Vol} (alike : AlikeInUse v w) (fuel : Nat)
    (path : CString) :
    Lockstep (Beside AlikeInUse) (fat32EnsureDirPath v fuel path)
      (fat32EnsureDirPath w fuel path) := by
  have stays := alike
  cases alike with
  | fat32 other fat32 =>
      have fat32' : (v.withFieldsOf other).fsType = .fat32 := fat32
      simp only [fat32EnsureDirPath, fat32, fat32', ensureWalk_withFieldsOf]
      exact Beside.of_same stays _ id
  | exfat apart =>
      simp only [fat32EnsureDirPath, apart.fsType.1, apart.fsType.2.1, apart.fsType.2.2]
      exact SizesApart.beside
        (exfatEnsureWalk_apart fuel path.componentsLong v.rootClus apart)

theorem fat32ListDirPath_alike {v w : Vol} (alike : AlikeInUse v w) (fuel : Nat)
    (path : CString) (maxItems : Int) :
    Lockstep (Beside AlikeInUse) (fat32ListDirPath v fuel path maxItems)
      (fat32ListDirPath w fuel path maxItems) := by
  have stays := alike
  cases alike with
  | fat32 other fat32 =>
      have fat32' : (v.withFieldsOf other).fsType = .fat32 := fat32
      simp only [fat32ListDirPath, fat32, fat32', listWalk_withFieldsOf]
      apply Lockstep.ite
      · exact .pure ⟨stays, rfl⟩
      · exact Beside.of_same stays _ id
  | exfat apart =>
      simp only [fat32ListDirPath, apart.fsType.1, apart.fsType.2.1, apart.fsType.2.2]
      exact SizesApart.beside
        (exfatListWalk_apart fuel maxItems.toNat path.componentsLong v.rootClus apart)

theorem request_alike {v w : Vol} (alike : AlikeInUse v w) (fuel : Nat) (request : Request) :
    Lockstep (Beside AlikeInUse) (request.run fuel v) (request.run fuel w) := by
  cases request with
  | readPath path maxBytes =>
      exact Beside.reply (fat32ReadFilePath_alike alike fuel path maxBytes) Reply.ofRead
  | readRoot name maxBytes =>
      exact Beside.reply (fat32ReadFile_alike alike fuel name maxBytes) Reply.ofRead
  | write path data =>
      exact Beside.reply (fat32WriteFilePath_alike alike fuel path data) Reply.ofCode
  | ensure path =>
      exact Beside.reply (fat32EnsureDirPath_alike alike fuel path) Reply.ofCode
  | list path maxItems =>
      exact Beside.reply (fat32ListDirPath_alike alike fuel path maxItems) Reply.ofList

/-- Volumes that agree where operations read behave alike, over any run. -/
theorem AlikeInUse.behaveAlike {v w : Vol} (alike : AlikeInUse v w) : BehaveAlike v w := by
  intro fuel requests
  induction requests generalizing v w with
  | nil => exact .pure rfl
  | cons request rest induction =>
      rw [runRequests, runRequests]
      apply (request_alike alike fuel request).bind
      rintro ⟨after, reply⟩ ⟨after', reply'⟩ ⟨stays, same⟩
      cases same
      apply (induction stays).bind
      intro replies replies' same
      exact .pure (congrArg _ same)

/-! ## Mounting -/

/-- The location of the bitmap is all that an exFAT mount leaves to later operations. -/
theorem mountExfat_kept (v : Vol) (sec : Buffer) (part : Nat) :
    (mountExfat v sec part).2.fsType = .exfat ∧
      (mountExfat v sec part).2.exfatBitmapClus = v.exfatBitmapClus ∧
      (mountExfat v sec part).2.exfatBitmapSize = v.exfatBitmapSize := by
  simp only [mountExfat]
  split <;> exact ⟨rfl, rfl, rfl⟩

theorem mountExfat_withSizes {v w : Vol} (sec : Buffer) (part : Nat)
    (same : v.exfatBitmapClus = w.exfatBitmapClus) :
    (mountExfat w sec part).2 =
      (mountExfat v sec part).2.withSizes w.rsvdSecCnt w.exfatBitmapSize := by
  simp only [mountExfat, same]
  split <;> rfl

theorem mountExfat_alike_iff (v w : Vol) (sec : Buffer) (part : Nat) :
    AlikeInUse (mountExfat v sec part).2 (mountExfat w sec part).2 ↔
      v.exfatBitmapClus = w.exfatBitmapClus ∧
        (v.exfatBitmapClus = 0 ∨ v.exfatBitmapSize = w.exfatBitmapSize) := by
  have kept := mountExfat_kept v sec part
  have kept' := mountExfat_kept w sec part
  constructor
  · intro alike
    generalize (mountExfat v sec part).2 = mounted at alike kept
    generalize (mountExfat w sec part).2 = mounted' at alike kept'
    cases alike with
    | fat32 _ fat32 =>
        rw [kept.1] at fat32
        cases fat32
    | exfat apart =>
        cases apart with
        | intro rsvd _ idle =>
            have cluster := kept.2.1.symm.trans kept'.2.1
            have size := kept'.2.2
            rw [Vol.SizeIdle, kept.2.1, kept.2.2] at idle
            exact ⟨cluster, idle.imp id fun equal => equal.symm.trans size⟩
  · rintro ⟨cluster, size⟩
    have idle : (mountExfat v sec part).2.SizeIdle w.exfatBitmapSize := by
      rw [Vol.SizeIdle, kept.2.1, kept.2.2]
      exact size.imp id Eq.symm
    rw [mountExfat_withSizes sec part cluster]
    exact .exfat (.intro _ kept.1 idle)

theorem mountFat32_alike (v w : Vol) (sec : Buffer) (part : Nat) :
    AlikeInUse (mountFat32 v sec part).2 (mountFat32 w sec part).2 := by
  have fields : (mountFat32 w sec part).2 =
      (mountFat32 v sec part).2.withFieldsOf (mountFat32 w sec part).2 := by
    simp only [mountFat32]
    split <;> rfl
  have fat32 : (mountFat32 v sec part).2.fsType = .fat32 := by
    simp only [mountFat32]
    split <;> rfl
  rw [fields]
  exact .fat32 _ fat32

/-- Two mounts of one disk over different earlier volumes forget these exactly when the boot
sector is not an exFAT one, or the earlier volumes agree on the location of a bitmap and on
its size if it has one. -/
theorem fat32Mount_forgets_iff {v w v' w' : Vol} {part : Nat} {device after after' : Device}
    (mounted : fat32Mount v part device = some ((0, v'), after))
    (mounted' : fat32Mount w part device = some ((0, w'), after')) :
    (BehaveAlike v' w' ∧ AlikeInUse v' w') ↔
      (device.sectors (u32 part)).bytes 3 8 ≠ exfatName ∨
        v.exfatBitmapClus = w.exfatBitmapClus ∧
          (v.exfatBitmapClus = 0 ∨ v.exfatBitmapSize = w.exfatBitmapSize) := by
  have together : (BehaveAlike v' w' ∧ AlikeInUse v' w') ↔ AlikeInUse v' w' :=
    ⟨And.right, fun alike => ⟨alike.behaveAlike, alike⟩⟩
  have filled : v' = _ := congrArg Prod.snd (fat32Mount_filled mounted)
  have filled' : w' = _ := congrArg Prod.snd (fat32Mount_filled mounted')
  rw [together, filled, filled']
  by_cases exfat : (device.sectors (u32 part)).bytes 3 8 = exfatName
  · rw [if_pos exfat, if_pos exfat, mountExfat_alike_iff]
    exact ⟨.inr, fun holds => holds.resolve_left (not_not.mpr exfat)⟩
  · rw [if_neg exfat, if_neg exfat]
    exact ⟨fun _ => .inl exfat, fun _ => mountFat32_alike v w _ part⟩

/-- The small exFAT volume with a boot sector. -/
def bootImage : Nat → Buffer := fun lba =>
  if lba = 0 then
    (exfatBootSector 0).putU32 72 18 |>.putU32 80 1 |>.putU32 84 1 |>.putU32 88 2
      |>.putU32 92 16 |>.putU32 96 4
  else exfatImage 6 lba

/-- A volume structure that an earlier mount left behind. -/
def leftVol (bitmapClus bitmapSize : Nat) : Vol :=
  { blankVol with exfatBitmapClus := bitmapClus, exfatBitmapSize := bitmapSize }

/-- The small volume as it is mounted over that. -/
def mountedVol (bitmapClus bitmapSize : Nat) : Vol :=
  { exfatVol with exfatBitmapClus := bitmapClus, exfatBitmapSize := bitmapSize }

theorem bootImage_mount {clus size : Nat}
    (filled : mountExfat (leftVol clus size) (bootImage 0) 0 = (0, mountedVol clus size)) :
    fat32Mount (leftVol clus size) 0 (Device.healthy bootImage) =
      some ((0, mountedVol clus size), Device.healthy bootImage) := by
  have exfat : (bootImage (u32 0)).bytes 3 8 = exfatName := by decide
  rw [fat32Mount_healthy, if_pos exfat]
  exact congrArg (fun run => some (run, Device.healthy bootImage)) filled

theorem fat32Mount_forgets_iff_fresh :
    BehaveAlike (mountedVol 0 2) (mountedVol 0 5) ∧
      AlikeInUse (mountedVol 0 2) (mountedVol 0 5) :=
  (fat32Mount_forgets_iff (bootImage_mount (by decide +kernel))
    (bootImage_mount (by decide +kernel))).mpr (.inr ⟨rfl, .inl rfl⟩)

/-- After a volume whose bitmap was in cluster 9, a new directory on this volume is entered
in cluster 9 instead of the bitmap in cluster 3. -/
theorem fat32Mount_keeps_bitmap :
    ¬ ∀ (v w v' w' : Vol) (part : Nat) (sectors : Nat → Buffer),
      fat32Mount v part (Device.healthy sectors) = some ((0, v'), Device.healthy sectors) →
      fat32Mount w part (Device.healthy sectors) = some ((0, w'), Device.healthy sectors) →
      BehaveAlike v' w' := by
  intro claim
  have alike := claim _ _ _ _ 0 bootImage
    (bootImage_mount (show mountExfat (leftVol 0 0) _ _ = (0, mountedVol 0 0) by decide +kernel))
    (bootImage_mount (show mountExfat (leftVol 9 2) _ _ = (0, mountedVol 9 2) by decide +kernel))
    19 [.ensure (.ofArray [0x41])]
  have fresh : (runRequests 19 [.ensure (.ofArray [0x41])] (mountedVol 0 0)
      (Device.healthy bootImage)).map (fun run =>
        (run.1, run.2.sectors 3 0, run.2.sectors 9 0)) =
      some ([.ofCode 0], 7, 0) := by
    decide +kernel
  have stale : (runRequests 19 [.ensure (.ofArray [0x41])] (mountedVol 9 2)
      (Device.healthy bootImage)).map (fun run =>
        (run.1, run.2.sectors 3 0, run.2.sectors 9 0)) =
      some ([.ofCode 0], 6, 1) := by
    decide +kernel
  cases left : runRequests 19 [.ensure (.ofArray [0x41])] (mountedVol 0 0)
      (Device.healthy bootImage) with
  | none =>
      rw [left] at fresh
      cases fresh
  | some run =>
      rcases alike.forth.returns left with ⟨_, right, _⟩
      rw [left] at fresh
      rw [right] at stale
      simp only [Option.map_some, Option.some.injEq, Prod.mk.injEq] at fresh stale
      have clash := fresh.2.1.symm.trans stale.2.1
      exact absurd clash (by decide)

end ParanOS

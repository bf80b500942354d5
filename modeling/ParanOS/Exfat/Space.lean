import ParanOS.Fat.File

/-! # exFAT cluster allocation

The exFAT helpers of `fs_fat32.c` that allocate and free clusters. A cluster in
use is recorded twice: in the table, which the allocator scans, and in the
allocation bitmap, a file of its own that is reached by a walk along its chain.
-/

namespace ParanOS

open Foundation

def exfatWalkChain (v : Vol) : (step cl : Nat) → DiskM Nat
  | 0, cl => pure cl
  | step + 1, cl =>
      if isEndCluster cl then pure cl
      else do
        let next ← fatReadFatEntry v cl
        exfatWalkChain v step next

/-- `bit` of `exfat_mark_bitmap`; the subtraction wraps. -/
def bitmapIndex (cl : Nat) : Nat := u32 (cl + 4294967294)

/-- The byte with one bit set or cleared. -/
def markByte (byte : UInt8) (bitInByte : Nat) (used : Bool) : UInt8 :=
  if used then byte ||| (1 <<< UInt8.ofNat bitInByte)
  else byte &&& ~~~(1 <<< UInt8.ofNat bitInByte)

/-- The part of `exfat_mark_bitmap` behind its checks. -/
def markBitmapByte (v : Vol) (bit : Nat) (used : Bool) : DiskM Int := do
  let byteOff := bit / 8
  let targetClus ← exfatWalkChain v (byteOff / v.clusterBytes) v.exfatBitmapClus
  let offsetInClus := byteOff % v.clusterBytes
  let lba := clusToLba v targetClus + offsetInClus / v.bytesPerSec
  let offInSec := offsetInClus % v.bytesPerSec
  match ← rd lba with
  | none => pure (-1)
  | some sec =>
      if ← wr lba (sec.putU8 offInSec (markByte (sec offInSec) (bit % 8) used)) then pure (-1)
      else pure 0

def exfatMarkBitmap (v : Vol) (cl : Nat) (used : Bool) : DiskM Int :=
  if v.exfatBitmapClus = 0 then pure 0 -- bitmap not found, skip
  else if v.exfatBitmapSize = 0 then pure 0
  else if bitmapIndex cl / 8 ≥ v.exfatBitmapSize then pure (-1)
  else markBitmapByte v (bitmapIndex cl) used

/-- `max_clusters` of `exfat_alloc_cluster`. -/
def exfatMaxClusters (v : Vol) : Nat :=
  min (if v.exfatClusterCount ≠ 0 then v.exfatClusterCount else v.totSec32 / v.secPerClus)
    1048576

/-- What `exfat_alloc_cluster` does with a free cluster. -/
def exfatClaim (v : Vol) (cl : Nat) : DiskM Nat := do
  if (← fatWriteFatEntry v cl eocMark) ≠ 0 then pure 0
  else do
    let _ ← exfatMarkBitmap v cl true
    pure cl

def exfatAllocCluster (v : Vol) : DiskM Nat :=
  allocScan v (exfatClaim v) (exfatMaxClusters v - 2) 2

def exfatFreeChain (v : Vol) : (fuel cl : Nat) → DiskM Int
  | 0, _ => DiskM.diverge
  | fuel + 1, cl =>
      if isEndCluster cl ∨ cl = 0 then pure 0
      else do
        let next ← fatReadFatEntry v cl
        let _ ← fatWriteFatEntry v cl 0
        let _ ← exfatMarkBitmap v cl false
        exfatFreeChain v fuel next

/-- Link a new cluster behind the previous one, if there is one. -/
def linkBehind (v : Vol) (prev cl : Nat) : DiskM Int :=
  if prev ≠ 0 then fatWriteFatEntry v prev cl else pure 0

/-- Give back what was allocated so far. -/
def rollBack (v : Vol) (fuel first : Nat) : DiskM Int :=
  if first ≠ 0 then exfatFreeChain v fuel first else pure 0

/-- The loop of `exfat_alloc_chain_for_size`. -/
def allocChain (v : Vol) (fuel : Nat) : (need first prev : Nat) → DiskM Nat
  | 0, first, prev => do
      let _ ← fatWriteFatEntry v prev eocMark
      pure first
  | need + 1, first, prev => do
      let cl ← exfatAllocCluster v
      if cl = 0 then do
        let _ ← rollBack v fuel first
        pure 0
      else do
        let _ ← linkBehind v prev cl
        allocChain v fuel need (if first = 0 then cl else first) cl

/-- `need` of `exfat_alloc_chain_for_size`. -/
def clustersNeeded (v : Vol) (bytes : Nat) : Nat :=
  u32 (bytes + v.clusterBytes - 1) / v.clusterBytes

def exfatAllocChainForSize (v : Vol) (fuel bytes : Nat) : DiskM Nat :=
  if bytes = 0 then pure 0 else allocChain v fuel (clustersNeeded v bytes) 0 0

def exfatWriteChain (v : Vol) : (fuel start : Nat) → List UInt8 → DiskM Int
  | 0, _, _ => DiskM.diverge
  | fuel + 1, cl, src =>
      if isEndCluster cl ∨ src = [] then pure 0
      else do
        if ← writeSectors v (clusToLba v cl) v.secPerClus 0 src then pure (-1)
        else do
          let next ← fatReadFatEntry v cl
          exfatWriteChain v fuel next (src.drop v.clusterBytes)

def exfatZeroCluster (v : Vol) (clus : Nat) : DiskM Int := do
  if ← writeSectors v (clusToLba v clus) v.secPerClus 0 [] then pure (-1) else pure 0

end ParanOS

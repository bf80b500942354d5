import Mathlib.Data.List.DropRight
import ParanOS.Fat.Directory
import ParanOS.Fat.Path

/-! # FAT32 files and paths

The path walkers of `fs_fat32.c` on a FAT32 volume, with the data transfer and
the directory creation they call. A walker recurses over the path's components;
`path_has_more` is whether components remain. The public functions, which first
branch on the file system type, are in `ParanOS.Driver`.
-/

namespace ParanOS

open Foundation

/-! ## Data transfer -/

/-- Result code, `*out_bytes`, and the bytes copied to the output buffer. -/
structure ReadResult where
  code : Int
  outBytes : Nat
  out : List UInt8
  deriving DecidableEq

/-- The sector loop of `read_file_from_cluster`: whether a read failed, the
bytes still wanted and the bytes copied. -/
def readSectors (v : Vol) (lba : Nat) :
    (count s left : Nat) → List UInt8 → DiskM (Bool × Nat × List UInt8)
  | 0, _, left, out => pure (false, left, out)
  | count + 1, s, left, out =>
      if left = 0 then pure (false, left, out)
      else do
        match ← rd (lba + s) with
        | none => pure (true, left, out)
        | some sec =>
            let take := min left v.bytesPerSec
            readSectors v lba count (s + 1) (left - take) (out ++ sec.bytes 0 take)

/-- The cluster loop of `read_file_from_cluster`. -/
def readClusters (v : Vol) :
    (fuel cl left : Nat) → List UInt8 → DiskM (Bool × List UInt8)
  | 0, _, _, _ => DiskM.diverge
  | fuel + 1, cl, left, out =>
      if isEndCluster cl ∨ left = 0 then pure (false, out)
      else do
        let (failed, left, out) ← readSectors v (clusToLba v cl) v.secPerClus 0 left out
        if failed then pure (true, out)
        else do
          let next ← fatReadFatEntry v cl
          readClusters v fuel next left out

def readFileFromCluster (v : Vol) (fuel startClus fileSize maxBytes : Nat) :
    DiskM ReadResult :=
  if startClus = 0 then pure ⟨-1, 0, []⟩
  else do
    let (failed, out) ← readClusters v fuel startClus (min fileSize maxBytes) []
    if failed then pure ⟨-2, 0, out⟩ else pure ⟨0, min fileSize maxBytes, out⟩

/-- The sector loop that stores `src` from sector `s` on and fills the rest of
the cluster with zeros: whether a write failed. -/
def writeSectors (v : Vol) (lba : Nat) : (count s : Nat) → List UInt8 → DiskM Bool
  | 0, _, _ => pure false
  | count + 1, s, src => do
      if ← wr (lba + s) (Buffer.ofList (src.take v.bytesPerSec)) then pure true
      else writeSectors v lba count (s + 1) (src.drop v.bytesPerSec)

def writeSingleCluster (v : Vol) (clus : Nat) (data : List UInt8) : DiskM Int :=
  if clus = 0 then pure (-1)
  else do
    if ← writeSectors v (clusToLba v clus) v.secPerClus 0
        (data.take (v.secPerClus * v.bytesPerSec)) then pure (-1)
    else do
      let _ ← fatWriteFatEntry v clus eocMark -- mark FAT entry EOC
      pure 0

/-! ## Directories on a path -/

def dotName : List UInt8 := 0x2E :: List.replicate 10 0x20
def dotdotName : List UInt8 := 0x2E :: 0x2E :: List.replicate 9 0x20

/-- The first sector of a new directory: `.` and `..`, then zeros. -/
def dotSector (newCl parentCl : Nat) : Buffer :=
  putDirent (putDirent (fun _ => 0) 0 dotName attrDir newCl 0) 32 dotdotName attrDir
    parentCl 0

/-- The part of `ensure_directory` that creates the directory. -/
def makeDirectory (v : Vol) (fuel parentCl : Nat) (name11 : List UInt8) :
    DiskM (Int × Nat) := do
  let newCl ← fatAllocFreeCluster v
  if newCl = 0 then pure (-3, 0)
  else if ← wr (clusToLba v newCl) (dotSector newCl parentCl) then pure (-4, 0)
  else if ← writeSectors v (clusToLba v newCl) (v.secPerClus - 1) 1 [] then pure (-4, 0)
  else do
    let _ ← fatWriteFatEntry v newCl eocMark
    if (← createDirEntry v fuel parentCl name11 attrDir newCl 0) ≠ 0 then pure (-5, 0)
    else pure (0, newCl)

/-- The result code and, on success, the directory's start cluster. -/
def ensureDirectory (v : Vol) (fuel parentCl : Nat) (name11 : List UInt8) :
    DiskM (Int × Nat) := do
  match ← dirFindEntry v name11 fuel parentCl with
  | .ok hit =>
      if direntIsDir hit.de then pure (0, direntStartCluster hit.de)
      else pure (-2, 0) -- exists but not dir
  | .error _ => makeDirectory v fuel parentCl name11

/-- The directory an entry with this start cluster leads to. -/
def enterDir (v : Vol) (cl : Nat) : Nat := if cl = 0 then v.rootClus else cl

/-- The loop of `fat32_ensure_dir_path`. -/
def ensureWalk (v : Vol) (fuel : Nat) : List (List UInt8) → Nat → DiskM Int
  | [], _ => pure 0
  | comp :: rest, dirCl => do
      let (r, nextCl) ← ensureDirectory v fuel dirCl (makeName83 comp)
      if r ≠ 0 then pure r else ensureWalk v fuel rest (enterDir v nextCl)

/-! ## Files on a path -/

/-- The loop of `fat32_read_file_path`. -/
def readWalk (v : Vol) (fuel maxBytes : Nat) : List (List UInt8) → Nat → DiskM ReadResult
  | [], _ => pure ⟨-5, 0, []⟩
  | comp :: rest, dirCl => do
      match ← dirFindEntry v (makeName83 comp) fuel dirCl with
      | .error _ => pure ⟨-2, 0, []⟩
      | .ok hit =>
          if !rest.isEmpty then
            if direntIsDir hit.de then
              readWalk v fuel maxBytes rest (enterDir v (direntStartCluster hit.de))
            else pure ⟨-3, 0, []⟩
          else if direntIsDir hit.de then pure ⟨-4, 0, []⟩
          else readFileFromCluster v fuel (direntStartCluster hit.de) (hit.de.getU32 28) maxBytes

/-- The cluster that `fat32_write_file_path` stores the data in: the entry's
first cluster, or a new one if it has none. -/
def targetCluster (v : Vol) (startClus : Nat) : DiskM Nat :=
  if startClus = 0 then fatAllocFreeCluster v else pure startClus

/-- The last component of `fat32_write_file_path` when its entry exists: store
the data in the entry's cluster, or a new one, and update the entry. -/
def overwriteFile (v : Vol) (hit : DirHit) (data : List UInt8) : DiskM Int :=
  if direntIsDir hit.de then pure (-4)
  else do
    let targetCl ← targetCluster v (direntStartCluster hit.de)
    if targetCl = 0 then pure (-5)
    else if (← writeSingleCluster v targetCl data) ≠ 0 then pure (-6)
    else do
      match ← rd (hit.lba + hit.s) with
      | none => pure (-7)
      | some sec =>
          let maxb := v.secPerClus * v.bytesPerSec
          let sec := (putStart sec hit.off targetCl).putU32 (hit.off + 28) (min data.length maxb)
          if ← wr (hit.lba + hit.s) sec then pure (-8) else pure 0

/-- The last component of `fat32_write_file_path` when it has no entry. -/
def createFile (v : Vol) (fuel dirCl : Nat) (name11 data : List UInt8) : DiskM Int := do
  let targetCl ← fatAllocFreeCluster v
  if targetCl = 0 then pure (-5)
  else if (← writeSingleCluster v targetCl data) ≠ 0 then pure (-6)
  else do
    let maxb := v.secPerClus * v.bytesPerSec
    if (← createDirEntry v fuel dirCl name11 attrArchive targetCl (min data.length maxb)) ≠ 0
    then pure (-9) else pure 0

/-- The loop of `fat32_write_file_path`. -/
def writeWalk (v : Vol) (fuel : Nat) (data : List UInt8) :
    List (List UInt8) → Nat → DiskM Int
  | [], _ => pure (-10)
  | comp :: rest, dirCl => do
      let found ← dirFindEntry v (makeName83 comp) fuel dirCl
      if !rest.isEmpty then
        match found with
        | .error _ => do
            let (er, nextCl) ← ensureDirectory v fuel dirCl (makeName83 comp)
            if er ≠ 0 then pure er else writeWalk v fuel data rest nextCl
        | .ok hit =>
            if direntIsDir hit.de then
              writeWalk v fuel data rest (enterDir v (direntStartCluster hit.de))
            else pure (-3)
      else
        match found with
        | .error _ => createFile v fuel dirCl (makeName83 comp) data
        | .ok hit => overwriteFile v hit data

/-! ## Listing -/

/-- `fat32_dirent_t`, with the name as the string it holds. -/
structure Dirent where
  name83 : List UInt8
  attr : UInt8
  size : Nat
  deriving DecidableEq

/-- Trailing spaces cut off, then the string up to a NUL. -/
def trimName (chars : List UInt8) : List UInt8 :=
  (chars.rdropWhile (· = 0x20)).takeWhile (· ≠ 0)

def renderName (sec : Buffer) (off : Nat) : List UInt8 :=
  let base := trimName (sec.bytes off 8)
  let ext := trimName (sec.bytes (off + 8) 3)
  if ext = [] then base else base ++ 0x2E :: ext

/-- The slot loop of `fat32_list_dir_path`: whether the listing is done, and
the items so far. -/
def listSlots (maxItems : Nat) (sec : Buffer) :
    List Nat → List Dirent → Bool × List Dirent
  | [], items => (false, items)
  | off :: rest, items =>
      if items.length ≥ maxItems then (true, items)
      else if sec off = 0x00 then (true, items)
      else if sec off = 0xE5 ∨ sec (off + 11) = attrLongName ∨ sec off = 0x2E then
        listSlots maxItems sec rest items
      else listSlots maxItems sec rest
        (items ++ [⟨renderName sec off, sec (off + 11), sec.getU32 (off + 28)⟩])

def listSectors (v : Vol) (maxItems lba : Nat) :
    List Nat → List Dirent → DiskM (Bool × List Dirent)
  | [], items => pure (false, items)
  | s :: rest, items => do
      match ← rd (lba + s) with
      | none => pure (true, items)
      | some sec =>
          let (done, items) := listSlots maxItems sec (slotOffsets v) items
          if done then pure (true, items) else listSectors v maxItems lba rest items

def listClusters (v : Vol) (maxItems : Nat) :
    (fuel cl : Nat) → List Dirent → DiskM (List Dirent)
  | 0, _, _ => DiskM.diverge
  | fuel + 1, cl, items =>
      if isEndCluster cl then pure items
      else do
        let (done, items) ← listSectors v maxItems (clusToLba v cl)
          (List.range v.secPerClus) items
        if done then pure items
        else do
          let next ← fatReadFatEntry v cl
          listClusters v maxItems fuel next items

/-- The loop of `fat32_list_dir_path`, then the listing of the directory it
arrives at: result code and items. -/
def listWalk (v : Vol) (fuel maxItems : Nat) :
    List (List UInt8) → Nat → DiskM (Int × List Dirent)
  | [], dirCl => do
      let items ← listClusters v maxItems fuel dirCl []
      pure (0, items)
  | comp :: rest, dirCl => do
      match ← dirFindEntry v (makeName83 comp) fuel dirCl with
      | .error _ => pure (-2, [])
      | .ok hit =>
          if direntIsDir hit.de then
            listWalk v fuel maxItems rest (enterDir v (direntStartCluster hit.de))
          else pure (if rest.isEmpty then -3 else -4, [])

theorem fatReadFatEntry_readOnly (v : Vol) (clus : Nat) :
    ReadOnly (fatReadFatEntry v clus) := by
  refine .bind (.rd _) fun sec => ?_
  cases sec <;> exact .pure _

theorem dirFindEntry_readOnly (v : Vol) (want11 : List UInt8) (fuel dirCl : Nat) :
    ReadOnly (dirFindEntry v want11 fuel dirCl) :=
  dirScan_readOnly v _ _ _ fuel dirCl

private theorem listSectors_readOnly (v : Vol) (maxItems lba : Nat) (positions : List Nat)
    (items : List Dirent) : ReadOnly (listSectors v maxItems lba positions items) := by
  induction positions generalizing items with
  | nil => exact .pure _
  | cons s rest induction =>
      refine .bind (.rd _) fun sec => ?_
      cases sec with
      | none => exact .pure _
      | some sec => exact .ite (.pure _) (induction _)

private theorem listClusters_readOnly (v : Vol) (maxItems fuel cl : Nat)
    (items : List Dirent) : ReadOnly (listClusters v maxItems fuel cl items) := by
  induction fuel generalizing cl items with
  | zero => exact .diverge
  | succ fuel induction =>
      refine .ite (.pure _) (.bind (listSectors_readOnly v maxItems _ _ items) fun listed => ?_)
      exact .ite (.pure _) (.bind (fatReadFatEntry_readOnly v cl) fun next =>
        induction next listed.2)

/-- Listing a directory makes no write call, whatever reads fail. -/
theorem listWalk_readOnly (v : Vol) (fuel maxItems : Nat) (comps : List (List UInt8))
    (dirCl : Nat) : ReadOnly (listWalk v fuel maxItems comps dirCl) := by
  induction comps generalizing dirCl with
  | nil => exact .bind (listClusters_readOnly v maxItems fuel dirCl []) fun _ => .pure _
  | cons comp rest induction =>
      refine .bind (dirFindEntry_readOnly v _ fuel dirCl) fun found => ?_
      cases found with
      | error _ => exact .pure _
      | ok hit => exact .ite (induction _) (.pure _)

end ParanOS

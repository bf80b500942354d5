import ParanOS.Exfat.Space

/-! # exFAT directories

Entry sets of the exFAT directories of `fs_fat32.c`: reading and parsing a set,
looking one up by name, building one, and finding room for one. The walks go
slot by slot through a cluster and read the sector anew for every slot.
-/

namespace ParanOS

open Foundation

def exfatEntryBitmap : UInt8 := 0x81
def exfatEntryFile : UInt8 := 0x85
def exfatEntryStream : UInt8 := 0xC0
def exfatEntryName : UInt8 := 0xC1

/-- `exfat_entry_info_t`, without the sector addresses and name lengths that
nothing reads. -/
structure EntryInfo where
  cluster : Nat
  size : Nat
  isDir : Bool
  dirCluster : Nat
  dirByteOff : Nat
  deriving DecidableEq

/-- The slot offsets of a cluster: `byte_off = 0, 32, ..` below its size. -/
def clusterOffsets (v : Vol) : List Nat :=
  (List.range ((v.clusterBytes + 31) / 32)).map (32 * ·)

/-! ## Reading a set -/

/-- The loop of `exfat_collect_entries`; the sector read last is kept. -/
def collectLoop (v : Vol) (lbaBase startByte : Nat) :
    (count i : Nat) → Option (Nat × Buffer) → Buffer → DiskM (Option Buffer)
  | 0, _, _, out => pure (some out)
  | count + 1, i, last, out =>
      let byteOff := startByte + i * 32
      let secIdx := byteOff / v.bytesPerSec
      let take := fun sec : Buffer => out.copy (i * 32) 32 fun index =>
        sec (byteOff % v.bytesPerSec + index)
      match last.filter fun cached => cached.1 == secIdx with
      | some (_, sec) => collectLoop v lbaBase startByte count (i + 1) last (take sec)
      | none => do
          match ← rd (lbaBase + secIdx) with
          | none => pure none
          | some sec =>
              collectLoop v lbaBase startByte count (i + 1) (some (secIdx, sec)) (take sec)

/-- The bytes of a set, or `none` where the source returns -1. -/
def exfatCollectEntries (v : Vol) (dirCl startByte totalEntries : Nat) :
    DiskM (Option Buffer) :=
  if startByte + totalEntries * 32 > v.clusterBytes then pure none
  else collectLoop v (clusToLba v dirCl) startByte totalEntries 0 none fun _ => 0

/-- The name loop of `exfat_parse_file_set` over the secondary entries. -/
def collectName (set : Buffer) (nameLen : Nat) : List Nat → List UInt8 → List UInt8
  | [], name => name
  | i :: rest, name =>
      if name.length ≥ nameLen then name
      else if set (i * 32) ≠ exfatEntryName then collectName set nameLen rest name
      else collectName set nameLen rest (name ++
        (List.range (min 15 (nameLen - name.length))).map fun c => set (i * 32 + 2 + 2 * c))

/-- The name and the entry's data, or `none` where the source returns -1. -/
def exfatParseFileSet (set : Buffer) (secondaryCount : Nat) :
    Option (List UInt8 × EntryInfo) :=
  if secondaryCount = 0 then none
  else if set 32 ≠ exfatEntryStream then none
  else some (collectName set (set 35).toNat (List.range' 2 (secondaryCount - 1)) [],
    { cluster := set.getU32 52
      size := set.getU64 56
      isDir := set.getU16 4 &&& 0x10 ≠ 0
      dirCluster := 0
      dirByteOff := 0 })

/-- The comparison of `exfat_find_in_dir`: both strings end at a NUL and
lower-case letters are converted. -/
def sameName (want name : List UInt8) : Bool :=
  decide ((name.takeWhile (· ≠ 0)).map toUpper = want.map toUpper)

/-! ## Looking up a set -/

/-- The position of the allocation bitmap is taken from its entry when it is
not known yet. -/
def noteBitmap (v : Vol) (sec : Buffer) (offInSec : Nat) : Vol :=
  if sec offInSec = exfatEntryBitmap ∧ v.exfatBitmapClus = 0 then
    { v with
      exfatBitmapClus := sec.getU32 (offInSec + 20)
      exfatBitmapSize := sec.getU64 (offInSec + 24) }
  else v

/-- The set that starts in this slot, if there is one that can be parsed. -/
def exfatSetAt (v : Vol) (cluster byteOff : Nat) (sec : Buffer) :
    DiskM (Option (List UInt8 × EntryInfo)) :=
  let offInSec := byteOff % v.bytesPerSec
  let secondary := (sec (offInSec + 1)).toNat
  if sec offInSec ≠ exfatEntryFile then pure none
  else if secondary = 0 then pure none
  else if secondary > 40 then pure none -- too long, skip
  else do
    match ← exfatCollectEntries v cluster byteOff (secondary + 1) with
    | none => pure none
    | some set => pure (exfatParseFileSet set secondary)

/-- The slot loop of `exfat_find_in_dir` in one cluster. -/
def findSlots (v : Vol) (want : List UInt8) (cluster : Nat) :
    List Nat → DiskM (Vol × Option (Except Int EntryInfo))
  | [] => pure (v, none)
  | byteOff :: rest => do
      match ← rd (clusToLba v cluster + byteOff / v.bytesPerSec) with
      | none => pure (v, some (.error (-1)))
      | some sec =>
          if sec (byteOff % v.bytesPerSec) = 0x00 then
            pure (v, some (.error (-2))) -- end of directory
          else do
            let v := noteBitmap v sec (byteOff % v.bytesPerSec)
            match ← exfatSetAt v cluster byteOff sec with
            | none => findSlots v want cluster rest
            | some (name, info) =>
                if sameName want name then
                  pure (v, some (.ok { info with dirCluster := cluster, dirByteOff := byteOff }))
                else findSlots v want cluster rest

def exfatFindInDir (want : List UInt8) :
    (fuel cluster : Nat) → Vol → DiskM (Vol × Except Int EntryInfo)
  | 0, _, _ => DiskM.diverge
  | fuel + 1, cluster, v =>
      if isEndCluster cluster then pure (v, .error (-3)) -- not found
      else do
        match ← findSlots v want cluster (clusterOffsets v) with
        | (v, some result) => pure (v, result)
        | (v, none) => do
            let next ← fatReadFatEntry v cluster
            exfatFindInDir want fuel next v

/-- The slot loop of `exfat_load_bitmap_info` in one cluster. -/
def loadSlots (v : Vol) (cluster : Nat) : List Nat → DiskM (Option (Int × Vol))
  | [] => pure none
  | byteOff :: rest => do
      match ← rd (clusToLba v cluster + byteOff / v.bytesPerSec) with
      | none => pure (some (-1, v))
      | some sec =>
          if sec (byteOff % v.bytesPerSec) = 0x00 then pure (some (-1, v))
          else if sec (byteOff % v.bytesPerSec) = exfatEntryBitmap then
            pure (some (0, noteBitmap v sec (byteOff % v.bytesPerSec)))
          else loadSlots v cluster rest

def loadClusters (v : Vol) : (fuel cluster : Nat) → DiskM (Int × Vol)
  | 0, _ => DiskM.diverge
  | fuel + 1, cluster =>
      if isEndCluster cluster then pure (-1, v)
      else do
        match ← loadSlots v cluster (clusterOffsets v) with
        | some result => pure result
        | none => do
            let next ← fatReadFatEntry v cluster
            loadClusters v fuel next

def exfatLoadBitmapInfo (v : Vol) (fuel : Nat) : DiskM (Int × Vol) :=
  if v.exfatBitmapClus ≠ 0 then pure (0, v) else loadClusters v fuel v.rootClus

/-! ## Writing a set -/

/-- The rotating sum over a set; the first byte counts as zero. -/
def exfatChecksumEntries (set : Buffer) (totalEntries : Nat) : Nat :=
  (List.range (totalEntries * 32)).foldl (fun sum index =>
    ((((sum >>> 1) ||| (sum <<< 15)) % 65536) +
      (if index = 0 then 0 else (set index).toNat)) % 65536) 0

def exfatWriteEntry (v : Vol) (dirCl byteOff : Nat) (data : Buffer) : DiskM Int := do
  let lba := clusToLba v dirCl + byteOff / v.bytesPerSec
  match ← rd lba with
  | none => pure (-1)
  | some sec =>
      if ← wr lba (sec.copy (byteOff % v.bytesPerSec) 32 data) then pure (-1) else pure 0

/-- The loop of `exfat_write_entry_set`. -/
def writeEntries (v : Vol) (dirCl startByte : Nat) (setbuf : Buffer) :
    (count i : Nat) → DiskM Int
  | 0, _ => pure 0
  | count + 1, i => do
      if (← exfatWriteEntry v dirCl (startByte + i * 32)
          fun index => setbuf (i * 32 + index)) ≠ 0 then pure (-1)
      else writeEntries v dirCl startByte setbuf count (i + 1)

def exfatWriteEntrySet (v : Vol) (dirCl startByte : Nat) (set : Buffer)
    (totalEntries : Nat) : DiskM Int :=
  if totalEntries > 40 then pure (-1)
  else writeEntries v dirCl startByte
    (set.putU16 2 (exfatChecksumEntries set totalEntries)) totalEntries 0

/-- `total_entries` of `exfat_build_entry_set`: the file and the stream entry,
and one name entry for every 15 characters. -/
def entriesFor (name : List UInt8) : Nat := 2 + (name.length + 14) / 15

/-- The name entries of a set: one character in two bytes, and zeros behind the
name. -/
def nameEntries (name : List UInt8) : Buffer := fun index =>
  let entry := index / 32
  let within := index % 32
  if entry < 2 ∨ entriesFor name ≤ entry then 0
  else if within = 0 then exfatEntryName
  else if within = 1 then 0
  else if within % 2 = 0 then name.getD (15 * (entry - 2) + (within - 2) / 2) 0
  else 0

/-- The set for a name of at most 255 characters. Its size of at most 19
entries is never refused. -/
def exfatBuildEntrySet (name : List UInt8) (firstCluster size : Nat) (isDir : Bool) :
    Buffer :=
  let set := nameEntries name
  let set := set.putU8 0 exfatEntryFile
  let set := set.putU8 1 (UInt8.ofNat (entriesFor name - 1))
  let set := set.putU16 4 (if isDir then 0x10 else 0x20)
  let set := set.putU8 32 exfatEntryStream
  let set := set.putU8 33 0x00 -- use FAT chaining
  let set := set.putU8 35 (UInt8.ofNat name.length)
  let set := set.putU32 52 firstCluster
  let set := set.putU64 56 size
  set.putU64 40 size

/-! ## Room for a set -/

/-- The slot loop of `exfat_find_free_set` in one cluster: the offset found,
`none` inside for a read error. -/
def freeSlots (v : Vol) (cluster totalEntries : Nat) :
    List Nat → (run runStart : Nat) → DiskM (Option (Option Nat))
  | [], _, _ => pure none
  | byteOff :: rest, run, runStart => do
      match ← rd (clusToLba v cluster + byteOff / v.bytesPerSec) with
      | none => pure (some none)
      | some sec =>
          let et := sec (byteOff % v.bytesPerSec)
          if et = 0x00 ∧ (v.clusterBytes - byteOff) / 32 ≥ totalEntries then
            pure (some (some byteOff))
          else if et = 0x00 ∨ et = 0xFF then
            let runStart := if run = 0 then byteOff else runStart
            if run + 1 ≥ totalEntries then pure (some (some runStart))
            else freeSlots v cluster totalEntries rest (run + 1) runStart
          else freeSlots v cluster totalEntries rest 0 runStart

/-- The cluster loop of `exfat_find_free_set`: the place found, or the last
cluster of the chain. -/
def freeClusters (v : Vol) (totalEntries : Nat) :
    (fuel cluster prev : Nat) → DiskM (Option (Nat ⊕ Nat × Nat))
  | 0, _, _ => DiskM.diverge
  | fuel + 1, cluster, prev =>
      if isEndCluster cluster then pure (some (.inl prev))
      else do
        match ← freeSlots v cluster totalEntries (clusterOffsets v) 0 0 with
        | some none => pure none
        | some (some byteOff) => pure (some (.inr (cluster, byteOff)))
        | none => do
            let next ← fatReadFatEntry v cluster
            freeClusters v totalEntries fuel next cluster

/-- No space: extend the directory behind its last cluster. -/
def extendDirectory (v : Vol) (prev : Nat) : DiskM (Option (Nat × Nat)) := do
  let newCl ← exfatAllocCluster v
  if newCl = 0 then pure none
  else do
    let _ ← fatWriteFatEntry v prev newCl
    let _ ← fatWriteFatEntry v newCl eocMark
    let _ ← exfatZeroCluster v newCl
    pure (some (newCl, 0))

/-- The cluster and the offset, or `none` where the source returns -1. -/
def exfatFindFreeSet (v : Vol) (fuel dirCl totalEntries : Nat) :
    DiskM (Option (Nat × Nat)) := do
  match ← freeClusters v totalEntries fuel dirCl dirCl with
  | none => pure none
  | some (.inr place) => pure (some place)
  | some (.inl prev) => extendDirectory v prev

end ParanOS

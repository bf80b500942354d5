import ParanOS.Exfat.Directory

/-! # exFAT files and paths

The exFAT path walkers of `fs_fat32.c`. A lookup may note the position of the
allocation bitmap in the volume, so the walkers return the volume as well.
-/

namespace ParanOS

open Foundation

/-- The clusters of a new entry with their content: none for an empty file, one
for a directory. The result is the first cluster, or `none` if allocating
failed. -/
def allocContent (v : Vol) (fuel : Nat) (isDir : Bool) (data : List UInt8) :
    DiskM (Option Nat) :=
  let actualBytes := if isDir then v.clusterBytes else data.length
  if actualBytes > 0 then do
    let firstCluster ← exfatAllocChainForSize v fuel actualBytes
    if firstCluster = 0 then pure none
    else do
      let _ ← if data ≠ [] then exfatWriteChain v fuel firstCluster data
        else exfatZeroCluster v firstCluster
      pure (some firstCluster)
  else pure (some 0)

/-- The result code and the new entry's first cluster. -/
def exfatCreateEntry (v : Vol) (fuel dirCl : Nat) (name : List UInt8) (isDir : Bool)
    (data : List UInt8) : DiskM (Int × Nat) := do
  match ← allocContent v fuel isDir data with
  | none => pure (-2, 0)
  | some firstCluster => do
      match ← exfatFindFreeSet v fuel dirCl (entriesFor name) with
      | none => pure (-3, 0)
      | some (startCl, startByte) => do
          if (← exfatWriteEntrySet v startCl startByte
              (exfatBuildEntrySet name firstCluster data.length isDir) (entriesFor name)) ≠ 0
          then pure (-4, 0) else pure (0, firstCluster)

section

variable {v : Vol} {fuel dirCl first : Nat} {name data : List UInt8} {isDir : Bool}
  {device allocated found : Device}
  (alloc : allocContent v fuel isDir data device = some (some first, allocated))
include alloc

theorem exfatCreateEntry_full
    (find : exfatFindFreeSet v fuel dirCl (entriesFor name) allocated = some (none, found)) :
    exfatCreateEntry v fuel dirCl name isDir data device = some ((-3, 0), found) := by
  rw [exfatCreateEntry, DiskM.bind_run alloc]
  simp only
  rw [DiskM.bind_run find]
  rfl

theorem exfatCreateEntry_run {startCl startByte : Nat} {device' : Device}
    (find : exfatFindFreeSet v fuel dirCl (entriesFor name) allocated =
      some (some (startCl, startByte), found))
    (wrote : exfatWriteEntrySet v startCl startByte
      (exfatBuildEntrySet name first data.length isDir) (entriesFor name) found =
        some (0, device')) :
    exfatCreateEntry v fuel dirCl name isDir data device = some ((0, first), device') := by
  rw [exfatCreateEntry, DiskM.bind_run alloc]
  simp only
  rw [DiskM.bind_run find]
  simp only
  rw [DiskM.bind_run wrote]
  rfl

end

def exfatUpdateEntry (v : Vol) (loc : EntryInfo) (name : List UInt8)
    (firstCluster bytes : Nat) (isDir : Bool) : DiskM Int :=
  exfatWriteEntrySet v loc.dirCluster loc.dirByteOff
    (exfatBuildEntrySet name firstCluster bytes isDir) (entriesFor name)

/-! ## Reading -/

/-- The loop of `exfat_follow_path`. A path without components is not told from
a found one: then there is no entry. -/
def followWalk (fuel : Nat) :
    List (List UInt8) → Nat → Vol → DiskM (Vol × Except Int (Option EntryInfo))
  | [], _, v => pure (v, .ok none)
  | comp :: rest, dir, v => do
      match ← exfatFindInDir comp fuel dir v with
      | (v, .error r) => pure (v, .error r)
      | (v, .ok info) =>
          if rest.isEmpty then pure (v, .ok (some info))
          else if info.isDir then followWalk fuel rest info.cluster v
          else pure (v, .error (-3))

/-- `exfat_read_file_path` for a path with at least one component: the source
reads an uninitialised entry for any other. -/
def exfatReadWalk (fuel maxBytes : Nat) (comps : List (List UInt8)) (v : Vol) :
    DiskM (Vol × ReadResult) := do
  match ← followWalk fuel comps v.rootClus v with
  | (v, .error r) => pure (v, ⟨r, 0, []⟩)
  | (v, .ok none) => pure (v, ⟨0, 0, []⟩)
  | (v, .ok (some info)) =>
      if info.isDir then pure (v, ⟨-4, 0, []⟩)
      else do
        let result ← readFileFromCluster v fuel info.cluster (min info.size 0xFFFFFFFF) maxBytes
        pure (v, result)

/-! ## Writing -/

/-- New clusters for an existing file's data. The result is the first cluster,
or the code to return. -/
def replaceContent (v : Vol) (fuel : Nat) (data : List UInt8) : DiskM (Except Int Nat) :=
  if data.length > 0 then do
    let firstCluster ← exfatAllocChainForSize v fuel data.length
    if firstCluster = 0 then pure (.error (-7))
    else if (← exfatWriteChain v fuel firstCluster data) ≠ 0 then do
      let _ ← exfatFreeChain v fuel firstCluster
      pure (.error (-8))
    else pure (.ok firstCluster)
  else pure (.ok 0)

/-- Free the clusters an entry had. -/
def freeOld (v : Vol) (fuel cluster : Nat) : DiskM Int :=
  if cluster ≠ 0 then exfatFreeChain v fuel cluster else pure 0

/-- The last component of `exfat_write_file_path` when its entry exists. -/
def exfatOverwrite (v : Vol) (fuel : Nat) (info : EntryInfo) (name data : List UInt8) :
    DiskM Int := do
  match ← replaceContent v fuel data with
  | .error code => pure code
  | .ok firstCluster => do
      let _ ← freeOld v fuel info.cluster
      exfatUpdateEntry v info name firstCluster data.length false

/-- The loop of `exfat_write_file_path`. -/
def exfatWriteWalk (fuel : Nat) (data : List UInt8) :
    List (List UInt8) → Nat → Vol → DiskM (Vol × Int)
  | [], _, v => pure (v, -1)
  | comp :: rest, dir, v => do
      match ← exfatFindInDir comp fuel dir v with
      | (v, .error _) =>
          if rest.isEmpty then do
            let (r, _) ← exfatCreateEntry v fuel dir comp false data
            pure (v, r)
          else do
            let (r, cluster) ← exfatCreateEntry v fuel dir comp true []
            if r ≠ 0 then pure (v, -5) else exfatWriteWalk fuel data rest cluster v
      | (v, .ok info) =>
          if rest.isEmpty then do
            let r ← exfatOverwrite v fuel info comp data
            pure (v, r)
          else if info.isDir then exfatWriteWalk fuel data rest info.cluster v
          else pure (v, -6)

def exfatWriteFile (v : Vol) (fuel : Nat) (comps : List (List UInt8)) (data : List UInt8) :
    DiskM (Vol × Int) := do
  let (_, v) ← exfatLoadBitmapInfo v fuel
  exfatWriteWalk fuel data comps v.rootClus v

/-- The loop of `exfat_ensure_dir_path`. -/
def exfatEnsureWalk (fuel : Nat) :
    List (List UInt8) → Nat → Vol → DiskM (Vol × Int)
  | [], _, v => pure (v, 0)
  | comp :: rest, dir, v => do
      match ← exfatFindInDir comp fuel dir v with
      | (v, .error _) => do
          let (r, cluster) ← exfatCreateEntry v fuel dir comp true []
          if r ≠ 0 then pure (v, -1) else exfatEnsureWalk fuel rest cluster v
      | (v, .ok info) =>
          if info.isDir then exfatEnsureWalk fuel rest info.cluster v
          else pure (v, -2)

/-! ## Listing -/

/-- The slot loop of `exfat_list_dir` in one cluster: a result once the listing
is over, and the items so far. -/
def exfatListSlots (v : Vol) (maxItems cluster : Nat) :
    List Nat → List Dirent → DiskM (Option Int × List Dirent)
  | [], items => pure (none, items)
  | byteOff :: rest, items =>
      if items.length ≥ maxItems then pure (none, items)
      else do
        match ← rd (clusToLba v cluster + byteOff / v.bytesPerSec) with
        | none => pure (some (-1), items)
        | some sec =>
            if sec (byteOff % v.bytesPerSec) = 0x00 then pure (some 0, items)
            else do
              match ← exfatSetAt v cluster byteOff sec with
              | none => exfatListSlots v maxItems cluster rest items
              | some (name, info) =>
                  exfatListSlots v maxItems cluster rest (items ++
                    [⟨(name.takeWhile (· ≠ 0)).take 12, if info.isDir then 0x10 else 0x20,
                      info.size % 4294967296⟩])

def exfatListDir (v : Vol) (maxItems : Nat) :
    (fuel cluster : Nat) → List Dirent → DiskM (Int × List Dirent)
  | 0, _, _ => DiskM.diverge
  | fuel + 1, cluster, items =>
      if isEndCluster cluster then pure (0, items)
      else do
        match ← exfatListSlots v maxItems cluster (clusterOffsets v) items with
        | (some code, items) => pure (code, if code = 0 then items else [])
        | (none, items) => do
            let next ← fatReadFatEntry v cluster
            exfatListDir v maxItems fuel next items

/-- The loop of `exfat_list_dir_path`, then the listing. -/
def exfatListWalk (fuel maxItems : Nat) :
    List (List UInt8) → Nat → Vol → DiskM (Vol × Int × List Dirent)
  | [], dir, v => do
      let (code, items) ← exfatListDir v maxItems fuel dir []
      pure (v, code, items)
  | comp :: rest, dir, v => do
      match ← exfatFindInDir comp fuel dir v with
      | (v, .error r) => pure (v, r, [])
      | (v, .ok info) =>
          if info.isDir then exfatListWalk fuel maxItems rest info.cluster v
          else pure (v, -2, [])

/-! ## Lookups and listings make no write call -/

private theorem collectLoop_readOnly (v : Vol) (lbaBase startByte count i : Nat)
    (last : Option (Nat × Buffer)) (out : Buffer) :
    ReadOnly (collectLoop v lbaBase startByte count i last out) := by
  induction count generalizing i last out with
  | zero => exact .pure _
  | succ count induction =>
      simp only [collectLoop]
      split
      · exact induction _ _ _
      · apply ReadOnly.bind (.rd _)
        intro sec
        cases sec with
        | none => exact .pure _
        | some sec => exact induction _ _ _

theorem exfatSetAt_readOnly (v : Vol) (cluster byteOff : Nat) (sec : Buffer) :
    ReadOnly (exfatSetAt v cluster byteOff sec) := by
  have collects : ∀ total, ReadOnly (exfatCollectEntries v cluster byteOff total) := fun total =>
    .ite (.pure _) (collectLoop_readOnly v _ _ _ _ _ _)
  apply ReadOnly.ite (.pure _) (.ite (.pure _) (.ite (.pure _) (.bind (collects _) _)))
  intro set
  cases set <;> exact .pure _

private theorem findSlots_readOnly (v : Vol) (want : List UInt8) (cluster : Nat)
    (offsets : List Nat) : ReadOnly (findSlots v want cluster offsets) := by
  induction offsets generalizing v with
  | nil => exact .pure _
  | cons byteOff rest induction =>
      apply ReadOnly.bind (.rd _)
      intro sec
      cases sec with
      | none => exact .pure _
      | some sec =>
          apply ReadOnly.ite (.pure _) (.bind (exfatSetAt_readOnly _ cluster byteOff sec) _)
          intro found
          cases found with
          | none => exact induction _
          | some found => exact .ite (.pure _) (induction _)

theorem exfatFindInDir_readOnly (want : List UInt8) (fuel cluster : Nat) (v : Vol) :
    ReadOnly (exfatFindInDir want fuel cluster v) := by
  induction fuel generalizing cluster v with
  | zero => exact .diverge
  | succ fuel induction =>
      apply ReadOnly.ite (.pure _) (.bind (findSlots_readOnly v want cluster _) _)
      intro result
      rcases result with ⟨v, found⟩
      cases found with
      | some found => exact .pure _
      | none => exact .bind (fatReadFatEntry_readOnly v cluster) fun next => induction next v

private theorem exfatListSlots_readOnly (v : Vol) (maxItems cluster : Nat)
    (offsets : List Nat) (items : List Dirent) :
    ReadOnly (exfatListSlots v maxItems cluster offsets items) := by
  induction offsets generalizing items with
  | nil => exact .pure _
  | cons byteOff rest induction =>
      apply ReadOnly.ite (.pure _) (.bind (.rd _) _)
      intro sec
      cases sec with
      | none => exact .pure _
      | some sec =>
          apply ReadOnly.ite (.pure _) (.bind (exfatSetAt_readOnly _ cluster byteOff sec) _)
          intro found
          cases found with
          | none => exact induction _
          | some found => exact induction _

private theorem exfatListDir_readOnly (v : Vol) (maxItems fuel cluster : Nat)
    (items : List Dirent) : ReadOnly (exfatListDir v maxItems fuel cluster items) := by
  induction fuel generalizing cluster items with
  | zero => exact .diverge
  | succ fuel induction =>
      apply ReadOnly.ite (.pure _) (.bind (exfatListSlots_readOnly v maxItems cluster _ items) _)
      intro result
      rcases result with ⟨code, items⟩
      cases code with
      | some code => exact .pure _
      | none => exact .bind (fatReadFatEntry_readOnly v cluster) fun next => induction next items

theorem exfatListWalk_readOnly (fuel maxItems : Nat) (comps : List (List UInt8)) (dir : Nat)
    (v : Vol) : ReadOnly (exfatListWalk fuel maxItems comps dir v) := by
  induction comps generalizing dir v with
  | nil => exact .bind (exfatListDir_readOnly v maxItems fuel dir []) fun _ => .pure _
  | cons comp rest induction =>
      apply ReadOnly.bind (exfatFindInDir_readOnly comp fuel dir v)
      intro result
      rcases result with ⟨v, found⟩
      cases found with
      | error r => exact .pure _
      | ok info => exact .ite (induction _ _) (.pure _)

end ParanOS

import ParanOS.Foundation.Logged
import ParanOS.Fat.Mount
import ParanOS.Fat.RootFile

/-! # What one read fills of a sector buffer

The disk call-back delivers 512 bytes for a sector, the loops over directories and the file
allocation table go by the mounted sector size. Here they note every byte of the buffer that
they examine after a read.
-/

namespace ParanOS

open Foundation

/-- The bytes that `ata_read28` delivers for one sector, and the size of `sec` in
`create_dir_entry`. -/
def deliveredBytes : Nat := 512

/-! ## The table -/

/-- The bytes of a table entry. -/
def fatEntryBytes (v : Vol) (clus : Nat) : List Nat := List.range' (fatEntOff v clus) 4

def fatReadFatEntryLogged (v : Vol) (clus : Nat) : LogM Nat Nat := do
  match ← LogM.lift (rd (fatSector v clus)) with
  | none => pure eocMark
  | some sec => do
      LogM.note (fatEntryBytes v clus)
      pure (sec.getU32 (fatEntOff v clus) &&& 0x0FFFFFFF)

def fatWriteFatEntryLogged (v : Vol) (clus val : Nat) : LogM Nat Int := do
  match ← LogM.lift (rd (fatSector v clus)) with
  | none => pure (-1)
  | some sec => do
      LogM.note (fatEntryBytes v clus)
      let old := sec.getU32 (fatEntOff v clus)
      let sec := sec.putU32 (fatEntOff v clus)
        ((val &&& 0x0FFFFFFF) ||| (old &&& 0xF0000000))
      let failed ← LogM.lift (wr (fatSector v clus) sec)
      if failed then pure (-2) else pure 0

def allocScanLogged (v : Vol) (claim : Nat → LogM Nat Nat) : (count cl : Nat) → LogM Nat Nat
  | 0, _ => pure 0
  | count + 1, cl => do
      match ← LogM.lift (rd (fatSector v cl)) with
      | none => pure 0
      | some sec => do
          LogM.note (fatEntryBytes v cl)
          if sec.getU32 (fatEntOff v cl) &&& 0x0FFFFFFF = 0 then claim cl
          else allocScanLogged v claim count (cl + 1)

def fatClaimLogged (v : Vol) (cl : Nat) : LogM Nat Nat := do
  let written ← fatWriteFatEntryLogged v cl eocMark
  if written = 0 then pure cl else pure 0

def fatAllocFreeClusterLogged (v : Vol) : LogM Nat Nat :=
  allocScanLogged v (fatClaimLogged v) (fatMaxClusters v - 2) 2

/-! ## The directory loops -/

/-- The bytes examined at the slots of a sector, up to the one that decides. -/
def visitedBytes {β : Type} (examine : Nat → List Nat) (visit : Nat → Option β) :
    List Nat → List Nat
  | [] => []
  | off :: rest =>
      examine off ++ if (visit off).isSome then [] else visitedBytes examine visit rest

/-- The directory walk over the slots at these offsets. -/
def dirScanLogged {β : Type} (v : Vol) (offsets : List Nat) (examine : Buffer → Nat → List Nat)
    (visit : Nat → Nat → Buffer → Nat → Option β) (failed exhausted : β) :
    (fuel dirCl : Nat) → LogM Nat β
  | 0, _ => LogM.diverge
  | fuel + 1, dirCl =>
      if isEndCluster dirCl then pure exhausted
      else do
        let lba := clusToLba v dirCl
        match ← (List.range v.secPerClus).findSomeM? (fun s => do
            match ← LogM.lift (rd (lba + s)) with
            | none => pure (some failed)
            | some sec => do
                LogM.note (visitedBytes (examine sec) (visit lba s sec) offsets)
                pure (offsets.findSome? (visit lba s sec))) with
        | some result => pure result
        | none => do
            let next ← fatReadFatEntryLogged v dirCl
            dirScanLogged v offsets examine visit failed exhausted fuel next

/-- The bytes up to the first that differs, as `match_name11` compares them. -/
def comparedBytes (sec : Buffer) (want11 : List UInt8) (off : Nat) : List Nat → List Nat
  | [] => []
  | i :: rest =>
      (off + i) :: if want11[i]? = some (sec (off + i)) then comparedBytes sec want11 off rest
        else []

/-- The bytes of a slot that tell whether it is to be skipped, and what is examined of one that
is not. -/
def slotBytes (sec : Buffer) (off : Nat) (used : List Nat) : List Nat :=
  if sec off = 0x00 ∨ sec off = 0xE5 then [off]
  else if sec (off + 11) = attrLongName then [off, off + 11]
  else off :: (off + 11) :: used

/-- `dir_find_entry` copies the entry that it finds. -/
def entryBytes (want11 : List UInt8) (sec : Buffer) (off : Nat) : List Nat :=
  slotBytes sec off (comparedBytes sec want11 off (List.range 11) ++
    if sec.bytes off 11 = want11 then List.range' off 32 else [])

/-- The loops of the root directory functions compare the whole name, and read some fields of the
entry that they find. -/
def rootEntryBytes (found : Bool) (fields : List Nat) (sec : Buffer) (off : Nat) : List Nat :=
  slotBytes sec off (List.range' off 11 ++ if found then fields.map (off + ·) else [])

/-- Name and size of an entry that is listed. -/
def shownBytes (off : Nat) : List Nat := List.range' off 12 ++ List.range' (off + 28) 4

/-- The slot loop of the listings, `dots` when the entries `.` and `..` are listed too. -/
def listSlotsLogged (dots : Bool) (maxItems : Nat) (sec : Buffer) :
    List Nat → List Dirent → LogM Nat (Bool × List Dirent)
  | [], items => pure (false, items)
  | off :: rest, items =>
      if items.length ≥ maxItems then pure (true, items)
      else do
        LogM.note (slotBytes sec off (if sec off = 0x2E ∧ !dots then [] else shownBytes off))
        if sec off = 0x00 then pure (true, items)
        else if sec off = 0xE5 ∨ sec (off + 11) = attrLongName ∨ sec off = 0x2E ∧ !dots then
          listSlotsLogged dots maxItems sec rest items
        else
          listSlotsLogged dots maxItems sec rest
            (items ++ [⟨renderName sec off, sec (off + 11), sec.getU32 (off + 28)⟩])

def listSectorsLogged (dots : Bool) (v : Vol) (maxItems lba : Nat) :
    List Nat → List Dirent → LogM Nat (Bool × List Dirent)
  | [], items => pure (false, items)
  | s :: rest, items => do
      match ← LogM.lift (rd (lba + s)) with
      | none => pure (true, items)
      | some sec => do
          let (done, items) ← listSlotsLogged dots maxItems sec (slotOffsets v) items
          if done then pure (true, items) else listSectorsLogged dots v maxItems lba rest items

def listClustersLogged (dots : Bool) (v : Vol) (maxItems : Nat) :
    (fuel cl : Nat) → List Dirent → LogM Nat (List Dirent)
  | 0, _, _ => LogM.diverge
  | fuel + 1, cl, items =>
      if isEndCluster cl then pure items
      else do
        let (done, items) ← listSectorsLogged dots v maxItems (clusToLba v cl)
          (List.range v.secPerClus) items
        if done then pure items
        else do
          let next ← fatReadFatEntryLogged v cl
          listClustersLogged dots v maxItems fuel next items

/-! ## The functions that examine directories and the table -/

/-- The slot offsets of `fat32_create_file_root` and `fat32_write_file_root`, whatever the
mounted sector size. -/
def rootOffsets : List Nat := (List.range 16).map (32 * ·)

inductive Scan
  | readFatEntry (clus : Nat)
  | writeFatEntry (clus val : Nat)
  | allocFreeCluster
  | findEntry (want11 : List UInt8) (fuel dirCl : Nat)
  | findFreeSlot (fuel dirCl : Nat)
  /-- `fat32_list_dir_path` behind its path. -/
  | listDir (maxItems fuel dirCl : Nat)
  | listRootArray (maxItems fuel : Nat)
  | listRoot (fuel : Nat)
  /-- `fat32_read_file`. -/
  | readFile (name : List UInt8) (fuel : Nat)
  | createFileRoot (fuel : Nat)
  | writeFileRoot (name11 : List UInt8) (fuel : Nat)

/-- The bytes of its sector buffers that a function examines. -/
def Scan.examined (v : Vol) (device : Device) : Scan → List Nat
  | .readFatEntry clus => (fatReadFatEntryLogged v clus).log device
  | .writeFatEntry clus val => (fatWriteFatEntryLogged v clus val).log device
  | .allocFreeCluster => (fatAllocFreeClusterLogged v).log device
  | .findEntry want11 fuel dirCl =>
      (dirScanLogged v (slotOffsets v) (entryBytes want11) (visitEntry want11) (.error (-1))
        (.error (-3)) fuel dirCl).log device
  | .findFreeSlot fuel dirCl =>
      (dirScanLogged v (slotOffsets v) (fun _ off => [off]) visitFree none none fuel dirCl).log
        device
  | .listDir maxItems fuel dirCl => (listClustersLogged false v maxItems fuel dirCl []).log device
  | .listRootArray maxItems fuel =>
      (listClustersLogged true v maxItems fuel v.rootClus []).log device
  | .listRoot fuel =>
      (dirScanLogged v (slotOffsets v) (fun sec off => slotBytes sec off (shownBytes off))
        (fun _ _ sec off => if sec off = 0x00 then some () else none) () () fuel v.rootClus).log
        device
  | .readFile name fuel =>
      (dirScanLogged v (slotOffsets v)
        (fun sec off => rootEntryBytes (matchName83 (sec.bytes off 11) name)
          [20, 21, 26, 27, 28, 29, 30, 31] sec off)
        (visitName83 name) (.error (-2)) (.ok (0, 0)) fuel v.rootClus).log device
  | .createFileRoot fuel =>
      (dirScanLogged v rootOffsets (fun _ off => [off]) visitFree none none fuel v.rootClus).log
        device
  | .writeFileRoot name11 fuel =>
      (dirScanLogged v rootOffsets
        (fun sec off => rootEntryBytes (sec.bytes off 11 == name11) [26, 27, 20, 21] sec off)
        (visitEntry name11) (.error (-1)) (.error (-3)) fuel v.rootClus).log device

/-- A slot found for a new entry lies within the buffer of `create_dir_entry`, and every byte
examined was filled by the read. -/
structure FilledOnly (v : Vol) : Prop where
  slot : ∀ fuel dirCl, Ensures (dirFindFreeSlot v fuel dirCl) fun found =>
    ∀ slot ∈ found, slot.off + 32 ≤ deliveredBytes
  examined : ∀ device (scan : Scan), ∀ index ∈ scan.examined v device, index < deliveredBytes

/-! ## Without the log they are the functions -/

theorem fatReadFatEntryLogged_erase (v : Vol) (clus : Nat) :
    (fatReadFatEntryLogged v clus).erase = fatReadFatEntry v clus := by
  rw [fatReadFatEntryLogged, fatReadFatEntry, LogM.erase_bind, LogM.erase_lift]
  congr 1
  funext sec
  cases sec with
  | none => rfl
  | some sec => rfl

theorem fatWriteFatEntryLogged_erase (v : Vol) (clus val : Nat) :
    (fatWriteFatEntryLogged v clus val).erase = fatWriteFatEntry v clus val := by
  rw [fatWriteFatEntryLogged, fatWriteFatEntry, LogM.erase_bind, LogM.erase_lift]
  congr 1
  funext sec
  cases sec with
  | none => rfl
  | some sec =>
      simp only [LogM.erase_bind, LogM.erase_lift, LogM.erase_ite, LogM.erase_pure]
      rfl

theorem allocScanLogged_erase (v : Vol) (claim : Nat → LogM Nat Nat) (count cl : Nat) :
    (allocScanLogged v claim count cl).erase =
      allocScan v (fun free => (claim free).erase) count cl := by
  induction count generalizing cl with
  | zero => rfl
  | succ count induction =>
      rw [allocScanLogged, allocScan, LogM.erase_bind, LogM.erase_lift]
      congr 1
      funext sec
      cases sec with
      | none => rfl
      | some sec => simp only [LogM.erase_note_bind, LogM.erase_ite, induction]

theorem fatAllocFreeClusterLogged_erase (v : Vol) :
    (fatAllocFreeClusterLogged v).erase = fatAllocFreeCluster v := by
  rw [fatAllocFreeClusterLogged, fatAllocFreeCluster, allocScanLogged_erase]
  congr 1
  funext cl
  simp only [fatClaimLogged, fatClaim, LogM.erase_bind, fatWriteFatEntryLogged_erase,
    LogM.erase_ite, LogM.erase_pure]

theorem dirScanLogged_erase {β : Type} (v : Vol) (examine : Buffer → Nat → List Nat)
    (visit : Nat → Nat → Buffer → Nat → Option β) (failed exhausted : β) (fuel dirCl : Nat) :
    (dirScanLogged v (slotOffsets v) examine visit failed exhausted fuel dirCl).erase =
      dirScan v visit failed exhausted fuel dirCl := by
  induction fuel generalizing dirCl with
  | zero => rfl
  | succ fuel induction =>
      rw [dirScanLogged, dirScan, LogM.erase_ite, LogM.erase_bind, LogM.erase_findSomeM?]
      congr 2
      · congr 1
        funext s
        rw [LogM.erase_bind, LogM.erase_lift]
        congr 1
        funext sec
        cases sec with
        | none => rfl
        | some sec => rfl
      · funext found
        cases found with
        | some result => rfl
        | none =>
            simp only [LogM.erase_bind, fatReadFatEntryLogged_erase, induction]

theorem listSlotsLogged_erase (maxItems : Nat) (sec : Buffer) (offsets : List Nat)
    (items : List Dirent) :
    (listSlotsLogged false maxItems sec offsets items).erase =
      pure (listSlots maxItems sec offsets items) := by
  induction offsets generalizing items with
  | nil => rfl
  | cons off rest induction =>
      simp only [listSlotsLogged, listSlots, LogM.erase_ite, LogM.erase_note_bind, induction,
        Bool.not_false, and_true, LogM.erase_pure]
      repeat' split
      all_goals rfl

theorem listSectorsLogged_erase (v : Vol) (maxItems lba : Nat) (sectors : List Nat)
    (items : List Dirent) :
    (listSectorsLogged false v maxItems lba sectors items).erase =
      listSectors v maxItems lba sectors items := by
  induction sectors generalizing items with
  | nil => rfl
  | cons s rest induction =>
      rw [listSectorsLogged, listSectors, LogM.erase_bind, LogM.erase_lift]
      congr 1
      funext sec
      cases sec with
      | none => rfl
      | some sec =>
          simp only [LogM.erase_bind, listSlotsLogged_erase, LogM.erase_ite, LogM.erase_pure,
            induction]
          rfl

theorem listClustersLogged_erase (v : Vol) (maxItems fuel cl : Nat) (items : List Dirent) :
    (listClustersLogged false v maxItems fuel cl items).erase =
      listClusters v maxItems fuel cl items := by
  induction fuel generalizing cl items with
  | zero => rfl
  | succ fuel induction =>
      simp only [listClustersLogged, listClusters, LogM.erase_ite, LogM.erase_bind,
        listSectorsLogged_erase, fatReadFatEntryLogged_erase, induction, LogM.erase_pure]

/-! ## Volumes whose sectors are read whole -/

/-- The sector size is at most what one read delivers, and no table entry crosses its end. -/
def ReadWhole (v : Vol) : Prop := v.bytesPerSec ≤ 512 ∧ v.bytesPerSec ≠ 511

theorem fatEntryBytes_filled {v : Vol} (positive : 0 < v.bytesPerSec) (whole : ReadWhole v)
    (clus : Nat) : ∀ index ∈ fatEntryBytes v clus, index < deliveredBytes := by
  intro index member
  rcases List.mem_range'_1.mp member with ⟨_, below⟩
  rcases whole with ⟨small, notOdd⟩
  have inside := Nat.mod_lt (u32 (clus * 4)) positive
  have start : fatEntOff v clus ≤ 508 := by
    rw [fatEntOff, u32] at *
    -- of the sizes left only 510 and 512 could hold an offset above 508, and both are even
    cases Nat.lt_or_ge v.bytesPerSec 510 with
    | inl tiny => omega
    | inr large =>
        have sizes : v.bytesPerSec = 510 ∨ v.bytesPerSec = 512 := by omega
        cases sizes with
        | inl size => rw [size]; omega
        | inr size => rw [size]; omega
  rw [deliveredBytes]
  omega

theorem slotOffsets_filled {v : Vol} (whole : ReadWhole v) :
    ∀ off ∈ slotOffsets v, off + 32 ≤ deliveredBytes := by
  intro off member
  rcases mem_slotOffsets.mp member with ⟨⟨slot, rfl⟩, bound⟩
  have small := whole.1
  rw [deliveredBytes]
  omega

theorem rootOffsets_filled : ∀ off ∈ rootOffsets, off + 32 ≤ deliveredBytes := by
  decide

/-! ### The bytes of a slot -/

/-- The bytes examined at a slot are those of the slot. -/
def WithinSlot (off : Nat) (bytes : List Nat) : Prop := ∀ index ∈ bytes, index < off + 32

theorem withinSlot_range' {off start count : Nat} (fits : start + count ≤ off + 32) :
    WithinSlot off (List.range' start count) := by
  intro index member
  have bounds := List.mem_range'_1.mp member
  omega

theorem WithinSlot.append {off : Nat} {first second : List Nat} (front : WithinSlot off first)
    (back : WithinSlot off second) : WithinSlot off (first ++ second) := by
  intro index member
  cases List.mem_append.mp member with
  | inl here => exact front index here
  | inr behind => exact back index behind

theorem WithinSlot.ite {off : Nat} {condition : Prop} [Decidable condition]
    {bytes : List Nat} (within : WithinSlot off bytes) :
    WithinSlot off (if condition then bytes else []) := by
  split
  · exact within
  · exact fun _ member => absurd member List.not_mem_nil

theorem withinSlot_comparedBytes (sec : Buffer) (want11 : List UInt8) (off : Nat)
    {places : List Nat} (inside : ∀ i ∈ places, i < 32) :
    WithinSlot off (comparedBytes sec want11 off places) := by
  induction places with
  | nil => exact fun _ member => absurd member List.not_mem_nil
  | cons i rest induction =>
      have head := inside i List.mem_cons_self
      have tail : WithinSlot off (if want11[i]? = some (sec (off + i)) then
          comparedBytes sec want11 off rest else []) :=
        .ite (induction fun place member => inside place (List.mem_cons_of_mem i member))
      intro index member
      cases List.mem_cons.mp member with
      | inl here => omega
      | inr behind => exact tail index behind

theorem withinSlot_slotBytes (sec : Buffer) {off : Nat} {used : List Nat}
    (within : WithinSlot off used) : WithinSlot off (slotBytes sec off used) := by
  intro index member
  rw [slotBytes] at member
  split at member
  · have here := List.mem_singleton.mp member
    omega
  · split at member
    · simp only [List.mem_cons, List.not_mem_nil, or_false] at member
      omega
    · simp only [List.mem_cons] at member
      rcases member with rfl | rfl | behind
      · omega
      · omega
      · exact within index behind

theorem withinSlot_entryBytes (want11 : List UInt8) (sec : Buffer) (off : Nat) :
    WithinSlot off (entryBytes want11 sec off) :=
  withinSlot_slotBytes sec ((withinSlot_comparedBytes sec want11 off (by decide)).append
    (.ite (withinSlot_range' (by omega))))

theorem withinSlot_rootEntryBytes (found : Bool) {fields : List Nat}
    (inside : ∀ field ∈ fields, field < 32) (sec : Buffer) (off : Nat) :
    WithinSlot off (rootEntryBytes found fields sec off) := by
  have read : WithinSlot off (fields.map (off + ·)) := by
    intro index member
    rcases List.mem_map.mp member with ⟨field, fieldMember, rfl⟩
    have bound := inside field fieldMember
    omega
  exact withinSlot_slotBytes sec ((withinSlot_range' (by omega)).append (.ite read))

theorem withinSlot_shownBytes (off : Nat) : WithinSlot off (shownBytes off) :=
  (withinSlot_range' (by omega)).append (withinSlot_range' (by omega))

/-! ### The functions -/

theorem mem_visitedBytes {β : Type} {examine : Nat → List Nat} {visit : Nat → Option β}
    {offsets : List Nat} {index : Nat} (member : index ∈ visitedBytes examine visit offsets) :
    ∃ off ∈ offsets, index ∈ examine off := by
  induction offsets with
  | nil => exact absurd member List.not_mem_nil
  | cons off rest induction =>
      cases List.mem_append.mp member with
      | inl here => exact ⟨off, List.mem_cons_self, here⟩
      | inr behind =>
          split at behind
          · exact absurd behind List.not_mem_nil
          · rcases induction behind with ⟨other, otherMember, examined⟩
            exact ⟨other, List.mem_cons_of_mem off otherMember, examined⟩

/-- The bytes a program examines were all filled. -/
abbrev ExaminesFilled {α : Type} (program : LogM Nat α) : Prop :=
  LogsOnly program (· < deliveredBytes)

section

variable {v : Vol} (positive : 0 < v.bytesPerSec) (whole : ReadWhole v)
include positive whole

theorem fatReadFatEntryLogged_filled (clus : Nat) :
    ExaminesFilled (fatReadFatEntryLogged v clus) := by
  apply LogsOnly.rd_bind
  · exact .pure _
  · intro sec
    exact (LogsOnly.note (fatEntryBytes_filled positive whole clus)).bind fun _ => .pure _

theorem fatWriteFatEntryLogged_filled (clus val : Nat) :
    ExaminesFilled (fatWriteFatEntryLogged v clus val) := by
  apply LogsOnly.rd_bind
  · exact .pure _
  · intro sec
    apply (LogsOnly.note (fatEntryBytes_filled positive whole clus)).bind
    intro _
    exact (LogsOnly.lift _).bind fun _ => .ite (.pure _) (.pure _)

theorem allocScanLogged_filled {claim : Nat → LogM Nat Nat}
    (claims : ∀ cl, ExaminesFilled (claim cl)) (count cl : Nat) :
    ExaminesFilled (allocScanLogged v claim count cl) := by
  induction count generalizing cl with
  | zero => exact .pure _
  | succ count induction =>
      apply LogsOnly.rd_bind
      · exact .pure _
      · intro sec
        exact (LogsOnly.note (fatEntryBytes_filled positive whole cl)).bind fun _ =>
          .ite (claims cl) (induction (cl + 1))

theorem fatAllocFreeClusterLogged_filled : ExaminesFilled (fatAllocFreeClusterLogged v) := by
  rw [fatAllocFreeClusterLogged]
  apply allocScanLogged_filled positive whole
  intro cl
  exact (fatWriteFatEntryLogged_filled positive whole cl eocMark).bind fun _ =>
    .ite (.pure _) (.pure _)

theorem dirScanLogged_filled {β : Type} {offsets : List Nat} {examine : Buffer → Nat → List Nat}
    {visit : Nat → Nat → Buffer → Nat → Option β} {failed exhausted : β}
    (offsetsFilled : ∀ off ∈ offsets, off + 32 ≤ deliveredBytes)
    (within : ∀ sec off, WithinSlot off (examine sec off)) (fuel dirCl : Nat) :
    ExaminesFilled (dirScanLogged v offsets examine visit failed exhausted fuel dirCl) := by
  induction fuel generalizing dirCl with
  | zero => exact .diverge
  | succ fuel induction =>
      apply LogsOnly.ite (.pure _)
      apply LogsOnly.bind
      · apply LogsOnly.findSomeM?
        intro s
        apply LogsOnly.rd_bind
        · exact .pure _
        · intro sec
          apply (LogsOnly.note _).bind fun _ => .pure _
          intro index member
          rcases mem_visitedBytes member with ⟨off, offMember, examined⟩
          exact Nat.lt_of_lt_of_le (within sec off index examined) (offsetsFilled off offMember)
      · intro found
        cases found with
        | some result => exact .pure _
        | none => exact (fatReadFatEntryLogged_filled positive whole dirCl).bind induction

theorem listClustersLogged_filled (dots : Bool) (maxItems fuel cl : Nat) (items : List Dirent) :
    ExaminesFilled (listClustersLogged dots v maxItems fuel cl items) := by
  have slots (sec : Buffer) {offsets : List Nat}
      (offsetsFilled : ∀ off ∈ offsets, off + 32 ≤ deliveredBytes) (items : List Dirent) :
      ExaminesFilled (listSlotsLogged dots maxItems sec offsets items) := by
    induction offsets generalizing items with
    | nil => exact .pure _
    | cons off rest induction =>
        have later := induction fun other member =>
          offsetsFilled other (List.mem_cons_of_mem off member)
        have shown : WithinSlot off
            (if sec off = 0x2E ∧ !dots then [] else shownBytes off) := by
          split
          · exact fun _ member => absurd member List.not_mem_nil
          · exact withinSlot_shownBytes off
        have filled : ∀ index ∈ slotBytes sec off
            (if sec off = 0x2E ∧ !dots then [] else shownBytes off), index < deliveredBytes := by
          intro index member
          exact Nat.lt_of_lt_of_le (withinSlot_slotBytes sec shown index member)
            (offsetsFilled off List.mem_cons_self)
        exact .ite (.pure _) ((LogsOnly.note filled).bind fun _ =>
          .ite (.pure _) (.ite (later _) (later _)))
  have sectors (lba : Nat) (places : List Nat) (items : List Dirent) :
      ExaminesFilled (listSectorsLogged dots v maxItems lba places items) := by
    induction places generalizing items with
    | nil => exact .pure _
    | cons s rest induction =>
        apply LogsOnly.rd_bind
        · exact .pure _
        · intro sec
          exact (slots sec (slotOffsets_filled whole) items).bind fun _ =>
            .ite (.pure _) (induction _)
  induction fuel generalizing cl items with
  | zero => exact .diverge
  | succ fuel induction =>
      apply LogsOnly.ite (.pure _)
      exact (sectors _ _ items).bind fun _ => .ite (.pure _)
        ((fatReadFatEntryLogged_filled positive whole cl).bind fun _ => induction _ _)

theorem Scan.examined_filled (device : Device) (scan : Scan) :
    ∀ index ∈ scan.examined v device, index < deliveredBytes := by
  have offsets := slotOffsets_filled whole
  cases scan with
  | readFatEntry clus => exact (fatReadFatEntryLogged_filled positive whole clus).entries device
  | writeFatEntry clus val =>
      exact (fatWriteFatEntryLogged_filled positive whole clus val).entries device
  | allocFreeCluster => exact (fatAllocFreeClusterLogged_filled positive whole).entries device
  | findEntry want11 fuel dirCl =>
      exact (dirScanLogged_filled positive whole offsets (withinSlot_entryBytes want11)
        fuel dirCl).entries device
  | findFreeSlot fuel dirCl =>
      have first (_ : Buffer) (off : Nat) : WithinSlot off [off] :=
        withinSlot_range' (by omega : off + 1 ≤ off + 32)
      exact (dirScanLogged_filled positive whole offsets first fuel dirCl).entries device
  | listDir maxItems fuel dirCl =>
      exact (listClustersLogged_filled positive whole false maxItems fuel dirCl []).entries device
  | listRootArray maxItems fuel =>
      exact (listClustersLogged_filled positive whole true maxItems fuel v.rootClus []).entries
        device
  | listRoot fuel =>
      exact (dirScanLogged_filled positive whole offsets (fun sec off =>
        withinSlot_slotBytes sec (withinSlot_shownBytes off)) fuel v.rootClus).entries device
  | readFile name fuel =>
      exact (dirScanLogged_filled positive whole offsets (fun sec off =>
        withinSlot_rootEntryBytes _ (by decide) sec off) fuel v.rootClus).entries device
  | createFileRoot fuel =>
      have first (_ : Buffer) (off : Nat) : WithinSlot off [off] :=
        withinSlot_range' (by omega : off + 1 ≤ off + 32)
      exact (dirScanLogged_filled positive whole rootOffsets_filled first fuel
        v.rootClus).entries device
  | writeFileRoot name11 fuel =>
      exact (dirScanLogged_filled positive whole rootOffsets_filled (fun sec off =>
        withinSlot_rootEntryBytes _ (by decide) sec off) fuel v.rootClus).entries device

end

/-! ## Which mounted volumes -/

/-- Whatever visit ends the walk, it was at one of the slot offsets. -/
theorem dirScan_ensures {β : Type} {v : Vol} {visit : Nat → Nat → Buffer → Nat → Option β}
    {failed exhausted : β} {post : β → Prop} (atFailed : post failed)
    (atExhausted : post exhausted)
    (visited : ∀ lba s sec, ∀ off ∈ slotOffsets v, ∀ result ∈ visit lba s sec off, post result)
    (fuel dirCl : Nat) : Ensures (dirScan v visit failed exhausted fuel dirCl) post := by
  induction fuel generalizing dirCl with
  | zero => exact .diverge
  | succ fuel induction =>
      apply Ensures.ite
      · exact fun _ => .pure atExhausted
      · intro _
        have sectors : Ensures ((List.range v.secPerClus).findSomeM? fun s => do
            match ← rd (clusToLba v dirCl + s) with
            | none => pure (some failed)
            | some sec => pure ((slotOffsets v).findSome? (visit (clusToLba v dirCl) s sec)))
            fun found => ∀ result ∈ found, post result := by
          apply Ensures.findSomeM?
          intro s
          apply (Ensures.trivial _).bind
          intro sec _
          cases sec with
          | none =>
              apply Ensures.pure
              intro result equal
              exact Option.some.inj equal ▸ atFailed
          | some sec =>
              apply Ensures.pure
              intro result found
              rcases List.exists_of_findSome?_eq_some found with ⟨off, member, here⟩
              exact visited _ s sec off member result here
        apply sectors.bind
        intro found holds
        cases found with
        | some result => exact .pure (holds result rfl)
        | none => exact (Ensures.trivial _).bind fun next _ => induction next

theorem dirFindFreeSlot_filled {v : Vol} (whole : ReadWhole v) (fuel dirCl : Nat) :
    Ensures (dirFindFreeSlot v fuel dirCl) fun found =>
      ∀ slot ∈ found, slot.off + 32 ≤ deliveredBytes := by
  apply dirScan_ensures
  · exact fun _ absent => absurd absent (Option.not_mem_none _)
  · exact fun _ absent => absurd absent (Option.not_mem_none _)
  · intro lba s sec off member found visited slot returned
    rw [visitFree] at visited
    split at visited
    · cases visited
      cases returned
      exact slotOffsets_filled whole off member
    · cases visited

theorem fatReadFatEntry_examines (v : Vol) (clus : Nat) :
    (Scan.readFatEntry clus).examined v (Device.healthy fun _ _ => 0) = fatEntryBytes v clus :=
  List.append_nil _

/-- Of the volumes that are mounted as FAT32, those with at most 512 bytes in a sector, but not
511, never have a byte examined or a slot returned that the read did not fill. -/
theorem fat32Mount_filledOnly_iff {v v' : Vol} {partLbaStart : Nat} {device after : Device}
    (mounted : fat32Mount v partLbaStart device = some ((0, v'), after))
    (fat : v'.fsType = .fat32) :
    FilledOnly v' ↔ v'.bytesPerSec ≤ 512 ∧ v'.bytesPerSec ≠ 511 := by
  have positive : 0 < v'.bytesPerSec := by
    have filled := fat32Mount_filled mounted
    split at filled
    · have kind : (mountExfat v (device.sectors (u32 partLbaStart)) partLbaStart).2.fsType =
          .exfat := by
        rw [mountExfat]
        split <;> rfl
      rw [← filled, fat] at kind
      cases kind
    · have code := (mountFat32_code v (device.sectors (u32 partLbaStart)) partLbaStart).mp
        (congrArg Prod.fst filled).symm
      have size := (mountFat32_fields v (device.sectors (u32 partLbaStart)) partLbaStart).2
      rw [← filled] at size
      exact size ▸ code.2.1
  constructor
  · intro filled
    have entry (clus index : Nat) (member : index ∈ fatEntryBytes v' clus) : index < 512 :=
      filled.examined _ (.readFatEntry clus) index
        ((fatReadFatEntry_examines v' clus).symm ▸ member)
    constructor
    · -- the entry of cluster 128 is behind byte 512 of the table
      by_contra large
      have larger : 512 < v'.bytesPerSec := by omega
      have offset : fatEntOff v' 128 = 512 := Nat.mod_eq_of_lt larger
      have bound := entry 128 512 (List.mem_range'_1.mpr (by omega))
      omega
    · -- in the third sector of 511 bytes a table entry starts at byte 510
      intro odd
      have offset : fatEntOff v' 383 = 510 := by rw [fatEntOff, odd]; rfl
      have bound := entry 383 512 (List.mem_range'_1.mpr (by omega))
      omega
  · intro whole
    exact ⟨dirFindFreeSlot_filled whole, Scan.examined_filled positive whole⟩

/-- A boot sector for sectors of so many bytes, one to a cluster. -/
def sizedBoot (size : Nat) : Buffer :=
  (((Buffer.putU16 (fun _ => 0) 11 size).putU8 13 1).putU16 14 1).putU32 44 2

/-- It starts a disk of directories whose first 512 bytes are in use. -/
def sizedDisk (size : Nat) : Nat → Buffer := fun lba =>
  if lba = 0 then sizedBoot size else fun index => if index < 512 then 0x41 else 0

theorem sizedDisk_mount {size : Nat} (accepted : (mountFat32 blankVol (sizedBoot size) 0).1 = 0)
    (other : (sizedBoot size).bytes 3 8 ≠ exfatName) :
    fat32Mount blankVol 0 (Device.healthy (sizedDisk size)) =
      some ((0, (mountFat32 blankVol (sizedBoot size) 0).2),
        Device.healthy (sizedDisk size)) := by
  have unnamed : (sizedDisk size (u32 0)).bytes 3 8 ≠ exfatName := other
  rw [fat32Mount_healthy, if_neg unnamed, ← accepted]
  rfl

theorem fat32Mount_filledOnly_iff_sized :
    FilledOnly (mountFat32 blankVol (sizedBoot 512) 0).2 :=
  (fat32Mount_filledOnly_iff (sizedDisk_mount (by decide +kernel) (by decide +kernel))
    (by decide +kernel)).mpr (by decide +kernel)

/-- With 1024-byte sectors a slot is returned at byte 512 of the 512-byte buffer. -/
theorem dirFindFreeSlot_leaves_buffer :
    ¬ ∀ (v v' : Vol) (partLbaStart : Nat) (device after : Device),
      fat32Mount v partLbaStart device = some ((0, v'), after) → v'.fsType = .fat32 →
        FilledOnly v' := by
  intro claim
  have filled := claim _ _ 0 _ _
    (sizedDisk_mount (show (mountFat32 blankVol (sizedBoot 1024) 0).1 = 0 by decide +kernel)
      (by decide +kernel)) (by decide +kernel)
  have run : (dirFindFreeSlot (mountFat32 blankVol (sizedBoot 1024) 0).2 1 2
      (Device.healthy (sizedDisk 1024))).map (fun result => result.1.map (·.off)) =
        some (some 512) := by decide +kernel
  rcases Option.map_eq_some_iff.mp run with ⟨⟨found, after⟩, returned, offset⟩
  rcases Option.map_eq_some_iff.mp offset with ⟨slot, rfl, place⟩
  have bound := (filled.slot 1 2).returns returned slot rfl
  rw [place, deliveredBytes] at bound
  omega

end ParanOS

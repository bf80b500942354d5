import ParanOS.Foundation.Causal
import ParanOS.Fat.File

/-! # The calls that FAT32 operations make

Creating directories and reading files, and the parts that exFAT has in common with FAT32: a run
goes the same way whatever happens to the calls behind its own.
-/

namespace ParanOS

open Foundation

/-! ## The table -/

theorem fatReadFatEntry_causal (v : Vol) (clus : Nat) : Causal (fatReadFatEntry v clus) :=
  .rd_bind (.pure _) fun _ => .pure _

theorem fatWriteFatEntry_causal (v : Vol) (clus val : Nat) : Causal (fatWriteFatEntry v clus val) :=
  .rd_bind (.pure _) fun _ => .wr_bind fun _ => .ite (.pure _) (.pure _)

theorem allocScan_causal (v : Vol) {claim : Nat → DiskM Nat} (claims : ∀ cl, Causal (claim cl))
    (count cl : Nat) : Causal (allocScan v claim count cl) := by
  induction count generalizing cl with
  | zero => exact .pure _
  | succ count induction =>
      rw [allocScan]
      exact .rd_bind (.pure _) fun sec => .ite (claims cl) (induction (cl + 1))

theorem fatAllocFreeCluster_causal (v : Vol) : Causal (fatAllocFreeCluster v) :=
  allocScan_causal v (fun cl => .bind (fatWriteFatEntry_causal v cl eocMark) fun _ =>
    .ite (.pure _) (.pure _)) _ _

/-! ## Data -/

theorem readSectors_causal (v : Vol) (lba count s left : Nat) (out : List UInt8) :
    Causal (readSectors v lba count s left out) := by
  induction count generalizing s left out with
  | zero => exact .pure _
  | succ count induction =>
      rw [readSectors]
      exact .ite (.pure _) (.rd_bind (.pure _) fun sec => induction _ _ _)

theorem readClusters_causal (v : Vol) (fuel cl left : Nat) (out : List UInt8) :
    Causal (readClusters v fuel cl left out) := by
  induction fuel generalizing cl left out with
  | zero => exact .diverge
  | succ fuel induction =>
      rw [readClusters]
      apply Causal.ite (.pure _) (.bind (readSectors_causal v _ _ _ _ _) _)
      intro result
      exact .ite (.pure _) (.bind (fatReadFatEntry_causal v cl) fun next => induction next _ _)

theorem readFileFromCluster_causal (v : Vol) (fuel startClus fileSize maxBytes : Nat) :
    Causal (readFileFromCluster v fuel startClus fileSize maxBytes) :=
  .ite (.pure _) (.bind (readClusters_causal v fuel _ _ _) fun _ => .ite (.pure _) (.pure _))

theorem writeSectors_causal (v : Vol) (lba count s : Nat) (src : List UInt8) :
    Causal (writeSectors v lba count s src) := by
  induction count generalizing s src with
  | zero => exact .pure _
  | succ count induction =>
      rw [writeSectors]
      exact .wr_bind fun failed => .ite (.pure _) (induction _ _)

/-! ## Directories -/

theorem dirScan_causal {β : Type} (v : Vol) (visit : Nat → Nat → Buffer → Nat → Option β)
    (failed exhausted : β) (fuel dirCl : Nat) :
    Causal (dirScan v visit failed exhausted fuel dirCl) := by
  induction fuel generalizing dirCl with
  | zero => exact .diverge
  | succ fuel induction =>
      rw [dirScan]
      apply Causal.ite (.pure _)
      apply Causal.option_bind
      · apply Causal.findSomeM?
        exact fun s => .rd_bind (.pure _) fun sec => .pure _
      · exact .bind (fatReadFatEntry_causal v dirCl) induction
      · exact fun result => .pure _

theorem createDirEntry_causal (v : Vol) (fuel parentCl : Nat) (name11 : List UInt8) (attr : UInt8)
    (startClus sizeBytes : Nat) :
    Causal (createDirEntry v fuel parentCl name11 attr startClus sizeBytes) :=
  .option_bind (dirScan_causal v _ _ _ fuel parentCl) (.pure _) fun _ =>
    .wr_bind fun _ => .ite (.pure _) (.pure _)

theorem makeDirectory_causal (v : Vol) (fuel parentCl : Nat) (name11 : List UInt8) :
    Causal (makeDirectory v fuel parentCl name11) := by
  apply Causal.bind (fatAllocFreeCluster_causal v)
  intro newCl
  apply Causal.ite (.pure _) (.wr_bind _)
  intro failed
  apply Causal.ite (.pure _) (.bind (writeSectors_causal v _ _ _ _) _)
  intro failed
  exact .ite (.pure _) (.bind (fatWriteFatEntry_causal v newCl eocMark) fun _ =>
    .bind (createDirEntry_causal v fuel parentCl name11 attrDir newCl 0) fun _ =>
      .ite (.pure _) (.pure _))

theorem ensureDirectory_causal (v : Vol) (fuel parentCl : Nat) (name11 : List UInt8) :
    Causal (ensureDirectory v fuel parentCl name11) := by
  apply Causal.bind (dirScan_causal v _ _ _ fuel parentCl)
  intro found
  cases found with
  | ok hit => exact .ite (.pure _) (.pure _)
  | error code => exact makeDirectory_causal v fuel parentCl name11

/-! ## Paths -/

theorem ensureWalk_causal (v : Vol) (fuel : Nat) (comps : List (List UInt8)) (dirCl : Nat) :
    Causal (ensureWalk v fuel comps dirCl) := by
  induction comps generalizing dirCl with
  | nil => exact .pure _
  | cons comp rest induction =>
      rw [ensureWalk]
      exact .bind (ensureDirectory_causal v fuel dirCl _) fun _ => .ite (.pure _) (induction _)

theorem readWalk_causal (v : Vol) (fuel maxBytes : Nat) (comps : List (List UInt8)) (dirCl : Nat) :
    Causal (readWalk v fuel maxBytes comps dirCl) := by
  induction comps generalizing dirCl with
  | nil => exact .pure _
  | cons comp rest induction =>
      rw [readWalk]
      apply Causal.bind (dirScan_causal v _ _ _ fuel dirCl)
      intro found
      cases found with
      | error code => exact .pure _
      | ok hit =>
          exact .ite (.ite (induction _) (.pure _))
            (.ite (.pure _) (readFileFromCluster_causal v fuel _ _ _))

end ParanOS

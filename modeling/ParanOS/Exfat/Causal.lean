import ParanOS.Driver
import ParanOS.Fat.Causal

/-! # The calls that exFAT operations make

Creating directories and reading files on exFAT, and then on both file systems.
-/

namespace ParanOS

open Foundation

/-! ## Clusters -/

theorem exfatWalkChain_causal (v : Vol) (step cl : Nat) : Causal (exfatWalkChain v step cl) := by
  induction step generalizing cl with
  | zero => exact .pure _
  | succ step induction =>
      rw [exfatWalkChain]
      exact .ite (.pure _) (.bind (fatReadFatEntry_causal v cl) induction)

theorem exfatMarkBitmap_causal (v : Vol) (cl : Nat) (used : Bool) :
    Causal (exfatMarkBitmap v cl used) := by
  apply Causal.ite (.pure _) (.ite (.pure _) (.ite (.pure _) _))
  apply Causal.bind (exfatWalkChain_causal v _ _)
  intro targetClus
  exact .rd_bind (.pure _) fun sec => .wr_bind fun failed => .ite (.pure _) (.pure _)

theorem exfatAllocCluster_causal (v : Vol) : Causal (exfatAllocCluster v) := by
  apply allocScan_causal
  intro cl
  apply Causal.bind (fatWriteFatEntry_causal v cl eocMark)
  intro code
  exact .ite (.pure _) (.bind (exfatMarkBitmap_causal v cl true) fun _ => .pure _)

theorem exfatFreeChain_causal (v : Vol) (fuel cl : Nat) : Causal (exfatFreeChain v fuel cl) := by
  induction fuel generalizing cl with
  | zero => exact .diverge
  | succ fuel induction =>
      rw [exfatFreeChain]
      apply Causal.ite (.pure _) (.bind (fatReadFatEntry_causal v cl) _)
      intro next
      exact .bind (fatWriteFatEntry_causal v cl 0) fun _ =>
        .bind (exfatMarkBitmap_causal v cl false) fun _ => induction next

theorem allocChain_causal (v : Vol) (fuel need first prev : Nat) :
    Causal (allocChain v fuel need first prev) := by
  induction need generalizing first prev with
  | zero => exact .bind (fatWriteFatEntry_causal v prev eocMark) fun _ => .pure _
  | succ need induction =>
      rw [allocChain]
      apply Causal.bind (exfatAllocCluster_causal v)
      intro cl
      apply Causal.ite
      · exact .bind (.ite (exfatFreeChain_causal v fuel first) (.pure _)) fun _ => .pure _
      · exact .bind (.ite (fatWriteFatEntry_causal v prev cl) (.pure _)) fun _ => induction _ cl

theorem exfatWriteChain_causal (v : Vol) (fuel start : Nat) (src : List UInt8) :
    Causal (exfatWriteChain v fuel start src) := by
  induction fuel generalizing start src with
  | zero => exact .diverge
  | succ fuel induction =>
      rw [exfatWriteChain]
      apply Causal.ite (.pure _) (.bind (writeSectors_causal v _ _ _ _) _)
      intro failed
      exact .ite (.pure _) (.bind (fatReadFatEntry_causal v start) fun next => induction next _)

theorem exfatZeroCluster_causal (v : Vol) (clus : Nat) : Causal (exfatZeroCluster v clus) :=
  .bind (writeSectors_causal v _ _ _ _) fun _ => .ite (.pure _) (.pure _)

theorem allocContent_causal (v : Vol) (fuel : Nat) (isDir : Bool) (data : List UInt8) :
    Causal (allocContent v fuel isDir data) := by
  apply Causal.ite _ (.pure _)
  apply Causal.bind (.ite (.pure _) (allocChain_causal v fuel _ 0 0))
  intro firstCluster
  exact .ite (.pure _) (.ite (.bind (exfatWriteChain_causal v fuel _ data) fun _ => .pure _)
    (.bind (exfatZeroCluster_causal v _) fun _ => .pure _))

/-! ## Entry sets -/

theorem collectLoop_causal (v : Vol) (lbaBase startByte count i : Nat)
    (last : Option (Nat × Buffer)) (out : Buffer) :
    Causal (collectLoop v lbaBase startByte count i last out) := by
  induction count generalizing i last out with
  | zero => exact .pure _
  | succ count induction =>
      rw [collectLoop]
      split
      · exact induction _ _ _
      · exact .rd_bind (.pure _) fun sec => induction _ _ _

theorem exfatSetAt_causal (v : Vol) (cluster byteOff : Nat) (sec : Buffer) :
    Causal (exfatSetAt v cluster byteOff sec) :=
  .ite (.pure _) (.ite (.pure _) (.ite (.pure _) (.option_bind
    (.ite (.pure _) (collectLoop_causal v _ _ _ _ _ _)) (.pure _) fun _ => .pure _)))

theorem findSlots_causal (v : Vol) (want : List UInt8) (cluster : Nat) (offsets : List Nat) :
    Causal (findSlots v want cluster offsets) := by
  induction offsets generalizing v with
  | nil => exact .pure _
  | cons byteOff rest induction =>
      rw [findSlots]
      apply Causal.rd_bind
      · exact .pure _
      · intro sec
        exact .ite (.pure _) (.option_bind (exfatSetAt_causal _ cluster byteOff sec) (induction _)
          fun found => .ite (.pure _) (induction _))

theorem exfatFindInDir_causal (want : List UInt8) (fuel cluster : Nat) (v : Vol) :
    Causal (exfatFindInDir want fuel cluster v) := by
  induction fuel generalizing cluster v with
  | zero => exact .diverge
  | succ fuel induction =>
      rw [exfatFindInDir]
      apply Causal.ite (.pure _) (.bind (findSlots_causal v want cluster _) _)
      intro result
      rcases result with ⟨v, found⟩
      cases found with
      | some found => exact .pure _
      | none => exact .bind (fatReadFatEntry_causal v cluster) fun next => induction next v

theorem writeEntries_causal (v : Vol) (dirCl startByte : Nat) (setbuf : Buffer) (count i : Nat) :
    Causal (writeEntries v dirCl startByte setbuf count i) := by
  induction count generalizing i with
  | zero => exact .pure _
  | succ count induction =>
      rw [writeEntries]
      apply Causal.bind
      · exact .rd_bind (.pure _) fun sec => .wr_bind fun failed => .ite (.pure _) (.pure _)
      · exact fun code => .ite (.pure _) (induction _)

theorem freeSlots_causal (v : Vol) (cluster totalEntries : Nat) (offsets : List Nat)
    (run runStart : Nat) : Causal (freeSlots v cluster totalEntries offsets run runStart) := by
  induction offsets generalizing run runStart with
  | nil => exact .pure _
  | cons byteOff rest induction =>
      rw [freeSlots]
      apply Causal.rd_bind
      · exact .pure _
      · exact fun sec => .ite (.pure _) (.ite (.ite (.pure _) (induction _ _)) (induction _ _))

theorem freeClusters_causal (v : Vol) (totalEntries fuel cluster prev : Nat) :
    Causal (freeClusters v totalEntries fuel cluster prev) := by
  induction fuel generalizing cluster prev with
  | zero => exact .diverge
  | succ fuel induction =>
      rw [freeClusters]
      apply Causal.ite (.pure _) (.option_bind (freeSlots_causal v cluster _ _ _ _) _ _)
      · exact .bind (fatReadFatEntry_causal v cluster) fun next => induction next cluster
      · intro found
        cases found with
        | none => exact .pure _
        | some byteOff => exact .pure _

theorem extendDirectory_causal (v : Vol) (prev : Nat) : Causal (extendDirectory v prev) := by
  apply Causal.bind (exfatAllocCluster_causal v)
  intro newCl
  exact .ite (.pure _) (.bind (fatWriteFatEntry_causal v prev newCl) fun _ =>
    .bind (fatWriteFatEntry_causal v newCl eocMark) fun _ =>
    .bind (exfatZeroCluster_causal v newCl) fun _ => .pure _)

theorem exfatFindFreeSet_causal (v : Vol) (fuel dirCl totalEntries : Nat) :
    Causal (exfatFindFreeSet v fuel dirCl totalEntries) := by
  apply Causal.option_bind (freeClusters_causal v totalEntries fuel dirCl dirCl)
  · exact .pure _
  · intro found
    cases found with
    | inl prev => exact extendDirectory_causal v prev
    | inr place => exact .pure _

theorem exfatCreateEntry_causal (v : Vol) (fuel dirCl : Nat) (name : List UInt8) (isDir : Bool)
    (data : List UInt8) : Causal (exfatCreateEntry v fuel dirCl name isDir data) := by
  apply Causal.option_bind (allocContent_causal v fuel isDir data)
  · exact .pure _
  · exact fun firstCluster => .option_bind (exfatFindFreeSet_causal v fuel dirCl _) (.pure _)
      fun place => .bind (.ite (.pure _) (writeEntries_causal v _ _ _ _ _)) fun _ =>
        .ite (.pure _) (.pure _)

/-! ## Paths -/

theorem exfatEnsureWalk_causal (fuel : Nat) (comps : List (List UInt8)) (dir : Nat) (v : Vol) :
    Causal (exfatEnsureWalk fuel comps dir v) := by
  induction comps generalizing dir v with
  | nil => exact .pure _
  | cons comp rest induction =>
      rw [exfatEnsureWalk]
      apply Causal.bind (exfatFindInDir_causal comp fuel dir v)
      intro result
      rcases result with ⟨v, found⟩
      cases found with
      | error code =>
          exact .bind (exfatCreateEntry_causal v fuel dir comp true []) fun _ =>
            .ite (.pure _) (induction _ v)
      | ok info => exact .ite (induction _ v) (.pure _)

theorem followWalk_causal (fuel : Nat) (comps : List (List UInt8)) (dir : Nat) (v : Vol) :
    Causal (followWalk fuel comps dir v) := by
  induction comps generalizing dir v with
  | nil => exact .pure _
  | cons comp rest induction =>
      rw [followWalk]
      apply Causal.bind (exfatFindInDir_causal comp fuel dir v)
      intro result
      rcases result with ⟨v, found⟩
      cases found with
      | error code => exact .pure _
      | ok info => exact .ite (.pure _) (.ite (induction _ v) (.pure _))

theorem exfatReadWalk_causal (fuel maxBytes : Nat) (comps : List (List UInt8)) (v : Vol) :
    Causal (exfatReadWalk fuel maxBytes comps v) := by
  apply Causal.bind (followWalk_causal fuel comps v.rootClus v)
  intro result
  rcases result with ⟨v, found⟩
  cases found with
  | error code => exact .pure _
  | ok info =>
      cases info with
      | none => exact .pure _
      | some info =>
          exact .ite (.pure _) (.bind (readFileFromCluster_causal v fuel _ _ _) fun _ => .pure _)

theorem fat32EnsureDirPath_causal (v : Vol) (fuel : Nat) (path : CString) :
    Causal (fat32EnsureDirPath v fuel path) := by
  rw [fat32EnsureDirPath]
  cases v.fsType with
  | exfat => exact exfatEnsureWalk_causal fuel _ _ v
  | fat32 => exact .bind (ensureWalk_causal v fuel _ _) fun _ => .pure _

theorem fat32ReadFilePath_causal (v : Vol) (fuel : Nat) (path : CString) (maxBytes : Nat) :
    Causal (fat32ReadFilePath v fuel path maxBytes) := by
  rw [fat32ReadFilePath]
  cases v.fsType with
  | exfat => exact exfatReadWalk_causal fuel maxBytes _ v
  | fat32 => exact .bind (readWalk_causal v fuel maxBytes _ _) fun _ => .pure _

end ParanOS

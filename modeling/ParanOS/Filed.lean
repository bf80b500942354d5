import ParanOS.Exfat.Causal
import ParanOS.Exfat.Contents
import ParanOS.Fat.Contents

/-! # Files that calls leave alone

A file under a path, on both file systems: what reading it returns, and that it is still there
after directories have been created.
-/

namespace ParanOS

open Foundation

/-- What reading a file returns: one without clusters cannot be read. -/
def fileRead (first : Nat) (content : List UInt8) (maxBytes : Nat) : ReadResult :=
  if first = 0 then ⟨-1, 0, []⟩ else ⟨0, min content.length maxBytes, content.take maxBytes⟩

/-- A well-formed FAT32 volume with a file of this first cluster and content under the path. -/
structure Fat32File (v : Vol) (sectors : Nat → Buffer) (path : CString) (first : Nat)
    (content : List UInt8) : Prop where
  wellFormed : WellFormed v sectors
  file : ∃ slot chain,
    Resolves v (view v v.clusterLimit sectors) v.rootClus path.components83 slot ∧
    direntIsDir (entryAt (view v v.clusterLimit sectors) slot) = false ∧
    direntStartCluster (entryAt (view v v.clusterLimit sectors) slot) = first ∧
    Chain v.clusterLimit (view v v.clusterLimit sectors) first chain ∧
    content.length = (entryAt (view v v.clusterLimit sectors) slot).getU32 28 ∧
    content <+: chainData v (view v v.clusterLimit sectors) chain

/-- An exFAT volume with such a file. The bitmap, the files and the directories have well-formed
chains in the table, and the bitmap is known to the driver. -/
structure ExfatFile (v : Vol) (sectors : Nat → Buffer) (path : CString) (first : Nat)
    (content : List UInt8) : Prop where
  shape : ExfatGeometry v
  sector : 512 ≤ v.bytesPerSec
  chained : ∃ bitmap, Chained v (exfatView v sectors) bitmap
  file : ∃ info chain, Leads v (exfatView v sectors) .root path.componentsLong info ∧
    info.isDir = false ∧ info.cluster = first ∧
    Chain (v.exfatClusterCount + 2) (exfatView v sectors) first chain ∧
    content.length = info.size ∧ content <+: chainData v (exfatView v sectors) chain

/-- A volume with such a file, on which calls have enough fuel. On exFAT the driver may still have
to find the bitmap in the root directory. -/
inductive Filed (fuel : Nat) (sectors : Nat → Buffer) (path : CString) (first : Nat)
    (content : List UInt8) (v : Vol) : Prop
  | fat32 : v.clusterLimit < fuel → Fat32File v sectors path first content →
      Filed fuel sectors path first content v
  | exfat : v.exfatClusterCount + 2 < fuel → ExfatFile v sectors path first content →
      Filed fuel sectors path first content v
  | mounted {root place} : v.exfatClusterCount + 2 < fuel → ExfatGeometry v →
      JustMounted v sectors root place →
      ExfatFile (v.notedAt (exfatView v sectors) place) sectors path first content →
      Filed fuel sectors path first content v

/-- A name of up to fifteen characters, none of them zero. -/
def ShortName (comp : List UInt8) : Prop := comp ≠ [] ∧ comp.length ≤ 15 ∧ ∀ char ∈ comp, char ≠ 0

instance (comp : List UInt8) : Decidable (ShortName comp) := inferInstanceAs (Decidable (_ ∧ _ ∧ _))

theorem fileResult_eq {v : Vol} {store : ClusterStore} {chain : List Nat} {content : List UInt8}
    (stored : content <+: chainData v store chain) (first maxBytes : Nat) :
    fileResult v store first content.length maxBytes chain = fileRead first content maxBytes := by
  have taken : (chainData v store chain).take (min content.length maxBytes) =
      content.take maxBytes := by
    rcases stored with ⟨rest, whole⟩
    rw [← whole, List.take_append_of_le_length (Nat.min_le_left _ _), List.take_eq_take_iff]
    omega
  rw [fileResult, fileRead, taken]

/-! ## FAT32 -/

namespace Fat32File

variable {v : Vol} {sectors : Nat → Buffer} {path : CString} {first fuel : Nat}
  {content : List UInt8} (stored : Fat32File v sectors path first content)
  (enough : v.clusterLimit < fuel)
include stored enough

theorem read (maxBytes : Nat) :
    fat32ReadFilePath v fuel path maxBytes (Device.healthy sectors) =
      some ((v, fileRead first content maxBytes), Device.healthy sectors) := by
  rcases stored.file with ⟨slot, chain, resolved, file, rfl, holds, size, content⟩
  rw [fat32ReadFilePath_resolves stored.wellFormed enough resolved holds maxBytes, entryResult,
    file, if_neg Bool.false_ne_true, ← size, fileResult_eq content]

theorem ensureDir (dir : CString) :
    ∃ code sectors', fat32EnsureDirPath v fuel dir (Device.healthy sectors) =
        some ((v, code), Device.healthy sectors') ∧ Fat32File v sectors' path first content := by
  rcases fat32EnsureDirPath_onlyAdds stored.wellFormed enough dir with ⟨code, sectors', ran, adds⟩
  refine ⟨code, sectors', ran, adds.wellFormed stored.wellFormed, ?_⟩
  rcases stored.file with ⟨slot, chain, resolved, file, start, holds, size, content⟩
  rcases stored.wellFormed.owned.liveDir_root with ⟨rootChain, root⟩
  have live := stored.wellFormed.owned.live_of_resolves root resolved
  have placed : slot ≠ Change.nowhere := by
    intro equal
    rw [equal] at live
    exact Change.nowhere_not_placed (stored.wellFormed.owned.placed_of_live live).1
  have kept := (adds Change.nowhere).kept slot live placed
  have notDir : ¬ OwnerIsDir (view v v.clusterLimit sectors) (some slot) := by
    simp [OwnerIsDir, file]
  have start' : ownerStart v (view v v.clusterLimit sectors) (some slot) = first := start
  rcases kept.chain chain notDir (by rw [start']; exact holds) with ⟨holds', same⟩
  refine ⟨slot, chain, kept.resolves v.rootClus rootChain _ root resolved, ?_⟩
  rw [kept.entry]
  refine ⟨file, start, ?_, size, ?_⟩
  · rw [ownerStart, kept.entry, start] at holds'
    exact holds'
  · rw [chainData_congr same]
    exact content

end Fat32File

/-! ## exFAT -/

theorem ShortName.dirName {v : Vol} (shape : ExfatGeometry v) (sector : 512 ≤ v.bytesPerSec)
    {comp : List UInt8} (short : ShortName comp) : DirName v comp := by
  rcases short with ⟨nonempty, length, nulFree⟩
  refine ⟨nonempty, by omega, nulFree, ?_⟩
  have bytes : 512 ≤ v.clusterBytes :=
    Nat.le_trans sector (Nat.le_mul_of_pos_right _ shape.geometry.cluster_pos)
  have slots := shape.slots_eq
  rw [entriesFor]
  omega

namespace ExfatFile

variable {v : Vol} {sectors : Nat → Buffer} {path : CString} {first fuel : Nat}
  {content : List UInt8} (stored : ExfatFile v sectors path first content)
  (enough : v.exfatClusterCount + 2 < fuel)
include stored enough

theorem readWalk {maxBytes : Nat} (small : maxBytes ≤ 0xFFFFFFFF) :
    exfatReadWalk fuel maxBytes path.componentsLong v (Device.healthy sectors) =
      some ((v, fileRead first content maxBytes), Device.healthy sectors) := by
  rcases stored.chained with ⟨bitmap, chained⟩
  rcases stored.file with ⟨info, chain, leads, isFile, rfl, holds, size, content⟩
  have result : fileResult v (exfatView v sectors) info.cluster (min info.size 0xFFFFFFFF) maxBytes
      chain = fileResult v (exfatView v sectors) info.cluster info.size maxBytes chain := by
    rw [fileResult, fileResult, Nat.min_assoc, Nat.min_eq_right small]
  rw [leads.read stored.shape enough chained isFile holds maxBytes, result, ← size,
    fileResult_eq content]

theorem ensureDir {dir : CString} (names : ∀ comp ∈ dir.componentsLong, ShortName comp) :
    ∃ code sectors', fat32EnsureDirPath v fuel dir (Device.healthy sectors) =
        some ((v, code), Device.healthy sectors') ∧ ExfatFile v sectors' path first content := by
  rcases stored.chained with ⟨bitmap, chained⟩
  rcases chained.owned.dirAt_root with ⟨root, dirAt⟩
  rcases exfatEnsureWalk_keeps stored.shape enough stored.sector
    (fun comp member => (names comp member).dirName stored.shape stored.sector) chained
    (.listed dirAt rfl) with ⟨code, sectors', ran, chained', keeps⟩
  refine ⟨code, sectors', ?_, stored.shape, stored.sector, ⟨bitmap, chained'⟩, ?_⟩
  · simp only [fat32EnsureDirPath, stored.shape.exfat]
    exact ran
  rcases stored.file with ⟨info, chain, leads, isFile, rfl, holds, size, content⟩
  rcases keeps _ _ leads with ⟨leads', file⟩
  rcases file isFile chain holds with ⟨holds', same⟩
  refine ⟨info, chain, leads', isFile, rfl, holds', size, ?_⟩
  rw [chainData_congr same]
  exact content

end ExfatFile

/-! ## Both -/

namespace Filed

variable {v : Vol} {sectors : Nat → Buffer} {path : CString} {first fuel : Nat}
  {content : List UInt8} (filed : Filed fuel sectors path first content v)
include filed

/-- The file is read. -/
theorem read {maxBytes : Nat} (small : maxBytes ≤ 0xFFFFFFFF) :
    ∃ v', fat32ReadFilePath v fuel path maxBytes (Device.healthy sectors) =
        some ((v', fileRead first content maxBytes), Device.healthy sectors) ∧
      Filed fuel sectors path first content v' := by
  cases filed with
  | fat32 enough stored => exact ⟨v, stored.read enough maxBytes, .fat32 enough stored⟩
  | exfat enough stored =>
      refine ⟨v, ?_, .exfat enough stored⟩
      simp only [fat32ReadFilePath, stored.shape.exfat]
      exact stored.readWalk enough small
  | @mounted root place enough shape mounted stored =>
      refine ⟨v.notedAt (exfatView v sectors) place, ?_, .exfat enough stored⟩
      rcases stored.chained with ⟨bitmap, chained⟩
      rcases stored.file with ⟨info, _, leads, _⟩
      have read := stored.readWalk enough small
      simp only [fat32ReadFilePath, shape.exfat]
      -- the first lookup finds the bitmap
      have followed : followWalk fuel path.componentsLong v.rootClus v (Device.healthy sectors) =
          followWalk fuel path.componentsLong v.rootClus (v.notedAt (exfatView v sectors) place)
            (Device.healthy sectors) := by
        cases comps : path.componentsLong with
        | nil =>
            rw [comps] at leads
            cases leads
        | cons comp rest =>
            have same := exfatFindInDir_announced shape mounted.unknown comp chained.bitmap.located
              mounted.linked mounted.data mounted.announced fuel
            simp only [followWalk, DiskM.bind_apply, same]
      rw [exfatReadWalk, DiskM.bind_apply] at read ⊢
      rw [followed]
      exact read

/-- Directories are created. -/
theorem ensureDir {dir : CString} (names : ∀ comp ∈ dir.componentsLong, ShortName comp) :
    ∃ v' code sectors', fat32EnsureDirPath v fuel dir (Device.healthy sectors) =
        some ((v', code), Device.healthy sectors') ∧
      Filed fuel sectors' path first content v' := by
  cases filed with
  | fat32 enough stored =>
      rcases stored.ensureDir enough dir with ⟨code, sectors', ran, stored'⟩
      exact ⟨v, code, sectors', ran, .fat32 enough stored'⟩
  | exfat enough stored =>
      rcases stored.ensureDir enough names with ⟨code, sectors', ran, stored'⟩
      exact ⟨v, code, sectors', ran, .exfat enough stored'⟩
  | @mounted root place enough shape mounted stored =>
      rcases stored.chained with ⟨bitmap, chained⟩
      rcases mounted.run_eq shape chained.bitmap.located enough (.ensureDir dir) with same | idle
      · rcases stored.ensureDir enough names with ⟨code, sectors', ran, stored'⟩
        exact ⟨_, code, sectors', same.trans ran, .exfat enough stored'⟩
      · exact ⟨v, 0, sectors, idle, .mounted enough shape mounted stored⟩

/-- What the driver reads of the file without an error does not depend on what else is there. -/
theorem contentAt_eq {maxBytes : Nat} (small : maxBytes ≤ 0xFFFFFFFF) :
    contentAt v fuel path sectors maxBytes = some (fileRead first content maxBytes) := by
  rcases filed.read small with ⟨v', ran, _⟩
  rw [contentAt, ran]
  rfl

/-- A file without clusters is empty. -/
theorem content_eq_nil (vacant : first = 0) : content = [] := by
  subst vacant
  have empty {v : Vol} {store : ClusterStore} {limit : Nat} {chain : List Nat}
      (holds : Chain limit store 0 chain) (stored : content <+: chainData v store chain) :
      content = [] := by
    rw [holds.unique (.empty rfl)] at stored
    exact List.prefix_nil.mp stored
  cases filed with
  | fat32 _ stored =>
      rcases stored.file with ⟨_, _, _, _, _, holds, _, stored⟩
      exact empty holds stored
  | exfat _ stored =>
      rcases stored.file with ⟨_, _, _, _, _, holds, _, stored⟩
      exact empty holds stored
  | mounted _ _ _ stored =>
      rcases stored.file with ⟨_, _, _, _, _, holds, _, stored⟩
      exact empty holds stored

end Filed

end ParanOS

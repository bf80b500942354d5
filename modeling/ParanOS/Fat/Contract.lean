import ParanOS.Driver
import ParanOS.Fat.Walk

/-! # What FAT32 callers can rely on

The public functions on a well-formed FAT32 volume and a device none of whose
calls fails: any run keeps the volume well formed, and what is written is read
back, up to the size of one cluster.
-/

namespace ParanOS

open Foundation

section

variable {v : Vol} {sectors : Nat → Buffer} (wellFormed : WellFormed v sectors) {fuel : Nat}
  (enough : v.clusterLimit < fuel)
include wellFormed enough

/-- The write, as the walk from the root describes it. -/
theorem fat32WriteFilePath_written (path : CString) (data : List UInt8) :
    ∃ code sectors' slot chain,
      fat32WriteFilePath v fuel path data (Device.healthy sectors) =
        some ((v, code), Device.healthy sectors') ∧
      LiveDir v v.clusterLimit (view v v.clusterLimit sectors) v.rootClus chain ∧
      Frame v v.clusterLimit (view v v.clusterLimit sectors)
        (view v v.clusterLimit sectors') slot ∧
      (code = 0 → Written v v.clusterLimit (view v v.clusterLimit sectors)
        (view v v.clusterLimit sectors') v.rootClus chain path.components83 data slot) := by
  rcases wellFormed.owned.liveDir_root with ⟨chain, root⟩
  rcases writeWalk_spec wellFormed.shape enough data (components83_chars path)
    wellFormed.owned (.inl root) with ⟨code, sectors', slot, ran, frame, written⟩
  refine ⟨code, sectors', slot, chain, ?_, root, frame, written⟩
  simp only [fat32WriteFilePath, wellFormed.shape.fat32]
  rw [DiskM.bind_run ran]
  rfl

theorem fat32EnsureDirPath_wellFormed (path : CString) :
    ∃ code sectors', fat32EnsureDirPath v fuel path (Device.healthy sectors) =
        some ((v, code), Device.healthy sectors') ∧ WellFormed v sectors' := by
  rcases wellFormed.owned.liveDir_root with ⟨chain, root⟩
  rcases ensureWalk_frame wellFormed.shape enough (components83_chars path)
    wellFormed.owned (.inl root) with ⟨code, sectors', ran, frame⟩
  refine ⟨code, sectors', ?_, wellFormed.shape, (frame Change.nowhere).owned⟩
  simp only [fat32EnsureDirPath, wellFormed.shape.fat32]
  rw [DiskM.bind_run ran]
  rfl

/-- One call, successful or not, keeps the volume well formed. -/
theorem Call.keeps_wellFormed (call : Call) :
    ∃ code sectors', call.run fuel v (Device.healthy sectors) =
        some ((v, code), Device.healthy sectors') ∧ WellFormed v sectors' := by
  cases call with
  | writeFile path data =>
      rcases fat32WriteFilePath_written wellFormed enough path data with
        ⟨code, sectors', slot, chain, ran, _, frame, _⟩
      exact ⟨code, sectors', ran, wellFormed.shape, frame.owned⟩
  | ensureDir path => exact fat32EnsureDirPath_wellFormed wellFormed enough path

/-- Reading the entry a path resolves to. -/
theorem fat32ReadFilePath_resolves {path : CString} {slot : Slot} {chain : List Nat}
    (resolved : Resolves v (view v v.clusterLimit sectors) v.rootClus path.components83 slot)
    (holds : Chain v.clusterLimit (view v v.clusterLimit sectors)
      (ownerStart v (view v v.clusterLimit sectors) (some slot)) chain) (maxBytes : Nat) :
    fat32ReadFilePath v fuel path maxBytes (Device.healthy sectors) =
      some ((v, entryResult v (view v v.clusterLimit sectors) slot maxBytes chain),
        Device.healthy sectors) := by
  rcases wellFormed.owned.liveDir_root with ⟨_, root⟩
  have read := (readWalk_resolves wellFormed.shape enough wellFormed.owned root resolved
    maxBytes).2 chain holds
  simp only [fat32ReadFilePath, wellFormed.shape.fat32]
  rw [DiskM.bind_run read]
  rfl

/-- An entry that is kept is read as before. -/
theorem Frame.reads_alike {sectors' : Nat → Buffer} {except slot : Slot} {path : CString}
    (frame : Frame v v.clusterLimit (view v v.clusterLimit sectors)
      (view v v.clusterLimit sectors') except)
    (resolved : Resolves v (view v v.clusterLimit sectors) v.rootClus path.components83 slot)
    (apart : slot ≠ except) (maxBytes : Nat) :
    ∃ result,
      fat32ReadFilePath v fuel path maxBytes (Device.healthy sectors) =
        some ((v, result), Device.healthy sectors) ∧
      fat32ReadFilePath v fuel path maxBytes (Device.healthy sectors') =
        some ((v, result), Device.healthy sectors') := by
  rcases wellFormed.owned.liveDir_root with ⟨chain, root⟩
  have wellFormed' : WellFormed v sectors' := ⟨wellFormed.shape, frame.owned⟩
  have live := wellFormed.owned.live_of_resolves root resolved
  have kept := frame.kept slot live apart
  rcases wellFormed.owned.tenancy.held (some slot) live with ⟨fileChain, holds⟩
  rcases frame.owned.tenancy.held (some slot) kept.live with ⟨fileChain', holds'⟩
  refine ⟨_, fat32ReadFilePath_resolves wellFormed enough resolved holds maxBytes, ?_⟩
  rw [fat32ReadFilePath_resolves wellFormed' enough
    (kept.resolves v.rootClus chain _ root resolved) holds' maxBytes]
  rw [entryResult, entryResult, kept.entry]
  cases isDir : direntIsDir (entryAt (view v v.clusterLimit sectors) slot) with
  | true => rfl
  | false =>
      have file : ¬ OwnerIsDir (view v v.clusterLimit sectors) (some slot) := by
        simp [OwnerIsDir, isDir]
      rcases kept.chain fileChain file holds with ⟨stillHolds, same⟩
      rw [holds'.unique stillHolds]
      simp only [Bool.false_eq_true, if_false, fileResult, chainData_congr same]

end

/-- Over any sequence of calls, each of which returns, the chains of the root
and of all live entries stay in range, end, and stay pairwise disjoint. -/
theorem runCalls_wellFormed {v : Vol} {sectors : Nat → Buffer} {fuel : Nat}
    (wellFormed : WellFormed v sectors) (enough : v.clusterLimit < fuel) (calls : List Call) :
    ∃ sectors', runCalls fuel calls v (Device.healthy sectors) =
        some (v, Device.healthy sectors') ∧ WellFormed v sectors' := by
  induction calls generalizing sectors with
  | nil => exact ⟨sectors, rfl, wellFormed⟩
  | cons call rest induction =>
      rcases Call.keeps_wellFormed wellFormed enough call with ⟨code, middle, ran, stays⟩
      rcases induction stays with ⟨sectors', restRan, final⟩
      refine ⟨sectors', ?_, final⟩
      rw [runCalls, DiskM.bind_run ran]
      exact restRan

/-! ## A small volume -/

/-- Ten clusters of one sector, a table of one sector. -/
def smallVol : Vol where
  fsType := .fat32
  bytesPerSec := 512
  secPerClus := 1
  rsvdSecCnt := 1
  numFats := 1
  fatSz32 := 1
  rootClus := 2
  firstDataLba := 2
  fatLba := 1
  totSec32 := 12
  partLbaStart := 0
  exfatFatLength := 0
  exfatHeapOffset := 0
  exfatClusterCount := 0
  exfatBitmapClus := 0
  exfatBitmapSize := 0
  exfatBpsShift := 0
  exfatSpcShift := 0

/-- The small volume after formatting: an empty root directory. -/
def formatted : Nat → Buffer := fun lba =>
  if lba = 1 then Buffer.putU32 (fun _ => 0) 8 eocMark else fun _ => 0

/-- Nothing is listed in the root directory. -/
theorem formatted_blank : ∀ slot ∈ chainSlots smallVol [smallVol.rootClus],
    ¬ Listed (entryAt (view smallVol smallVol.clusterLimit formatted) slot) := by
  intro slot member
  rcases mem_chainSlots.mp member with ⟨inRoot, inside, _⟩
  have cluster : slot.cl = 2 := List.mem_singleton.mp inRoot
  have first : slot.s = 0 := Nat.lt_one_iff.mp inside
  rw [entryAt, cluster, first]
  exact blank_unlisted slot.off fun _ => rfl

theorem smallVol_wellFormed : WellFormed smallVol formatted := by
  have geometry : Geometry smallVol smallVol.clusterLimit := by
    refine ⟨by decide, by decide, by decide, ?_, by decide, by decide⟩
    intro clus below
    have bound : clus < 12 := below
    have first : 4 * clus / 512 = 0 := by omega
    simp only [smallVol, Vol.heapLba, first]
    omega
  refine ⟨⟨rfl, rfl, by decide, by decide, by decide, geometry⟩, ?_⟩
  exact .of_blank_root ⟨by decide, by decide⟩ (by decide) (by decide) formatted_blank

theorem runCalls_wellFormed_small :
    ∃ sectors', runCalls 13 [.ensureDir (.ofArray [0x41]), .writeFile (.ofArray [0x41, 0x2F, 0x42]) [1]]
        smallVol (Device.healthy formatted) = some (smallVol, Device.healthy sectors') ∧
      WellFormed smallVol sectors' :=
  runCalls_wellFormed smallVol_wellFormed (by decide) _

/-! ## Reading back -/

/-- A successful write is read back, as far as it fits into one cluster, and
every path that resolved to another entry reads as before. -/
theorem fat32WriteFilePath_roundTrip {v : Vol} {sectors : Nat → Buffer} {fuel : Nat}
    (wellFormed : WellFormed v sectors) (enough : v.clusterLimit < fuel) (path : CString)
    (visible : ∀ comp ∈ path.components83, comp.head? ≠ some 0xE5) (data : List UInt8) :
    ∃ code sectors', fat32WriteFilePath v fuel path data (Device.healthy sectors) =
        some ((v, code), Device.healthy sectors') ∧
      (code = 0 →
        (∀ maxBytes, data.length ≤ maxBytes →
          fat32ReadFilePath v fuel path maxBytes (Device.healthy sectors') =
            some ((v, ⟨0, min data.length (v.secPerClus * 512),
              data.take (v.secPerClus * 512)⟩), Device.healthy sectors')) ∧
        ∀ other slot maxBytes,
          Resolves v (view v v.clusterLimit sectors) v.rootClus other.components83 slot →
          ¬ Resolves v (view v v.clusterLimit sectors) v.rootClus path.components83 slot →
          ∃ result,
            fat32ReadFilePath v fuel other maxBytes (Device.healthy sectors) =
              some ((v, result), Device.healthy sectors) ∧
            fat32ReadFilePath v fuel other maxBytes (Device.healthy sectors') =
              some ((v, result), Device.healthy sectors')) := by
  rcases fat32WriteFilePath_written wellFormed enough path data with
    ⟨code, sectors', slot, chain, ran, root, frame, done⟩
  refine ⟨code, sectors', ran, fun succeeded => ?_⟩
  have written := done succeeded
  have wellFormed' : WellFormed v sectors' := ⟨wellFormed.shape, frame.owned⟩
  have clusterSize : v.clusterBytes = v.secPerClus * 512 := by
    rw [Vol.clusterBytes, wellFormed.shape.sector_size, Nat.mul_comm]
  constructor
  · intro maxBytes room
    rcases written.stored.content with ⟨fileChain, holds, content⟩
    rw [fat32ReadFilePath_resolves wellFormed' enough (written.after root visible) holds]
    have file : direntIsDir (entryAt (view v v.clusterLimit sectors') slot) = false := by
      simpa [OwnerIsDir] using written.stored.file
    have occupied : direntStartCluster (entryAt (view v v.clusterLimit sectors') slot) ≠ 0 :=
      written.stored.occupied
    have length : min (min data.length v.clusterBytes) maxBytes =
        min data.length v.clusterBytes := by omega
    rw [entryResult, file, fileResult, written.stored.size]
    simp only [Bool.false_eq_true, if_false, occupied, length, content]
    rw [clusterSize]
  · intro other slot' maxBytes resolved apart
    have live := wellFormed.owned.live_of_resolves root resolved
    apply frame.reads_alike wellFormed enough resolved
    intro equal
    subst equal
    exact apart (written.before live).2

theorem fat32WriteFilePath_roundTrip_small :
    ∃ sectors', fat32WriteFilePath smallVol 13 (.ofArray [0x61, 0x2F, 0x62]) [1, 2, 3]
        (Device.healthy formatted) = some ((smallVol, 0), Device.healthy sectors') ∧
      fat32ReadFilePath smallVol 13 (.ofArray [0x61, 0x2F, 0x62]) 512
        (Device.healthy sectors') = some ((smallVol, ⟨0, 3, [1, 2, 3]⟩),
          Device.healthy sectors') := by
  rcases fat32WriteFilePath_roundTrip smallVol_wellFormed (show _ < 13 by decide)
    (.ofArray [0x61, 0x2F, 0x62]) (by decide) [1, 2, 3] with ⟨code, sectors', ran, done⟩
  have returned : (fat32WriteFilePath smallVol 13 (.ofArray [0x61, 0x2F, 0x62]) [1, 2, 3]
      (Device.healthy formatted)).map (fun result => result.1.2) = some 0 := by
    decide +kernel
  rw [ran, Option.map_some, Option.some.injEq] at returned
  subst returned
  have read := (done rfl).1 512 (by decide)
  exact ⟨sectors', ran, by simpa [smallVol] using read⟩

/-! ## How much is stored -/

/-- After a successful write the entry under the path's last component records
the number of bytes that fit into one cluster, and its chain holds them. -/
theorem fat32WriteFilePath_stores {v : Vol} {sectors : Nat → Buffer} {fuel : Nat}
    (wellFormed : WellFormed v sectors) (enough : v.clusterLimit < fuel) (path : CString)
    (data : List UInt8) :
    ∃ code sectors', fat32WriteFilePath v fuel path data (Device.healthy sectors) =
        some ((v, code), Device.healthy sectors') ∧
      (code = 0 → ∃ slot comp chain,
        path.components83.getLast? = some comp ∧
        direntName (entryAt (view v v.clusterLimit sectors') slot) = makeName83 comp ∧
        ((∀ comp ∈ path.components83, comp.head? ≠ some 0xE5) →
          Resolves v (view v v.clusterLimit sectors') v.rootClus path.components83 slot) ∧
        (entryAt (view v v.clusterLimit sectors') slot).getU32 28 =
          min data.length (v.secPerClus * 512) ∧
        Chain v.clusterLimit (view v v.clusterLimit sectors')
          (ownerStart v (view v v.clusterLimit sectors') (some slot)) chain ∧
        (chainData v (view v v.clusterLimit sectors') chain).take
          (min data.length (v.secPerClus * 512)) = data.take (v.secPerClus * 512)) := by
  rcases fat32WriteFilePath_written wellFormed enough path data with
    ⟨code, sectors', slot, chain, ran, root, _, done⟩
  refine ⟨code, sectors', ran, fun succeeded => ?_⟩
  have written := done succeeded
  have clusterSize : v.clusterBytes = v.secPerClus * 512 := by
    rw [Vol.clusterBytes, wellFormed.shape.sector_size, Nat.mul_comm]
  rcases written.name with ⟨comp, isLast, name⟩
  rcases written.stored.content with ⟨fileChain, holds, content⟩
  rw [clusterSize] at content
  refine ⟨slot, comp, fileChain, isLast, name, written.after root, ?_, holds, content⟩
  rw [written.stored.size, clusterSize]

theorem fat32WriteFilePath_stores_small :
    ∃ sectors', fat32WriteFilePath smallVol 13 (.ofArray [0x41]) [7, 8]
        (Device.healthy formatted) = some ((smallVol, 0), Device.healthy sectors') ∧
      ∃ slot, (entryAt (view smallVol smallVol.clusterLimit sectors') slot).getU32 28 = 2 := by
  rcases fat32WriteFilePath_stores smallVol_wellFormed (show _ < 13 by decide)
    (.ofArray [0x41]) [7, 8] with ⟨code, sectors', ran, done⟩
  have returned : (fat32WriteFilePath smallVol 13 (.ofArray [0x41]) [7, 8]
      (Device.healthy formatted)).map (fun result => result.1.2) = some 0 := by
    decide +kernel
  rw [ran, Option.map_some, Option.some.injEq] at returned
  subst returned
  rcases done rfl with ⟨slot, _, _, _, _, _, size, _⟩
  exact ⟨sectors', ran, slot, by simpa [smallVol] using size⟩

/-- One byte more than a cluster holds: the write reports success, and the
entry it wrote records a byte less than it was given. -/
theorem fat32WriteFilePath_truncates :
    WellFormed smallVol formatted ∧
    ∃ sectors' slot, fat32WriteFilePath smallVol 13 (.ofArray [0x41]) (List.replicate 513 1)
        (Device.healthy formatted) = some ((smallVol, 0), Device.healthy sectors') ∧
      Resolves smallVol (view smallVol smallVol.clusterLimit sectors') smallVol.rootClus
        (CString.ofArray [0x41]).components83 slot ∧
      (entryAt (view smallVol smallVol.clusterLimit sectors') slot).getU32 28 ≠
        (List.replicate 513 (1 : UInt8)).length := by
  rcases fat32WriteFilePath_written smallVol_wellFormed (show _ < 13 by decide)
    (.ofArray [0x41]) (List.replicate 513 1) with ⟨code, sectors', slot, chain, ran, root, _, done⟩
  have returned : (fat32WriteFilePath smallVol 13 (.ofArray [0x41]) (List.replicate 513 1)
      (Device.healthy formatted)).map (fun result => result.1.2) = some 0 := by
    decide +kernel
  rw [ran, Option.map_some, Option.some.injEq] at returned
  subst returned
  have written := done rfl
  refine ⟨smallVol_wellFormed, sectors', slot, ran, written.after root (by decide), ?_⟩
  rw [written.stored.size, List.length_replicate]
  decide

end ParanOS

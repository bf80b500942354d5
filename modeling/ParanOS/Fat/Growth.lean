import ParanOS.Fat.Contents
import ParanOS.Fat.Edit

/-! # The three operations of a walk as edits

Making a directory, creating a file and overwriting a file: each fails with all directories as
they were, because there is no free cluster or no free slot, or it changes one entry.
-/

namespace ParanOS

open Foundation

theorem chainSlots_ordered (v : Vol) (cl : Nat) :
    (chainSlots v [cl]).Pairwise fun slot later =>
      slot.s < later.s ∨ slot.s = later.s ∧ slot.off < later.off := by
  rw [chainSlots, List.flatMap_singleton, clusterSlots, List.pairwise_flatMap]
  constructor
  · intro s _
    rw [List.pairwise_map, slotOffsets, List.pairwise_map]
    apply List.pairwise_lt_range.imp
    intro first second less
    exact .inr ⟨rfl, by dsimp only; omega⟩
  · apply List.pairwise_lt_range.imp
    intro first second less slot member later member'
    rcases List.mem_map.mp member with ⟨_, _, rfl⟩
    rcases List.mem_map.mp member' with ⟨_, _, rfl⟩
    exact .inl less

theorem putDirent_head {sec : Buffer} {off startClus sizeBytes : Nat} {name11 : List UInt8}
    {attr : UInt8} (length : name11.length = 11) :
    putDirent sec off name11 attr startClus sizeBytes off = name11.getD 0 0 := by
  have head : (direntName (direntAt (putDirent sec off name11 attr startClus sizeBytes)
      off)).getD 0 0 = name11.getD 0 0 := by rw [putDirent_name length]
  rwa [direntName_head, direntAt_lt (by decide), Nat.add_zero] at head

/-- Of a new directory the two dot entries are in use, and nothing else. -/
theorem storeDots_head (v : Vol) (store : ClusterStore) (newCl parentCl : Nat) {slot : Slot}
    (member : slot ∈ chainSlots v [newCl]) :
    entryAt (storeDots v store newCl parentCl) slot 0 = 0 ↔ ¬ (slot.s = 0 ∧ slot.off < 64) := by
  rcases mem_chainSlots.mp member with ⟨inChain, _, aligned⟩
  rw [List.mem_singleton] at inChain
  have multiple := (mem_slotOffsets.mp aligned).1
  rw [entryAt, inChain, direntAt_lt (by decide), Nat.add_zero, storeDots]
  by_cases first : slot.s = 0
  · rw [first, ClusterStore.writeRun_sector_outside (by omega), ClusterStore.write_sector_same,
      dotSector]
    by_cases low : slot.off < 64
    · have dots : slot.off = 0 ∨ slot.off = 32 := by omega
      rcases dots with zero | second
      · rw [zero, putDirent_outside (.inl (by decide)), putDirent_head rfl]
        simp [dotName]
      · rw [second, putDirent_head rfl]
        simp [dotdotName]
    · rw [putDirent_outside (by omega), putDirent_outside (by omega)]
      simp [low]
  · rw [ClusterStore.writeRun_sector_inside (by omega) (by
      have := (mem_chainSlots.mp member).2.1
      omega)]
    simp [first, pieces, Buffer.ofList]

theorem storeDots_sealed (v : Vol) (store : ClusterStore) (newCl parentCl : Nat) :
    Sealed (storeDots v store newCl parentCl) (chainSlots v [newCl]) := by
  apply (chainSlots_ordered v newCl).imp_of_mem
  intro slot later member member' order
  rw [storeDots_head v store newCl parentCl member, storeDots_head v store newCl parentCl member']
  omega

/-! ## Making a directory -/

section

variable {v : Vol} (shape : Fat32Geometry v) {fuel : Nat} (enough : v.clusterLimit < fuel)
  {sectors : Nat → Buffer} {dirCl : Nat} {chain : List Nat} {comp : List UInt8}
  (owned : Owned v v.clusterLimit (view v v.clusterLimit sectors))
  (dir : LiveDir v v.clusterLimit (view v v.clusterLimit sectors) dirCl chain)
  (nonempty : comp ≠ []) (nulFree : ∀ char ∈ comp, char ≠ 0) (shown : comp.head? ≠ some 0xE5)
  (absent : ∀ slot, ¬ FirstMatch (makeName83 comp) (view v v.clusterLimit sectors)
    (chainSlots v chain) slot)
include shape enough owned dir nonempty nulFree shown absent

theorem makeDirectory_grows :
    (NoneFree v (view v v.clusterLimit sectors) ∧
      makeDirectory v fuel dirCl (makeName83 comp) (Device.healthy sectors) =
        some ((-3, 0), Device.healthy sectors)) ∨
    (∃ sectors', makeDirectory v fuel dirCl (makeName83 comp) (Device.healthy sectors) =
        some ((-5, 0), Device.healthy sectors') ∧
      ¬ HasRoom v (view v v.clusterLimit sectors') chain ∧
      (∀ except, Frame v v.clusterLimit (view v v.clusterLimit sectors)
        (view v v.clusterLimit sectors') except) ∧
      Edit v v.clusterLimit (view v v.clusterLimit sectors) (view v v.clusterLimit sectors')
        Change.nowhere) ∨
    ∃ newCl new sectors',
      makeDirectory v fuel dirCl (makeName83 comp) (Device.healthy sectors) =
        some ((0, newCl), Device.healthy sectors') ∧ newCl ≠ 0 ∧
      Grown v (view v v.clusterLimit sectors) (view v v.clusterLimit sectors') chain new
        (makeName83 comp) attrDir newCl 0 := by
  have geometry := shape.geometry
  rcases fatAllocFreeCluster_spec shape sectors with
    ⟨full, ran⟩ | ⟨target, claimed, allocated, fresh, below, view1⟩
  · refine .inl ⟨full, ?_⟩
    rw [makeDirectory, DiskM.bind_run ran]
    rfl
  right
  have dotsView := geometry.view_store claimed (dotSector target dirCl) fresh.data
    geometry.cluster_pos
  rcases writeSectors_healthy geometry
    (store claimed (u32 (clusToLba v target + 0)) (dotSector target dirCl)) fresh.data
    (v.secPerClus - 1) 1 [] (by have := geometry.cluster_pos; omega) with ⟨zeroed, ran, view2⟩
  have view3 := geometry.view_setFatEntry zeroed eocMark fresh.data.2 fresh.running
  have content : view v v.clusterLimit (setFatEntry v zeroed target eocMark) =
      (storeDots v ((view v v.clusterLimit sectors).link target eocMark) target dirCl).link
        target eocMark := by
    rw [view3, view2, dotsView, view1]
    rfl
  generalize ready : setFatEntry v zeroed target eocMark = between at content
  have marked : Claimed v (view v v.clusterLimit sectors) (view v v.clusterLimit between)
      target := by
    rw [content]
    exact .of_filled fresh below rfl
  have same : ∀ cl, cl ≠ target → (view v v.clusterLimit between).sector cl =
      (view v v.clusterLimit sectors).sector cl := by
    intro cl different
    rw [content]
    exact storeDots_other v _ dirCl different
  have blank : attrDir &&& attrDir ≠ 0 →
      Sealed (view v v.clusterLimit between) (chainSlots v [target]) ∧
      ∀ slot ∈ chainSlots v [target],
        ¬ Listed (entryAt (view v v.clusterLimit between) slot) := by
    intro _
    rw [content]
    exact ⟨storeDots_sealed v _ target dirCl, storeDots_unlisted _ target dirCl⟩
  rw [Nat.add_zero, u32_clusToLba] at ran
  rcases createDirEntry_grows shape enough owned dir marked same nonempty nulFree shown absent
    (by decide) 0 blank with ⟨crowded, noSlot⟩ | ⟨new, sectors', created, grown, _⟩
  · have prepared := Prepared.of_claimed owned (.inl dir) marked same
    refine .inl ⟨between, ?_, crowded, prepared.frame, Edit.idle ?_ ?_⟩
    · rw [makeDirectory, DiskM.bind_run allocated]
      simp [fresh.ne_zero, ran, ready, noSlot]
    · exact (prepared.frame Change.nowhere).dirs
    · exact fun slot => marked.entryAt_eq same
  · refine .inr ⟨target, new, sectors', ?_, fresh.ne_zero, grown⟩
    rw [makeDirectory, DiskM.bind_run allocated]
    simp [fresh.ne_zero, ran, ready, created]

/-! ## Creating a file -/

theorem createFile_grows (data : List UInt8) :
    (NoneFree v (view v v.clusterLimit sectors) ∧
      createFile v fuel dirCl (makeName83 comp) data (Device.healthy sectors) =
        some (-5, Device.healthy sectors)) ∨
    (∃ sectors', createFile v fuel dirCl (makeName83 comp) data (Device.healthy sectors) =
        some (-9, Device.healthy sectors') ∧
      ¬ HasRoom v (view v v.clusterLimit sectors') chain ∧
      (∀ except, Frame v v.clusterLimit (view v v.clusterLimit sectors)
        (view v v.clusterLimit sectors') except) ∧
      Edit v v.clusterLimit (view v v.clusterLimit sectors) (view v v.clusterLimit sectors')
        Change.nowhere) ∨
    ∃ newCl new sectors',
      createFile v fuel dirCl (makeName83 comp) data (Device.healthy sectors) =
        some (0, Device.healthy sectors') ∧
      Grown v (view v v.clusterLimit sectors) (view v v.clusterLimit sectors') chain new
        (makeName83 comp) attrArchive newCl (min data.length (v.secPerClus * v.bytesPerSec)) ∧
      Stored v v.clusterLimit (view v v.clusterLimit sectors') new data := by
  have geometry := shape.geometry
  rcases fatAllocFreeCluster_spec shape sectors with
    ⟨full, ran⟩ | ⟨target, claimed, allocated, fresh, below, view1⟩
  · refine .inl ⟨full, ?_⟩
    rw [createFile, DiskM.bind_run ran]
    rfl
  right
  rcases writeSingleCluster_healthy geometry claimed fresh.data fresh.running data with
    ⟨between, written, view2⟩
  rw [view1] at view2
  have marked : Claimed v (view v v.clusterLimit sectors) (view v v.clusterLimit between)
      target := by
    rw [view2]
    exact .of_filled fresh below rfl
  have same : ∀ cl, cl ≠ target → (view v v.clusterLimit between).sector cl =
      (view v v.clusterLimit sectors).sector cl := by
    intro cl different
    rw [view2]
    funext index
    exact ClusterStore.writeRun_sector_outside (.inl different)
  rcases createDirEntry_grows shape enough owned dir marked same nonempty nulFree shown absent
    (show attrArchive ≠ attrLongName by decide)
    (min data.length (v.secPerClus * v.bytesPerSec)) (fun isDir => absurd rfl isDir) with
    ⟨crowded, noSlot⟩ | ⟨new, sectors', created, grown, sector⟩
  · have prepared := Prepared.of_claimed owned (.inl dir) marked same
    refine .inl ⟨between, ?_, crowded, prepared.frame, Edit.idle ?_ ?_⟩
    · rw [createFile, DiskM.bind_run allocated]
      simp [fresh.ne_zero, written, noSlot]
    · exact (prepared.frame Change.nowhere).dirs
    · exact fun slot => marked.entryAt_eq same
  · refine .inr ⟨target, new, sectors', ?_, grown, ?_⟩
    · rw [createFile, DiskM.bind_run allocated]
      simp [fresh.ne_zero, written, created]
    · apply Stored.of_storeData shape _ grown.size grown.start fresh.ne_zero grown.holds
        ((view v v.clusterLimit sectors).link target eocMark)
      · rw [sector, view2]
        rfl
      · rw [OwnerIsDir, direntIsDir, grown.attr]
        decide

end

/-! ## Overwriting a file -/

/-- A file is given a cluster, unless it has none and there is none. -/
theorem targetCluster_cases {v : Vol} (shape : Fat32Geometry v) {sectors : Nat → Buffer}
    (owned : Owned v v.clusterLimit (view v v.clusterLimit sectors)) {slot : Slot}
    (live : Live v (view v v.clusterLimit sectors) (some slot)) :
    (NoneFree v (view v v.clusterLimit sectors) ∧
      targetCluster v (ownerStart v (view v v.clusterLimit sectors) (some slot))
        (Device.healthy sectors) = some (0, Device.healthy sectors)) ∨
    ∃ target claimed,
      targetCluster v (ownerStart v (view v v.clusterLimit sectors) (some slot))
        (Device.healthy sectors) = some (target, Device.healthy claimed) ∧
      DataCluster v.clusterLimit target ∧ ¬ EndOfChain target ∧
      (ownerStart v (view v v.clusterLimit sectors) (some slot) = target ∨
        Unowned v v.clusterLimit (view v v.clusterLimit sectors) target) ∧
      (view v v.clusterLimit claimed).sector = (view v v.clusterLimit sectors).sector := by
  rcases targetCluster_spec shape owned live with
    ran | ⟨target, claimed, ran, data, running, whose, _, _, same⟩
  · by_cases vacant : ownerStart v (view v v.clusterLimit sectors) (some slot) = 0
    · rw [vacant] at ran ⊢
      rcases fatAllocFreeCluster_spec shape sectors with ⟨full, _⟩ | ⟨target, _, took, fresh, _⟩
      · exact .inl ⟨full, ran⟩
      · rw [targetCluster, if_pos rfl, took, Option.some.injEq, Prod.mk.injEq] at ran
        exact absurd ran.1 fresh.ne_zero
    · rw [targetCluster, if_neg vacant, DiskM.pure_apply, Option.some.injEq,
        Prod.mk.injEq] at ran
      exact absurd ran.1 vacant
  · exact .inr ⟨target, claimed, ran, data, running, whose, same⟩

section

variable {v : Vol} (shape : Fat32Geometry v) {sectors : Nat → Buffer}
  (owned : Owned v v.clusterLimit (view v v.clusterLimit sectors)) {slot : Slot} {dirCl : Nat}
  {chain : List Nat} {want : List UInt8}
  (dir : LiveDir v v.clusterLimit (view v v.clusterLimit sectors) dirCl chain)
  (first : FirstMatch want (view v v.clusterLimit sectors) (chainSlots v chain) slot)
  (live : Live v (view v v.clusterLimit sectors) (some slot))
  (file : direntIsDir (entryAt (view v v.clusterLimit sectors) slot) = false)
include shape owned dir first live file

/-- Of the directories only the entry is written, and only its cluster and its size. -/
theorem overwriteFile_edits (data : List UInt8) :
    (NoneFree v (view v v.clusterLimit sectors) ∧
      overwriteFile v (hitAt v (view v v.clusterLimit sectors) slot) data
        (Device.healthy sectors) = some (-5, Device.healthy sectors)) ∨
    ∃ sectors', overwriteFile v (hitAt v (view v v.clusterLimit sectors) slot) data
        (Device.healthy sectors) = some (0, Device.healthy sectors') ∧
      Frame v v.clusterLimit (view v v.clusterLimit sectors)
        (view v v.clusterLimit sectors') slot ∧
      Edit v v.clusterLimit (view v v.clusterLimit sectors) (view v v.clusterLimit sectors')
        slot ∧
      Overwriting v sectors sectors' slot data 0 := by
  have geometry := shape.geometry
  have notDir : ¬ direntIsDir (hitAt v (view v v.clusterLimit sectors) slot).de = true := by
    simp [hitAt, file]
  rcases targetCluster_cases shape owned live with
    ⟨full, none⟩ | ⟨target, claimed, allocated, targetData, running, whose, sectors1⟩
  · refine .inl ⟨full, ?_⟩
    rw [overwriteFile, if_neg notDir]
    exact DiskM.bind_run none
  have occupied : target ≠ 0 := by
    have lower := targetData.1
    omega
  rcases writeSingleCluster_healthy geometry claimed targetData running data with
    ⟨sectors2, written, view2⟩
  have placed := (owned.placed_of_live live).1
  have place := mem_chainSlots.mp first.mem
  have elsewhere : ∀ {other}, Placed v v.clusterLimit (view v v.clusterLimit sectors) other →
      other.cl ≠ target := Change.target_not_placed owned live
    (by simp [OwnerIsDir, file]) whose occupied
  -- the directory sector that is read back has not been touched
  have untouched : ∀ cl index, cl ≠ target → (view v v.clusterLimit sectors2).sector cl index =
      (view v v.clusterLimit sectors).sector cl index := by
    intro cl index different
    rw [view2, ClusterStore.link_sector, storeData,
      ClusterStore.writeRun_sector_outside (.inl different), sectors1]
  have readBack := geometry.sector_eq sectors2 placed.data place.2.1
  have view3 := geometry.view_store sectors2
    (updateDirent ((view v v.clusterLimit sectors2).sector slot.cl slot.s) slot.off target
      (min data.length (v.secPerClus * v.bytesPerSec))) placed.data place.2.1
  generalize final : store sectors2 (u32 (clusToLba v slot.cl + slot.s))
    (updateDirent ((view v v.clusterLimit sectors2).sector slot.cl slot.s) slot.off target
      (min data.length (v.secPerClus * v.bytesPerSec))) = sectors3 at view3
  have ran : overwriteFile v (hitAt v (view v v.clusterLimit sectors) slot) data
      (Device.healthy sectors) = some (0, Device.healthy sectors3) := by
    rw [overwriteFile, if_neg notDir]
    refine (DiskM.bind_run allocated).trans ?_
    rw [if_neg occupied, DiskM.bind_run written]
    simp only [hitAt, updateDirent] at final ⊢
    simp [readBack, final]
  rcases overwriteFile_spec shape owned live data with
    ⟨code, sectors', ran', frame, overwriting⟩
  rw [ran, Option.some.injEq, Prod.mk.injEq] at ran'
  have same : sectors3 = sectors' := congrArg Device.sectors ran'.2
  rw [← same, ← ran'.1] at overwriting
  rw [← same] at frame
  have name := updated_name untouched (elsewhere placed) view3
  have attr := updated_attr untouched (elsewhere placed) view3
  have entries : ∀ other, Placed v v.clusterLimit (view v v.clusterLimit sectors) other →
      other ≠ slot → entryAt (view v v.clusterLimit sectors3) other =
        entryAt (view v v.clusterLimit sectors) other := by
    intro other otherPlaced different
    have apart := elsewhere otherPlaced
    rcases otherPlaced with ⟨_, _, _, member⟩
    exact entryAt_updated_other untouched view3 place.2.2 (mem_chainSlots.mp member).2.2
      different apart
  have head : entryAt (view v v.clusterLimit sectors3) slot 0 =
      entryAt (view v v.clusterLimit sectors) slot 0 := by
    rw [← direntName_head (entryAt (view v v.clusterLimit sectors3) slot), name, direntName_head]
  refine .inr ⟨sectors3, ran, frame, ⟨frame.dirs, entries, ?_, ?_, ?_⟩, overwriting⟩
  · intro other _ matched
    refine ⟨?_, name.trans matched.2⟩
    simp only [InUse, head, attr]
    exact matched.1
  · intro otherCl otherChain otherDir member
    rw [(owned.chain_eq otherDir dir (mem_chainSlots.mp member).1 place.1).2]
    exact ⟨want, first.updated (fun other member => entries other ⟨_, _, dir, member⟩) name attr⟩
  · intro _ isDir
    rw [direntIsDir, attr] at isDir
    rw [direntIsDir] at file
    rw [file] at isDir
    cases isDir

end

end ParanOS

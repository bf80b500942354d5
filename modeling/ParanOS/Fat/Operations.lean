import ParanOS.Fat.Steps

/-! # The operations of the driver

For each function of `fs_fat32.c` that changes a FAT32 volume: it returns on a
healthy device, and the change it makes is one of the three.
-/

namespace ParanOS

open Foundation

/-! ## Allocating -/

theorem Fat32Geometry.maxClusters_lt {v : Vol} (shape : Fat32Geometry v) :
    fatMaxClusters v < v.clusterLimit ∧ fatMaxClusters v ≤ 1048576 := by
  have before := shape.data_before_end
  have small := shape.sectors_small
  have difference : u32 (v.totSec32 + 4294967296 - v.firstDataLba) =
      v.totSec32 - v.firstDataLba := by
    simp only [u32]
    omega
  rw [fatMaxClusters, Vol.clusterLimit, difference]
  omega

/-- The allocator has no cluster to give. -/
def NoneFree (v : Vol) (store : ClusterStore) : Prop :=
  ∀ cl, 2 ≤ cl → cl < fatMaxClusters v → store.next cl ≠ 0

/-- Of the table, only a free cluster has changed: it ends a chain now. -/
structure Claimed (v : Vol) (store store' : ClusterStore) (target : Nat) : Prop where
  fresh : Fresh v.clusterLimit store target
  below : target < fatMaxClusters v
  marked : store'.next target = eocMark
  links : ∀ cl, cl ≠ target → store'.next cl = store.next cl

/-- The claim stands when the cluster is filled, and its end marked once more. -/
theorem Claimed.of_filled {v : Vol} {store filled : ClusterStore} {target : Nat}
    (fresh : Fresh v.clusterLimit store target) (below : target < fatMaxClusters v)
    (next : filled.next = (store.link target eocMark).next) :
    Claimed v store (filled.link target eocMark) target := by
  refine ⟨fresh, below, by simp, ?_⟩
  intro cl different
  rw [ClusterStore.link_next_other different, next, ClusterStore.link_next_other different]

theorem Claimed.congr {v : Vol} {store store' store'' : ClusterStore} {target : Nat}
    (claimed : Claimed v store store' target) (links : store''.next = store'.next) :
    Claimed v store store'' target := by
  refine ⟨claimed.fresh, claimed.below, ?_, ?_⟩
  · rw [links]
    exact claimed.marked
  · rw [links]
    exact claimed.links

/-- The clusters the allocator looks at are in the table. -/
theorem Fat32Geometry.candidate {v : Vol} (shape : Fat32Geometry v) {cl : Nat}
    (below : cl < fatMaxClusters v) : cl < v.clusterLimit ∧ ¬ EndOfChain cl := by
  have bound := shape.maxClusters_lt
  rw [endOfChain_iff]
  omega

/-- The first free cluster is claimed, unless a call fails. -/
theorem fatAllocFreeCluster_runs {trouble : Trouble} {v : Vol} (shape : Fat32Geometry v)
    (sectors : Nat → Buffer) :
    Runs trouble (fatAllocFreeCluster v) sectors fun target sectors' =>
      target = 0 ∧ sectors' = sectors ∧
        (trouble.Possible ∨ NoneFree v (view v v.clusterLimit sectors)) ∨
      Fresh v.clusterLimit (view v v.clusterLimit sectors) target ∧ target < fatMaxClusters v ∧
        view v v.clusterLimit sectors' =
          (view v v.clusterLimit sectors).link target eocMark := by
  apply allocScan_runs
  · exact fun may => .inl ⟨rfl, rfl, .inl (.inl may)⟩
  · intro used
    refine .inl ⟨rfl, rfl, .inr fun cl lower below free => ?_⟩
    rcases shape.candidate below with ⟨inTable, running⟩
    rw [← shape.geometry.fatEntry_eq sectors inTable running] at free
    exact used cl lower (by omega) free
  · intro target lower upper _ free
    have inside : target < fatMaxClusters v := by omega
    rcases shape.candidate inside with ⟨below, running⟩
    rw [shape.geometry.fatEntry_eq sectors below running] at free
    apply (fatWriteFatEntry_runs v target eocMark sectors).bind
    intro code sectors' written
    rcases written with ⟨failed, same, may⟩ | ⟨done, same⟩
    · rw [if_neg failed]
      exact .pure (.inl ⟨rfl, same, .inl may⟩)
    · rw [if_pos done]
      refine .pure (.inr ⟨⟨⟨lower, below⟩, running, free⟩, inside, ?_⟩)
      rw [same, shape.geometry.view_setFatEntry sectors eocMark below running]
      rfl

theorem fatAllocFreeCluster_spec {v : Vol} (shape : Fat32Geometry v)
    (sectors : Nat → Buffer) :
    (NoneFree v (view v v.clusterLimit sectors) ∧
      fatAllocFreeCluster v (Device.healthy sectors) = some (0, Device.healthy sectors)) ∨
    ∃ target sectors', fatAllocFreeCluster v (Device.healthy sectors) =
        some (target, Device.healthy sectors') ∧
      Fresh v.clusterLimit (view v v.clusterLimit sectors) target ∧
      target < fatMaxClusters v ∧
      view v v.clusterLimit sectors' =
        (view v v.clusterLimit sectors).link target eocMark := by
  rcases (fatAllocFreeCluster_runs shape sectors).healthy with
    ⟨target, sectors', ran, ⟨rfl, rfl, impossible | none⟩ | claimed⟩
  · simp [Trouble.Possible] at impossible
  · exact .inl ⟨none, ran⟩
  · exact .inr ⟨target, sectors', ran, claimed⟩

/-! ## The directory under the walk

A walk that has just created a directory under a name with first byte `0xE5` is
in a directory that no lookup will ever find. Nothing is listed in it, and what
happens in it concerns nobody. -/

/-- A directory outside the tree. -/
structure Barren (v : Vol) (limit : Nat) (store : ClusterStore) (dirCl : Nat)
    (chain : List Nat) : Prop where
  dirChain : DirChain v limit store dirCl chain
  unowned : ∀ cl ∈ chain, Unowned v limit store cl
  unlisted : ∀ slot ∈ chainSlots v chain, ¬ Listed (entryAt store slot)

def Walking (v : Vol) (limit : Nat) (store : ClusterStore) (dirCl : Nat)
    (chain : List Nat) : Prop :=
  LiveDir v limit store dirCl chain ∨ Barren v limit store dirCl chain

theorem Walking.dirChain {v : Vol} {limit : Nat} {store : ClusterStore} {dirCl : Nat}
    {chain : List Nat} (walking : Walking v limit store dirCl chain) :
    DirChain v limit store dirCl chain := by
  rcases walking with dir | barren
  · exact dir.dirChain
  · exact barren.dirChain

/-- What a component finds is in a directory of the tree. -/
theorem Walking.found {v : Vol} {limit : Nat} {store : ClusterStore} {dirCl : Nat}
    {chain : List Nat} {comp : List UInt8} {slot : Slot}
    (walking : Walking v limit store dirCl chain)
    (first : FirstMatch (makeName83 comp) store (chainSlots v chain) slot) :
    LiveDir v limit store dirCl chain ∧ Live v store (some slot) := by
  rcases walking with dir | barren
  · have placed : Placed v limit store slot := ⟨dirCl, chain, dir, first.mem⟩
    exact ⟨dir, placed.live first.matched.listed⟩
  · exact absurd first.matched.listed (barren.unlisted slot first.mem)

/-- A fresh cluster has been claimed and filled, and nothing else happened. -/
structure Prepared (v : Vol) (limit : Nat) (store store' : ClusterStore) (dirCl : Nat)
    (chain : List Nat) (target : Nat) : Prop where
  frame : ∀ except, Frame v limit store store' except
  alive : ∀ owner, Live v store owner → Live v store' owner
  walking : Walking v limit store' dirCl chain
  unowned : Unowned v limit store' target
  holds : Chain limit store' target [target]
  outside : target ∉ chain
  entries : ∀ slot ∈ chainSlots v chain, entryAt store' slot = entryAt store slot

theorem Prepared.of_claimed {v : Vol} {store store' : ClusterStore} {dirCl target : Nat}
    {chain : List Nat} (owned : Owned v v.clusterLimit store)
    (walking : Walking v v.clusterLimit store dirCl chain) (claimed : Claimed v store store' target)
    (sectors : ∀ cl, cl ≠ target → store'.sector cl = store.sector cl) :
    Prepared v v.clusterLimit store store' dirCl chain target := by
  have fresh := claimed.fresh
  have unowned : Unowned v v.clusterLimit store target := unowned_of_free fresh.free
  have change : Change v v.clusterLimit store store' Change.nowhere :=
    Change.idle owned (fun cl (equal : cl = target) => equal ▸ unowned) claimed.links sectors
  have dead : ¬ Live v store (some Change.nowhere) := fun live =>
    Change.nowhere_not_placed (owned.placed_of_live live).1
  have stays : ∀ cl, Unowned v v.clusterLimit store cl → Unowned v v.clusterLimit store' cl :=
    fun cl free => change.unowned owned free fun placed =>
      absurd placed Change.nowhere_not_placed
  have outside : target ∉ chain := fun member =>
    walking.dirChain.next_ne_zero member fresh.free
  have entries : ∀ slot ∈ chainSlots v chain, entryAt store' slot = entryAt store slot := by
    intro slot member
    have inChain := (mem_chainSlots.mp member).1
    rw [entryAt, entryAt, sectors slot.cl fun equal => outside (equal ▸ inChain)]
  refine ⟨change.frame_of_not_live owned dead, ?_, ?_, stays target unowned, ?_, outside,
    entries⟩
  · intro owner live
    apply change.live_forth owned live
    intro equal
    exact dead (equal ▸ live)
  · rcases walking with dir | barren
    · exact .inl (change.liveDir owned dir)
    · refine .inr ⟨⟨barren.dirChain.linked.congr ?_, barren.dirChain.data⟩, ?_, ?_⟩
      · intro cl member
        exact claimed.links cl fun equal => outside (equal ▸ member)
      · exact fun cl member => stays cl (barren.unowned cl member)
      · intro slot member
        rw [entries slot member]
        exact barren.unlisted slot member
  · refine .chain fresh.ne_zero fresh.running (.single fresh.running ?_) ?_
    · rw [claimed.marked]
      exact endOfChain_eocMark
    · intro cl member
      rw [List.mem_singleton] at member
      exact member ▸ fresh.data

theorem Prepared.absent {v : Vol} {limit : Nat} {store store' : ClusterStore}
    {dirCl target : Nat} {chain : List Nat} {name11 : List UInt8}
    (prepared : Prepared v limit store store' dirCl chain target)
    (absent : ∀ slot, ¬ FirstMatch name11 store (chainSlots v chain) slot) :
    ∀ slot, ¬ FirstMatch name11 store' (chainSlots v chain) slot := by
  intro slot first
  apply absent slot
  apply first.congr
  intro other member
  exact (prepared.entries other member).symm

/-! ## Adding an entry -/

/-- There is a free slot in the directory. -/
def HasRoom (v : Vol) (store : ClusterStore) (chain : List Nat) : Prop :=
  ∃ slot ∈ chainSlots v chain, Free (entryAt store slot)

theorem HasRoom.congr {v : Vol} {store store' : ClusterStore} {chain : List Nat}
    (room : HasRoom v store chain)
    (same : ∀ slot ∈ chainSlots v chain, entryAt store' slot = entryAt store slot) :
    HasRoom v store' chain := by
  rcases room with ⟨slot, member, free⟩
  exact ⟨slot, member, by rw [same slot member]; exact free⟩

/-- The entry is put into the first free slot, unless a call fails. -/
theorem createDirEntry_runs {trouble : Trouble} {v : Vol} {limit : Nat}
    (geometry : Geometry v limit) {sectors : Nat → Buffer} {parentCl fuel : Nat}
    {chain : List Nat} (dir : DirChain v limit (view v limit sectors) parentCl chain)
    (enough : limit < fuel) (name11 : List UInt8) (attr : UInt8) (startClus sizeBytes : Nat) :
    Runs trouble (createDirEntry v fuel parentCl name11 attr startClus sizeBytes) sectors
      fun code sectors' =>
        code ≠ 0 ∧ sectors' = sectors ∧
          (trouble.Possible ∨ code = -1 ∧ ¬ HasRoom v (view v limit sectors) chain) ∨
        code = 0 ∧ ∃ slot,
          FirstFreeSlot (view v limit sectors) (chainSlots v chain) slot ∧
          view v limit sectors' = (view v limit sectors).write slot.cl slot.s
            (putDirent ((view v limit sectors).sector slot.cl slot.s) slot.off name11 attr
              startClus sizeBytes) := by
  apply (Runs.of_reading (dirFindFreeSlot_reads geometry dir enough)).bind
  intro found between outcome
  rcases outcome with ⟨rfl, failed, outcome, cause⟩
  rcases outcome with ⟨slot, first, rfl⟩ | ⟨none, rfl⟩
  · have place := mem_chainSlots.mp first.mem
    apply Runs.wr_bind
    · exact fun may => .pure (.inl ⟨by decide, rfl, .inl (.inr may)⟩)
    · refine .pure (.inr ⟨rfl, slot, first, ?_⟩)
      exact geometry.view_store between _ (dir.data slot.cl place.1) place.2.1
  · refine .pure (.inl ⟨by decide, rfl, ?_⟩)
    rcases none with failing | crowded
    · left
      left
      by_contra healthy
      rw [cause (by simpa using healthy)] at failing
      simp at failing
    · right
      refine ⟨rfl, fun room => ?_⟩
      rcases room with ⟨slot, member, free⟩
      exact crowded slot member free

theorem createDirEntry_healthy {v : Vol} {limit : Nat} (geometry : Geometry v limit)
    {sectors : Nat → Buffer} {parentCl fuel : Nat} {chain : List Nat}
    (dir : DirChain v limit (view v limit sectors) parentCl chain) (enough : limit < fuel)
    (name11 : List UInt8) (attr : UInt8) (startClus sizeBytes : Nat) :
    ¬ HasRoom v (view v limit sectors) chain ∧
      createDirEntry v fuel parentCl name11 attr startClus sizeBytes
        (Device.healthy sectors) = some (-1, Device.healthy sectors) ∨
    ∃ slot sectors', FirstFreeSlot (view v limit sectors) (chainSlots v chain) slot ∧
      createDirEntry v fuel parentCl name11 attr startClus sizeBytes
        (Device.healthy sectors) = some (0, Device.healthy sectors') ∧
      view v limit sectors' = (view v limit sectors).write slot.cl slot.s
        (putDirent ((view v limit sectors).sector slot.cl slot.s) slot.off name11 attr
          startClus sizeBytes) := by
  rcases (createDirEntry_runs geometry dir enough name11 attr startClus sizeBytes).healthy with
    ⟨code, sectors', ran, ⟨_, rfl, impossible | ⟨rfl, crowded⟩⟩ | ⟨rfl, slot, first, written⟩⟩
  · simp [Trouble.Possible] at impossible
  · exact .inl ⟨crowded, ran⟩
  · exact .inr ⟨slot, sectors', first, ran, written⟩

/-- A new entry for the one-cluster chain of `target`, found by its name unless
that starts with the mark of a deleted entry. -/
structure Added (v : Vol) (limit : Nat) (store store' : ClusterStore) (dirCl : Nat)
    (chain : List Nat) (slot : Slot) (name11 : List UInt8) (attr : UInt8)
    (target size : Nat) : Prop where
  frame : ∀ except, Frame v limit store store' except
  new : ¬ Live v store (some slot)
  name : direntName (entryAt store' slot) = name11
  attr : entryAt store' slot 11 = attr
  start : direntStartCluster (entryAt store' slot) = target
  size : (entryAt store' slot).getU32 28 = size % 4294967296
  holds : Chain limit store' target [target]
  links : store'.next = store.next
  sector : store'.sector target = store.sector target
  found : LiveDir v limit store dirCl chain → name11.getD 0 0 ≠ 0xE5 →
    FirstMatch name11 store' (chainSlots v chain) slot
  lost : ¬ LiveDir v limit store dirCl chain ∨ name11.getD 0 0 = 0xE5 →
    Unowned v limit store' target

theorem Added.of_write {v : Vol} {limit : Nat} {store : ClusterStore} {dirCl target : Nat}
    {chain : List Nat} {slot : Slot} {name11 : List UInt8} (attr : UInt8) (size : Nat)
    (owned : Owned v limit store) (walking : Walking v limit store dirCl chain)
    (firstFree : FirstFreeSlot store (chainSlots v chain) slot)
    (absent : ∀ other, ¬ FirstMatch name11 store (chainSlots v chain) other)
    (length : name11.length = 11) (notEnd : name11.getD 0 0 ≠ 0)
    (notLong : attr ≠ attrLongName) (small : target < 4294967296)
    (holds : Chain limit store target [target]) (occupied : target ≠ 0)
    (unowned : Unowned v limit store target) (outside : target ∉ chain)
    (barren : attr &&& attrDir ≠ 0 →
      ∀ other ∈ chainSlots v [target], ¬ Listed (entryAt store other)) :
    Added v limit store (store.write slot.cl slot.s
      (putDirent (store.sector slot.cl slot.s) slot.off name11 attr target size))
      dirCl chain slot name11 attr target size := by
  have place := mem_chainSlots.mp firstFree.mem
  have elsewhere : target ≠ slot.cl := fun equal => outside (equal ▸ place.1)
  generalize content : putDirent (store.sector slot.cl slot.s) slot.off name11 attr target
    size = sec
  have new := entryAt_write_same store slot sec
  have newName : direntName (direntAt sec slot.off) = name11 := by
    rw [← content]
    exact putDirent_name length
  have newAttr : direntAt sec slot.off 11 = attr := by
    rw [← content]
    exact putDirent_attr
  have newStart : direntStartCluster (direntAt sec slot.off) = target := by
    rw [← content]
    exact putDirent_start small
  have newSize : (direntAt sec slot.off).getU32 28 = size % 4294967296 := by
    rw [← content]
    exact putDirent_size
  have newFirst : direntAt sec slot.off 0 = name11.getD 0 0 := by
    rw [← newName, direntName_head]
  have window : ∀ index, index < slot.off ∨ slot.off + 32 ≤ index →
      sec index = store.sector slot.cl slot.s index := by
    intro index apart
    rw [← content]
    exact putDirent_outside apart
  have holds' : Chain limit (store.write slot.cl slot.s sec) target [target] :=
    holds.congr fun _ _ => rfl
  have sector : (store.write slot.cl slot.s sec).sector target = store.sector target := by
    funext index
    exact ClusterStore.write_sector_other (.inl elsewhere)
  have dead : ¬ Live v store (some slot) := fun live =>
    (owned.placed_of_live live).2.1.not_free firstFree.free
  rcases walking with dir | waste
  · have change : Change v limit store (store.write slot.cl slot.s sec) slot := by
      refine Change.fill owned dir firstFree.mem firstFree.free window ?_ ?_ newStart holds
        occupied unowned ?_
      · rw [newName]
        exact absent
      · rw [newFirst]
        exact notEnd
      · intro isDir
        rw [direntIsDir, newAttr] at isDir
        exact barren (by simpa using isDir)
    refine ⟨change.frame_of_not_live owned dead, dead, by rw [new, newName],
      by rw [new, newAttr], by rw [new, newStart], by rw [new, newSize], holds', rfl, sector,
      ?_, ?_⟩
    · intro _ visible
      refine FirstMatch.of_filled firstFree absent ?_ (chainSlots_nodup dir.dirChain.linked.nodup)
        ⟨?_, ?_⟩
      · intro other member different
        exact entryAt_write_other place.2.2 (mem_chainSlots.mp member).2.2 window different
      · rw [new]
        refine ⟨?_, ?_, ?_⟩
        · rw [newFirst]
          exact notEnd
        · rw [newFirst]
          exact visible
        · rw [newAttr]
          exact notLong
      · rw [new, newName]
    · intro hidden
      apply change.unowned owned unowned
      intro _ listed
      rcases hidden with noDir | deleted
      · exact absurd dir noDir
      · rw [new] at listed
        exact absurd (newFirst.trans deleted) listed.1.2.1
  · have change : Change v limit store (store.write slot.cl slot.s sec) Change.nowhere := by
      refine Change.idle owned (show ∀ cl, cl ∈ chain → _ from waste.unowned) (fun _ _ => rfl) ?_
      intro cl notMember
      funext index
      exact ClusterStore.write_sector_other (.inl fun equal => notMember (equal ▸ place.1))
    have deadNowhere : ¬ Live v store (some Change.nowhere) := fun live =>
      Change.nowhere_not_placed (owned.placed_of_live live).1
    refine ⟨change.frame_of_not_live owned deadNowhere, dead, by rw [new, newName],
      by rw [new, newAttr], by rw [new, newStart], by rw [new, newSize], holds', rfl, sector,
      ?_, ?_⟩
    · intro dir
      exact absurd (waste.unowned slot.cl place.1) (dir.not_unowned place.1)
    · intro _
      exact change.unowned owned unowned fun placed =>
        absurd placed Change.nowhere_not_placed

/-- A new directory that is found is in use. -/
theorem Added.liveDir {v : Vol} {limit : Nat} {store store' : ClusterStore}
    {dirCl target size : Nat} {chain : List Nat} {slot : Slot} {comp : List UInt8}
    (added : Added v limit store store' dirCl chain slot (makeName83 comp) attrDir target size)
    (occupied : target ≠ 0) (dir : LiveDir v limit store dirCl chain)
    (visible : (makeName83 comp).getD 0 0 ≠ 0xE5) :
    LiveDir v limit store' target [target] := by
  have found := added.found dir visible
  have placed : Placed v limit store' slot :=
    ⟨dirCl, chain, (added.frame slot).dirs dirCl chain dir, found.mem⟩
  refine ⟨⟨some slot, placed.live found.matched.listed, ?_, added.start⟩, occupied,
    added.holds⟩
  rw [OwnerIsDir, direntIsDir, added.attr]
  decide

/-! ## Directories -/

/-- The clusters of a new directory: the dot entries, then zeros. -/
def storeDots (v : Vol) (store : ClusterStore) (newCl parentCl : Nat) : ClusterStore :=
  (store.write newCl 0 (dotSector newCl parentCl)).writeRun newCl 1 (v.secPerClus - 1)
    fun index => pieces v [] (index - 1)

theorem storeDots_unlisted {v : Vol} (store : ClusterStore) (newCl parentCl : Nat) :
    ∀ slot ∈ chainSlots v [newCl],
      ¬ Listed (entryAt (storeDots v store newCl parentCl) slot) := by
  intro slot member
  rcases mem_chainSlots.mp member with ⟨inChain, inside, aligned⟩
  rw [List.mem_singleton] at inChain
  by_cases first : slot.s = 0
  · rw [entryAt, storeDots, ClusterStore.writeRun_sector_outside (by omega), inChain, first,
      ClusterStore.write_sector_same]
    exact dotSector_unlisted newCl parentCl (mem_slotOffsets.mp aligned).1
  · rw [entryAt, storeDots, inChain,
      ClusterStore.writeRun_sector_inside (by omega) (by omega)]
    apply blank_unlisted
    intro index
    simp [pieces, Buffer.ofList]

theorem storeDots_other (v : Vol) (store : ClusterStore) {newCl cl : Nat} (parentCl : Nat)
    (different : cl ≠ newCl) :
    (storeDots v store newCl parentCl).sector cl = store.sector cl := by
  funext index
  rw [storeDots, ClusterStore.writeRun_sector_outside (.inl different),
    ClusterStore.write_sector_other (.inl different)]

/-- A directory has been created in a free slot. The walk goes on in it, and it
is found from now on. -/
structure DirMade (v : Vol) (store store' : ClusterStore) (dirCl : Nat) (chain : List Nat)
    (comp : List UInt8) (newCl : Nat) : Prop where
  claimed : Claimed v store store' newCl
  room : HasRoom v store chain
  walking : Walking v v.clusterLimit store' newCl [newCl]
  unlisted : ∀ slot ∈ chainSlots v [newCl], ¬ Listed (entryAt store' slot)
  roomy : HasRoom v store' [newCl]
  found : LiveDir v v.clusterLimit store dirCl chain → comp.head? ≠ some 0xE5 →
    LiveDir v v.clusterLimit store' newCl [newCl] ∧
      ∃ slot, FirstMatch (makeName83 comp) store' (chainSlots v chain) slot ∧
        direntIsDir (entryAt store' slot) = true ∧
        direntStartCluster (entryAt store' slot) = newCl

/-- What `makeDirectory` returns, and when. -/
inductive Making (v : Vol) (sectors sectors' : Nat → Buffer) (dirCl : Nat) (chain : List Nat)
    (comp : List UInt8) : Int → Nat → Prop
  | full : NoneFree v (view v v.clusterLimit sectors) → sectors' = sectors →
      Making v sectors sectors' dirCl chain comp (-3) 0
  /-- The cluster of the directory that could not be entered stays claimed. -/
  | crowded {target} :
      Claimed v (view v v.clusterLimit sectors) (view v v.clusterLimit sectors') target →
      ¬ HasRoom v (view v v.clusterLimit sectors) chain →
      Making v sectors sectors' dirCl chain comp (-5) 0
  | made {newCl} : DirMade v (view v v.clusterLimit sectors) (view v v.clusterLimit sectors')
      dirCl chain comp newCl → Making v sectors sectors' dirCl chain comp 0 newCl

/-- A new directory has room behind its dot entries. -/
theorem storeDots_roomy {v : Vol} (shape : Fat32Geometry v) (store : ClusterStore)
    (newCl parentCl : Nat) : HasRoom v (storeDots v store newCl parentCl) [newCl] := by
  have offset : 64 ∈ slotOffsets v := by
    rw [mem_slotOffsets, shape.sector_size]
    exact ⟨by decide, by decide⟩
  have blank : dotSector newCl parentCl 64 = 0 := by
    rw [dotSector, putDirent_outside (.inr (by decide)), putDirent_outside (.inr (by decide))]
  have first : (storeDots v store newCl parentCl).sector newCl 0 = dotSector newCl parentCl := by
    rw [storeDots, ClusterStore.writeRun_sector_outside (by omega),
      ClusterStore.write_sector_same]
  refine ⟨⟨newCl, 0, 64⟩, mem_chainSlots.mpr ⟨by simp, shape.geometry.cluster_pos, offset⟩,
    .inl ?_⟩
  rw [entryAt, first, direntAt_lt (by decide)]
  exact blank

theorem makeDirectory_spec {v : Vol} (shape : Fat32Geometry v) {sectors : Nat → Buffer}
    {dirCl fuel : Nat} {chain : List Nat} {comp : List UInt8}
    (enough : v.clusterLimit < fuel)
    (owned : Owned v v.clusterLimit (view v v.clusterLimit sectors))
    (walking : Walking v v.clusterLimit (view v v.clusterLimit sectors) dirCl chain)
    (nonempty : comp ≠ []) (nulFree : ∀ char ∈ comp, char ≠ 0)
    (absent : ∀ slot, ¬ FirstMatch (makeName83 comp) (view v v.clusterLimit sectors)
      (chainSlots v chain) slot) :
    ∃ result nextCl sectors',
      makeDirectory v fuel dirCl (makeName83 comp) (Device.healthy sectors) =
        some ((result, nextCl), Device.healthy sectors') ∧
      (∀ except, Frame v v.clusterLimit (view v v.clusterLimit sectors)
        (view v v.clusterLimit sectors') except) ∧
      Making v sectors sectors' dirCl chain comp result nextCl := by
  have geometry := shape.geometry
  rcases fatAllocFreeCluster_spec shape sectors with
    ⟨full, ran⟩ | ⟨target, claimed, allocated, fresh, below, view1⟩
  · refine ⟨-3, 0, sectors, ?_, Frame.refl owned, .full full rfl⟩
    rw [makeDirectory, DiskM.bind_run ran]
    rfl
  have targetData := fresh.data
  have small : target < 4294967296 := by
    have running := fresh.running
    rw [endOfChain_iff] at running
    omega
  have dotsView := geometry.view_store claimed (dotSector target dirCl) targetData
    geometry.cluster_pos
  rcases writeSectors_healthy geometry
    (store claimed (u32 (clusToLba v target + 0)) (dotSector target dirCl)) targetData
    (v.secPerClus - 1) 1 [] (by have := geometry.cluster_pos; omega) with ⟨zeroed, ran, view2⟩
  have view3 := geometry.view_setFatEntry zeroed eocMark targetData.2 fresh.running
  have content : view v v.clusterLimit (setFatEntry v zeroed target eocMark) =
      (storeDots v ((view v v.clusterLimit sectors).link target eocMark) target dirCl).link
        target eocMark := by
    rw [view3, view2, dotsView, view1]
    rfl
  generalize ready : setFatEntry v zeroed target eocMark = sectors2 at content
  have marked : Claimed v (view v v.clusterLimit sectors) (view v v.clusterLimit sectors2)
      target := by
    rw [content]
    exact .of_filled fresh below rfl
  have prepared : Prepared v v.clusterLimit (view v v.clusterLimit sectors)
      (view v v.clusterLimit sectors2) dirCl chain target := by
    apply Prepared.of_claimed owned walking marked
    intro cl different
    rw [content]
    exact storeDots_other v _ dirCl different
  have barren : ∀ slot ∈ chainSlots v [target],
      ¬ Listed (entryAt (view v v.clusterLimit sectors2) slot) := by
    rw [content]
    exact storeDots_unlisted _ target dirCl
  have roomy : HasRoom v (view v v.clusterLimit sectors2) [target] := by
    rw [content]
    exact storeDots_roomy shape _ target dirCl
  have owned2 := (prepared.frame Change.nowhere).owned
  rw [Nat.add_zero, u32_clusToLba] at ran
  rcases createDirEntry_healthy geometry prepared.walking.dirChain enough (makeName83 comp)
    attrDir target 0 with ⟨crowded, noSlot⟩ | ⟨slot, sectors', firstFree, created, view4⟩
  · refine ⟨-5, 0, sectors2, ?_, prepared.frame, .crowded marked ?_⟩
    · rw [makeDirectory, DiskM.bind_run allocated]
      simp [fresh.ne_zero, ran, ready, noSlot]
    · exact fun room => crowded (room.congr prepared.entries)
  · have added := Added.of_write attrDir 0 owned2 prepared.walking firstFree
      (prepared.absent absent) (makeName83_length comp)
      (makeName83_head_ne_zero nonempty nulFree) (by decide) small prepared.holds fresh.ne_zero
      prepared.unowned prepared.outside (fun _ => barren)
    rw [← view4] at added
    have sameEntry : ∀ other ∈ chainSlots v [target],
        entryAt (view v v.clusterLimit sectors') other =
          entryAt (view v v.clusterLimit sectors2) other := by
      intro other member
      have inTarget := (mem_chainSlots.mp member).1
      rw [List.mem_singleton] at inTarget
      rw [entryAt, entryAt, inTarget, added.sector]
    have unlisted : ∀ other ∈ chainSlots v [target],
        ¬ Listed (entryAt (view v v.clusterLimit sectors') other) := by
      intro other member
      rw [sameEntry other member]
      exact barren other member
    refine ⟨0, target, sectors', ?_, ?_,
      .made ⟨marked.congr added.links, ?_, ?_, unlisted, roomy.congr sameEntry, ?_⟩⟩
    · rw [makeDirectory, DiskM.bind_run allocated]
      simp [fresh.ne_zero, ran, ready, created]
    · exact fun except => (prepared.frame except).trans (added.frame except)
    · refine HasRoom.congr ⟨slot, firstFree.mem, firstFree.free⟩ fun other member => ?_
      exact (prepared.entries other member).symm
    · by_cases visible : LiveDir v v.clusterLimit (view v v.clusterLimit sectors2) dirCl chain ∧
          (makeName83 comp).getD 0 0 ≠ 0xE5
      · exact .inl (added.liveDir fresh.ne_zero visible.1 visible.2)
      · refine .inr ⟨⟨added.holds.linked fresh.ne_zero, fun _ => added.holds.inside⟩, ?_,
          unlisted⟩
        intro cl member
        rw [List.mem_singleton] at member
        subst member
        apply added.lost
        by_contra neither
        exact visible (by simpa [not_or] using neither)
    · intro dir shown
      have dir2 := (prepared.frame Change.nowhere).dirs dirCl chain dir
      have visible : (makeName83 comp).getD 0 0 ≠ 0xE5 := by
        rw [Ne, makeName83_head_deleted nonempty]
        exact shown
      refine ⟨added.liveDir fresh.ne_zero dir2 visible, slot,
        added.found dir2 visible, ?_, added.start⟩
      rw [direntIsDir, added.attr]
      decide

/-! ## Files -/

/-- The entry in a slot stands for a file with this data, as far as it fits
into one cluster. -/
structure Stored (v : Vol) (limit : Nat) (store : ClusterStore) (slot : Slot)
    (data : List UInt8) : Prop where
  file : ¬ OwnerIsDir store (some slot)
  size : (entryAt store slot).getU32 28 = min data.length v.clusterBytes
  occupied : ownerStart v store (some slot) ≠ 0
  content : ∃ chain, Chain limit store (ownerStart v store (some slot)) chain ∧
    (chainData v store chain).take (min data.length v.clusterBytes) =
      data.take v.clusterBytes

theorem Stored.of_storeData {v : Vol} (shape : Fat32Geometry v) {limit target : Nat}
    {store : ClusterStore} {slot : Slot} {data : List UInt8}
    (file : ¬ OwnerIsDir store (some slot))
    (size : (entryAt store slot).getU32 28 =
      min data.length (v.secPerClus * v.bytesPerSec) % 4294967296)
    (start : direntStartCluster (entryAt store slot) = target) (occupied : target ≠ 0)
    (holds : Chain limit store target [target]) (before : ClusterStore)
    (same : store.sector target = (storeData v before target data).sector target) :
    Stored v limit store slot data := by
  have clusterSize : v.clusterBytes = v.secPerClus * v.bytesPerSec := Nat.mul_comm _ _
  have small : v.secPerClus * v.bytesPerSec < 4294967296 := by
    have bound := shape.cluster_small
    rw [shape.sector_size]
    omega
  refine ⟨file, ?_, ?_, [target], ?_, ?_⟩
  · rw [size, Nat.mod_eq_of_lt (by omega), clusterSize]
  · rw [ownerStart, start]
    exact occupied
  · rw [ownerStart, start]
    exact holds
  · rw [clusterSize, chainData_storeData_take v before store target data same (by omega)
      (by omega), Nat.min_comm, ← List.take_eq_take_min]

/-- What `createFile` returns, and when. -/
inductive Creating (v : Vol) (sectors sectors' : Nat → Buffer) (dirCl : Nat) (chain : List Nat)
    (comp data : List UInt8) : Int → Prop
  | full : NoneFree v (view v v.clusterLimit sectors) → sectors' = sectors →
      Creating v sectors sectors' dirCl chain comp data (-5)
  /-- The cluster of the file that could not be entered stays claimed. -/
  | crowded {target} :
      Claimed v (view v v.clusterLimit sectors) (view v v.clusterLimit sectors') target →
      ¬ HasRoom v (view v v.clusterLimit sectors) chain →
      Creating v sectors sectors' dirCl chain comp data (-9)
  | created {slot} : Claimed v (view v v.clusterLimit sectors) (view v v.clusterLimit sectors')
        (ownerStart v (view v v.clusterLimit sectors') (some slot)) →
      HasRoom v (view v v.clusterLimit sectors) chain →
      ¬ Live v (view v v.clusterLimit sectors) (some slot) →
      Stored v v.clusterLimit (view v v.clusterLimit sectors') slot data →
      direntName (entryAt (view v v.clusterLimit sectors') slot) = makeName83 comp →
      (LiveDir v v.clusterLimit (view v v.clusterLimit sectors) dirCl chain →
        comp.head? ≠ some 0xE5 →
        FirstMatch (makeName83 comp) (view v v.clusterLimit sectors') (chainSlots v chain) slot) →
      Creating v sectors sectors' dirCl chain comp data 0

theorem createFile_spec {v : Vol} (shape : Fat32Geometry v) {sectors : Nat → Buffer}
    {dirCl fuel : Nat} {chain : List Nat} {comp : List UInt8} (data : List UInt8)
    (enough : v.clusterLimit < fuel)
    (owned : Owned v v.clusterLimit (view v v.clusterLimit sectors))
    (walking : Walking v v.clusterLimit (view v v.clusterLimit sectors) dirCl chain)
    (nonempty : comp ≠ []) (nulFree : ∀ char ∈ comp, char ≠ 0)
    (absent : ∀ slot, ¬ FirstMatch (makeName83 comp) (view v v.clusterLimit sectors)
      (chainSlots v chain) slot) :
    ∃ code sectors',
      createFile v fuel dirCl (makeName83 comp) data (Device.healthy sectors) =
        some (code, Device.healthy sectors') ∧
      (∀ except, Frame v v.clusterLimit (view v v.clusterLimit sectors)
        (view v v.clusterLimit sectors') except) ∧
      Creating v sectors sectors' dirCl chain comp data code := by
  have geometry := shape.geometry
  rcases fatAllocFreeCluster_spec shape sectors with
    ⟨full, ran⟩ | ⟨target, claimed, allocated, fresh, below, view1⟩
  · refine ⟨-5, sectors, ?_, Frame.refl owned, .full full rfl⟩
    rw [createFile, DiskM.bind_run ran]
    rfl
  have small : target < 4294967296 := by
    have running := fresh.running
    rw [endOfChain_iff] at running
    omega
  rcases writeSingleCluster_healthy geometry claimed fresh.data fresh.running data with
    ⟨sectors2, written, view2⟩
  rw [view1] at view2
  have marked : Claimed v (view v v.clusterLimit sectors) (view v v.clusterLimit sectors2)
      target := by
    rw [view2]
    exact .of_filled fresh below rfl
  have prepared : Prepared v v.clusterLimit (view v v.clusterLimit sectors)
      (view v v.clusterLimit sectors2) dirCl chain target := by
    apply Prepared.of_claimed owned walking marked
    intro cl different
    rw [view2]
    funext index
    exact ClusterStore.writeRun_sector_outside (.inl different)
  have owned2 := (prepared.frame Change.nowhere).owned
  rcases createDirEntry_healthy geometry prepared.walking.dirChain enough (makeName83 comp)
    attrArchive target (min data.length (v.secPerClus * v.bytesPerSec)) with
    ⟨crowded, noSlot⟩ | ⟨slot, sectors', firstFree, created, view3⟩
  · refine ⟨-9, sectors2, ?_, prepared.frame, .crowded marked ?_⟩
    · rw [createFile, DiskM.bind_run allocated]
      simp [fresh.ne_zero, written, noSlot]
    · exact fun room => crowded (room.congr prepared.entries)
  · have added := Added.of_write attrArchive (min data.length (v.secPerClus * v.bytesPerSec))
      owned2 prepared.walking firstFree
      (prepared.absent absent) (makeName83_length comp)
      (makeName83_head_ne_zero nonempty nulFree) (by decide) small prepared.holds fresh.ne_zero
      prepared.unowned prepared.outside (fun isDir => absurd rfl isDir)
    rw [← view3] at added
    have start : ownerStart v (view v v.clusterLimit sectors') (some slot) = target := added.start
    refine ⟨0, sectors', ?_, ?_, .created ?_ ?_ ?_ ?_ added.name ?_⟩
    · rw [createFile, DiskM.bind_run allocated]
      simp [fresh.ne_zero, written, created]
    · exact fun except => (prepared.frame except).trans (added.frame except)
    · rw [start]
      exact marked.congr added.links
    · refine HasRoom.congr ⟨slot, firstFree.mem, firstFree.free⟩ fun other member => ?_
      exact (prepared.entries other member).symm
    · exact fun live => added.new (prepared.alive _ live)
    · apply Stored.of_storeData shape _ added.size added.start fresh.ne_zero added.holds
        ((view v v.clusterLimit sectors).link target eocMark)
      · rw [added.sector, view2]
        rfl
      · rw [OwnerIsDir, direntIsDir, added.attr]
        decide
    · intro dir shown
      apply added.found ((prepared.frame Change.nowhere).dirs dirCl chain dir)
      rw [Ne, makeName83_head_deleted nonempty]
      exact shown

theorem targetCluster_spec {v : Vol} (shape : Fat32Geometry v) {sectors : Nat → Buffer}
    (owned : Owned v v.clusterLimit (view v v.clusterLimit sectors)) {slot : Slot}
    (live : Live v (view v v.clusterLimit sectors) (some slot)) :
    targetCluster v (ownerStart v (view v v.clusterLimit sectors) (some slot))
        (Device.healthy sectors) = some (0, Device.healthy sectors) ∨
    ∃ target claimed,
      targetCluster v (ownerStart v (view v v.clusterLimit sectors) (some slot))
        (Device.healthy sectors) = some (target, Device.healthy claimed) ∧
      DataCluster v.clusterLimit target ∧ ¬ EndOfChain target ∧
      (ownerStart v (view v v.clusterLimit sectors) (some slot) = target ∨
        Unowned v v.clusterLimit (view v v.clusterLimit sectors) target) ∧
      (ownerStart v (view v v.clusterLimit sectors) (some slot) ≠ 0 →
        ownerStart v (view v v.clusterLimit sectors) (some slot) = target) ∧
      (∀ cl, cl ≠ target → (view v v.clusterLimit claimed).next cl =
        (view v v.clusterLimit sectors).next cl) ∧
      (view v v.clusterLimit claimed).sector = (view v v.clusterLimit sectors).sector := by
  by_cases vacant : ownerStart v (view v v.clusterLimit sectors) (some slot) = 0
  · rw [targetCluster, if_pos vacant]
    rcases fatAllocFreeCluster_spec shape sectors with
      ⟨_, ran⟩ | ⟨target, claimed, allocated, fresh, _, view1⟩
    · exact .inl ran
    · refine .inr ⟨target, claimed, allocated, fresh.data, fresh.running,
        .inr (unowned_of_free fresh.free), fun occupied => absurd vacant occupied, ?_, ?_⟩
      · intro cl different
        rw [view1]
        exact ClusterStore.link_next_other different
      · rw [view1]
        rfl
  · rw [targetCluster, if_neg vacant]
    rcases owned.tenancy.held (some slot) live with ⟨chain, holds⟩
    have first := holds.start_mem vacant
    exact .inr ⟨_, sectors, rfl, holds.inside first, holds.not_stop first, .inl rfl,
      fun _ => rfl, fun _ _ => rfl, rfl⟩

/-! ## Overwriting -/

section

variable {v : Vol} {before middle after : ClusterStore} {slot : Slot} {target size : Nat}
  (untouched : ∀ cl index, cl ≠ target → middle.sector cl index = before.sector cl index)
  (elsewhere : slot.cl ≠ target)
  (written : after = middle.write slot.cl slot.s
    (updateDirent (middle.sector slot.cl slot.s) slot.off target size))
include untouched elsewhere written

/-- The entry that is written over the one read back from the device. -/
theorem entryAt_updated : entryAt after slot =
    direntAt (updateDirent (before.sector slot.cl slot.s) slot.off target size) slot.off := by
  rw [written, entryAt_write_same, untouched slot.cl slot.s elsewhere]

theorem updated_name : direntName (entryAt after slot) = direntName (entryAt before slot) := by
  rw [entryAt_updated untouched elsewhere written, updateDirent_name]
  rfl

theorem updated_attr : entryAt after slot 11 = entryAt before slot 11 := by
  rw [entryAt_updated untouched elsewhere written, updateDirent_attr]
  rfl

omit elsewhere in
/-- The entries of other slots stay. -/
theorem entryAt_updated_other (aligned : slot.off ∈ slotOffsets v) {other : Slot}
    (aligned' : other.off ∈ slotOffsets v) (different : other ≠ slot) (apart : other.cl ≠ target) :
    entryAt after other = entryAt before other := by
  rw [written, entryAt_write_other aligned aligned' _ different, entryAt, entryAt,
    untouched other.cl other.s apart]
  intro index outside
  exact updateDirent_outside (by omega)

omit untouched elsewhere written in
/-- What was found in a slot is found in it as long as its name and attributes stay. -/
theorem FirstMatch.updated {want : List UInt8} {slots : List Slot}
    (first : FirstMatch want before slots slot)
    (entries : ∀ other ∈ slots, other ≠ slot → entryAt after other = entryAt before other)
    (name : direntName (entryAt after slot) = direntName (entryAt before slot))
    (attr : entryAt after slot 11 = entryAt before slot 11) :
    FirstMatch want after slots slot := by
  have head : entryAt after slot 0 = entryAt before slot 0 := by
    rw [← direntName_head (entryAt after slot), name, direntName_head]
  apply first.preserved
  · intro other member passed
    by_cases same : other = slot
    · subst same
      exact absurd first.matched passed.2
    · rw [entries other member same]
      exact passed
  · refine ⟨?_, name.trans first.matched.2⟩
    simp only [InUse, head, attr]
    exact first.matched.1

end

/-- What `overwriteFile` returns: a refusal changes nothing. -/
inductive Overwriting (v : Vol) (sectors sectors' : Nat → Buffer) (slot : Slot)
    (data : List UInt8) : Int → Prop
  | refused {code} : code ≠ 0 → sectors' = sectors → Overwriting v sectors sectors' slot data code
  | stored : ¬ OwnerIsDir (view v v.clusterLimit sectors) (some slot) →
      Stored v v.clusterLimit (view v v.clusterLimit sectors') slot data →
      direntName (entryAt (view v v.clusterLimit sectors') slot) =
        direntName (entryAt (view v v.clusterLimit sectors) slot) →
      (∀ cl, cl ≠ ownerStart v (view v v.clusterLimit sectors') (some slot) →
        (view v v.clusterLimit sectors').next cl = (view v v.clusterLimit sectors).next cl) →
      (ownerStart v (view v v.clusterLimit sectors) (some slot) ≠ 0 →
        ownerStart v (view v v.clusterLimit sectors') (some slot) =
          ownerStart v (view v v.clusterLimit sectors) (some slot)) →
      (∀ want dirCl chain, LiveDir v v.clusterLimit (view v v.clusterLimit sectors) dirCl chain →
        FirstMatch want (view v v.clusterLimit sectors) (chainSlots v chain) slot →
        FirstMatch want (view v v.clusterLimit sectors') (chainSlots v chain) slot) →
      Overwriting v sectors sectors' slot data 0

theorem overwriteFile_spec {v : Vol} (shape : Fat32Geometry v) {sectors : Nat → Buffer}
    (owned : Owned v v.clusterLimit (view v v.clusterLimit sectors)) {slot : Slot}
    (live : Live v (view v v.clusterLimit sectors) (some slot)) (data : List UInt8) :
    ∃ code sectors',
      overwriteFile v (hitAt v (view v v.clusterLimit sectors) slot) data
        (Device.healthy sectors) = some (code, Device.healthy sectors') ∧
      Frame v v.clusterLimit (view v v.clusterLimit sectors)
        (view v v.clusterLimit sectors') slot ∧
      Overwriting v sectors sectors' slot data code := by
  have geometry := shape.geometry
  by_cases file : OwnerIsDir (view v v.clusterLimit sectors) (some slot)
  · refine ⟨-4, sectors, ?_, Frame.refl owned slot, .refused (by decide) rfl⟩
    have isDir : direntIsDir (hitAt v (view v v.clusterLimit sectors) slot).de = true := file
    rw [overwriteFile, if_pos isDir]
    rfl
  have notDir : ¬ direntIsDir (hitAt v (view v v.clusterLimit sectors) slot).de = true := file
  rcases targetCluster_spec shape owned live with
    full | ⟨target, claimed, allocated, targetData, running, targetCases, kept, links1, sectors1⟩
  · refine ⟨-5, sectors, ?_, Frame.refl owned slot, .refused (by decide) rfl⟩
    rw [overwriteFile, if_neg notDir]
    exact DiskM.bind_run full
  have occupied : target ≠ 0 := by
    have lower := targetData.1
    omega
  have small : target < 4294967296 := by
    rw [endOfChain_iff] at running
    omega
  rcases writeSingleCluster_healthy geometry claimed targetData running data with
    ⟨sectors2, written, view2⟩
  rcases owned.placed_of_live live with ⟨placed, _⟩
  have slotData := placed.data
  rcases id placed with ⟨_, _, _, slotMember⟩
  have place := mem_chainSlots.mp slotMember
  have elsewhere := Change.target_not_placed owned live file targetCases occupied placed
  -- the directory sector that is read back has not been touched
  have untouched : ∀ cl index, cl ≠ target → (view v v.clusterLimit sectors2).sector cl index =
      (view v v.clusterLimit sectors).sector cl index := by
    intro cl index different
    rw [view2, ClusterStore.link_sector, storeData,
      ClusterStore.writeRun_sector_outside (.inl different), sectors1]
  have readBack := geometry.sector_eq sectors2 slotData place.2.1
  have view3 := geometry.view_store sectors2
    (updateDirent ((view v v.clusterLimit sectors2).sector slot.cl slot.s) slot.off target
      (min data.length (v.secPerClus * v.bytesPerSec))) slotData place.2.1
  generalize final : store sectors2 (u32 (clusToLba v slot.cl + slot.s))
    (updateDirent ((view v v.clusterLimit sectors2).sector slot.cl slot.s) slot.off target
      (min data.length (v.secPerClus * v.bytesPerSec))) = sectors3 at view3
  have newEntry := entryAt_updated untouched elsewhere view3
  have name := updated_name untouched elsewhere view3
  have attr := updated_attr untouched elsewhere view3
  have otherEntries : ∀ other, Placed v v.clusterLimit (view v v.clusterLimit sectors) other →
      other ≠ slot → other.cl ≠ target →
      entryAt (view v v.clusterLimit sectors3) other =
        entryAt (view v v.clusterLimit sectors) other := by
    rintro other ⟨_, _, _, otherMember⟩ different apart
    exact entryAt_updated_other untouched view3 place.2.2 (mem_chainSlots.mp otherMember).2.2
      different apart
  have start : direntStartCluster (entryAt (view v v.clusterLimit sectors3) slot) = target := by
    rw [newEntry, updateDirent_start small]
  have marked : (view v v.clusterLimit sectors3).next target = eocMark := by
    rw [view3, view2]
    simp
  have holds : Chain v.clusterLimit (view v v.clusterLimit sectors3) target [target] := by
    refine .chain occupied running (.single running ?_) ?_
    · rw [marked]
      exact endOfChain_eocMark
    · intro cl member
      rw [List.mem_singleton] at member
      exact member ▸ targetData
  have links : ∀ cl, cl ≠ target → (view v v.clusterLimit sectors3).next cl =
      (view v v.clusterLimit sectors).next cl := by
    intro cl different
    rw [view3, view2, ClusterStore.write_next, ClusterStore.link_next_other different]
    exact links1 cl different
  have change : Change v v.clusterLimit (view v v.clusterLimit sectors)
      (view v v.clusterLimit sectors3) slot := by
    refine Change.overwrite owned live file targetCases occupied links ?_ otherEntries name attr
      start holds
    · intro cl index different apart
      rw [view3, ClusterStore.write_sector_other (by omega), untouched cl index different]
  have sameStart : ownerStart v (view v v.clusterLimit sectors3) (some slot) = target := start
  refine ⟨0, sectors3, ?_, change.frame owned, .stored file ?_ name ?_ ?_ ?_⟩
  · rw [overwriteFile, if_neg notDir]
    refine (DiskM.bind_run allocated).trans ?_
    rw [if_neg occupied, DiskM.bind_run written]
    simp only [hitAt, updateDirent] at final ⊢
    simp [readBack, final]
  · apply Stored.of_storeData shape _ _ start occupied holds (view v v.clusterLimit claimed)
    · rw [view3, view2]
      funext index
      rw [ClusterStore.write_sector_other (.inl (Ne.symm elsewhere))]
      rfl
    · simpa [OwnerIsDir, direntIsDir, attr] using file
    · rw [newEntry, updateDirent_size]
  · rw [sameStart]
    exact links
  · intro occupiedBefore
    rw [sameStart]
    exact (kept occupiedBefore).symm
  · intro want dirCl chain dir first
    refine first.updated (fun other member different => ?_) name attr
    exact change.entries other ⟨dirCl, chain, dir, member⟩ different

end ParanOS

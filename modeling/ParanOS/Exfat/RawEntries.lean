import ParanOS.Exfat.Neighbours
import ParanOS.Exfat.Interrupted
import ParanOS.Exfat.Noting

/-! # What stays in the table of an exFAT volume

The driver reads and writes table entries as those of FAT32: of the 32 bits of an entry
it reads the low 28 and keeps the others, and it ends a chain with `0x0FFFFFFF`. Over any
sequence of calls the low bits of each entry stay a link that can be read, also when an
entry set is longer than a cluster. Such a set is lost, and its rest hides sets of the
next cluster on the device.
-/

namespace ParanOS

open Foundation
open ExfatOwner (LiveAt)

/-! ## Sets that a longer one hides -/

/-- No set can be parsed in the clusters. -/
def NoSets (v : Vol) (store : ClusterStore) (chain : List Nat) : Prop :=
  ∀ place ∈ chainPlaces v chain, ¬ IsSet v store place

/-- A set longer than its cluster has been written over the cluster and the beginning of
the one behind it. -/
structure Spilled (v : Vol) (store store' : ClusterStore) (cl total : Nat) (set : Buffer) :
    Prop where
  next : store'.next = store.next
  others : ∀ other, other ≠ cl → other ≠ cl + 1 → store'.sector other = store.sector other
  first : body v store' cl = (body v store cl).copy 0 (v.slots * 32) (sealed set total)
  rest : body v store' (cl + 1) = (body v store (cl + 1)).copy 0 ((total - v.slots) * 32)
    fun index => sealed set total (v.clusterBytes + index)

/-- A directory that a walk has come to: one in use, or a new one whose set is lost. -/
inductive Standing (v : Vol) (store : ClusterStore) (start : Nat) (chain : List Nat) : Prop
  | listed {depth owner} : DirAt v store depth owner chain → owner.start v store = start →
      Standing v store start chain
  | unlisted : start ≠ 0 → Chain (v.exfatClusterCount + 2) store start chain →
      (∀ cl ∈ chain, Vacant v store cl) → NoSets v store chain → Standing v store start chain

/-- A directory of a walk, and clusters for a new entry of it that nobody holds yet. -/
structure Provided (v : Vol) (bitmap : List Nat) (store : ClusterStore) (start : Nat)
    (chain : List Nat) (isDir : Bool) (first : Nat) (members : List Nat) : Prop where
  chained : Chained v store bitmap
  standing : Standing v store start chain
  holds : Chain (v.exfatClusterCount + 2) store first members
  vacant : ∀ cl ∈ members, Vacant v store cl
  apart : ∀ cl ∈ members, cl ∉ chain
  blank : isDir = true → first ≠ 0 ∧ Blank v store members

section

variable {v : Vol} (shape : ExfatGeometry v)
include shape

/-- Unused slots have no sets. -/
theorem NoSets.of_blank {store : ClusterStore} {chain : List Nat} (blank : Blank v store chain) :
    NoSets v store chain := by
  intro place member set
  have range := (mem_chainPlaces shape).mp member
  have file := (isSet_iff.mp set).1
  rw [blank place.cl range.1 place.off range.2.2] at file
  exact absurd file (by decide)

/-- The set itself cannot be parsed, and its rest has no slot in which a set begins. -/
theorem Spilled.set_back {store store' : ClusterStore} {cl first size : Nat} {isDir : Bool}
    {name : List UInt8}
    (spilled : Spilled v store store' cl (entriesFor name)
      (exfatBuildEntrySet name first size isDir))
    (nonempty : name ≠ []) (short : name.length ≤ 255) (more : v.slots < entriesFor name)
    {place : Place} (aligned : 32 ∣ place.off) (inside : place.off < v.clusterBytes)
    (set : IsSet v store' place) :
    IsSet v store place ∧ setStart v store' place = setStart v store place ∧
      setIsDir v store' place = setIsDir v store place := by
  have slots := shape.slots_eq
  have bounds := entriesFor_bounds nonempty short
  rcases aligned with ⟨slot, offset⟩
  have types := isSet_iff.mp set
  by_cases here : place.cl = cl
  · -- its own slots
    have written : ∀ index < v.slots * 32, body v store' cl index =
        builtSet name first size isDir index := by
      intro index below
      rw [spilled.first, Buffer.copy_inside (by omega) (by omega), Nat.sub_zero]
      rfl
    rw [here, offset] at types
    by_cases begin : slot = 0
    · have count := types.2.2.2.1
      rw [begin, Nat.mul_zero, Nat.zero_add, written 1 (by omega),
        builtSet_count _ _ _ _ short] at count
      omega
    · have type := types.1
      rw [written (32 * slot) (by omega), Nat.mul_comm] at type
      have later := @builtSet_later name first size slot isDir (by omega) (by omega)
      rw [type] at later
      exact absurd (by decide) later
  · by_cases behind : place.cl = cl + 1
    · by_cases covered : slot < entriesFor name - v.slots
      · have type := types.1
        have later := @builtSet_later name first size (v.slots + slot) isDir (by omega) (by omega)
        rw [behind, offset, spilled.rest, Buffer.copy_inside (by omega) (by omega),
          show v.clusterBytes + (32 * slot - 0) = (v.slots + slot) * 32 by omega] at type
        rw [show builtSet name first size isDir ((v.slots + slot) * 32) = exfatEntryFile from type]
          at later
        exact absurd (by decide) later
      · have kept : ∀ index < 64, body v store' place.cl (place.off + index) =
            body v store place.cl (place.off + index) := by
          intro index below
          rw [behind, spilled.rest, Buffer.copy_outside (by omega)]
        have same := IsSet.of_head kept
        exact ⟨same.1.mp set, same.2⟩
    · have same := @IsSet.congr v store store' place
        (body_congr (spilled.others place.cl here behind))
      exact ⟨same.1.mp set, same.2⟩

theorem Spilled.thinned {store store' : ClusterStore} {cl first size : Nat} {isDir : Bool}
    {name : List UInt8}
    (spilled : Spilled v store store' cl (entriesFor name)
      (exfatBuildEntrySet name first size isDir))
    (nonempty : name ≠ []) (short : name.length ≤ 255) (more : v.slots < entriesFor name) :
    Thinned v store store' where
  links := fun _ _ _ _ _ _ => by rw [spilled.next]
  sets := by
    intro owner chain live isDir holds place member set
    have range := (mem_chainPlaces shape).mp member
    exact spilled.set_back shape nonempty short more range.2.1 range.2.2 set

/-! ## Directories of a walk -/

theorem Chained.idle_kept {store store' : ClusterStore} {bitmap : List Nat}
    (chained : Chained v store bitmap) (kept : InUseKept bitmap store store') :
    Idle v store store' :=
  chained.idle shape (fun cl used lower => kept.next cl ⟨lower, used⟩)
    fun cl notBitmap used => kept.sector cl ⟨used, notBitmap⟩

namespace Standing

variable {store store' : ClusterStore} {start : Nat} {bitmap chain : List Nat}
  (standing : Standing v store start chain)
include standing

omit shape in
theorem occupied : start ≠ 0 := by
  cases standing with
  | listed dir same => exact same ▸ dir.occupied
  | unlisted occupied _ _ _ => exact occupied

omit shape in
theorem holds : Chain (v.exfatClusterCount + 2) store start chain := by
  cases standing with
  | listed dir same => exact same ▸ dir.holds
  | unlisted _ holds _ _ => exact holds

theorem outside (chained : Chained v store bitmap) {cl : Nat} (member : cl ∈ chain) :
    cl ∉ bitmap := by
  cases standing with
  | listed dir _ => exact chained.dir_outside shape dir member
  | unlisted _ _ vacant _ =>
      exact vacant cl member .bitmap bitmap ⟨0, .bitmap⟩ (chained.bitmap_holds shape)

/-- What leaves the clusters in use alone leaves the directory. -/
theorem kept (chained : Chained v store bitmap) (kept : InUseKept bitmap store store') :
    Standing v store' start chain := by
  have idle := chained.idle_kept shape kept
  cases standing with
  | listed dir same =>
      have starts := ((idle.kept _).liveAt shape chained.owned dir.live (Nat.le_refl _)).2.1
      exact .listed (idle.dirAt shape chained.owned dir) (starts.trans same)
  | unlisted occupied holds vacant none =>
      refine .unlisted occupied ?_ (fun cl member => idle.vacant shape chained.owned
        (vacant cl member)) ?_
      · apply holds.congr
        intro cl member
        exact kept.next cl ⟨(holds.inside member).1, chain_next_ne_zero holds member⟩
      · intro place member set
        have range := (mem_chainPlaces shape).mp member
        have outside := vacant place.cl range.1 .bitmap bitmap ⟨0, .bitmap⟩
          (chained.bitmap_holds shape)
        have same := @IsSet.congr v store store' place (body_congr
          (kept.sector place.cl ⟨chain_next_ne_zero holds range.1, outside⟩))
        exact none place member (same.1.mp set)

end Standing

/-! ## Clusters for a new entry -/

theorem allocContent_provided {sectors : Nat → Buffer} {bitmap chain : List Nat}
    {fuel start : Nat} (enough : v.exfatClusterCount + 2 < fuel)
    (chained : Chained v (exfatView v sectors) bitmap)
    (standing : Standing v (exfatView v sectors) start chain) {isDir : Bool} {data : List UInt8}
    (empty : isDir = true → data = []) :
    ∃ result sectors', allocContent v fuel isDir data (Device.healthy sectors) =
        some (result, Device.healthy sectors') ∧
      Relinked v sectors sectors' ∧ Chained v (exfatView v sectors') bitmap ∧
      ∀ first, result = some first → ∃ members,
        Provided v bitmap (exfatView v sectors') start chain isDir first members := by
  rcases (allocContent_runs shape (.inr chained.bitmap) enough isDir data).healthy with
    ⟨result, sectors', ran, kept, relinked, outcome⟩
  have idle := chained.idle_kept shape kept
  have chained' := idle.chained shape chained
  refine ⟨result, sectors', ran, relinked, chained', ?_⟩
  intro first equal
  rcases outcome with ⟨rfl, _⟩ | ⟨⟨first', members, rfl, readied, occupied, zeroed⟩, _, _⟩
  · cases equal
  · cases equal
    refine ⟨members, chained', standing.kept shape chained kept, readied.holds, ?_, ?_, ?_⟩
    · intro cl member
      exact idle.vacant shape chained.owned (vacant_of_free (readied.free cl member))
    · intro cl member inChain
      exact chain_next_ne_zero standing.holds inChain (readied.free cl member)
    · intro newDir
      have positive := shape.clusterBytes_pos
      have nonzero : first ≠ 0 := occupied (by rw [if_pos newDir]; omega)
      refine ⟨nonzero, ?_⟩
      -- a directory gets one cluster
      have one := readied.few
      rw [if_pos newDir, clustersNeeded_cluster shape] at one
      have begins := readied.holds.start_mem nonzero
      intro cl member off inside
      have same : cl = first := by
        cases members with
        | nil => cases member
        | cons head rest =>
            cases rest with
            | nil => exact (List.mem_singleton.mp member).trans (List.mem_singleton.mp begins).symm
            | cons _ _ => simp at one
      rw [same]
      exact (zeroed (empty newDir) nonzero).resolve_left Bool.false_ne_true off inside

/-! ## Room in the directory -/

/-- The bitmap lies outside of the clusters for a new entry. -/
theorem Provided.outside {store : ClusterStore} {start first : Nat}
    {bitmap chain members : List Nat} {isDir : Bool}
    (provided : Provided v bitmap store start chain isDir first members) {cl : Nat}
    (member : cl ∈ members) : cl ∉ bitmap :=
  provided.vacant cl member .bitmap bitmap ⟨0, .bitmap⟩ (provided.chained.bitmap_holds shape)

/-- A free cluster without sets is linked behind the last one of the directory. -/
theorem Provided.extended {store store' : ClusterStore} {start first target : Nat}
    {bitmap chain members : List Nat} {isDir : Bool}
    (provided : Provided v bitmap store start chain isDir first members)
    (fresh : Fresh (v.exfatClusterCount + 2) store target)
    (links : ∀ cl, cl ≠ chain.getLastD 0 → cl ≠ target → store'.next cl = store.next cl)
    (linked : store'.next (chain.getLastD 0) = target) (ends : store'.next target = eocMark)
    (sectors : ∀ cl, cl ∉ bitmap → cl ≠ target → store'.sector cl = store.sector cl)
    (blank : ∀ off < v.clusterBytes, body v store' target off = 0x00) :
    Provided v bitmap store' start (chain ++ [target]) isDir first members := by
  have chained := provided.chained
  have holds := provided.standing.holds
  have last := @Holds.last_mem _ _ _ _ _ _ _ 0 holds provided.standing.occupied
  have notTarget : ∀ cl, store.next cl ≠ 0 → cl ≠ target := fun cl used equal =>
    used (equal ▸ fresh.free)
  have memberLinks : ∀ cl ∈ members, store'.next cl = store.next cl := by
    intro cl member
    apply links cl _ (notTarget cl (chain_next_ne_zero provided.holds member))
    intro equal
    exact provided.apart cl member (equal ▸ last)
  have apart : ∀ cl ∈ members, cl ∉ chain ++ [target] := by
    intro cl member inChain
    rcases List.mem_append.mp inChain with old | new
    · exact provided.apart cl member old
    · exact notTarget cl (chain_next_ne_zero provided.holds member) (List.mem_singleton.mp new)
  have blank' : isDir = true → first ≠ 0 ∧ Blank v store' members := by
    intro newDir
    rcases provided.blank newDir with ⟨occupied, zero⟩
    refine ⟨occupied, fun cl member off inside => ?_⟩
    rw [body_congr (sectors cl (provided.outside shape member)
      (notTarget cl (chain_next_ne_zero provided.holds member)))]
    exact zero cl member off inside
  cases standing : provided.standing with
  | @listed depth owner dir same =>
      have change := chained.lengthened shape dir fresh links linked ends sectors blank
      have starts := ((change.kept shape chained.owned).liveAt shape chained.owned dir.live
        (Nat.le_refl _)).2.1
      refine ⟨change.chained shape chained,
        .listed (change.dirAt shape chained.owned) (starts.trans same),
        provided.holds.congr memberLinks, ?_, apart, blank'⟩
      intro cl member
      exact change.vacant_after shape chained.owned (provided.vacant cl member)
        (notTarget cl (chain_next_ne_zero provided.holds member))
  | unlisted occupied _ vacant none =>
      have idle : Idle v store store' := by
        constructor
        · intro owner chain' live holds' cl member
          apply links cl _ (notTarget cl (chain_next_ne_zero holds' member))
          intro equal
          exact vacant _ last owner chain' live holds' (equal ▸ member)
        · intro owner chain' live isDir' holds' cl member
          apply sectors cl _ (notTarget cl (chain_next_ne_zero holds' member))
          apply chained.outside shape live _ holds' member
          intro equal
          rw [equal] at isDir'
          exact isDir'
      refine ⟨idle.chained shape chained, .unlisted occupied ?_ ?_ ?_,
        provided.holds.congr memberLinks,
        fun cl member => idle.vacant shape chained.owned (provided.vacant cl member),
        apart, blank'⟩
      · apply holds.extend occupied links linked fresh.running (ends ▸ endOfChain_eocMark)
          fresh.data
        intro member
        exact chain_next_ne_zero holds member fresh.free
      · intro cl member
        apply idle.vacant shape chained.owned
        rcases List.mem_append.mp member with old | new
        · exact vacant cl old
        · rw [List.mem_singleton.mp new]
          exact vacant_of_free fresh.free
      · intro place member set
        have range := (mem_chainPlaces shape).mp member
        rcases List.mem_append.mp range.1 with old | new
        · have same := @IsSet.congr v store store' place (body_congr (sectors place.cl
            (provided.standing.outside shape chained old)
            (notTarget _ (chain_next_ne_zero holds old))))
          exact none place ((mem_chainPlaces shape).mpr ⟨old, range.2⟩) (same.1.mp set)
        · have file := (isSet_iff.mp set).1
          rw [List.mem_singleton.mp new, blank place.off range.2.2] at file
          exact absurd file (by decide)

/-- The place for a set: in the directory, or at the start of a further cluster that may be
too small for it. -/
theorem Provided.findRoom {sectors : Nat → Buffer} {start first fuel total : Nat}
    {bitmap chain members : List Nat} {isDir : Bool} (enough : v.exfatClusterCount + 2 < fuel)
    (provided : Provided v bitmap (exfatView v sectors) start chain isDir first members)
    (positive : 0 < total) :
    ∃ result sectors', exfatFindFreeSet v fuel start total (Device.healthy sectors) =
        some (result, Device.healthy sectors') ∧
      Relinked v sectors sectors' ∧ Chained v (exfatView v sectors') bitmap ∧
      ∀ cl off, result = some (cl, off) → ∃ chain',
        Provided v bitmap (exfatView v sectors') start chain' isDir first members ∧
        ⟨cl, off⟩ ∈ chainPlaces v chain' ∧ (off + total * 32 ≤ v.clusterBytes ∨
          off = 0 ∧ DataCluster (v.exfatClusterCount + 2) (cl + 1)) := by
  have slots := shape.slots_eq
  have chained := provided.chained
  have holds := provided.standing.holds
  have occupied := provided.standing.occupied
  have linked := holds.linked occupied
  have short := length_le_of_nodup_of_lt linked.nodup fun cl member => (holds.inside member).2
  have last := @Holds.last_mem _ _ _ _ _ _ _ start holds occupied
  have same : chain.getLastD start = chain.getLastD 0 := by
    cases chain with
    | nil => cases holds.start_mem occupied
    | cons head rest => rw [List.getLastD_cons, List.getLastD_cons]
  rcases freeClusters_healthy shape start positive linked (fun cl member => holds.inside member)
    (show chain.length < fuel by omega) with ⟨found, searched, search, _⟩
  cases search with
  | @room before cl after j split earlier place =>
      have fits := place.room.fits
      refine ⟨some (cl, 32 * j), sectors, ?_, .refl _ _, chained, ?_⟩
      · rw [exfatFindFreeSet, DiskM.bind_run searched]
        rfl
      · intro cl' off equal
        cases equal
        refine ⟨chain, provided, ?_, .inl (by omega)⟩
        rw [mem_chainPlaces shape]
        exact ⟨by simp [split], Nat.dvd_mul_right 32 j, by simp only; omega⟩
  | full none =>
      rcases (extendDirectory_runs shape (.inr chained.bitmap) (holds.inside last)
        (holds.not_stop last)).healthy with ⟨result, sectors', ran, outcome⟩
      refine ⟨result, sectors', ?_, ?_⟩
      · rw [exfatFindFreeSet, DiskM.bind_run searched]
        exact ran
      rcases outcome with ⟨rfl, rfl, _⟩ | ⟨target, later, rfl, list, stays, relinked, attached⟩
      · exact ⟨.refl _ _, chained, fun cl off equal => by cases equal⟩
      have attached := attached.resolve_left Bool.false_ne_true
      have free := mem_freeList.mp (show target ∈ freeList v (exfatView v sectors) by
        rw [list]
        simp)
      have limit := shape.maxClusters_le
      have fresh := shape.fresh free.1 free.2.1 free.2.2
      rw [same] at stays attached last
      have different : chain.getLastD 0 ≠ target := fun equal =>
        chain_next_ne_zero holds (equal ▸ last) fresh.free
      have provided' := provided.extended shape fresh
        (fun cl notLast notTarget => stays.next cl ⟨notTarget, notLast⟩)
        (attached.linked different) attached.ends
        (fun cl notBitmap notTarget => stays.sector cl ⟨notBitmap, notTarget⟩) attached.blank
      refine ⟨relinked, provided'.chained, ?_⟩
      intro cl off equal
      cases equal
      refine ⟨chain ++ [target], provided', ?_, .inr ⟨rfl, by omega, by omega⟩⟩
      rw [mem_chainPlaces shape]
      exact ⟨by simp, Nat.dvd_zero 32, shape.clusterBytes_pos⟩

/-! ## Writing the set -/

/-- A set that fits goes into the directory. -/
theorem Provided.enter {store store' : ClusterStore} {start first size : Nat} {place : Place}
    {bitmap chain members : List Nat} {isDir : Bool} {name : List UInt8}
    (provided : Provided v bitmap store start chain isDir first members)
    (inside : place ∈ chainPlaces v chain) (nonempty : name ≠ []) (short : name.length ≤ 255)
    (fits : place.off + entriesFor name * 32 ≤ v.clusterBytes)
    (patched : Patched v store store' place.cl place.off (entriesFor name * 32)
      (builtSet name first size isDir)) :
    Chained v store' bitmap ∧ (isDir = true → Standing v store' first members) := by
  have chained := provided.chained
  have range := (mem_chainPlaces shape).mp inside
  have small := chain_start_lt provided.holds
  cases provided.standing with
  | @listed depth owner dir same =>
      have change := chained.entered shape dir inside nonempty short fits small provided.holds
        provided.vacant provided.blank (fun _ _ _ _ _ _ _ => rfl) (fun _ _ => rfl)
        (fun _ _ => rfl) patched
      refine ⟨change.chained shape chained, fun newDir => ?_⟩
      have info := setAt_info (setAt_patched nonempty short small fits patched)
      have begins : ExfatOwner.start v store' (.entry place) = first := info.1.symm
      refine .listed ⟨change.liveAt shape chained.owned, info.2.1.symm.trans newDir, ?_, ?_⟩ begins
      · rw [begins]
        exact (provided.blank newDir).1
      · exact change.holds
  | unlisted occupied holds vacant none =>
      have idle : Idle v store store' := by
        constructor
        · intro owner chain' live holds' cl member
          rw [patched.links]
        · intro owner chain' live isDir' holds' cl member
          apply patched.others
          intro equal
          exact vacant place.cl range.1 owner chain' live holds' (equal ▸ member)
      refine ⟨idle.chained shape chained, fun newDir => ?_⟩
      rcases provided.blank newDir with ⟨nonzero, blank⟩
      refine .unlisted nonzero (provided.holds.congr fun cl _ => by rw [patched.links])
        (fun cl member => idle.vacant shape chained.owned (provided.vacant cl member)) ?_
      apply NoSets.of_blank shape
      intro cl member off below
      have apart : cl ≠ place.cl := fun equal =>
        provided.apart cl member (equal ▸ range.1)
      rw [body_congr (patched.others cl apart)]
      exact blank cl member off below

/-- A set that its cluster is too small for is lost, and so is a directory that it is about. -/
theorem Provided.spill {store store' : ClusterStore} {start first size cl : Nat}
    {bitmap chain members : List Nat} {isDir : Bool} {name : List UInt8}
    (provided : Provided v bitmap store start chain isDir first members)
    (nonempty : name ≠ []) (short : name.length ≤ 255) (more : v.slots < entriesFor name)
    (spilled : Spilled v store store' cl (entriesFor name)
      (exfatBuildEntrySet name first size isDir)) :
    Chained v store' bitmap ∧ (isDir = true → Standing v store' first members) := by
  have chained := provided.chained
  have thinned := spilled.thinned shape nonempty short more
  refine ⟨thinned.chained shape chained, fun newDir => ?_⟩
  rcases provided.blank newDir with ⟨nonzero, blank⟩
  refine .unlisted nonzero (provided.holds.congr fun cl _ => by rw [spilled.next])
    (fun cl member => thinned.vacant chained.owned (provided.vacant cl member)) ?_
  intro place member set
  have range := (mem_chainPlaces shape).mp member
  have before := spilled.set_back shape nonempty short more range.2.1 range.2.2 set
  exact NoSets.of_blank shape blank place member before.1

theorem Provided.write {sectors : Nat → Buffer} {start first : Nat} {place : Place}
    {bitmap chain members : List Nat} {isDir : Bool} {name : List UInt8}
    (provided : Provided v bitmap (exfatView v sectors) start chain isDir first members)
    (sector : 512 ≤ v.bytesPerSec) (inside : place ∈ chainPlaces v chain)
    (nonempty : name ≠ []) (short : name.length ≤ 255) (size : Nat)
    (room : place.off + entriesFor name * 32 ≤ v.clusterBytes ∨
      place.off = 0 ∧ DataCluster (v.exfatClusterCount + 2) (place.cl + 1)) :
    ∃ sectors', exfatWriteEntrySet v place.cl place.off
        (exfatBuildEntrySet name first size isDir) (entriesFor name) (Device.healthy sectors) =
          some (0, Device.healthy sectors') ∧
      Relinked v sectors sectors' ∧ Chained v (exfatView v sectors') bitmap ∧
      (isDir = true → Standing v (exfatView v sectors') first members) := by
  have slots := shape.slots_eq
  have several := shape.slots_ge sector
  have bounds := entriesFor_le short
  have range := (mem_chainPlaces shape).mp inside
  have data := provided.standing.holds.inside range.1
  by_cases fits : place.off + entriesFor name * 32 ≤ v.clusterBytes
  · rcases exfatWriteEntrySet_healthy shape sectors (exfatBuildEntrySet name first size isDir)
      data range.2.1 (show entriesFor name ≤ 40 by omega) fits with
      ⟨sectors', ran, patched, confined⟩
    exact ⟨sectors', ran, .of_next confined patched.links,
      provided.enter shape inside nonempty short fits patched⟩
  · rcases room.resolve_left fits with ⟨start, next⟩
    have more : v.slots < entriesFor name := by omega
    rcases exfatWriteEntrySet_spills shape data next sectors
      (exfatBuildEntrySet name first size isDir) more (by omega) (by omega) with
      ⟨sectors', ran, confined, links, others, begin, rest⟩
    rw [start]
    exact ⟨sectors', ran, .of_next confined links,
      provided.spill shape nonempty short more ⟨links, others, begin, rest⟩⟩

/-! ## Entries -/

theorem exfatCreateEntry_chained {sectors : Nat → Buffer} {bitmap chain : List Nat}
    {fuel start : Nat} {name data : List UInt8} {isDir : Bool}
    (enough : v.exfatClusterCount + 2 < fuel) (sector : 512 ≤ v.bytesPerSec)
    (chained : Chained v (exfatView v sectors) bitmap)
    (standing : Standing v (exfatView v sectors) start chain) (nonempty : name ≠ [])
    (short : name.length ≤ 255) (empty : isDir = true → data = []) :
    ∃ code result sectors', exfatCreateEntry v fuel start name isDir data
        (Device.healthy sectors) = some ((code, result), Device.healthy sectors') ∧
      Relinked v sectors sectors' ∧ Chained v (exfatView v sectors') bitmap ∧
      (isDir = true → code = 0 →
        ∃ members, Standing v (exfatView v sectors') result members) := by
  have bounds := entriesFor_le short
  rcases allocContent_provided shape enough chained standing empty with
    ⟨content, middle, allocated, relinked, chainedMiddle, ready⟩
  cases content with
  | none => exact ⟨-2, 0, middle, createEntry_refused allocated, relinked, chainedMiddle, by simp⟩
  | some first =>
      rcases ready first rfl with ⟨members, provided⟩
      rcases provided.findRoom shape enough (show 0 < entriesFor name by omega) with
        ⟨place, found, searched, relinked', chainedFound, located⟩
      cases place with
      | none =>
          exact ⟨-3, 0, found, exfatCreateEntry_full allocated searched,
            relinked.trans relinked', chainedFound, by simp⟩
      | some place =>
          rcases place with ⟨cl, off⟩
          rcases located cl off rfl with ⟨chain', provided', inside, room⟩
          rcases provided'.write shape sector inside nonempty short data.length room with
            ⟨sectors', wrote, relinked'', final, newDir⟩
          exact ⟨0, first, sectors', exfatCreateEntry_run allocated searched wrote,
            (relinked.trans relinked').trans relinked'', final,
            fun isDir _ => ⟨members, newDir isDir⟩⟩

/-- The last component of a write when its entry exists. -/
theorem exfatOverwrite_chained {sectors : Nat → Buffer} {bitmap chain : List Nat}
    {fuel depth : Nat} {owner : ExfatOwner} {place : Place} {name : List UInt8}
    {info : EntryInfo} (enough : v.exfatClusterCount + 2 < fuel)
    (chained : Chained v (exfatView v sectors) bitmap)
    (dir : DirAt v (exfatView v sectors) depth owner chain)
    (hit : Hit v (exfatView v sectors) name chain place info) (nonempty : name ≠ [])
    (short : name.length ≤ 255) (data : List UInt8) :
    ∃ code sectors', exfatOverwrite v fuel info name data (Device.healthy sectors) =
        some (code, Device.healthy sectors') ∧
      Relinked v sectors sectors' ∧ Chained v (exfatView v sectors') bitmap := by
  have bounds := entriesFor_le short
  have range := (mem_chainPlaces shape).mp hit.inside
  have live : LiveAt v (exfatView v sectors) (depth + 1) (.entry place) :=
    .entry dir.live dir.isDir dir.linked hit.inside hit.set
  rcases (replaceContent_runs shape enough chained.bitmap data).healthy with
    ⟨result, middle, replaced, kept, relinked, filled⟩
  have idle := chained.idle_kept shape kept
  have chained' := idle.chained shape chained
  cases result with
  | error code =>
      refine ⟨code, middle, ?_, relinked, chained'⟩
      rw [exfatOverwrite, DiskM.bind_run replaced]
      rfl
  | ok first =>
      rcases (filled first rfl).1 with ⟨members, readied⟩
      rcases (idle.kept (depth + 1)).liveAt shape chained.owned live (Nat.le_refl _) with
        ⟨live', starts, _⟩
      rcases chained'.owned.tenancy.held _ ⟨_, live'⟩ with ⟨old, holds⟩
      have cluster : ExfatOwner.start v (exfatView v middle) (.entry place) = info.cluster :=
        starts.trans hit.cluster.symm
      have holdsOld : Chain (v.exfatClusterCount + 2) (exfatView v middle) info.cluster old :=
        cluster ▸ holds
      rcases (freeOld_runs shape enough chained'.bitmap holdsOld fun cl member =>
        chained'.outside shape ⟨_, live'⟩ (by simp) holds member).healthy with
        ⟨code, freed, freeing, released, relinked'⟩
      rcases exfatWriteEntrySet_healthy shape freed
        (exfatBuildEntrySet name first data.length false) (dir.data place.cl range.1) range.2.1
        (show entriesFor name ≤ 40 by omega) hit.fits with ⟨sectors', wrote, patched, confined⟩
      have vacant : ∀ cl ∈ members, Vacant v (exfatView v middle) cl := fun cl member =>
        idle.vacant shape chained.owned (vacant_of_free (readied.free cl member))
      have change := chained'.entered shape (idle.dirAt shape chained.owned dir) hit.inside
        nonempty short hit.fits (chain_start_lt readied.holds) readied.holds vacant (by simp)
        (fun other chain' otherLive different holds' cl member => released.next cl fun inOld =>
          different (chained'.owned.owner_eq otherLive ⟨_, live'⟩ holds' holds member inOld))
        (fun cl member => released.next cl (vacant cl member _ old ⟨_, live'⟩ holds))
        (fun cl outside => released.sector cl outside) patched
      refine ⟨0, sectors', ?_,
        (relinked.trans relinked').trans (.of_next confined patched.links),
        change.chained shape chained'⟩
      rw [exfatOverwrite, DiskM.bind_run replaced]
      simp only
      rw [DiskM.bind_run freeing, exfatUpdateEntry, hit.atPlace.1, hit.atPlace.2]
      exact wrote

/-! ## Walks -/

section

variable {sectors : Nat → Buffer} {bitmap chain : List Nat} {fuel start : Nat}
  (enough : v.exfatClusterCount + 2 < fuel)
  (chained : Chained v (exfatView v sectors) bitmap)
  (standing : Standing v (exfatView v sectors) start chain)
include enough chained standing

/-- A lookup in a directory of a walk. What it finds stands in a directory in use. -/
theorem Standing.find (want : List UInt8) :
    ∃ result, exfatFindInDir want fuel start v (Device.healthy sectors) =
        some ((v, result), Device.healthy sectors) ∧
      ∀ info, result = .ok info → ∃ depth owner place,
        DirAt v (exfatView v sectors) depth owner chain ∧
        Hit v (exfatView v sectors) want chain place info := by
  have holds := standing.holds
  have linked := holds.linked standing.occupied
  have short := length_le_of_nodup_of_lt linked.nodup fun cl member => (holds.inside member).2
  refine ⟨_, exfatFindInDir_healthy shape chained.bitmap.located want linked
    (fun cl member => holds.inside member) (show chain.length < fuel by omega), ?_⟩
  intro info found
  rcases lookup_hit found with ⟨place, hit⟩
  cases standing with
  | listed dir _ => exact ⟨_, _, place, dir, hit⟩
  | unlisted _ _ _ none => exact absurd hit.set (none place hit.inside)

end

/-- The steps of a walk from given sectors on. -/
theorem walkSteps_chained {fuel : Nat} (enough : v.exfatClusterCount + 2 < fuel)
    (sector : 512 ≤ v.bytesPerSec) (bitmap : List Nat) (data : List UInt8)
    {comps : List (List UInt8)} (chars : ∀ comp ∈ comps, comp ≠ [] ∧ comp.length ≤ 255)
    (before : Nat → Buffer) :
    WalkSteps v fuel data
      (fun sectors => Relinked v before sectors ∧ Chained v (exfatView v sectors) bitmap)
      (fun sectors start => ∃ chain, Standing v (exfatView v sectors) start chain) comps where
  find := by
    rintro comp member sectors start ⟨relinked, chained⟩ ⟨chain, standing⟩
    rcases standing.find shape enough chained comp with ⟨result, looked, hits⟩
    refine ⟨result, looked, fun info found => ?_⟩
    rcases hits info found with ⟨depth, owner, place, dir, hit⟩
    constructor
    · intro isDir
      rcases hit.dirAt chained.owned dir isDir with ⟨members, child⟩
      exact ⟨members, .listed child hit.cluster.symm⟩
    · rcases exfatOverwrite_chained shape enough chained dir hit (chars comp member).1
        (chars comp member).2 data with ⟨code, sectors', ran, after, final⟩
      exact ⟨code, sectors', ran, relinked.trans after, final⟩
  makeDir := by
    rintro comp member sectors start ⟨relinked, chained⟩ ⟨chain, standing⟩
    rcases exfatCreateEntry_chained shape enough sector chained standing (chars comp member).1
      (chars comp member).2 (fun _ => rfl) with ⟨code, result, sectors', ran, after, final, newDir⟩
    exact ⟨code, result, sectors', ran, ⟨relinked.trans after, final⟩, newDir rfl⟩
  makeFile := by
    rintro comp member sectors start ⟨relinked, chained⟩ ⟨chain, standing⟩
    rcases exfatCreateEntry_chained shape enough sector chained standing (chars comp member).1
      (chars comp member).2 (fun dir => absurd dir Bool.false_ne_true) with
      ⟨code, result, sectors', ran, after, final, _⟩
    exact ⟨code, result, sectors', ran, relinked.trans after, final⟩

/-! ## Runs -/

theorem Call.run_chained {fuel : Nat} (enough : v.exfatClusterCount + 2 < fuel)
    (sector : 512 ≤ v.bytesPerSec) {sectors : Nat → Buffer} {bitmap : List Nat}
    (chained : Chained v (exfatView v sectors) bitmap) (call : Call) :
    ∃ code sectors', call.run fuel v (Device.healthy sectors) =
        some ((v, code), Device.healthy sectors') ∧
      Relinked v sectors sectors' ∧ Chained v (exfatView v sectors') bitmap := by
  rcases chained.owned.dirAt_root with ⟨root, dir⟩
  have chars : ∀ comp ∈ call.path.componentsLong, comp ≠ [] ∧ comp.length ≤ 255 :=
    fun comp member =>
      have char := componentsLong_chars call.path comp member
      ⟨char.1, char.2.1⟩
  cases call with
  | writeFile path data =>
      rcases (walkSteps_chained shape enough sector bitmap data chars sectors).writeWalk
        ⟨.refl _ _, chained⟩ ⟨root, .listed dir rfl⟩ with ⟨code, sectors', ran, relinked, final⟩
      have located : exfatLoadBitmapInfo v fuel (Device.healthy sectors) =
          some ((0, v), Device.healthy sectors) := by
        rw [exfatLoadBitmapInfo, if_pos chained.bitmap.located]
        rfl
      refine ⟨code, sectors', ?_, relinked, final⟩
      simp only [Call.run, fat32WriteFilePath, shape.exfat]
      rw [exfatWriteFile, DiskM.bind_run located]
      exact ran
  | ensureDir path =>
      rcases (walkSteps_chained shape enough sector bitmap [] chars sectors).ensureWalk
        ⟨.refl _ _, chained⟩ ⟨root, .listed dir rfl⟩ with ⟨code, sectors', ran, relinked, final⟩
      refine ⟨code, sectors', ?_, relinked, final⟩
      simp only [Call.run, fat32EnsureDirPath, shape.exfat]
      exact ran

theorem runCalls_relinked {fuel : Nat} (enough : v.exfatClusterCount + 2 < fuel)
    (sector : 512 ≤ v.bytesPerSec) {sectors : Nat → Buffer} {bitmap : List Nat}
    (chained : Chained v (exfatView v sectors) bitmap) (calls : List Call) :
    ∃ sectors', runCalls fuel calls v (Device.healthy sectors) =
        some (v, Device.healthy sectors') ∧ Relinked v sectors sectors' := by
  induction calls generalizing sectors with
  | nil => exact ⟨sectors, rfl, .refl _ _⟩
  | cons call rest induction =>
      rcases Call.run_chained shape enough sector chained call with
        ⟨code, middle, ran, relinked, chained'⟩
      rcases induction chained' with ⟨sectors', restRan, after⟩
      refine ⟨sectors', ?_, relinked.trans after⟩
      rw [runCalls, DiskM.bind_run ran]
      exact restRan

/-- The calls on a volume just mounted, up to the first one that notes the bitmap. -/
theorem JustMounted.runCalls_relinked {fuel : Nat} (enough : v.exfatClusterCount + 2 < fuel)
    (sector : 512 ≤ v.bytesPerSec) {sectors : Nat → Buffer} {root bitmap : List Nat}
    {place : Place} (mounted : JustMounted v sectors root place)
    (chained : Chained (v.notedAt (exfatView v sectors) place) (exfatView v sectors) bitmap)
    (calls : List Call) :
    ∃ v' sectors', runCalls fuel calls v (Device.healthy sectors) =
        some (v', Device.healthy sectors') ∧ Relinked v sectors sectors' := by
  induction calls with
  | nil => exact ⟨v, sectors, rfl, .refl _ _⟩
  | cons call rest induction =>
      rcases mounted.run_eq shape chained.bitmap.located enough call with same | idle
      · rcases ParanOS.runCalls_relinked (shape.noted (exfatView v sectors) place) enough sector
          chained (call :: rest) with ⟨sectors', ran, relinked⟩
        refine ⟨v.notedAt (exfatView v sectors) place, sectors', ?_,
          ⟨relinked.confined.rest, relinked.confined.high⟩, relinked.links⟩
        rw [runCalls, DiskM.bind_apply] at ran ⊢
        rw [same]
        exact ran
      · rw [runCalls, DiskM.bind_run idle]
        exact induction

end

/-- An exFAT volume whose bitmap, files and directories have well-formed chains in the table.
If the driver does not know the bitmap yet, it finds it in the root directory. -/
structure ChainedVolume (v : Vol) (sectors : Nat → Buffer) : Prop where
  shape : ExfatGeometry v
  /-- The format has no smaller sectors. -/
  sector : 512 ≤ v.bytesPerSec
  chained : (∃ bitmap, Chained v (exfatView v sectors) bitmap) ∨
    ∃ root place bitmap, JustMounted v sectors root place ∧
      Chained (v.notedAt (exfatView v sectors) place) (exfatView v sectors) bitmap

/-- A table entry of the format: free, a further cluster, or the end of a chain. -/
def ValidEntry (limit raw : Nat) : Prop := raw = 0 ∨ DataCluster limit raw ∨ raw = 0xFFFFFFFF

instance (limit raw : Nat) : Decidable (ValidEntry limit raw) :=
  inferInstanceAs (Decidable (_ ∨ (_ ∧ _) ∨ _))

/-- The bitmap and the root directory end with the mark `0xFFFFFFFF`. -/
def formattedImage : Nat → Buffer := fun lba =>
  if lba = 1 then Buffer.putU32 (Buffer.putU32 (fun _ => 0) 12 0xFFFFFFFF) 16 0xFFFFFFFF
  else exfatImage 6 lba

theorem formattedImage_volume : ChainedVolume exfatVol.unnoted formattedImage where
  shape := by
    have shape := exfatVol_shape
    have geometry := shape.geometry
    exact ⟨shape.exfat, shape.sector_small, shape.cluster_small, shape.clusters,
      geometry.sector_pos, geometry.slot_dvd, geometry.cluster_pos, geometry.table_below,
      geometry.heap_end, geometry.heap_small⟩
  sector := by decide
  chained := by
    have sound : ExfatSound exfatVol formattedImage := exfatVol_sound (by decide)
      (by decide) (by decide) (by decide)
    rcases sound.sound with ⟨bitmap, sound⟩
    refine .inr ⟨[4], ⟨4, 0⟩, bitmap, ⟨rfl, .single (by decide) (by decide), ?_, ?_⟩, ?_⟩
    · intro cl member
      rw [List.mem_singleton.mp member]
      exact ⟨by decide, by decide⟩
    · exact .here (by decide)
    · exact sound.chained

end ParanOS

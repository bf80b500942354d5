import ParanOS.Exfat.Agreement

/-! # Allocating and freeing in agreement

The exFAT allocation functions of `fs_fat32.c` on a volume whose bitmap agrees
with its table: what they do to both, and that running out of space leaves the
device exactly as it was.
-/

namespace ParanOS

open Foundation

/-- The parameters of an exFAT volume whose table and clusters lie on the
device without overlap or wrap-around. -/
structure ExfatGeometry (v : Vol) : Prop where
  exfat : v.fsType = .exfat
  /-- `fat32_mount` refuses larger sectors. -/
  sector_small : v.bytesPerSec ≤ maxSectorSize
  /-- The field is eight bits wide. -/
  cluster_small : v.secPerClus < 256
  clusters : v.exfatClusterCount ≠ 0
  geometry : Geometry v (v.exfatClusterCount + 2)

/-- The view of an exFAT volume as linked clusters. -/
abbrev exfatView (v : Vol) (sectors : Nat → Buffer) : ClusterStore :=
  view v (v.exfatClusterCount + 2) sectors

/-- The range of the volume's changes. -/
abbrev ExfatConfined (v : Vol) : (Nat → Buffer) → (Nat → Buffer) → Prop :=
  Confined v (v.exfatClusterCount + 2)

section

variable {v : Vol} (shape : ExfatGeometry v)
include shape

theorem ExfatGeometry.clusterBytes_pos : 0 < v.clusterBytes :=
  Nat.mul_pos shape.geometry.sector_pos shape.geometry.cluster_pos

theorem ExfatGeometry.clusterBytes_le : v.clusterBytes ≤ 4096 * 256 :=
  Nat.mul_le_mul shape.sector_small (Nat.le_of_lt shape.cluster_small)

theorem ExfatGeometry.maxClusters_le :
    exfatMaxClusters v ≤ v.exfatClusterCount ∧ exfatMaxClusters v ≤ 1048576 := by
  have nonzero := shape.clusters
  simp only [exfatMaxClusters, ne_eq, nonzero, not_false_eq_true, if_true]
  omega

theorem ExfatGeometry.count_le : v.exfatClusterCount ≤ 4294967296 := by
  have heap := shape.geometry.heap_end
  have rows : v.exfatClusterCount ≤ v.exfatClusterCount * v.secPerClus :=
    Nat.le_mul_of_pos_right _ shape.geometry.cluster_pos
  simp only [Nat.add_sub_cancel] at heap
  omega

theorem clustersNeeded_zero : clustersNeeded v 0 = 0 := by
  have positive := shape.clusterBytes_pos
  have small := shape.clusterBytes_le
  rw [clustersNeeded, u32_of_lt (by omega)]
  exact Nat.div_eq_of_lt (by omega)

theorem clustersNeeded_cluster : clustersNeeded v v.clusterBytes = 1 := by
  have positive := shape.clusterBytes_pos
  have small := shape.clusterBytes_le
  rw [clustersNeeded, u32_of_lt (by omega)]
  exact Nat.div_eq_of_lt_le (by omega) (by omega)

/-! ## One bit -/

theorem bitmapIndex_eq {cl : Nat} (data : DataCluster (v.exfatClusterCount + 2) cl) :
    bitmapIndex cl = cl - 2 := by
  have bound := shape.count_le
  have lower := data.1
  have upper := data.2
  simp only [bitmapIndex, u32]
  omega

/-- The walk along the bitmap's chain arrives at its cluster of that number. -/
theorem walkEntries_eq {sectors : Nat → Buffer} {start step : Nat} {chain : List Nat}
    (linked : Linked (exfatView v sectors).next EndOfChain start chain)
    (data : ∀ cl ∈ chain, DataCluster (v.exfatClusterCount + 2) cl)
    (inside : step < chain.length) : walkEntries v sectors step start = chain.getD step 0 := by
  induction linked generalizing step with
  | nil _ => simp at inside
  | @cons cl rest running _ induction =>
      cases step with
      | zero => rfl
      | succ step =>
          have going : isEndCluster cl = false := by
            simpa [EndOfChain] using running
          rw [walkEntries, going]
          simp only [Bool.false_eq_true, if_false]
          rw [shape.geometry.fatEntry_eq sectors (data cl (by simp)).2 running,
            List.getD_cons_succ]
          exact induction (fun other member => data other (by simp [member]))
            (by simpa using inside)

theorem exfatMarkBitmap_healthy {sectors : Nat → Buffer} {chain : List Nat}
    (bitmap : Bitmap v (exfatView v sectors) chain) {cl : Nat}
    (data : DataCluster (v.exfatClusterCount + 2) cl) (used : Bool) :
    ∃ sectors', exfatMarkBitmap v cl used (Device.healthy sectors) =
        some (0, Device.healthy sectors') ∧
      exfatView v sectors' =
        setBitOf (exfatView v sectors) (bitPlace v chain cl) used ∧
      ExfatConfined v sectors sectors' := by
  have index := bitmapIndex_eq shape data
  have walk := walkEntries_eq shape bitmap.linked bitmap.data (bitmap.index_lt data)
  have inBitmap := bitmap.data _ (bitmap.place_mem data)
  have sectorIndex : (bitPlace v chain cl).s < v.secPerClus := by
    apply Nat.div_lt_of_lt_mul
    exact Nat.mod_lt _ shape.clusterBytes_pos
  have address : bitmapSector v sectors cl =
      u32 (clusToLba v (bitPlace v chain cl).cl + (bitPlace v chain cl).s) := by
    rw [bitmapSector, index, walk]
    rfl
  have content := shape.geometry.sector_eq sectors inBitmap sectorIndex
  have lower := data.1
  have upper := data.2
  have covered := bitmap.size
  refine ⟨store sectors (bitmapSector v sectors cl)
    ((sectors (bitmapSector v sectors cl)).putU8 (bitmapOffset v cl)
      (markByte (sectors (bitmapSector v sectors cl) (bitmapOffset v cl))
        (bitmapIndex cl % 8) used)), ?_, ?_, ?_⟩
  · rw [exfatMarkBitmap, if_neg bitmap.located, if_neg (by omega), if_neg (by omega)]
    exact markBitmapByte_healthy v sectors cl used
  · rw [exfatView, address, shape.geometry.view_store sectors _ inBitmap sectorIndex,
      setBitOf, ← content]
    simp only [bitmapOffset, index]
    rfl
  · rw [address]
    exact .store_cluster shape.geometry _ inBitmap sectorIndex

/-! ## One cluster -/

/-- Writing the table entry and then the bit. -/
theorem mark_both {sectors : Nat → Buffer} {chain : List Nat}
    (bitmap : Bitmap v (exfatView v sectors) chain) {cl : Nat}
    (data : DataCluster (v.exfatClusterCount + 2) cl) (running : ¬ EndOfChain cl)
    (outside : cl ∉ chain) (used : Bool) :
    ∃ sectors', exfatMarkBitmap v cl used
        (Device.healthy (setFatEntry v sectors cl (if used then eocMark else 0))) =
        some (0, Device.healthy sectors') ∧
      exfatView v sectors' = markCluster v chain (exfatView v sectors) cl used ∧
      ExfatConfined v sectors sectors' := by
  have linked := shape.geometry.view_setFatEntry sectors (if used then eocMark else 0) data.2
    running
  have value : (if used then eocMark else 0) % 268435456 = if used then eocMark else 0 := by
    cases used <;> rfl
  rw [value] at linked
  have bitmap' : Bitmap v (exfatView v
      (setFatEntry v sectors cl (if used then eocMark else 0))) chain := by
    apply bitmap.congr
    intro other member
    rw [exfatView, linked, ClusterStore.link_next_other]
    intro equal
    subst equal
    exact outside member
  rcases exfatMarkBitmap_healthy shape bitmap' data used with ⟨sectors', ran, after, confined⟩
  refine ⟨sectors', ran, ?_, (Confined.set_entry shape.geometry _ data.2 running).trans confined⟩
  rw [after, exfatView, linked]
  rfl

theorem exfatClaim_healthy {sectors : Nat → Buffer} {chain : List Nat}
    (bitmap : Bitmap v (exfatView v sectors) chain) {cl : Nat}
    (fresh : Fresh (v.exfatClusterCount + 2) (exfatView v sectors) cl) :
    ∃ sectors', exfatClaim v cl (Device.healthy sectors) =
        some (cl, Device.healthy sectors') ∧
      exfatView v sectors' = markCluster v chain (exfatView v sectors) cl true ∧
      ExfatConfined v sectors sectors' := by
  have outside : cl ∉ chain := fun member => bitmap.next_ne_zero member fresh.free
  rcases mark_both shape bitmap fresh.data fresh.running outside true with
    ⟨sectors', ran, after, confined⟩
  refine ⟨sectors', ?_, after, confined⟩
  rw [if_pos rfl] at ran
  simp [exfatClaim, ran]

/-- No cluster that the allocator looks at is free. -/
def Full (v : Vol) (store : ClusterStore) : Prop :=
  ∀ cl, 2 ≤ cl → cl < exfatMaxClusters v → store.next cl ≠ 0

/-- The allocator reads what the table says of a cluster. -/
theorem ExfatGeometry.fatEntry_eq (sectors : Nat → Buffer) {cl : Nat}
    (below : cl < exfatMaxClusters v) :
    fatEntry v sectors cl = (exfatView v sectors).next cl := by
  have bound := shape.maxClusters_le
  apply shape.geometry.fatEntry_eq sectors (by omega)
  rw [endOfChain_iff]
  omega

/-- What the allocator finds free can be linked. -/
theorem ExfatGeometry.fresh {store : ClusterStore} {cl : Nat} (above : 2 ≤ cl)
    (below : cl < exfatMaxClusters v) (free : store.next cl = 0) :
    Fresh (v.exfatClusterCount + 2) store cl := by
  have bound := shape.maxClusters_le
  refine ⟨⟨above, by omega⟩, ?_, free⟩
  rw [endOfChain_iff]
  omega

theorem exfatAllocCluster_spec {sectors : Nat → Buffer} {chain : List Nat}
    (bitmap : Bitmap v (exfatView v sectors) chain) :
    (exfatAllocCluster v (Device.healthy sectors) = some (0, Device.healthy sectors) ∧
      Full v (exfatView v sectors)) ∨
    ∃ target sectors', exfatAllocCluster v (Device.healthy sectors) =
        some (target, Device.healthy sectors') ∧
      Fresh (v.exfatClusterCount + 2) (exfatView v sectors) target ∧
      target < exfatMaxClusters v ∧
      exfatView v sectors' = markCluster v chain (exfatView v sectors) target true ∧
      ExfatConfined v sectors sectors' := by
  rw [exfatAllocCluster, allocScan_healthy]
  cases found : firstFree v sectors (exfatMaxClusters v - 2) 2 with
  | none =>
      refine .inl ⟨rfl, ?_⟩
      intro cl above below free
      rw [← shape.fatEntry_eq sectors below] at free
      rcases firstFree_exists above
          (show cl < 2 + (exfatMaxClusters v - 2) by omega) free with
        ⟨first, found', _⟩
      rw [found] at found'
      simp at found'
  | some target =>
      rcases firstFree_some found with ⟨lower, upper, free⟩
      rw [shape.fatEntry_eq sectors (by omega)] at free
      have fresh := shape.fresh lower (by omega) free
      rcases exfatClaim_healthy shape bitmap fresh with ⟨sectors', ran, after, confined⟩
      exact .inr ⟨target, sectors', ran, fresh, by omega, after, confined⟩

/-! ## Freeing a chain -/

/-- Release clusters one after another. -/
def releaseAll (v : Vol) (chain : List Nat) (store : ClusterStore) (members : List Nat) :
    ClusterStore :=
  members.foldl (fun store cl => markCluster v chain store cl false) store

omit shape in
theorem releaseAll_next (chain : List Nat) (store : ClusterStore) (members : List Nat)
    (cl : Nat) :
    (releaseAll v chain store members).next cl =
      if cl ∈ members then 0 else store.next cl := by
  induction members generalizing store with
  | nil => simp [releaseAll]
  | cons head rest induction =>
      rw [releaseAll, List.foldl_cons, ← releaseAll, induction, markCluster_next]
      by_cases later : cl ∈ rest
      · simp [later]
      · by_cases same : cl = head
        · simp [same]
        · simp [later, same]

omit shape in
theorem bitOf_releaseAll (chain : List Nat) (store : ClusterStore) (members : List Nat)
    (place : BitPlace) :
    bitOf (releaseAll v chain store members) place =
      if ∃ cl ∈ members, place = bitPlace v chain cl then false else bitOf store place := by
  induction members generalizing store with
  | nil => simp [releaseAll]
  | cons head rest induction =>
      rw [releaseAll, List.foldl_cons, ← releaseAll, induction, bitOf_markCluster]
      by_cases later : ∃ cl ∈ rest, place = bitPlace v chain cl
      · rw [if_pos later, if_pos]
        rcases later with ⟨cl, member, equal⟩
        exact ⟨cl, by simp [member], equal⟩
      · rw [if_neg later]
        by_cases same : place = bitPlace v chain head
        · rw [if_pos same, if_pos ⟨head, by simp, same⟩]
        · rw [if_neg same, if_neg]
          rintro ⟨cl, member, equal⟩
          rcases List.mem_cons.mp member with rfl | inRest
          · exact same equal
          · exact later ⟨cl, inRest, equal⟩

omit shape in
theorem releaseAll_agreed {chain members : List Nat} {store : ClusterStore}
    (agreed : Agreed v store chain)
    (data : ∀ cl ∈ members, DataCluster (v.exfatClusterCount + 2) cl)
    (apart : ∀ cl ∈ members, cl ∉ chain) :
    Agreed v (releaseAll v chain store members) chain ∧
      ∀ other, other ∉ chain →
        (releaseAll v chain store members).sector other = store.sector other := by
  induction members generalizing store with
  | nil => exact ⟨agreed, fun _ _ => rfl⟩
  | cons head rest induction =>
      have step := agreed.markCluster (data head (by simp)) (apart head (by simp)) false
      rcases induction step (fun cl member => data cl (by simp [member]))
        (fun cl member => apart cl (by simp [member])) with ⟨final, same⟩
      refine ⟨final, fun other outside => ?_⟩
      rw [releaseAll, List.foldl_cons, ← releaseAll, same other outside,
        markCluster_sector agreed.bitmap (data head (by simp)) false outside]

theorem exfatFreeChain_spec {sectors : Nat → Buffer} {chain members : List Nat}
    {start fuel : Nat} (agreed : Agreed v (exfatView v sectors) chain)
    (linked : Linked (exfatView v sectors).next EndOfChain start members)
    (data : ∀ cl ∈ members, DataCluster (v.exfatClusterCount + 2) cl)
    (apart : ∀ cl ∈ members, cl ∉ chain) (enough : members.length < fuel) :
    ∃ sectors', exfatFreeChain v fuel start (Device.healthy sectors) =
        some (0, Device.healthy sectors') ∧
      exfatView v sectors' = releaseAll v chain (exfatView v sectors) members ∧
      ExfatConfined v sectors sectors' := by
  induction members generalizing sectors start fuel with
  | nil =>
      cases linked with
      | nil stopped =>
          cases fuel with
          | zero => simp at enough
          | succ fuel =>
              have ended : isEndCluster start = true := stopped
              exact ⟨sectors, by simp [exfatFreeChain, ended], rfl, .refl v _ sectors⟩
  | cons head rest induction =>
      cases linked with
      | cons running tail =>
          cases fuel with
          | zero => simp at enough
          | succ fuel =>
              have headData := data head (by simp)
              have nodup := (Linked.cons running tail).nodup
              have going : isEndCluster head = false := by
                simpa [EndOfChain] using running
              have nonzero : head ≠ 0 := by
                have lower := headData.1
                omega
              rcases mark_both shape agreed.bitmap headData running (apart head (by simp)) false
                with ⟨middle, ran, after, confined⟩
              have tail' : Linked (exfatView v middle).next EndOfChain
                  ((exfatView v sectors).next head) rest := by
                apply tail.congr
                intro cl member
                rw [after, markCluster_next, if_neg]
                intro equal
                subst equal
                exact (List.nodup_cons.mp nodup).1 member
              have agreed' : Agreed v (exfatView v middle) chain := by
                rw [after]
                exact agreed.markCluster headData (apart head (by simp)) false
              rcases induction agreed' tail' (fun cl member => data cl (by simp [member]))
                (fun cl member => apart cl (by simp [member])) (by simpa using enough) with
                ⟨sectors', restRan, final, confined'⟩
              refine ⟨sectors', ?_, ?_, confined.trans confined'⟩
              · have next := shape.geometry.fatEntry_eq sectors headData.2 running
                simp only [Bool.false_eq_true, if_false] at ran
                simp only [exfatFreeChain, going, Bool.false_eq_true, nonzero, or_false, if_false]
                rw [DiskM.bind_run (fatReadFatEntry_healthy v head sectors),
                  DiskM.bind_run (fatWriteFatEntry_healthy v head 0 sectors),
                  DiskM.bind_run ran, next]
                exact restRan
              · rw [final, after]
                rfl

/-! ## Allocating a chain -/

/-- The clusters that the allocator may hand out. -/
def freeList (v : Vol) (store : ClusterStore) : List Nat :=
  (List.range' 2 (exfatMaxClusters v - 2)).filter fun cl => store.next cl == 0

omit shape in
theorem mem_freeList {store : ClusterStore} {cl : Nat} :
    cl ∈ freeList v store ↔ 2 ≤ cl ∧ cl < exfatMaxClusters v ∧ store.next cl = 0 :=
  ClusterStore.mem_free

theorem fresh_of_free {store : ClusterStore} {cl : Nat} (member : cl ∈ freeList v store) :
    Fresh (v.exfatClusterCount + 2) store cl :=
  have free := mem_freeList.mp member
  shape.fresh free.1 free.2.1 free.2.2

omit shape in
theorem freeList_nodup (store : ClusterStore) : (freeList v store).Nodup :=
  store.free_nodup _

/-- The taken clusters were free, now form a chain of their own and are marked;
nothing else has changed. -/
structure Taken (v : Vol) (chain : List Nat) (before after : ClusterStore) (first : Nat)
    (taken : List Nat) : Prop where
  free : ∀ cl ∈ taken, cl ∈ freeList v before
  holds : Chain (v.exfatClusterCount + 2) after first taken
  last : taken ≠ [] → after.next (taken.getLastD 0) = eocMark
  links : ∀ cl, cl ∉ taken → after.next cl = before.next cl
  sectors : ∀ cl, cl ∉ chain → after.sector cl = before.sector cl
  bits : ∀ place, bitOf after place =
    if ∃ cl ∈ taken, place = bitPlace v chain cl then true else bitOf before place
  agreed : Agreed v after chain

namespace Taken

omit shape in
theorem none {chain : List Nat} {store : ClusterStore} (agreed : Agreed v store chain) :
    Taken v chain store store 0 [] :=
  ⟨by simp, .empty rfl, by simp, fun _ _ => rfl, fun _ _ => rfl, by simp, agreed⟩

variable {chain taken : List Nat} {before after : ClusterStore} {first : Nat}
  (state : Taken v chain before after first taken)
include state

omit shape in
theorem first_ne_zero (some : taken ≠ []) : first ≠ 0 := by
  cases state.holds with
  | empty vacant => exact absurd rfl some
  | chain occupied _ _ _ => exact occupied

omit shape in
theorem nodup : taken.Nodup := by
  cases state.holds with
  | empty _ => exact .nil
  | chain _ _ linked _ => exact linked.nodup

omit shape in
theorem next_ne_zero {cl : Nat} (member : cl ∈ taken) : after.next cl ≠ 0 :=
  chain_next_ne_zero state.holds member

omit shape in
/-- Clusters taken so far lie outside the bitmap. -/
theorem apart (agreed : Agreed v before chain) : ∀ cl ∈ taken, cl ∉ chain := by
  intro cl member inBitmap
  exact agreed.bitmap.next_ne_zero inBitmap (mem_freeList.mp (state.free cl member)).2.2

/-- Releasing everything restores the state before. -/
theorem release (agreed : Agreed v before chain) :
    releaseAll v chain after taken = before := by
  apply store_ext
  · funext cl
    rw [releaseAll_next]
    by_cases member : cl ∈ taken
    · rw [if_pos member, (mem_freeList.mp (state.free cl member)).2.2]
    · rw [if_neg member, state.links cl member]
  · intro place
    rw [bitOf_releaseAll, state.bits]
    by_cases marked : ∃ cl ∈ taken, place = bitPlace v chain cl
    · rw [if_pos marked]
      rcases marked with ⟨cl, member, rfl⟩
      have fresh := fresh_of_free shape (state.free cl member)
      have clear := agreed.agree cl fresh.data
      rw [fresh.free] at clear
      simpa using clear
    · rw [if_neg marked, if_neg marked]

omit shape in
theorem last_mem (some : taken ≠ []) : taken.getLastD 0 ∈ taken := by
  rcases List.eq_nil_or_concat' taken with rfl | ⟨earlier, last, rfl⟩
  · exact absurd rfl some
  · rw [List.getLastD_concat]
    simp

omit shape in
/-- What does not depend on how the new cluster is linked. -/
theorem mark {target : Nat} {after' : ClusterStore} {first' : Nat}
    (fresh : Fresh (v.exfatClusterCount + 2) after target)
    (below : target < exfatMaxClusters v)
    (sectors : after'.sector = (markCluster v chain after target true).sector)
    (links : ∀ cl, cl ∉ taken ++ [target] → after'.next cl = after.next cl)
    (used : ∀ cl ∈ taken ++ [target], after'.next cl ≠ 0)
    (holds : Chain (v.exfatClusterCount + 2) after' first' (taken ++ [target]))
    (last : after'.next target = eocMark) (apart : ∀ cl ∈ taken ++ [target], cl ∉ chain) :
    Taken v chain before after' first' (taken ++ [target]) := by
  have outside : target ∉ taken := fun member => state.next_ne_zero member fresh.free
  have marked : ∀ place, bitOf after' place =
      bitOf (markCluster v chain after target true) place := by
    intro place
    rw [bitOf, sectors]
    rfl
  refine ⟨?_, holds, ?_, ?_, ?_, ?_, ?_⟩
  · intro cl member
    rcases List.mem_append.mp member with old | new
    · exact state.free cl old
    · rw [List.mem_singleton.mp new]
      refine mem_freeList.mpr ⟨fresh.data.1, below, ?_⟩
      rw [← state.links target outside]
      exact fresh.free
  · intro _
    simpa using last
  · intro cl notTaken
    rw [links cl notTaken]
    apply state.links
    intro member
    exact notTaken (List.mem_append_left _ member)
  · intro cl notBitmap
    rw [sectors, markCluster_sector state.agreed.bitmap fresh.data true notBitmap,
      state.sectors cl notBitmap]
  · intro place
    rw [marked, bitOf_markCluster, state.bits]
    simp only [List.mem_append, List.mem_singleton, or_and_right, exists_or, exists_eq_left]
    by_cases new : place = bitPlace v chain target
    · simp [new]
    · simp [new]
  · constructor
    · apply state.agreed.bitmap.congr
      intro cl inBitmap
      exact links cl fun member => apart cl member inBitmap
    · intro cl data
      rw [marked, bitOf_markCluster]
      by_cases member : cl ∈ taken ++ [target]
      · have positive := used cl member
        rcases List.mem_append.mp member with old | new
        · have set := (state.agreed.agree cl data).mpr (state.next_ne_zero old)
          simp [set, positive]
        · rw [if_pos (by rw [List.mem_singleton.mp new])]
          simp [positive]
      · have different : cl ≠ target := by
          intro equal
          exact member (by simp [equal])
        rw [links cl member, if_neg fun equal => different
          (state.agreed.bitmap.place_injective data fresh.data equal)]
        exact state.agreed.agree cl data

omit shape in
/-- One more cluster, linked behind the last one. -/
theorem claim (agreed : Agreed v before chain) {target : Nat}
    (fresh : Fresh (v.exfatClusterCount + 2) after target)
    (below : target < exfatMaxClusters v) :
    Taken v chain before
      (if taken.getLastD 0 ≠ 0 then
        (markCluster v chain after target true).link (taken.getLastD 0) target
        else markCluster v chain after target true)
      (if first = 0 then target else first) (taken ++ [target]) := by
  have outside : target ∉ taken := fun member => state.next_ne_zero member fresh.free
  have notBitmap : target ∉ chain := fun member =>
    state.agreed.bitmap.next_ne_zero member fresh.free
  have apart : ∀ cl ∈ taken ++ [target], cl ∉ chain := by
    intro cl member
    rcases List.mem_append.mp member with old | new
    · exact state.apart agreed cl old
    · rw [List.mem_singleton.mp new]
      exact notBitmap
  have marked : ∀ other, (markCluster v chain after target true).next other =
      if other = target then (if true then eocMark else 0) else after.next other :=
    markCluster_next true
  simp only [if_true] at marked
  rcases List.eq_nil_or_concat' taken with rfl | ⟨earlier, last, rfl⟩
  · have vacant : first = 0 := by
      cases state.holds with
      | empty vacant => exact vacant
      | chain _ running linked _ => exact absurd rfl (linked.ne_nil running)
    have stop : EndOfChain ((markCluster v chain after target true).next target) := by
      rw [marked, if_pos rfl]
      exact endOfChain_eocMark
    simp only [List.getLastD_nil, ne_eq, not_true_eq_false, if_false, vacant, if_true]
    apply state.mark fresh below rfl
    · intro cl notTaken
      rw [marked, if_neg (by simpa using notTaken)]
    · intro cl member
      rw [marked, if_pos (by simpa using member)]
      decide
    · refine .chain fresh.ne_zero fresh.running (.single fresh.running stop) ?_
      intro cl member
      rw [List.mem_singleton.mp member]
      exact fresh.data
    · rw [marked, if_pos rfl]
    · exact apart
  · have occupied : first ≠ 0 := state.first_ne_zero (by simp)
    have lastMember : last ∈ earlier ++ [last] := by simp
    have lastNonzero : last ≠ 0 := by
      have lower := (state.holds.inside lastMember).1
      omega
    have different : target ≠ last := fun equal => outside (equal ▸ lastMember)
    rw [List.getLastD_concat, if_pos lastNonzero, if_neg occupied]
    apply state.mark fresh below (ClusterStore.link_sector _ _ _)
    · intro cl notTaken
      rw [ClusterStore.link_next_other, marked, if_neg]
      · intro equal
        exact notTaken (by simp [equal])
      · intro equal
        exact notTaken (by simp [equal])
    · intro cl member
      by_cases isLast : cl = last
      · rw [isLast, ClusterStore.link_next_same]
        exact fresh.ne_zero
      · rw [ClusterStore.link_next_other isLast, marked]
        by_cases new : cl = target
        · rw [if_pos new]
          decide
        · rw [if_neg new]
          apply state.next_ne_zero
          simpa [new] using member
    · apply @Holds.extend _ _ _ _ _ _ _ _ _ 0 _ state.holds occupied
      · intro cl notLast notTarget
        rw [List.getLastD_concat] at notLast
        rw [ClusterStore.link_next_other notLast, marked, if_neg notTarget]
      · rw [List.getLastD_concat]
        exact ClusterStore.link_next_same _ _ _
      · exact fresh.running
      · rw [ClusterStore.link_next_other different, marked, if_pos rfl]
        exact endOfChain_eocMark
      · exact fresh.data
      · exact outside
    · rw [ClusterStore.link_next_other different, marked, if_pos rfl]
    · exact apart

omit shape in
/-- Clusters taken are as many as were free, if none is left. -/
theorem length_of_full (full : Full v after) :
    (freeList v before).length ≤ taken.length := by
  apply (List.subperm_of_subset (freeList_nodup before) _).length_le
  intro cl member
  have free := mem_freeList.mp member
  by_contra notTaken
  apply full cl free.1 free.2.1
  rw [state.links cl notTaken]
  exact free.2.2

omit shape in
/-- Clusters taken are no longer free. -/
theorem length_free :
    (freeList v after).length + taken.length = (freeList v before).length := by
  refine ClusterStore.length_free_of_taken state.nodup state.free ?_ ?_
  · exact fun cl member => state.next_ne_zero member
  · intro cl _ outside
    rw [state.links cl outside]

omit shape in
theorem length_lt {fuel : Nat} (enough : v.exfatClusterCount + 2 < fuel) :
    taken.length < fuel := by
  have bound := length_le_of_nodup_of_lt state.nodup fun cl member =>
    (state.holds.inside member).2
  omega

end Taken

theorem linkBehind_healthy (sectors : Nat → Buffer) {prev cl : Nat}
    (range : prev ≠ 0 → prev < v.exfatClusterCount + 2 ∧ ¬ EndOfChain prev)
    (running : ¬ EndOfChain cl) :
    ∃ sectors', linkBehind v prev cl (Device.healthy sectors) =
        some (0, Device.healthy sectors') ∧
      exfatView v sectors' = (if prev ≠ 0 then (exfatView v sectors).link prev cl
        else exfatView v sectors) ∧
      ExfatConfined v sectors sectors' := by
  by_cases first : prev = 0
  · exact ⟨sectors, by simp [linkBehind, first], by simp [first], .refl _ _ _⟩
  · rcases range first with ⟨below, prevRunning⟩
    have small := (endOfChain_iff cl).not.mp running
    refine ⟨setFatEntry v sectors prev cl, ?_, ?_,
      .set_entry shape.geometry _ below prevRunning⟩
    · simp [linkBehind, first]
    · rw [exfatView, shape.geometry.view_setFatEntry sectors cl below prevRunning,
        if_pos first, Nat.mod_eq_of_lt (by omega)]

/-- Giving back what was taken restores the device. -/
theorem rollBack_spec {sectors middle : Nat → Buffer} {chain taken : List Nat}
    {first fuel : Nat} (enough : v.exfatClusterCount + 2 < fuel)
    (agreed : Agreed v (exfatView v sectors) chain)
    (state : Taken v chain (exfatView v sectors) (exfatView v middle) first taken)
    (confined : ExfatConfined v sectors middle) :
    ∃ code, rollBack v fuel first (Device.healthy middle) =
      some (code, Device.healthy sectors) := by
  cases state.holds with
  | empty vacant =>
      have same := state.release shape agreed
      refine ⟨0, ?_⟩
      rw [rollBack, if_neg (by simpa using vacant),
        ← confined.eq_of_view shape.geometry same]
      rfl
  | chain occupied _ linked inside =>
      rcases exfatFreeChain_spec shape state.agreed linked inside (state.apart agreed)
        (state.length_lt enough) with ⟨sectors', ran, after, confined'⟩
      have same : exfatView v sectors' = exfatView v sectors := by
        rw [after, state.release shape agreed]
      refine ⟨0, ?_⟩
      rw [rollBack, if_pos occupied, ran,
        (confined.trans confined').eq_of_view shape.geometry same]

/-- The outcome of the loop: as many clusters as asked for, or the device as it
was when there are not that many. -/
theorem allocChain_spec {sectors middle : Nat → Buffer} {chain taken : List Nat}
    {first fuel : Nat} (enough : v.exfatClusterCount + 2 < fuel)
    (agreed : Agreed v (exfatView v sectors) chain)
    (state : Taken v chain (exfatView v sectors) (exfatView v middle) first taken)
    (confined : ExfatConfined v sectors middle) (need : Nat)
    (wanted : taken ≠ [] ∨ need ≠ 0) :
    (∃ start sectors' all,
      allocChain v fuel need first (taken.getLastD 0) (Device.healthy middle) =
        some (start, Device.healthy sectors') ∧
      Taken v chain (exfatView v sectors) (exfatView v sectors') start all ∧
      all.length = taken.length + need ∧ ExfatConfined v sectors sectors') ∨
    (allocChain v fuel need first (taken.getLastD 0) (Device.healthy middle) =
        some (0, Device.healthy sectors) ∧
      (freeList v (exfatView v sectors)).length < taken.length + need) := by
  induction need generalizing middle first taken with
  | zero =>
      -- the last entry holds the mark already
      have nonempty : taken ≠ [] := by simpa using wanted
      have last := state.last_mem nonempty
      have below := (state.holds.inside last).2
      have running := state.holds.not_stop last
      have same : exfatView v (setFatEntry v middle (taken.getLastD 0) eocMark) =
          exfatView v middle := by
        rw [exfatView, shape.geometry.view_setFatEntry middle eocMark below running]
        exact ClusterStore.link_eq_self (state.last nonempty)
      have unchanged := (Confined.set_entry shape.geometry eocMark below running).eq_of_view
        shape.geometry same
      refine .inl ⟨first, middle, taken, ?_, state, rfl, confined⟩
      rw [allocChain, DiskM.bind_run (fatWriteFatEntry_healthy _ _ _ _), unchanged]
      rfl
  | succ need induction =>
      rcases exfatAllocCluster_spec shape state.agreed.bitmap with
        ⟨ran, full⟩ | ⟨target, claimed, ran, fresh, below, after, confined'⟩
      · rcases rollBack_spec shape enough agreed state confined with ⟨code, rolledBack⟩
        refine .inr ⟨?_, ?_⟩
        · rw [allocChain, DiskM.bind_run ran, if_pos rfl, DiskM.bind_run rolledBack]
          rfl
        · have length := state.length_of_full full
          omega
      · have range : taken.getLastD 0 ≠ 0 → taken.getLastD 0 < v.exfatClusterCount + 2 ∧
            ¬ EndOfChain (taken.getLastD 0) := by
          intro nonzero
          have member := state.last_mem (by
            intro empty
            exact nonzero (by rw [empty]; rfl))
          exact ⟨(state.holds.inside member).2, state.holds.not_stop member⟩
        rcases linkBehind_healthy shape claimed range fresh.running with
          ⟨linked, linkRan, linkAfter, linkConfined⟩
        have state' := state.claim agreed fresh below
        rw [← after, ← linkAfter] at state'
        have step := induction state' ((confined.trans confined').trans linkConfined)
          (.inl (by simp))
        rw [List.getLastD_concat, List.length_append, List.length_singleton, Nat.add_assoc,
          Nat.add_comm 1 need] at step
        rw [allocChain, DiskM.bind_run ran, if_neg fresh.ne_zero, DiskM.bind_run linkRan]
        exact step

end

end ParanOS

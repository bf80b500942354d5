import ParanOS.Exfat.Interrupted
import ParanOS.Exfat.RoundTrip

/-! # The old or the new content

What a read finds after `exfat_write_file_path` has overwritten a file on a device whose
writes fail as they like. The link of a chain and the entry set are written without a
look at the result, and the old chain is given back before the entry set is rewritten:
only a content of one cluster survives that.
-/

namespace ParanOS

open Foundation
open ExfatOwner (LiveAt)

/-! ## Overwriting -/

/-- How overwriting a set has left a volume: as it was, as far as it was in use, or with
the old clusters given back and the first slots of the set written. -/
inductive Halted (v : Vol) (bitmap old : List Nat) (store store' : ClusterStore) (place : Place)
    (name data : List UInt8) : Prop
  | kept : InUseKept bitmap store store' → Halted v bitmap old store store' place name data
  | part {middle first done} :
      store.Undisturbed (fun cl => 2 ≤ cl ∧ store.next cl ≠ 0 ∧ cl ∉ old)
        (fun cl => store.next cl ≠ 0 ∧ cl ∉ bitmap) middle →
      (data = [] ∧ first = 0 ∨ data ≠ [] ∧ Fill v store middle data first) →
      done ≤ entriesFor name →
      Patched v middle store' place.cl place.off (done * 32)
        (builtSet name first data.length false) →
      Halted v bitmap old store store' place name data

section

variable {v : Vol} (shape : ExfatGeometry v) {fuel : Nat}
  (enough : v.exfatClusterCount + 2 < fuel)
include shape enough

theorem exfatOverwrite_runs {sectors : Nat → Buffer} {bitmap chain old : List Nat} {depth : Nat}
    {owner : ExfatOwner} {place : Place} {name : List UInt8} {info : EntryInfo}
    (data : List UInt8) (sound : Sound v (exfatView v sectors) bitmap)
    (dir : DirAt v (exfatView v sectors) depth owner chain)
    (hit : Hit v (exfatView v sectors) name chain place info)
    (nonempty : name ≠ []) (short : name.length ≤ 255)
    (holds : ExfatOwner.Holds v (exfatView v sectors) (.entry place) old) :
    Runs failingWrites (exfatOverwrite v fuel info name data) sectors fun _ sectors' =>
      Halted v bitmap old (exfatView v sectors) (exfatView v sectors') place name data := by
  have bounds := entriesFor_bounds nonempty short
  have range := (mem_chainPlaces shape).mp hit.inside
  have located := sound.agreed.bitmap
  have live : ExfatOwner.Live v (exfatView v sectors) (.entry place) :=
    ⟨_, .entry dir.live dir.isDir dir.linked hit.inside hit.set⟩
  have oldOutside : ∀ cl ∈ old, cl ∉ bitmap := fun cl member =>
    sound.chained.outside shape live (by simp) holds member
  rw [exfatOverwrite]
  apply (replaceContent_runs shape enough located data).bind
  intro result middle outcome
  rcases outcome with ⟨spared, _, filled⟩
  cases result with
  | error code => exact .pure (.kept spared)
  | ok first =>
      have inUse : ∀ cl ∈ old, 2 ≤ cl ∧ (exfatView v sectors).next cl ≠ 0 := fun cl member =>
        ⟨(holds.inside member).1, chain_next_ne_zero holds member⟩
      have located' : Bitmap v (exfatView v middle) bitmap := located.congr fun cl member =>
        spared.next cl ⟨(located.data cl member).1, located.next_ne_zero member⟩
      have holds' : Chain (v.exfatClusterCount + 2) (exfatView v middle) info.cluster old := by
        rw [hit.cluster]
        exact holds.congr fun cl member => spared.next cl (inUse cl member)
      apply (freeOld_runs shape enough located' holds' oldOutside).bind
      intro _ freed outcome
      have released := outcome.1
      rw [exfatUpdateEntry, hit.atPlace.1, hit.atPlace.2]
      apply (exfatWriteEntrySet_runs shape freed (exfatBuildEntrySet name first data.length false)
        (dir.data place.cl range.1) range.2.1 (by omega) hit.fits).mono
      intro _ sectors' finished
      rcases finished with ⟨done, within, patched⟩
      refine .part ?_ ?_ within patched
      · apply (spared.mono _ fun _ kept => kept).trans (released.mono _ _)
        · exact fun cl kept => ⟨kept.1, kept.2.1⟩
        · exact fun cl kept => kept.2.2
        · exact fun cl kept => kept.2
      · rcases (filled first rfl).2 with none | ⟨some, fill⟩
        · exact .inl none
        · refine .inr ⟨some, { fill with content := ?_ }⟩
          have outside : first ∉ bitmap := fun member => located.next_ne_zero member fill.free
          rw [← fill.content, clusterData, released.sector first outside, clusterData]

omit enough in
/-- Directories stay as they are, but for the cluster with the set. -/
theorem Halted.dir_kept {store store' : ClusterStore} {bitmap old : List Nat} {place : Place}
    {name data : List UInt8} (halted : Halted v bitmap old store store' place name data)
    (sound : Sound v store bitmap) (live : ExfatOwner.Live v store (.entry place))
    (isFile : setIsDir v store place = false) (holds : ExfatOwner.Holds v store (.entry place) old)
    {above : Nat} {other : ExfatOwner} {chain : List Nat}
    (dir : DirAt v store above other chain) {cl : Nat} (member : cl ∈ chain) :
    store'.next cl = store.next cl ∧ (cl ≠ place.cl → store'.sector cl = store.sector cl) := by
  have lower := (dir.data cl member).1
  have used := chain_next_ne_zero dir.holds member
  have outside := sound.chained.dir_outside shape dir member
  cases halted with
  | kept spared => exact ⟨spared.next cl ⟨lower, used⟩, fun _ => spared.sector cl ⟨used, outside⟩⟩
  | part undisturbed _ _ patched =>
      have notOld : cl ∉ old := by
        intro inOld
        have same := sound.owned.owner_eq ⟨_, dir.live⟩ live dir.holds holds member inOld
        have isDir := dir.isDir
        rw [same, ExfatOwner.IsDir, isFile] at isDir
        simp at isDir
      constructor
      · rw [patched.links]
        exact undisturbed.next cl ⟨lower, used, notOld⟩
      · intro notHere
        rw [patched.others cl notHere]
        exact undisturbed.sector cl ⟨used, outside⟩

omit enough in
theorem Halted.keptAbove {store store' : ClusterStore} {bitmap old chain : List Nat} {depth : Nat}
    {owner : ExfatOwner} {place : Place} {name data : List UInt8}
    (halted : Halted v bitmap old store store' place name data) (sound : Sound v store bitmap)
    (dir : DirAt v store depth owner chain) (inside : place ∈ chainPlaces v chain)
    (set : IsSet v store place) (isFile : setIsDir v store place = false)
    (holds : ExfatOwner.Holds v store (.entry place) old) : KeptAbove v depth store store' := by
  intro above other chain' below dir' cl member
  have live : ExfatOwner.Live v store (.entry place) :=
    ⟨_, .entry dir.live dir.isDir dir.linked inside set⟩
  rcases halted.dir_kept shape sound live isFile holds dir' member with ⟨link, content⟩
  refine ⟨link, content ?_⟩
  intro equal
  have same := sound.owned.owner_eq ⟨_, dir'.live⟩ ⟨_, dir.live⟩ dir'.holds dir.holds member
    (equal ▸ ((mem_chainPlaces shape).mp inside).1)
  subst same
  have depths := sound.owned.depth_eq shape dir'.live dir.live
  omega

/-! ## Reading -/

/-- The bytes of a content. An empty file may have no cluster, and the driver then answers
with an error and no bytes. -/
structure Delivers (result : ReadResult) (content : List UInt8) : Prop where
  code : content ≠ [] → result.code = 0
  count : result.outBytes = content.length
  bytes : result.out = content

/-- Reading the file of an entry delivers the content. -/
structure Holding (v : Vol) (fuel : Nat) (sectors : Nat → Buffer) (content : List UInt8)
    (info : EntryInfo) : Prop where
  isFile : info.isDir = false
  reads : ∀ maxBytes, content.length ≤ maxBytes → ∃ result,
    readFileFromCluster v fuel info.cluster (min info.size 0xFFFFFFFF) maxBytes
      (Device.healthy sectors) = some (result, Device.healthy sectors) ∧ Delivers result content

/-- Reading up to one cluster does not look at the links. -/
theorem readFileFromCluster_first (sectors : Nat → Buffer) {cl : Nat}
    (data : DataCluster (v.exfatClusterCount + 2) cl) (running : ¬ EndOfChain cl)
    {size maxBytes : Nat} (fits : min size maxBytes ≤ v.secPerClus * v.bytesPerSec) :
    readFileFromCluster v fuel cl size maxBytes (Device.healthy sectors) =
      some (⟨0, min size maxBytes,
        (clusterData v (exfatView v sectors) cl).take (min size maxBytes)⟩,
        Device.healthy sectors) := by
  have nonzero : cl ≠ 0 := by
    have lower := data.1
    omega
  have going : isEndCluster cl = false := by
    simpa [EndOfChain] using running
  rcases fuel with _ | _ | fuel
  · omega
  · omega
  have whole := readSectors_device v sectors (clusToLba v cl) v.secPerClus 0
    (min size maxBytes) []
  rw [← List.range_eq_range', Nat.sub_eq_zero_of_le fits, ← deviceCluster,
    shape.geometry.deviceCluster_eq sectors data] at whole
  by_cases none : min size maxBytes = 0
  · simp [readFileFromCluster, nonzero, readClusters, none]
  · simp only [readFileFromCluster, nonzero, if_false, readClusters, going, Bool.false_eq_true,
      none, or_self, DiskM.bind_apply, whole, Option.bind_some, fatReadFatEntry_healthy, or_true,
      if_true, DiskM.pure_apply, List.nil_append]

namespace Holding

variable {sectors sectors' : Nat → Buffer} {content : List UInt8} {info : EntryInfo}
  {members : List Nat} (holding : Holding v fuel sectors content info)
  (holds : Chain (v.exfatClusterCount + 2) (exfatView v sectors) info.cluster members)
include holding holds

/-- The results of reading, in terms of the chain. -/
theorem result {maxBytes : Nat} (room : content.length ≤ maxBytes) :
    Delivers (fileResult v (exfatView v sectors) info.cluster (min info.size 0xFFFFFFFF) maxBytes
      members) content := by
  rcases holding.reads maxBytes room with ⟨result, ran, delivers⟩
  rw [readFileFromCluster_healthy shape.geometry (fun occupied =>
    ⟨holds.linked occupied, fun cl member => holds.inside member⟩) enough] at ran
  simp only [Option.some.injEq, Prod.mk.injEq, and_true] at ran
  rw [ran]
  exact delivers

theorem size_eq (occupied : info.cluster ≠ 0) : min info.size 0xFFFFFFFF = content.length := by
  have count := (holding.result shape enough holds (Nat.le_succ content.length)).count
  rw [fileResult, if_neg occupied] at count
  simp only at count
  omega

/-- The file is as it was. -/
theorem of_kept (links : ∀ cl ∈ members, (exfatView v sectors').next cl =
      (exfatView v sectors).next cl)
    (contents : ∀ cl ∈ members, (exfatView v sectors').sector cl =
      (exfatView v sectors).sector cl) : Holding v fuel sectors' content info := by
  refine ⟨holding.isFile, ?_⟩
  intro maxBytes room
  have holds' := holds.congr links
  have same : fileResult v (exfatView v sectors') info.cluster (min info.size 0xFFFFFFFF) maxBytes
      members = fileResult v (exfatView v sectors) info.cluster (min info.size 0xFFFFFFFF) maxBytes
        members := by
    rw [fileResult, fileResult, chainData_congr contents]
  have delivers := holding.result shape enough holds room
  rw [← same] at delivers
  exact ⟨_, readFileFromCluster_healthy shape.geometry (fun occupied =>
    ⟨holds'.linked occupied, fun cl member => holds'.inside member⟩) enough _ _, delivers⟩

/-- A file of one cluster at most is as it was if the content of that cluster is. -/
theorem of_first (small : content.length ≤ v.clusterBytes)
    (same : info.cluster ≠ 0 →
      (exfatView v sectors').sector info.cluster = (exfatView v sectors).sector info.cluster) :
    Holding v fuel sectors' content info := by
  refine ⟨holding.isFile, ?_⟩
  intro maxBytes room
  by_cases vacant : info.cluster = 0
  · have delivers := holding.result shape enough holds room
    rw [fileResult, if_pos vacant] at delivers
    exact ⟨_, by simp [readFileFromCluster, vacant], delivers⟩
  · have start := holds.start_mem vacant
    have inside := holds.inside start
    have running := holds.not_stop start
    have size := holding.size_eq shape enough holds vacant
    have fits : min (min info.size 0xFFFFFFFF) maxBytes ≤ v.secPerClus * v.bytesPerSec := by
      rw [Nat.mul_comm]
      exact Nat.le_trans (Nat.min_le_left _ _) (size ▸ small)
    rcases holding.reads maxBytes room with ⟨result, ran, delivers⟩
    rw [readFileFromCluster_first shape enough sectors inside running fits] at ran
    simp only [Option.some.injEq, Prod.mk.injEq, and_true] at ran
    refine ⟨result, ?_, delivers⟩
    rw [readFileFromCluster_first shape enough sectors' inside running fits, ← ran, clusterData,
      same vacant, clusterData]

end Holding

/-- A new file of one cluster at most. -/
theorem Fill.holding {sectors sectors' : Nat → Buffer} {middle : ClusterStore}
    {data : List UInt8} {first dirCluster dirByteOff : Nat}
    (fill : Fill v (exfatView v sectors) middle data first) (small : data.length ≤ v.clusterBytes)
    (same : (exfatView v sectors').sector first = middle.sector first) :
    Holding v fuel sectors' data
      ⟨first, data.length % 18446744073709551616, false, dirCluster, dirByteOff⟩ := by
  have bound := shape.clusterBytes_le
  refine ⟨rfl, ?_⟩
  intro maxBytes room
  have size : min (min (data.length % 18446744073709551616) 0xFFFFFFFF) maxBytes =
      data.length := by omega
  have fits : data.length ≤ v.secPerClus * v.bytesPerSec := by
    rw [Nat.mul_comm]
    exact small
  have content : (clusterData v (exfatView v sectors') first).take data.length = data := by
    rw [clusterData, same, ← clusterData, fill.content,
      Buffer.bytes_ofList_take _ (Nat.le_refl _) fits, List.take_length]
  refine ⟨_, readFileFromCluster_first shape enough sectors' fill.inside fill.running
    (by rw [size]; exact fits), ?_⟩
  rw [size, content]
  exact ⟨fun _ => rfl, rfl, rfl⟩

omit shape enough in
/-- There is data, and too few free clusters for it. A size whose rounding up overflows
asks for none and is refused as well. -/
def TooLarge (v : Vol) (store : ClusterStore) (data : List UInt8) : Prop :=
  data ≠ [] ∧ (clustersNeeded v data.length = 0 ∨
    (freeList v store).length < clustersNeeded v data.length)

/-- Overwriting a set cannot do harm: the new content is refused, or both contents take
one cluster at most and the set is laid out as usual. -/
inductive Harmless (v : Vol) (store : ClusterStore) (old data name : List UInt8) (place : Place) :
    Prop
  | refused : TooLarge v store data → Harmless v store old data name place
  | small : old.length ≤ v.clusterBytes → data.length ≤ v.clusterBytes →
      RegularSet v store name place → Harmless v store old data name place

/-- The set is found again, with the old or the new content. -/
theorem Halted.found {sectors sectors' : Nat → Buffer} {bitmap chain members : List Nat}
    {depth : Nat} {owner : ExfatOwner} {place : Place} {name old data : List UInt8}
    {info : EntryInfo} (sound : Sound v (exfatView v sectors) bitmap)
    (dir : DirAt v (exfatView v sectors) depth owner chain)
    (nonempty : name ≠ []) (short : name.length ≤ 255) (chars : ∀ char ∈ name, char ≠ 0)
    (found : lookup v (exfatView v sectors) name (chainPlaces v chain) = .ok info)
    (hit : Hit v (exfatView v sectors) name chain place info)
    (holding : Holding v fuel sectors old info)
    (harmless : Harmless v (exfatView v sectors) old data name place)
    (holds : ExfatOwner.Holds v (exfatView v sectors) (.entry place) members)
    (halted : Halted v bitmap members (exfatView v sectors) (exfatView v sectors') place name
      data) :
    ∃ info', lookup v (exfatView v sectors') name (chainPlaces v chain) = .ok info' ∧
      (Holding v fuel sectors' old info' ∨ Holding v fuel sectors' data info') := by
  have range := (mem_chainPlaces shape).mp hit.inside
  have isFile : setIsDir v (exfatView v sectors) place = false := by
    rw [← hit.isDir]
    exact holding.isFile
  have live : ExfatOwner.Live v (exfatView v sectors) (.entry place) :=
    ⟨_, .entry dir.live dir.isDir dir.linked hit.inside hit.set⟩
  have holds' : Chain (v.exfatClusterCount + 2) (exfatView v sectors) info.cluster members := by
    rw [hit.cluster]
    exact holds
  have inUse : ∀ cl ∈ members, (exfatView v sectors).next cl ≠ 0 ∧ cl ∉ bitmap :=
    fun cl member => ⟨chain_next_ne_zero holds member,
      sound.chained.outside shape live (by simp) holds member⟩
  have dirKept := fun cl member => halted.dir_kept shape sound live isFile holds dir
    (show cl ∈ chain from member)
  have placeUsed := chain_next_ne_zero dir.holds range.1
  have placeOutside := sound.chained.dir_outside shape dir range.1
  cases halted with
  | kept spared =>
      refine ⟨info, ?_, .inl (holding.of_kept shape enough holds' ?_ ?_)⟩
      · rw [lookup_congr shape name]
        · exact found
        · intro cl member
          exact spared.sector cl
            ⟨chain_next_ne_zero dir.holds member, sound.chained.dir_outside shape dir member⟩
      · exact fun cl member => spared.next cl ⟨(holds.inside member).1, (inUse cl member).1⟩
      · exact fun cl member => spared.sector cl (inUse cl member)
  | @part middle first done undisturbed filled within patched =>
      cases harmless with
      | refused large =>
          rcases filled with ⟨empty, _⟩ | ⟨_, fill⟩
          · exact absurd empty large.1
          · rcases large.2 with none | few
            · exact absurd none fill.needed
            · have room := fill.room
              omega
      | small oldSmall dataSmall regular =>
          have small : first < 4294967296 := by
            rcases filled with ⟨_, zero⟩ | ⟨_, fill⟩
            · omega
            · have running := (endOfChain_iff first).not.mp fill.running
              omega
          have patch : body v (exfatView v sectors') place.cl =
              (body v (exfatView v sectors) place.cl).copy place.off (done * 32)
                (builtSet name first data.length false) := by
            rw [patched.patch, body_congr (undisturbed.sector place.cl ⟨placeUsed, placeOutside⟩)]
          rcases lookup_part shape dir.linked.nodup nonempty short chars small found holding.isFile
            hit.atPlace regular (fun cl member different =>
              body_congr ((dirKept cl member).2 different)) within patch with before | after
          · refine ⟨info, before, .inl (holding.of_first shape enough holds' oldSmall ?_)⟩
            intro occupied
            have start := holds'.start_mem occupied
            rw [patched.others info.cluster]
            · exact undisturbed.sector info.cluster (inUse info.cluster start)
            · intro equal
              have same := sound.owned.owner_eq ⟨_, dir.live⟩ live dir.holds holds
                (equal ▸ range.1) start
              have isDir := dir.isDir
              rw [same, ExfatOwner.IsDir, isFile] at isDir
              simp at isDir
          · refine ⟨_, after, .inr ?_⟩
            rcases filled with ⟨rfl, rfl⟩ | ⟨_, fill⟩
            · refine ⟨rfl, fun maxBytes _ => ⟨⟨-1, 0, []⟩, ?_, by simp, rfl, rfl⟩⟩
              simp [readFileFromCluster]
            · apply fill.holding shape enough dataSmall
              apply patched.others
              intro equal
              exact placeUsed (equal ▸ fill.free)

/-! ## Along a path -/

/-- After a write to the path of a file the path leads to a file with the old or the new
content. -/
theorem exfatWriteWalk_runs {comps : List (List UInt8)} {old data : List UInt8}
    (names : ∀ comp ∈ comps, comp ≠ [] ∧ comp.length ≤ 255 ∧ ∀ char ∈ comp, char ≠ 0)
    {sectors : Nat → Buffer} {bitmap chain : List Nat} {depth : Nat} {owner : ExfatOwner}
    {info : EntryInfo} (sound : Sound v (exfatView v sectors) bitmap)
    (dir : DirAt v (exfatView v sectors) depth owner chain)
    (followed : followWalk fuel comps (owner.start v (exfatView v sectors)) v
      (Device.healthy sectors) = some ((v, .ok (some info)), Device.healthy sectors))
    (holding : Holding v fuel sectors old info)
    (harmless : Harmless v (exfatView v sectors) old data (comps.getLastD [])
      ⟨info.dirCluster, info.dirByteOff⟩) :
    Runs failingWrites (exfatWriteWalk fuel data comps (owner.start v (exfatView v sectors)) v)
      sectors fun result sectors' => result.1 = v ∧
        KeptAbove v depth (exfatView v sectors) (exfatView v sectors') ∧
        ∃ info', followWalk fuel comps (owner.start v (exfatView v sectors)) v
            (Device.healthy sectors') = some ((v, .ok (some info')), Device.healthy sectors') ∧
          (Holding v fuel sectors' old info' ∨ Holding v fuel sectors' data info') := by
  have located := sound.agreed.bitmap.located
  induction comps generalizing depth owner chain with
  | nil => simp [followWalk] at followed
  | cons comp rest induction =>
      have again : ∀ sectors', (∀ cl ∈ chain, (exfatView v sectors').next cl =
          (exfatView v sectors).next cl) → exfatFindInDir comp fuel
            (owner.start v (exfatView v sectors)) v (Device.healthy sectors') =
          some ((v, lookup v (exfatView v sectors') comp (chainPlaces v chain)),
            Device.healthy sectors') := fun sectors' links =>
        exfatFindInDir_healthy shape located comp (dir.linked.congr links) dir.data
          (dir.length_lt enough)
      rw [followWalk, DiskM.bind_run (again sectors fun _ _ => rfl)] at followed
      rw [exfatWriteWalk]
      apply (Runs.read (exfatFindInDir_reads shape located comp dir.linked dir.data
        (dir.length_lt enough))).bind
      intro result between outcome
      rcases result with ⟨v', answer⟩
      rcases outcome with ⟨rfl, same, found, sweep, answered⟩
      rw [sweep.eq_findSome?, ← lookup] at answered
      simp only at same answered
      subst same answered
      cases found : lookup v' (exfatView v' between) comp (chainPlaces v' chain) with
      | error code =>
          rw [found] at followed
          simp at followed
      | ok entry =>
          rw [found] at followed
          rcases lookup_hit found with ⟨place, hit⟩
          cases rest with
          | nil =>
              simp only [List.isEmpty_nil, if_true, DiskM.pure_apply, Option.some.injEq,
                Prod.mk.injEq, Except.ok.injEq, and_true, true_and] at followed
              subst followed
              rcases names comp (by simp) with ⟨nonempty, short, chars⟩
              have live : LiveAt v' (exfatView v' between) (depth + 1) (.entry place) :=
                .entry dir.live dir.isDir dir.linked hit.inside hit.set
              have isFile : setIsDir v' (exfatView v' between) place = false := by
                rw [← hit.isDir]
                exact holding.isFile
              rcases sound.owned.tenancy.held _ ⟨_, live⟩ with ⟨members, holds⟩
              simp only [List.isEmpty_nil, if_true]
              apply (exfatOverwrite_runs shape enough data sound dir hit nonempty short
                holds).bind
              intro code sectors' halted
              have placeEq : (⟨entry.dirCluster, entry.dirByteOff⟩ : Place) = place := by
                rw [hit.atPlace.1, hit.atPlace.2]
              simp only [List.getLastD_cons, List.getLastD_nil, placeEq] at harmless
              rcases halted.found shape enough sound dir nonempty short chars found hit holding
                harmless holds with ⟨info', found', content⟩
              refine .pure ⟨rfl, halted.keptAbove shape sound dir hit.inside hit.set isFile holds,
                info', ?_, content⟩
              have links := fun cl member => (halted.dir_kept shape sound ⟨_, live⟩ isFile holds
                dir (show cl ∈ chain from member)).1
              rw [followWalk, DiskM.bind_run (again sectors' links), found']
              rfl
          | cons next others =>
              cases isDir : entry.isDir with
              | false => simp [isDir] at followed
              | true =>
                  simp only [List.isEmpty_cons, Bool.false_eq_true, if_false, isDir, if_true]
                    at followed ⊢
                  rcases hit.dirAt sound.owned dir isDir with ⟨members, child⟩
                  rw [hit.cluster] at followed ⊢
                  apply (induction (fun other member => names other (by simp [member])) child
                    followed (by simpa using harmless)).mono
                  intro result sectors' outcome
                  rcases outcome with ⟨sameVol, kept, info', followed', content⟩
                  refine ⟨sameVol, kept.mono (by omega), info', ?_, content⟩
                  have here := fun cl member => kept depth owner chain (by omega) dir cl
                    (show cl ∈ chain from member)
                  rw [followWalk, DiskM.bind_run
                    (again sectors' fun cl member => (here cl member).1),
                    lookup_congr shape comp fun cl member => (here cl member).2, found]
                  simp only [List.isEmpty_cons, Bool.false_eq_true, if_false, isDir, if_true]
                  rw [hit.cluster]
                  exact followed'

end

/-! ## The function -/

/-- The path leads to a file, and reading it delivers the content. -/
structure HasFile (v : Vol) (fuel : Nat) (sectors : Nat → Buffer) (comps : List (List UInt8))
    (content : List UInt8) : Prop where
  entry : ∃ info, followWalk fuel comps v.rootClus v (Device.healthy sectors) =
      some ((v, .ok (some info)), Device.healthy sectors) ∧ info.isDir = false
  reads : ∀ maxBytes, content.length ≤ maxBytes → ∃ result,
    exfatReadWalk fuel maxBytes comps v (Device.healthy sectors) =
      some ((v, result), Device.healthy sectors) ∧ Delivers result content

theorem HasFile.holding {v : Vol} {fuel : Nat} {sectors : Nat → Buffer}
    {comps : List (List UInt8)} {content : List UInt8} {info : EntryInfo}
    (file : HasFile v fuel sectors comps content)
    (followed : followWalk fuel comps v.rootClus v (Device.healthy sectors) =
      some ((v, .ok (some info)), Device.healthy sectors)) (isFile : info.isDir = false) :
    Holding v fuel sectors content info := by
  refine ⟨isFile, ?_⟩
  intro maxBytes room
  rcases file.reads maxBytes room with ⟨result, ran, delivers⟩
  refine ⟨result, ?_, delivers⟩
  rw [exfatReadWalk, DiskM.bind_run followed] at ran
  simp only [isFile, Bool.false_eq_true, if_false] at ran
  rcases DiskM.of_bind ran with ⟨value, device, read, returned⟩
  simp only [DiskM.pure_apply, Option.some.injEq, Prod.mk.injEq, true_and] at returned
  rw [read, returned.1, returned.2]

theorem Holding.hasFile {v : Vol} {fuel : Nat} {sectors : Nat → Buffer}
    {comps : List (List UInt8)} {content : List UInt8} {info : EntryInfo}
    (holding : Holding v fuel sectors content info)
    (followed : followWalk fuel comps v.rootClus v (Device.healthy sectors) =
      some ((v, .ok (some info)), Device.healthy sectors)) :
    HasFile v fuel sectors comps content := by
  refine ⟨⟨info, followed, holding.isFile⟩, ?_⟩
  intro maxBytes room
  rcases holding.reads maxBytes room with ⟨result, read, delivers⟩
  refine ⟨result, ?_, delivers⟩
  rw [exfatReadWalk, DiskM.bind_run followed]
  simp only [holding.isFile, Bool.false_eq_true, if_false]
  rw [DiskM.bind_run read]
  rfl

/-- Whichever writes fail while the file at the path is overwritten, it is then read with
its old or with the new content. -/
def OldOrNew (v : Vol) (fuel : Nat) (sectors : Nat → Buffer) (path : CString)
    (old data : List UInt8) : Prop :=
  ∀ device : Device, device.sectors = sectors → (∀ call, device.readFaults call = false) →
    ∃ code device', exfatWriteFile v fuel path.componentsLong data device =
        some ((v, code), device') ∧
      (HasFile v fuel device'.sectors path.componentsLong old ∨
        HasFile v fuel device'.sectors path.componentsLong data)

/-- The small volume after an empty file `A` was written. -/
theorem exfatVol_emptyFile :
    ∃ code sectors, Call.run (.writeFile (.ofArray [0x41]) []) 19 exfatVol
        (Device.healthy (exfatImage 6)) = some ((exfatVol, code), Device.healthy sectors) ∧
      ExfatSound exfatVol sectors ∧ HasFile exfatVol 19 sectors [[0x41]] [] ∧
      followWalk 19 [[0x41]] 4 exfatVol (Device.healthy sectors) =
        some ((exfatVol, .ok (some ⟨0, 0, false, 4, 32⟩)), Device.healthy sectors) := by
  rcases Call.keeps_exfatSound exfatImage_sound (show _ < 19 by decide)
    (.writeFile (.ofArray [0x41]) []) (by unfold Call.SetsFit; decide) with
    ⟨code, sectors, ran, volume⟩
  have observed : ((Call.run (.writeFile (.ofArray [0x41]) []) 19 exfatVol >>= fun _ =>
      followWalk 19 [[0x41]] 4 exfatVol) (Device.healthy (exfatImage 6))).map (·.1.2.toOption) =
        some (some (some ⟨0, 0, false, 4, 32⟩)) := by
    decide +kernel
  rcases volume with ⟨shape, bitmap, sound⟩
  rcases sound.owned.dirAt_root with ⟨chain, root⟩
  have looked : exfatFindInDir [0x41] 19 4 exfatVol (Device.healthy sectors) = _ :=
    exfatFindInDir_spec shape (by decide) [0x41] sound root
  have followed : followWalk 19 [[0x41]] 4 exfatVol (Device.healthy sectors) =
      some ((exfatVol, .ok (some ⟨0, 0, false, 4, 32⟩)), Device.healthy sectors) := by
    rw [DiskM.bind_run ran, followWalk, DiskM.bind_run looked] at observed
    rw [followWalk, DiskM.bind_run looked]
    cases found : lookup exfatVol (exfatView exfatVol sectors) [0x41] (chainPlaces exfatVol chain)
      with
    | error code =>
        rw [found] at observed
        simp [Except.toOption] at observed
    | ok info =>
        rw [found] at observed
        simp only [List.isEmpty_nil, if_true, DiskM.pure_apply, Option.map_some, Except.toOption,
          Option.some.injEq] at observed
        subst observed
        rfl
  refine ⟨code, sectors, ran, ⟨shape, bitmap, sound⟩, ?_, followed⟩
  apply Holding.hasFile _ followed
  refine ⟨rfl, fun maxBytes _ => ⟨⟨-1, 0, []⟩, ?_, by simp, rfl, rfl⟩⟩
  simp [readFileFromCluster]

end ParanOS

import ParanOS.Fat.File
import ParanOS.Fat.Lookup

/-! # Data transfer on linked clusters

What the sector loops of `fs_fat32.c` read and store, in terms of the view of a
healthy device as linked clusters.
-/

namespace ParanOS

open Foundation

/-- The bytes of a cluster in order. -/
def clusterData (v : Vol) (store : ClusterStore) (cl : Nat) : List UInt8 :=
  (List.range v.secPerClus).flatMap fun index => (store.sector cl index).bytes 0 v.bytesPerSec

/-- The bytes of a chain of clusters in order. -/
def chainData (v : Vol) (store : ClusterStore) (chain : List Nat) : List UInt8 :=
  chain.flatMap (clusterData v store)

theorem chainData_cons (v : Vol) (store : ClusterStore) (cl : Nat) (rest : List Nat) :
    chainData v store (cl :: rest) = clusterData v store cl ++ chainData v store rest :=
  List.flatMap_cons

theorem chainData_congr {v : Vol} {store store' : ClusterStore} {chain : List Nat}
    (same : ∀ cl ∈ chain, store'.sector cl = store.sector cl) :
    chainData v store' chain = chainData v store chain := by
  simp only [chainData, List.flatMap_def]
  congr 1
  apply List.map_congr_left
  intro cl member
  simp only [clusterData, same cl member]

/-! ## Reading -/

/-- The bytes of the sectors that a cluster's number leads to, in order. -/
def deviceCluster (v : Vol) (sectors : Nat → Buffer) (cl : Nat) : List UInt8 :=
  (List.range v.secPerClus).flatMap fun index =>
    (sectors (u32 (clusToLba v cl + index))).bytes 0 v.bytesPerSec

/-- The bytes of the clusters of a chain on the device. -/
def deviceData (v : Vol) (sectors : Nat → Buffer) (chain : List Nat) : List UInt8 :=
  chain.flatMap (deviceCluster v sectors)

theorem deviceCluster_length (v : Vol) (sectors : Nat → Buffer) (cl : Nat) :
    (deviceCluster v sectors cl).length = v.secPerClus * v.bytesPerSec := by
  simp [deviceCluster, List.length_flatMap]

theorem deviceData_cons (v : Vol) (sectors : Nat → Buffer) (cl : Nat) (rest : List Nat) :
    deviceData v sectors (cl :: rest) = deviceCluster v sectors cl ++ deviceData v sectors rest :=
  List.flatMap_cons

theorem readSectors_device (v : Vol) (sectors : Nat → Buffer) (lba count s left : Nat)
    (out : List UInt8) :
    readSectors v lba count s left out (Device.healthy sectors) =
      some ((false, left - count * v.bytesPerSec,
        out ++ ((List.range' s count).flatMap fun index =>
          (sectors (u32 (lba + index))).bytes 0 v.bytesPerSec).take left),
        Device.healthy sectors) := by
  induction count generalizing s left out with
  | zero => simp [readSectors]
  | succ count induction =>
      by_cases done : left = 0
      · subst done
        simp [readSectors]
      · simp only [readSectors, done, if_false, DiskM.bind_apply, rd_healthy, Option.bind_some]
        rw [induction (s + 1), List.range'_succ, List.flatMap_cons,
          List.take_append, Buffer.bytes_length, Buffer.bytes_take]
        have remaining : left - min left v.bytesPerSec = left - v.bytesPerSec := by omega
        have total : left - v.bytesPerSec - count * v.bytesPerSec =
            left - (count + 1) * v.bytesPerSec := by
          rw [Nat.add_mul, Nat.one_mul]
          omega
        rw [remaining, total, List.append_assoc]

theorem readClusters_device {v : Vol} {sectors : Nat → Buffer} {start fuel : Nat}
    {chain : List Nat} (linked : Linked (fatEntry v sectors) EndOfChain start chain)
    (enough : chain.length < fuel) (left : Nat) (out : List UInt8) :
    readClusters v fuel start left out (Device.healthy sectors) =
      some ((false, out ++ (deviceData v sectors chain).take left),
        Device.healthy sectors) := by
  induction linked, enough using Linked.walk generalizing left out with
  | nil stopped =>
      have ended : isEndCluster _ = true := stopped
      simp [readClusters, ended, deviceData]
  | @cons cl rest fuel running tail shorter induction =>
      have going : isEndCluster cl = false := by
        simpa [EndOfChain] using running
      by_cases done : left = 0
      · subst done
        simp [readClusters]
      · have cluster := readSectors_device v sectors (clusToLba v cl) v.secPerClus 0 left out
        rw [← List.range_eq_range'] at cluster
        simp only [readClusters, going, Bool.false_eq_true, false_or, done, if_false,
          DiskM.bind_apply, cluster, Option.bind_some, fatReadFatEntry_healthy]
        rw [induction]
        rw [deviceData_cons, List.take_append, deviceCluster_length, List.append_assoc]
        rfl

/-! ## Reading data clusters -/

section

variable {v : Vol} {limit : Nat} (geometry : Geometry v limit)
include geometry

/-- The driver reads the links of a chain of data clusters as the table has
them. -/
theorem Geometry.linked_fatEntry {sectors : Nat → Buffer} {start : Nat} {chain : List Nat}
    (linked : Linked (view v limit sectors).next EndOfChain start chain)
    (data : ∀ cl ∈ chain, DataCluster limit cl) :
    Linked (fatEntry v sectors) EndOfChain start chain := by
  apply linked.congr
  intro cl member
  exact geometry.fatEntry_eq sectors (data cl member).2 (linked.not_stop member)

theorem Geometry.deviceCluster_eq (sectors : Nat → Buffer) {cl : Nat}
    (data : DataCluster limit cl) :
    deviceCluster v sectors cl = clusterData v (view v limit sectors) cl := by
  simp only [deviceCluster, clusterData, List.flatMap_def]
  congr 1
  apply List.map_congr_left
  intro index inside
  rw [geometry.sector_eq sectors data (List.mem_range.mp inside)]

theorem Geometry.deviceData_eq (sectors : Nat → Buffer) {chain : List Nat}
    (data : ∀ cl ∈ chain, DataCluster limit cl) :
    deviceData v sectors chain = chainData v (view v limit sectors) chain := by
  simp only [deviceData, chainData, List.flatMap_def]
  congr 1
  apply List.map_congr_left
  exact fun cl member => geometry.deviceCluster_eq sectors (data cl member)

theorem readClusters_healthy {sectors : Nat → Buffer} {start fuel : Nat} {chain : List Nat}
    (linked : Linked (view v limit sectors).next EndOfChain start chain)
    (range : ∀ cl ∈ chain, DataCluster limit cl) (enough : chain.length < fuel) (left : Nat)
    (out : List UInt8) :
    readClusters v fuel start left out (Device.healthy sectors) =
      some ((false, out ++ (chainData v (view v limit sectors) chain).take left),
        Device.healthy sectors) := by
  rw [← geometry.deviceData_eq sectors range]
  exact readClusters_device (geometry.linked_fatEntry linked range) enough left out

end

/-- The result of reading a file with this start cluster and size. -/
def fileResult (v : Vol) (store : ClusterStore) (start size maxBytes : Nat)
    (chain : List Nat) : ReadResult :=
  if start = 0 then ⟨-1, 0, []⟩
  else ⟨0, min size maxBytes, (chainData v store chain).take (min size maxBytes)⟩

theorem readFileFromCluster_healthy {v : Vol} {limit : Nat} (geometry : Geometry v limit)
    {sectors : Nat → Buffer} {start fuel : Nat} {chain : List Nat}
    (dir : start ≠ 0 → DirChain v limit (view v limit sectors) start chain)
    (enough : limit < fuel) (size maxBytes : Nat) :
    readFileFromCluster v fuel start size maxBytes (Device.healthy sectors) =
      some (fileResult v (view v limit sectors) start size maxBytes chain,
        Device.healthy sectors) := by
  by_cases vacant : start = 0
  · simp [readFileFromCluster, fileResult, vacant]
  · have length := (dir vacant).length_lt
    have read := readClusters_healthy geometry (dir vacant).linked (dir vacant).data
      (show chain.length < fuel by omega) (min size maxBytes) []
    simp [readFileFromCluster, fileResult, vacant, read]

/-! ## Writing -/

/-- The sectors in which `src` is laid out. -/
def pieces (v : Vol) (src : List UInt8) (index : Nat) : Buffer :=
  Buffer.ofList ((src.drop (index * v.bytesPerSec)).take v.bytesPerSec)

/-- Writing into a cluster changes that cluster, as far as the writes go. -/
theorem writeSectors_runs {trouble : Trouble} {v : Vol} {limit : Nat}
    (geometry : Geometry v limit) {clus : Nat} (data : DataCluster limit clus) (count s : Nat)
    (src : List UInt8) (fits : s + count ≤ v.secPerClus) (sectors : Nat → Buffer) :
    Runs trouble (writeSectors v (clusToLba v clus) count s src) sectors
      fun failed sectors' =>
        ClusterStore.Undisturbed (fun _ => True) (· ≠ clus) (view v limit sectors)
          (view v limit sectors') ∧ Confined v limit sectors sectors' ∧
        (failed = true ∧ trouble.writes = true ∨
          failed = false ∧ view v limit sectors' =
            (view v limit sectors).writeRun clus s count fun index =>
              pieces v src (index - s)) := by
  induction count generalizing s src sectors with
  | zero =>
      exact .pure ⟨.refl _ _ _, .refl _ _ _,
        .inr ⟨rfl, (ClusterStore.writeRun_zero _ _ _ _).symm⟩⟩
  | succ count induction =>
      have stored := geometry.view_store sectors
        (Buffer.ofList (src.take v.bytesPerSec)) data (show s < v.secPerClus by omega)
      rw [writeSectors]
      apply Runs.wr_bind
      · exact fun may => .pure ⟨.refl _ _ _, .refl _ _ _, .inl ⟨rfl, may⟩⟩
      · rw [if_neg Bool.false_ne_true]
        apply (induction (s + 1) (src.drop v.bytesPerSec) (by omega) _).mono
        intro failed sectors' outcome
        rw [stored] at outcome
        rcases outcome with ⟨kept, confined, complete⟩
        refine ⟨(ClusterStore.Undisturbed.write _ _ (by simp)).trans kept,
          (Confined.store_cluster geometry _ data (by omega)).trans confined,
          complete.imp_right ?_⟩
        intro done
        refine ⟨done.1, ?_⟩
        rw [done.2, ClusterStore.writeRun_succ]
        have head : pieces v src (s - s) = Buffer.ofList (src.take v.bytesPerSec) := by
          simp [pieces]
        rw [head]
        apply ClusterStore.writeRun_congr
        intro position lower _
        have shift : position - s = position - (s + 1) + 1 := by omega
        rw [pieces, pieces, List.drop_drop, shift, Nat.add_mul, Nat.one_mul, Nat.add_comm]

theorem writeSectors_healthy {v : Vol} {limit : Nat} (geometry : Geometry v limit)
    (sectors : Nat → Buffer) {clus : Nat} (data : DataCluster limit clus) (count s : Nat)
    (src : List UInt8) (fits : s + count ≤ v.secPerClus) :
    ∃ sectors', writeSectors v (clusToLba v clus) count s src (Device.healthy sectors) =
        some (false, Device.healthy sectors') ∧
      view v limit sectors' = (view v limit sectors).writeRun clus s count
        fun index => pieces v src (index - s) := by
  rcases (writeSectors_runs geometry data count s src fits sectors).healthy with
    ⟨failed, sectors', ran, _, _, ⟨_, impossible⟩ | ⟨rfl, written⟩⟩
  · exact absurd impossible Bool.false_ne_true
  · exact ⟨sectors', ran, written⟩

/-- A cluster over which data is laid out holds its first bytes, and zeros
behind them. -/
theorem clusterData_pieces (v : Vol) (store : ClusterStore) (clus : Nat)
    (src : List UInt8) :
    clusterData v (store.writeRun clus 0 v.secPerClus (pieces v src)) clus =
      (Buffer.ofList src).bytes 0 (v.secPerClus * v.bytesPerSec) := by
  rw [← Buffer.bytes_windows, clusterData, List.flatMap_def, List.flatMap_def]
  congr 1
  apply List.map_congr_left
  intro index member
  have inside := List.mem_range.mp member
  rw [ClusterStore.writeRun_sector_inside (by omega) (by omega), pieces,
    Buffer.bytes_ofList_piece]

/-- A cluster filled with data, followed by zeros. -/
def storeData (v : Vol) (store : ClusterStore) (clus : Nat) (data : List UInt8) :
    ClusterStore :=
  store.writeRun clus 0 v.secPerClus (pieces v (data.take (v.secPerClus * v.bytesPerSec)))

theorem writeSingleCluster_healthy {v : Vol} {limit : Nat} (geometry : Geometry v limit)
    (sectors : Nat → Buffer) {clus : Nat} (range : DataCluster limit clus)
    (running : ¬ EndOfChain clus) (data : List UInt8) :
    ∃ sectors', writeSingleCluster v clus data (Device.healthy sectors) =
        some (0, Device.healthy sectors') ∧
      view v limit sectors' = (storeData v (view v limit sectors) clus data).link clus
        eocMark := by
  rcases writeSectors_healthy geometry sectors range v.secPerClus 0
    (data.take (v.secPerClus * v.bytesPerSec)) (by omega) with ⟨middle, ran, after⟩
  refine ⟨setFatEntry v middle clus eocMark, ?_, ?_⟩
  · have nonzero : clus ≠ 0 := by
      have lower := range.1
      omega
    simp [writeSingleCluster, nonzero, ran]
  · rw [geometry.view_setFatEntry middle eocMark range.2 running, after]
    rfl

/-- Of a file written to one cluster, what is read back. -/
theorem chainData_storeData_take (v : Vol) (store store' : ClusterStore) (clus : Nat)
    (data : List UInt8)
    (same : store'.sector clus = (storeData v store clus data).sector clus) {limit : Nat}
    (short : limit ≤ data.length) (fits : limit ≤ v.secPerClus * v.bytesPerSec) :
    (chainData v store' [clus]).take limit = data.take limit := by
  have cluster : chainData v store' [clus] = clusterData v (storeData v store clus data) clus := by
    simp [chainData, clusterData, same]
  rw [cluster, storeData, clusterData_pieces, Buffer.bytes_ofList_take _ _ fits]
  · rw [List.take_take, Nat.min_eq_left fits]
  · rw [List.length_take]
    omega

end ParanOS

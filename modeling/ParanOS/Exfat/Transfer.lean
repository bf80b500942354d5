import Mathlib.Algebra.Order.Floor.Div
import ParanOS.Exfat.Contract

/-! # Chain data

`exfat_write_chain` and `read_file_from_cluster` cut the data into clusters,
sectors and a last piece on their own. Both are described here on the sectors
of the device that a chain leads to, wherever its clusters are.
-/

namespace ParanOS

open Foundation

/-- A sector of a cluster, as the call-backs receive it. -/
def clusterSector (v : Vol) (cl index : Nat) : Nat := u32 (clusToLba v cl + index)

/-! ## One cluster -/

/-- What storing data from sector `s` on leaves behind. -/
theorem writeSectors_device {v : Vol} {cl : Nat} (count s : Nat) (src : List UInt8)
    (apart : ∀ index, s ≤ index → index < s + count → ∀ index', s ≤ index' →
      index' < s + count → clusterSector v cl index = clusterSector v cl index' →
      index = index')
    (sectors : Nat → Buffer) :
    ∃ sectors', writeSectors v (clusToLba v cl) count s src (Device.healthy sectors) =
        some (false, Device.healthy sectors') ∧
      (∀ index, s ≤ index → index < s + count →
        sectors' (clusterSector v cl index) = pieces v src (index - s)) ∧
      ∀ lba, (∀ index, s ≤ index → index < s + count → lba ≠ clusterSector v cl index) →
        sectors' lba = sectors lba := by
  induction count generalizing s src sectors with
  | zero => exact ⟨sectors, rfl, fun index lower upper => by omega, fun _ _ => rfl⟩
  | succ count induction =>
      have later := induction (s + 1) (src.drop v.bytesPerSec)
        (fun index lower upper index' lower' upper' same =>
          apart index (by omega) (by omega) index' (by omega) (by omega) same)
        (store sectors (clusterSector v cl s) (Buffer.ofList (src.take v.bytesPerSec)))
      rcases later with ⟨sectors', ran, written, kept⟩
      have first : sectors' (clusterSector v cl s) =
          Buffer.ofList (src.take v.bytesPerSec) := by
        rw [kept]
        · simp [store]
        · intro index lower upper same
          have equal := apart s (by omega) (by omega) index (by omega) (by omega) same
          omega
      refine ⟨sectors', ?_, ?_, ?_⟩
      · simp only [writeSectors, DiskM.bind_apply, wr_healthy, Option.bind_some,
          Bool.false_eq_true, if_false]
        exact ran
      · intro index lower upper
        by_cases here : index = s
        · rw [here, first]
          simp [pieces]
        · have shift : index - s = index - (s + 1) + 1 := by omega
          rw [written index (by omega) (by omega), pieces, pieces, List.drop_drop, shift,
            Nat.add_mul, Nat.one_mul, Nat.add_comm]
      · intro lba outside
        rw [kept lba fun index lower upper => outside index (by omega) (by omega)]
        simp [store, outside s (by omega) (by omega)]

/-! ## A chain -/

/-- The chain from a start cluster, when the sectors of its clusters are
different and hold none of its links. -/
structure ChainLaid (v : Vol) (sectors : Nat → Buffer) (start : Nat) (members : List Nat) :
    Prop where
  linked : Linked (fatEntry v sectors) EndOfChain start members
  table : ∀ cl ∈ members, ∀ index < v.secPerClus, ∀ other ∈ members,
    clusterSector v cl index ≠ fatSector v other
  apart : ∀ cl ∈ members, ∀ index < v.secPerClus, ∀ cl' ∈ members, ∀ index' < v.secPerClus,
    clusterSector v cl index = clusterSector v cl' index' → cl = cl' ∧ index = index'

/-- A chain of data clusters is laid out so when the table and the clusters of
the volume do not overlap. -/
theorem Geometry.chainLaid {v : Vol} {limit : Nat} (geometry : Geometry v limit)
    {sectors : Nat → Buffer} {start : Nat} {members : List Nat}
    (linked : Linked (view v limit sectors).next EndOfChain start members)
    (data : ∀ cl ∈ members, DataCluster limit cl) : ChainLaid v sectors start members where
  linked := geometry.linked_fatEntry linked data
  table := by
    intro cl member index inside other otherMember same
    have below := (data other otherMember).2
    rw [clusterSector, geometry.address_eq (data cl member) inside,
      geometry.fatSector_eq below (linked.not_stop otherMember)] at same
    have table := geometry.table_below other below
    omega
  apart := by
    intro cl member index inside cl' member' index' inside' same
    rw [clusterSector, clusterSector, geometry.address_eq (data cl member) inside,
      geometry.address_eq (data cl' member') inside'] at same
    exact geometry.address_injective (data cl member) (data cl' member') inside inside' same

/-- Sectors outside the clusters of a chain. -/
def OutsideChain (v : Vol) (members : List Nat) (lba : Nat) : Prop :=
  ∀ cl ∈ members, ∀ index < v.secPerClus, lba ≠ clusterSector v cl index

/-- A cluster over which data is laid out. -/
theorem deviceCluster_pieces {v : Vol} {sectors : Nat → Buffer} {cl : Nat} {src : List UInt8}
    (written : ∀ index < v.secPerClus, sectors (clusterSector v cl index) = pieces v src index) :
    deviceCluster v sectors cl = (Buffer.ofList src).bytes 0 v.clusterBytes := by
  have size : v.clusterBytes = v.secPerClus * v.bytesPerSec := Nat.mul_comm _ _
  rw [size, ← Buffer.bytes_windows, deviceCluster, List.flatMap_def, List.flatMap_def]
  congr 1
  apply List.map_congr_left
  intro index member
  have sector := written index (List.mem_range.mp member)
  simp only [clusterSector] at sector
  rw [sector, pieces, Buffer.bytes_ofList_piece]

namespace ChainLaid

variable {v : Vol} {sectors sectors' : Nat → Buffer} {start : Nat} {members : List Nat}

/-- Writes into the clusters of a chain leave its links. -/
theorem fatEntry_kept (laid : ChainLaid v sectors start members)
    (kept : ∀ lba, OutsideChain v members lba → sectors' lba = sectors lba) {cl : Nat}
    (member : cl ∈ members) : fatEntry v sectors' cl = fatEntry v sectors cl := by
  rw [fatEntry, fatEntry, kept]
  intro other otherMember index inside same
  exact laid.table other otherMember index inside cl member same.symm

theorem rest {head next : Nat} {rest : List Nat}
    (laid : ChainLaid v sectors head (head :: rest))
    (linked : Linked (fatEntry v sectors) EndOfChain next rest) :
    ChainLaid v sectors next rest where
  linked := linked
  table := fun cl member index inside other otherMember =>
    laid.table cl (by simp [member]) index inside other (by simp [otherMember])
  apart := fun cl member index inside cl' member' index' inside' =>
    laid.apart cl (by simp [member]) index inside cl' (by simp [member']) index' inside'

theorem congr (laid : ChainLaid v sectors start members)
    (links : ∀ cl ∈ members, fatEntry v sectors' cl = fatEntry v sectors cl) :
    ChainLaid v sectors' start members where
  linked := laid.linked.congr links
  table := laid.table
  apart := laid.apart

/-- Storing data in a chain changes its clusters only, and what fits is there
afterwards. -/
theorem exfatWriteChain_device {fuel : Nat} (laid : ChainLaid v sectors start members)
    (enough : members.length < fuel) (src : List UInt8) :
    ∃ sectors', exfatWriteChain v fuel start src (Device.healthy sectors) =
        some (0, Device.healthy sectors') ∧
      (∀ lba, OutsideChain v members lba → sectors' lba = sectors lba) ∧
      (src.length ≤ members.length * v.clusterBytes →
        (deviceData v sectors' members).take src.length = src) := by
  induction members generalizing sectors start fuel src with
  | nil =>
      cases laid.linked with
      | nil stopped =>
          cases fuel with
          | zero => simp at enough
          | succ fuel =>
              have ended : isEndCluster start = true := stopped
              refine ⟨sectors, by simp [exfatWriteChain, ended], fun _ _ => rfl, ?_⟩
              intro short
              have empty : src = [] := by simpa using short
              simp [empty]
  | cons head rest induction =>
      cases laid.linked with
      | cons running tail =>
          cases fuel with
          | zero => simp at enough
          | succ fuel =>
              by_cases done : src = []
              · subst done
                exact ⟨sectors, by simp [exfatWriteChain], fun _ _ => rfl, by simp⟩
              · have nodup := List.nodup_cons.mp (Linked.cons running tail).nodup
                have going : isEndCluster head = false := by
                  simpa [EndOfChain] using running
                have headMember : head ∈ head :: rest := by simp
                have different : ∀ index, 0 ≤ index → index < 0 + v.secPerClus → ∀ index',
                    0 ≤ index' → index' < 0 + v.secPerClus →
                    clusterSector v head index = clusterSector v head index' → index = index' :=
                  fun index _ inside index' _ inside' same =>
                    (laid.apart head headMember index (by omega) head headMember index'
                      (by omega) same).2
                rcases writeSectors_device v.secPerClus 0 src different sectors with
                  ⟨middle, ran, written, kept⟩
                have middleKept : ∀ lba, OutsideChain v (head :: rest) lba →
                    middle lba = sectors lba := by
                  intro lba outside
                  apply kept
                  intro index _ inside
                  exact outside head headMember index (by omega)
                have links : ∀ cl ∈ head :: rest, fatEntry v middle cl = fatEntry v sectors cl :=
                  fun cl member => laid.fatEntry_kept middleKept member
                have laid' : ChainLaid v middle (fatEntry v sectors head) rest :=
                  (laid.rest tail).congr fun cl member => links cl (by simp [member])
                rcases induction laid' (by simpa using enough) (src.drop v.clusterBytes) with
                  ⟨sectors', restRan, restKept, content⟩
                refine ⟨sectors', ?_, ?_, ?_⟩
                · rw [exfatWriteChain, if_neg (by simp [going, done]), DiskM.bind_run ran]
                  simp only [Bool.false_eq_true, if_false]
                  rw [DiskM.bind_run (fatReadFatEntry_healthy v head middle),
                    links head headMember]
                  exact restRan
                · intro lba outside
                  rw [restKept lba fun cl member => outside cl (by simp [member])]
                  exact middleKept lba outside
                · intro short
                  have first : deviceCluster v sectors' head =
                      (Buffer.ofList src).bytes 0 v.clusterBytes := by
                    apply deviceCluster_pieces
                    intro index inside
                    rw [restKept, written index (by omega) (by omega), Nat.sub_zero]
                    -- the rest of the chain has other clusters
                    intro cl member index' inside' same
                    have equal := (laid.apart head headMember index inside cl (by simp [member])
                      index' inside' same).1
                    exact nodup.1 (equal ▸ member)
                  have rest' := content (by
                    rw [List.length_cons, Nat.add_mul, Nat.one_mul] at short
                    rw [List.length_drop]
                    omega)
                  rw [List.length_drop] at rest'
                  rw [deviceData_cons, first, List.take_append, Buffer.bytes_length, rest']
                  exact bytes_ofList_append_drop src v.clusterBytes

end ChainLaid

/-- What was stored in a chain is read back, up to the limit of the reader. -/
theorem exfatWriteChain_readBack {v : Vol} {sectors : Nat → Buffer} {start fuel : Nat}
    {members : List Nat} {data : List UInt8} (sectorSize : v.bytesPerSec = 512)
    (clusterSize : 0 < v.secPerClus) (occupied : start ≠ 0)
    (laid : ChainLaid v sectors start members) (enough : members.length < fuel)
    (room : data.length ⌈/⌉ v.clusterBytes ≤ members.length) :
    ∃ sectors', exfatWriteChain v fuel start data (Device.healthy sectors) =
        some (0, Device.healthy sectors') ∧
      (∀ maxBytes, readFileFromCluster v fuel start data.length maxBytes
          (Device.healthy sectors') =
        some (⟨0, min data.length maxBytes, data.take (min data.length maxBytes)⟩,
          Device.healthy sectors')) ∧
      ∀ lba, OutsideChain v members lba → sectors' lba = sectors lba := by
  have positive : 0 < v.clusterBytes := Nat.mul_pos (by omega) clusterSize
  have fits : data.length ≤ members.length * v.clusterBytes := by
    rw [Nat.mul_comm]
    exact (ceilDiv_le_iff_le_mul positive).mp room
  rcases laid.exfatWriteChain_device enough data with ⟨sectors', ran, kept, content⟩
  have laid' := laid.congr fun cl member => laid.fatEntry_kept kept member
  have whole := content fits
  refine ⟨sectors', ran, ?_, kept⟩
  intro maxBytes
  have read := readClusters_device laid'.linked enough (min data.length maxBytes) []
  have stored : (deviceData v sectors' members).take (min data.length maxBytes) =
      data.take (min data.length maxBytes) := by
    have inner := congrArg (List.take (min data.length maxBytes)) whole
    rw [List.take_take, Nat.min_eq_left (Nat.min_le_left _ _)] at inner
    exact inner
  rw [stored, List.nil_append] at read
  simp [readFileFromCluster, occupied, read]

/-- The clusters 5 and 6 of the small volume in a chain. -/
def exfatPair : Nat → Buffer :=
  setFatEntry exfatVol (setFatEntry exfatVol (exfatImage 6) 5 6) 6 eocMark

theorem exfatPair_laid : ChainLaid exfatVol exfatPair 5 [5, 6] := by
  apply exfatVol_shape.geometry.chainLaid
  · refine .cons (by decide) ?_
    have second : (view exfatVol (exfatVol.exfatClusterCount + 2) exfatPair).next 5 = 6 := by
      decide
    rw [second]
    exact .single (by decide) (by decide)
  · intro cl member
    rcases List.mem_pair.mp member with rfl | rfl
    · exact ⟨by decide, by decide⟩
    · exact ⟨by decide, by decide⟩

theorem exfatWriteChain_readBack_small :
    ∃ sectors', exfatWriteChain exfatVol 3 5 (List.replicate 700 0x41)
        (Device.healthy exfatPair) = some (0, Device.healthy sectors') ∧
      (∀ maxBytes, readFileFromCluster exfatVol 3 5 (List.replicate 700 (0x41 : UInt8)).length
          maxBytes (Device.healthy sectors') =
        some (⟨0, min (List.replicate 700 (0x41 : UInt8)).length maxBytes,
          (List.replicate 700 0x41).take
            (min (List.replicate 700 (0x41 : UInt8)).length maxBytes)⟩,
          Device.healthy sectors')) ∧
      ∀ lba, OutsideChain exfatVol [5, 6] lba → sectors' lba = exfatPair lba :=
  exfatWriteChain_readBack rfl (by decide) (by decide) exfatPair_laid (by decide)
    (by rw [List.length_replicate]; decide)

end ParanOS

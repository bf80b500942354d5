import ParanOS.Exfat.Allocation
import ParanOS.Fat.Transfer

/-! # File content on exFAT

Allocating the clusters of a file and filling them.
-/

namespace ParanOS

open Foundation

section

variable {v : Vol} (shape : ExfatGeometry v)
include shape

/-! ## Allocating by size -/

/-- The device after an allocation that found too little room. A size whose
rounding up overflows asks for no cluster, and the end mark goes into entry 0. -/
def refusedSectors (v : Vol) (sectors : Nat → Buffer) (need : Nat) : Nat → Buffer :=
  if need = 0 then setFatEntry v sectors 0 eocMark else sectors

theorem exfatAllocChainForSize_spec {sectors : Nat → Buffer} {chain : List Nat}
    {fuel : Nat} (enough : v.exfatClusterCount + 2 < fuel)
    (agreed : Agreed v (exfatView v sectors) chain) {bytes : Nat} (wanted : bytes ≠ 0) :
    (∃ start sectors' taken,
      exfatAllocChainForSize v fuel bytes (Device.healthy sectors) =
        some (start, Device.healthy sectors') ∧
      Taken v chain (exfatView v sectors) (exfatView v sectors') start taken ∧
      start ≠ 0 ∧ taken.length = clustersNeeded v bytes ∧
      ExfatConfined v sectors sectors') ∨
    (exfatAllocChainForSize v fuel bytes (Device.healthy sectors) =
        some (0, Device.healthy (refusedSectors v sectors (clustersNeeded v bytes))) ∧
      (clustersNeeded v bytes = 0 ∨
        (freeList v (exfatView v sectors)).length < clustersNeeded v bytes)) := by
  rw [exfatAllocChainForSize, if_neg wanted]
  by_cases overflow : clustersNeeded v bytes = 0
  · refine .inr ⟨?_, .inl overflow⟩
    rw [refusedSectors, if_pos overflow, overflow, allocChain,
      DiskM.bind_run (fatWriteFatEntry_healthy v 0 eocMark sectors)]
    rfl
  · rcases allocChain_spec shape enough agreed (.none agreed) (.refl _ _ sectors)
      (clustersNeeded v bytes) (.inr overflow) with
      ⟨start, sectors', taken, ran, state, length, confined⟩ | ⟨ran, short⟩
    · have nonempty : taken ≠ [] := by
        intro empty
        rw [empty] at length
        simp only [List.length_nil, Nat.zero_add] at length
        exact overflow length.symm
      rw [List.length_nil, Nat.zero_add] at length
      exact .inl ⟨start, sectors', taken, ran, state, state.first_ne_zero nonempty, length,
        confined⟩
    · rw [List.length_nil, Nat.zero_add] at short
      refine .inr ⟨?_, .inr short⟩
      rw [refusedSectors, if_neg overflow]
      exact ran

/-! ## Filling clusters -/

theorem exfatZeroCluster_healthy (sectors : Nat → Buffer) {cl : Nat}
    (data : DataCluster (v.exfatClusterCount + 2) cl) :
    ∃ sectors', exfatZeroCluster v cl (Device.healthy sectors) =
        some (0, Device.healthy sectors') ∧
      exfatView v sectors' =
        (exfatView v sectors).writeRun cl 0 v.secPerClus fun _ _ => 0 := by
  rcases writeSectors_healthy shape.geometry sectors data v.secPerClus 0 [] (by omega) with
    ⟨sectors', ran, after⟩
  refine ⟨sectors', ?_, ?_⟩
  · rw [exfatZeroCluster, DiskM.bind_run ran]
    rfl
  · rw [exfatView, after]
    apply ClusterStore.writeRun_congr
    intro position _ _
    funext offset
    simp [pieces, Buffer.ofList]

omit shape in
/-- The first bytes of a list as laid out, and the rest of it. -/
theorem bytes_ofList_append_drop (src : List UInt8) (count : Nat) :
    ((Buffer.ofList src).bytes 0 count).take src.length ++ src.drop count = src := by
  have first : ((Buffer.ofList src).bytes 0 count).take src.length =
      src.take (min src.length count) := by
    rw [← @Buffer.bytes_ofList_take src count _ (by omega) (by omega),
      Buffer.bytes_take, Buffer.bytes_take]
    congr 1
    omega
  rw [first, Nat.min_comm, ← List.take_take, List.take_length, List.take_append_drop]

/-- Of clusters that are written one after another, what is read back. -/
theorem exfatWriteChain_healthy {sectors : Nat → Buffer} {start fuel : Nat}
    {members : List Nat}
    (linked : Linked (exfatView v sectors).next EndOfChain start members)
    (data : ∀ cl ∈ members, DataCluster (v.exfatClusterCount + 2) cl)
    (enough : members.length < fuel) (src : List UInt8) :
    ∃ sectors', exfatWriteChain v fuel start src (Device.healthy sectors) =
        some (0, Device.healthy sectors') ∧
      (exfatView v sectors').next = (exfatView v sectors).next ∧
      (∀ cl, cl ∉ members → (exfatView v sectors').sector cl = (exfatView v sectors).sector cl) ∧
      (src.length ≤ members.length * v.clusterBytes →
        (chainData v (exfatView v sectors') members).take src.length = src) := by
  induction members generalizing sectors start fuel src with
  | nil =>
      cases linked with
      | nil stopped =>
          cases fuel with
          | zero => simp at enough
          | succ fuel =>
              have ended : isEndCluster start = true := stopped
              refine ⟨sectors, by simp [exfatWriteChain, ended], rfl, fun _ _ => rfl, ?_⟩
              intro short
              have empty : src = [] := by simpa using short
              simp [empty]
  | cons head rest induction =>
      cases linked with
      | cons running tail =>
          cases fuel with
          | zero => simp at enough
          | succ fuel =>
              by_cases done : src = []
              · subst done
                exact ⟨sectors, by simp [exfatWriteChain], rfl, fun _ _ => rfl, by simp⟩
              · have headData := data head (by simp)
                have nodup := List.nodup_cons.mp (Linked.cons running tail).nodup
                have going : isEndCluster head = false := by
                  simpa [EndOfChain] using running
                rcases writeSectors_healthy shape.geometry sectors headData v.secPerClus 0 src
                  (by omega) with ⟨middle, ran, after⟩
                have links : (exfatView v middle).next = (exfatView v sectors).next := by
                  rw [exfatView, after]
                  rfl
                have tail' : Linked (exfatView v middle).next EndOfChain
                    ((exfatView v sectors).next head) rest := by
                  rw [links]
                  exact tail
                rcases induction tail' (fun cl member => data cl (by simp [member]))
                  (by simpa using enough) (src.drop v.clusterBytes) with
                  ⟨sectors', restRan, links', sectors'Same, content⟩
                refine ⟨sectors', ?_, links'.trans links, ?_, ?_⟩
                · have next := shape.geometry.fatEntry_eq middle headData.2 running
                  rw [exfatWriteChain, if_neg (by simp [going, done]), DiskM.bind_run ran]
                  simp only [Bool.false_eq_true, if_false]
                  rw [DiskM.bind_run (fatReadFatEntry_healthy v head middle), next, links]
                  exact restRan
                · intro cl outside
                  rw [sectors'Same cl fun member => outside (by simp [member])]
                  funext index
                  rw [exfatView, after]
                  apply ClusterStore.writeRun_sector_outside
                  left
                  intro equal
                  exact outside (by simp [equal])
                · intro short
                  have size : v.secPerClus * v.bytesPerSec = v.clusterBytes := Nat.mul_comm _ _
                  have first : clusterData v (exfatView v sectors') head =
                      (Buffer.ofList src).bytes 0 v.clusterBytes := by
                    rw [← size, ← clusterData_pieces v (exfatView v sectors) head src]
                    simp only [clusterData, sectors'Same head nodup.1]
                    rw [exfatView, after]
                    rfl
                  have rest' := content (by
                    rw [List.length_cons, Nat.add_mul, Nat.one_mul] at short
                    rw [List.length_drop]
                    omega)
                  rw [List.length_drop] at rest'
                  rw [chainData_cons, first, List.take_append, Buffer.bytes_length, rest']
                  exact bytes_ofList_append_drop src v.clusterBytes

end

end ParanOS

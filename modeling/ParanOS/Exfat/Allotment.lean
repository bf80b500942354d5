import Mathlib.Algebra.Order.Floor.Div
import ParanOS.Exfat.Contract

/-! # Chains of a given size

`exfat_alloc_chain_for_size` takes clusters one at a time, links them behind
each other and gives them back when the volume runs out. Seen from outside it
either allots a chain of as many clusters as the size needs, or nothing.
-/

namespace ParanOS

open Foundation

/-- The chain of the allotted clusters hangs on its first one and stops there;
they were free, and no other entry or bit of the volume differs. -/
structure Allotted (v : Vol) (chain : List Nat) (before after : Nat → Buffer) (first : Nat)
    (members : List Nat) : Prop where
  visited : Linked (fatEntry v after) EndOfChain first members
  free : ∀ cl ∈ members, DataCluster (v.exfatClusterCount + 2) cl ∧
    fatEntry v before cl = 0 ∧ bitOf (exfatView v before) (bitPlace v chain cl) = false
  entries : ∀ cl, cl ∉ members → (exfatView v after).next cl = (exfatView v before).next cl
  bits : ∀ place, (∀ cl ∈ members, place ≠ bitPlace v chain cl) →
    bitOf (exfatView v after) place = bitOf (exfatView v before) place
  confined : ExfatConfined v before after

section

variable {v : Vol} (shape : ExfatGeometry v)
include shape

/-- The size is rounded up to whole clusters. -/
theorem clustersNeeded_eq {bytes : Nat} (nonempty : 1 ≤ bytes)
    (bounded : bytes ≤ 2 ^ 32 - v.clusterBytes) :
    clustersNeeded v bytes = bytes ⌈/⌉ v.clusterBytes := by
  have positive := shape.clusterBytes_pos
  rw [clustersNeeded, Nat.ceilDiv_eq_add_pred_div, u32_of_lt (by omega)]

theorem clustersNeeded_pos {bytes : Nat} (nonempty : 1 ≤ bytes)
    (bounded : bytes ≤ 2 ^ 32 - v.clusterBytes) : 0 < clustersNeeded v bytes := by
  have positive := shape.clusterBytes_pos
  rw [clustersNeeded, u32_of_lt (by omega)]
  exact Nat.div_pos (by omega) positive

theorem Taken.allotted {before after : Nat → Buffer} {chain members : List Nat} {first : Nat}
    (agreed : Agreed v (exfatView v before) chain)
    (state : Taken v chain (exfatView v before) (exfatView v after) first members)
    (occupied : first ≠ 0) (confined : ExfatConfined v before after) :
    Allotted v chain before after first members where
  visited := shape.geometry.linked_fatEntry (state.holds.linked occupied)
    fun _ => state.holds.inside
  free := by
    intro cl member
    have data := state.holds.inside member
    have free := (mem_freeList.mp (state.free cl member)).2.2
    have clear := (agreed.agree cl data).not.mpr (by simpa using free)
    refine ⟨data, ?_, by simpa using clear⟩
    rw [shape.geometry.fatEntry_eq before data.2 (state.holds.not_stop member), free]
  entries := state.links
  bits := by
    intro place outside
    rw [state.bits, if_neg]
    rintro ⟨cl, member, equal⟩
    exact outside cl member equal
  confined := confined

/-- Allocating by size is all or nothing. -/
theorem exfatAllocChainForSize_allOrNothing {sectors : Nat → Buffer} {chain : List Nat}
    {fuel bytes : Nat} (agreed : Agreed v (exfatView v sectors) chain)
    (enough : v.exfatClusterCount + 2 < fuel) (nonempty : 1 ≤ bytes)
    (bounded : bytes ≤ 2 ^ 32 - v.clusterBytes) :
    ∃ first sectors', exfatAllocChainForSize v fuel bytes (Device.healthy sectors) =
        some (first, Device.healthy sectors') ∧
      (first ≠ 0 → ∃ members, Allotted v chain sectors sectors' first members ∧
        members.length = bytes ⌈/⌉ v.clusterBytes ∧ members.Nodup) ∧
      (first = 0 → sectors' = sectors) := by
  have rounded := clustersNeeded_eq shape nonempty bounded
  have positive := clustersNeeded_pos shape nonempty bounded
  cases exfatAllocChainForSize_spec shape enough agreed (show bytes ≠ 0 by omega) with
  | inl taken =>
      rcases taken with ⟨start, sectors', members, ran, state, occupied, length, confined⟩
      refine ⟨start, sectors', ran, ?_, fun vacant => absurd vacant occupied⟩
      intro _
      exact ⟨members, state.allotted shape agreed occupied confined, length.trans rounded,
        state.nodup⟩
  | inr refused =>
      have ran := refused.1
      rw [refusedSectors, if_neg (by omega)] at ran
      exact ⟨0, sectors, ran, fun vacant => absurd rfl vacant, fun _ => rfl⟩

end

/-- Three clusters of the small volume. -/
theorem exfatAllocChainForSize_allOrNothing_small :
    ∃ chain first sectors',
      exfatAllocChainForSize exfatVol 19 1025 (Device.healthy (exfatImage 6)) =
        some (first, Device.healthy sectors') ∧
      (first ≠ 0 → ∃ members, Allotted exfatVol chain (exfatImage 6) sectors' first members ∧
        members.length = 1025 ⌈/⌉ exfatVol.clusterBytes ∧ members.Nodup) ∧
      (first = 0 → sectors' = exfatImage 6) := by
  rcases exfatImage_sound.sound with ⟨chain, sound⟩
  exact ⟨chain, exfatAllocChainForSize_allOrNothing exfatVol_shape sound.agreed (by decide)
    (by decide) (by decide)⟩

end ParanOS

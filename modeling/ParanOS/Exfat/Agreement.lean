import ParanOS.Exfat.Bitmap
import ParanOS.Fat.WellFormed

/-! # The bitmap and the table in agreement

The bits of the bitmap in terms of the view of a device as linked clusters, and
what claiming and releasing a cluster does to the bits and to the table.
-/

namespace ParanOS

open Foundation

/-! ## Bits -/

theorem markByte_testBit (byte : UInt8) {bit other : Nat} (used : Bool) (small : bit < 8) :
    (markByte byte bit used).toNat.testBit other =
      if other = bit then used else byte.toNat.testBit other := by
  have shift : (1 <<< UInt8.ofNat bit : UInt8).toNat = 2 ^ bit := by
    have bound : 2 ^ bit < 2 ^ 8 := Nat.pow_lt_pow_right (by omega) small
    rw [UInt8.toNat_shiftLeft, UInt8.toNat_ofNat', UInt8.toNat_one,
      Nat.mod_eq_of_lt (show bit < 2 ^ 8 by omega), Nat.mod_eq_of_lt small, Nat.shiftLeft_eq,
      Nat.one_mul, Nat.mod_eq_of_lt bound]
  cases used with
  | true =>
      simp only [markByte, if_true, UInt8.toNat_or, Nat.testBit_or, shift, Nat.testBit_two_pow]
      by_cases same : other = bit
      · simp [same]
      · simp [same, Ne.symm same]
  | false =>
      have bound : 2 ^ bit < 2 ^ 8 := Nat.pow_lt_pow_right (by omega) small
      have inverse : (~~~(1 <<< UInt8.ofNat bit : UInt8)).toNat = 2 ^ 8 - (2 ^ bit + 1) := by
        rw [UInt8.toNat_not, shift]
        simp only [UInt8.size]
        omega
      simp only [markByte, Bool.false_eq_true, if_false, UInt8.toNat_and, Nat.testBit_and,
        inverse, Nat.testBit_two_pow_sub_succ bound, Nat.testBit_two_pow]
      by_cases same : other = bit
      · simp [same]
      · by_cases inside : other < 8
        · simp [same, Ne.symm same, inside]
        · have clear : byte.toNat.testBit other = false := by
            apply Nat.testBit_lt_two_pow
            exact Nat.lt_of_lt_of_le byte.toNat_lt
              (Nat.pow_le_pow_right (by omega) (by omega))
          simp [clear, same]

/-- A bit of a store by cluster, sector, byte and bit. -/
structure BitPlace where
  cl : Nat
  s : Nat
  off : Nat
  bit : Nat
  deriving DecidableEq

def bitOf (store : ClusterStore) (place : BitPlace) : Bool :=
  (store.sector place.cl place.s place.off).toNat.testBit place.bit

/-- Change one bit of a store. -/
def setBitOf (store : ClusterStore) (place : BitPlace) (used : Bool) : ClusterStore :=
  let sec := store.sector place.cl place.s
  store.write place.cl place.s (sec.putU8 place.off (markByte (sec place.off) place.bit used))

@[simp] theorem setBitOf_next (store : ClusterStore) (place : BitPlace) (used : Bool) :
    (setBitOf store place used).next = store.next := rfl

theorem setBitOf_sector_other {store : ClusterStore} {place : BitPlace} {used : Bool}
    {cl : Nat} (different : cl ≠ place.cl) :
    (setBitOf store place used).sector cl = store.sector cl := by
  funext index
  exact ClusterStore.write_sector_other (.inl different)

theorem bitOf_setBitOf (store : ClusterStore) {place : BitPlace} (other : BitPlace)
    (used : Bool) (small : place.bit < 8) :
    bitOf (setBitOf store place used) other =
      if other = place then used else bitOf store other := by
  by_cases sameByte : other.cl = place.cl ∧ other.s = place.s ∧ other.off = place.off
  · rcases sameByte with ⟨cl, s, off⟩
    rw [bitOf, setBitOf, cl, s, ClusterStore.write_sector_same, Buffer.putU8, off,
      Buffer.copy_inside (by omega) (by omega), markByte_testBit _ _ small]
    have same : other = place ↔ other.bit = place.bit := by
      constructor
      · intro equal
        rw [equal]
      · intro bits
        cases other
        cases place
        simp_all
    simp only [same, bitOf, cl, s, off]
  · have different : other ≠ place := by
      intro equal
      subst equal
      exact sameByte ⟨rfl, rfl, rfl⟩
    rw [if_neg different, bitOf, bitOf, setBitOf]
    by_cases sameSector : other.cl = place.cl ∧ other.s = place.s
    · rw [sameSector.1, sameSector.2, ClusterStore.write_sector_same, Buffer.putU8,
        Buffer.copy_outside (by omega)]
    · rw [ClusterStore.write_sector_other (by omega)]

/-! ## Where the bit of a cluster is -/

def bitPlace (v : Vol) (chain : List Nat) (cl : Nat) : BitPlace where
  cl := chain.getD ((cl - 2) / 8 / v.clusterBytes) 0
  s := (cl - 2) / 8 % v.clusterBytes / v.bytesPerSec
  off := (cl - 2) / 8 % v.clusterBytes % v.bytesPerSec
  bit := (cl - 2) % 8

theorem bitPlace_small (v : Vol) (chain : List Nat) (cl : Nat) :
    (bitPlace v chain cl).bit < 8 := Nat.mod_lt _ (by omega)

/-- The bitmap's chain, long enough for all clusters. -/
structure Bitmap (v : Vol) (store : ClusterStore) (chain : List Nat) : Prop where
  linked : Linked store.next EndOfChain v.exfatBitmapClus chain
  data : ∀ cl ∈ chain, DataCluster (v.exfatClusterCount + 2) cl
  located : v.exfatBitmapClus ≠ 0
  capacity : v.exfatClusterCount ≤ 8 * (chain.length * v.clusterBytes)
  size : v.exfatClusterCount ≤ 8 * v.exfatBitmapSize

namespace Bitmap

variable {v : Vol} {store store' : ClusterStore} {chain : List Nat}
  (bitmap : Bitmap v store chain)
include bitmap

theorem index_lt {cl : Nat} (data : DataCluster (v.exfatClusterCount + 2) cl) :
    (cl - 2) / 8 / v.clusterBytes < chain.length := by
  have capacity := bitmap.capacity
  have upper := data.2
  have lower := data.1
  apply Nat.div_lt_of_lt_mul
  rw [Nat.mul_comm]
  omega

theorem place_mem {cl : Nat} (data : DataCluster (v.exfatClusterCount + 2) cl) :
    (bitPlace v chain cl).cl ∈ chain := by
  have bound := bitmap.index_lt data
  rw [bitPlace, List.getD_eq_getElem?_getD, List.getElem?_eq_getElem bound]
  exact List.getElem_mem bound

theorem place_injective {cl other : Nat}
    (data : DataCluster (v.exfatClusterCount + 2) cl)
    (data' : DataCluster (v.exfatClusterCount + 2) other)
    (same : bitPlace v chain cl = bitPlace v chain other) : cl = other := by
  have bound := bitmap.index_lt data
  have bound' := bitmap.index_lt data'
  simp only [bitPlace, BitPlace.mk.injEq] at same
  rcases same with ⟨clusters, sectors, offsets, bits⟩
  rw [List.getD_eq_getElem?_getD, List.getD_eq_getElem?_getD, List.getElem?_eq_getElem bound,
    List.getElem?_eq_getElem bound'] at clusters
  have rows := (bitmap.linked.nodup.getElem_inj_iff).mp clusters
  have inside : (cl - 2) / 8 % v.clusterBytes = (other - 2) / 8 % v.clusterBytes := by
    rw [← Nat.div_add_mod ((cl - 2) / 8 % v.clusterBytes) v.bytesPerSec, sectors, offsets,
      Nat.div_add_mod]
  have bytes : (cl - 2) / 8 = (other - 2) / 8 := by
    rw [← Nat.div_add_mod ((cl - 2) / 8) v.clusterBytes, rows, inside, Nat.div_add_mod]
  have lower := data.1
  have lower' := data'.1
  omega

/-- The bitmap survives what leaves its links alone. -/
theorem congr (agree : ∀ cl ∈ chain, store'.next cl = store.next cl) :
    Bitmap v store' chain :=
  ⟨bitmap.linked.congr agree, bitmap.data, bitmap.located, bitmap.capacity, bitmap.size⟩

theorem next_ne_zero {cl : Nat} (member : cl ∈ chain) : store.next cl ≠ 0 :=
  DirChain.next_ne_zero (v := v) ⟨bitmap.linked, bitmap.data⟩ member

end Bitmap

/-- The bit of a cluster is set exactly when its table entry is not zero. -/
structure Agreed (v : Vol) (store : ClusterStore) (chain : List Nat) : Prop where
  bitmap : Bitmap v store chain
  agree : ∀ cl, DataCluster (v.exfatClusterCount + 2) cl →
    (bitOf store (bitPlace v chain cl) = true ↔ store.next cl ≠ 0)

/-! ## Claiming and releasing -/

/-- Mark a cluster as used or free, in the table and in the bitmap. -/
def markCluster (v : Vol) (chain : List Nat) (store : ClusterStore) (cl : Nat) (used : Bool) :
    ClusterStore :=
  setBitOf (store.link cl (if used then eocMark else 0)) (bitPlace v chain cl) used

section

variable {v : Vol} {store : ClusterStore} {chain : List Nat} {cl : Nat}

theorem markCluster_next (used : Bool) (other : Nat) :
    (markCluster v chain store cl used).next other =
      if other = cl then (if used then eocMark else 0) else store.next other := rfl

theorem markCluster_sector (bitmap : Bitmap v store chain)
    (data : DataCluster (v.exfatClusterCount + 2) cl) (used : Bool) {other : Nat}
    (outside : other ∉ chain) :
    (markCluster v chain store cl used).sector other = store.sector other := by
  rw [markCluster, setBitOf_sector_other]
  · rfl
  · intro equal
    exact outside (equal ▸ bitmap.place_mem data)

theorem bitOf_markCluster (used : Bool) (place : BitPlace) :
    bitOf (markCluster v chain store cl used) place =
      if place = bitPlace v chain cl then used else bitOf store place := by
  rw [markCluster, bitOf_setBitOf _ _ _ (bitPlace_small v chain cl)]
  rfl

theorem Agreed.markCluster (agreed : Agreed v store chain)
    (data : DataCluster (v.exfatClusterCount + 2) cl) (outside : cl ∉ chain) (used : Bool) :
    Agreed v (markCluster v chain store cl used) chain where
  bitmap := by
    apply agreed.bitmap.congr
    intro other member
    have different : other ≠ cl := by
      intro equal
      subst equal
      exact outside member
    rw [markCluster_next, if_neg different]
  agree := by
    intro other otherData
    rw [bitOf_markCluster, markCluster_next]
    by_cases same : other = cl
    · subst same
      rw [if_pos rfl, if_pos rfl]
      cases used with
      | true => simp [eocMark]
      | false => simp
    · rw [if_neg same, if_neg fun equal => same
        (agreed.bitmap.place_injective otherData data equal)]
      exact agreed.agree other otherData

/-- Agreement survives what leaves the bitmap alone and frees or claims no
cluster. -/
theorem Agreed.congr {store' : ClusterStore} (agreed : Agreed v store chain)
    (links : ∀ other ∈ chain, store'.next other = store.next other)
    (sectors : ∀ other ∈ chain, store'.sector other = store.sector other)
    (used : ∀ other, DataCluster (v.exfatClusterCount + 2) other →
      (store'.next other = 0 ↔ store.next other = 0)) : Agreed v store' chain where
  bitmap := agreed.bitmap.congr links
  agree := by
    intro other data
    rw [bitOf, sectors _ (agreed.bitmap.place_mem data), Ne, used other data]
    exact agreed.agree other data

end

/-- Two stores with the same links and the same bits are equal. -/
theorem store_ext {store store' : ClusterStore} (links : store'.next = store.next)
    (bits : ∀ place, bitOf store' place = bitOf store place) : store' = store := by
  have sectors : store'.sector = store.sector := by
    funext cl s off
    apply UInt8.toNat_inj.mp
    apply Nat.eq_of_testBit_eq
    intro bit
    exact bits ⟨cl, s, off, bit⟩
  cases store
  cases store'
  simp only at links sectors
  rw [links, sectors]

end ParanOS

import ParanOS.Foundation.Cells
import ParanOS.Foundation.ClusterStore
import ParanOS.Foundation.Failures
import ParanOS.Fat.Volume

/-! # The file allocation table

Entry access and the free-cluster scan of `fs_fat32.c`, and the view of a
device as a store of linked clusters. The functions are first described on any
healthy device; `Geometry` then says when what they do is what the
corresponding operation on linked clusters does.
-/

namespace ParanOS

open Foundation

def isEndCluster (cl : Nat) : Bool := decide (0x0FFFFFF8 ≤ cl)

/-- The values that end a chain. -/
def EndOfChain (cl : Nat) : Prop := isEndCluster cl = true

instance (cl : Nat) : Decidable (EndOfChain cl) := inferInstanceAs (Decidable (_ = true))

theorem endOfChain_iff (cl : Nat) : EndOfChain cl ↔ 268435448 ≤ cl := by
  simp [EndOfChain, isEndCluster]

/-- The mark `0x0FFFFFFF` that the driver writes at the end of a chain. -/
def eocMark : Nat := 0x0FFFFFFF

theorem endOfChain_eocMark : EndOfChain eocMark := by decide

/-- `fat_sector` of the entry functions. -/
def fatSector (v : Vol) (clus : Nat) : Nat :=
  u32 (v.fatLba + u32 (clus * 4) / v.bytesPerSec)

/-- `ent_off` of the entry functions. -/
def fatEntOff (v : Vol) (clus : Nat) : Nat :=
  u32 (clus * 4) % v.bytesPerSec

def fatReadFatEntry (v : Vol) (clus : Nat) : DiskM Nat := do
  match ← rd (fatSector v clus) with
  | none => pure eocMark -- error -> EOC
  | some sec => pure (sec.getU32 (fatEntOff v clus) &&& 0x0FFFFFFF)

def fatWriteFatEntry (v : Vol) (clus val : Nat) : DiskM Int := do
  match ← rd (fatSector v clus) with
  | none => pure (-1)
  | some sec =>
      let old := sec.getU32 (fatEntOff v clus)
      let sec := sec.putU32 (fatEntOff v clus)
        ((val &&& 0x0FFFFFFF) ||| (old &&& 0xF0000000))
      -- Mirror other FATs is ignored for simplicity
      if ← wr (fatSector v clus) sec then pure (-2) else pure 0

/-- The scan of both allocators: `claim` is done with the first cluster from
`cl` on, among `count` many, whose entry is zero. -/
def allocScan (v : Vol) (claim : Nat → DiskM Nat) : (count cl : Nat) → DiskM Nat
  | 0, _ => pure 0
  | count + 1, cl => do
      match ← rd (fatSector v cl) with
      | none => pure 0
      | some sec =>
          if sec.getU32 (fatEntOff v cl) &&& 0x0FFFFFFF = 0 then claim cl
          else allocScan v claim count (cl + 1)

/-- `max_clusters` of `fat_alloc_free_cluster`. -/
def fatMaxClusters (v : Vol) : Nat :=
  min (u32 (v.totSec32 + 4294967296 - v.firstDataLba) / v.secPerClus) 1048576

/-- What `fat_alloc_free_cluster` does with a free cluster: mark EOC. -/
def fatClaim (v : Vol) (cl : Nat) : DiskM Nat := do
  if (← fatWriteFatEntry v cl eocMark) = 0 then pure cl else pure 0

def fatAllocFreeCluster (v : Vol) : DiskM Nat :=
  allocScan v (fatClaim v) (fatMaxClusters v - 2) 2

/-! ## On a healthy device -/

/-- The masked entry that `fat_read_fat_entry` finds. -/
def fatEntry (v : Vol) (sectors : Nat → Buffer) (clus : Nat) : Nat :=
  (sectors (fatSector v clus)).getU32 (fatEntOff v clus) &&& 0x0FFFFFFF

/-- The sectors after `fat_write_fat_entry`. -/
def setFatEntry (v : Vol) (sectors : Nat → Buffer) (clus val : Nat) : Nat → Buffer :=
  let sec := sectors (fatSector v clus)
  store sectors (fatSector v clus) (sec.putU32 (fatEntOff v clus)
    ((val &&& 0x0FFFFFFF) ||| (sec.getU32 (fatEntOff v clus) &&& 0xF0000000)))

@[simp] theorem u32_fatSector (v : Vol) (clus : Nat) :
    u32 (fatSector v clus) = fatSector v clus := u32_of_lt (u32_lt _)

@[simp] theorem u32_clusToLba (v : Vol) (clus : Nat) :
    u32 (clusToLba v clus) = clusToLba v clus := u32_of_lt (u32_lt _)

@[simp] theorem fatReadFatEntry_healthy (v : Vol) (clus : Nat) (sectors : Nat → Buffer) :
    fatReadFatEntry v clus (Device.healthy sectors) =
      some (fatEntry v sectors clus, Device.healthy sectors) := by
  simp [fatReadFatEntry, fatEntry]

theorem fatReadFatEntry_reads (v : Vol) (sectors : Nat → Buffer) (clus : Nat) :
    Reading (fatReadFatEntry v clus) sectors fun failed value =>
      failed = true ∧ value = eocMark ∨ failed = false ∧ value = fatEntry v sectors clus := by
  apply Reading.rd_bind
  · exact .pure (.inl ⟨rfl, rfl⟩)
  · rw [u32_fatSector]
    exact .pure (.inr ⟨rfl, rfl⟩)

@[simp] theorem fatWriteFatEntry_healthy (v : Vol) (clus val : Nat)
    (sectors : Nat → Buffer) :
    fatWriteFatEntry v clus val (Device.healthy sectors) =
      some (0, Device.healthy (setFatEntry v sectors clus val)) := by
  simp [fatWriteFatEntry, setFatEntry]

/-- The clusters the scan looks at, in order, cut down to the first free one. -/
def firstFree (v : Vol) (sectors : Nat → Buffer) (count cl : Nat) : Option Nat :=
  (List.range' cl count).find? fun candidate => fatEntry v sectors candidate == 0

theorem allocScan_healthy (v : Vol) (claim : Nat → DiskM Nat) (sectors : Nat → Buffer)
    (count cl : Nat) :
    allocScan v claim count cl (Device.healthy sectors) =
      match firstFree v sectors count cl with
      | none => some (0, Device.healthy sectors)
      | some free => claim free (Device.healthy sectors) := by
  induction count generalizing cl with
  | zero => rfl
  | succ count induction =>
      simp only [allocScan, DiskM.bind_apply, rd_healthy, u32_fatSector, Option.bind_some,
        DiskM.ite_apply, firstFree, List.range'_succ, List.find?_cons]
      by_cases free : fatEntry v sectors cl = 0
      · have raw : (sectors (fatSector v cl)).getU32 (fatEntOff v cl) &&& 0x0FFFFFFF = 0 :=
          free
        simp [raw, free]
      · have raw : ¬ (sectors (fatSector v cl)).getU32 (fatEntOff v cl) &&& 0x0FFFFFFF = 0 :=
          free
        simp only [raw, if_false, beq_eq_false_iff_ne.mpr free]
        exact induction (cl + 1)

theorem firstFree_some {v : Vol} {sectors : Nat → Buffer} {count cl free : Nat}
    (found : firstFree v sectors count cl = some free) :
    cl ≤ free ∧ free < cl + count ∧ fatEntry v sectors free = 0 := by
  have member := List.mem_of_find?_eq_some found
  have zero := List.find?_some found
  rw [List.mem_range'_1] at member
  exact ⟨member.1, member.2, by simpa using zero⟩

/-- The value stored by `fat_write_fat_entry`: the low 28 bits are new, the
high four are kept. -/
theorem joinEntry_eq {old : Nat} (val : Nat) (bound : old < 4294967296) :
    (val &&& 0x0FFFFFFF) ||| (old &&& 0xF0000000) =
      val % 268435456 + old / 268435456 * 268435456 := by
  have masked : val &&& 0x0FFFFFFF = val % 268435456 := and_lowMask val 28
  rw [masked]
  exact and_or_highMask val old 28 32 bound (by omega)

/-- The table as an array of numbers. -/
def Vol.table (v : Vol) : Cells := ⟨v.bytesPerSec, fun sector => u32 (v.fatLba + sector)⟩

section

variable (v : Vol) {clus : Nat} (small : clus < 1073741824)
include small

theorem fatSector_eq_place : fatSector v clus = v.table.place clus ∧
    fatEntOff v clus = 4 * clus % v.bytesPerSec := by
  have offset : u32 (clus * 4) = 4 * clus := by
    rw [u32_of_lt (by omega), Nat.mul_comm]
  rw [fatSector, fatEntOff, offset]
  exact ⟨rfl, rfl⟩

theorem fatEntry_eq_get (sectors : Nat → Buffer) :
    fatEntry v sectors clus = v.table.get sectors clus % 268435456 := by
  rcases fatSector_eq_place v small with ⟨sector, offset⟩
  rw [fatEntry, sector, offset]
  exact and_lowMask _ 28

theorem setFatEntry_eq_set (sectors : Nat → Buffer) (val : Nat) :
    setFatEntry v sectors clus val = v.table.set sectors clus
      (val % 268435456 + v.table.get sectors clus / 268435456 * 268435456) := by
  rcases fatSector_eq_place v small with ⟨sector, offset⟩
  simp only [setFatEntry, sector, offset, joinEntry_eq val (Buffer.getU32_lt _ _)]
  rfl

end

/-- Writing an entry changes nothing exactly when it has that value. -/
theorem setFatEntry_eq_self_iff (v : Vol) (sectors : Nat → Buffer) (clus val : Nat) :
    setFatEntry v sectors clus val = sectors ↔
      fatEntry v sectors clus = val &&& 0x0FFFFFFF := by
  have bound := Buffer.getU32_lt (sectors (fatSector v clus)) (fatEntOff v clus)
  have joined := joinEntry_eq val bound
  have masked : ∀ value : Nat, value &&& 0x0FFFFFFF = value % 268435456 :=
    fun value => and_lowMask value 28
  rw [fatEntry, masked, masked]
  constructor
  · intro same
    have stored := congrFun same (fatSector v clus)
    simp only [setFatEntry, store_same] at stored
    have read := congrArg (fun sector : Buffer => sector.getU32 (fatEntOff v clus)) stored
    simp only [Buffer.getU32_putU32, joined] at read
    omega
  · intro equal
    apply store_eq_self
    rw [joined, ← equal, show _ % 268435456 + _ / 268435456 * 268435456 =
      (sectors (fatSector v clus)).getU32 (fatEntOff v clus) by omega]
    exact (Buffer.putU32_getU32 _ _).symm

/-! ## When calls fail -/

theorem fatWriteFatEntry_runs {trouble : Trouble} (v : Vol) (clus val : Nat)
    (sectors : Nat → Buffer) :
    Runs trouble (fatWriteFatEntry v clus val) sectors fun code sectors' =>
      code ≠ 0 ∧ sectors' = sectors ∧ trouble.Possible ∨
      code = 0 ∧ sectors' = setFatEntry v sectors clus val := by
  apply Runs.rd_bind
  · exact fun may => .pure (.inl ⟨by decide, rfl, .inl may⟩)
  · apply Runs.wr_bind
    · exact fun may => .pure (.inl ⟨by decide, rfl, .inr may⟩)
    · rw [u32_fatSector]
      exact .pure (.inr ⟨rfl, rfl⟩)

/-- The scan ends at the first free entry, or where a read fails. -/
theorem allocScan_runs {trouble : Trouble} {v : Vol} {claim : Nat → DiskM Nat}
    {sectors : Nat → Buffer} {post : Nat → (Nat → Buffer) → Prop} {count cl : Nat}
    (cut : trouble.reads = true → post 0 sectors)
    (none : (∀ candidate, cl ≤ candidate → candidate < cl + count →
      fatEntry v sectors candidate ≠ 0) → post 0 sectors)
    (claims : ∀ candidate, cl ≤ candidate → candidate < cl + count →
      (∀ earlier, cl ≤ earlier → earlier < candidate → fatEntry v sectors earlier ≠ 0) →
      fatEntry v sectors candidate = 0 → Runs trouble (claim candidate) sectors post) :
    Runs trouble (allocScan v claim count cl) sectors post := by
  induction count generalizing cl with
  | zero => exact .pure (none fun _ _ _ => by omega)
  | succ count induction =>
      apply Runs.rd_bind
      · exact fun may => .pure (cut may)
      · rw [u32_fatSector]
        apply Runs.ite
        · exact fun free => claims cl (Nat.le_refl cl) (by omega) (fun _ _ _ => by omega) free
        · intro used
          have behind : ∀ bound, (∀ candidate, cl + 1 ≤ candidate → candidate < bound →
              fatEntry v sectors candidate ≠ 0) → ∀ candidate, cl ≤ candidate →
              candidate < bound → fatEntry v sectors candidate ≠ 0 := by
            intro bound later candidate lower upper
            by_cases here : candidate = cl
            · rw [here]
              exact used
            · exact later candidate (by omega) upper
          apply induction
          · intro allUsed
            exact none (behind _ fun candidate lower upper => allUsed candidate lower (by omega))
          · intro candidate lower upper earlier
            exact claims candidate (by omega) (by omega) (behind _ earlier)

/-! ## The view as linked clusters -/

/-- Where the first cluster starts. -/
def Vol.heapLba (v : Vol) : Nat := v.partLbaStart + v.firstDataLba

/-- The table and the clusters of a volume below a cluster limit lie on the
device without overlap and without wrap-around of sector addresses. -/
structure Geometry (v : Vol) (limit : Nat) : Prop where
  sector_pos : 0 < v.bytesPerSec
  slot_dvd : 32 ∣ v.bytesPerSec
  cluster_pos : 0 < v.secPerClus
  table_below : ∀ clus < limit, v.fatLba + 4 * clus / v.bytesPerSec < v.heapLba
  heap_end : v.heapLba + (limit - 2) * v.secPerClus ≤ 4294967296
  heap_small : v.heapLba < 4294967296

/-- A cluster of the data region. -/
def DataCluster (limit clus : Nat) : Prop := 2 ≤ clus ∧ clus < limit

/-- The table entries and cluster sectors below the limit. -/
def view (v : Vol) (limit : Nat) (sectors : Nat → Buffer) : ClusterStore where
  next := fun clus =>
    if clus < limit then
      (sectors (v.fatLba + 4 * clus / v.bytesPerSec)).getU32 (4 * clus % v.bytesPerSec)
        % 268435456
    else 0
  sector := fun clus index =>
    if 2 ≤ clus ∧ clus < limit ∧ index < v.secPerClus then
      sectors (v.heapLba + (clus - 2) * v.secPerClus + index)
    else fun _ => 0

namespace Geometry

variable {v : Vol} {limit : Nat} (geometry : Geometry v limit)
include geometry

theorem place_eq {clus : Nat} (below : clus < limit) :
    v.table.place clus = v.fatLba + 4 * clus / v.bytesPerSec := by
  have address := geometry.table_below clus below
  have heap := geometry.heap_small
  exact u32_of_lt (show v.fatLba + 4 * clus / v.bytesPerSec < 4294967296 by omega)

theorem fatSector_eq {clus : Nat} (below : clus < limit) (running : ¬ EndOfChain clus) :
    fatSector v clus = v.fatLba + 4 * clus / v.bytesPerSec := by
  rw [endOfChain_iff] at running
  rw [(fatSector_eq_place v (by omega)).1, geometry.place_eq below]

theorem table_apart : v.table.Apart limit where
  aligned := Dvd.dvd.trans (by decide) geometry.slot_dvd
  distinct := by
    intro index below other below' same
    rw [geometry.place_eq below, geometry.place_eq below'] at same
    exact Nat.add_left_cancel same

theorem sector_lt {clus index : Nat} (data : DataCluster limit clus)
    (inside : index < v.secPerClus) :
    v.heapLba + (clus - 2) * v.secPerClus + index < 4294967296 := by
  have rows : (clus - 2 + 1) * v.secPerClus ≤ (limit - 2) * v.secPerClus :=
    Nat.mul_le_mul_right _ (by have := data.1; have := data.2; omega)
  have heap := geometry.heap_end
  rw [Nat.add_mul, Nat.one_mul] at rows
  omega

theorem clusToLba_eq {clus : Nat} (data : DataCluster limit clus) :
    clusToLba v clus = v.heapLba + (clus - 2) * v.secPerClus := by
  have bound := geometry.sector_lt data geometry.cluster_pos
  have rows : clus - 2 ≤ (clus - 2) * v.secPerClus :=
    Nat.le_mul_of_pos_right _ geometry.cluster_pos
  have lower := data.1
  have difference : u32 (clus + 4294967294) = clus - 2 := by
    simp only [u32]
    omega
  simp only [Vol.heapLba] at bound ⊢
  rw [clusToLba, difference, u32_of_lt (by omega)]

/-- Address of a sector of a data cluster, as the call-backs receive it. -/
theorem address_eq {clus index : Nat} (data : DataCluster limit clus)
    (inside : index < v.secPerClus) :
    u32 (clusToLba v clus + index) =
      v.heapLba + (clus - 2) * v.secPerClus + index := by
  rw [geometry.clusToLba_eq data]
  exact u32_of_lt (geometry.sector_lt data inside)

theorem address_injective {clus clus' index index' : Nat}
    (data : DataCluster limit clus) (data' : DataCluster limit clus')
    (inside : index < v.secPerClus) (inside' : index' < v.secPerClus)
    (same : v.heapLba + (clus - 2) * v.secPerClus + index =
      v.heapLba + (clus' - 2) * v.secPerClus + index') :
    clus = clus' ∧ index = index' := by
  have rows : v.secPerClus * (clus - 2) + index =
      v.secPerClus * (clus' - 2) + index' := by
    rw [Nat.mul_comm, Nat.mul_comm v.secPerClus]
    omega
  have quotient : clus - 2 = clus' - 2 := by
    have left := Nat.mul_add_div geometry.cluster_pos (clus - 2) index
    have right := Nat.mul_add_div geometry.cluster_pos (clus' - 2) index'
    rw [Nat.div_eq_of_lt inside] at left
    rw [Nat.div_eq_of_lt inside'] at right
    rw [rows] at left
    omega
  have lower := data.1
  have lower' := data'.1
  have equal : clus = clus' := by omega
  subst equal
  exact ⟨rfl, by omega⟩

/-! ### Reading and writing through the view -/

theorem next_eq (sectors : Nat → Buffer) {clus : Nat} (below : clus < limit) :
    (view v limit sectors).next clus = v.table.get sectors clus % 268435456 := by
  rw [Cells.get, geometry.place_eq below]
  exact if_pos below

theorem fatEntry_eq (sectors : Nat → Buffer) {clus : Nat} (below : clus < limit)
    (running : ¬ EndOfChain clus) :
    fatEntry v sectors clus = (view v limit sectors).next clus := by
  rw [endOfChain_iff] at running
  rw [geometry.next_eq sectors below, fatEntry_eq_get v (by omega)]

theorem sector_eq (sectors : Nat → Buffer) {clus index : Nat}
    (data : DataCluster limit clus) (inside : index < v.secPerClus) :
    sectors (u32 (clusToLba v clus + index)) =
      (view v limit sectors).sector clus index := by
  rw [geometry.address_eq data inside]
  exact (if_pos ⟨data.1, data.2, inside⟩).symm

theorem view_store (sectors : Nat → Buffer) (content : Buffer) {clus index : Nat}
    (data : DataCluster limit clus) (inside : index < v.secPerClus) :
    view v limit (store sectors (u32 (clusToLba v clus + index)) content) =
      (view v limit sectors).write clus index content := by
  have address := geometry.address_eq data inside
  rw [address]
  simp only [view, ClusterStore.write, ClusterStore.mk.injEq]
  constructor
  · funext other
    by_cases below : other < limit
    · have table := geometry.table_below other below
      simp only [below, if_true]
      rw [store_other (by omega)]
    · simp [below]
  · funext other position
    by_cases range : 2 ≤ other ∧ other < limit ∧ position < v.secPerClus
    · by_cases same : other = clus ∧ position = index
      · rcases same with ⟨rfl, rfl⟩
        simp [range, store_same]
      · rw [if_pos range, if_neg same, if_pos range]
        apply store_other
        intro equal
        exact same (geometry.address_injective ⟨range.1, range.2.1⟩ data range.2.2
          inside equal)
    · have different : ¬ (other = clus ∧ position = index) := by
        rintro ⟨rfl, rfl⟩
        exact range ⟨data.1, data.2, inside⟩
      rw [if_neg range, if_neg different, if_neg range]

theorem view_setFatEntry (sectors : Nat → Buffer) (val : Nat) {clus : Nat}
    (below : clus < limit) (running : ¬ EndOfChain clus) :
    view v limit (setFatEntry v sectors clus val) =
      (view v limit sectors).link clus (val % 268435456) := by
  rw [endOfChain_iff] at running
  rw [setFatEntry_eq_set v (by omega), ClusterStore.link]
  have bound : v.table.get sectors clus < 4294967296 := Buffer.getU32_lt _ _
  generalize joined : val % 268435456 + v.table.get sectors clus / 268435456 * 268435456 = entry
  refine congrArg₂ ClusterStore.mk ?_ ?_
  · funext other
    by_cases below' : other < limit
    · have shown := geometry.next_eq (v.table.set sectors clus entry) below'
      by_cases same : other = clus
      · subst same
        rw [Cells.get_set_same] at shown
        rw [if_pos rfl]
        refine shown.trans ?_
        omega
      · rw [Cells.get_set_other geometry.table_apart below below' same,
          ← geometry.next_eq sectors below'] at shown
        rw [if_neg same]
        exact shown
    · have different : other ≠ clus := by
        rintro rfl
        exact below' below
      simp [view, below', different]
  · have table := geometry.table_below clus below
    funext other position
    by_cases range : 2 ≤ other ∧ other < limit ∧ position < v.secPerClus
    · simp only [view, if_pos range]
      apply Cells.set_elsewhere
      rw [geometry.place_eq below]
      omega
    · simp only [view, if_neg range]

end Geometry

/-- A data cluster that is marked free. -/
structure Fresh (limit : Nat) (store : ClusterStore) (cl : Nat) : Prop where
  data : DataCluster limit cl
  running : ¬ EndOfChain cl
  free : store.next cl = 0

theorem Fresh.ne_zero {limit : Nat} {store : ClusterStore} {cl : Nat}
    (fresh : Fresh limit store cl) : cl ≠ 0 := by
  have lower := fresh.data.1
  omega

/-! ## Everything else -/

/-- The byte belongs to the table entry of a cluster. -/
def InEntry (v : Vol) (limit lba index : Nat) : Prop :=
  ∃ clus < limit, lba = v.fatLba + 4 * clus / v.bytesPerSec ∧
    4 * clus % v.bytesPerSec ≤ index ∧ index < 4 * clus % v.bytesPerSec + 4

/-- The sector belongs to a cluster. -/
def InHeap (v : Vol) (limit lba : Nat) : Prop :=
  ∃ clus index, DataCluster limit clus ∧ index < v.secPerClus ∧
    lba = v.heapLba + (clus - 2) * v.secPerClus + index

/-- The full 32 bits of a table entry. -/
def rawEntry (v : Vol) (sectors : Nat → Buffer) (clus : Nat) : Nat :=
  (sectors (v.fatLba + 4 * clus / v.bytesPerSec)).getU32 (4 * clus % v.bytesPerSec)

/-- Nothing has changed but the low 28 bits of table entries and the sectors of
clusters. -/
structure Confined (v : Vol) (limit : Nat) (sectors sectors' : Nat → Buffer) : Prop where
  rest : ∀ lba index, ¬ InEntry v limit lba index → ¬ InHeap v limit lba →
    sectors' lba index = sectors lba index
  high : ∀ clus < limit, rawEntry v sectors' clus / 268435456 =
    rawEntry v sectors clus / 268435456

namespace Confined

variable {v : Vol} {limit : Nat} {sectors sectors' sectors'' : Nat → Buffer}

theorem refl (v : Vol) (limit : Nat) (sectors : Nat → Buffer) :
    Confined v limit sectors sectors :=
  ⟨fun _ _ _ _ => rfl, fun _ _ => rfl⟩

theorem trans (first : Confined v limit sectors sectors')
    (second : Confined v limit sectors' sectors'') : Confined v limit sectors sectors'' :=
  ⟨fun lba index outside apart => (second.rest lba index outside apart).trans
      (first.rest lba index outside apart),
    fun clus below => (second.high clus below).trans (first.high clus below)⟩

theorem store_cluster (geometry : Geometry v limit) (content : Buffer) {clus index : Nat}
    (data : DataCluster limit clus) (inside : index < v.secPerClus) :
    Confined v limit sectors
      (store sectors (u32 (clusToLba v clus + index)) content) := by
  rw [geometry.address_eq data inside]
  constructor
  · intro lba offset _ apart
    rw [store_other]
    intro equal
    exact apart ⟨clus, index, data, inside, equal⟩
  · intro other below
    have table := geometry.table_below other below
    rw [rawEntry, store_other (by omega), rawEntry]

theorem set_entry (geometry : Geometry v limit) (val : Nat) {clus : Nat}
    (below : clus < limit) (running : ¬ EndOfChain clus) :
    Confined v limit sectors (setFatEntry v sectors clus val) := by
  rw [endOfChain_iff] at running
  rw [setFatEntry_eq_set v (by omega)]
  have bound : v.table.get sectors clus < 4294967296 := Buffer.getU32_lt _ _
  have raw (sectors : Nat → Buffer) {other : Nat} (below' : other < limit) :
      rawEntry v sectors other = v.table.get sectors other := by
    rw [Cells.get, geometry.place_eq below']
    rfl
  constructor
  · intro lba index outside _
    by_cases same : lba = v.table.place clus
    · subst same
      rw [Cells.set, store_same, Buffer.putU32, Buffer.copy_outside]
      by_contra inside
      have size : v.table.size = v.bytesPerSec := rfl
      rw [size] at inside
      exact outside ⟨clus, below, geometry.place_eq below, by omega, by omega⟩
    · rw [Cells.set_elsewhere same]
  · intro other below'
    rw [raw _ below', raw _ below']
    by_cases same : other = clus
    · subst same
      rw [Cells.get_set_same]
      omega
    · rw [Cells.get_set_other geometry.table_apart below below' same]

/-- A confined change that the view does not show is none. -/
theorem eq_of_view (geometry : Geometry v limit)
    (confined : Confined v limit sectors sectors')
    (same : view v limit sectors' = view v limit sectors) : sectors' = sectors := by
  funext lba index
  by_cases heap : InHeap v limit lba
  · rcases heap with ⟨clus, s, data, inside, rfl⟩
    have address := geometry.address_eq data inside
    have left := geometry.sector_eq sectors' data inside
    have right := geometry.sector_eq sectors data inside
    rw [address] at left right
    rw [left, right, same]
  · by_cases entry : InEntry v limit lba index
    · rcases entry with ⟨clus, below, rfl, lower, upper⟩
      have low := congrArg (fun shown => shown.next clus) same
      simp only [view, below, if_true] at low
      have high := confined.high clus below
      have raw : rawEntry v sectors' clus = rawEntry v sectors clus := by
        rw [← Nat.div_add_mod (rawEntry v sectors' clus) 268435456, high]
        simp only [rawEntry] at low ⊢
        rw [low, Nat.div_add_mod]
      simp only [rawEntry] at raw
      rw [← Buffer.putU32_getU32 (sectors' (v.fatLba + 4 * clus / v.bytesPerSec))
          (4 * clus % v.bytesPerSec), raw, Buffer.putU32, Buffer.copy_inside lower upper,
        ← Buffer.putU32_getU32 (sectors (v.fatLba + 4 * clus / v.bytesPerSec))
          (4 * clus % v.bytesPerSec), Buffer.putU32, Buffer.copy_inside lower upper,
        ← Buffer.putU32, Buffer.putU32_getU32]
    · exact confined.rest lba index entry heap

end Confined

end ParanOS

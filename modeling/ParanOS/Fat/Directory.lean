import ParanOS.Fat.Table

/-! # FAT32 directories

Directory entries, the walk over a directory's slots, and the functions of
`fs_fat32.c` that look an entry up or put one into a free slot. The walk is the
same loop in every one of them: clusters along the chain, sectors of a cluster,
32-byte slots of a sector, left at the first slot that decides. A loop over a
chain takes a bound on its rounds and diverges when that is used up.
-/

namespace ParanOS

open Foundation

def attrLongName : UInt8 := 0x0F
def attrDir : UInt8 := 0x10
def attrArchive : UInt8 := 0x20

/-- The slot offsets of a sector: `off = 0, 32, ..` below `bytes_per_sec`. -/
def slotOffsets (v : Vol) : List Nat :=
  (List.range ((v.bytesPerSec + 31) / 32)).map (32 * ·)

/-- The directory walk. `visit lba s sec off` decides at a slot; `failed` is
the result of a read error and `exhausted` that of reaching the chain's end. -/
def dirScan {β : Type} (v : Vol) (visit : Nat → Nat → Buffer → Nat → Option β)
    (failed exhausted : β) : (fuel dirCl : Nat) → DiskM β
  | 0, _ => DiskM.diverge
  | fuel + 1, dirCl =>
      if isEndCluster dirCl then pure exhausted
      else do
        let lba := clusToLba v dirCl
        match ← (List.range v.secPerClus).findSomeM? (fun s => do
            match ← rd (lba + s) with
            | none => pure (some failed)
            | some sec => pure ((slotOffsets v).findSome? (visit lba s sec))) with
        | some result => pure result
        | none => do
            let next ← fatReadFatEntry v dirCl
            dirScan v visit failed exhausted fuel next

/-! ## Looking up an entry -/

/-- The 32 bytes of the entry at an offset. -/
def direntAt (sec : Buffer) (off : Nat) : Buffer :=
  fun index => if index < 32 then sec (off + index) else 0

/-- What `dir_find_entry` returns through its pointers: the entry's bytes, and
where it was found. -/
structure DirHit where
  de : Buffer
  lba : Nat
  s : Nat
  off : Nat

def visitEntry (want11 : List UInt8) (lba s : Nat) (sec : Buffer) (off : Nat) :
    Option (Except Int DirHit) :=
  if sec off = 0x00 then some (.error (-2)) -- end
  else if sec off = 0xE5 then none
  else if sec (off + 11) = attrLongName then none
  else if sec.bytes off 11 = want11 then
    some (.ok ⟨direntAt sec off, lba, s, off⟩)
  else none

def dirFindEntry (v : Vol) (want11 : List UInt8) :
    (fuel dirCl : Nat) → DiskM (Except Int DirHit) :=
  dirScan v (visitEntry want11) (.error (-1)) (.error (-3))

def direntStartCluster (de : Buffer) : Nat :=
  (de.getU16 20 <<< 16) ||| de.getU16 26

def direntIsDir (de : Buffer) : Bool := de 11 &&& attrDir ≠ 0

/-! ## Creating an entry -/

/-- What `dir_find_free_slot` returns: the slot and the sector around it. -/
structure FreeSlot where
  lba : Nat
  s : Nat
  off : Nat
  sec : Buffer

def visitFree (lba s : Nat) (sec : Buffer) (off : Nat) : Option (Option FreeSlot) :=
  if sec off = 0x00 ∨ sec off = 0xE5 then some (some ⟨lba, s, off, sec⟩) else none

/-- The slot, or `none` where the source returns -1. -/
def dirFindFreeSlot (v : Vol) : (fuel dirCl : Nat) → DiskM (Option FreeSlot) :=
  dirScan v visitFree none none

/-- The two halves of a start cluster in an entry at `off`. -/
def putStart (sec : Buffer) (off startClus : Nat) : Buffer :=
  (sec.putU16 (off + 20) ((startClus >>> 16) &&& 0xFFFF)).putU16 (off + 26)
    (startClus &&& 0xFFFF)

def putDirent (sec : Buffer) (off : Nat) (name11 : List UInt8) (attr : UInt8)
    (startClus sizeBytes : Nat) : Buffer :=
  let sec := sec.fill off 32 0
  let sec := sec.copy off 11 (Buffer.ofList name11)
  let sec := sec.putU8 (off + 11) attr
  (putStart sec off startClus).putU32 (off + 28) sizeBytes

def createDirEntry (v : Vol) (fuel parentCl : Nat) (name11 : List UInt8) (attr : UInt8)
    (startClus sizeBytes : Nat) : DiskM Int := do
  match ← dirFindFreeSlot v fuel parentCl with
  | none => pure (-1)
  | some slot =>
      if ← wr (slot.lba + slot.s)
          (putDirent slot.sec slot.off name11 attr startClus sizeBytes) then
        pure (-2)
      else pure 0

/-! ## Slots of a directory -/

/-- A slot by the cluster, the sector in the cluster and the offset in the
sector. -/
structure Slot where
  cl : Nat
  s : Nat
  off : Nat
  deriving DecidableEq

/-- The slots of a cluster in the order of the walk. -/
def clusterSlots (v : Vol) (cl : Nat) : List Slot :=
  (List.range v.secPerClus).flatMap fun s => (slotOffsets v).map (Slot.mk cl s)

/-- The slots of a chain of clusters in the order of the walk. -/
def chainSlots (v : Vol) (chain : List Nat) : List Slot :=
  chain.flatMap (clusterSlots v)

theorem mem_slotOffsets {v : Vol} {off : Nat} :
    off ∈ slotOffsets v ↔ 32 ∣ off ∧ off / 32 < (v.bytesPerSec + 31) / 32 := by
  simp only [slotOffsets, List.mem_map, List.mem_range]
  constructor
  · rintro ⟨index, bound, rfl⟩
    exact ⟨Nat.dvd_mul_right 32 index, by omega⟩
  · rintro ⟨divides, bound⟩
    exact ⟨off / 32, bound, Nat.mul_div_cancel' divides⟩

theorem mem_clusterSlots {v : Vol} {cl : Nat} {slot : Slot} :
    slot ∈ clusterSlots v cl ↔
      slot.cl = cl ∧ slot.s < v.secPerClus ∧ slot.off ∈ slotOffsets v := by
  simp only [clusterSlots, List.mem_flatMap, List.mem_range, List.mem_map]
  constructor
  · rintro ⟨s, bound, off, member, rfl⟩
    exact ⟨rfl, bound, member⟩
  · rintro ⟨rfl, bound, member⟩
    exact ⟨slot.s, bound, slot.off, member, rfl⟩

theorem mem_chainSlots {v : Vol} {chain : List Nat} {slot : Slot} :
    slot ∈ chainSlots v chain ↔
      slot.cl ∈ chain ∧ slot.s < v.secPerClus ∧ slot.off ∈ slotOffsets v := by
  simp only [chainSlots, List.mem_flatMap, mem_clusterSlots]
  constructor
  · rintro ⟨cl, member, rfl, rest⟩
    exact ⟨member, rest⟩
  · rintro ⟨member, rest⟩
    exact ⟨slot.cl, member, rfl, rest⟩

/-- What a visit of the walk sees at a slot. -/
def visitAt {β : Type} (v : Vol) (store : ClusterStore)
    (visit : Nat → Nat → Buffer → Nat → Option β) (slot : Slot) : Option β :=
  visit (clusToLba v slot.cl) slot.s (store.sector slot.cl slot.s) slot.off

private theorem findSome?_flatMap {ι κ β : Type} (expand : ι → List κ) (visit : κ → Option β)
    (positions : List ι) :
    (positions.flatMap expand).findSome? visit =
      positions.findSome? fun position => (expand position).findSome? visit := by
  induction positions with
  | nil => rfl
  | cons head tail induction =>
      rw [List.flatMap_cons, List.findSome?_append, induction, List.findSome?_cons]
      cases (expand head).findSome? visit <;> rfl

/-- The slots of a cluster, sector by sector. -/
theorem findSome?_clusterSlots {β : Type} (v : Vol) (store : ClusterStore) (cl : Nat)
    (visit : Nat → Nat → Buffer → Nat → Option β) :
    (clusterSlots v cl).findSome? (visitAt v store visit) =
      (List.range v.secPerClus).findSome? fun s =>
        (slotOffsets v).findSome? (visit (clusToLba v cl) s (store.sector cl s)) := by
  rw [clusterSlots, findSome?_flatMap]
  congr 1
  funext s
  rw [List.findSome?_map]
  rfl

/-- The walk over a well-formed chain ends where a read fails, and otherwise is a
search through the chain's slots. -/
theorem dirScan_reads {β : Type} {v : Vol} {limit : Nat} (geometry : Geometry v limit)
    (visit : Nat → Nat → Buffer → Nat → Option β) (broken exhausted : β)
    {sectors : Nat → Buffer} {dirCl fuel : Nat} {chain : List Nat}
    (linked : Linked (view v limit sectors).next EndOfChain dirCl chain)
    (range : ∀ cl ∈ chain, DataCluster limit cl) (enough : chain.length < fuel) :
    Reading (dirScan v visit broken exhausted fuel dirCl) sectors fun failed value =>
      failed = true ∧ (value = broken ∨ value = exhausted) ∨
      failed = false ∧ value = ((chainSlots v chain).findSome?
        (visitAt v (view v limit sectors) visit)).getD exhausted := by
  induction linked, enough using Linked.walk with
  | nil stopped =>
      have ended : isEndCluster _ = true := stopped
      rw [dirScan, if_pos ended]
      exact .pure (.inr ⟨rfl, by simp [chainSlots]⟩)
  | @cons cl rest fuel running tail shorter induction =>
      have data := range cl (by simp)
      have going : ¬ isEndCluster cl = true := running
      have later := induction (fun other member => range other (by simp [member]))
      have cluster : Reading ((List.range v.secPerClus).findSomeM? fun s => do
          match ← rd (clusToLba v cl + s) with
          | none => pure (some broken)
          | some sec => pure ((slotOffsets v).findSome? (visit (clusToLba v cl) s sec)))
          sectors fun failed value => failed = true ∧ value = some broken ∨
            failed = false ∧ value = (clusterSlots v cl).findSome?
              (visitAt v (view v limit sectors) visit) := by
        rw [findSome?_clusterSlots]
        apply Reading.findSomeM?
        intro s member
        apply Reading.rd_bind
        · exact .pure (.inl ⟨rfl, rfl⟩)
        · rw [geometry.sector_eq sectors data (List.mem_range.mp member)]
          exact .pure (.inr ⟨rfl, rfl⟩)
      have next := geometry.fatEntry_eq sectors data.2 running
      rw [chainSlots, List.flatMap_cons, List.findSome?_append, dirScan, if_neg going]
      apply cluster.bind
      intro failed value outcome
      rcases outcome with ⟨rfl, rfl⟩ | ⟨rfl, rfl⟩
      · exact .pure (.inl ⟨rfl, .inl rfl⟩)
      · cases (clusterSlots v cl).findSome? (visitAt v (view v limit sectors) visit) with
        | some found => exact .pure (.inr ⟨rfl, rfl⟩)
        | none =>
            apply (fatReadFatEntry_reads v sectors cl).bind
            intro failed value outcome
            rcases outcome with ⟨rfl, rfl⟩ | ⟨rfl, rfl⟩
            · -- an unread table entry counts as the end of the chain
              cases fuel with
              | zero => simp at shorter
              | succ fuel =>
                  rw [dirScan, if_pos (by decide)]
                  exact .pure (.inl ⟨rfl, .inr rfl⟩)
            · rw [next]
              exact later

theorem dirScan_readOnly {β : Type} (v : Vol)
    (visit : Nat → Nat → Buffer → Nat → Option β) (failed exhausted : β) (fuel dirCl : Nat) :
    ReadOnly (dirScan v visit failed exhausted fuel dirCl) := by
  induction fuel generalizing dirCl with
  | zero => exact .diverge
  | succ fuel induction =>
      refine .ite (.pure _) (.bind (.findSomeM? (fun s => .bind (.rd _) fun sec => ?_) _)
        fun found => ?_)
      · cases sec <;> exact .pure _
      · cases found with
        | some result => exact .pure _
        | none =>
            refine .bind (.bind (.rd _) fun sec => ?_) fun next => induction next
            cases sec <;> exact .pure _

end ParanOS

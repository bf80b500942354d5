import ParanOS.Fat.Idempotent
import ParanOS.Fat.Listing
import ParanOS.Fat.Refusal

/-! # Volume labels in the root directory

A volume label is an entry of the root directory without clusters. Neither the
lookup nor the listing knows its attribute, so that they treat it as a file. When
that makes a difference to the functions that take a path is said here exactly.
-/

namespace ParanOS

open Foundation

/-- The attribute of a volume label. -/
def attrVolumeLabel : UInt8 := 0x08

/-- A volume label, whatever its name and its other fields. -/
structure IsLabel (de : Buffer) : Prop where
  attr : de 11 = attrVolumeLabel
  vacant : direntStartCluster de = 0

/-- A deleted slot of the root directory in front of its end marker. -/
structure DeletedSlot (v : Vol) (store : ClusterStore) (chain : List Nat) (before : List Slot)
    (slot : Slot) (after : List Slot) : Prop where
  linked : Linked store.next EndOfChain v.rootClus chain
  split : chainSlots v chain = before ++ slot :: after
  unmarked : ∀ other ∈ before, entryAt store other 0 ≠ 0x00
  deleted : entryAt store slot 0 = 0xE5

/-- The device with an entry put into a slot. -/
def putEntry (v : Vol) (sectors : Nat → Buffer) (slot : Slot) (de : Buffer) : Nat → Buffer :=
  let lba := u32 (clusToLba v slot.cl + slot.s)
  store sectors lba ((sectors lba).copy slot.off 32 de)

/-- The label is deleted itself, or hidden from lookups and listings by its first
byte, or it ends the directory where nothing is shown behind it. -/
def Overlooked (store : ClusterStore) (after : List Slot) (label : Buffer) : Prop :=
  label 0 = 0xE5 ∨ label 0 = 0x2E ∨
    label 0 = 0x00 ∧ ∀ de ∈ (after.map (entryAt store)).takeWhile fun de => de 0 ≠ 0x00, ¬ Shown de

/-- The label makes no difference to a path: it is overlooked, and if it takes up a
slot, there is another one, or no cluster for a new directory. -/
def Unnoticed (v : Vol) (store : ClusterStore) (before after : List Slot) (label : Buffer) : Prop :=
  Overlooked store after label ∧
    (label 0 = 0x2E → NoneFree v store ∨ ∃ other ∈ before ++ after, Free (entryAt store other))

/-- The functions that take a path return the same on both devices, for every path. -/
def SameResults (v : Vol) (fuel : Nat) (sectors sectors' : Nat → Buffer) : Prop :=
  ∀ path : CString,
    (∀ maxBytes, (fat32ReadFilePath v fuel path maxBytes (Device.healthy sectors')).map Prod.fst =
      (fat32ReadFilePath v fuel path maxBytes (Device.healthy sectors)).map Prod.fst) ∧
    (fat32EnsureDirPath v fuel path (Device.healthy sectors')).map Prod.fst =
      (fat32EnsureDirPath v fuel path (Device.healthy sectors)).map Prod.fst ∧
    ∀ maxItems, (fat32ListDirPath v fuel path maxItems (Device.healthy sectors')).map Prod.fst =
      (fat32ListDirPath v fuel path maxItems (Device.healthy sectors)).map Prod.fst

/-! ## The directory with the label -/

/-- What the label changes. -/
structure Labelled (v : Vol) (limit : Nat) (store store' : ClusterStore) (chain : List Nat)
    (before : List Slot) (slot : Slot) (after : List Slot) (label : Buffer) : Prop where
  root : LiveDir v limit store v.rootClus chain
  place : DeletedSlot v store chain before slot after
  isLabel : IsLabel label
  next : store'.next = store.next
  entry : ∀ index < 32, entryAt store' slot index = label index
  others : ∀ other, other.off ∈ slotOffsets v → other ≠ slot →
    entryAt store' other = entryAt store other
  sectors : ∀ cl, cl ≠ slot.cl → store'.sector cl = store.sector cl

theorem Labelled.of_putEntry {v : Vol} {sectors : Nat → Buffer} {chain : List Nat}
    {before after : List Slot} {slot : Slot} {label : Buffer} (wellFormed : WellFormed v sectors)
    (place : DeletedSlot v (view v v.clusterLimit sectors) chain before slot after)
    (isLabel : IsLabel label) :
    Labelled v v.clusterLimit (view v v.clusterLimit sectors)
      (view v v.clusterLimit (putEntry v sectors slot label)) chain before slot after label := by
  have geometry := wellFormed.shape.geometry
  rcases wellFormed.owned.liveDir_root with ⟨chain', root⟩
  have same := place.linked.unique (root.chain.linked root.occupied)
  subst same
  have member : slot ∈ chainSlots v chain := by
    rw [place.split]
    simp
  rcases mem_chainSlots.mp member with ⟨inChain, inside, aligned⟩
  have data := root.chain.inside inChain
  have written := geometry.view_store sectors
    ((sectors (u32 (clusToLba v slot.cl + slot.s))).copy slot.off 32 label) data inside
  rw [geometry.sector_eq sectors data inside] at written
  have equal : view v v.clusterLimit (putEntry v sectors slot label) =
      (view v v.clusterLimit sectors).write slot.cl slot.s
        (((view v v.clusterLimit sectors).sector slot.cl slot.s).copy slot.off 32 label) := by
    rw [← written, putEntry, geometry.sector_eq sectors data inside]
  rw [equal]
  refine ⟨root, place, isLabel, rfl, ?_, ?_, ?_⟩
  · intro index bound
    rw [entryAt_write_same, direntAt_lt bound, Buffer.copy_inside (by omega) (by omega),
      Nat.add_sub_cancel_left]
  · intro other aligned' different
    apply entryAt_write_other aligned aligned' _ different
    intro index outside
    exact Buffer.copy_outside outside
  · intro cl different
    funext index
    exact ClusterStore.write_sector_other (.inl different)

namespace Labelled

variable {v : Vol} {limit : Nat} {store store' : ClusterStore} {chain : List Nat}
  {before after : List Slot} {slot : Slot} {label : Buffer}
  (labelled : Labelled v limit store store' chain before slot after label)

include labelled

theorem slot_mem : slot ∈ chainSlots v chain := by
  rw [labelled.place.split]
  simp

theorem not_inUse : ¬ InUse (entryAt store slot) := fun used => used.2.1 labelled.place.deleted

theorem not_dir : direntIsDir (entryAt store' slot) = false := by
  rw [direntIsDir, labelled.entry 11 (by decide), labelled.isLabel.attr]
  decide

theorem vacant : direntStartCluster (entryAt store' slot) = 0 := by
  rw [← labelled.isLabel.vacant]
  have high : (entryAt store' slot).getU16 20 = label.getU16 20 :=
    Buffer.getU16_congr fun index bound => labelled.entry (20 + index) (by omega)
  have low : (entryAt store' slot).getU16 26 = label.getU16 26 :=
    Buffer.getU16_congr fun index bound => labelled.entry (26 + index) (by omega)
  rw [direntStartCluster, direntStartCluster, high, low]

section

variable (owned : Owned v limit store)
include owned

theorem not_live {other : Slot} (live : Live v store (some other)) : other ≠ slot := by
  intro equal
  subst equal
  exact labelled.not_inUse (owned.placed_of_live live).2.1

/-- The owners that there were are as they were. -/
theorem owner_same {owner : Owner} (live : Live v store owner) :
    ownerStart v store' owner = ownerStart v store owner ∧
      (OwnerIsDir store' owner ↔ OwnerIsDir store owner) := by
  cases owner with
  | none => exact ⟨rfl, Iff.rfl⟩
  | some other =>
      rcases (owned.placed_of_live live).1 with ⟨_, _, _, member⟩
      have same := labelled.others other (mem_chainSlots.mp member).2.2
        (labelled.not_live owned live)
      simp only [ownerStart, OwnerIsDir, same, and_self]

theorem live_forth {owner : Owner} (live : Live v store owner) : Live v store' owner := by
  induction live with
  | root => exact .root
  | @entry parent other chain' parentLive isDir linked member listed induction =>
      have same := labelled.owner_same owned parentLive
      have live : Live v store (some other) := .entry parentLive isDir linked member listed
      have kept := labelled.others other (mem_chainSlots.mp member).2.2
        (labelled.not_live owned live)
      refine .entry induction (same.2.mpr isDir) ?_ member ?_
      · rw [same.1, labelled.next]
        exact linked
      · rw [kept]
        exact listed

/-- Only the label may be a new owner. -/
theorem live_back {owner : Owner} (live : Live v store' owner) :
    Live v store owner ∨ owner = some slot := by
  induction live with
  | root => exact .inl .root
  | @entry parent other chain' parentLive isDir linked member listed induction =>
      by_cases isSlot : other = slot
      · exact .inr (congrArg some isSlot)
      · cases induction with
        | inr isLabel =>
            subst isLabel
            rw [OwnerIsDir, labelled.not_dir] at isDir
            exact absurd isDir (by decide)
        | inl parentBefore =>
            have same := labelled.owner_same owned parentBefore
            rw [same.1, labelled.next] at linked
            rw [labelled.others other (mem_chainSlots.mp member).2.2 isSlot] at listed
            exact .inl (.entry parentBefore (same.2.mp isDir) linked member listed)

/-- The volume stays well formed. -/
theorem owned_after : Owned v limit store' where
  tenancy := by
    refine owned.tenancy.replace (some slot) ?_ ?_ ?_
    · intro owner different live
      cases labelled.live_back owned live with
      | inl before => exact ⟨before, (labelled.owner_same owned before).1⟩
      | inr equal => exact absurd equal different
    · intro owner chain' _ _ _ cl _
      rw [labelled.next]
    · intro _
      exact ⟨[], .empty labelled.vacant, fun _ _ _ _ _ => List.disjoint_nil_left _⟩
  root := owned.root

theorem liveDir {dirCl : Nat} {chain' : List Nat} (dir : LiveDir v limit store dirCl chain') :
    LiveDir v limit store' dirCl chain' := by
  rcases dir.owner with ⟨owner, live, isDir, start⟩
  have same := labelled.owner_same owned live
  refine ⟨⟨owner, labelled.live_forth owned live, same.2.mpr isDir, same.1.trans start⟩,
    dir.occupied, ?_⟩
  exact dir.chain.congr fun cl _ => by rw [labelled.next]

/-- A directory has the label, if it is the root, or all its entries are as they
were. -/
theorem cases_dir {dirCl : Nat} {chain' : List Nat} (dir : LiveDir v limit store dirCl chain') :
    chain' = chain ∨ ∀ other ∈ chainSlots v chain', entryAt store' other = entryAt store other := by
  by_cases inside : slot ∈ chainSlots v chain'
  · exact .inl (owned.chain_eq dir labelled.root (mem_chainSlots.mp inside).1
      (mem_chainSlots.mp labelled.slot_mem).1).2
  · right
    intro other member
    apply labelled.others other (mem_chainSlots.mp member).2.2
    intro equal
    exact inside (equal ▸ member)

end

/-! ### What lookups find -/

/-- The other entries of the root directory are as they were. -/
theorem root_same : ∀ other ∈ before ++ after, other ≠ slot ∧
    entryAt store' other = entryAt store other := by
  intro other member
  have distinct := chainSlots_nodup (v := v) labelled.place.linked.nodup
  rw [labelled.place.split] at distinct
  have different : other ≠ slot := by
    intro equal
    subst equal
    exact (List.nodup_middle.mp distinct).notMem member
  have inRoot : other ∈ chainSlots v chain := by
    rw [labelled.place.split]
    simp only [List.mem_append, List.mem_cons] at member ⊢
    exact member.elim .inl fun behind => .inr (.inr behind)
  exact ⟨different, labelled.others other (mem_chainSlots.mp inRoot).2.2 different⟩

/-- Entries that a lookup passes in the root directory, it passes there still,
unless the label ends the directory. -/
theorem firstMatch_passed {comp : List UInt8}
    (hidden : label 0 = 0xE5 ∨ label 0 = 0x2E) (found : Slot) :
    FirstMatch (makeName83 comp) store' (chainSlots v chain) found ↔
      FirstMatch (makeName83 comp) store (chainSlots v chain) found := by
  have first : entryAt store' slot 0 = label 0 := labelled.entry 0 (by decide)
  have old : Passed (makeName83 comp) (entryAt store slot) := by
    refine ⟨?_, fun matched => labelled.not_inUse matched.1⟩
    rw [labelled.place.deleted]
    decide
  have new : Passed (makeName83 comp) (entryAt store' slot) := by
    rw [Passed, first]
    rcases hidden with deleted | dot
    · refine ⟨by rw [deleted]; decide, ?_⟩
      intro matched
      exact matched.1.2.1 (first.trans deleted)
    · refine ⟨by rw [dot]; decide, ?_⟩
      intro matched
      apply makeName83_head_ne_dot comp
      rw [← matched.2, direntName_head, first, dot]
  have others : ∀ other ∈ chainSlots v chain, other ≠ slot →
      entryAt store' other = entryAt store other :=
    fun other member => labelled.others other (mem_chainSlots.mp member).2.2
  constructor
  · intro there
    apply there.preserved
    · intro other member passed
      by_cases isSlot : other = slot
      · exact isSlot ▸ old
      · rw [← others other member isSlot]
        exact passed
    · rw [← others found there.mem]
      · exact there.matched
      · intro isSlot
        exact new.2 (isSlot ▸ there.matched)
  · intro there
    apply there.preserved
    · intro other member passed
      by_cases isSlot : other = slot
      · exact isSlot ▸ new
      · rw [others other member isSlot]
        exact passed
    · rw [others found there.mem]
      · exact there.matched
      · intro isSlot
        exact old.2 (isSlot ▸ there.matched)

/-- A label that ends the directory hides nothing that a path component finds, if
nothing is shown behind it. -/
theorem firstMatch_ended {comp : List UInt8} (ended : label 0 = 0x00)
    (unshown : ∀ de ∈ (after.map (entryAt store)).takeWhile fun de => de 0 ≠ 0x00, ¬ Shown de)
    (found : Slot) :
    FirstMatch (makeName83 comp) store' (chainSlots v chain) found ↔
      FirstMatch (makeName83 comp) store (chainSlots v chain) found := by
  have first : entryAt store' slot 0 = 0x00 := (labelled.entry 0 (by decide)).trans ended
  constructor
  · rintro ⟨earlier, later, split, passed, matched⟩
    have same : ∀ other ∈ earlier ++ [found], entryAt store' other = entryAt store other := by
      intro other member
      have inRoot : other ∈ chainSlots v chain := by
        rw [split, List.append_cons]
        exact List.mem_append_left _ member
      apply labelled.others other (mem_chainSlots.mp inRoot).2.2
      intro isSlot
      subst isSlot
      cases List.mem_append.mp member with
      | inl inEarlier => exact (passed other inEarlier).1 first
      | inr isFound =>
          rw [List.mem_singleton] at isFound
          exact matched.1.1 (isFound ▸ first)
    refine ⟨earlier, later, split, ?_, ?_⟩
    · intro other member
      rw [← same other (by simp [member])]
      exact passed other member
    · rw [← same found (by simp)]
      exact matched
  · rintro ⟨earlier, later, split, passed, matched⟩
    have whole := labelled.place.split
    rw [split] at whole
    have inFront : ∀ other ∈ earlier ++ [found], other ∈ before := by
      rcases List.append_eq_append_iff.mp whole with
        ⟨extra, equal, rest⟩ | ⟨extra, equal, rest⟩
      · cases extra with
        | nil =>
            simp only [List.nil_append, List.cons.injEq] at rest
            exact absurd (rest.1 ▸ matched.1) labelled.not_inUse
        | cons head tail =>
            simp only [List.cons_append, List.cons.injEq] at rest
            intro other member
            rw [equal, ← rest.1, List.append_cons]
            exact List.mem_append_left _ member
      · cases extra with
        | nil =>
            simp only [List.nil_append, List.cons.injEq] at rest
            exact absurd (rest.1 ▸ matched.1) labelled.not_inUse
        | cons head tail =>
            -- an entry found behind the label would be shown
            simp only [List.cons_append, List.cons.injEq] at rest
            have running : ∀ de ∈ tail.map (entryAt store), de 0 ≠ 0x00 := by
              intro de member
              rcases List.mem_map.mp member with ⟨other, inTail, rfl⟩
              exact (passed other (by simp [equal, inTail])).1
            have shown : Shown (entryAt store found) := by
              refine ⟨matched.1, ?_⟩
              rw [← direntName_head (entryAt store found), matched.2]
              exact makeName83_head_ne_dot comp
            refine absurd shown (unshown _ ?_)
            rw [rest.2, List.map_append, List.map_cons,
              List.takeWhile_append_of_pos (by simpa using running)]
            simp [matched.1.1]
    have same : ∀ other ∈ earlier ++ [found], entryAt store' other = entryAt store other :=
      fun other member => (labelled.root_same other (by simp [inFront other member])).2
    refine ⟨earlier, later, split, ?_, ?_⟩
    · intro other member
      rw [same other (by simp [member])]
      exact passed other member
    · rw [same found (by simp)]
      exact matched

section

variable (owned : Owned v limit store) (overlooked : Overlooked store after label)
include owned overlooked

/-- In every directory, a path component finds what it found. -/
theorem firstMatch_iff {dirCl : Nat} {chain' : List Nat} {comp : List UInt8}
    (dir : LiveDir v limit store dirCl chain') (found : Slot) :
    FirstMatch (makeName83 comp) store' (chainSlots v chain') found ↔
      FirstMatch (makeName83 comp) store (chainSlots v chain') found := by
  rcases labelled.cases_dir owned dir with rfl | same
  · rcases overlooked with deleted | dot | ⟨ended, unshown⟩
    · exact labelled.firstMatch_passed (.inl deleted) found
    · exact labelled.firstMatch_passed (.inr dot) found
    · exact labelled.firstMatch_ended ended unshown found
  · exact ⟨fun there => there.congr fun other member => (same other member).symm,
      fun there => there.congr same⟩

end

/-! ### What is listed -/

/-- The root directory was listed without the deleted slot. -/
theorem listItems_root : listItems (chainEntries v store chain) =
    listItems (before.map (entryAt store)) ++ listItems (after.map (entryAt store)) := by
  have unmarked : ∀ de ∈ before.map (entryAt store), de 0 ≠ 0x00 := by
    intro de member
    rcases List.mem_map.mp member with ⟨other, inBefore, rfl⟩
    exact labelled.place.unmarked other inBefore
  have deleted : entryAt store slot 0 ≠ 0x00 := by
    rw [labelled.place.deleted]
    decide
  have skipped : ¬ Shown (entryAt store slot) := fun shown => labelled.not_inUse shown.1
  rw [chainEntries, labelled.place.split, List.map_append, List.map_cons,
    listItems_append unmarked, listItems_skipped deleted skipped]

/-- The root directory is listed with the label. -/
theorem listItems_label : listItems (chainEntries v store' chain) =
    listItems (before.map (entryAt store)) ++
      listItems (entryAt store' slot :: after.map (entryAt store)) := by
  have unmarked : ∀ de ∈ before.map (entryAt store), de 0 ≠ 0x00 := by
    intro de member
    rcases List.mem_map.mp member with ⟨other, inBefore, rfl⟩
    exact labelled.place.unmarked other inBefore
  have front : before.map (entryAt store') = before.map (entryAt store) :=
    List.map_congr_left fun other member => (labelled.root_same other (by simp [member])).2
  have behind : after.map (entryAt store') = after.map (entryAt store) :=
    List.map_congr_left fun other member => (labelled.root_same other (by simp [member])).2
  rw [chainEntries, labelled.place.split, List.map_append, List.map_cons, front, behind,
    listItems_append unmarked]

/-- The root directory is listed as it was just if the label is overlooked. -/
theorem listItems_iff : listItems (chainEntries v store' chain) =
    listItems (chainEntries v store chain) ↔ Overlooked store after label := by
  have first : entryAt store' slot 0 = label 0 := labelled.entry 0 (by decide)
  have attr : entryAt store' slot 11 ≠ attrLongName := by
    rw [labelled.entry 11 (by decide), labelled.isLabel.attr]
    decide
  rw [labelled.listItems_root, labelled.listItems_label, List.append_cancel_left_eq, Overlooked]
  by_cases ended : label 0 = 0x00
  · rw [listItems_ended (first.trans ended), eq_comm, listItems_eq_nil]
    simp [ended]
  · have used : entryAt store' slot 0 ≠ 0x00 := by rwa [first]
    by_cases shown : Shown (entryAt store' slot)
    · rw [listItems_shown shown]
      have seen := shown
      rw [Shown, InUse, first] at seen
      simp [seen.1.2.1, seen.2, ended]
    · rw [listItems_skipped used shown]
      rw [Shown, InUse, first] at shown
      simp only [ended, false_and, or_false, true_iff]
      by_contra neither
      simp only [not_or] at neither
      exact shown ⟨⟨ended, neither.1, attr⟩, neither.2⟩

end Labelled

/-! ## The walks -/

section

variable {v : Vol} (shape : Fat32Geometry v) {fuel : Nat} (enough : v.clusterLimit < fuel)
  {sectors sectors' : Nat → Buffer} {chain : List Nat} {before after : List Slot} {slot : Slot}
  {label : Buffer}
  (owned : Owned v v.clusterLimit (view v v.clusterLimit sectors))
  (labelled : Labelled v v.clusterLimit (view v v.clusterLimit sectors)
    (view v v.clusterLimit sectors') chain before slot after label)
  (overlooked : Overlooked (view v v.clusterLimit sectors) after label)

include shape enough owned labelled overlooked

/-- A lookup of a path component returns the same entry, or none. -/
theorem Labelled.lookup {dirCl : Nat} {chain' : List Nat}
    (dir : LiveDir v v.clusterLimit (view v v.clusterLimit sectors) dirCl chain')
    (comp : List UInt8) :
    (∃ found, FirstMatch (makeName83 comp) (view v v.clusterLimit sectors) (chainSlots v chain')
        found ∧
      dirFindEntry v (makeName83 comp) fuel dirCl (Device.healthy sectors) =
        some (.ok (hitAt v (view v v.clusterLimit sectors) found), Device.healthy sectors) ∧
      dirFindEntry v (makeName83 comp) fuel dirCl (Device.healthy sectors') =
        some (.ok (hitAt v (view v v.clusterLimit sectors) found), Device.healthy sectors')) ∨
    ((∀ found, ¬ FirstMatch (makeName83 comp) (view v v.clusterLimit sectors)
        (chainSlots v chain') found) ∧
      (∀ found, ¬ FirstMatch (makeName83 comp) (view v v.clusterLimit sectors')
        (chainSlots v chain') found) ∧
      ∃ code code', dirFindEntry v (makeName83 comp) fuel dirCl (Device.healthy sectors) =
          some (.error code, Device.healthy sectors) ∧
        dirFindEntry v (makeName83 comp) fuel dirCl (Device.healthy sectors') =
          some (.error code', Device.healthy sectors')) := by
  have same : ∀ found,
      FirstMatch (makeName83 comp) (view v v.clusterLimit sectors') (chainSlots v chain') found ↔
        FirstMatch (makeName83 comp) (view v v.clusterLimit sectors) (chainSlots v chain') found :=
    labelled.firstMatch_iff owned overlooked dir
  have dir' := labelled.liveDir owned dir
  rcases dirFindEntry_healthy shape.geometry (makeName83 comp) dir.dirChain enough with
    ⟨found, first, ran⟩ | ⟨absent, code, ran⟩
  · left
    refine ⟨found, first, ran, ?_⟩
    have run' := dirFindEntry_first shape enough dir' ((same found).mpr first)
    have placed : Placed v v.clusterLimit (view v v.clusterLimit sectors) found :=
      ⟨dirCl, chain', dir, first.mem⟩
    have elsewhere := labelled.not_live owned (placed.live first.matched.listed)
    have entry := labelled.others found (mem_chainSlots.mp first.mem).2.2 elsewhere
    rw [run', hitAt, entry]
    rfl
  · right
    have absent' : ∀ found, ¬ FirstMatch (makeName83 comp) (view v v.clusterLimit sectors')
        (chainSlots v chain') found := fun found first => absent found ((same found).mp first)
    refine ⟨absent, absent', code, ?_⟩
    rcases dirFindEntry_healthy shape.geometry (makeName83 comp) dir'.dirChain enough with
      ⟨found, first, _⟩ | ⟨_, code', ran'⟩
    · exact absurd first (absent' found)
    · exact ⟨code', ran, ran'⟩

omit overlooked in
/-- A file is read as it was. -/
theorem Labelled.readFile {found : Slot}
    (live : Live v (view v v.clusterLimit sectors) (some found)) (size maxBytes : Nat) :
    ∃ result, readFileFromCluster v fuel
        (direntStartCluster (entryAt (view v v.clusterLimit sectors) found)) size maxBytes
        (Device.healthy sectors) = some (result, Device.healthy sectors) ∧
      readFileFromCluster v fuel
        (direntStartCluster (entryAt (view v v.clusterLimit sectors) found)) size maxBytes
        (Device.healthy sectors') = some (result, Device.healthy sectors') := by
  rcases owned.tenancy.held (some found) live with ⟨fileChain, holds⟩
  -- its clusters are not those of the root directory
  have apart : ∀ cl ∈ fileChain, cl ≠ slot.cl := by
    intro cl member equal
    subst equal
    have inRoot := (mem_chainSlots.mp labelled.slot_mem).1
    cases owned.tenancy.owner_eq live .root holds labelled.root.chain member inRoot
  have holds' := holds.congr fun cl _ => congrFun labelled.next cl
  have data := chainData_congr (v := v) fun cl member => labelled.sectors cl (apart cl member)
  have read := readFileFromCluster_healthy shape.geometry
    (fun occupied => ⟨holds.linked occupied, fun _ => holds.inside⟩) enough size maxBytes
  have read' := readFileFromCluster_healthy shape.geometry
    (fun occupied => ⟨holds'.linked occupied, fun _ => holds'.inside⟩) enough size maxBytes
  rw [fileResult, data] at read'
  exact ⟨_, read, read'⟩

theorem readWalk_labelled (maxBytes : Nat) (comps : List (List UInt8)) {dirCl : Nat}
    {chain' : List Nat}
    (dir : LiveDir v v.clusterLimit (view v v.clusterLimit sectors) dirCl chain') :
    ∃ result, readWalk v fuel maxBytes comps dirCl (Device.healthy sectors) =
        some (result, Device.healthy sectors) ∧
      readWalk v fuel maxBytes comps dirCl (Device.healthy sectors') =
        some (result, Device.healthy sectors') := by
  induction comps generalizing dirCl chain' with
  | nil => exact ⟨_, rfl, rfl⟩
  | cons comp rest induction =>
      rcases labelled.lookup shape enough owned overlooked dir comp with
        ⟨found, first, ran, ran'⟩ | ⟨_, _, _, _, ran, ran'⟩
      · have placed : Placed v v.clusterLimit (view v v.clusterLimit sectors) found :=
          ⟨dirCl, chain', dir, first.mem⟩
        have live := placed.live first.matched.listed
        have read := labelled.readFile shape enough owned live
          ((entryAt (view v v.clusterLimit sectors) found).getU32 28) maxBytes
        rw [readWalk, DiskM.bind_run ran, DiskM.bind_run ran']
        by_cases isDir : direntIsDir (hitAt v (view v v.clusterLimit sectors) found).de = true
        · rcases owned.liveDir live isDir with ⟨_, next⟩
          cases rest with
          | nil => simp [isDir]
          | cons other others =>
              simp only [List.isEmpty_cons, Bool.not_false, if_true, isDir]
              exact induction next
        · cases rest with
          | nil =>
              simp only [List.isEmpty_nil, Bool.not_true, Bool.false_eq_true, if_false, isDir]
              exact read
          | cons other others => simp [isDir]
      · rw [readWalk, DiskM.bind_run ran, DiskM.bind_run ran']
        exact ⟨_, rfl, rfl⟩

theorem listWalk_labelled (maxItems : Nat) (comps : List (List UInt8)) {dirCl : Nat}
    {chain' : List Nat}
    (dir : LiveDir v v.clusterLimit (view v v.clusterLimit sectors) dirCl chain') :
    ∃ result, listWalk v fuel maxItems comps dirCl (Device.healthy sectors) =
        some (result, Device.healthy sectors) ∧
      listWalk v fuel maxItems comps dirCl (Device.healthy sectors') =
        some (result, Device.healthy sectors') := by
  induction comps generalizing dirCl chain' with
  | nil =>
      have dir' := labelled.liveDir owned dir
      have same : listItems (chainEntries v (view v v.clusterLimit sectors') chain') =
          listItems (chainEntries v (view v v.clusterLimit sectors) chain') := by
        rcases labelled.cases_dir owned dir with rfl | unchanged
        · exact labelled.listItems_iff.mpr overlooked
        · rw [chainEntries, List.map_congr_left unchanged]
          rfl
      rw [listWalk_here shape.geometry dir.dirChain enough,
        listWalk_here shape.geometry dir'.dirChain enough, same]
      exact ⟨_, rfl, rfl⟩
  | cons comp rest induction =>
      rcases labelled.lookup shape enough owned overlooked dir comp with
        ⟨found, first, ran, ran'⟩ | ⟨_, _, _, _, ran, ran'⟩
      · have placed : Placed v v.clusterLimit (view v v.clusterLimit sectors) found :=
          ⟨dirCl, chain', dir, first.mem⟩
        rw [listWalk, DiskM.bind_run ran, DiskM.bind_run ran']
        by_cases isDir : direntIsDir (hitAt v (view v v.clusterLimit sectors) found).de = true
        · rcases owned.liveDir (placed.live first.matched.listed) isDir with ⟨_, next⟩
          simp only [isDir, if_true]
          exact induction next
        · simp [isDir]
      · rw [listWalk, DiskM.bind_run ran, DiskM.bind_run ran']
        exact ⟨_, rfl, rfl⟩

end

/-! ### Walks that create -/

theorem Claimed.not_noneFree {v : Vol} {store store' : ClusterStore} {target : Nat}
    (claimed : Claimed v store store' target) : ¬ NoneFree v store :=
  fun none => none target claimed.fresh.data.1 claimed.below claimed.fresh.free

/-- The code of `makeDirectory` depends on the clusters and the slots that are free. -/
theorem Making.outcome {v : Vol} {sectors sectors' : Nat → Buffer} {dirCl newCl : Nat}
    {chain : List Nat} {comp : List UInt8} {result : Int}
    (making : Making v sectors sectors' dirCl chain comp result newCl) :
    NoneFree v (view v v.clusterLimit sectors) ∧ result = -3 ∨
    ¬ NoneFree v (view v v.clusterLimit sectors) ∧
      (¬ HasRoom v (view v v.clusterLimit sectors) chain ∧ result = -5 ∨
        HasRoom v (view v v.clusterLimit sectors) chain ∧ result = 0 ∧
          DirMade v (view v v.clusterLimit sectors) (view v v.clusterLimit sectors') dirCl chain
            comp newCl) := by
  cases making with
  | full none _ => exact .inl ⟨none, rfl⟩
  | crowded claimed noSlot => exact .inr ⟨claimed.not_noneFree, .inl ⟨noSlot, rfl⟩⟩
  | made made => exact .inr ⟨made.claimed.not_noneFree, .inr ⟨made.room, rfl, made⟩⟩

section

variable {v : Vol} (shape : Fat32Geometry v) {fuel : Nat} (enough : v.clusterLimit < fuel)

include shape enough

/-- In a directory that has just been created, the code depends on the number of
free clusters only. -/
theorem ensureWalk_fresh_code {comps : List (List UInt8)}
    (chars : ∀ comp ∈ comps, comp ≠ [] ∧ ∀ char ∈ comp, char ≠ 0)
    {sectors : Nat → Buffer} {dirCl : Nat} {chain : List Nat}
    (owned : Owned v v.clusterLimit (view v v.clusterLimit sectors))
    (walking : Walking v v.clusterLimit (view v v.clusterLimit sectors) dirCl chain)
    (unlisted : ∀ slot ∈ chainSlots v chain,
      ¬ Listed (entryAt (view v v.clusterLimit sectors) slot))
    (roomy : HasRoom v (view v v.clusterLimit sectors) chain) :
    ∃ after, ensureWalk v fuel comps dirCl (Device.healthy sectors) =
      some (if comps.length ≤ ((view v v.clusterLimit sectors).free (fatMaxClusters v)).length
        then 0 else -3, Device.healthy after) := by
  induction comps generalizing sectors dirCl chain with
  | nil => exact ⟨sectors, by simp [ensureWalk]⟩
  | cons comp rest induction =>
      have later : ∀ comp ∈ rest, comp ≠ [] ∧ ∀ char ∈ comp, char ≠ 0 :=
        fun other member => chars other (by simp [member])
      rcases chars comp (by simp) with ⟨nonempty, nulFree⟩
      cases ensureWalk_step shape enough rest owned walking nonempty nulFree with
      | enters _ _ first _ _ => exact absurd first.matched.listed (unlisted _ first.mem)
      | blocked first _ _ _ => exact absurd first.matched.listed (unlisted _ first.mem)
      | @makes _ _ between _ frame making ran =>
          rw [ran]
          rcases making.outcome with ⟨none, rfl⟩ | ⟨_, ⟨full, _⟩ | ⟨_, rfl, made⟩⟩
          · rw [none.length]
            exact ⟨between, by simp⟩
          · exact absurd roomy full
          · rcases induction later (frame Change.nowhere).owned made.walking made.unlisted
              made.roomy with ⟨after, further⟩
            refine ⟨after, ?_⟩
            rw [if_neg (by simp), further, ← made.claimed.length, List.length_cons]
            simp only [Nat.add_le_add_iff_right]

end

section

variable {v : Vol} (shape : Fat32Geometry v) {fuel : Nat} (enough : v.clusterLimit < fuel)
  {sectors sectors' : Nat → Buffer} {chain : List Nat} {before after : List Slot} {slot : Slot}
  {label : Buffer}
  (owned : Owned v v.clusterLimit (view v v.clusterLimit sectors))
  (labelled : Labelled v v.clusterLimit (view v v.clusterLimit sectors)
    (view v v.clusterLimit sectors') chain before slot after label)

include labelled

theorem Labelled.noneFree_iff : NoneFree v (view v v.clusterLimit sectors') ↔
    NoneFree v (view v v.clusterLimit sectors) := by
  rw [NoneFree, NoneFree, labelled.next]

theorem Labelled.free_eq (bound : Nat) : (view v v.clusterLimit sectors').free bound =
    (view v v.clusterLimit sectors).free bound := by
  rw [ClusterStore.free, ClusterStore.free, labelled.next]

include owned

/-- No directory loses its last free slot but the root. -/
theorem Labelled.hasRoom_iff (room : HasRoom v (view v v.clusterLimit sectors') chain)
    {dirCl : Nat} {chain' : List Nat}
    (dir : LiveDir v v.clusterLimit (view v v.clusterLimit sectors) dirCl chain') :
    HasRoom v (view v v.clusterLimit sectors') chain' ↔
      HasRoom v (view v v.clusterLimit sectors) chain' := by
  rcases labelled.cases_dir owned dir with rfl | same
  · have roomy : HasRoom v (view v v.clusterLimit sectors) chain' :=
      ⟨slot, labelled.slot_mem, .inr labelled.place.deleted⟩
    exact ⟨fun _ => roomy, fun _ => room⟩
  · exact ⟨fun roomy => roomy.congr fun other member => (same other member).symm,
      fun roomy => roomy.congr same⟩

include shape enough

theorem ensureWalk_labelled (overlooked : Overlooked (view v v.clusterLimit sectors) after label)
    (room : NoneFree v (view v v.clusterLimit sectors) ∨
      HasRoom v (view v v.clusterLimit sectors') chain) {comps : List (List UInt8)}
    (chars : ∀ comp ∈ comps, comp ≠ [] ∧ ∀ char ∈ comp, char ≠ 0) {dirCl : Nat}
    {chain' : List Nat}
    (dir : LiveDir v v.clusterLimit (view v v.clusterLimit sectors) dirCl chain') :
    ∃ code left left', ensureWalk v fuel comps dirCl (Device.healthy sectors) =
        some (code, Device.healthy left) ∧
      ensureWalk v fuel comps dirCl (Device.healthy sectors') =
        some (code, Device.healthy left') := by
  induction comps generalizing dirCl chain' with
  | nil => exact ⟨0, sectors, sectors', rfl, rfl⟩
  | cons comp rest induction =>
      have later : ∀ comp ∈ rest, comp ≠ [] ∧ ∀ char ∈ comp, char ≠ 0 :=
        fun other member => chars other (by simp [member])
      rcases chars comp (by simp) with ⟨nonempty, nulFree⟩
      rcases labelled.lookup shape enough owned overlooked dir comp with
        ⟨found, first, ran, ran'⟩ | ⟨absent, absent', _, _, ran, ran'⟩
      · have placed : Placed v v.clusterLimit (view v v.clusterLimit sectors) found :=
          ⟨dirCl, chain', dir, first.mem⟩
        rw [ensureWalk, DiskM.bind_run (ensureDirectory_hit ran),
          DiskM.bind_run (ensureDirectory_hit ran')]
        by_cases isDir : direntIsDir (hitAt v (view v v.clusterLimit sectors) found).de = true
        · rcases owned.liveDir (placed.live first.matched.listed) isDir with ⟨_, next⟩
          rw [if_pos isDir]
          exact induction later next
        · rw [if_neg isDir]
          exact ⟨-2, sectors, sectors', rfl, rfl⟩
      · have dir' := labelled.liveDir owned dir
        have owned' := labelled.owned_after owned
        rcases ensureDirectory_absent shape enough owned (.inl dir) nonempty nulFree absent ran with
          ⟨result, newCl, left, ensured, frame, making⟩
        rcases ensureDirectory_absent shape enough owned' (.inl dir') nonempty nulFree absent'
          ran' with ⟨result', newCl', left', ensured', frame', making'⟩
        rw [ensureWalk, DiskM.bind_run ensured, DiskM.bind_run ensured']
        by_cases none : NoneFree v (view v v.clusterLimit sectors)
        · have none' := labelled.noneFree_iff.mpr none
          rcases making.outcome with ⟨_, rfl⟩ | ⟨some, _⟩
          · rcases making'.outcome with ⟨_, rfl⟩ | ⟨some', _⟩
            · exact ⟨-3, left, left', rfl, rfl⟩
            · exact absurd none' some'
          · exact absurd none some
        · have none' : ¬ NoneFree v (view v v.clusterLimit sectors') := by
            rwa [labelled.noneFree_iff]
          have sameRoom := labelled.hasRoom_iff owned (room.resolve_left none) dir
          rcases making.outcome with ⟨all, _⟩ | ⟨_, ⟨full, rfl⟩ | ⟨roomy, rfl, made⟩⟩
          · exact absurd all none
          · rcases making'.outcome with ⟨all', _⟩ | ⟨_, ⟨_, rfl⟩ | ⟨roomy', _⟩⟩
            · exact absurd all' none'
            · exact ⟨-5, left, left', rfl, rfl⟩
            · exact absurd (sameRoom.mp roomy') full
          · rcases making'.outcome with ⟨all', _⟩ | ⟨_, ⟨full', _⟩ | ⟨_, rfl, made'⟩⟩
            · exact absurd all' none'
            · exact absurd (sameRoom.mpr roomy) full'
            · -- both walks go on in a new directory, and as many clusters are left
              rcases ensureWalk_fresh_code shape enough later (frame Change.nowhere).owned
                made.walking made.unlisted made.roomy with ⟨final, further⟩
              rcases ensureWalk_fresh_code shape enough later (frame' Change.nowhere).owned
                made'.walking made'.unlisted made'.roomy with ⟨final', further'⟩
              have before := made.claimed.length
              have before' := made'.claimed.length
              rw [labelled.free_eq] at before'
              have count : ((view v v.clusterLimit left').free (fatMaxClusters v)).length =
                  ((view v v.clusterLimit left).free (fatMaxClusters v)).length := by omega
              rw [count] at further'
              simp only [ne_eq, not_true_eq_false, if_false, enterDir, made.claimed.fresh.ne_zero,
                made'.claimed.fresh.ne_zero]
              exact ⟨_, final, final', further, further'⟩

end

/-- A directory under a name that is never found is made whenever there is a cluster
and a slot for it. -/
theorem ensureWalk_unfindable {v : Vol} (shape : Fat32Geometry v) {fuel : Nat}
    (enough : v.clusterLimit < fuel) {sectors : Nat → Buffer} {dirCl : Nat} {chain : List Nat}
    {comp : List UInt8} (owned : Owned v v.clusterLimit (view v v.clusterLimit sectors))
    (dir : LiveDir v v.clusterLimit (view v v.clusterLimit sectors) dirCl chain)
    (head : comp.head? = some 0xE5) (nulFree : ∀ char ∈ comp, char ≠ 0)
    (some : ¬ NoneFree v (view v v.clusterLimit sectors)) :
    ∃ code after, ensureWalk v fuel [comp] dirCl (Device.healthy sectors) =
        Option.some (code, Device.healthy after) ∧
      (code = 0 ↔ HasRoom v (view v v.clusterLimit sectors) chain) := by
  have nonempty : comp ≠ [] := by
    intro none
    subst none
    simp at head
  cases ensureWalk_step shape enough [] owned (.inl dir) nonempty nulFree with
  | enters _ _ first _ _ => exact absurd head (first.shown nonempty)
  | blocked first _ _ _ => exact absurd head (first.shown nonempty)
  | @makes _ _ after _ _ making ran =>
      rw [ran]
      rcases making.outcome with ⟨none, _⟩ | ⟨_, ⟨full, rfl⟩ | ⟨roomy, rfl, _⟩⟩
      · exact absurd none some
      · exact ⟨-5, after, rfl, by simp [full]⟩
      · exact ⟨0, after, rfl, by simp [roomy]⟩

section

variable {v : Vol} {sectors sectors' : Nat → Buffer} {fuel : Nat} {chain : List Nat}
  {before after : List Slot} {slot : Slot} {label : Buffer} (wellFormed : WellFormed v sectors)
  (enough : v.clusterLimit < fuel)
  (labelled : Labelled v v.clusterLimit (view v v.clusterLimit sectors)
    (view v v.clusterLimit sectors') chain before slot after label)

include wellFormed labelled enough

theorem SameResults.of_unnoticed
    (unnoticed : Unnoticed v (view v v.clusterLimit sectors) before after label) :
    SameResults v fuel sectors sectors' := by
  have shape := wellFormed.shape
  have owned := wellFormed.owned
  have root := labelled.root
  have overlooked := unnoticed.1
  have room : NoneFree v (view v v.clusterLimit sectors) ∨
      HasRoom v (view v v.clusterLimit sectors') chain := by
    have first : entryAt (view v v.clusterLimit sectors') slot 0 = label 0 :=
      labelled.entry 0 (by decide)
    rcases overlooked with deleted | dot | ⟨ended, _⟩
    · exact .inr ⟨slot, labelled.slot_mem, .inr (first.trans deleted)⟩
    · rcases unnoticed.2 dot with none | ⟨other, member, free⟩
      · exact .inl none
      · right
        rw [← (labelled.root_same other member).2] at free
        refine ⟨other, ?_, free⟩
        rw [labelled.place.split]
        simp only [List.mem_append, List.mem_cons] at member ⊢
        exact member.elim .inl fun behind => .inr (.inr behind)
    · exact .inr ⟨slot, labelled.slot_mem, .inl (first.trans ended)⟩
  intro path
  refine ⟨?_, ?_, ?_⟩
  · intro maxBytes
    rcases readWalk_labelled shape enough owned labelled overlooked maxBytes path.components83
      root with ⟨result, ran, ran'⟩
    simp only [fat32ReadFilePath, shape.fat32, DiskM.bind_apply, ran, ran']
    rfl
  · rcases ensureWalk_labelled shape enough owned labelled overlooked room
      (components83_chars path) root with ⟨code, left, left', ran, ran'⟩
    simp only [fat32EnsureDirPath, shape.fat32, DiskM.bind_apply, ran, ran']
    rfl
  · intro maxItems
    rcases listWalk_labelled shape enough owned labelled overlooked maxItems.toNat path.components83
      root with ⟨result, ran, ran'⟩
    simp only [fat32ListDirPath, shape.fat32]
    split
    · rfl
    · simp only [DiskM.bind_apply, ran, ran']
      rfl

theorem Unnoticed.of_sameResults (same : SameResults v fuel sectors sectors') :
    Unnoticed v (view v v.clusterLimit sectors) before after label := by
  have shape := wellFormed.shape
  have owned := wellFormed.owned
  have root := labelled.root
  have root' := labelled.liveDir owned root
  constructor
  · -- the root directory is listed as it was, with room for everything
    have path : (CString.ofArray []).components83 = [] := by decide
    have listed : ∀ count, 0 < count →
        (listItems (chainEntries v (view v v.clusterLimit sectors') chain)).take count =
          (listItems (chainEntries v (view v v.clusterLimit sectors) chain)).take count := by
      intro count asked
      have equal := (same (.ofArray [])).2.2 count
      simp only [fat32ListDirPath, shape.fat32, path, Int.toNat_natCast] at equal
      rw [if_neg (by omega)] at equal
      simpa [listWalk_here shape.geometry root.dirChain enough,
        listWalk_here shape.geometry root'.dirChain enough] using equal
    rw [← labelled.listItems_iff]
    generalize listItems (chainEntries v (view v v.clusterLimit sectors') chain) = items'
      at listed ⊢
    generalize listItems (chainEntries v (view v v.clusterLimit sectors) chain) = items
      at listed ⊢
    have whole := listed (items'.length + items.length + 1) (by omega)
    rwa [List.take_of_length_le (by omega), List.take_of_length_le (by omega)] at whole
  · intro dot
    by_contra neither
    simp only [not_or, not_exists, not_and] at neither
    rcases neither with ⟨clusters, slots⟩
    have clusters' : ¬ NoneFree v (view v v.clusterLimit sectors') := by
      rwa [labelled.noneFree_iff]
    have roomy : HasRoom v (view v v.clusterLimit sectors) chain :=
      ⟨slot, labelled.slot_mem, .inr labelled.place.deleted⟩
    have full : ¬ HasRoom v (view v v.clusterLimit sectors') chain := by
      rintro ⟨other, member, free⟩
      by_cases isSlot : other = slot
      · rw [isSlot, Free, labelled.entry 0 (by decide), dot] at free
        exact absurd free (by decide)
      · have elsewhere : other ∈ before ++ after := by
          rw [labelled.place.split] at member
          simp only [List.mem_append, List.mem_cons] at member ⊢
          tauto
        rw [(labelled.root_same other elsewhere).2] at free
        exact slots other elsewhere free
    have path : (CString.ofArray [0xE5]).components83 = [[0xE5]] := by decide
    have head : ([0xE5] : List UInt8).head? = some 0xE5 := rfl
    have nulFree : ∀ char ∈ ([0xE5] : List UInt8), char ≠ 0 := by simp
    rcases ensureWalk_unfindable shape enough owned root head nulFree clusters with
      ⟨code, left, ran, succeeds⟩
    rcases ensureWalk_unfindable shape enough (labelled.owned_after owned) root' head nulFree
      clusters' with ⟨code', left', ran', succeeds'⟩
    have equal := (same (.ofArray [0xE5])).2.1
    simp only [fat32EnsureDirPath, shape.fat32, path, DiskM.bind_apply, ran, ran'] at equal
    have codes : code' = code := by simpa using equal
    exact full (succeeds'.mp (codes.trans (succeeds.mpr roomy)))

end

/-- A label in a deleted slot of the root directory, in front of the end marker, changes
no result for any path just if it begins with the mark of a deleted entry, or ends the
directory where nothing visible follows, or begins with a dot and is not put into the
last free slot while there are free clusters. -/
theorem label_sameResults_iff {v : Vol} {sectors : Nat → Buffer} {fuel : Nat} {chain : List Nat}
    {before after : List Slot} {slot : Slot} {label : Buffer} (wellFormed : WellFormed v sectors)
    (enough : v.clusterLimit < fuel)
    (place : DeletedSlot v (view v v.clusterLimit sectors) chain before slot after)
    (isLabel : IsLabel label) :
    SameResults v fuel sectors (putEntry v sectors slot label) ↔
      Unnoticed v (view v v.clusterLimit sectors) before after label := by
  have labelled := Labelled.of_putEntry wellFormed place isLabel
  exact ⟨Unnoticed.of_sameResults wellFormed enough labelled,
    SameResults.of_unnoticed wellFormed enough labelled⟩

/-- The small volume with a deleted entry at the start of its root directory. -/
def deletedFirst : Nat → Buffer := fun lba =>
  if lba = 1 then Buffer.putU32 (fun _ => 0) 8 eocMark
  else if lba = 2 then Buffer.putU8 (fun _ => 0) 0 0xE5
  else fun _ => 0

def firstSlot : Slot := ⟨2, 0, 0⟩

/-- A label with this name. -/
def labelNamed (name11 : List UInt8) : Buffer :=
  putDirent (fun _ => 0) 0 name11 attrVolumeLabel 0 0

theorem deletedFirst_wellFormed : WellFormed smallVol deletedFirst := by
  refine ⟨smallVol_wellFormed.shape, .of_blank_root ⟨by decide, by decide⟩ (by decide)
    (by decide) ?_⟩
  decide

theorem deletedFirst_place : DeletedSlot smallVol
    (view smallVol smallVol.clusterLimit deletedFirst) [smallVol.rootClus] [] firstSlot
    (chainSlots smallVol [smallVol.rootClus]).tail where
  linked := .single (by decide) (by decide)
  split := by decide
  unmarked := by simp
  deleted := by decide

/-- A label that begins with a dot, where there is room. -/
theorem label_sameResults_dot : SameResults smallVol 13 deletedFirst
    (putEntry smallVol deletedFirst firstSlot (labelNamed (0x2E :: List.replicate 10 0x41))) := by
  refine (label_sameResults_iff deletedFirst_wellFormed (by decide) deletedFirst_place
    ⟨by decide +kernel, by decide +kernel⟩).mpr ⟨.inr (.inl (by decide +kernel)), fun _ => .inr ?_⟩
  exact ⟨⟨2, 0, 32⟩, by decide +kernel, by decide +kernel⟩

/-- The label `A` is found instead of a directory `A`, which then cannot be made. -/
theorem label_blocks_directory :
    ¬ ∀ (v : Vol) (sectors : Nat → Buffer) (fuel : Nat) (chain : List Nat)
      (before after : List Slot) (slot : Slot) (label : Buffer),
      WellFormed v sectors → v.clusterLimit < fuel →
      DeletedSlot v (view v v.clusterLimit sectors) chain before slot after → IsLabel label →
      SameResults v fuel sectors (putEntry v sectors slot label) := by
  intro claim
  have same := claim smallVol deletedFirst 13 _ _ _ firstSlot
    (labelNamed (0x41 :: List.replicate 10 0x20)) deletedFirst_wellFormed (by decide)
    deletedFirst_place ⟨by decide +kernel, by decide +kernel⟩ (.ofArray [0x41])
  have before : (fat32EnsureDirPath smallVol 13 (.ofArray [0x41])
      (Device.healthy deletedFirst)).map (fun result => result.1.2) = some 0 := by
    decide +kernel
  have after : (fat32EnsureDirPath smallVol 13 (.ofArray [0x41]) (Device.healthy
      (putEntry smallVol deletedFirst firstSlot (labelNamed (0x41 :: List.replicate 10 0x20))))).map
      (fun result => result.1.2) = some (-2) := by
    decide +kernel
  have equal := congrArg (Option.map Prod.snd) same.2.1
  rw [Option.map_map, Option.map_map] at equal
  exact absurd (before.symm.trans (equal.symm.trans after)) (by decide)

end ParanOS

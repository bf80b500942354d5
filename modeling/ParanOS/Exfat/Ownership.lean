import ParanOS.Exfat.EntrySet

/-! # Who owns the clusters of an exFAT volume

The root directory, the allocation bitmap, and every set that can be parsed
anywhere in a directory in use; a set counts also behind an end marker. Each
owner has a depth, so that the directories above a place are told from what is
below it.
-/

namespace ParanOS

open Foundation

/-! ## Owners -/

/-- A set that can be parsed starts in this slot. -/
def IsSet (v : Vol) (store : ClusterStore) (place : Place) : Prop :=
  (setAt v store place).isSome = true

instance (v : Vol) (store : ClusterStore) (place : Place) : Decidable (IsSet v store place) :=
  inferInstanceAs (Decidable (_ = true))

/-- The start cluster of a set. -/
def setStart (v : Vol) (store : ClusterStore) (place : Place) : Nat :=
  (body v store place.cl).getU32 (place.off + 52)

def setIsDir (v : Vol) (store : ClusterStore) (place : Place) : Bool :=
  (body v store place.cl).getU16 (place.off + 4) &&& 0x10 ≠ 0

inductive ExfatOwner
  | root
  | bitmap
  | entry (place : Place)
  deriving DecidableEq

namespace ExfatOwner

def start (v : Vol) (store : ClusterStore) : ExfatOwner → Nat
  | root => v.rootClus
  | bitmap => v.exfatBitmapClus
  | entry place => setStart v store place

def IsDir (v : Vol) (store : ClusterStore) : ExfatOwner → Prop
  | root => True
  | bitmap => False
  | entry place => setIsDir v store place = true

/-- The owners that are in use, with their depths. -/
inductive LiveAt (v : Vol) (store : ClusterStore) : Nat → ExfatOwner → Prop
  | root : LiveAt v store 0 root
  | bitmap : LiveAt v store 0 bitmap
  | entry {depth parent place chain} : LiveAt v store depth parent → parent.IsDir v store →
      Linked store.next EndOfChain (parent.start v store) chain →
      place ∈ chainPlaces v chain → IsSet v store place →
      LiveAt v store (depth + 1) (entry place)

def Live (v : Vol) (store : ClusterStore) (owner : ExfatOwner) : Prop :=
  ∃ depth, owner.LiveAt v store depth

/-- What an owner holds. -/
abbrev Holds (v : Vol) (store : ClusterStore) (owner : ExfatOwner) (chain : List Nat) : Prop :=
  Chain (v.exfatClusterCount + 2) store (owner.start v store) chain

end ExfatOwner

open ExfatOwner (LiveAt)

/-- The chains of all owners are in range, end, and are pairwise disjoint. -/
structure ExfatOwned (v : Vol) (store : ClusterStore) : Prop where
  tenancy : Tenancy store.next EndOfChain (· = 0) (DataCluster (v.exfatClusterCount + 2))
    (ExfatOwner.Live v store) (ExfatOwner.start v store)
  dirs : ∀ owner : ExfatOwner, owner.Live v store → owner.IsDir v store →
    owner.start v store ≠ 0

/-- A directory in use, its depth and its chain. -/
structure DirAt (v : Vol) (store : ClusterStore) (depth : Nat) (owner : ExfatOwner)
    (chain : List Nat) : Prop where
  live : LiveAt v store depth owner
  isDir : owner.IsDir v store
  occupied : owner.start v store ≠ 0
  holds : owner.Holds v store chain

theorem DirAt.linked {v : Vol} {store : ClusterStore} {depth : Nat} {owner : ExfatOwner}
    {chain : List Nat} (dir : DirAt v store depth owner chain) :
    Linked store.next EndOfChain (owner.start v store) chain :=
  dir.holds.linked dir.occupied

theorem DirAt.data {v : Vol} {store : ClusterStore} {depth : Nat} {owner : ExfatOwner}
    {chain : List Nat} (dir : DirAt v store depth owner chain) :
    ∀ cl ∈ chain, DataCluster (v.exfatClusterCount + 2) cl :=
  fun _ member => dir.holds.inside member

theorem DirAt.length_lt {v : Vol} {store : ClusterStore} {depth fuel : Nat}
    {owner : ExfatOwner} {chain : List Nat} (dir : DirAt v store depth owner chain)
    (enough : v.exfatClusterCount + 2 < fuel) : chain.length < fuel := by
  have bound := length_le_of_nodup_of_lt dir.linked.nodup fun cl member => (dir.data cl member).2
  omega

/-- Nobody holds the cluster. -/
def Vacant (v : Vol) (store : ClusterStore) (cl : Nat) : Prop :=
  ∀ owner chain, ExfatOwner.Live v store owner → owner.Holds v store chain → cl ∉ chain

theorem vacant_of_free {v : Vol} {store : ClusterStore} {cl : Nat}
    (free : store.next cl = 0) : Vacant v store cl :=
  fun _ _ _ holds member => chain_next_ne_zero holds member free

namespace ExfatOwned

variable {v : Vol} {store : ClusterStore} (owned : ExfatOwned v store)
include owned

theorem dirAt {owner : ExfatOwner} {depth : Nat} (live : LiveAt v store depth owner)
    (isDir : owner.IsDir v store) : ∃ chain, DirAt v store depth owner chain := by
  rcases owned.tenancy.held owner ⟨depth, live⟩ with ⟨chain, holds⟩
  exact ⟨chain, live, isDir, owned.dirs owner ⟨depth, live⟩ isDir, holds⟩

theorem dirAt_root : ∃ chain, DirAt v store 0 .root chain :=
  owned.dirAt .root trivial

/-- A set in use lies in a directory in use, one level up. -/
theorem parent {depth : Nat} {place : Place} (live : LiveAt v store depth (.entry place)) :
    ∃ above owner chain, depth = above + 1 ∧ DirAt v store above owner chain ∧
      place ∈ chainPlaces v chain ∧ IsSet v store place := by
  cases live with
  | entry parentLive isDir linked member set =>
      rcases owned.dirAt parentLive isDir with ⟨chain, dir⟩
      have same := linked.unique dir.linked
      subst same
      exact ⟨_, _, _, rfl, dir, member, set⟩

/-- A cluster on two chains makes them one owner's. -/
theorem owner_eq {owner other : ExfatOwner} {chain chain' : List Nat} {cl : Nat}
    (live : owner.Live v store) (live' : other.Live v store) (holds : owner.Holds v store chain)
    (holds' : other.Holds v store chain') (member : cl ∈ chain) (member' : cl ∈ chain') :
    owner = other :=
  owned.tenancy.owner_eq live live' holds holds' member member'

/-- An owner has one depth. -/
theorem depth_eq (shape : ExfatGeometry v) {depth depth' : Nat} {owner : ExfatOwner}
    (live : LiveAt v store depth owner) (live' : LiveAt v store depth' owner) :
    depth = depth' := by
  induction live generalizing depth' with
  | root =>
      cases live'
      rfl
  | bitmap =>
      cases live'
      rfl
  | @entry above parent place chain parentLive isDir linked member set induction =>
      rcases owned.dirAt parentLive isDir with ⟨chain', dir⟩
      have same := linked.unique dir.linked
      subst same
      rcases owned.parent live' with ⟨above', parent', chain'', rfl, dir', member', _⟩
      have equal := owned.owner_eq ⟨_, parentLive⟩ ⟨_, dir'.live⟩ dir.holds dir'.holds
        ((mem_chainPlaces shape).mp member).1 ((mem_chainPlaces shape).mp member').1
      subst equal
      rw [induction dir'.live]

end ExfatOwned

/-! ## Directories above a depth -/

/-- The directories above a depth are as they were. -/
def KeptAbove (v : Vol) (depth : Nat) (store store' : ClusterStore) : Prop :=
  ∀ above owner chain, above < depth → DirAt v store above owner chain →
    ∀ cl ∈ chain, store'.next cl = store.next cl ∧ store'.sector cl = store.sector cl

namespace KeptAbove

variable {v : Vol} {depth : Nat} {store store' store'' : ClusterStore}

theorem refl (v : Vol) (depth : Nat) (store : ClusterStore) :
    KeptAbove v depth store store :=
  fun _ _ _ _ _ _ _ => ⟨rfl, rfl⟩

theorem mono {depth' : Nat} (kept : KeptAbove v depth store store') (less : depth' ≤ depth) :
    KeptAbove v depth' store store' :=
  fun above owner chain below => kept above owner chain (Nat.lt_of_lt_of_le below less)

end KeptAbove

/-- When a set can be parsed. -/
theorem isSet_iff {v : Vol} {store : ClusterStore} {place : Place} :
    IsSet v store place ↔
      body v store place.cl place.off = exfatEntryFile ∧
      1 ≤ (body v store place.cl (place.off + 1)).toNat ∧
      (body v store place.cl (place.off + 1)).toNat ≤ 40 ∧
      place.off + ((body v store place.cl (place.off + 1)).toNat + 1) * 32 ≤ v.clusterBytes ∧
      body v store place.cl (place.off + 32) = exfatEntryStream := by
  simp only [IsSet, setAt]
  by_cases file : body v store place.cl place.off = exfatEntryFile
  · by_cases none : (body v store place.cl (place.off + 1)).toNat = 0
    · simp [none]
    · by_cases long : (body v store place.cl (place.off + 1)).toNat > 40
      · rw [if_neg (by simpa using file), if_neg none, if_pos long]
        simp only [Option.isSome_none, Bool.false_eq_true, false_iff]
        omega
      · by_cases outside : place.off +
            ((body v store place.cl (place.off + 1)).toNat + 1) * 32 > v.clusterBytes
        · rw [if_neg (by simpa using file), if_neg none, if_neg long, if_pos outside]
          simp only [Option.isSome_none, Bool.false_eq_true, false_iff]
          omega
        · rw [if_neg (by simpa using file), if_neg none, if_neg long, if_neg outside,
            exfatParseFileSet, if_neg none, window_lt (by omega)]
          by_cases stream : body v store place.cl (place.off + 32) = exfatEntryStream
          · simp only [stream, ne_eq, not_true_eq_false, if_false, Option.isSome_some, true_iff]
            exact ⟨file, by omega, by omega, by omega, trivial⟩
          · simp [stream]
  · simp [file]

/-- The values of a set that was parsed. -/
theorem setAt_info {v : Vol} {store : ClusterStore} {place : Place} {name : List UInt8}
    {info : EntryInfo} (found : setAt v store place = some (name, info)) :
    info.cluster = setStart v store place ∧ info.isDir = setIsDir v store place ∧
      name.length ≤ 15 * ((body v store place.cl (place.off + 1)).toNat - 1) := by
  have set : IsSet v store place := by simp [IsSet, found]
  rcases isSet_iff.mp set with ⟨file, positive, short, inside, stream⟩
  simp only [setAt] at found
  rw [if_neg (by simpa using file), if_neg (by omega), if_neg (by omega), if_neg (by omega),
    exfatParseFileSet, if_neg (by omega), window_lt (by omega), if_neg (by simpa using stream)]
    at found
  simp only [Option.some.injEq, Prod.mk.injEq] at found
  rcases found with ⟨rfl, rfl⟩
  refine ⟨?_, ?_, ?_⟩
  · rw [setStart]
    apply Buffer.getU32_congr
    intro index below
    rw [window_lt (by omega), Nat.add_assoc]
  · simp only [setIsDir]
    rw [@Buffer.getU16_congr _ (body v store place.cl) _ (place.off + 4)]
    intro index below
    rw [window_lt (by omega), Nat.add_assoc]
  · have bound := collectName_length (window (body v store place.cl) place.off
      (((body v store place.cl (place.off + 1)).toNat + 1) * 32))
      (window (body v store place.cl) place.off
        (((body v store place.cl (place.off + 1)).toNat + 1) * 32) 35).toNat
      (List.range' 2 ((body v store place.cl (place.off + 1)).toNat - 1)) []
    simpa using bound

/-- The first two entries decide about a set. -/
theorem IsSet.of_head {v : Vol} {store store' : ClusterStore} {place : Place}
    (same : ∀ index < 64, body v store' place.cl (place.off + index) =
      body v store place.cl (place.off + index)) :
    (IsSet v store' place ↔ IsSet v store place) ∧
      setStart v store' place = setStart v store place ∧
      setIsDir v store' place = setIsDir v store place := by
  have first := same 0 (by omega)
  rw [Nat.add_zero] at first
  refine ⟨?_, ?_, ?_⟩
  · rw [isSet_iff, isSet_iff, first, same 1 (by omega), same 32 (by omega)]
  · rw [setStart, setStart]
    apply Buffer.getU32_congr
    intro index below
    rw [Nat.add_assoc]
    exact same (52 + index) (by omega)
  · rw [setIsDir, setIsDir,
      @Buffer.getU16_congr _ (body v store place.cl) _ (place.off + 4)]
    intro index below
    rw [Nat.add_assoc]
    exact same (4 + index) (by omega)

/-- The set in a slot of an unchanged cluster. -/
theorem IsSet.congr {v : Vol} {store store' : ClusterStore} {place : Place}
    (same : body v store' place.cl = body v store place.cl) :
    (IsSet v store' place ↔ IsSet v store place) ∧
      setStart v store' place = setStart v store place ∧
      setIsDir v store' place = setIsDir v store place :=
  IsSet.of_head fun _ _ => by rw [same]

section

variable {v : Vol} (shape : ExfatGeometry v)
include shape

/-- Owners at most at a depth above which nothing has changed are still there,
and start where they did. -/
theorem KeptAbove.liveAt {depth above : Nat} {store store' : ClusterStore}
    {owner : ExfatOwner} (kept : KeptAbove v depth store store') (owned : ExfatOwned v store)
    (live : LiveAt v store above owner) (within : above ≤ depth) :
    LiveAt v store' above owner ∧ owner.start v store' = owner.start v store ∧
      (owner.IsDir v store' ↔ owner.IsDir v store) := by
  induction live with
  | root => exact ⟨.root, rfl, Iff.rfl⟩
  | bitmap => exact ⟨.bitmap, rfl, Iff.rfl⟩
  | @entry above parent place chain parentLive isDir linked member set induction =>
      rcases induction (by omega) with ⟨parentLive', start, sameDir⟩
      rcases owned.dirAt parentLive isDir with ⟨chain', dir⟩
      have same := linked.unique dir.linked
      subst same
      have unchanged := kept above parent chain (by omega) dir
      have cluster := (mem_chainPlaces shape).mp member
      rcases @IsSet.congr v _ _ place
        (body_congr (unchanged place.cl cluster.1).2) with ⟨sets, starts, dirs⟩
      refine ⟨.entry parentLive' (sameDir.mpr isDir) ?_ member (sets.mpr set), starts, ?_⟩
      · rw [start]
        exact linked.congr fun cl inChain => (unchanged cl inChain).1
      · simp only [ExfatOwner.IsDir, dirs]

theorem KeptAbove.dirAt {depth above : Nat} {store store' : ClusterStore}
    {owner : ExfatOwner} {chain : List Nat} (kept : KeptAbove v depth store store')
    (owned : ExfatOwned v store) (dir : DirAt v store above owner chain)
    (within : above < depth) : DirAt v store' above owner chain := by
  rcases kept.liveAt shape owned dir.live (by omega) with ⟨live, start, isDir⟩
  have links := fun cl member => (kept above owner chain within dir cl member).1
  refine ⟨live, isDir.mpr dir.isDir, ?_, ?_⟩
  · rw [start]
    exact dir.occupied
  · rw [ExfatOwner.Holds, start]
    exact dir.holds.congr links

theorem KeptAbove.trans {depth : Nat} {store store' store'' : ClusterStore}
    (first : KeptAbove v depth store store') (owned : ExfatOwned v store)
    (second : KeptAbove v depth store' store'') : KeptAbove v depth store store'' := by
  intro above owner chain below dir cl member
  have before := first above owner chain below dir cl member
  have after := second above owner chain below (first.dirAt shape owned dir below) cl member
  exact ⟨after.1.trans before.1, after.2.trans before.2⟩

end

end ParanOS

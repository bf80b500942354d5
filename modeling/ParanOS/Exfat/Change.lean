import ParanOS.Exfat.Ownership

/-! # Changes of an exFAT volume

The three kinds of change that the driver's writes are made of: to clusters
that nobody holds, a further cluster for a directory, and a new or rewritten
set. Each keeps the ownership of clusters sound, and leaves the directories
above the one it happens in alone. Ownership also survives the loss of sets.
-/

namespace ParanOS

open Foundation
open ExfatOwner (LiveAt)

/-! ## Sets that vanish -/

/-- No owner's links have changed, and directories have no other sets than before. -/
structure Thinned (v : Vol) (store store' : ClusterStore) : Prop where
  links : ∀ owner chain, ExfatOwner.Live v store owner → owner.Holds v store chain →
    ∀ cl ∈ chain, store'.next cl = store.next cl
  sets : ∀ owner chain, ExfatOwner.Live v store owner → owner.IsDir v store →
    owner.Holds v store chain → ∀ place ∈ chainPlaces v chain, IsSet v store' place →
      IsSet v store place ∧ setStart v store' place = setStart v store place ∧
        setIsDir v store' place = setIsDir v store place

namespace Thinned

variable {v : Vol} {store store' : ClusterStore} (thinned : Thinned v store store')
  (owned : ExfatOwned v store)
include thinned owned

/-- Nobody new appears. -/
theorem liveAt_back {depth : Nat} {owner : ExfatOwner}
    (live : LiveAt v store' depth owner) :
    LiveAt v store depth owner ∧ owner.start v store' = owner.start v store ∧
      (owner.IsDir v store' ↔ owner.IsDir v store) := by
  induction live with
  | root => exact ⟨.root, rfl, Iff.rfl⟩
  | bitmap => exact ⟨.bitmap, rfl, Iff.rfl⟩
  | @entry above parent place chain parentLive isDir linked member set induction =>
      rcases induction with ⟨before, start, sameDir⟩
      rcases owned.dirAt before (sameDir.mp isDir) with ⟨chain', dir⟩
      have kept := thinned.links parent chain' ⟨_, before⟩ dir.holds
      rw [start] at linked
      have same := linked.unique (dir.linked.congr kept)
      subst same
      rcases thinned.sets parent chain ⟨_, before⟩ dir.isDir dir.holds place member set with
        ⟨set', starts, dirs⟩
      refine ⟨.entry before dir.isDir dir.linked member set', starts, ?_⟩
      simp only [ExfatOwner.IsDir, dirs]

theorem owned_after : ExfatOwned v store' := by
  constructor
  · apply owned.tenancy.congr
    · rintro owner ⟨depth, live⟩
      rcases thinned.liveAt_back owned live with ⟨before, start, _⟩
      exact ⟨⟨depth, before⟩, start⟩
    · exact thinned.links
  · rintro owner ⟨depth, live⟩ isDir
    rcases thinned.liveAt_back owned live with ⟨before, start, sameDir⟩
    rw [start]
    exact owned.dirs owner ⟨depth, before⟩ (sameDir.mp isDir)

/-- What an owner holds afterwards it held before. -/
theorem holds_back {owner : ExfatOwner} {chain : List Nat} (live : owner.Live v store')
    (holds : owner.Holds v store' chain) :
    owner.Live v store ∧ owner.Holds v store chain := by
  rcases live with ⟨depth, live⟩
  rcases thinned.liveAt_back owned live with ⟨before, start, _⟩
  rcases owned.tenancy.held owner ⟨depth, before⟩ with ⟨chain', holds'⟩
  rw [ExfatOwner.Holds, start] at holds
  have same := holds.unique (holds'.congr (thinned.links owner chain' ⟨depth, before⟩ holds'))
  subst same
  exact ⟨⟨depth, before⟩, holds'⟩

theorem vacant {cl : Nat} (vacant : Vacant v store cl) : Vacant v store' cl := by
  intro owner chain live holds
  rcases thinned.holds_back owned live holds with ⟨before, holds'⟩
  exact vacant owner chain before holds'

end Thinned

/-! ## Clusters that nobody holds -/

/-- No owner's links and no directory's content have changed. -/
structure Idle (v : Vol) (store store' : ClusterStore) : Prop where
  links : ∀ owner chain, ExfatOwner.Live v store owner → owner.Holds v store chain →
    ∀ cl ∈ chain, store'.next cl = store.next cl
  sectors : ∀ owner chain, ExfatOwner.Live v store owner → owner.IsDir v store →
    owner.Holds v store chain → ∀ cl ∈ chain, store'.sector cl = store.sector cl

section

variable {v : Vol} (shape : ExfatGeometry v)
include shape

namespace Idle

variable {store store' : ClusterStore} (idle : Idle v store store')
  (owned : ExfatOwned v store)
include idle

omit shape in
theorem kept (depth : Nat) : KeptAbove v depth store store' :=
  fun _ owner chain _ dir cl member =>
    ⟨idle.links owner chain ⟨_, dir.live⟩ dir.holds cl member,
      idle.sectors owner chain ⟨_, dir.live⟩ dir.isDir dir.holds cl member⟩

theorem thinned : Thinned v store store' := by
  refine ⟨idle.links, ?_⟩
  intro owner chain live isDir holds place member set
  have cluster := (mem_chainPlaces shape).mp member
  rcases @IsSet.congr v _ _ place (body_congr
    (idle.sectors owner chain live isDir holds place.cl cluster.1)) with ⟨sets, starts, dirs⟩
  exact ⟨sets.mp set, starts, dirs⟩

include owned

theorem owned_after : ExfatOwned v store' := (idle.thinned shape).owned_after owned

theorem dirAt {depth : Nat} {owner : ExfatOwner} {chain : List Nat}
    (dir : DirAt v store depth owner chain) : DirAt v store' depth owner chain :=
  (idle.kept (depth + 1)).dirAt shape owned dir (by omega)

theorem vacant {cl : Nat} (vacant : Vacant v store cl) : Vacant v store' cl :=
  (idle.thinned shape).vacant owned vacant

end Idle

/-! ## A further cluster -/

/-- The last cluster of a directory leads to a cluster that nobody held and that
has no sets. -/
structure Lengthened (v : Vol) (store store' : ClusterStore) (depth : Nat)
    (owner : ExfatOwner) (chain : List Nat) (target : Nat) : Prop where
  dir : DirAt v store depth owner chain
  vacant : Vacant v store target
  data : DataCluster (v.exfatClusterCount + 2) target
  running : ¬ EndOfChain target
  links : ∀ cl, cl ≠ chain.getLastD 0 → cl ≠ target → store'.next cl = store.next cl
  linked : store'.next (chain.getLastD 0) = target
  ends : EndOfChain (store'.next target)
  sectors : ∀ other chain, ExfatOwner.Live v store other → other.IsDir v store →
    other.Holds v store chain → ∀ cl ∈ chain, store'.sector cl = store.sector cl
  blank : ∀ off < v.clusterBytes, body v store' target off = 0x00

namespace Lengthened

variable {store store' : ClusterStore} {depth target : Nat} {owner : ExfatOwner}
  {chain : List Nat} (change : Lengthened v store store' depth owner chain target)
  (owned : ExfatOwned v store)
include change

omit shape in
theorem last_mem : chain.getLastD 0 ∈ chain := change.dir.holds.last_mem change.dir.occupied

omit shape in
theorem target_not_mem : target ∉ chain :=
  change.vacant owner chain ⟨depth, change.dir.live⟩ change.dir.holds

omit shape in
/-- The longer chain. -/
theorem holds : Chain (v.exfatClusterCount + 2) store' (owner.start v store)
    (chain ++ [target]) :=
  change.dir.holds.extend change.dir.occupied change.links change.linked change.running
    change.ends change.data change.target_not_mem

/-- No set starts in the new cluster. -/
theorem no_set {place : Place} (member : place ∈ chainPlaces v [target]) :
    ¬ IsSet v store' place := by
  have range := (mem_chainPlaces shape).mp member
  have zero := change.blank place.off range.2.2
  rw [← List.mem_singleton.mp range.1] at zero
  simp [IsSet, setAt, zero, exfatEntryFile]

include owned

omit shape in
/-- The links of everybody else. -/
theorem others {other : ExfatOwner} {chain' : List Nat} (live : other.Live v store)
    (different : other ≠ owner) (holds : other.Holds v store chain') :
    ∀ cl ∈ chain', store'.next cl = store.next cl := by
  intro cl member
  apply change.links
  · intro equal
    exact different (owned.owner_eq live ⟨depth, change.dir.live⟩ holds change.dir.holds
      (equal ▸ member) change.last_mem)
  · intro equal
    exact change.vacant other chain' live holds (equal ▸ member)

theorem liveAt_back {above : Nat} {other : ExfatOwner} (live : LiveAt v store' above other) :
    LiveAt v store above other ∧ other.start v store' = other.start v store ∧
      (other.IsDir v store' ↔ other.IsDir v store) := by
  induction live with
  | root => exact ⟨.root, rfl, Iff.rfl⟩
  | bitmap => exact ⟨.bitmap, rfl, Iff.rfl⟩
  | @entry above parent place chain' parentLive isDir linked member set induction =>
      rcases induction with ⟨before, start, sameDir⟩
      rcases owned.dirAt before (sameDir.mp isDir) with ⟨old, dir⟩
      rw [start] at linked
      -- the set stands in the old part of the parent's chain
      have inOld : place ∈ chainPlaces v old := by
        by_cases same : parent = owner
        · subst same
          have equal := change.dir.holds.unique dir.holds
          subst equal
          have longer := linked.unique (change.holds.linked dir.occupied)
          rw [longer, chainPlaces, List.flatMap_append, List.mem_append] at member
          rcases member with here | new
          · exact here
          · exact absurd set (change.no_set shape new)
        · have equal := linked.unique (dir.linked.congr
            (change.others owned ⟨_, before⟩ same dir.holds))
          subst equal
          exact member
      have cluster := (mem_chainPlaces shape).mp inOld
      rcases @IsSet.congr v _ _ place (body_congr (change.sectors parent old
        ⟨_, before⟩ dir.isDir dir.holds place.cl cluster.1)) with ⟨sets, starts, dirs⟩
      refine ⟨.entry before dir.isDir dir.linked inOld (sets.mp set), starts, ?_⟩
      simp only [ExfatOwner.IsDir, dirs]

theorem kept : KeptAbove v depth store store' := by
  intro above other chain' below dir cl member
  have different : other ≠ owner := by
    intro equal
    subst equal
    have := owned.depth_eq shape dir.live change.dir.live
    omega
  exact ⟨change.others owned ⟨_, dir.live⟩ different dir.holds cl member,
    change.sectors other chain' ⟨_, dir.live⟩ dir.isDir dir.holds cl member⟩

theorem owned_after : ExfatOwned v store' := by
  constructor
  · apply owned.tenancy.replace owner
    · rintro other _ ⟨above, live⟩
      rcases change.liveAt_back shape owned live with ⟨before, start, _⟩
      exact ⟨⟨above, before⟩, start⟩
    · intro other members different live holds
      exact change.others owned live different holds
    · rintro ⟨above, live⟩
      rcases change.liveAt_back shape owned live with ⟨before, start, _⟩
      refine ⟨chain ++ [target], ?_, ?_⟩
      · rw [start]
        exact change.holds
      · intro other members different live' holds'
        rw [List.disjoint_append_left]
        constructor
        · exact owned.tenancy.apart owner other chain members ⟨_, before⟩ live'
            (Ne.symm different) change.dir.holds holds'
        · rw [List.singleton_disjoint]
          exact change.vacant other members live' holds'
  · rintro other ⟨above, live⟩ isDir
    rcases change.liveAt_back shape owned live with ⟨before, start, sameDir⟩
    rw [start]
    exact owned.dirs other ⟨above, before⟩ (sameDir.mp isDir)

theorem dirAt : DirAt v store' depth owner (chain ++ [target]) := by
  rcases (change.kept shape owned).liveAt shape owned change.dir.live (by omega) with
    ⟨live, start, isDir⟩
  refine ⟨live, isDir.mpr change.dir.isDir, ?_, ?_⟩
  · rw [start]
    exact change.dir.occupied
  · rw [ExfatOwner.Holds, start]
    exact change.holds

theorem vacant_after {cl : Nat} (vacant : Vacant v store cl) (different : cl ≠ target) :
    Vacant v store' cl := by
  rintro other chain' ⟨above, live⟩ holds
  rcases change.liveAt_back shape owned live with ⟨before, start, _⟩
  rw [ExfatOwner.Holds, start] at holds
  by_cases same : other = owner
  · subst same
    rw [holds.unique change.holds]
    intro member
    rcases List.mem_append.mp member with old | new
    · exact vacant other chain ⟨_, before⟩ change.dir.holds old
    · exact different (List.mem_singleton.mp new)
  · rcases owned.tenancy.held other ⟨_, before⟩ with ⟨members, holds'⟩
    rw [holds.unique (holds'.congr (change.others owned ⟨_, before⟩ same holds'))]
    exact vacant other members ⟨_, before⟩ holds'

end Lengthened

/-! ## A set -/

/-- The slots of a set in a directory have been written. Other sets of the
directory's cluster can only have vanished, and the set holds clusters that
nobody else held. What the set that stood in the slot before held is free to
have changed. -/
structure Entered (v : Vol) (store store' : ClusterStore) (depth : Nat) (owner : ExfatOwner)
    (chain : List Nat) (place : Place) (members : List Nat) : Prop where
  dir : DirAt v store depth owner chain
  inside : place ∈ chainPlaces v chain
  links : ∀ other chain', ExfatOwner.Live v store other → other ≠ .entry place →
    other.Holds v store chain' → ∀ cl ∈ chain', store'.next cl = store.next cl
  sectors : ∀ other chain', ExfatOwner.Live v store other → other.IsDir v store →
    other ≠ .entry place → other.Holds v store chain' →
    ∀ cl ∈ chain', cl ≠ place.cl → store'.sector cl = store.sector cl
  neighbours : ∀ other ∈ chainPlaces v chain, other.cl = place.cl → other ≠ place →
    IsSet v store' other → IsSet v store other ∧
      setStart v store' other = setStart v store other ∧
      setIsDir v store' other = setIsDir v store other
  set : IsSet v store' place
  holds : Chain (v.exfatClusterCount + 2) store' (setStart v store' place) members
  apart : ∀ other chain', ExfatOwner.Live v store other → other ≠ .entry place →
    other.Holds v store chain' → members.Disjoint chain'
  /-- A new directory is empty. -/
  empty : setIsDir v store' place = true → setStart v store' place ≠ 0 ∧
    ∀ other ∈ chainPlaces v members, ¬ IsSet v store' other

namespace Entered

variable {store store' : ClusterStore} {depth : Nat} {owner : ExfatOwner}
  {chain members : List Nat} {place : Place}
  (change : Entered v store store' depth owner chain place members)
  (owned : ExfatOwned v store)
include change owned

/-- If the slot had a set before, it was one level down. -/
theorem depth_before {above : Nat} (live : LiveAt v store above (.entry place)) :
    above = depth + 1 := by
  rcases owned.parent live with ⟨up, parent, chain', rfl, dir, member, _⟩
  have same := owned.owner_eq ⟨_, dir.live⟩ ⟨_, change.dir.live⟩ dir.holds change.dir.holds
    ((mem_chainPlaces shape).mp member).1 ((mem_chainPlaces shape).mp change.inside).1
  subst same
  rw [owned.depth_eq shape dir.live change.dir.live]

theorem owner_ne : owner ≠ .entry place := by
  intro equal
  have := change.depth_before shape owned (equal ▸ change.dir.live)
  omega

/-- Nobody new appears but the set. -/
theorem liveAt_back {above : Nat} {other : ExfatOwner} (live : LiveAt v store' above other) :
    other = .entry place ∨
      LiveAt v store above other ∧ other.start v store' = other.start v store ∧
        (other.IsDir v store' ↔ other.IsDir v store) := by
  induction live with
  | root => exact .inr ⟨.root, rfl, Iff.rfl⟩
  | bitmap => exact .inr ⟨.bitmap, rfl, Iff.rfl⟩
  | @entry above parent target chain' parentLive isDir linked member set induction =>
      by_cases itself : parent = .entry place
      · -- the set's own directory has no sets
        subst itself
        rcases change.empty isDir with ⟨occupied, none⟩
        have same := linked.unique (change.holds.linked occupied)
        subst same
        exact absurd set (none target member)
      · rcases induction with equal | ⟨before, start, sameDir⟩
        · exact absurd equal itself
        rcases owned.dirAt before (sameDir.mp isDir) with ⟨old, dir⟩
        rw [start] at linked
        have same := linked.unique (dir.linked.congr
          (change.links parent old ⟨_, before⟩ itself dir.holds))
        subst same
        by_cases here : target = place
        · exact .inl (by rw [here])
        right
        have cluster := (mem_chainPlaces shape).mp member
        have kept : IsSet v store target ∧
            setStart v store' target = setStart v store target ∧
            setIsDir v store' target = setIsDir v store target := by
          by_cases near : target.cl = place.cl
          · have placeCluster := (mem_chainPlaces shape).mp change.inside
            have sameOwner := owned.owner_eq ⟨_, before⟩ ⟨_, change.dir.live⟩ dir.holds
              change.dir.holds (near ▸ cluster.1) placeCluster.1
            subst sameOwner
            have sameChain := dir.holds.unique change.dir.holds
            subst sameChain
            exact change.neighbours target member near here set
          · rcases @IsSet.congr v _ _ target (body_congr (change.sectors parent _
              ⟨_, before⟩ dir.isDir itself dir.holds target.cl cluster.1 near)) with
              ⟨sets, starts, dirs⟩
            exact ⟨sets.mp set, starts, dirs⟩
        refine ⟨.entry before dir.isDir dir.linked member kept.1, kept.2.1, ?_⟩
        simp only [ExfatOwner.IsDir, kept.2.2]

theorem kept : KeptAbove v depth store store' := by
  intro above other chain' below dir cl member
  have notSet : other ≠ .entry place := by
    intro equal
    have := change.depth_before shape owned (equal ▸ dir.live)
    omega
  have notHere : cl ≠ place.cl := by
    intro equal
    have same := owned.owner_eq ⟨_, dir.live⟩ ⟨_, change.dir.live⟩ dir.holds change.dir.holds
      (equal ▸ member) ((mem_chainPlaces shape).mp change.inside).1
    subst same
    have := owned.depth_eq shape dir.live change.dir.live
    omega
  exact ⟨change.links other chain' ⟨_, dir.live⟩ notSet dir.holds cl member,
    change.sectors other chain' ⟨_, dir.live⟩ dir.isDir notSet dir.holds cl member notHere⟩

theorem owned_after : ExfatOwned v store' := by
  constructor
  · apply owned.tenancy.replace (.entry place)
    · rintro other different ⟨above, live⟩
      rcases change.liveAt_back shape owned live with equal | ⟨before, start, _⟩
      · exact absurd equal different
      · exact ⟨⟨above, before⟩, start⟩
    · intro other chain' different live holds
      exact change.links other chain' live different holds
    · intro _
      refine ⟨members, change.holds, ?_⟩
      intro other chain' different live holds
      exact change.apart other chain' live different holds
  · rintro other ⟨above, live⟩ isDir
    by_cases itself : other = .entry place
    · subst itself
      exact (change.empty isDir).1
    · rcases change.liveAt_back shape owned live with equal | ⟨before, start, sameDir⟩
      · exact absurd equal itself
      · rw [start]
        exact owned.dirs other ⟨above, before⟩ (sameDir.mp isDir)

theorem dirAt : DirAt v store' depth owner chain := by
  rcases (change.kept shape owned).liveAt shape owned change.dir.live (by omega) with
    ⟨live, start, isDir⟩
  refine ⟨live, isDir.mpr change.dir.isDir, ?_, ?_⟩
  · rw [start]
    exact change.dir.occupied
  · rw [ExfatOwner.Holds, start]
    exact change.dir.holds.congr (change.links owner chain ⟨_, change.dir.live⟩
      (change.owner_ne shape owned) change.dir.holds)

theorem liveAt : LiveAt v store' (depth + 1) (.entry place) :=
  have dir := change.dirAt shape owned
  .entry dir.live dir.isDir dir.linked change.inside change.set

end Entered

end

end ParanOS

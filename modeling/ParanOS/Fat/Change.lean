import ParanOS.Fat.WellFormed

/-! # Changing one entry

Every write of the driver changes at most one entry of the directories in use,
and clusters that are that entry's or nobody's. `Change` says this of two
states; that the volume stays well formed, and that all other files and all
paths to them stay as they were, follows from it once for all operations.
-/

namespace ParanOS

open Foundation

/-- From one state to the next, only the entry in `changed` and what it holds
have changed. -/
structure Change (v : Vol) (limit : Nat) (store store' : ClusterStore) (changed : Slot) :
    Prop where
  links : ∀ owner chain, Live v store owner → owner ≠ some changed →
    Chain limit store (ownerStart v store owner) chain →
    ∀ cl ∈ chain, store'.next cl = store.next cl
  entries : ∀ slot, Placed v limit store slot → slot ≠ changed →
    entryAt store' slot = entryAt store slot
  content : ∀ slot chain, Live v store (some slot) → slot ≠ changed →
    ¬ OwnerIsDir store (some slot) →
    Chain limit store (ownerStart v store (some slot)) chain →
    ∀ cl ∈ chain, store'.sector cl = store.sector cl
  /-- The changed entry was no directory. -/
  leaf : Live v store (some changed) → ¬ OwnerIsDir store (some changed)
  /-- The new entry does not get in the way of what was found behind it. -/
  passes : ∀ dirCl chain want slot, LiveDir v limit store dirCl chain →
    changed ∈ chainSlots v chain → FirstMatch want store (chainSlots v chain) slot →
    slot ≠ changed → Passed want (entryAt store changed) →
    Passed want (entryAt store' changed)
  /-- What the new entry holds was nobody else's, and lists nothing yet. -/
  fresh : Placed v limit store changed → Listed (entryAt store' changed) →
    ∃ chain, Chain limit store' (ownerStart v store' (some changed)) chain ∧
      (∀ owner chain', Live v store owner → owner ≠ some changed →
        Chain limit store (ownerStart v store owner) chain' → chain.Disjoint chain') ∧
      (OwnerIsDir store' (some changed) → ownerStart v store' (some changed) ≠ 0 ∧
        ∀ slot ∈ chainSlots v chain, ¬ Listed (entryAt store' slot))

/-- The entry in a slot, what it holds and the paths that lead to it are as
they were. -/
structure Kept (v : Vol) (limit : Nat) (store store' : ClusterStore) (slot : Slot) :
    Prop where
  live : Live v store' (some slot)
  entry : entryAt store' slot = entryAt store slot
  chain : ∀ chain, ¬ OwnerIsDir store (some slot) →
    Chain limit store (ownerStart v store (some slot)) chain →
    Chain limit store' (ownerStart v store' (some slot)) chain ∧
      ∀ cl ∈ chain, store'.sector cl = store.sector cl
  resolves : ∀ dirCl chain comps, LiveDir v limit store dirCl chain →
    Resolves v store dirCl comps slot → Resolves v store' dirCl comps slot

/-- The volume stays well formed, directories stay where they are, and all
entries but at most one are kept. -/
structure Frame (v : Vol) (limit : Nat) (store store' : ClusterStore) (except : Slot) :
    Prop where
  owned : Owned v limit store'
  dirs : ∀ dirCl chain, LiveDir v limit store dirCl chain →
    LiveDir v limit store' dirCl chain
  kept : ∀ slot, Live v store (some slot) → slot ≠ except → Kept v limit store store' slot

namespace Frame

variable {v : Vol} {limit : Nat} {store store' store'' : ClusterStore} {except : Slot}

theorem refl (owned : Owned v limit store) (except : Slot) :
    Frame v limit store store except where
  owned := owned
  dirs := fun _ _ dir => dir
  kept := fun _ live _ => ⟨live, rfl, fun _ _ holds => ⟨holds, fun _ _ => rfl⟩,
    fun _ _ _ _ resolved => resolved⟩

theorem trans (first : Frame v limit store store' except)
    (second : Frame v limit store' store'' except) :
    Frame v limit store store'' except where
  owned := second.owned
  dirs := fun dirCl chain dir => second.dirs dirCl chain (first.dirs dirCl chain dir)
  kept := by
    intro slot live different
    have before := first.kept slot live different
    have after := second.kept slot before.live different
    refine ⟨after.live, after.entry.trans before.entry, ?_, ?_⟩
    · intro chain file holds
      rcases before.chain chain file holds with ⟨holds', same⟩
      have file' : ¬ OwnerIsDir store' (some slot) := by
        rw [OwnerIsDir, before.entry]
        exact file
      rcases after.chain chain file' holds' with ⟨holds'', same'⟩
      exact ⟨holds'', fun cl member => (same' cl member).trans (same cl member)⟩
    · intro dirCl chain comps dir resolved
      exact after.resolves dirCl chain comps (first.dirs dirCl chain dir)
        (before.resolves dirCl chain comps dir resolved)

end Frame

namespace Change

variable {v : Vol} {limit : Nat} {store store' : ClusterStore} {changed : Slot}

section

variable (owned : Owned v limit store) (change : Change v limit store store' changed)
include owned change

/-- The entry of any other owner is as it was. -/
theorem owner_same {owner : Owner} (live : Live v store owner)
    (different : owner ≠ some changed) :
    ownerStart v store' owner = ownerStart v store owner ∧
      (OwnerIsDir store' owner ↔ OwnerIsDir store owner) := by
  cases owner with
  | none => exact ⟨rfl, Iff.rfl⟩
  | some slot =>
      have same := change.entries slot (owned.placed_of_live live).1 fun equal =>
        different (by rw [equal])
      simp only [ownerStart, OwnerIsDir, same, and_self]

theorem chain_same {owner : Owner} {chain : List Nat} (live : Live v store owner)
    (different : owner ≠ some changed)
    (holds : Chain limit store (ownerStart v store owner) chain) :
    Chain limit store' (ownerStart v store' owner) chain := by
  rw [(change.owner_same owned live different).1]
  exact holds.congr (change.links owner chain live different holds)

omit owned in
theorem dir_different {owner : Owner} (live : Live v store owner)
    (isDir : OwnerIsDir store owner) : owner ≠ some changed := by
  intro equal
  subst equal
  exact change.leaf live isDir

theorem live_forth {owner : Owner} (live : Live v store owner)
    (different : owner ≠ some changed) : Live v store' owner := by
  induction live with
  | root => exact .root
  | @entry parent slot chain parentLive isDir linked member listed induction =>
      have parentDifferent := change.dir_different parentLive isDir
      have parentSame := change.owner_same owned parentLive parentDifferent
      rcases owned.liveDir parentLive isDir with ⟨chain', dir⟩
      have sameChain := linked.unique (dir.chain.linked dir.occupied)
      subst sameChain
      rcases dir.owner with ⟨holder, holderLive, holderIsDir, holderStart⟩
      have holds := dir.chain
      rw [← holderStart] at holds
      have agree := change.links holder chain holderLive
        (change.dir_different holderLive holderIsDir) holds
      have listed' : Listed (entryAt store' slot) := by
        rw [change.entries slot ⟨_, _, dir, member⟩ fun equal => different (by rw [equal])]
        exact listed
      refine .entry (induction parentDifferent) (parentSame.2.mpr isDir) ?_ member listed'
      rw [parentSame.1]
      exact linked.congr agree

/-- A directory in use stays where it is. -/
theorem liveDir {dirCl : Nat} {chain : List Nat} (dir : LiveDir v limit store dirCl chain) :
    LiveDir v limit store' dirCl chain := by
  rcases dir.owner with ⟨owner, live, isDir, start⟩
  have different := change.dir_different live isDir
  have same := change.owner_same owned live different
  have holds := dir.chain
  rw [← start] at holds
  have holds' := change.chain_same owned live different holds
  rw [same.1, start] at holds'
  exact ⟨⟨owner, change.live_forth owned live different, same.2.mpr isDir,
    same.1.trans start⟩, dir.occupied, holds'⟩

/-- Whatever is live afterwards was live before, or is the changed entry. -/
theorem live_back {owner : Owner} (live : Live v store' owner) :
    (Live v store owner ∧ owner ≠ some changed) ∨
      (owner = some changed ∧ Placed v limit store changed ∧
        Listed (entryAt store' changed)) := by
  induction live with
  | root => exact .inl ⟨.root, by simp⟩
  | @entry parent slot chain parentLive isDir linked member listed induction =>
      rcases induction with ⟨before, different⟩ | ⟨equal, placed, parentListed⟩
      · have same := change.owner_same owned before different
        have isDirBefore := same.2.mp isDir
        rcases owned.liveDir before isDirBefore with ⟨chain', dir⟩
        have dir' := change.liveDir owned dir
        rw [same.1] at linked
        have sameChain := linked.unique (dir'.chain.linked dir'.occupied)
        subst sameChain
        have placed : Placed v limit store slot := ⟨_, _, dir, member⟩
        by_cases equal : slot = changed
        · subst equal
          exact .inr ⟨rfl, placed, listed⟩
        · rw [change.entries slot placed equal] at listed
          exact .inl ⟨placed.live listed, fun same => equal (Option.some.inj same)⟩
      · subst equal
        rcases change.fresh placed parentListed with ⟨new, holds, _, barren⟩
        rcases barren isDir with ⟨occupied, unlisted⟩
        rw [enterDir, if_neg occupied] at linked
        have sameChain := linked.unique (holds.linked occupied)
        subst sameChain
        exact absurd listed (unlisted slot member)

theorem owned_after : Owned v limit store' where
  tenancy := by
    refine owned.tenancy.replace (some changed) ?_ ?_ ?_
    · intro owner different live
      rcases change.live_back owned live with ⟨before, _⟩ | ⟨equal, _⟩
      · exact ⟨before, (change.owner_same owned before different).1⟩
      · exact absurd equal different
    · intro owner chain different live holds
      exact change.links owner chain live different holds
    · intro live
      rcases change.live_back owned live with ⟨_, different⟩ | ⟨_, placed, listed⟩
      · exact absurd rfl different
      · rcases change.fresh placed listed with ⟨chain, holds, apart, _⟩
        exact ⟨chain, holds, fun owner chain' different live' =>
          apart owner chain' live' different⟩
  root := owned.root

omit owned in
/-- A lookup that did not find the changed entry finds what it found. -/
theorem firstMatch {dirCl : Nat} {chain : List Nat} {want : List UInt8} {slot : Slot}
    (dir : LiveDir v limit store dirCl chain)
    (first : FirstMatch want store (chainSlots v chain) slot) (different : slot ≠ changed) :
    FirstMatch want store' (chainSlots v chain) slot := by
  refine first.preserved ?_ ?_
  · intro other member passed
    by_cases equal : other = changed
    · subst equal
      exact change.passes dirCl chain want slot dir member first different passed
    · rw [change.entries other ⟨dirCl, chain, dir, member⟩ equal]
      exact passed
  · rw [change.entries slot ⟨dirCl, chain, dir, first.mem⟩ different]
    exact first.matched

theorem resolves {dirCl : Nat} {chain : List Nat} {comps : List (List UInt8)} {slot : Slot}
    (dir : LiveDir v limit store dirCl chain) (different : slot ≠ changed)
    (resolved : Resolves v store dirCl comps slot) : Resolves v store' dirCl comps slot := by
  induction resolved generalizing chain with
  | @last dirCl comp chain' slot linked first =>
      have sameChain := linked.unique (dir.chain.linked dir.occupied)
      subst sameChain
      have dir' := change.liveDir owned dir
      exact .last (dir'.chain.linked dir'.occupied) (change.firstMatch dir first different)
  | @step dirCl comp rest chain' middle slot linked first isDir more _ induction =>
      have sameChain := linked.unique (dir.chain.linked dir.occupied)
      subst sameChain
      have dir' := change.liveDir owned dir
      have placed : Placed v limit store middle := ⟨dirCl, chain', dir, first.mem⟩
      have live := placed.live first.matched.listed
      have middleDifferent : middle ≠ changed := by
        intro equal
        subst equal
        exact change.leaf live isDir
      have same := change.entries middle placed middleDifferent
      rcases owned.liveDir live (show OwnerIsDir store (some middle) from isDir) with
        ⟨chain'', next⟩
      refine .step (dir'.chain.linked dir'.occupied)
        (change.firstMatch dir first middleDifferent) ?_ more ?_
      · rw [same]
        exact isDir
      · rw [same]
        exact induction next different

theorem frame : Frame v limit store store' changed where
  owned := change.owned_after owned
  dirs := fun _ _ dir => change.liveDir owned dir
  kept := by
    intro slot live different
    have otherOwner : some slot ≠ some changed := fun equal => different (Option.some.inj equal)
    refine ⟨change.live_forth owned live otherOwner,
      change.entries slot (owned.placed_of_live live).1 different, ?_, ?_⟩
    · intro chain file holds
      exact ⟨change.chain_same owned live otherOwner holds,
        change.content slot chain live different file holds⟩
    · intro dirCl chain comps dir resolved
      exact change.resolves owned dir different resolved

/-- When the changed entry was not live, everything that was live is kept. -/
theorem frame_of_not_live (absent : ¬ Live v store (some changed)) (except : Slot) :
    Frame v limit store store' except where
  owned := change.owned_after owned
  dirs := fun _ _ dir => change.liveDir owned dir
  kept := fun slot live _ => (change.frame owned).kept slot live fun equal =>
    absent (equal ▸ live)

/-- A cluster that was nobody's and is not the changed entry's is nobody's. -/
theorem unowned {cl : Nat} (unowned : Unowned v limit store cl)
    (outside : Placed v limit store changed → Listed (entryAt store' changed) → ∀ chain,
      Chain limit store' (ownerStart v store' (some changed)) chain → cl ∉ chain) :
    Unowned v limit store' cl := by
  intro owner chain live holds
  rcases change.live_back owned live with ⟨before, different⟩ | ⟨equal, placed, listed⟩
  · rcases owned.tenancy.held owner before with ⟨chain', holds'⟩
    have same := holds.unique (change.chain_same owned before different holds')
    subst same
    exact unowned owner chain before holds'
  · subst equal
    exact outside placed listed chain holds

end

end Change

end ParanOS

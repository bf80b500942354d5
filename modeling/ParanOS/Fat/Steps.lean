import ParanOS.Fat.Change
import ParanOS.Fat.Entry
import ParanOS.Fat.Transfer

/-! # The three changes the driver makes

Storing into clusters that nobody owns, filling a free slot, and overwriting a
file. Each is a `Change`.
-/

namespace ParanOS

open Foundation

namespace Change

variable {v : Vol} {limit : Nat} {store store' : ClusterStore}

/-- A slot outside the data region. -/
def nowhere : Slot := ⟨0, 0, 0⟩

theorem nowhere_not_placed : ¬ Placed v limit store nowhere := by
  intro placed
  have lower := placed.data.1
  simp [nowhere] at lower

/-- Clusters that nobody owns may be changed at will. -/
theorem idle (owned : Owned v limit store) {clusters : Nat → Prop}
    (free : ∀ cl, clusters cl → Unowned v limit store cl)
    (links : ∀ cl, ¬ clusters cl → store'.next cl = store.next cl)
    (sectors : ∀ cl, ¬ clusters cl → store'.sector cl = store.sector cl) :
    Change v limit store store' nowhere where
  links := by
    intro owner chain live _ holds cl member
    exact links cl fun inside => free cl inside owner chain live holds member
  entries := by
    rintro slot ⟨dirCl, chain, dir, member⟩ _
    have inChain := (mem_chainSlots.mp member).1
    rw [entryAt, entryAt, sectors slot.cl fun inside =>
      dir.not_unowned inChain (free slot.cl inside)]
  content := by
    intro slot chain live _ _ holds cl member
    exact sectors cl fun inside => free cl inside (some slot) chain live holds member
  leaf := fun live => absurd (owned.placed_of_live live).1 nowhere_not_placed
  passes := fun _ _ _ _ dir member => absurd ⟨_, _, dir, member⟩ nowhere_not_placed
  fresh := fun placed => absurd placed nowhere_not_placed

/-- A free slot of a directory gets an entry for a name that was not found
there, with a cluster that nobody owns. -/
theorem fill (owned : Owned v limit store) {dirCl target : Nat} {chain : List Nat}
    {slot : Slot} {sec : Buffer} (dir : LiveDir v limit store dirCl chain)
    (member : slot ∈ chainSlots v chain) (free : Free (entryAt store slot))
    (outside : ∀ index, index < slot.off ∨ slot.off + 32 ≤ index →
      sec index = store.sector slot.cl slot.s index)
    (absent : ∀ other, ¬ FirstMatch (direntName (direntAt sec slot.off)) store
      (chainSlots v chain) other)
    (notEnd : direntAt sec slot.off 0 ≠ 0)
    (start : direntStartCluster (direntAt sec slot.off) = target)
    (holds : Chain limit store target [target]) (occupied : target ≠ 0)
    (unowned : Unowned v limit store target)
    (barren : direntIsDir (direntAt sec slot.off) = true →
      ∀ other ∈ chainSlots v [target], ¬ Listed (entryAt store other)) :
    Change v limit store (store.write slot.cl slot.s sec) slot := by
  have place := mem_chainSlots.mp member
  have apartTarget : slot.cl ≠ target := by
    intro equal
    exact dir.not_unowned place.1 (equal ▸ unowned)
  have new := entryAt_write_same store slot sec
  refine ⟨fun _ _ _ _ _ _ _ => rfl, ?_, ?_, ?_, ?_, ?_⟩
  · rintro other ⟨_, _, _, member'⟩ different
    exact entryAt_write_other place.2.2 (mem_chainSlots.mp member').2.2 outside different
  · -- a file's clusters are not the directory's
    intro other chain' live _ file holds' cl member'
    funext index
    apply ClusterStore.write_sector_other
    left
    intro equal
    subst equal
    rcases dir.owner with ⟨owner, ownerLive, isDir, rfl⟩
    have same := owned.tenancy.owner_eq ownerLive live dir.chain holds' place.1 member'
    subst same
    exact file isDir
  · intro live
    exact absurd free (owned.placed_of_live live).2.1.not_free
  · intro dirCl' chain' want other dir' member' first _ _
    have same := owned.chain_eq dir' dir (mem_chainSlots.mp member').1 place.1
    rcases same with ⟨_, rfl⟩
    rw [new]
    refine ⟨notEnd, ?_⟩
    intro matched
    rw [← matched.2] at first
    exact absent other first
  · intro _ _
    refine ⟨[target], ?_, ?_, ?_⟩
    · rw [ownerStart, new, start]
      exact holds.congr fun _ _ => rfl
    · intro owner chain' live _ holds' cl inNew inOld
      rw [List.mem_singleton] at inNew
      subst inNew
      exact unowned owner chain' live holds' inOld
    · intro isDir
      rw [ownerStart, new, start]
      rw [OwnerIsDir, new] at isDir
      refine ⟨occupied, ?_⟩
      intro other member'
      have inTarget := (mem_chainSlots.mp member').1
      rw [List.mem_singleton] at inTarget
      have elsewhere : other.cl ≠ slot.cl := by
        intro equal
        exact apartTarget (equal.symm.trans inTarget)
      rw [entryAt, ClusterStore.write_sector_other (.inl elsewhere)]
      exact barren isDir other member'

/-- The first cluster of an entry, or one that nobody owns, is on no other
owner's chain. -/
theorem target_apart (owned : Owned v limit store) {target : Nat} {slot : Slot}
    (live : Live v store (some slot))
    (targetCases : ownerStart v store (some slot) = target ∨ Unowned v limit store target)
    (occupied : target ≠ 0) {owner : Owner} {chain : List Nat} (ownerLive : Live v store owner)
    (different : owner ≠ some slot)
    (ownerHolds : Chain limit store (ownerStart v store owner) chain) : target ∉ chain := by
  intro member
  rcases targetCases with own | unowned
  · rcases owned.tenancy.held (some slot) live with ⟨chain', holds'⟩
    have first : target ∈ chain' := by
      rw [← own] at occupied ⊢
      exact holds'.start_mem occupied
    exact different (owned.tenancy.owner_eq ownerLive live ownerHolds holds' member first)
  · exact unowned owner chain ownerLive ownerHolds member

theorem target_not_placed (owned : Owned v limit store) {target : Nat} {slot other : Slot}
    (live : Live v store (some slot)) (file : ¬ OwnerIsDir store (some slot))
    (targetCases : ownerStart v store (some slot) = target ∨ Unowned v limit store target)
    (occupied : target ≠ 0) (placed : Placed v limit store other) : other.cl ≠ target := by
  intro equal
  rcases placed with ⟨dirCl, chain, dir, member⟩
  rcases dir.owner with ⟨owner, ownerLive, isDir, rfl⟩
  have inChain := (mem_chainSlots.mp member).1
  rw [equal] at inChain
  refine target_apart owned live targetCases occupied ownerLive ?_ dir.chain inChain
  intro same
  subst same
  exact file isDir

/-- A file's data is replaced by one cluster, its first or one that nobody
owns, and its entry by one with the same name. -/
theorem overwrite (owned : Owned v limit store) {target : Nat} {slot : Slot}
    (live : Live v store (some slot)) (file : ¬ OwnerIsDir store (some slot))
    (targetCases : ownerStart v store (some slot) = target ∨ Unowned v limit store target)
    (occupied : target ≠ 0)
    (links : ∀ cl, cl ≠ target → store'.next cl = store.next cl)
    (sectors : ∀ cl index, cl ≠ target → ¬ (cl = slot.cl ∧ index = slot.s) →
      store'.sector cl index = store.sector cl index)
    (entries : ∀ other, Placed v limit store other → other ≠ slot → other.cl ≠ target →
      entryAt store' other = entryAt store other)
    (name : direntName (entryAt store' slot) = direntName (entryAt store slot))
    (attr : entryAt store' slot 11 = entryAt store slot 11)
    (start : ownerStart v store' (some slot) = target)
    (holds : Chain limit store' target [target]) :
    Change v limit store store' slot := by
  rcases owned.placed_of_live live with ⟨placed, listed⟩
  have apart : ∀ owner chain, Live v store owner → owner ≠ some slot →
      Chain limit store (ownerStart v store owner) chain → target ∉ chain := fun _ _ =>
    target_apart owned live targetCases occupied
  have first : entryAt store' slot 0 = entryAt store slot 0 := by
    rw [← direntName_head (entryAt store' slot), name, direntName_head]
  refine ⟨?_, ?_, ?_, fun _ => file, ?_, ?_⟩
  · intro owner chain ownerLive different ownerHolds cl member
    apply links
    intro equal
    subst equal
    exact apart owner chain ownerLive different ownerHolds member
  · intro other otherPlaced different
    apply entries other otherPlaced different
    exact target_not_placed owned live file targetCases occupied otherPlaced
  · intro other chain otherLive different otherFile otherHolds cl member
    funext index
    apply sectors
    · intro equal
      subst equal
      exact apart (some other) chain otherLive (fun same => different (Option.some.inj same))
        otherHolds member
    · rintro ⟨rfl, _⟩
      rcases placed with ⟨dirCl, dirChain, dir, slotMember⟩
      rcases dir.owner with ⟨owner, ownerLive, isDir, rfl⟩
      have same := owned.tenancy.owner_eq ownerLive otherLive dir.chain otherHolds
        (mem_chainSlots.mp slotMember).1 member
      subst same
      exact otherFile isDir
  · intro _ _ want _ _ _ _ _ passed
    refine ⟨by rw [first]; exact passed.1, ?_⟩
    intro matched
    apply passed.2
    refine ⟨?_, by rw [← name]; exact matched.2⟩
    have used := matched.1
    simp only [InUse, first, attr] at used
    exact used
  · intro _ _
    refine ⟨[target], ?_, ?_, ?_⟩
    · rw [start]
      exact holds
    · intro owner chain ownerLive different ownerHolds cl inNew inOld
      rw [List.mem_singleton] at inNew
      subst inNew
      exact apart owner chain ownerLive different ownerHolds inOld
    · intro isDir
      have wasDir : OwnerIsDir store (some slot) := by
        simpa [OwnerIsDir, direntIsDir, attr] using isDir
      exact absurd wasDir file

end Change

end ParanOS

import ParanOS.Fat.Idempotent

/-! # What a path can lead to after a change

A change of one entry makes nothing else reachable: what a path leads to afterwards, unless it
is the changed entry, it led to before. This needs directories in which nothing in use follows
an end marker, for the first free slot may be the end marker. A directory entry without a
cluster would lead back to the root, and every path would be one of many. `Orderly` excludes
both, and the calls of the driver keep it.
-/

namespace ParanOS

open Foundation

/-- Behind an end marker there are only end markers. -/
def Sealed (store : ClusterStore) (slots : List Slot) : Prop :=
  slots.Pairwise fun slot later => entryAt store slot 0 = 0 → entryAt store later 0 = 0

theorem Sealed.after {store : ClusterStore} {before after : List Slot} {slot later : Slot}
    (closed : Sealed store (before ++ slot :: after)) (ended : entryAt store slot 0 = 0)
    (member : later ∈ after) : entryAt store later 0 = 0 :=
  (List.pairwise_cons.mp (List.pairwise_append.mp closed).2.1).1 later member ended

structure Orderly (v : Vol) (limit : Nat) (store : ClusterStore) : Prop where
  ends : ∀ dirCl chain, LiveDir v limit store dirCl chain → Sealed store (chainSlots v chain)
  occupied : ∀ slot, Live v store (some slot) → direntIsDir (entryAt store slot) = true →
    direntStartCluster (entryAt store slot) ≠ 0

/-- Of the entries of all directories only the one in `changed` has changed. It is found
first in its directory, and if it stands for a directory that is new and lists nothing. -/
structure Edit (v : Vol) (limit : Nat) (store store' : ClusterStore) (changed : Slot) : Prop where
  dirs : ∀ dirCl chain, LiveDir v limit store dirCl chain → LiveDir v limit store' dirCl chain
  entries : ∀ slot, Placed v limit store slot → slot ≠ changed →
    entryAt store' slot = entryAt store slot
  /-- The name that a used entry had it keeps. -/
  named : ∀ want, Placed v limit store changed → Matched want (entryAt store changed) →
    Matched want (entryAt store' changed)
  found : ∀ dirCl chain, LiveDir v limit store dirCl chain → changed ∈ chainSlots v chain →
    ∃ want, FirstMatch want store' (chainSlots v chain) changed
  fresh : Placed v limit store changed → direntIsDir (entryAt store' changed) = true →
    ∃ newCl chain, newCl ≠ 0 ∧ direntStartCluster (entryAt store' changed) = newCl ∧
      LiveDir v limit store' newCl chain ∧ Sealed store' (chainSlots v chain) ∧
      ∀ slot ∈ chainSlots v chain, ¬ Listed (entryAt store' slot)

namespace Edit

variable {v : Vol} {limit : Nat} {store store' : ClusterStore} {changed : Slot}
  (owned : Owned v limit store) (edit : Edit v limit store store' changed)
include edit

/-- An entry elsewhere in a directory is as it was. -/
theorem entry_same {dirCl : Nat} {chain : List Nat} (dir : LiveDir v limit store dirCl chain)
    {slot : Slot} (member : slot ∈ chainSlots v chain) (different : slot ≠ changed) :
    entryAt store' slot = entryAt store slot :=
  edit.entries slot ⟨dirCl, chain, dir, member⟩ different

include owned

/-- Any other owner is as it was. -/
theorem owner_same {owner : Owner} (live : Live v store owner) (different : owner ≠ some changed) :
    ownerStart v store' owner = ownerStart v store owner ∧
      (OwnerIsDir store' owner ↔ OwnerIsDir store owner) := by
  cases owner with
  | none => exact ⟨rfl, Iff.rfl⟩
  | some slot =>
      have same := edit.entries slot (owned.placed_of_live live).1 fun equal =>
        different (by rw [equal])
      simp only [ownerStart, OwnerIsDir, same, and_self]

/-- What is live is the changed entry, or was live before. -/
theorem live_back {owner : Owner} (live : Live v store' owner) :
    (owner = some changed ∧ Placed v limit store changed) ∨
      (owner ≠ some changed ∧ Live v store owner) := by
  induction live with
  | root => exact .inr ⟨by simp, .root⟩
  | @entry parent slot chain _ isDir linked member listed induction =>
      rcases induction with ⟨rfl, placed⟩ | ⟨different, before⟩
      · rcases edit.fresh placed isDir with ⟨newCl, chain', occupied, start, dir, _, unlisted⟩
        rw [ownerStart, start, enterDir, if_neg occupied] at linked
        rw [linked.unique (dir.chain.linked dir.occupied)] at member
        exact absurd listed (unlisted slot member)
      · have same := edit.owner_same owned before different
        have wasDir := same.2.mp isDir
        rcases owned.liveDir before wasDir with ⟨chain', dir⟩
        have dir' := edit.dirs _ _ dir
        rw [same.1] at linked
        rw [linked.unique (dir'.chain.linked dir'.occupied)] at member
        have placed : Placed v limit store slot := ⟨_, _, dir, member⟩
        by_cases equal : slot = changed
        · exact .inl ⟨by rw [equal], equal ▸ placed⟩
        · rw [edit.entries slot placed equal] at listed
          exact .inr ⟨fun whole => equal (Option.some.inj whole), placed.live listed⟩

/-- A directory was there before, or it is the new one. -/
theorem dir_back {dirCl : Nat} {chain : List Nat} (dir : LiveDir v limit store' dirCl chain) :
    LiveDir v limit store dirCl chain ∨ Sealed store' (chainSlots v chain) := by
  rcases dir.owner with ⟨owner, live, isDir, rfl⟩
  rcases edit.live_back owned live with ⟨rfl, placed⟩ | ⟨different, before⟩
  · rcases edit.fresh placed isDir with ⟨newCl, chain', _, start, new, closed, _⟩
    have same := new.chain
    rw [← start] at same
    rw [dir.chain.unique same]
    exact .inr closed
  · have same := edit.owner_same owned before different
    have occupied := dir.occupied
    rcases owned.liveDir before (same.2.mp isDir) with ⟨chain', old⟩
    rw [same.1] at dir occupied ⊢
    rw [enterDir, if_neg occupied] at old
    rw [dir.chain.unique (edit.dirs _ _ old).chain]
    exact .inl old

theorem orderly (before : Orderly v limit store) : Orderly v limit store' := by
  constructor
  · intro dirCl chain dir'
    rcases edit.dir_back owned dir' with dir | closed
    · have closed := before.ends dirCl chain dir
      by_cases here : changed ∈ chainSlots v chain
      · -- nothing in front of an entry that is found first is an end marker
        rcases edit.found dirCl chain dir here with ⟨want, front, back, split, passed, matched⟩
        have nodup := chainSlots_nodup (v := v) dir.dirChain.linked.nodup
        rw [split] at nodup closed ⊢
        rcases List.nodup_append.mp nodup with ⟨_, second, apart⟩
        have same : ∀ slot, slot ∈ front ∨ slot ∈ back →
            entryAt store' slot = entryAt store slot := by
          intro slot member
          apply edit.entry_same dir
          · rw [split]
            simp only [List.mem_append, List.mem_cons]
            rcases member with inFront | inBack
            · exact .inl inFront
            · exact .inr (.inr inBack)
          · rintro rfl
            rcases member with inFront | inBack
            · exact apart _ inFront _ (by simp) rfl
            · exact (List.nodup_cons.mp second).1 inBack
        rw [Sealed, List.pairwise_append, List.pairwise_cons] at closed ⊢
        rcases closed with ⟨_, ⟨_, backClosed⟩, _⟩
        refine ⟨?_, ⟨?_, ?_⟩, ?_⟩
        · apply List.pairwise_of_forall_mem_list
          intro slot member _ _ ended
          exact absurd ended (passed slot member).1
        · intro later _ ended
          exact absurd ended matched.1.1
        · apply backClosed.imp_of_mem
          intro slot later member member' onward
          rw [same slot (.inr member), same later (.inr member')]
          exact onward
        · intro slot member _ _ ended
          exact absurd ended (passed slot member).1
      · apply closed.imp_of_mem
        intro slot later member member' onward
        rw [edit.entry_same dir member fun equal => here (equal ▸ member),
          edit.entry_same dir member' fun equal => here (equal ▸ member')]
        exact onward
    · exact closed
  · intro slot live isDir
    rcases edit.live_back owned live with ⟨equal, placed⟩ | ⟨different, old⟩
    · cases equal
      rcases edit.fresh placed isDir with ⟨newCl, _, occupied, start, _⟩
      rw [start]
      exact occupied
    · rw [edit.entries slot (owned.placed_of_live old).1 fun equal => different (by rw [equal])]
        at isDir ⊢
      exact before.occupied slot old isDir

omit owned in
/-- A lookup that does not find the changed entry found the same before. -/
theorem firstMatch_back {dirCl : Nat} {chain : List Nat} {want : List UInt8} {slot : Slot}
    (dir : LiveDir v limit store dirCl chain) (closed : Sealed store (chainSlots v chain))
    (first : FirstMatch want store' (chainSlots v chain) slot) (different : slot ≠ changed) :
    FirstMatch want store (chainSlots v chain) slot := by
  have member := first.mem
  rcases first with ⟨before, after, split, passed, matched⟩
  rw [edit.entry_same dir member different] at matched
  refine ⟨before, after, split, ?_, matched⟩
  intro other inFront
  have inChain : other ∈ chainSlots v chain := by
    rw [split]
    exact List.mem_append_left _ inFront
  have onward := passed other inFront
  by_cases same : other = changed
  · constructor
    · -- what follows an end marker would not have been in use
      intro ended
      rcases List.append_of_mem inFront with ⟨front, back, inner⟩
      rw [split, inner, List.append_assoc, List.cons_append] at closed
      exact matched.1.1 (closed.after ended (List.mem_append_right _ List.mem_cons_self))
    · intro hit
      rw [same] at hit onward inChain
      exact onward.2 (edit.named want ⟨dirCl, chain, dir, inChain⟩ hit)
  · rw [edit.entry_same dir inChain same] at onward
    exact onward

theorem resolves_back (orderly : Orderly v limit store) {dirCl : Nat} {chain : List Nat}
    {comps : List (List UInt8)} {slot : Slot} (dir : LiveDir v limit store dirCl chain)
    (different : slot ≠ changed) (resolved : Resolves v store' dirCl comps slot) :
    Resolves v store dirCl comps slot := by
  induction resolved generalizing chain with
  | last linked first =>
      have dir' := edit.dirs _ _ dir
      rw [linked.unique (dir'.chain.linked dir'.occupied)] at first
      exact .last (dir.chain.linked dir.occupied)
        (edit.firstMatch_back dir (orderly.ends _ _ dir) first different)
  | @step dirCl comp rest chain' middle slot linked first isDir more later induction =>
      have dir' := edit.dirs _ _ dir
      rw [linked.unique (dir'.chain.linked dir'.occupied)] at first
      by_cases new : middle = changed
      · subst new
        rcases edit.fresh ⟨dirCl, chain, dir, first.mem⟩ isDir with
          ⟨newCl, newChain, occupied, start, newDir, _, unlisted⟩
        rw [start, enterDir, if_neg occupied] at later
        exact absurd later (not_resolves_of_unlisted newDir.dirChain unlisted)
      · have old := edit.firstMatch_back dir (orderly.ends _ _ dir) first new
        have placed : Placed v limit store middle := ⟨dirCl, chain, dir, old.mem⟩
        have entry := edit.entries middle placed new
        rw [entry] at isDir induction
        rcases owned.liveDir (placed.live old.matched.listed) isDir with ⟨_, next⟩
        exact .step (dir.chain.linked dir.occupied) old isDir more (induction next different)

end Edit

/-! ## Adding an entry -/

/-- Nothing has changed in any directory. -/
theorem Edit.idle {v : Vol} {limit : Nat} {store store' : ClusterStore}
    (dirs : ∀ dirCl chain, LiveDir v limit store dirCl chain → LiveDir v limit store' dirCl chain)
    (entries : ∀ slot, Placed v limit store slot → entryAt store' slot = entryAt store slot) :
    Edit v limit store store' Change.nowhere where
  dirs := dirs
  entries := fun slot placed _ => entries slot placed
  named := fun _ placed => absurd placed Change.nowhere_not_placed
  found := fun _ _ dir member => absurd ⟨_, _, dir, member⟩ Change.nowhere_not_placed
  fresh := fun placed => absurd placed Change.nowhere_not_placed

/-- A cluster that is claimed and filled is in no directory. -/
theorem Claimed.entryAt_eq {v : Vol} {store store' : ClusterStore} {target : Nat} {slot : Slot}
    (claimed : Claimed v store store' target)
    (sectors : ∀ cl, cl ≠ target → store'.sector cl = store.sector cl)
    (placed : Placed v v.clusterLimit store slot) : entryAt store' slot = entryAt store slot := by
  rcases placed with ⟨dirCl, chain, dir, member⟩
  have inChain := (mem_chainSlots.mp member).1
  rw [entryAt, entryAt, sectors slot.cl fun equal =>
    dir.dirChain.next_ne_zero (equal ▸ inChain) claimed.fresh.free]

/-- A new entry that is found first stands for the cluster `target`. -/
structure Grown (v : Vol) (store store' : ClusterStore) (chain : List Nat) (new : Slot)
    (name11 : List UInt8) (attr : UInt8) (target size : Nat) : Prop where
  frame : ∀ except, Frame v v.clusterLimit store store' except
  edit : Edit v v.clusterLimit store store' new
  dead : ¬ Live v store (some new)
  first : FirstMatch name11 store' (chainSlots v chain) new
  attr : entryAt store' new 11 = attr
  start : direntStartCluster (entryAt store' new) = target
  size : (entryAt store' new).getU32 28 = size % 4294967296
  holds : Chain v.clusterLimit store' target [target]

/-- A claimed cluster is entered into a directory, unless that has no room. -/
theorem createDirEntry_grows {v : Vol} (shape : Fat32Geometry v) {fuel : Nat}
    (enough : v.clusterLimit < fuel) {sectors between : Nat → Buffer} {dirCl target : Nat}
    {chain : List Nat} (owned : Owned v v.clusterLimit (view v v.clusterLimit sectors))
    (dir : LiveDir v v.clusterLimit (view v v.clusterLimit sectors) dirCl chain)
    (claimed : Claimed v (view v v.clusterLimit sectors) (view v v.clusterLimit between) target)
    (same : ∀ cl, cl ≠ target →
      (view v v.clusterLimit between).sector cl = (view v v.clusterLimit sectors).sector cl)
    {comp : List UInt8} (nonempty : comp ≠ []) (nulFree : ∀ char ∈ comp, char ≠ 0)
    (shown : comp.head? ≠ some 0xE5)
    (absent : ∀ slot, ¬ FirstMatch (makeName83 comp) (view v v.clusterLimit sectors)
      (chainSlots v chain) slot)
    {attr : UInt8} (notLong : attr ≠ attrLongName) (size : Nat)
    (blank : attr &&& attrDir ≠ 0 →
      Sealed (view v v.clusterLimit between) (chainSlots v [target]) ∧
      ∀ slot ∈ chainSlots v [target], ¬ Listed (entryAt (view v v.clusterLimit between) slot)) :
    (¬ HasRoom v (view v v.clusterLimit between) chain ∧
      createDirEntry v fuel dirCl (makeName83 comp) attr target size (Device.healthy between) =
        some (-1, Device.healthy between)) ∨
    ∃ new sectors',
      createDirEntry v fuel dirCl (makeName83 comp) attr target size (Device.healthy between) =
        some (0, Device.healthy sectors') ∧
      Grown v (view v v.clusterLimit sectors) (view v v.clusterLimit sectors') chain new
        (makeName83 comp) attr target size ∧
      (view v v.clusterLimit sectors').sector target =
        (view v v.clusterLimit between).sector target := by
  have prepared := Prepared.of_claimed owned (.inl dir) claimed same
  have owned' := (prepared.frame Change.nowhere).owned
  have fresh := claimed.fresh
  have small : target < 4294967296 := by
    have running := fresh.running
    rw [endOfChain_iff] at running
    omega
  rcases createDirEntry_healthy shape.geometry prepared.walking.dirChain enough (makeName83 comp)
    attr target size with noRoom | ⟨new, sectors', firstFree, ran, written⟩
  · exact .inl noRoom
  right
  have visible : (makeName83 comp).getD 0 0 ≠ 0xE5 := by
    rw [Ne, makeName83_head_deleted nonempty]
    exact shown
  have added := Added.of_write attr size owned' prepared.walking firstFree
    (prepared.absent absent) (makeName83_length comp) (makeName83_head_ne_zero nonempty nulFree)
    notLong small prepared.holds fresh.ne_zero prepared.unowned prepared.outside
    fun isDir => (blank isDir).2
  rw [← written] at added
  have dir' := (prepared.frame Change.nowhere).dirs dirCl chain dir
  have first := added.found dir' visible
  have frame := fun except => (prepared.frame except).trans (added.frame except)
  have untouched : ∀ slot ∈ chainSlots v [target],
      entryAt (view v v.clusterLimit sectors') slot =
        entryAt (view v v.clusterLimit between) slot := by
    intro slot member
    rw [entryAt, entryAt, List.mem_singleton.mp (mem_chainSlots.mp member).1, added.sector]
  refine ⟨new, sectors', ran, ⟨frame, ?_, fun live => added.new (prepared.alive _ live), first,
    added.attr, added.start, added.size, added.holds⟩, added.sector⟩
  constructor
  · exact (frame Change.nowhere).dirs
  · intro slot placed different
    rw [← claimed.entryAt_eq same placed, written]
    rcases placed with ⟨_, _, _, member⟩
    exact entryAt_write_other (mem_chainSlots.mp firstFree.mem).2.2 (mem_chainSlots.mp member).2.2
      (fun _ outside => putDirent_outside outside) different
  · intro want _ matched
    rw [← prepared.entries new firstFree.mem] at matched
    exact absurd firstFree.free matched.1.not_free
  · intro otherCl otherChain other member
    have whole := owned.chain_eq other dir (mem_chainSlots.mp member).1
      (mem_chainSlots.mp firstFree.mem).1
    rw [whole.2]
    exact ⟨_, first⟩
  · intro _ isDir
    have made := isDir
    rw [direntIsDir, added.attr] at isDir
    rcases blank (by simpa using isDir) with ⟨closed, unlisted⟩
    have placed : Placed v v.clusterLimit (view v v.clusterLimit sectors') new :=
      ⟨dirCl, chain, (added.frame new).dirs dirCl chain dir', first.mem⟩
    refine ⟨target, [target], fresh.ne_zero, added.start,
      ⟨⟨some new, placed.live first.matched.listed, made, added.start⟩, fresh.ne_zero,
        added.holds⟩, ?_, ?_⟩
    · apply closed.imp_of_mem
      intro slot later member member' onward
      rw [untouched slot member, untouched later member']
      exact onward
    · intro slot member
      rw [untouched slot member]
      exact unlisted slot member

end ParanOS

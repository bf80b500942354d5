import ParanOS.Foundation.Tenancy
import ParanOS.Fat.File
import ParanOS.Fat.Lookup

/-! # Well-formed FAT32 volumes

Who owns the clusters of a volume: the root directory, and every entry that is
in use anywhere below it. An entry counts wherever it stands in its directory,
also behind an end marker, so that nothing is assumed about what follows one.
-/

namespace ParanOS

open Foundation

/-! ## Owners -/

/-- An entry that stands for a file or a directory of its own. -/
def Listed (de : Buffer) : Prop :=
  InUse de ∧ direntName de ≠ dotName ∧ direntName de ≠ dotdotName

/-- The root (`none`) or the entry in a slot. -/
abbrev Owner := Option Slot

def ownerStart (v : Vol) (store : ClusterStore) : Owner → Nat
  | none => v.rootClus
  | some slot => direntStartCluster (entryAt store slot)

def OwnerIsDir (store : ClusterStore) : Owner → Prop
  | none => True
  | some slot => direntIsDir (entryAt store slot) = true

/-- The owners that are in use: the root, and what is listed in a directory
that is in use. -/
inductive Live (v : Vol) (store : ClusterStore) : Owner → Prop
  | root : Live v store none
  | entry {parent slot chain} : Live v store parent → OwnerIsDir store parent →
      Linked store.next EndOfChain (enterDir v (ownerStart v store parent)) chain →
      slot ∈ chainSlots v chain → Listed (entryAt store slot) → Live v store (some slot)

/-- What an entry with this start cluster holds: no cluster for 0, otherwise a
chain of data clusters that ends. -/
abbrev Chain (limit : Nat) (store : ClusterStore) : Nat → List Nat → Prop :=
  Holds store.next EndOfChain (· = 0) (DataCluster limit)

/-- No cluster of a chain is marked free in the table. -/
theorem chain_next_ne_zero {limit : Nat} {store : ClusterStore} {start cl : Nat}
    {chain : List Nat} (holds : Chain limit store start chain) (member : cl ∈ chain) :
    store.next cl ≠ 0 := by
  intro free
  have onward := holds.next_mem member
  rw [free, endOfChain_iff, DataCluster] at onward
  omega

/-- The start of a chain fits into the fields of an entry. -/
theorem chain_start_lt {limit : Nat} {store : ClusterStore} {start : Nat} {chain : List Nat}
    (holds : Chain limit store start chain) : start < 4294967296 := by
  cases holds with
  | empty vacant => omega
  | chain _ running _ _ =>
      rw [endOfChain_iff] at running
      omega

/-- The chains of the root and of all live entries are in range, end, and are
pairwise disjoint. -/
structure Owned (v : Vol) (limit : Nat) (store : ClusterStore) : Prop where
  tenancy : Tenancy store.next EndOfChain (· = 0) (DataCluster limit) (Live v store)
    (ownerStart v store)
  root : v.rootClus ≠ 0

/-- One more than the last data cluster. -/
def Vol.clusterLimit (v : Vol) : Nat :=
  (v.totSec32 - v.firstDataLba) / v.secPerClus + 2

/-- The parameters of a FAT32 volume with 512-byte sectors whose table and data
region are where the boot sector says, without overlap or wrap-around. -/
structure Fat32Geometry (v : Vol) : Prop where
  fat32 : v.fsType = .fat32
  sector_size : v.bytesPerSec = 512
  /-- The field is eight bits wide. -/
  cluster_small : v.secPerClus < 256
  data_before_end : v.firstDataLba ≤ v.totSec32
  sectors_small : v.totSec32 < 4294967296
  geometry : Geometry v v.clusterLimit

/-- A well-formed FAT32 volume. -/
structure WellFormed (v : Vol) (sectors : Nat → Buffer) : Prop where
  shape : Fat32Geometry v
  owned : Owned v v.clusterLimit (view v v.clusterLimit sectors)

/-! ## Directories in use -/

/-- The chain of a directory that is in use. -/
structure LiveDir (v : Vol) (limit : Nat) (store : ClusterStore) (dirCl : Nat)
    (chain : List Nat) : Prop where
  owner : ∃ owner, Live v store owner ∧ OwnerIsDir store owner ∧
    ownerStart v store owner = dirCl
  occupied : dirCl ≠ 0
  chain : Chain limit store dirCl chain

/-- The slot lies in a directory that is in use. -/
def Placed (v : Vol) (limit : Nat) (store : ClusterStore) (slot : Slot) : Prop :=
  ∃ dirCl chain, LiveDir v limit store dirCl chain ∧ slot ∈ chainSlots v chain

/-- No live owner holds the cluster. -/
def Unowned (v : Vol) (limit : Nat) (store : ClusterStore) (cl : Nat) : Prop :=
  ∀ owner chain, Live v store owner → Chain limit store (ownerStart v store owner) chain →
    cl ∉ chain

namespace Owned

variable {v : Vol} {limit : Nat} {store : ClusterStore} (owned : Owned v limit store)
include owned

/-- A directory entry leads to a directory in use: its own, or the root. -/
theorem liveDir {owner : Owner} (live : Live v store owner)
    (isDir : OwnerIsDir store owner) :
    ∃ chain, LiveDir v limit store (enterDir v (ownerStart v store owner)) chain := by
  by_cases vacant : ownerStart v store owner = 0
  · rcases owned.tenancy.held none .root with ⟨chain, holds⟩
    rw [enterDir, if_pos vacant]
    exact ⟨chain, ⟨none, .root, trivial, rfl⟩, owned.root, holds⟩
  · rcases owned.tenancy.held owner live with ⟨chain, holds⟩
    rw [enterDir, if_neg vacant]
    exact ⟨chain, ⟨owner, live, isDir, rfl⟩, vacant, holds⟩

theorem liveDir_root : ∃ chain, LiveDir v limit store v.rootClus chain := by
  rcases owned.liveDir .root trivial with ⟨chain, dir⟩
  rw [enterDir, ownerStart, if_neg owned.root] at dir
  exact ⟨chain, dir⟩

theorem placed_of_live {slot : Slot} (live : Live v store (some slot)) :
    Placed v limit store slot ∧ Listed (entryAt store slot) := by
  cases live with
  | entry parentLive isDir linked member listed =>
      rcases owned.liveDir parentLive isDir with ⟨chain, dir⟩
      have same := linked.unique (dir.chain.linked dir.occupied)
      subst same
      exact ⟨⟨_, _, dir, member⟩, listed⟩

/-- The directories in use have their slots to themselves. -/
theorem chain_eq {dirCl dirCl' cl : Nat} {chain chain' : List Nat}
    (dir : LiveDir v limit store dirCl chain) (dir' : LiveDir v limit store dirCl' chain')
    (member : cl ∈ chain) (member' : cl ∈ chain') : dirCl = dirCl' ∧ chain = chain' := by
  rcases dir.owner with ⟨owner, live, _, rfl⟩
  rcases dir'.owner with ⟨owner', live', _, rfl⟩
  have same := owned.tenancy.owner_eq live live' dir.chain dir'.chain member member'
  subst same
  exact ⟨rfl, dir.chain.unique dir'.chain⟩

end Owned

theorem LiveDir.dirChain {v : Vol} {limit : Nat} {store : ClusterStore} {dirCl : Nat}
    {chain : List Nat} (dir : LiveDir v limit store dirCl chain) :
    DirChain v limit store dirCl chain :=
  ⟨dir.chain.linked dir.occupied, fun _ member => dir.chain.inside member⟩

theorem LiveDir.not_unowned {v : Vol} {limit : Nat} {store : ClusterStore} {dirCl cl : Nat}
    {chain : List Nat} (dir : LiveDir v limit store dirCl chain) (member : cl ∈ chain) :
    ¬ Unowned v limit store cl := by
  intro unowned
  rcases dir.owner with ⟨owner, live, _, rfl⟩
  exact unowned owner chain live dir.chain member

/-- Slots outside the data region are in no directory. -/
theorem Placed.data {v : Vol} {limit : Nat} {store : ClusterStore} {slot : Slot}
    (placed : Placed v limit store slot) : DataCluster limit slot.cl := by
  rcases placed with ⟨_, _, dir, member⟩
  exact dir.chain.inside (mem_chainSlots.mp member).1

/-- What is listed in a directory in use is live. -/
theorem Placed.live {v : Vol} {limit : Nat} {store : ClusterStore} {slot : Slot}
    (placed : Placed v limit store slot) (listed : Listed (entryAt store slot)) :
    Live v store (some slot) := by
  rcases placed with ⟨dirCl, chain, dir, member⟩
  rcases dir.owner with ⟨owner, live, isDir, rfl⟩
  refine .entry live isDir ?_ member listed
  rw [enterDir, if_neg dir.occupied]
  exact dir.chain.linked dir.occupied

/-- A cluster whose table entry is free is on nobody's chain. -/
theorem unowned_of_free {v : Vol} {limit : Nat} {store : ClusterStore} {cl : Nat}
    (free : store.next cl = 0) : Unowned v limit store cl := by
  intro owner chain _ holds member
  rcases holds.next_mem member with stopped | data
  · rw [free, endOfChain_iff] at stopped
    omega
  · rw [free] at data
    have lower := data.1
    omega

/-- A volume whose root directory is one cluster that lists nothing. -/
theorem Owned.of_blank_root {v : Vol} {limit : Nat} {store : ClusterStore}
    (data : DataCluster limit v.rootClus) (running : ¬ EndOfChain v.rootClus)
    (stopped : EndOfChain (store.next v.rootClus))
    (blank : ∀ slot ∈ chainSlots v [v.rootClus], ¬ Listed (entryAt store slot)) :
    Owned v limit store := by
  have occupied : v.rootClus ≠ 0 := by
    have lower := data.1
    omega
  have rootChain : Linked store.next EndOfChain v.rootClus [v.rootClus] :=
    .single running stopped
  have onlyRoot : ∀ owner, Live v store owner → owner = none := by
    intro owner live
    induction live with
    | root => rfl
    | entry _ _ linked member listed induction =>
        rw [induction, ownerStart, enterDir, if_neg occupied] at linked
        rw [linked.unique rootChain] at member
        exact absurd listed (blank _ member)
  refine ⟨⟨?_, ?_⟩, occupied⟩
  · intro owner live
    rw [onlyRoot owner live]
    refine ⟨[v.rootClus], .chain occupied running rootChain ?_⟩
    intro cl member
    rw [List.mem_singleton] at member
    exact member ▸ data
  · intro owner other _ _ live live' different
    rw [onlyRoot owner live, onlyRoot other live'] at different
    exact absurd rfl different

/-! ## Resolving a path -/

/-- The walk along a path from a directory arrives at the entry in a slot. -/
inductive Resolves (v : Vol) (store : ClusterStore) :
    Nat → List (List UInt8) → Slot → Prop
  | last {dirCl comp chain slot} : Linked store.next EndOfChain dirCl chain →
      FirstMatch (makeName83 comp) store (chainSlots v chain) slot →
      Resolves v store dirCl [comp] slot
  | step {dirCl comp rest chain middle slot} : Linked store.next EndOfChain dirCl chain →
      FirstMatch (makeName83 comp) store (chainSlots v chain) middle →
      direntIsDir (entryAt store middle) = true → rest ≠ [] →
      Resolves v store (enterDir v (direntStartCluster (entryAt store middle))) rest slot →
      Resolves v store dirCl (comp :: rest) slot

theorem Resolves.unique {v : Vol} {store : ClusterStore} {dirCl : Nat}
    {comps : List (List UInt8)} {slot slot' : Slot} (first : Resolves v store dirCl comps slot)
    (second : Resolves v store dirCl comps slot') : slot = slot' := by
  induction first with
  | last linked found =>
      cases second with
      | last linked' found' =>
          rw [linked'.unique linked] at found'
          exact found.unique found'
      | step _ _ _ more _ => exact absurd rfl more
  | step linked found _ more _ induction =>
      cases second with
      | last _ _ => exact absurd rfl more
      | step linked' found' _ _ later =>
          rw [linked'.unique linked] at found'
          have same := found'.unique found
          subst same
          exact induction later

theorem makeName83_head_ne_dot (comp : List UInt8) : (makeName83 comp).getD 0 0 ≠ 0x2E := by
  cases comp with
  | nil => decide
  | cons char rest =>
      rw [makeName83_head]
      split
      · decide
      · next other =>
          rw [Ne, toUpper_eq_iff_of_not_letter (by decide) (by decide)]
          exact other

/-- A path component never spells the name of a dot entry. -/
theorem makeName83_not_dot (comp : List UInt8) :
    makeName83 comp ≠ dotName ∧ makeName83 comp ≠ dotdotName := by
  have head := makeName83_head_ne_dot comp
  constructor
  · intro equal
    exact head (by rw [equal]; rfl)
  · intro equal
    exact head (by rw [equal]; rfl)

/-- What a path component finds is an entry of its own. -/
theorem Matched.listed {comp : List UInt8} {de : Buffer}
    (matched : Matched (makeName83 comp) de) : Listed de := by
  have name := makeName83_not_dot comp
  refine ⟨matched.1, ?_, ?_⟩
  · rw [matched.2]
    exact name.1
  · rw [matched.2]
    exact name.2

/-! ## The path to an entry -/

/-- Only the 8.3 names of the components matter. -/
theorem Resolves.congr {v : Vol} {store : ClusterStore} {dirCl : Nat}
    {comps comps' : List (List UInt8)} {slot : Slot} (resolved : Resolves v store dirCl comps slot)
    (same : comps.map makeName83 = comps'.map makeName83) :
    Resolves v store dirCl comps' slot := by
  induction resolved generalizing comps' with
  | last linked found =>
      cases comps' with
      | nil => cases same
      | cons comp' rest' =>
          simp only [List.map_cons, List.map_nil, List.cons.injEq] at same
          rw [List.map_eq_nil_iff.mp same.2.symm]
          exact .last linked (same.1 ▸ found)
  | step linked found isDir more _ induction =>
      cases comps' with
      | nil => cases same
      | cons comp' rest' =>
          simp only [List.map_cons, List.cons.injEq] at same
          refine .step linked (same.1 ▸ found) isDir ?_ (induction same.2)
          intro none
          rw [none, List.map_nil, List.map_eq_nil_iff] at same
          exact more same.2

/-- The components lead to a directory, from which the walk goes on. -/
def LeadsTo (v : Vol) (store : ClusterStore) (dirCl : Nat) (comps : List (List UInt8))
    (target : Nat) : Prop :=
  comps = [] ∧ target = dirCl ∨
    ∃ slot, Resolves v store dirCl comps slot ∧ direntIsDir (entryAt store slot) = true ∧
      target = enterDir v (direntStartCluster (entryAt store slot))

/-- The last component is looked up in the directory that the others lead to. -/
theorem Resolves.snoc {v : Vol} {store : ClusterStore} {dirCl : Nat}
    {comps : List (List UInt8)} {comp : List UInt8} {slot : Slot}
    (resolved : Resolves v store dirCl (comps ++ [comp]) slot) :
    ∃ target chain, LeadsTo v store dirCl comps target ∧
      Linked store.next EndOfChain target chain ∧
      FirstMatch (makeName83 comp) store (chainSlots v chain) slot := by
  induction comps generalizing dirCl with
  | nil =>
      cases resolved with
      | last linked found => exact ⟨dirCl, _, .inl ⟨rfl, rfl⟩, linked, found⟩
      | step _ _ _ more _ => exact absurd rfl more
  | cons head comps induction =>
      generalize joined : head :: comps ++ [comp] = whole at resolved
      cases resolved with
      | last => simp at joined
      | @step _ _ rest _ middle _ linked found isDir more later =>
          rw [List.cons_append, List.cons.injEq] at joined
          rcases joined with ⟨rfl, rfl⟩
          rcases induction later with ⟨target, chain, leads, onwards, lastFound⟩
          refine ⟨target, chain, .inr ?_, onwards, lastFound⟩
          rcases leads with ⟨rfl, rfl⟩ | ⟨last, resolvedRest, lastDir, rfl⟩
          · exact ⟨middle, .last linked found, isDir, rfl⟩
          · have further : comps ≠ [] := by
              intro none
              subst none
              cases resolvedRest
            exact ⟨last, .step linked found isDir further resolvedRest, lastDir, rfl⟩

namespace Owned

variable {v : Vol} {limit : Nat} {store : ClusterStore} (owned : Owned v limit store)
include owned

theorem live_of_resolves {dirCl : Nat} {chain : List Nat} {comps : List (List UInt8)}
    {slot : Slot} (dir : LiveDir v limit store dirCl chain)
    (resolved : Resolves v store dirCl comps slot) : Live v store (some slot) := by
  have live : ∀ {dirCl chain comp slot}, LiveDir v limit store dirCl chain →
      FirstMatch (makeName83 comp) store (chainSlots v chain) slot → Live v store (some slot) := by
    intro dirCl chain comp slot dir found
    rcases dir.owner with ⟨owner, alive, isDir, rfl⟩
    have linked := dir.chain.linked dir.occupied
    refine .entry alive isDir ?_ found.mem found.matched.listed
    rw [enterDir, if_neg dir.occupied]
    exact linked
  induction resolved generalizing chain with
  | last linked found =>
      rw [linked.unique (dir.chain.linked dir.occupied)] at found
      exact live dir found
  | step linked found isDir _ _ induction =>
      rw [linked.unique (dir.chain.linked dir.occupied)] at found
      rcases owned.liveDir (live dir found) isDir with ⟨later, laterDir⟩
      exact induction laterDir

/-- Two owners do not start at one cluster. -/
theorem owner_eq_of_start {owner other : Owner} (live : Live v store owner)
    (live' : Live v store other) (filled : ownerStart v store owner ≠ 0)
    (same : ownerStart v store owner = ownerStart v store other) : owner = other := by
  rcases owned.tenancy.held owner live with ⟨chain, held⟩
  rcases owned.tenancy.held other live' with ⟨chain', held'⟩
  have member := held.start_mem filled
  have member' := held'.start_mem (same ▸ filled)
  exact owned.tenancy.owner_eq live live' held held' member (same ▸ member')

variable (occupied : ∀ slot, Live v store (some slot) →
  direntIsDir (entryAt store slot) = true → direntStartCluster (entryAt store slot) ≠ 0)
include occupied

/-- The root, and the directories of the entries, start at different clusters. -/
theorem leadsTo_eq {comps comps' : List (List UInt8)} {target : Nat}
    (leads : LeadsTo v store v.rootClus comps target)
    (leads' : LeadsTo v store v.rootClus comps' target) :
    comps = [] ∧ comps' = [] ∨
      ∃ slot, Resolves v store v.rootClus comps slot ∧ Resolves v store v.rootClus comps' slot := by
  rcases owned.liveDir_root with ⟨_, rootDir⟩
  have starts : ∀ {comps slot}, Resolves v store v.rootClus comps slot →
      direntIsDir (entryAt store slot) = true → Live v store (some slot) ∧
        enterDir v (direntStartCluster (entryAt store slot)) = ownerStart v store (some slot) ∧
        ownerStart v store (some slot) ≠ 0 := by
    intro comps slot resolved isDir
    have live := owned.live_of_resolves rootDir resolved
    have filled := occupied slot live isDir
    exact ⟨live, if_neg filled, filled⟩
  rcases leads with ⟨empty, rfl⟩ | ⟨slot, resolved, isDir, rfl⟩
  · rcases leads' with ⟨empty', _⟩ | ⟨slot', resolved', isDir', equal⟩
    · exact .inl ⟨empty, empty'⟩
    · rcases starts resolved' isDir' with ⟨live', entered, filled⟩
      rw [entered] at equal
      cases owned.owner_eq_of_start live' .root filled equal.symm
  · rcases starts resolved isDir with ⟨live, entered, filled⟩
    rcases leads' with ⟨_, equal⟩ | ⟨slot', resolved', isDir', equal⟩
    · rw [entered] at equal
      cases owned.owner_eq_of_start live .root filled equal
    · rcases starts resolved' isDir' with ⟨live', entered', filled'⟩
      rw [entered, entered'] at equal
      cases owned.owner_eq_of_start live live' filled equal
      exact .inr ⟨slot, resolved, resolved'⟩

/-- An entry has one path. -/
theorem names_eq_of_resolves {comps comps' : List (List UInt8)} {slot : Slot}
    (resolved : Resolves v store v.rootClus comps slot)
    (resolved' : Resolves v store v.rootClus comps' slot) :
    comps.map makeName83 = comps'.map makeName83 := by
  rcases owned.liveDir_root with ⟨_, rootDir⟩
  have placed : ∀ {comps target chain}, LeadsTo v store v.rootClus comps target →
      Linked store.next EndOfChain target chain → LiveDir v limit store target chain := by
    intro comps target chain leads linked
    rcases leads with ⟨_, rfl⟩ | ⟨last, lastResolved, isDir, rfl⟩
    · rw [linked.unique (rootDir.chain.linked rootDir.occupied)]
      exact rootDir
    · rcases owned.liveDir (owned.live_of_resolves rootDir lastResolved) isDir with ⟨_, dir⟩
      have equal := linked.unique (dir.chain.linked dir.occupied)
      exact equal ▸ dir
  induction comps using List.reverseRecOn generalizing comps' slot with
  | nil => cases resolved
  | append_singleton comps comp induction =>
      rcases List.eq_nil_or_concat comps' with rfl | ⟨before, last, rfl⟩
      · cases resolved'
      · rw [List.concat_eq_append] at resolved' ⊢
        rcases resolved.snoc with ⟨target, chain, leads, linked, found⟩
        rcases resolved'.snoc with ⟨target', chain', leads', linked', found'⟩
        have same := owned.chain_eq (placed leads linked) (placed leads' linked')
          (mem_chainSlots.mp found.mem).1 (mem_chainSlots.mp found'.mem).1
        have name : makeName83 comp = makeName83 last :=
          found.matched.2.symm.trans found'.matched.2
        rw [List.map_append, List.map_append, List.map_singleton, List.map_singleton, name]
        congr 1
        rcases owned.leadsTo_eq occupied leads (same.1 ▸ leads') with
          ⟨rfl, rfl⟩ | ⟨middle, first, second⟩
        · rfl
        · exact induction first second

end Owned

end ParanOS

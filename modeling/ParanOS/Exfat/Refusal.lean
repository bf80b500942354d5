import ParanOS.Exfat.Contract
import ParanOS.Fat.Refusal

/-! # What a failed exFAT call leaves behind

Content is allocated before there is room for the entry set, and directories of
a path are created before what lies in them. Only the allocation of a chain is
undone when it cannot be completed. So a failed call leaves the volume as it was
where the first allocation already fails.
-/

namespace ParanOS

open Foundation
open ExfatOwner (LiveAt)

/-! ## The condition -/

/-- The path leads through directories that exist to the rest of it. -/
inductive ExfatReached (v : Vol) (store : ClusterStore) :
    Nat → List (List UInt8) → Nat → List (List UInt8) → Prop
  | here {dir comps} : ExfatReached v store dir comps dir comps
  | inside {dir comp rest chain info dir' comps'} :
      Linked store.next EndOfChain dir chain →
      lookup v store comp (chainPlaces v chain) = .ok info → info.isDir = true →
      ExfatReached v store info.cluster rest dir' comps' →
      ExfatReached v store dir (comp :: rest) dir' comps'

/-- A condition on the directories that the path leads to, on the component that is
looked up there and on the rest of the path. -/
def Throughout (v : Vol) (store : ClusterStore)
    (condition : List Nat → List UInt8 → List (List UInt8) → Prop) (dir : Nat)
    (comps : List (List UInt8)) : Prop :=
  ∀ dir' chain comp rest, ExfatReached v store dir comps dir' (comp :: rest) →
    Linked store.next EndOfChain dir' chain → condition chain comp rest

namespace Throughout

variable {v : Vol} {store : ClusterStore} {dir : Nat} {chain : List Nat} {comp : List UInt8}
  {rest : List (List UInt8)} {condition : List Nat → List UInt8 → List (List UInt8) → Prop}
  (linked : Linked store.next EndOfChain dir chain)

theorem nil : Throughout v store condition dir [] := by
  intro dir' chain comp rest reached
  cases reached

include linked

theorem enters {info : EntryInfo} (found : lookup v store comp (chainPlaces v chain) = .ok info)
    (isDir : info.isDir = true) (holds : condition chain comp rest) :
    Throughout v store condition dir (comp :: rest) ↔
      Throughout v store condition info.cluster rest := by
  constructor
  · intro throughout dir' chain' comp' rest' reached
    exact throughout dir' chain' comp' rest' (.inside linked found isDir reached)
  · intro throughout dir' chain' comp' rest' reached linked'
    cases reached with
    | here =>
        rw [linked'.unique linked]
        exact holds
    | inside again found' _ further =>
        rw [again.unique linked, found, Except.ok.injEq] at found'
        rw [← found'] at further
        exact throughout dir' chain' comp' rest' further linked'

/-- The path ends here, or cannot go on. -/
theorem stops (ends : ∀ info, lookup v store comp (chainPlaces v chain) = .ok info →
      rest = [] ∨ info.isDir = false) :
    Throughout v store condition dir (comp :: rest) ↔ condition chain comp rest := by
  constructor
  · intro throughout
    exact throughout dir chain comp rest .here linked
  · intro holds dir' chain' comp' rest' reached linked'
    cases reached with
    | here =>
        rw [linked'.unique linked]
        exact holds
    | inside again found isDir further =>
        rw [again.unique linked] at found
        rcases ends _ found with last | file
        · subst last
          cases further
        · rw [file] at isDir
          simp at isDir

end Throughout

/-- The directory has room for a set. -/
def HasSpace (v : Vol) (store : ClusterStore) (chain : List Nat) (total : Nat) : Prop :=
  ∃ cl ∈ chain, ∃ j, Room v store cl total j

/-- There are that many free clusters, and one more if the directory has to grow
for the set. -/
def Suffices (v : Vol) (store : ClusterStore) (chain : List Nat) (total count : Nat) : Prop :=
  HasSpace v store chain total ∧ count ≤ (freeList v store).length ∨
    count < (freeList v store).length

/-- All sets fit into a cluster, or there is only one. -/
def OneOrFit (v : Vol) (comp : List UInt8) (rest : List (List UInt8)) : Prop :=
  rest = [] ∨ ∀ other ∈ comp :: rest, entriesFor other * 32 ≤ v.clusterBytes

/-- Where a component is missing: the content of its entry cannot be allocated,
there is nothing to allocate, or there is enough for everything. -/
def NothingOrAll (v : Vol) (store : ClusterStore) (chain : List Nat) (comp : List UInt8)
    (rest : List (List UInt8)) (first all : Nat) : Prop :=
  (freeList v store).length < first ∨ all = 0 ∨
    OneOrFit v comp rest ∧ Suffices v store chain (entriesFor comp) all

/-- Where the creation of directories leaves what exists. -/
def EnsureSpared (v : Vol) (store : ClusterStore) (chain : List Nat) (comp : List UInt8)
    (rest : List (List UInt8)) : Prop :=
  ∀ code, lookup v store comp (chainPlaces v chain) = .error code →
    NothingOrAll v store chain comp rest 1 (rest.length + 1)

/-- The number of clusters for the data wraps around to zero. -/
def Overflowing (v : Vol) (data : List UInt8) : Prop :=
  data ≠ [] ∧ clustersNeeded v data.length = 0

/-- Where a write ends or leaves what exists. For data that overflows nothing is
allocated, but the end mark is written into entry 0 of the table. -/
def WriteSpared (v : Vol) (data : List UInt8) (store : ClusterStore) (chain : List Nat)
    (comp : List UInt8) (rest : List (List UInt8)) : Prop :=
  (rest = [] → Overflowing v data → store.next 0 = eocMark) ∧
  ∀ code, lookup v store comp (chainPlaces v chain) = .error code →
    (rest = [] → ¬ Overflowing v data →
      NothingOrAll v store chain comp rest (clustersNeeded v data.length)
        (clustersNeeded v data.length)) ∧
    (rest ≠ [] → Overflowing v data → freeList v store = []) ∧
    (rest ≠ [] → ¬ Overflowing v data →
      NothingOrAll v store chain comp rest 1 (rest.length + clustersNeeded v data.length))

/-! ## Creating an entry -/

/-- What `exfatCreateEntry` returns for a set whose content takes `cost` clusters,
and when. -/
inductive Entering (v : Vol) (sectors sectors' : Nat → Buffer) (chain : List Nat)
    (total cost : Nat) : Int → Prop
  | short : (freeList v (exfatView v sectors)).length < cost → sectors' = sectors →
      Entering v sectors sectors' chain total cost (-2)
  /-- The clusters of the content stay allocated. -/
  | crowded : ¬ HasSpace v (exfatView v sectors) chain total →
      (freeList v (exfatView v sectors)).length = cost →
      freeList v (exfatView v sectors') = [] → (cost = 0 → sectors' = sectors) →
      Entering v sectors sectors' chain total cost (-3)
  | entered : Suffices v (exfatView v sectors) chain total cost →
      (total * 32 ≤ v.clusterBytes →
        (freeList v (exfatView v sectors')).length + cost =
            (freeList v (exfatView v sectors)).length ∧
          HasSpace v (exfatView v sectors) chain total ∨
        (freeList v (exfatView v sectors')).length + cost + 1 =
            (freeList v (exfatView v sectors)).length ∧
          ¬ HasSpace v (exfatView v sectors) chain total) →
      Entering v sectors sectors' chain total cost 0

theorem HasSpace.congr {v : Vol} {store store' : ClusterStore} {chain : List Nat} {total : Nat}
    (same : ∀ cl ∈ chain, store'.sector cl = store.sector cl) :
    HasSpace v store' chain total ↔ HasSpace v store chain total := by
  constructor
  · intro space
    rcases space with ⟨cl, member, j, room⟩
    exact ⟨cl, member, j, (Room.congr (body_congr (same cl member))).mp room⟩
  · intro space
    rcases space with ⟨cl, member, j, room⟩
    exact ⟨cl, member, j, (Room.congr (body_congr (same cl member))).mpr room⟩

theorem Full.freeList_eq {v : Vol} {store : ClusterStore} (full : Full v store) :
    freeList v store = [] := by
  rw [List.eq_nil_iff_forall_not_mem]
  intro cl member
  rcases mem_freeList.mp member with ⟨lower, below, free⟩
  exact full cl lower below free

/-- Writing a set succeeds wherever it is written to. -/
theorem writeEntries_succeeds (v : Vol) (cl start : Nat) (set : Buffer) (count i : Nat)
    (sectors : Nat → Buffer) :
    ∃ sectors', writeEntries v cl start set count i (Device.healthy sectors) =
      some (0, Device.healthy sectors') := by
  induction count generalizing i sectors with
  | zero => exact ⟨sectors, rfl⟩
  | succ count induction =>
      have wrote : ∃ middle, exfatWriteEntry v cl (start + i * 32)
          (fun index => set (i * 32 + index)) (Device.healthy sectors) =
            some (0, Device.healthy middle) := ⟨_, rfl⟩
      rcases wrote with ⟨middle, wrote⟩
      rcases induction (i + 1) middle with ⟨sectors', ran⟩
      refine ⟨sectors', ?_⟩
      rw [writeEntries, DiskM.bind_run wrote, if_neg (by simp)]
      exact ran

theorem exfatWriteEntrySet_succeeds (v : Vol) (cl start : Nat) (set : Buffer) {total : Nat}
    (short : total ≤ 40) (sectors : Nat → Buffer) :
    ∃ sectors', exfatWriteEntrySet v cl start set total (Device.healthy sectors) =
      some (0, Device.healthy sectors') := by
  rw [exfatWriteEntrySet, if_neg (by omega)]
  exact writeEntries_succeeds v cl start _ total 0 sectors

section

variable {v : Vol} (shape : ExfatGeometry v)

include shape

/-- Writing a set that stays in its cluster changes no table entry. -/
theorem exfatWriteEntrySet_freeList {sectors sectors' : Nat → Buffer} {cl start total : Nat}
    {set : Buffer} (range : DataCluster (v.exfatClusterCount + 2) cl) (aligned : 32 ∣ start)
    (short : total ≤ 40) (fits : start + total * 32 ≤ v.clusterBytes)
    (wrote : exfatWriteEntrySet v cl start set total (Device.healthy sectors) =
      some (0, Device.healthy sectors')) :
    freeList v (exfatView v sectors') = freeList v (exfatView v sectors) := by
  rcases exfatWriteEntrySet_healthy shape sectors set range aligned short fits with
    ⟨sectors'', wrote', patched, _⟩
  rw [wrote, Option.some.injEq, Prod.mk.injEq] at wrote'
  have same : sectors' = sectors'' := congrArg Device.sectors wrote'.2
  rw [same]
  exact ClusterStore.free_congr fun cl _ => by rw [patched.links]

/-- The set for content that is ready. -/
theorem exfatCreateEntry_entering {sectors middle : Nat → Buffer}
    {bitmap chain members : List Nat} {fuel depth cost : Nat} {owner : ExfatOwner}
    {name data : List UInt8} {first : Nat} {isDir : Bool}
    (enough : v.exfatClusterCount + 2 < fuel)
    (sound : Sound v (exfatView v sectors) bitmap)
    (dir : DirAt v (exfatView v sectors) depth owner chain) (nonempty : name ≠ [])
    (short : name.length ≤ 255)
    (ready : allocContent v fuel isDir data (Device.healthy sectors) =
      some (some first, Device.healthy middle))
    (filled : Filled v bitmap (exfatView v sectors) (exfatView v middle) first members data)
    (count : (freeList v (exfatView v middle)).length + cost =
      (freeList v (exfatView v sectors)).length)
    (nothing : cost = 0 → middle = sectors) :
    ∃ code result sectors', exfatCreateEntry v fuel (owner.start v (exfatView v sectors)) name
        isDir data (Device.healthy sectors) = some ((code, result), Device.healthy sectors') ∧
      Entering v sectors sectors' chain (entriesFor name) cost code := by
  have bounds := entriesFor_bounds nonempty short
  have soundMiddle := filled.sound_after shape sound
  have dirMiddle := filled.idle.dirAt shape sound.owned dir
  have start : owner.start v (exfatView v middle) = owner.start v (exfatView v sectors) :=
    ((filled.idle.kept depth).liveAt shape sound.owned dir.live (by omega)).2.1
  have space : HasSpace v (exfatView v middle) chain (entriesFor name) ↔
      HasSpace v (exfatView v sectors) chain (entriesFor name) :=
    HasSpace.congr (filled.idle.sectors owner chain ⟨_, dir.live⟩ dir.isDir dir.holds)
  have search := exfatFindFreeSet_finding shape enough soundMiddle dirMiddle
    (show 0 < entriesFor name by omega)
  rw [start] at search
  rcases search with ⟨result, found, ran, finding⟩
  have slots := shape.slots_eq
  cases finding with
  | @room before cl after j split _ firstRoom same =>
      subst same
      have member : cl ∈ chain := by simp [split]
      have inside := firstRoom.room.fits
      rcases exfatWriteEntrySet_succeeds v cl (32 * j)
        (exfatBuildEntrySet name first data.length isDir) (show entriesFor name ≤ 40 by omega)
        found with ⟨sectors', wrote⟩
      have kept := exfatWriteEntrySet_freeList shape (dirMiddle.data cl member)
        (Nat.dvd_mul_right 32 j) (by omega) (by omega) wrote
      have roomy := space.mp ⟨cl, member, j, firstRoom.room⟩
      refine ⟨0, first, sectors', ?_, .entered (.inl ⟨roomy, by omega⟩) fun _ => .inl ⟨?_, roomy⟩⟩
      · rw [exfatCreateEntry, DiskM.bind_run ready]
        simp only
        rw [DiskM.bind_run ran]
        simp only
        rw [DiskM.bind_run wrote]
        rfl
      · rw [kept]
        exact count
  | @further target none extended grown =>
      have crowded : ¬ HasSpace v (exfatView v sectors) chain (entriesFor name) := by
        rw [← space]
        intro roomy
        rcases roomy with ⟨cl, member, j, room⟩
        exact none cl member j room
      rcases exfatWriteEntrySet_succeeds v target 0
        (exfatBuildEntrySet name first data.length isDir) (show entriesFor name ≤ 40 by omega)
        found with ⟨sectors', wrote⟩
      refine ⟨0, first, sectors', ?_, .entered (.inr (by omega)) fun fits => .inr ⟨?_, crowded⟩⟩
      · rw [exfatCreateEntry, DiskM.bind_run ready]
        simp only
        rw [DiskM.bind_run ran]
        simp only
        rw [DiskM.bind_run wrote]
        rfl
      · rw [exfatWriteEntrySet_freeList shape extended.fresh.data (Nat.dvd_zero 32) (by omega)
          (by omega) wrote]
        omega
  | full none full same =>
      subst same
      have empty := full.freeList_eq
      refine ⟨-3, 0, found, ?_, .crowded ?_ ?_ empty nothing⟩
      · rw [exfatCreateEntry, DiskM.bind_run ready]
        simp only
        rw [DiskM.bind_run ran]
        rfl
      · rw [← space]
        intro roomy
        rcases roomy with ⟨cl, member, j, room⟩
        exact none cl member j room
      · rw [empty] at count
        simp only [List.length_nil, Nat.zero_add] at count
        exact count.symm

theorem exfatCreateEntry_dir_entering {sectors : Nat → Buffer} {bitmap chain : List Nat}
    {fuel depth : Nat} {owner : ExfatOwner} {name : List UInt8}
    (enough : v.exfatClusterCount + 2 < fuel) (sound : Sound v (exfatView v sectors) bitmap)
    (dir : DirAt v (exfatView v sectors) depth owner chain) (nonempty : name ≠ [])
    (short : name.length ≤ 255) :
    ∃ code result sectors', exfatCreateEntry v fuel (owner.start v (exfatView v sectors)) name
        true [] (Device.healthy sectors) = some ((code, result), Device.healthy sectors') ∧
      Entering v sectors sectors' chain (entriesFor name) 1 code := by
  rcases allocContent_dir shape enough sound with
    ⟨first, middle, members, ready, filled, _, _, count⟩ | ⟨ready, none⟩
  · exact exfatCreateEntry_entering shape enough sound dir nonempty short ready filled count
      (by simp)
  · exact ⟨-2, 0, sectors, createEntry_refused ready, .short (by omega) rfl⟩

theorem exfatCreateEntry_file_entering {sectors : Nat → Buffer} {bitmap chain : List Nat}
    {fuel depth : Nat} {owner : ExfatOwner} {name data : List UInt8}
    (enough : v.exfatClusterCount + 2 < fuel) (sound : Sound v (exfatView v sectors) bitmap)
    (dir : DirAt v (exfatView v sectors) depth owner chain) (nonempty : name ≠ [])
    (short : name.length ≤ 255) (counted : ¬ Overflowing v data) :
    ∃ code result sectors', exfatCreateEntry v fuel (owner.start v (exfatView v sectors)) name
        false data (Device.healthy sectors) = some ((code, result), Device.healthy sectors') ∧
      Entering v sectors sectors' chain (entriesFor name) (clustersNeeded v data.length) code := by
  by_cases empty : data = []
  · subst empty
    have ready : allocContent v fuel false [] (Device.healthy sectors) =
        some (some 0, Device.healthy sectors) := rfl
    rw [List.length_nil, clustersNeeded_zero shape]
    exact exfatCreateEntry_entering shape enough sound dir nonempty short ready (.nothing sound)
      (by omega) fun _ => rfl
  · have needed : clustersNeeded v data.length ≠ 0 := fun zero => counted ⟨empty, zero⟩
    rcases allocContent_file shape enough sound data with
      ⟨first, middle, members, ready, filled, _, count⟩ | ⟨_, ready, reason⟩
    · exact exfatCreateEntry_entering shape enough sound dir nonempty short ready filled count
        fun zero => absurd zero needed
    · rw [refusedSectors, if_neg needed] at ready
      exact ⟨-2, 0, sectors, createEntry_refused ready, .short (by omega) rfl⟩

/-- For data that overflows nothing is allocated. -/
theorem exfatCreateEntry_overflow {sectors : Nat → Buffer} {bitmap : List Nat}
    {fuel dirCl : Nat} {name data : List UInt8} (enough : v.exfatClusterCount + 2 < fuel)
    (sound : Sound v (exfatView v sectors) bitmap) (overflow : Overflowing v data) :
    exfatCreateEntry v fuel dirCl name false data (Device.healthy sectors) =
      some ((-2, 0), Device.healthy (refusedSectors v sectors 0)) := by
  rcases allocContent_file shape enough sound data with
    ⟨first, middle, members, ready, filled, length, _⟩ | ⟨_, ready, _⟩
  · rcases length overflow.1 with ⟨occupied, count⟩
    have start := List.length_pos_of_mem (filled.holds.start_mem occupied)
    rw [count, overflow.2] at start
    omega
  · rw [overflow.2] at ready
    exact createEntry_refused ready

theorem refusedSectors_freeList (sectors : Nat → Buffer) (need : Nat) :
    (freeList v (exfatView v (refusedSectors v sectors need))).length =
      (freeList v (exfatView v sectors)).length := by
  apply ClusterStore.length_free_of_taken List.nodup_nil (by simp) (by simp)
  intro cl lower _
  rw [refusedSectors_next shape sectors need lower]

/-- Entry 0 of the table is as it was just if it held the end mark. -/
theorem refusedSectors_failsClean_iff {kept : Nat → Prop} {code : Int} (failed : code ≠ 0)
    (sectors : Nat → Buffer) :
    FailsClean v (v.exfatClusterCount + 2) kept sectors
        (some (code, Device.healthy (refusedSectors v sectors 0))) ↔
      (exfatView v sectors).next 0 = eocMark := by
  have linked : view v (v.exfatClusterCount + 2) (refusedSectors v sectors 0) =
      (exfatView v sectors).link 0 eocMark :=
    shape.geometry.view_setFatEntry sectors eocMark (by omega) (by decide)
  constructor
  · intro clean
    have untouched := FailsClean.some_iff.mp clean failed
    rw [← untouched.next (show 0 < v.exfatClusterCount + 2 by omega), linked,
      ClusterStore.link_next_same]
  · intro marked
    apply FailsClean.of_same
    apply (Confined.set_entry shape.geometry eocMark (by omega) (by decide)).eq_of_view
      shape.geometry
    exact linked.trans (ClusterStore.link_eq_self marked)

/-! ## A directory that has just been created -/

theorem Blank.hasSpace {store : ClusterStore} {chain : List Nat} {total cl : Nat}
    (blank : Blank v store chain) (member : cl ∈ chain) (fits : total * 32 ≤ v.clusterBytes) :
    HasSpace v store chain total := by
  have slots := shape.slots_eq
  have positive := shape.clusterBytes_pos
  exact ⟨cl, member, 0, by omega, .inl (blank cl member _ (by omega))⟩

/-- A directory is created, if there are clusters for it. -/
theorem exfatCreateEntry_dir_made {sectors : Nat → Buffer} {bitmap chain : List Nat}
    {fuel depth : Nat} {owner : ExfatOwner} {name : List UInt8}
    (enough : v.exfatClusterCount + 2 < fuel) (sound : Sound v (exfatView v sectors) bitmap)
    (dir : DirAt v (exfatView v sectors) depth owner chain) (nonempty : name ≠ [])
    (short : name.length ≤ 255) :
    ∃ code result sectors', exfatCreateEntry v fuel (owner.start v (exfatView v sectors)) name
        true [] (Device.healthy sectors) = some ((code, result), Device.healthy sectors') ∧
      Entering v sectors sectors' chain (entriesFor name) 1 code ∧
      (entriesFor name * 32 ≤ v.clusterBytes → code = 0 →
        Sound v (exfatView v sectors') bitmap ∧
        ∃ place members, ExfatOwner.start v (exfatView v sectors') (.entry place) = result ∧
          DirAt v (exfatView v sectors') (depth + 1) (.entry place) members ∧
          Blank v (exfatView v sectors') members) := by
  rcases exfatCreateEntry_dir_entering shape enough sound dir nonempty short with
    ⟨code, result, sectors', ran, entering⟩
  refine ⟨code, result, sectors', ran, entering, fun fits succeeded => ?_⟩
  rcases exfatCreateEntry_dir shape enough sound dir nonempty short fits with
    ⟨code', result', sectors'', ran', soundAfter, _, created⟩
  rw [ran, Option.some.injEq, Prod.mk.injEq, Prod.mk.injEq] at ran'
  have same : sectors' = sectors'' := congrArg Device.sectors ran'.2
  subst same
  rcases created (ran'.1.1.symm.trans succeeded) with ⟨place, chain', members, made, start, newDir⟩
  exact ⟨soundAfter, place, members, start.trans ran'.1.2.symm, newDir, made.stored.blank rfl⟩

/-- A run that has room for whatever it creates in new directories. -/
abbrev ExfatLastsFor (v : Vol) (sectors : Nat → Buffer) (possible : Prop) (count : Nat) :
    Option (Int × Device) → Prop :=
  SucceedsIf v (v.exfatClusterCount + 2) (exfatMaxClusters v) sectors
    (possible ∧ count ≤ (freeList v (exfatView v sectors)).length)

omit shape in
/-- A first entry that has room, and then the rest. -/
theorem Entering.lastsFor {sectors sectors' : Nat → Buffer} {chain : List Nat}
    {total count : Nat} {code failure : Int} {possible : Prop} {after : Option (Int × Device)}
    (entering : Entering v sectors sectors' chain total 1 code) (failed : failure ≠ 0)
    (fits : total * 32 ≤ v.clusterBytes) (space : HasSpace v (exfatView v sectors) chain total)
    (further : code = 0 → ExfatLastsFor v sectors' possible count after) :
    ExfatLastsFor v sectors possible (count + 1)
      (if code ≠ 0 then some (failure, Device.healthy sectors') else after) := by
  cases entering with
  | short none same =>
      subst same
      refine ⟨failure, _, rfl, Nat.le_refl _, ?_⟩
      have left : ¬ (count + 1 ≤ (freeList v (exfatView v sectors')).length) := by omega
      simp only [failed, left, and_false]
  | crowded crowded _ _ _ => exact absurd space crowded
  | entered _ spent =>
      rcases spent fits with ⟨left, _⟩ | ⟨_, crowded⟩
      · rcases further rfl with ⟨code', sectors'', ran, fewer, returned⟩
        have fewer' : (freeList v (exfatView v sectors'')).length ≤
          (freeList v (exfatView v sectors')).length := fewer
        refine ⟨code', sectors'', ran, ?_, returned.trans (and_congr_right fun _ => by omega)⟩
        change (freeList v (exfatView v sectors'')).length ≤
          (freeList v (exfatView v sectors)).length
        omega
      · exact absurd space crowded

omit shape in
theorem Entering.lastsFor_file {sectors sectors' : Nat → Buffer} {chain : List Nat}
    {total cost : Nat} {code : Int} {possible : Prop}
    (entering : Entering v sectors sectors' chain total cost code)
    (fits : total * 32 ≤ v.clusterBytes) (space : HasSpace v (exfatView v sectors) chain total)
    (holds : possible) :
    ExfatLastsFor v sectors possible (0 + cost) (some (code, Device.healthy sectors')) := by
  rw [Nat.zero_add]
  cases entering with
  | short none same =>
      subst same
      refine ⟨-2, _, rfl, Nat.le_refl _, ?_⟩
      have left : ¬ (cost ≤ (freeList v (exfatView v sectors')).length) := by omega
      simp [left]
  | crowded crowded _ _ _ => exact absurd space crowded
  | entered _ spent =>
      rcases spent fits with ⟨left, _⟩ | ⟨_, crowded⟩
      · refine ⟨0, sectors', rfl, ?_, ?_⟩
        · change (freeList v (exfatView v sectors')).length ≤
            (freeList v (exfatView v sectors)).length
          omega
        · simp only [holds, true_and, true_iff]
          omega
      · exact absurd space crowded

/-! ## The steps of the walks -/

section

variable {fuel : Nat} (enough : v.exfatClusterCount + 2 < fuel) {sectors : Nat → Buffer}
  {bitmap chain : List Nat} {depth : Nat} {owner : ExfatOwner}
  (sound : Sound v (exfatView v sectors) bitmap)
  (dir : DirAt v (exfatView v sectors) depth owner chain) {comp : List UInt8}
  {rest : List (List UInt8)}

include enough sound dir

theorem exfatEnsureWalk_dir {missing code : Int} {result : Nat} {middle : Nat → Buffer}
    (absent : lookup v (exfatView v sectors) comp (chainPlaces v chain) = .error missing)
    (ran : exfatCreateEntry v fuel (owner.start v (exfatView v sectors)) comp true []
      (Device.healthy sectors) = some ((code, result), Device.healthy middle)) :
    codeOf (exfatEnsureWalk fuel (comp :: rest) (owner.start v (exfatView v sectors)) v
        (Device.healthy sectors)) =
      if code ≠ 0 then some (-1, Device.healthy middle)
      else codeOf (exfatEnsureWalk fuel rest result v (Device.healthy middle)) := by
  rw [exfatEnsureWalk, DiskM.bind_run (exfatFindInDir_spec shape enough comp sound dir), absent]
  simp only
  rw [DiskM.bind_run ran, DiskM.ite_apply]
  split <;> rfl

theorem exfatWriteWalk_dir (data : List UInt8) {missing code : Int} {result : Nat}
    {middle : Nat → Buffer} (more : rest ≠ [])
    (absent : lookup v (exfatView v sectors) comp (chainPlaces v chain) = .error missing)
    (ran : exfatCreateEntry v fuel (owner.start v (exfatView v sectors)) comp true []
      (Device.healthy sectors) = some ((code, result), Device.healthy middle)) :
    codeOf (exfatWriteWalk fuel data (comp :: rest) (owner.start v (exfatView v sectors)) v
        (Device.healthy sectors)) =
      if code ≠ 0 then some (-5, Device.healthy middle)
      else codeOf (exfatWriteWalk fuel data rest result v (Device.healthy middle)) := by
  rw [exfatWriteWalk, DiskM.bind_run (exfatFindInDir_spec shape enough comp sound dir), absent]
  simp only [List.isEmpty_iff, more, if_false]
  rw [DiskM.bind_run ran, DiskM.ite_apply]
  split <;> rfl

theorem exfatWriteWalk_file (data : List UInt8) {missing : Int}
    (absent : lookup v (exfatView v sectors) comp (chainPlaces v chain) = .error missing) :
    codeOf (exfatWriteWalk fuel data [comp] (owner.start v (exfatView v sectors)) v
        (Device.healthy sectors)) =
      (exfatCreateEntry v fuel (owner.start v (exfatView v sectors)) comp false data
        (Device.healthy sectors)).map fun result => (result.1.1, result.2) := by
  rw [exfatWriteWalk, DiskM.bind_run (exfatFindInDir_spec shape enough comp sound dir), absent]
  simp only [List.isEmpty_nil, if_true]
  rw [DiskM.bind_apply, codeOf]
  cases exfatCreateEntry v fuel (owner.start v (exfatView v sectors)) comp false data
    (Device.healthy sectors) with
  | none => rfl
  | some result => rfl

end

section

variable {fuel : Nat} (enough : v.exfatClusterCount + 2 < fuel)
include enough

/-- In a new directory everything has room, as far as clusters last. -/
theorem exfatEnsureWalk_fresh {comps : List (List UInt8)}
    (fitting : ∀ comp ∈ comps, Fitting v comp) {sectors : Nat → Buffer}
    {bitmap chain : List Nat} {depth : Nat} {owner : ExfatOwner}
    (sound : Sound v (exfatView v sectors) bitmap)
    (dir : DirAt v (exfatView v sectors) depth owner chain)
    (blank : Blank v (exfatView v sectors) chain) :
    ExfatLastsFor v sectors True comps.length
      (codeOf (exfatEnsureWalk fuel comps (owner.start v (exfatView v sectors)) v
        (Device.healthy sectors))) := by
  induction comps generalizing sectors depth owner chain with
  | nil => exact ⟨0, sectors, rfl, Nat.le_refl _, by simp⟩
  | cons comp rest induction =>
      have fit := fitting comp (by simp)
      have later := fun other member => fitting other (List.mem_cons_of_mem comp member)
      rcases lookup_blank shape comp blank with ⟨missing, absent⟩
      rcases exfatCreateEntry_dir_made shape enough sound dir fit.nonempty fit.short with
        ⟨code, result, middle, ran, entering, made⟩
      have space := blank.hasSpace shape (dir.holds.start_mem dir.occupied) fit.fits
      rw [exfatEnsureWalk_dir shape enough sound dir absent ran]
      apply entering.lastsFor (by decide) fit.fits space
      intro succeeded
      rcases made fit.fits succeeded with ⟨soundMiddle, place, members, start, newDir, newBlank⟩
      rw [← start]
      exact induction later soundMiddle newDir newBlank

theorem exfatWriteWalk_fresh (data : List UInt8) {comps : List (List UInt8)} (more : comps ≠ [])
    (fitting : ∀ comp ∈ comps, Fitting v comp) {sectors : Nat → Buffer}
    {bitmap chain : List Nat} {depth : Nat} {owner : ExfatOwner}
    (sound : Sound v (exfatView v sectors) bitmap)
    (dir : DirAt v (exfatView v sectors) depth owner chain)
    (blank : Blank v (exfatView v sectors) chain) :
    ExfatLastsFor v sectors (¬ Overflowing v data)
      (comps.length - 1 + clustersNeeded v data.length)
      (codeOf (exfatWriteWalk fuel data comps (owner.start v (exfatView v sectors)) v
        (Device.healthy sectors))) := by
  induction comps generalizing sectors depth owner chain with
  | nil => exact absurd rfl more
  | cons comp rest induction =>
      have fit := fitting comp (by simp)
      have later := fun other member => fitting other (List.mem_cons_of_mem comp member)
      have space := blank.hasSpace shape (dir.holds.start_mem dir.occupied) fit.fits
      rcases lookup_blank shape comp blank with ⟨missing, absent⟩
      cases rest with
      | nil =>
          rw [exfatWriteWalk_file shape enough sound dir data absent]
          by_cases overflow : Overflowing v data
          · rw [exfatCreateEntry_overflow shape enough sound overflow]
            refine ⟨-2, _, rfl, Nat.le_of_eq (refusedSectors_freeList shape sectors 0), ?_⟩
            simp [overflow]
          · rcases exfatCreateEntry_file_entering shape enough sound dir fit.nonempty fit.short
              overflow with ⟨code, result, sectors', ran, entering⟩
            rw [ran]
            exact entering.lastsFor_file fit.fits space overflow
      | cons next others =>
          rcases exfatCreateEntry_dir_made shape enough sound dir fit.nonempty fit.short with
            ⟨code, result, middle, ran, entering, made⟩
          rw [exfatWriteWalk_dir shape enough sound dir data (by simp) absent ran]
          have count : (comp :: next :: others).length - 1 + clustersNeeded v data.length =
              (next :: others).length - 1 + clustersNeeded v data.length + 1 := by
            simp only [List.length_cons]
            omega
          rw [count]
          apply entering.lastsFor (by decide) fit.fits space
          intro succeeded
          rcases made fit.fits succeeded with
            ⟨soundMiddle, place, members, start, newDir, newBlank⟩
          rw [← start]
          exact induction (by simp) later soundMiddle newDir newBlank

end

/-! ## From a directory that exists -/

omit shape in
/-- The clusters of the directories in use and of the bitmap. -/
def InExfatDirectory (v : Vol) (sectors : Nat → Buffer) (cl : Nat) : Prop :=
  ∃ owner chain, ExfatOwner.Live v (exfatView v sectors) owner ∧
    (owner.IsDir v (exfatView v sectors) ∨ owner = .bitmap) ∧
    owner.Holds v (exfatView v sectors) chain ∧ cl ∈ chain

/-- The call fails clean if the condition holds, and only then if all sets fit. -/
def CleanWhen (v : Vol) (sectors : Nat → Buffer) (comps : List (List UInt8)) (condition : Prop)
    (run : Option (Int × Device)) : Prop :=
  (condition → FailsClean v (v.exfatClusterCount + 2) (InExfatDirectory v sectors) sectors run) ∧
  ((∀ comp ∈ comps, entriesFor comp * 32 ≤ v.clusterBytes) →
    FailsClean v (v.exfatClusterCount + 2) (InExfatDirectory v sectors) sectors run → condition)

omit shape in
theorem CleanWhen.of_iff {sectors : Nat → Buffer} {comps : List (List UInt8)} {condition : Prop}
    {run : Option (Int × Device)}
    (same : FailsClean v (v.exfatClusterCount + 2) (InExfatDirectory v sectors) sectors run ↔
      condition) : CleanWhen v sectors comps condition run :=
  ⟨same.mpr, fun _ => same.mp⟩

/-- The first directory that is missing, and then the rest in it. -/
theorem Entering.cleanWhen {sectors sectors' : Nat → Buffer} {chain : List Nat}
    {comp : List UInt8} {rest : List (List UInt8)} {count : Nat} {code failure : Int}
    {possible : Prop} {after : Option (Int × Device)}
    (entering : Entering v sectors sectors' chain (entriesFor comp) 1 code) (failed : failure ≠ 0)
    (further : (∀ other ∈ comp :: rest, entriesFor other * 32 ≤ v.clusterBytes) → code = 0 →
      ExfatLastsFor v sectors' possible count after) :
    CleanWhen v sectors (comp :: rest)
      (freeList v (exfatView v sectors) = [] ∨
        possible ∧ (∀ other ∈ comp :: rest, entriesFor other * 32 ≤ v.clusterBytes) ∧
          Suffices v (exfatView v sectors) chain (entriesFor comp) (count + 1))
      (if code ≠ 0 then some (failure, Device.healthy sectors') else after) := by
  have inside : exfatMaxClusters v ≤ v.exfatClusterCount + 2 := by
    have bound := shape.maxClusters_le
    omega
  cases entering with
  | short none same =>
      refine .of_iff ⟨fun _ => .inl ?_, fun _ => .of_same same⟩
      rw [← List.length_eq_zero_iff]
      omega
  | crowded crowded exactly empty _ =>
      have fewer : (freeList v (exfatView v sectors')).length <
          (freeList v (exfatView v sectors)).length := by
        rw [empty, exactly]
        simp
      refine .of_iff ?_
      rw [if_pos (by decide), FailsClean.iff_success inside fewer]
      constructor
      · exact fun succeeded => absurd succeeded failed
      · intro condition
        rcases condition with none | ⟨_, _, space | left⟩
        · rw [none] at exactly
          simp at exactly
        · exact absurd space.1 crowded
        · omega
  | entered sufficed spent =>
      rw [if_neg (by decide)]
      have some : (freeList v (exfatView v sectors)).length ≠ 0 := by
        rcases sufficed with space | left
        · omega
        · omega
      have judged : (∀ other ∈ comp :: rest, entriesFor other * 32 ≤ v.clusterBytes) →
          (FailsClean v (v.exfatClusterCount + 2) (InExfatDirectory v sectors) sectors after ↔
            possible ∧ Suffices v (exfatView v sectors) chain (entriesFor comp) (count + 1)) := by
        intro fits
        have spent := spent (fits comp (by simp))
        have fewer : (freeList v (exfatView v sectors')).length <
            (freeList v (exfatView v sectors)).length := by
          omega
        rw [(further fits rfl).failsClean_iff inside fewer]
        refine and_congr_right fun _ => ?_
        rcases spent with ⟨left, space⟩ | ⟨left, crowded⟩
        · simp only [Suffices, space, true_and]
          omega
        · simp only [Suffices, crowded, false_and, false_or]
          omega
      constructor
      · intro condition
        rcases condition with none | ⟨possible, fits, enough⟩
        · rw [none] at some
          simp at some
        · exact (judged fits).mpr ⟨possible, enough⟩
      · intro fits clean
        rcases (judged fits).mp clean with ⟨possible, enough⟩
        exact .inr ⟨possible, fits, enough⟩

/-- The last entry of the path is missing. -/
theorem Entering.failsClean_iff {sectors sectors' : Nat → Buffer} {chain : List Nat}
    {comp : List UInt8} {cost : Nat} {code : Int}
    (entering : Entering v sectors sectors' chain (entriesFor comp) cost code) :
    FailsClean v (v.exfatClusterCount + 2) (InExfatDirectory v sectors) sectors
        (some (code, Device.healthy sectors')) ↔
      NothingOrAll v (exfatView v sectors) chain comp [] cost cost := by
  cases entering with
  | short none same => exact ⟨fun _ => .inl none, fun _ => .of_same same⟩
  | crowded crowded exactly empty nothing =>
      by_cases free : cost = 0
      · exact ⟨fun _ => .inr (.inl free), fun _ => .of_same (nothing free)⟩
      · have fewer : (freeList v (exfatView v sectors')).length <
            (freeList v (exfatView v sectors)).length := by
          rw [empty, exactly]
          exact Nat.pos_of_ne_zero free
        have inside : exfatMaxClusters v ≤ v.exfatClusterCount + 2 := by
          have bound := shape.maxClusters_le
          omega
        rw [FailsClean.iff_success inside fewer]
        constructor
        · exact fun succeeded => absurd succeeded (by decide)
        · intro condition
          rcases condition with short | nothing | ⟨_, space | left⟩
          · omega
          · exact absurd nothing free
          · exact absurd space.1 crowded
          · omega
  | entered enough _ => exact ⟨fun _ => .inr (.inr ⟨.inl rfl, enough⟩), fun _ => .of_success⟩

omit shape in
/-- For several missing entries: nothing can be allocated, or there is enough for
everything. -/
theorem nothingOrAll_iff {store : ClusterStore} {chain : List Nat} {comp : List UInt8}
    {rest : List (List UInt8)} {all : Nat} (more : rest ≠ []) (some : all ≠ 0) :
    NothingOrAll v store chain comp rest 1 all ↔
      freeList v store = [] ∨
        (∀ other ∈ comp :: rest, entriesFor other * 32 ≤ v.clusterBytes) ∧
          Suffices v store chain (entriesFor comp) all := by
  simp only [NothingOrAll, OneOrFit, more, some, false_or, Nat.lt_one_iff, List.length_eq_zero_iff]

omit shape in
theorem fitting_rest {comp : List UInt8} {rest : List (List UInt8)}
    (chars : ∀ other ∈ comp :: rest, other ≠ [] ∧ other.length ≤ 255)
    (fits : ∀ other ∈ comp :: rest, entriesFor other * 32 ≤ v.clusterBytes) :
    ∀ other ∈ rest, Fitting v other := by
  intro other member
  have inside := List.mem_cons_of_mem comp member
  exact ⟨(chars other inside).1, (chars other inside).2, fits other inside⟩

section

variable {fuel : Nat} (enough : v.exfatClusterCount + 2 < fuel) {sectors : Nat → Buffer}
  {bitmap chain : List Nat} {depth : Nat} {owner : ExfatOwner}
  (sound : Sound v (exfatView v sectors) bitmap)
  (dir : DirAt v (exfatView v sectors) depth owner chain) {comp : List UInt8}
  {rest : List (List UInt8)} (chars : ∀ other ∈ comp :: rest, other ≠ [] ∧ other.length ≤ 255)
  {missing : Int}
  (absent : lookup v (exfatView v sectors) comp (chainPlaces v chain) = .error missing)

include enough sound dir chars absent

theorem exfatEnsureWalk_missing :
    CleanWhen v sectors (comp :: rest) (EnsureSpared v (exfatView v sectors) chain comp rest)
      (codeOf (exfatEnsureWalk fuel (comp :: rest) (owner.start v (exfatView v sectors)) v
        (Device.healthy sectors))) := by
  rcases chars comp (by simp) with ⟨nonempty, short⟩
  rcases exfatCreateEntry_dir_made shape enough sound dir nonempty short with
    ⟨code, result, middle, ran, entering, made⟩
  rw [exfatEnsureWalk_dir shape enough sound dir absent ran]
  have condition : EnsureSpared v (exfatView v sectors) chain comp rest ↔
      NothingOrAll v (exfatView v sectors) chain comp rest 1 (rest.length + 1) :=
    ⟨fun spared => spared missing absent, fun holds _ _ => holds⟩
  rw [condition]
  by_cases last : rest = []
  · subst last
    refine .of_iff (Iff.trans ?_ (entering.failsClean_iff shape))
    by_cases failed : code = 0
    · rw [if_neg (by simpa using failed), failed]
      rfl
    · rw [if_pos failed]
      exact FailsClean.recode (by decide) failed
  · have further : (∀ other ∈ comp :: rest, entriesFor other * 32 ≤ v.clusterBytes) →
        code = 0 → ExfatLastsFor v middle True rest.length
          (codeOf (exfatEnsureWalk fuel rest result v (Device.healthy middle))) := by
      intro fits succeeded
      rcases made (fits comp (by simp)) succeeded with
        ⟨soundMiddle, place, members, start, newDir, newBlank⟩
      rw [← start]
      exact exfatEnsureWalk_fresh shape enough (fitting_rest chars fits) soundMiddle newDir
        newBlank
    have judged := entering.cleanWhen shape (show (-1 : Int) ≠ 0 by decide) further
    rw [nothingOrAll_iff last (by omega)]
    simpa only [true_and] using judged

/-- A file is the only thing missing. -/
theorem exfatWriteWalk_last (data : List UInt8) (last : rest = []) :
    FailsClean v (v.exfatClusterCount + 2) (InExfatDirectory v sectors) sectors
        (codeOf (exfatWriteWalk fuel data (comp :: rest) (owner.start v (exfatView v sectors)) v
          (Device.healthy sectors))) ↔
      WriteSpared v data (exfatView v sectors) chain comp rest := by
  subst last
  rcases chars comp (by simp) with ⟨nonempty, short⟩
  rw [exfatWriteWalk_file shape enough sound dir data absent]
  by_cases overflow : Overflowing v data
  · rw [exfatCreateEntry_overflow shape enough sound overflow]
    refine (refusedSectors_failsClean_iff shape (show (-2 : Int) ≠ 0 by decide) sectors).trans ?_
    simp [WriteSpared, overflow]
  · rcases exfatCreateEntry_file_entering shape enough sound dir nonempty short overflow with
      ⟨code, result, sectors', ran, entering⟩
    rw [ran]
    refine (entering.failsClean_iff shape).trans ?_
    simp [WriteSpared, overflow, absent]

/-- A directory is missing. -/
theorem exfatWriteWalk_missing (data : List UInt8) (more : rest ≠ []) :
    CleanWhen v sectors (comp :: rest)
      (WriteSpared v data (exfatView v sectors) chain comp rest)
      (codeOf (exfatWriteWalk fuel data (comp :: rest) (owner.start v (exfatView v sectors)) v
        (Device.healthy sectors))) := by
  rcases chars comp (by simp) with ⟨nonempty, short⟩
  rcases exfatCreateEntry_dir_made shape enough sound dir nonempty short with
    ⟨code, result, middle, ran, entering, made⟩
  rw [exfatWriteWalk_dir shape enough sound dir data more absent ran]
  have further : (∀ other ∈ comp :: rest, entriesFor other * 32 ≤ v.clusterBytes) →
      code = 0 → ExfatLastsFor v middle (¬ Overflowing v data)
        (rest.length - 1 + clustersNeeded v data.length)
        (codeOf (exfatWriteWalk fuel data rest result v (Device.healthy middle))) := by
    intro fits succeeded
    rcases made (fits comp (by simp)) succeeded with
      ⟨soundMiddle, place, members, start, newDir, newBlank⟩
    rw [← start]
    exact exfatWriteWalk_fresh shape enough data more (fitting_rest chars fits) soundMiddle
      newDir newBlank
  have judged := entering.cleanWhen shape (show (-5 : Int) ≠ 0 by decide) further
  have positive := List.length_pos_iff.mpr more
  have all : rest.length - 1 + clustersNeeded v data.length + 1 =
      rest.length + clustersNeeded v data.length := by
    omega
  have condition : WriteSpared v data (exfatView v sectors) chain comp rest ↔
      freeList v (exfatView v sectors) = [] ∨ ¬ Overflowing v data ∧
        (∀ other ∈ comp :: rest, entriesFor other * 32 ≤ v.clusterBytes) ∧
        Suffices v (exfatView v sectors) chain (entriesFor comp)
          (rest.length + clustersNeeded v data.length) := by
    simp only [WriteSpared, more, absent, Except.error.injEq, forall_eq', ne_eq,
      not_false_eq_true, true_imp_iff, false_imp_iff, true_and,
      nothingOrAll_iff more (show rest.length + clustersNeeded v data.length ≠ 0 by omega)]
    by_cases overflow : Overflowing v data
    · simp [overflow]
    · simp [overflow]
  rw [condition]
  rw [all] at judged
  exact judged

end

/-- The last component of the path is there. -/
theorem exfatOverwrite_failsClean_iff {sectors : Nat → Buffer} {bitmap chain : List Nat}
    {fuel depth : Nat} {owner : ExfatOwner} {comp data : List UInt8} {info : EntryInfo}
    (enough : v.exfatClusterCount + 2 < fuel) (sound : Sound v (exfatView v sectors) bitmap)
    (dir : DirAt v (exfatView v sectors) depth owner chain) (nonempty : comp ≠ [])
    (short : comp.length ≤ 255)
    (found : lookup v (exfatView v sectors) comp (chainPlaces v chain) = .ok info) :
    FailsClean v (v.exfatClusterCount + 2) (InExfatDirectory v sectors) sectors
        (exfatOverwrite v fuel info comp data (Device.healthy sectors)) ↔
      WriteSpared v data (exfatView v sectors) chain comp [] := by
  have condition : WriteSpared v data (exfatView v sectors) chain comp [] ↔
      (Overflowing v data → (exfatView v sectors).next 0 = eocMark) := by
    simp [WriteSpared, found]
  rw [condition]
  rcases lookup_hit found with ⟨place, hit⟩
  rcases exfatOverwrite_spec shape data enough sound dir hit.inside hit.set nonempty short hit.fits
    hit.cluster hit.atPlace with
    ⟨sectors', first, members, ran, _, _, _, filled⟩ | ⟨some, refused, reason⟩
  · rw [ran]
    refine ⟨fun _ overflow => ?_, fun _ => .of_success⟩
    exact absurd overflow.2 (filled overflow.1).2.2.1
  · rw [refused]
    by_cases zero : clustersNeeded v data.length = 0
    · rw [zero]
      refine (refusedSectors_failsClean_iff shape (show (-7 : Int) ≠ 0 by decide) sectors).trans ?_
      exact ⟨fun marked _ => marked, fun marked => marked ⟨some, zero⟩⟩
    · refine ⟨fun _ overflow => absurd overflow.2 zero, fun _ => .of_same ?_⟩
      rw [refusedSectors, if_neg zero]

section

variable {fuel : Nat} (enough : v.exfatClusterCount + 2 < fuel)
include enough

theorem exfatEnsureWalk_cleanWhen {comps : List (List UInt8)}
    (chars : ∀ comp ∈ comps, comp ≠ [] ∧ comp.length ≤ 255) {sectors : Nat → Buffer}
    {bitmap chain : List Nat} {depth : Nat} {owner : ExfatOwner}
    (sound : Sound v (exfatView v sectors) bitmap)
    (dir : DirAt v (exfatView v sectors) depth owner chain) :
    CleanWhen v sectors comps
      (Throughout v (exfatView v sectors) (EnsureSpared v (exfatView v sectors))
        (owner.start v (exfatView v sectors)) comps)
      (codeOf (exfatEnsureWalk fuel comps (owner.start v (exfatView v sectors)) v
        (Device.healthy sectors))) := by
  induction comps generalizing depth owner chain with
  | nil => exact .of_iff ⟨fun _ => .nil, fun _ => .of_success⟩
  | cons comp rest induction =>
      cases found : lookup v (exfatView v sectors) comp (chainPlaces v chain) with
      | error missing =>
          rw [Throughout.stops dir.linked (by simp [found])]
          exact exfatEnsureWalk_missing shape enough sound dir chars found
      | ok info =>
          rcases lookup_hit found with ⟨place, hit⟩
          have spared : EnsureSpared v (exfatView v sectors) chain comp rest := by
            simp [EnsureSpared, found]
          rw [exfatEnsureWalk, DiskM.bind_run (exfatFindInDir_spec shape enough comp sound dir),
            found]
          cases isDir : info.isDir with
          | false =>
              rw [Throughout.stops dir.linked (by simp [found, isDir])]
              simp only [isDir]
              exact .of_iff ⟨fun _ => spared, fun _ => .of_same rfl⟩
          | true =>
              rcases hit.dirAt sound.owned dir isDir with ⟨members, child⟩
              have later := induction
                (fun other member => chars other (List.mem_cons_of_mem comp member)) child
              have start : ExfatOwner.start v (exfatView v sectors) (.entry place) =
                  info.cluster := hit.cluster.symm
              rw [start] at later
              rw [Throughout.enters dir.linked found isDir spared]
              simp only [isDir, if_true]
              exact ⟨later.1, fun fits => later.2 fun other member =>
                fits other (List.mem_cons_of_mem comp member)⟩

theorem exfatWriteWalk_cleanWhen (data : List UInt8) {comps : List (List UInt8)}
    (chars : ∀ comp ∈ comps, comp ≠ [] ∧ comp.length ≤ 255) {sectors : Nat → Buffer}
    {bitmap chain : List Nat} {depth : Nat} {owner : ExfatOwner}
    (sound : Sound v (exfatView v sectors) bitmap)
    (dir : DirAt v (exfatView v sectors) depth owner chain) :
    CleanWhen v sectors comps
      (Throughout v (exfatView v sectors) (WriteSpared v data (exfatView v sectors))
        (owner.start v (exfatView v sectors)) comps)
      (codeOf (exfatWriteWalk fuel data comps (owner.start v (exfatView v sectors)) v
        (Device.healthy sectors))) := by
  induction comps generalizing depth owner chain with
  | nil => exact .of_iff ⟨fun _ => .nil, fun _ => .of_same rfl⟩
  | cons comp rest induction =>
      rcases chars comp (by simp) with ⟨nonempty, short⟩
      cases found : lookup v (exfatView v sectors) comp (chainPlaces v chain) with
      | error missing =>
          rw [Throughout.stops dir.linked (by simp [found])]
          by_cases last : rest = []
          · exact .of_iff (exfatWriteWalk_last shape enough sound dir chars found data last)
          · exact exfatWriteWalk_missing shape enough sound dir chars found data last
      | ok info =>
          rcases lookup_hit found with ⟨place, hit⟩
          rw [exfatWriteWalk, DiskM.bind_run (exfatFindInDir_spec shape enough comp sound dir),
            found]
          by_cases last : rest = []
          · subst last
            rw [Throughout.stops dir.linked (by simp)]
            simp only [List.isEmpty_nil, if_true]
            rw [codeOf_bind]
            exact .of_iff
              (exfatOverwrite_failsClean_iff shape enough sound dir nonempty short found)
          · have spared : WriteSpared v data (exfatView v sectors) chain comp rest := by
              simp [WriteSpared, found, last]
            simp only [List.isEmpty_iff, last, if_false]
            cases isDir : info.isDir with
            | false =>
                rw [Throughout.stops dir.linked (by simp [found, isDir])]
                exact .of_iff ⟨fun _ => spared, fun _ => .of_same rfl⟩
            | true =>
                rcases hit.dirAt sound.owned dir isDir with ⟨members, child⟩
                have later := induction
                  (fun other member => chars other (List.mem_cons_of_mem comp member)) child
                have start : ExfatOwner.start v (exfatView v sectors) (.entry place) =
                    info.cluster := hit.cluster.symm
                rw [start] at later
                rw [Throughout.enters dir.linked found isDir spared]
                simp only [if_true]
                exact ⟨later.1, fun fits => later.2 fun other member =>
                  fits other (List.mem_cons_of_mem comp member)⟩

end

end

/-! ## Calls -/

/-- The condition for a call. -/
def Call.ExfatSpared (v : Vol) (sectors : Nat → Buffer) : Call → Prop
  | .writeFile path data => Throughout v (exfatView v sectors)
      (WriteSpared v data (exfatView v sectors)) v.rootClus path.componentsLong
  | .ensureDir path => Throughout v (exfatView v sectors)
      (EnsureSpared v (exfatView v sectors)) v.rootClus path.componentsLong

theorem Call.cleanWhen_exfat {v : Vol} {sectors : Nat → Buffer} {fuel : Nat}
    (sound : ExfatSound v sectors) (enough : v.exfatClusterCount + 2 < fuel) (call : Call) :
    CleanWhen v sectors call.path.componentsLong (call.ExfatSpared v sectors)
      (codeOf (call.run fuel v (Device.healthy sectors))) := by
  rcases sound with ⟨shape, bitmap, sound⟩
  rcases sound.owned.dirAt_root with ⟨chain, root⟩
  have chars : ∀ comp ∈ call.path.componentsLong, comp ≠ [] ∧ comp.length ≤ 255 := by
    intro comp member
    have chars := componentsLong_chars call.path comp member
    exact ⟨chars.1, chars.2.1⟩
  cases call with
  | writeFile path data =>
      have located : exfatLoadBitmapInfo v fuel (Device.healthy sectors) =
          some ((0, v), Device.healthy sectors) := by
        rw [exfatLoadBitmapInfo, if_pos sound.agreed.bitmap.located]
        rfl
      simp only [Call.run, fat32WriteFilePath, shape.exfat]
      rw [exfatWriteFile, DiskM.bind_run located]
      exact exfatWriteWalk_cleanWhen shape enough data chars sound root
  | ensureDir path =>
      simp only [Call.run, fat32EnsureDirPath, shape.exfat]
      exact exfatEnsureWalk_cleanWhen shape enough chars sound root

end ParanOS

import ParanOS.Exfat.Sound

/-! # exFAT file operations on sound volumes

What `exfat_create_entry` and the last step of `exfat_write_file_path` do to a
directory in use: which slots they write, what the set holds afterwards, and
that the volume stays sound and the directories above stay as they were.
-/

namespace ParanOS

open Foundation
open ExfatOwner (LiveAt)

section

variable {v : Vol} (shape : ExfatGeometry v)
include shape

/-! ## Writing a set into a directory -/

/-- The set of a name is stored in a slot, and what it holds is the data. -/
structure StoredSet (v : Vol) (store : ClusterStore) (place : Place) (name : List UInt8)
    (first : Nat) (isDir : Bool) (members : List Nat) (data : List UInt8) : Prop where
  entry : setAt v store place = some (name,
    ⟨first, data.length % 18446744073709551616, isDir, 0, 0⟩)
  holds : Chain (v.exfatClusterCount + 2) store first members
  content : data.length ≤ members.length * v.clusterBytes →
    (chainData v store members).take data.length = data
  /-- A directory starts out unused. -/
  blank : isDir = true →
    ∀ cl ∈ members, ∀ off < v.clusterBytes, body v store cl off = 0x00

omit shape in
/-- Slots that a set has been written over have no other sets. -/
theorem neighbour_back {store store' : ClusterStore} {cl off : Nat} {name : List UInt8}
    {first size : Nat} {isDir : Bool} (nonempty : name ≠ []) (short : name.length ≤ 255)
    (aligned : 32 ∣ off)
    (patched : Patched v store store' cl off (entriesFor name * 32)
      (builtSet name first size isDir))
    {other : Place} (near : other.cl = cl) (otherAligned : 32 ∣ other.off)
    (different : other.off ≠ off) (set : IsSet v store' other) :
    IsSet v store other ∧ setStart v store' other = setStart v store other ∧
      setIsDir v store' other = setIsDir v store other := by
  have bounds := entriesFor_bounds nonempty short
  have set' := isSet_iff.mp set
  rw [near] at set'
  rcases set' with ⟨file, positive, few, inside, stream⟩
  have written : ∀ index < entriesFor name * 32,
      body v store' cl (off + index) = builtSet name first size isDir index := by
    intro index below
    rw [patched.patch, Buffer.copy_inside (by omega) (by omega), Nat.add_sub_cancel_left]
  rcases aligned with ⟨slot, rfl⟩
  rcases otherAligned with ⟨slot', slotEq⟩
  rw [slotEq] at file positive few inside stream different
  -- the set can neither start inside the written slots nor right before them
  have apart : slot' + 2 ≤ slot ∨ slot + entriesFor name ≤ slot' := by
    by_contra overlap
    by_cases before : slot' < slot
    · have head := written 0 (by omega)
      rw [Nat.add_zero, builtSet_type, show 32 * slot = 32 * slot' + 32 by omega, stream] at head
      exact absurd head (by decide)
    · by_cases second : slot' = slot + 1
      · have head := written 32 (by omega)
        rw [builtSet_stream, show 32 * slot + 32 = 32 * slot' by omega, file] at head
        exact absurd head (by decide)
      · have head := written ((slot' - slot) * 32) (by omega)
        rw [builtSet_nameType _ _ _ _ (by omega) (by omega),
          show 32 * slot + (slot' - slot) * 32 = 32 * slot' by omega, file] at head
        exact absurd head (by decide)
  have same : ∀ index < 64, body v store' other.cl (other.off + index) =
      body v store other.cl (other.off + index) := by
    intro index below
    rw [near, slotEq, patched.patch, Buffer.copy_outside (by omega)]
  have kept := IsSet.of_head same
  exact ⟨kept.1.mp set, kept.2⟩

/-- A set written into a slot of a directory in use, after the clusters that an
earlier set in that slot held may have been given back. -/
theorem Chained.entered {store middle store' : ClusterStore} {bitmap chain members : List Nat}
    {depth first size : Nat} {owner : ExfatOwner} {place : Place} {name : List UInt8}
    {isDir : Bool} (chained : Chained v store bitmap) (dir : DirAt v store depth owner chain)
    (inside : place ∈ chainPlaces v chain) (nonempty : name ≠ []) (short : name.length ≤ 255)
    (fits : place.off + entriesFor name * 32 ≤ v.clusterBytes) (small : first < 4294967296)
    (holds : Chain (v.exfatClusterCount + 2) store first members)
    (vacant : ∀ cl ∈ members, Vacant v store cl)
    (blank : isDir = true → first ≠ 0 ∧
      ∀ cl ∈ members, ∀ off < v.clusterBytes, body v store cl off = 0x00)
    (links : ∀ other chain', ExfatOwner.Live v store other → other ≠ .entry place →
      other.Holds v store chain' → ∀ cl ∈ chain', middle.next cl = store.next cl)
    (ownLinks : ∀ cl ∈ members, middle.next cl = store.next cl)
    (sectors : ∀ cl, cl ∉ bitmap → middle.sector cl = store.sector cl)
    (patched : Patched v middle store' place.cl place.off (entriesFor name * 32)
      (builtSet name first size isDir)) :
    Entered v store store' depth owner chain place members := by
  have range := (mem_chainPlaces shape).mp inside
  have placeOutside := chained.dir_outside shape dir range.1
  have entry := setAt_patched nonempty short small fits patched
  have info := setAt_info entry
  have placeBody : body v middle place.cl = body v store place.cl :=
    body_congr (sectors place.cl placeOutside)
  refine ⟨dir, inside, ?_, ?_, ?_, ?_, ?_, ?_, ?_⟩
  · intro other chain' live different holds cl member
    rw [patched.links]
    exact links other chain' live different holds cl member
  · intro other chain' live isDir _ holds cl member notHere
    rw [patched.others cl notHere]
    apply sectors
    apply chained.outside shape live _ holds member
    intro equal
    rw [equal] at isDir
    exact isDir
  · intro other member near different set
    have otherRange := (mem_chainPlaces shape).mp member
    have offsets : other.off ≠ place.off := by
      intro equal
      apply different
      cases other
      cases place
      simp_all
    have back := neighbour_back nonempty short range.2.1 patched near otherRange.2.1
      offsets set
    rcases @IsSet.congr v _ _ other (near ▸ placeBody) with
      ⟨sets, starts, dirs⟩
    exact ⟨sets.mp back.1, back.2.1.trans starts, back.2.2.trans dirs⟩
  · simp [IsSet, entry]
  · rw [← info.1]
    apply holds.congr
    intro cl member
    rw [patched.links]
    exact ownLinks cl member
  · intro other chain' live _ holds cl member member'
    exact vacant cl member other chain' live holds member'
  · intro newDir
    rw [← info.2.1] at newDir
    rcases blank newDir with ⟨occupied, zero⟩
    rw [← info.1]
    refine ⟨occupied, ?_⟩
    intro other member set
    have otherRange := (mem_chainPlaces shape).mp member
    have notHere : other.cl ≠ place.cl := fun equal =>
      vacant other.cl otherRange.1 owner chain ⟨_, dir.live⟩ dir.holds (equal ▸ range.1)
    have notBitmap : other.cl ∉ bitmap :=
      vacant other.cl otherRange.1 .bitmap bitmap ⟨0, .bitmap⟩ (chained.bitmap_holds shape)
    have head := (isSet_iff.mp set).1
    rw [body_congr (patched.others other.cl notHere), body_congr (sectors other.cl notBitmap),
      zero other.cl otherRange.1 other.off otherRange.2.2] at head
    exact absurd head (by decide)

/-- On a sound volume, that makes a sound one on which the set is stored. -/
theorem enter_spec {store middle store' : ClusterStore} {bitmap chain members : List Nat}
    {depth : Nat} {owner : ExfatOwner} {place : Place} {name data : List UInt8} {first : Nat}
    {isDir : Bool} (sound : Sound v store bitmap) (dir : DirAt v store depth owner chain)
    (inside : place ∈ chainPlaces v chain) (nonempty : name ≠ []) (short : name.length ≤ 255)
    (fits : place.off + entriesFor name * 32 ≤ v.clusterBytes)
    (small : first < 4294967296)
    (holds : Chain (v.exfatClusterCount + 2) store first members)
    (vacant : ∀ cl ∈ members, Vacant v store cl)
    (content : data.length ≤ members.length * v.clusterBytes →
      (chainData v store members).take data.length = data)
    (blank : isDir = true → first ≠ 0 ∧
      ∀ cl ∈ members, ∀ off < v.clusterBytes, body v store cl off = 0x00)
    (agreed : Agreed v middle bitmap)
    (links : ∀ other chain', ExfatOwner.Live v store other → other ≠ .entry place →
      other.Holds v store chain' → ∀ cl ∈ chain', middle.next cl = store.next cl)
    (ownLinks : ∀ cl ∈ members, middle.next cl = store.next cl)
    (sectors : ∀ cl, cl ∉ bitmap → middle.sector cl = store.sector cl)
    (patched : Patched v middle store' place.cl place.off (entriesFor name * 32)
      (builtSet name first data.length isDir)) :
    Entered v store store' depth owner chain place members ∧ Sound v store' bitmap ∧
      StoredSet v store' place name first isDir members data := by
  have range := (mem_chainPlaces shape).mp inside
  have placeOutside := sound.chained.dir_outside shape dir range.1
  have memberOutside : ∀ cl ∈ members, cl ≠ place.cl ∧ cl ∉ bitmap := by
    intro cl member
    constructor
    · intro equal
      exact vacant cl member owner chain ⟨_, dir.live⟩ dir.holds (equal ▸ range.1)
    · exact vacant cl member .bitmap bitmap ⟨0, .bitmap⟩ (sound.chained.bitmap_holds shape)
  have memberSectors : ∀ cl ∈ members, store'.sector cl = store.sector cl := by
    intro cl member
    rw [patched.others cl (memberOutside cl member).1, sectors cl (memberOutside cl member).2]
  have entry := setAt_patched nonempty short small fits patched
  have holds' : Chain (v.exfatClusterCount + 2) store' first members := by
    apply holds.congr
    intro cl member
    rw [patched.links]
    exact ownLinks cl member
  have change := sound.chained.entered shape dir inside nonempty short fits small holds vacant
    blank links ownLinks sectors patched
  refine ⟨change, ⟨?_, change.owned_after shape sound.owned⟩, entry, holds', ?_, ?_⟩
  · apply agreed.congr
    · intro cl _
      rw [patched.links]
    · intro cl inBitmap
      exact patched.others cl fun equal => placeOutside (equal ▸ inBitmap)
    · intro cl _
      rw [patched.links]
  · rw [chainData_congr memberSectors]
    exact content
  · intro newDir cl member off below
    rw [body_congr (memberSectors cl member)]
    exact (blank newDir).2 cl member off below

/-! ## Clusters for new entries -/

theorem allocContent_file {sectors : Nat → Buffer} {bitmap : List Nat} {fuel : Nat}
    (enough : v.exfatClusterCount + 2 < fuel) (sound : Sound v (exfatView v sectors) bitmap)
    (data : List UInt8) :
    (∃ first sectors' members,
      allocContent v fuel false data (Device.healthy sectors) =
        some (some first, Device.healthy sectors') ∧
      Filled v bitmap (exfatView v sectors) (exfatView v sectors') first members data ∧
      (data ≠ [] → first ≠ 0 ∧ members.length = clustersNeeded v data.length) ∧
      (freeList v (exfatView v sectors')).length + clustersNeeded v data.length =
        (freeList v (exfatView v sectors)).length) ∨
    (data ≠ [] ∧
      allocContent v fuel false data (Device.healthy sectors) =
        some (none, Device.healthy (refusedSectors v sectors (clustersNeeded v data.length))) ∧
      (clustersNeeded v data.length = 0 ∨
        (freeList v (exfatView v sectors)).length < clustersNeeded v data.length)) := by
  by_cases empty : data = []
  · subst empty
    refine .inl ⟨0, sectors, [], rfl, .nothing sound, by simp, ?_⟩
    rw [List.length_nil, clustersNeeded_zero shape, Nat.add_zero]
  · have positive : data.length > 0 := List.length_pos_iff.mpr empty
    rcases allocWrite_spec shape enough sound empty with
      ⟨first, middle, sectors', members, allocated, wrote, occupied, length, filled, _, count⟩ |
      ⟨refused, reason⟩
    · refine .inl ⟨first, sectors', members, ?_, filled, fun _ => ⟨occupied, length⟩, count⟩
      simp only [allocContent, Bool.false_eq_true, if_false, positive, if_true]
      rw [DiskM.bind_run allocated, if_neg occupied, if_pos empty, DiskM.bind_run wrote]
      rfl
    · refine .inr ⟨empty, ?_, reason⟩
      simp only [allocContent, Bool.false_eq_true, if_false, positive, if_true]
      rw [DiskM.bind_run refused, if_pos rfl]
      rfl

theorem allocContent_dir {sectors : Nat → Buffer} {bitmap : List Nat} {fuel : Nat}
    (enough : v.exfatClusterCount + 2 < fuel) (sound : Sound v (exfatView v sectors) bitmap) :
    (∃ first sectors' members,
      allocContent v fuel true [] (Device.healthy sectors) =
        some (some first, Device.healthy sectors') ∧
      Filled v bitmap (exfatView v sectors) (exfatView v sectors') first members [] ∧
      first ≠ 0 ∧
      (∀ cl ∈ members, ∀ off < v.clusterBytes,
        body v (exfatView v sectors') cl off = 0x00) ∧
      (freeList v (exfatView v sectors')).length + 1 =
        (freeList v (exfatView v sectors)).length) ∨
    (allocContent v fuel true [] (Device.healthy sectors) =
        some (none, Device.healthy sectors) ∧
      (freeList v (exfatView v sectors)).length = 0) := by
  have positive := shape.clusterBytes_pos
  rcases exfatAllocChainForSize_spec shape enough sound.agreed
    (show v.clusterBytes ≠ 0 by omega) with
    ⟨first, middle, taken, ran, state, occupied, length, _⟩ | ⟨refused, reason⟩
  · have count := state.length_free
    rw [clustersNeeded_cluster shape] at length
    rcases List.length_eq_one_iff.mp length with ⟨only, rfl⟩
    have start := state.holds.start_mem occupied
    rw [List.mem_singleton] at start
    subst start
    rcases exfatZeroCluster_blank shape middle (state.holds.inside (List.mem_singleton_self first))
      with ⟨sectors', zeroed, links, others, blank⟩
    refine .inl ⟨first, sectors', [first], ?_, ?_, occupied, ?_, ?_⟩
    · simp only [allocContent, if_true, gt_iff_lt, positive]
      rw [DiskM.bind_run ran, if_neg occupied]
      simp only [ne_eq, not_true_eq_false, if_false]
      rw [DiskM.bind_run zeroed]
      rfl
    · apply state.filled shape sound links
      · intro cl outside
        exact others cl (by simpa using outside)
      · simp
    · intro cl member
      rw [List.mem_singleton.mp member]
      exact blank
    · have same : freeList v (exfatView v sectors') = freeList v (exfatView v middle) :=
        ClusterStore.free_congr fun cl _ => by rw [links]
      rw [same]
      exact count
  · rw [clustersNeeded_cluster shape] at refused reason
    refine .inr ⟨?_, by omega⟩
    simp only [allocContent, if_true, gt_iff_lt, positive]
    rw [DiskM.bind_run refused, if_pos rfl]
    rfl

/-! ## Room in a directory -/

/-- Where a set goes in a directory: to the first room there is, or to the start
of a further cluster. -/
inductive Landing (v : Vol) (store store' : ClusterStore) (chain : List Nat) (total : Nat) :
    List Nat → Place → Prop
  | room {before cl after j} : chain = before ++ cl :: after →
      (∀ other ∈ before, ∀ j, ¬ Room v store other total j) →
      FirstRoom v store cl total j → (∀ cl ∈ chain, store'.sector cl = store.sector cl) →
      Landing v store store' chain total chain ⟨cl, 32 * j⟩
  | further {target} : (∀ cl ∈ chain, ∀ j, ¬ Room v store cl total j) →
      (∀ cl ∈ chain, store'.sector cl = store.sector cl) →
      (∀ off < v.clusterBytes, body v store' target off = 0x00) →
      Landing v store store' chain total (chain ++ [target]) ⟨target, 0⟩

omit shape in
/-- Only the content of the directory decides. -/
theorem Landing.congr {store before store' : ClusterStore} {chain chain' : List Nat}
    {total : Nat} {place : Place} (landing : Landing v store store' chain total chain' place)
    (same : ∀ cl ∈ chain, store.sector cl = before.sector cl) :
    Landing v before store' chain total chain' place := by
  cases landing with
  | room split earlier first sectors =>
      refine .room split ?_ (first.congr (body_congr (same _ (by simp [split])).symm)) ?_
      · intro other member j
        rw [← Room.congr (body_congr (same other (by simp [split, member])))]
        exact earlier other member j
      · intro cl member
        rw [sectors cl member, same cl member]
  | further none sectors blank =>
      refine .further ?_ ?_ blank
      · intro cl member j
        rw [← Room.congr (body_congr (same cl member))]
        exact none cl member j
      · intro cl member
        rw [sectors cl member, same cl member]

/-- The state with room for a set. -/
structure Located (v : Vol) (bitmap : List Nat) (store store' : ClusterStore) (depth : Nat)
    (owner : ExfatOwner) (chain chain' : List Nat) (total : Nat) (place : Place) : Prop where
  sound : Sound v store' bitmap
  kept : KeptAbove v depth store store'
  dir : DirAt v store' depth owner chain'
  inside : place ∈ chainPlaces v chain'
  fits : place.off + total * 32 ≤ v.clusterBytes
  vacant : ∀ cl, Vacant v store cl → store.next cl ≠ 0 →
    Vacant v store' cl ∧ store'.next cl = store.next cl ∧ store'.sector cl = store.sector cl
  landing : Landing v store store' chain total chain' place

/-- A free cluster without sets is linked behind the last one of a directory. -/
theorem Chained.lengthened {store store' : ClusterStore} {bitmap chain : List Nat}
    {depth target : Nat} {owner : ExfatOwner} (chained : Chained v store bitmap)
    (dir : DirAt v store depth owner chain) (fresh : Fresh (v.exfatClusterCount + 2) store target)
    (links : ∀ cl, cl ≠ chain.getLastD 0 → cl ≠ target → store'.next cl = store.next cl)
    (linked : store'.next (chain.getLastD 0) = target) (ends : store'.next target = eocMark)
    (sectors : ∀ cl, cl ∉ bitmap → cl ≠ target → store'.sector cl = store.sector cl)
    (blank : ∀ off < v.clusterBytes, body v store' target off = 0x00) :
    Lengthened v store store' depth owner chain target := by
  refine ⟨dir, vacant_of_free fresh.free, fresh.data, fresh.running, links, linked,
    ends ▸ endOfChain_eocMark, ?_, blank⟩
  intro other chain' live isDir holds cl member
  apply sectors
  · apply chained.outside shape live _ holds member
    intro equal
    rw [equal] at isDir
    exact isDir
  · intro equal
    exact chain_next_ne_zero holds member (equal ▸ fresh.free)

theorem Extended.lengthened {store store' : ClusterStore} {bitmap chain : List Nat}
    {depth prev target : Nat} {owner : ExfatOwner} (sound : Sound v store bitmap)
    (dir : DirAt v store depth owner chain) (last : chain.getLastD 0 = prev)
    (extended : Extended v bitmap store store' prev target) :
    Lengthened v store store' depth owner chain target := by
  have prevMember : prev ∈ chain := last ▸ dir.holds.last_mem dir.occupied
  have different : prev ≠ target := by
    intro equal
    exact chain_next_ne_zero dir.holds prevMember (equal ▸ extended.fresh.free)
  apply sound.chained.lengthened shape dir extended.fresh _ _ _ extended.sectors extended.blank
  · intro cl notLast notTarget
    rw [extended.links, if_neg notTarget, if_neg (last ▸ notLast)]
  · rw [last, extended.links, if_neg different, if_pos rfl]
  · rw [extended.links, if_pos rfl]

/-- How the search for room ends: in the directory, in a further cluster of it, or
for want of one. -/
inductive Finding (v : Vol) (bitmap : List Nat) (sectors sectors' : Nat → Buffer)
    (chain : List Nat) (total : Nat) : Option (Nat × Nat) → Prop
  | room {before cl after j} : chain = before ++ cl :: after →
      (∀ other ∈ before, ∀ j, ¬ Room v (exfatView v sectors) other total j) →
      FirstRoom v (exfatView v sectors) cl total j → sectors' = sectors →
      Finding v bitmap sectors sectors' chain total (some (cl, 32 * j))
  | further {target} : (∀ cl ∈ chain, ∀ j, ¬ Room v (exfatView v sectors) cl total j) →
      Extended v bitmap (exfatView v sectors) (exfatView v sectors') (chain.getLastD 0) target →
      (freeList v (exfatView v sectors')).length + 1 =
        (freeList v (exfatView v sectors)).length →
      Finding v bitmap sectors sectors' chain total (some (target, 0))
  | full : (∀ cl ∈ chain, ∀ j, ¬ Room v (exfatView v sectors) cl total j) →
      Full v (exfatView v sectors) → sectors' = sectors →
      Finding v bitmap sectors sectors' chain total none

omit shape in
theorem DirAt.last_mem {store : ClusterStore} {depth : Nat} {owner : ExfatOwner}
    {chain : List Nat} (dir : DirAt v store depth owner chain) : chain.getLastD 0 ∈ chain :=
  dir.holds.last_mem dir.occupied

theorem exfatFindFreeSet_finding {sectors : Nat → Buffer} {bitmap chain : List Nat}
    {fuel depth total : Nat} {owner : ExfatOwner} (enough : v.exfatClusterCount + 2 < fuel)
    (sound : Sound v (exfatView v sectors) bitmap)
    (dir : DirAt v (exfatView v sectors) depth owner chain) (positive : 0 < total) :
    ∃ result sectors',
      exfatFindFreeSet v fuel (owner.start v (exfatView v sectors)) total
        (Device.healthy sectors) = some (result, Device.healthy sectors') ∧
      Finding v bitmap sectors sectors' chain total result := by
  rcases freeClusters_healthy shape (owner.start v (exfatView v sectors)) positive
    dir.linked dir.data (dir.length_lt enough) with ⟨result, ran, search, _⟩
  cases search with
  | @room before cl after j split earlier first =>
      refine ⟨some (cl, 32 * j), sectors, ?_, .room split earlier first rfl⟩
      rw [exfatFindFreeSet, DiskM.bind_run ran]
      rfl
  | full none =>
      have lastMember := dir.last_mem
      have last : chain.getLastD (owner.start v (exfatView v sectors)) = chain.getLastD 0 := by
        cases chain with
        | nil => simp at lastMember
        | cons head rest => rw [List.getLastD_cons, List.getLastD_cons]
      rw [last] at ran
      rcases extendDirectory_spec shape sound.agreed (dir.data _ lastMember)
        (dir.holds.not_stop lastMember) (chain_next_ne_zero dir.holds lastMember)
        (sound.chained.dir_outside shape dir lastMember) with
        ⟨refused, full⟩ | ⟨target, sectors', grown, extended, count⟩
      · refine ⟨Option.none, sectors, ?_, .full none full rfl⟩
        rw [exfatFindFreeSet, DiskM.bind_run ran]
        exact refused
      · refine ⟨some (target, 0), sectors', ?_, .further none extended count⟩
        rw [exfatFindFreeSet, DiskM.bind_run ran]
        exact grown

theorem exfatFindFreeSet_spec {sectors : Nat → Buffer} {bitmap chain : List Nat}
    {fuel depth total : Nat} {owner : ExfatOwner} (enough : v.exfatClusterCount + 2 < fuel)
    (sound : Sound v (exfatView v sectors) bitmap)
    (dir : DirAt v (exfatView v sectors) depth owner chain) (positive : 0 < total)
    (fits : total * 32 ≤ v.clusterBytes) :
    exfatFindFreeSet v fuel (owner.start v (exfatView v sectors)) total
        (Device.healthy sectors) = some (none, Device.healthy sectors) ∨
    ∃ place sectors' chain',
      exfatFindFreeSet v fuel (owner.start v (exfatView v sectors)) total
        (Device.healthy sectors) =
        some (some (place.cl, place.off), Device.healthy sectors') ∧
      Located v bitmap (exfatView v sectors) (exfatView v sectors') depth owner chain chain'
        total place := by
  have slots := shape.slots_eq
  rcases exfatFindFreeSet_finding shape enough sound dir positive with
    ⟨result, sectors', ran, finding⟩
  cases finding with
  | @room before cl after j split earlier first same =>
      right
      subst same
      have clMember : cl ∈ chain := by simp [split]
      have room := first.room.fits
      refine ⟨⟨cl, 32 * j⟩, sectors', chain, ran, sound, .refl _ _ _, dir, ?_, ?_, ?_, ?_⟩
      · rw [mem_chainPlaces shape]
        exact ⟨clMember, Nat.dvd_mul_right 32 j, by simp only; omega⟩
      · simp only
        omega
      · intro cl vacant _
        exact ⟨vacant, rfl, rfl⟩
      · exact .room split earlier first fun _ _ => rfl
  | full _ _ same =>
      left
      rw [same] at ran
      exact ran
  | @further target none extended _ =>
      right
      have lastMember := dir.last_mem
      have change := extended.lengthened shape sound dir rfl
      refine ⟨⟨target, 0⟩, sectors', chain ++ [target], ran,
        ⟨extended.agreed, change.owned_after shape sound.owned⟩,
        change.kept shape sound.owned, change.dirAt shape sound.owned, ?_, ?_, ?_, ?_⟩
      · rw [mem_chainPlaces shape]
        exact ⟨by simp, Nat.dvd_zero 32, shape.clusterBytes_pos⟩
      · simp only
        omega
      · intro cl vacant used
        have notTarget : cl ≠ target := fun equal => used (equal ▸ extended.fresh.free)
        have notLast : cl ≠ chain.getLastD 0 := fun equal =>
          vacant owner chain ⟨_, dir.live⟩ dir.holds (equal ▸ lastMember)
        refine ⟨change.vacant_after shape sound.owned vacant notTarget,
          change.links cl notLast notTarget, extended.sectors cl ?_ notTarget⟩
        exact vacant .bitmap bitmap ⟨0, .bitmap⟩ (sound.chained.bitmap_holds shape)
      · refine .further none ?_ extended.blank
        intro cl member
        exact change.sectors owner chain ⟨_, dir.live⟩ dir.isDir dir.holds cl member

/-! ## Creating an entry -/

/-- A set has been created in a directory. -/
structure Created (v : Vol) (store store' : ClusterStore) (depth : Nat) (owner : ExfatOwner)
    (chain : List Nat) (name : List UInt8) (first : Nat) (isDir : Bool) (data : List UInt8)
    (place : Place) (chain' members : List Nat) : Prop where
  dir : DirAt v store' depth owner chain'
  live : LiveAt v store' (depth + 1) (.entry place)
  stored : StoredSet v store' place name first isDir members data
  /-- The directory with room for the set, and then with the set. -/
  landed : ∃ middle, Landing v store middle chain (entriesFor name) chain' place ∧
    (∀ cl ∈ chain', cl ≠ place.cl → body v store' cl = body v middle cl) ∧
    body v store' place.cl = (body v middle place.cl).copy place.off (entriesFor name * 32)
      (builtSet name first data.length isDir)

/-- The set for clusters that are ready. -/
theorem createSet_spec {sectors middle : Nat → Buffer} {bitmap chain members : List Nat}
    {fuel depth : Nat} {owner : ExfatOwner} {name data : List UInt8} {first : Nat}
    {isDir : Bool} (enough : v.exfatClusterCount + 2 < fuel)
    (sound : Sound v (exfatView v sectors) bitmap)
    (dir : DirAt v (exfatView v sectors) depth owner chain) (nonempty : name ≠ [])
    (short : name.length ≤ 255) (fits : entriesFor name * 32 ≤ v.clusterBytes)
    (ready : allocContent v fuel isDir data (Device.healthy sectors) =
      some (some first, Device.healthy middle))
    (filled : Filled v bitmap (exfatView v sectors) (exfatView v middle) first members data)
    (blank : isDir = true → first ≠ 0 ∧
      ∀ cl ∈ members, ∀ off < v.clusterBytes, body v (exfatView v middle) cl off = 0x00) :
    ∃ code result sectors', exfatCreateEntry v fuel (owner.start v (exfatView v sectors)) name
        isDir data (Device.healthy sectors) = some ((code, result), Device.healthy sectors') ∧
      Sound v (exfatView v sectors') bitmap ∧
      KeptAbove v depth (exfatView v sectors) (exfatView v sectors') ∧
      (code = 0 → result = first ∧ ∃ place chain',
        Created v (exfatView v sectors) (exfatView v sectors') depth owner chain name first
          isDir data place chain' members) := by
  have bounds := entriesFor_bounds nonempty short
  have soundMiddle := filled.sound_after shape sound
  have dirMiddle := filled.idle.dirAt shape sound.owned dir
  have start : owner.start v (exfatView v middle) = owner.start v (exfatView v sectors) :=
    ((filled.idle.kept depth).liveAt shape sound.owned dir.live (by omega)).2.1
  have search := exfatFindFreeSet_spec shape enough soundMiddle dirMiddle
    (show 0 < entriesFor name by omega) fits
  rw [start] at search
  rcases search with full | ⟨place, found, chain', ran, located⟩
  · refine ⟨-3, 0, middle, ?_, soundMiddle, filled.idle.kept depth, by simp⟩
    exact exfatCreateEntry_full ready full
  · have range := (mem_chainPlaces shape).mp located.inside
    rcases exfatWriteEntrySet_healthy shape found
      (exfatBuildEntrySet name first data.length isDir) (located.dir.data place.cl range.1)
      range.2.1 (by omega) located.fits with ⟨sectors', wrote, patched, _⟩
    have members' := fun cl member => located.vacant cl (filled.vacant shape sound member)
      (chain_next_ne_zero filled.holds member)
    have same : ∀ cl ∈ members, (exfatView v found).sector cl = (exfatView v middle).sector cl :=
      fun cl member => (members' cl member).2.2
    rcases enter_spec shape located.sound located.dir located.inside nonempty short
      located.fits filled.small
      (filled.holds.congr fun cl member => (members' cl member).2.1)
      (fun cl member => (members' cl member).1)
      (by rw [chainData_congr same]; exact filled.content)
      (fun newDir => ⟨(blank newDir).1, fun cl member off inside => by
        rw [body_congr (same cl member)]
        exact (blank newDir).2 cl member off inside⟩)
      located.sound.agreed (fun _ _ _ _ _ _ _ => rfl) (fun _ _ => rfl) (fun _ _ => rfl) patched
      with ⟨change, soundAfter, stored⟩
    have keptMiddle := (filled.idle.kept depth).trans shape sound.owned located.kept
    refine ⟨0, first, sectors', ?_, soundAfter,
      keptMiddle.trans shape sound.owned (change.kept shape located.sound.owned), ?_⟩
    · exact exfatCreateEntry_run ready ran wrote
    · intro _
      refine ⟨rfl, place, chain', change.dirAt shape located.sound.owned,
        change.liveAt shape located.sound.owned, stored, exfatView v found, ?_, ?_, ?_⟩
      · apply located.landing.congr
        exact filled.idle.sectors owner chain ⟨_, dir.live⟩ dir.isDir dir.holds
      · intro cl _ different
        exact body_congr (patched.others cl different)
      · exact patched.patch

omit shape in
/-- Nothing is created for want of clusters. -/
theorem createEntry_refused {sectors middle : Nat → Buffer} {fuel dirCl : Nat}
    {name data : List UInt8} {isDir : Bool}
    (ready : allocContent v fuel isDir data (Device.healthy sectors) =
      some (none, Device.healthy middle)) :
    exfatCreateEntry v fuel dirCl name isDir data (Device.healthy sectors) =
      some ((-2, 0), Device.healthy middle) := by
  rw [exfatCreateEntry, DiskM.bind_run ready]
  rfl

section

variable {sectors : Nat → Buffer} {bitmap chain : List Nat} {fuel depth : Nat}
  {owner : ExfatOwner} {name : List UInt8} (enough : v.exfatClusterCount + 2 < fuel)
  (sound : Sound v (exfatView v sectors) bitmap)
  (dir : DirAt v (exfatView v sectors) depth owner chain) (nonempty : name ≠ [])
  (short : name.length ≤ 255)
include enough sound dir nonempty short

theorem exfatCreateEntry_file (fits : entriesFor name * 32 ≤ v.clusterBytes)
    (data : List UInt8) :
    ∃ code result sectors', exfatCreateEntry v fuel (owner.start v (exfatView v sectors)) name
        false data (Device.healthy sectors) = some ((code, result), Device.healthy sectors') ∧
      Sound v (exfatView v sectors') bitmap ∧
      KeptAbove v depth (exfatView v sectors) (exfatView v sectors') ∧
      (code = 0 → ∃ first place chain' members,
        Created v (exfatView v sectors) (exfatView v sectors') depth owner chain name first
          false data place chain' members ∧
        (data ≠ [] → first ≠ 0 ∧ members.length = clustersNeeded v data.length)) := by
  rcases allocContent_file shape enough sound data with
    ⟨first, middle, members, ready, filled, length, _⟩ | ⟨_, ready, _⟩
  · rcases createSet_spec shape enough sound dir nonempty short fits ready filled
      (by simp) with ⟨code, result, sectors', ran, soundAfter, kept, created⟩
    refine ⟨code, result, sectors', ran, soundAfter, kept, fun succeeded => ?_⟩
    rcases created succeeded with ⟨_, place, chain', done⟩
    exact ⟨first, place, chain', members, done, length⟩
  · rcases refused_sound shape sound (clustersNeeded v data.length) with ⟨idle, soundAfter⟩
    exact ⟨-2, 0, _, createEntry_refused ready, soundAfter, idle.kept depth, by simp⟩

theorem exfatCreateEntry_dir (fits : entriesFor name * 32 ≤ v.clusterBytes) :
    ∃ code result sectors', exfatCreateEntry v fuel (owner.start v (exfatView v sectors)) name
        true [] (Device.healthy sectors) = some ((code, result), Device.healthy sectors') ∧
      Sound v (exfatView v sectors') bitmap ∧
      KeptAbove v depth (exfatView v sectors) (exfatView v sectors') ∧
      (code = 0 → ∃ place chain' members,
        Created v (exfatView v sectors) (exfatView v sectors') depth owner chain name result
          true [] place chain' members ∧
        ExfatOwner.start v (exfatView v sectors') (.entry place) = result ∧
        DirAt v (exfatView v sectors') (depth + 1) (.entry place) members) := by
  rcases allocContent_dir shape enough sound with
    ⟨first, middle, members, ready, filled, occupied, blank, _⟩ | ⟨ready, _⟩
  · rcases createSet_spec shape enough sound dir nonempty short fits ready filled
      (fun _ => ⟨occupied, blank⟩) with ⟨code, result, sectors', ran, soundAfter, kept, created⟩
    refine ⟨code, result, sectors', ran, soundAfter, kept, fun succeeded => ?_⟩
    rcases created succeeded with ⟨rfl, place, chain', done⟩
    have info := setAt_info done.stored.entry
    have start : ExfatOwner.start v (exfatView v sectors') (.entry place) = result := info.1.symm
    refine ⟨place, chain', members, done, start, done.live, info.2.1.symm, ?_, ?_⟩
    · rw [start]
      exact occupied
    · rw [ExfatOwner.Holds, start]
      exact done.stored.holds
  · exact ⟨-2, 0, sectors, createEntry_refused ready, sound, .refl _ _ _, by simp⟩

end

/-! ## Replacing an entry's content -/

/-- A set has been rewritten in its place. -/
structure Rewritten (v : Vol) (store store' : ClusterStore) (depth : Nat) (owner : ExfatOwner)
    (chain : List Nat) (name : List UInt8) (first : Nat) (data : List UInt8) (place : Place)
    (members : List Nat) : Prop where
  dir : DirAt v store' depth owner chain
  stored : StoredSet v store' place name first false members data
  others : ∀ cl ∈ chain, cl ≠ place.cl → body v store' cl = body v store cl
  patch : body v store' place.cl = (body v store place.cl).copy place.off
    (entriesFor name * 32) (builtSet name first data.length false)

/-- Giving back what a set holds. -/
theorem freeOld_spec {sectors : Nat → Buffer} {bitmap old : List Nat} {fuel depth : Nat}
    {place : Place} (enough : v.exfatClusterCount + 2 < fuel)
    (sound : Sound v (exfatView v sectors) bitmap)
    (live : LiveAt v (exfatView v sectors) depth (.entry place))
    (holds : ExfatOwner.Holds v (exfatView v sectors) (.entry place) old) :
    ∃ code sectors', freeOld v fuel (setStart v (exfatView v sectors) place)
        (Device.healthy sectors) = some (code, Device.healthy sectors') ∧
      exfatView v sectors' = releaseAll v bitmap (exfatView v sectors) old := by
  cases holds with
  | empty vacant =>
      have zero : setStart v (exfatView v sectors) place = 0 := vacant
      exact ⟨0, sectors, by simp [freeOld, zero], rfl⟩
  | chain occupied running linked inside =>
      have nonzero : setStart v (exfatView v sectors) place ≠ 0 := occupied
      have bound := length_le_of_nodup_of_lt linked.nodup fun cl member => (inside cl member).2
      have apart : ∀ cl ∈ old, cl ∉ bitmap := fun cl member =>
        sound.chained.outside shape ⟨_, live⟩ (by simp) (.chain occupied running linked inside)
          member
      rcases exfatFreeChain_spec shape sound.agreed linked inside apart
        (show old.length < fuel by omega) with ⟨sectors', ran, after, _⟩
      exact ⟨0, sectors', by rw [freeOld, if_pos nonzero]; exact ran, after⟩

/-- New clusters are ready: the old ones are given back and the set is
rewritten. -/
theorem rewrite_spec {sectors middle : Nat → Buffer} {bitmap chain members : List Nat}
    {fuel depth first : Nat} {owner : ExfatOwner} {place : Place} {name data : List UInt8}
    (enough : v.exfatClusterCount + 2 < fuel)
    (sound : Sound v (exfatView v sectors) bitmap)
    (dir : DirAt v (exfatView v sectors) depth owner chain)
    (inside : place ∈ chainPlaces v chain) (set : IsSet v (exfatView v sectors) place)
    (nonempty : name ≠ []) (short : name.length ≤ 255)
    (fits : place.off + entriesFor name * 32 ≤ v.clusterBytes)
    (filled : Filled v bitmap (exfatView v sectors) (exfatView v middle) first members data) :
    ∃ code freed sectors',
      freeOld v fuel (setStart v (exfatView v sectors) place) (Device.healthy middle) =
        some (code, Device.healthy freed) ∧
      exfatWriteEntrySet v place.cl place.off
        (exfatBuildEntrySet name first data.length false) (entriesFor name)
        (Device.healthy freed) = some (0, Device.healthy sectors') ∧
      Sound v (exfatView v sectors') bitmap ∧
      KeptAbove v depth (exfatView v sectors) (exfatView v sectors') ∧
      Rewritten v (exfatView v sectors) (exfatView v sectors') depth owner chain name first
        data place members := by
  have bounds := entriesFor_bounds nonempty short
  have range := (mem_chainPlaces shape).mp inside
  have live : LiveAt v (exfatView v sectors) (depth + 1) (.entry place) :=
    .entry dir.live dir.isDir dir.linked inside set
  have soundMiddle := filled.sound_after shape sound
  have dirMiddle := filled.idle.dirAt shape sound.owned dir
  rcases (filled.idle.kept (depth + 1)).liveAt shape sound.owned live (by omega) with
    ⟨liveMiddle, start, _⟩
  have sameStart : setStart v (exfatView v middle) place =
      setStart v (exfatView v sectors) place := start
  rcases soundMiddle.owned.tenancy.held _ ⟨_, liveMiddle⟩ with ⟨old, holdsOld⟩
  rcases freeOld_spec shape enough soundMiddle liveMiddle holdsOld with
    ⟨code, freed, ranFree, afterFree⟩
  rw [sameStart] at ranFree
  have oldData : ∀ cl ∈ old, DataCluster (v.exfatClusterCount + 2) cl := fun cl member =>
    holdsOld.inside member
  have oldApart : ∀ cl ∈ old, cl ∉ bitmap := fun cl member =>
    soundMiddle.chained.outside shape ⟨_, liveMiddle⟩ (by simp) holdsOld member
  rcases releaseAll_agreed soundMiddle.agreed oldData oldApart with ⟨agreedFreed, sectorsFreed⟩
  rw [← afterFree] at agreedFreed sectorsFreed
  rcases exfatWriteEntrySet_healthy shape freed
    (exfatBuildEntrySet name first data.length false) (dir.data place.cl range.1) range.2.1
    (by omega) fits with ⟨sectors', wrote, patched, _⟩
  have linksFreed : ∀ cl, cl ∉ old →
      (exfatView v freed).next cl = (exfatView v middle).next cl := by
    intro cl outside
    rw [afterFree, releaseAll_next, if_neg outside]
  rcases enter_spec shape soundMiddle dirMiddle inside nonempty short fits filled.small
    filled.holds (fun cl member => filled.vacant shape sound member) filled.content (by simp)
    agreedFreed
    (fun other chain' otherLive different holds cl member => linksFreed cl fun inOld =>
      different (soundMiddle.owned.owner_eq otherLive ⟨_, liveMiddle⟩ holds holdsOld member
        inOld))
    (fun cl member => linksFreed cl
      (filled.vacant shape sound member _ old ⟨_, liveMiddle⟩ holdsOld))
    sectorsFreed patched with ⟨change, soundAfter, stored⟩
  have bodies : ∀ cl ∈ chain, body v (exfatView v freed) cl = body v (exfatView v sectors) cl := by
    intro cl member
    rw [body_congr (sectorsFreed cl (soundMiddle.chained.dir_outside shape dirMiddle member))]
    exact body_congr (filled.idle.sectors owner chain ⟨_, dir.live⟩ dir.isDir dir.holds cl member)
  refine ⟨code, freed, sectors', ranFree, wrote, soundAfter,
    (filled.idle.kept depth).trans shape sound.owned (change.kept shape soundMiddle.owned),
    change.dirAt shape soundMiddle.owned, stored, ?_, ?_⟩
  · intro cl member different
    rw [body_congr (patched.others cl different), bodies cl member]
  · rw [patched.patch, bodies place.cl range.1]
    rfl

/-- The last component when its entry exists: the content is replaced, or there
is too little room and nothing that counts has changed. -/
theorem exfatOverwrite_spec {sectors : Nat → Buffer} {bitmap chain : List Nat}
    {fuel depth : Nat} {owner : ExfatOwner} {place : Place} {name : List UInt8}
    {info : EntryInfo} (data : List UInt8) (enough : v.exfatClusterCount + 2 < fuel)
    (sound : Sound v (exfatView v sectors) bitmap)
    (dir : DirAt v (exfatView v sectors) depth owner chain)
    (inside : place ∈ chainPlaces v chain) (set : IsSet v (exfatView v sectors) place)
    (nonempty : name ≠ []) (short : name.length ≤ 255)
    (fits : place.off + entriesFor name * 32 ≤ v.clusterBytes)
    (cluster : info.cluster = setStart v (exfatView v sectors) place)
    (atPlace : info.dirCluster = place.cl ∧ info.dirByteOff = place.off) :
    (∃ sectors' first members,
      exfatOverwrite v fuel info name data (Device.healthy sectors) =
        some (0, Device.healthy sectors') ∧
      Sound v (exfatView v sectors') bitmap ∧
      KeptAbove v depth (exfatView v sectors) (exfatView v sectors') ∧
      Rewritten v (exfatView v sectors) (exfatView v sectors') depth owner chain name first
        data place members ∧
      (data ≠ [] → first ≠ 0 ∧ members.length = clustersNeeded v data.length ∧
        clustersNeeded v data.length ≠ 0 ∧
        clustersNeeded v data.length ≤ (freeList v (exfatView v sectors)).length)) ∨
    (data ≠ [] ∧
      exfatOverwrite v fuel info name data (Device.healthy sectors) =
        some (-7, Device.healthy (refusedSectors v sectors (clustersNeeded v data.length))) ∧
      (clustersNeeded v data.length = 0 ∨
        (freeList v (exfatView v sectors)).length < clustersNeeded v data.length)) := by
  by_cases empty : data = []
  · left
    subst empty
    rcases rewrite_spec shape enough sound dir inside set nonempty short fits
      (.nothing sound) with ⟨code, freed, sectors', ranFree, wrote, soundAfter, kept, done⟩
    refine ⟨sectors', 0, [], ?_, soundAfter, kept, done, by simp⟩
    have replaced : replaceContent v fuel [] (Device.healthy sectors) =
        some (.ok 0, Device.healthy sectors) := rfl
    rw [exfatOverwrite, DiskM.bind_run replaced]
    simp only
    rw [cluster, DiskM.bind_run ranFree, exfatUpdateEntry, atPlace.1, atPlace.2]
    exact wrote
  · have positive : data.length > 0 := List.length_pos_iff.mpr empty
    rcases allocWrite_spec shape enough sound empty with
      ⟨first, middle, written, members, allocated, wroteData, occupied, length, filled, needed,
        count⟩ |
      ⟨refused, reason⟩
    · left
      rcases rewrite_spec shape enough sound dir inside set nonempty short fits filled with
        ⟨code, freed, sectors', ranFree, wrote, soundAfter, kept, done⟩
      refine ⟨sectors', first, members, ?_, soundAfter, kept, done,
        fun _ => ⟨occupied, length, needed, by omega⟩⟩
      have replaced : replaceContent v fuel data (Device.healthy sectors) =
          some (.ok first, Device.healthy written) := by
        rw [replaceContent, if_pos positive, DiskM.bind_run allocated, if_neg occupied,
          DiskM.bind_run wroteData]
        rfl
      rw [exfatOverwrite, DiskM.bind_run replaced]
      simp only
      rw [cluster, DiskM.bind_run ranFree, exfatUpdateEntry, atPlace.1, atPlace.2]
      exact wrote
    · right
      refine ⟨empty, ?_, reason⟩
      have replaced : replaceContent v fuel data (Device.healthy sectors) =
          some (.error (-7),
            Device.healthy (refusedSectors v sectors (clustersNeeded v data.length))) := by
        rw [replaceContent, if_pos positive, DiskM.bind_run refused]
        rfl
      rw [exfatOverwrite, DiskM.bind_run replaced]
      rfl

end

end ParanOS

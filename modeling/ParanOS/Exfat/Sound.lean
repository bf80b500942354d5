import ParanOS.Exfat.Change

/-! # Sound exFAT volumes

The bitmap agrees with the table and the chains of all owners are well formed.
What the driver does to clusters that nobody holds keeps a volume sound.
-/

namespace ParanOS

open Foundation
open ExfatOwner (LiveAt)

/-- The chains of the bitmap and of all owners are well formed, whatever the bits say. -/
structure Chained (v : Vol) (store : ClusterStore) (bitmap : List Nat) : Prop where
  bitmap : Bitmap v store bitmap
  owned : ExfatOwned v store

/-- Agreement and ownership, with the chain of the bitmap. -/
structure Sound (v : Vol) (store : ClusterStore) (bitmap : List Nat) : Prop where
  agreed : Agreed v store bitmap
  owned : ExfatOwned v store

/-- A sound volume on a device. -/
structure ExfatSound (v : Vol) (sectors : Nat → Buffer) : Prop where
  shape : ExfatGeometry v
  sound : ∃ bitmap, Sound v (exfatView v sectors) bitmap

section

variable {v : Vol} (shape : ExfatGeometry v)
include shape

namespace Chained

variable {store store' : ClusterStore} {bitmap : List Nat} (chained : Chained v store bitmap)
include chained

theorem bitmap_holds : ExfatOwner.bitmap.Holds v store bitmap := by
  have located := chained.bitmap
  cases located.linked with
  | nil _ =>
      have capacity := located.capacity
      have count := shape.clusters
      simp at capacity
      omega
  | cons running tail =>
      exact .chain located.located running (.cons running tail) located.data

/-- Everybody else's clusters lie outside the bitmap. -/
theorem outside {owner : ExfatOwner} {chain : List Nat} {cl : Nat} (live : owner.Live v store)
    (other : owner ≠ .bitmap) (holds : owner.Holds v store chain) (member : cl ∈ chain) :
    cl ∉ bitmap := fun inBitmap =>
  other (chained.owned.owner_eq live ⟨0, .bitmap⟩ holds (chained.bitmap_holds shape) member
    inBitmap)

theorem dir_outside {depth : Nat} {owner : ExfatOwner} {chain : List Nat} {cl : Nat}
    (dir : DirAt v store depth owner chain) (member : cl ∈ chain) : cl ∉ bitmap := by
  apply chained.outside shape ⟨_, dir.live⟩ _ dir.holds member
  intro equal
  have isDir := dir.isDir
  rw [equal] at isDir
  exact isDir

/-- Changes to free clusters and to the bitmap's content. -/
theorem idle (links : ∀ cl, store.next cl ≠ 0 → 2 ≤ cl → store'.next cl = store.next cl)
    (sectors : ∀ cl, cl ∉ bitmap → store.next cl ≠ 0 → store'.sector cl = store.sector cl) :
    Idle v store store' where
  links := fun _ _ _ holds cl member =>
    links cl (chain_next_ne_zero holds member) (holds.inside member).1
  sectors := fun owner chain live isDir holds cl member => by
    apply sectors cl _ (chain_next_ne_zero holds member)
    apply chained.outside shape live _ holds member
    intro equal
    rw [equal] at isDir
    exact isDir

end Chained

/-- The loss of sets leaves the chains. -/
theorem Thinned.chained {store store' : ClusterStore} {bitmap : List Nat}
    (thinned : Thinned v store store') (chained : Chained v store bitmap) :
    Chained v store' bitmap :=
  ⟨chained.bitmap.congr (thinned.links .bitmap bitmap ⟨0, .bitmap⟩ (chained.bitmap_holds shape)),
    thinned.owned_after chained.owned⟩

theorem Idle.chained {store store' : ClusterStore} {bitmap : List Nat}
    (idle : Idle v store store') (chained : Chained v store bitmap) : Chained v store' bitmap :=
  (idle.thinned shape).chained shape chained

theorem Lengthened.chained {store store' : ClusterStore} {bitmap chain : List Nat}
    {depth target : Nat} {owner : ExfatOwner}
    (change : Lengthened v store store' depth owner chain target)
    (chained : Chained v store bitmap) : Chained v store' bitmap := by
  refine ⟨chained.bitmap.congr ?_, change.owned_after shape chained.owned⟩
  apply change.others chained.owned ⟨0, .bitmap⟩ _ (chained.bitmap_holds shape)
  intro equal
  have isDir := change.dir.isDir
  rw [← equal] at isDir
  exact isDir

theorem Entered.chained {store store' : ClusterStore} {bitmap chain members : List Nat}
    {depth : Nat} {owner : ExfatOwner} {place : Place}
    (change : Entered v store store' depth owner chain place members)
    (chained : Chained v store bitmap) : Chained v store' bitmap :=
  ⟨chained.bitmap.congr (change.links .bitmap bitmap ⟨0, .bitmap⟩ (by simp)
      (chained.bitmap_holds shape)), change.owned_after shape chained.owned⟩

omit shape in
theorem Sound.chained {store : ClusterStore} {bitmap : List Nat} (sound : Sound v store bitmap) :
    Chained v store bitmap := ⟨sound.agreed.bitmap, sound.owned⟩

/-! ## New clusters with content -/

/-- Clusters that were free are now a chain that nobody holds yet, filled with
the data. -/
structure Filled (v : Vol) (bitmap : List Nat) (store store' : ClusterStore) (first : Nat)
    (members : List Nat) (data : List UInt8) : Prop where
  idle : Idle v store store'
  agreed : Agreed v store' bitmap
  small : first < 4294967296
  holds : Chain (v.exfatClusterCount + 2) store' first members
  free : ∀ cl ∈ members, store.next cl = 0
  outside : ∀ cl, 2 ≤ cl → cl ∉ members → store'.next cl = store.next cl
  content : data.length ≤ members.length * v.clusterBytes →
    (chainData v store' members).take data.length = data

namespace Filled

variable {store store' : ClusterStore} {bitmap members : List Nat} {first : Nat}
  {data : List UInt8} (filled : Filled v bitmap store store' first members data)
  (sound : Sound v store bitmap)
include filled sound

theorem sound_after : Sound v store' bitmap :=
  ⟨filled.agreed, filled.idle.owned_after shape sound.owned⟩

theorem vacant {cl : Nat} (member : cl ∈ members) : Vacant v store' cl :=
  filled.idle.vacant shape sound.owned (vacant_of_free (filled.free cl member))

end Filled

omit shape in
/-- No clusters for no data. -/
theorem Filled.nothing {store : ClusterStore} {bitmap : List Nat}
    (sound : Sound v store bitmap) : Filled v bitmap store store 0 [] [] :=
  ⟨⟨fun _ _ _ _ _ _ => rfl, fun _ _ _ _ _ _ _ => rfl⟩, sound.agreed, by omega, .empty rfl,
    by simp, fun _ _ _ => rfl, by simp⟩

/-- Clusters just taken, whose content has then been written. -/
theorem Taken.filled {store middle store' : ClusterStore} {bitmap taken : List Nat}
    {first : Nat} {data : List UInt8} (sound : Sound v store bitmap)
    (state : Taken v bitmap store middle first taken) (links : store'.next = middle.next)
    (sectors : ∀ cl, cl ∉ taken → store'.sector cl = middle.sector cl)
    (content : data.length ≤ taken.length * v.clusterBytes →
      (chainData v store' taken).take data.length = data) :
    Filled v bitmap store store' first taken data := by
  have free : ∀ cl ∈ taken, store.next cl = 0 := fun cl member =>
    (mem_freeList.mp (state.free cl member)).2.2
  have apart := state.apart sound.agreed
  refine ⟨?_, ?_, chain_start_lt state.holds, ?_, free, ?_, content⟩
  · apply sound.chained.idle shape
    · intro cl used _
      rw [links]
      exact state.links cl fun member => used (free cl member)
    · intro cl notBitmap used
      rw [sectors cl fun member => used (free cl member)]
      exact state.sectors cl notBitmap
  · apply state.agreed.congr
    · intro cl _
      rw [links]
    · intro cl inBitmap
      exact sectors cl fun member => apart cl member inBitmap
    · intro cl _
      rw [links]
  · exact state.holds.congr fun cl _ => by rw [links]
  · intro cl _ outside
    rw [links]
    exact state.links cl outside

theorem refusedSectors_next (sectors : Nat → Buffer) (need : Nat) {cl : Nat} (lower : 2 ≤ cl) :
    (exfatView v (refusedSectors v sectors need)).next cl = (exfatView v sectors).next cl := by
  by_cases overflow : need = 0
  · rw [refusedSectors, if_pos overflow, exfatView,
      shape.geometry.view_setFatEntry sectors eocMark (by omega) (by decide),
      ClusterStore.link_next_other (by omega)]
  · rw [refusedSectors, if_neg overflow]

/-- An allocation that found too little room changes nothing that counts. -/
theorem refused_sound {sectors : Nat → Buffer} {bitmap : List Nat}
    (sound : Sound v (exfatView v sectors) bitmap) (need : Nat) :
    Idle v (exfatView v sectors) (exfatView v (refusedSectors v sectors need)) ∧
      Sound v (exfatView v (refusedSectors v sectors need)) bitmap := by
  have same : (exfatView v (refusedSectors v sectors need)).sector =
      (exfatView v sectors).sector := by
    by_cases overflow : need = 0
    · rw [refusedSectors, if_pos overflow, exfatView,
        shape.geometry.view_setFatEntry sectors eocMark (by omega) (by decide)]
      rfl
    · rw [refusedSectors, if_neg overflow]
  have idle : Idle v (exfatView v sectors) (exfatView v (refusedSectors v sectors need)) := by
    apply sound.chained.idle shape
    · intro cl _ lower
      exact refusedSectors_next shape sectors need lower
    · intro cl _ _
      rw [same]
  refine ⟨idle, ?_, idle.owned_after shape sound.owned⟩
  apply sound.agreed.congr
  · intro cl member
    exact refusedSectors_next shape sectors need (sound.agreed.bitmap.data cl member).1
  · intro cl _
    rw [same]
  · intro cl data
    rw [refusedSectors_next shape sectors need data.1]

/-- The allocation of a file's clusters and the writing of its data. -/
theorem allocWrite_spec {sectors : Nat → Buffer} {bitmap : List Nat} {fuel : Nat}
    (enough : v.exfatClusterCount + 2 < fuel) (sound : Sound v (exfatView v sectors) bitmap)
    {data : List UInt8} (nonempty : data ≠ []) :
    (∃ first middle sectors' members,
      exfatAllocChainForSize v fuel data.length (Device.healthy sectors) =
        some (first, Device.healthy middle) ∧
      exfatWriteChain v fuel first data (Device.healthy middle) =
        some (0, Device.healthy sectors') ∧
      first ≠ 0 ∧ members.length = clustersNeeded v data.length ∧
      Filled v bitmap (exfatView v sectors) (exfatView v sectors') first members data ∧
      clustersNeeded v data.length ≠ 0 ∧
      (freeList v (exfatView v sectors')).length + clustersNeeded v data.length =
        (freeList v (exfatView v sectors)).length) ∨
    (exfatAllocChainForSize v fuel data.length (Device.healthy sectors) =
        some (0, Device.healthy (refusedSectors v sectors (clustersNeeded v data.length))) ∧
      (clustersNeeded v data.length = 0 ∨
        (freeList v (exfatView v sectors)).length < clustersNeeded v data.length)) := by
  rcases exfatAllocChainForSize_spec shape enough sound.agreed
    (show data.length ≠ 0 by simpa using nonempty) with
    ⟨first, middle, taken, ran, state, occupied, length, _⟩ | refused
  · rcases exfatWriteChain_healthy shape (state.holds.linked occupied)
      (fun cl member => state.holds.inside member) (state.length_lt enough) data with
      ⟨sectors', wrote, links, others, content⟩
    have atLeast := List.length_pos_of_mem (state.holds.start_mem occupied)
    have count := state.length_free
    have same : freeList v (exfatView v sectors') = freeList v (exfatView v middle) :=
      ClusterStore.free_congr fun cl _ => by rw [links]
    exact .inl ⟨first, middle, sectors', taken, ran, wrote, occupied, length,
      state.filled shape sound links others content, by omega, by rw [same]; omega⟩
  · exact .inr refused

end

end ParanOS

import ParanOS.Exfat.Lookup

/-! # Room for entry sets

What `exfat_find_free_set` accepts as room for a set and where it looks, and
what `exfat_write_entry_set` does to the bytes of a cluster.
-/

namespace ParanOS

open Foundation

/-- The number of slots of a cluster. -/
def Vol.slots (v : Vol) : Nat := v.clusterBytes / 32

/-- The entry type in a slot, by number. -/
def slotType (v : Vol) (store : ClusterStore) (cl j : Nat) : UInt8 :=
  body v store cl (32 * j)

/-- A slot that counts as free: unused so far (0x00) or deleted (0xFF). -/
def Reusable (v : Vol) (store : ClusterStore) (cl j : Nat) : Prop :=
  slotType v store cl j = 0x00 ∨ slotType v store cl j = 0xFF

/-- The search takes slot `j` of a cluster for a set of `total` entries: the
set ends in the cluster, and `j` is unused or starts a run of free slots. -/
structure Room (v : Vol) (store : ClusterStore) (cl total j : Nat) : Prop where
  fits : j + total ≤ v.slots
  usable : slotType v store cl j = 0x00 ∨ ∀ i < total, Reusable v store cl (j + i)

/-- The first place taken in a cluster: nothing before it is unused. -/
structure FirstRoom (v : Vol) (store : ClusterStore) (cl total j : Nat) : Prop where
  room : Room v store cl total j
  used : ∀ z < j, slotType v store cl z ≠ 0x00

/-- The search ends in slot `k`: it is unused and the set fits behind it, or it completes a run
of free slots. -/
def EndsAt (v : Vol) (store : ClusterStore) (cl total k : Nat) : Prop :=
  slotType v store cl k = 0x00 ∧ k + total ≤ v.slots ∨
    ∃ j, j + total = k + 1 ∧ ∀ i < total, Reusable v store cl (j + i)

/-- The place where the search of a cluster ends first. -/
def Foremost (v : Vol) (store : ClusterStore) (cl total j : Nat) : Prop :=
  ∃ k < v.slots, (∀ earlier < k, ¬ EndsAt v store cl total earlier) ∧
    (slotType v store cl k = 0x00 ∧ k + total ≤ v.slots ∧ j = k ∨
      ¬ (slotType v store cl k = 0x00 ∧ k + total ≤ v.slots) ∧ j + total = k + 1 ∧
        ∀ i < total, Reusable v store cl (j + i))

theorem Foremost.endsAt {v : Vol} {store : ClusterStore} {cl total k j : Nat}
    (ends : slotType v store cl k = 0x00 ∧ k + total ≤ v.slots ∧ j = k ∨
      ¬ (slotType v store cl k = 0x00 ∧ k + total ≤ v.slots) ∧ j + total = k + 1 ∧
        ∀ i < total, Reusable v store cl (j + i)) : EndsAt v store cl total k := by
  rcases ends with ⟨unused, fits, _⟩ | ⟨_, last, free⟩
  · exact .inl ⟨unused, fits⟩
  · exact .inr ⟨j, last, free⟩

theorem Foremost.unique {v : Vol} {store : ClusterStore} {cl total first second : Nat}
    (here : Foremost v store cl total first) (there : Foremost v store cl total second) :
    first = second := by
  rcases here with ⟨k, _, before, ends⟩
  rcases there with ⟨k', _, before', ends'⟩
  have same : k = k' := by
    rcases Nat.lt_trichotomy k k' with less | equal | greater
    · exact absurd (Foremost.endsAt ends) (before' k less)
    · exact equal
    · exact absurd (Foremost.endsAt ends') (before k' greater)
  subst same
  rcases ends with ⟨unused, fits, rfl⟩ | ⟨notUnused, last, _⟩
  · rcases ends' with ⟨_, _, rfl⟩ | ⟨notUnused, _⟩
    · rfl
    · exact absurd ⟨unused, fits⟩ notUnused
  · rcases ends' with ⟨unused, fits, _⟩ | ⟨_, last', _⟩
    · exact absurd ⟨unused, fits⟩ notUnused
    · omega

theorem Foremost.congr {v : Vol} {store store' : ClusterStore} {cl total j : Nat}
    (same : body v store' cl = body v store cl) :
    Foremost v store' cl total j ↔ Foremost v store cl total j := by
  simp only [Foremost, EndsAt, Reusable, slotType, same]

theorem Foremost.room {v : Vol} {store : ClusterStore} {cl total j : Nat}
    (foremost : Foremost v store cl total j) : Room v store cl total j := by
  rcases foremost with ⟨k, inside, _, ⟨unused, fits, rfl⟩ | ⟨_, last, free⟩⟩
  · exact ⟨fits, .inl unused⟩
  · exact ⟨by omega, .inr free⟩

theorem Room.congr {v : Vol} {store store' : ClusterStore} {cl total j : Nat}
    (same : body v store' cl = body v store cl) :
    Room v store' cl total j ↔ Room v store cl total j := by
  have kinds : slotType v store' cl = slotType v store cl := by
    funext k
    rw [slotType, slotType, same]
  constructor
  · intro room
    exact ⟨room.fits, by simpa only [Reusable, kinds] using room.usable⟩
  · intro room
    exact ⟨room.fits, by simpa only [Reusable, kinds] using room.usable⟩

theorem FirstRoom.congr {v : Vol} {store store' : ClusterStore} {cl total j : Nat}
    (same : body v store' cl = body v store cl) (first : FirstRoom v store cl total j) :
    FirstRoom v store' cl total j := by
  refine ⟨(Room.congr same).mpr first.room, ?_⟩
  intro z before
  rw [slotType, same]
  exact first.used z before

/-! ## The slot loop -/

/-- The state of the slot loop in front of slot `k`: the last `run` slots are
free, and there is no room further ahead. -/
structure Scanned (v : Vol) (store : ClusterStore) (cl total k run runStart : Nat) : Prop where
  short : run < total
  inside : run ≤ k
  start : run ≠ 0 → runStart = 32 * (k - run)
  free : ∀ j, k - run ≤ j → j < k → Reusable v store cl j
  window : ∀ j, j + total ≤ v.slots → (∀ i < total, Reusable v store cl (j + i)) → k - run ≤ j
  used : ∀ j < k, j + total ≤ v.slots → slotType v store cl j ≠ 0x00

namespace Scanned

variable {v : Vol} {store : ClusterStore} {cl total k run runStart : Nat}

theorem begin {total : Nat} (positive : 0 < total) : Scanned v store cl total 0 0 0 :=
  ⟨positive, by omega, by simp, by omega, by omega, by omega⟩

variable (state : Scanned v store cl total k run runStart)
include state

theorem finish (last : k = v.slots) : ∀ j, ¬ Room v store cl total j := by
  intro j room
  have fits := room.fits
  have short := state.short
  rcases room.usable with unused | free
  · exact state.used j (by omega) fits unused
  · have later := state.window j fits free
    omega

/-- The search has not ended before. -/
theorem notEnded (inside : k ≤ v.slots) : ∀ earlier < k, ¬ EndsAt v store cl total earlier := by
  intro earlier before ends
  rcases ends with ⟨unused, fits⟩ | ⟨j, last, free⟩
  · exact state.used earlier before fits unused
  · have later := state.window j (by omega) free
    have short := state.short
    have within := state.inside
    omega

theorem foremost_found (unused : slotType v store cl k = 0x00) (fits : k + total ≤ v.slots) :
    Foremost v store cl total k := by
  have short := state.short
  exact ⟨k, by omega, state.notEnded (by omega), .inl ⟨unused, fits, rfl⟩⟩

theorem found (unused : slotType v store cl k = 0x00) (fits : k + total ≤ v.slots) :
    FirstRoom v store cl total k :=
  ⟨⟨fits, .inl unused⟩, fun z before => state.used z before (by omega)⟩

/-- The slot completes a run of free slots. -/
theorem filled (free : Reusable v store cl k) (enough : run + 1 ≥ total) :
    ∀ i < total, Reusable v store cl (k - run + i) := by
  have short := state.short
  have earlier := state.inside
  intro i below
  by_cases here : k - run + i = k
  · rw [here]
    exact free
  · exact state.free _ (by omega) (by omega)

theorem complete (free : Reusable v store cl k) (enough : run + 1 ≥ total)
    (inside : k < v.slots) : FirstRoom v store cl total (k - run) := by
  have short := state.short
  have earlier := state.inside
  exact ⟨⟨by omega, .inr (state.filled free enough)⟩, fun z before =>
    state.used z (by omega) (by omega)⟩

theorem foremost_complete (free : Reusable v store cl k)
    (noRoom : ¬ (slotType v store cl k = 0x00 ∧ k + total ≤ v.slots)) (enough : run + 1 ≥ total)
    (inside : k < v.slots) : Foremost v store cl total (k - run) := by
  have short := state.short
  have earlier := state.inside
  exact ⟨k, inside, state.notEnded (by omega), .inr ⟨noRoom, by omega, state.filled free enough⟩⟩

theorem goOn (free : Reusable v store cl k)
    (noRoom : ¬ (slotType v store cl k = 0x00 ∧ k + total ≤ v.slots))
    (short : run + 1 < total) :
    Scanned v store cl total (k + 1) (run + 1) (if run = 0 then 32 * k else runStart) := by
  have earlier := state.inside
  refine ⟨short, by omega, ?_, ?_, ?_, ?_⟩
  · intro _
    by_cases first : run = 0
    · rw [if_pos first, first]
      simp
    · rw [if_neg first, state.start first]
      congr 1
      omega
  · intro j lower upper
    by_cases here : j = k
    · rw [here]
      exact free
    · exact state.free j (by omega) (by omega)
  · intro j fits all
    have later := state.window j fits all
    omega
  · intro j below fits
    by_cases here : j = k
    · rw [here]
      intro unused
      exact noRoom ⟨unused, here ▸ fits⟩
    · exact state.used j (by omega) fits

theorem restart (used : ¬ Reusable v store cl k) :
    Scanned v store cl total (k + 1) 0 runStart := by
  have short := state.short
  refine ⟨by omega, by omega, by simp, by omega, ?_, ?_⟩
  · intro j fits all
    have later := state.window j fits all
    by_contra early
    -- the window would contain slot `k`
    have member := all (k - j) (by omega)
    rw [show j + (k - j) = k by omega] at member
    exact used member
  · intro j below fits
    by_cases here : j = k
    · rw [here]
      intro unused
      exact used (.inl unused)
    · exact state.used j (by omega) fits

end Scanned

section

variable {v : Vol} (shape : ExfatGeometry v)
include shape

theorem ExfatGeometry.slots_eq : 32 * v.slots = v.clusterBytes :=
  Nat.mul_div_cancel' shape.clusterBytes_dvd

/-- With sectors of the size that the format asks for. -/
theorem ExfatGeometry.slots_ge (sector : 512 ≤ v.bytesPerSec) : 16 ≤ v.slots := by
  have bytes : v.bytesPerSec ≤ v.clusterBytes :=
    Nat.le_mul_of_pos_right _ shape.geometry.cluster_pos
  have whole := shape.slots_eq
  omega

theorem clusterOffsets_eq : clusterOffsets v = (List.range' 0 v.slots).map (32 * ·) := by
  have slots := shape.slots_eq
  rw [clusterOffsets, List.range_eq_range']
  congr 2
  omega

/-- The slot loop finds the first room of the cluster, unless a read fails. -/
theorem freeSlots_reads (sectors : Nat → Buffer) {cl total : Nat}
    (data : DataCluster (v.exfatClusterCount + 2) cl) (m k run runStart : Nat)
    (range : k + m = v.slots)
    (state : Scanned v (exfatView v sectors) cl total k run runStart) :
    Reading (freeSlots v cl total ((List.range' k m).map (32 * ·)) run runStart) sectors
      fun failed result =>
        failed = true ∧ result = some none ∨
        failed = false ∧ (result = none ∧ (∀ j, ¬ Room v (exfatView v sectors) cl total j) ∨
          ∃ j, result = some (some (32 * j)) ∧ FirstRoom v (exfatView v sectors) cl total j ∧
            Foremost v (exfatView v sectors) cl total j) := by
  induction m generalizing k run runStart with
  | zero => exact .pure (.inr ⟨rfl, .inl ⟨rfl, state.finish (by omega)⟩⟩)
  | succ m induction =>
      have slots := shape.slots_eq
      have aligned : 32 ∣ 32 * k := Nat.dvd_mul_right 32 k
      have entryType : (exfatView v sectors).sector cl (32 * k / v.bytesPerSec)
          (32 * k % v.bytesPerSec) = slotType v (exfatView v sectors) cl k :=
        body_slot_start shape (exfatView v sectors) cl aligned
      have fits : (v.clusterBytes - 32 * k) / 32 ≥ total ↔ k + total ≤ v.slots := by omega
      rw [List.range'_succ, List.map_cons, freeSlots]
      apply Reading.rd_bind
      · exact .pure (.inl ⟨rfl, rfl⟩)
      rw [slot_sector shape sectors data (show 32 * k < v.clusterBytes by omega)]
      simp only [entryType, fits]
      apply Reading.ite
      · exact fun unused => .pure (.inr ⟨rfl, .inr ⟨k, rfl, state.found unused.1 unused.2,
          state.foremost_found unused.1 unused.2⟩⟩)
      · intro unused
        apply Reading.ite
        · intro free
          apply Reading.ite
          · intro enough
            have start : (if run = 0 then 32 * k else runStart) = 32 * (k - run) := by
              by_cases first : run = 0
              · rw [if_pos first, first, Nat.sub_zero]
              · rw [if_neg first, state.start first]
            rw [start]
            exact .pure (.inr ⟨rfl, .inr ⟨k - run, rfl, state.complete free enough (by omega),
              state.foremost_complete free unused enough (by omega)⟩⟩)
          · intro short
            exact induction (k + 1) _ _ (by omega) (state.goOn free unused (by omega))
        · exact fun used => induction (k + 1) _ _ (by omega) (state.restart used)

/-! ## The cluster loop -/

/-- Where the search ends in a chain: at the first room, or behind the last
cluster. -/
inductive Search (v : Vol) (store : ClusterStore) (total prev : Nat) (chain : List Nat) :
    Nat ⊕ Nat × Nat → Prop
  | room {before cl after j} : chain = before ++ cl :: after →
      (∀ other ∈ before, ∀ j, ¬ Room v store other total j) →
      FirstRoom v store cl total j → Search v store total prev chain (.inr (cl, 32 * j))
  | full : (∀ cl ∈ chain, ∀ j, ¬ Room v store cl total j) →
      Search v store total prev chain (.inl (chain.getLastD prev))

omit shape in
/-- Behind a cluster without room the search goes on. -/
theorem Search.behind {store : ClusterStore} {total prev cl : Nat} {rest : List Nat}
    {result : Nat ⊕ Nat × Nat} (search : Search v store total cl rest result)
    (noRoom : ∀ j, ¬ Room v store cl total j) :
    Search v store total prev (cl :: rest) result := by
  cases search with
  | room split earlier first =>
      refine .room (show _ = (cl :: _) ++ _ :: _ by rw [split]; rfl) ?_ first
      intro other member
      rcases List.mem_cons.mp member with rfl | later
      · exact noRoom
      · exact earlier other later
  | full none =>
      rw [← List.getLastD_cons]
      refine .full ?_
      intro other member
      rcases List.mem_cons.mp member with rfl | later
      · exact noRoom
      · exact none other later

/-- The search finds the first room of the chain. When a read fails it finds none, and takes
a table entry that it cannot read for the end of the chain. -/
theorem freeClusters_reads {sectors : Nat → Buffer} {total start fuel : Nat}
    {chain : List Nat} (prev : Nat) (positive : 0 < total)
    (linked : Linked (exfatView v sectors).next EndOfChain start chain)
    (data : ∀ cl ∈ chain, DataCluster (v.exfatClusterCount + 2) cl)
    (enough : chain.length < fuel) :
    Reading (freeClusters v total fuel start prev) sectors fun failed result =>
      failed = true ∧ (result = none ∨ ∃ last, result = some (.inl last)) ∨
      failed = false ∧ ∃ found, result = some found ∧
        Search v (exfatView v sectors) total prev chain found ∧
        ∀ cl j, found = .inr (cl, 32 * j) → Foremost v (exfatView v sectors) cl total j := by
  induction linked, enough using Linked.walk generalizing prev with
  | nil stopped =>
      have ended : isEndCluster _ = true := stopped
      rw [freeClusters, if_pos ended]
      exact .pure (.inr ⟨rfl, .inl prev, rfl, .full (by simp), fun _ _ none => by cases none⟩)
  | @cons cl rest fuel running tail shorter induction =>
      have clData := data cl (by simp)
      have going : isEndCluster cl = false := by
        simpa [EndOfChain] using running
      have next := shape.geometry.fatEntry_eq sectors clData.2 running
      have later := induction cl (fun other member => data other (by simp [member]))
      rw [freeClusters, going, if_neg Bool.false_ne_true, clusterOffsets_eq shape]
      apply (freeSlots_reads shape sectors clData v.slots 0 0 0 (by omega)
        (.begin positive)).bind
      intro failed found outcome
      rcases outcome with ⟨rfl, rfl⟩ | ⟨rfl, ⟨rfl, noRoom⟩ | ⟨j, rfl, first, foremost⟩⟩
      · exact .pure (.inl ⟨rfl, .inl rfl⟩)
      · apply (fatReadFatEntry_reads v sectors cl).bind
        intro failed value read
        rcases read with ⟨rfl, rfl⟩ | ⟨rfl, rfl⟩
        · cases fuel with
          | zero => simp at shorter
          | succ fuel =>
              rw [freeClusters, if_pos (by decide)]
              exact .pure (.inl ⟨rfl, .inr ⟨cl, rfl⟩⟩)
        · rw [next]
          apply later.mono
          intro failed result outcome
          rcases outcome with failing | ⟨done, found, returned, search, foremost⟩
          · exact .inl failing
          · exact .inr ⟨done, found, returned, search.behind noRoom, foremost⟩
      · refine .pure (.inr ⟨rfl, .inr (cl, 32 * j), rfl,
          .room (List.nil_append _).symm (by simp) first, ?_⟩)
        intro place slot equal
        simp only [Sum.inr.injEq, Prod.mk.injEq] at equal
        rw [← equal.1, show slot = j by omega]
        exact foremost

theorem freeClusters_healthy {sectors : Nat → Buffer} {total start fuel : Nat}
    {chain : List Nat} (prev : Nat) (positive : 0 < total)
    (linked : Linked (exfatView v sectors).next EndOfChain start chain)
    (data : ∀ cl ∈ chain, DataCluster (v.exfatClusterCount + 2) cl)
    (enough : chain.length < fuel) :
    ∃ result, freeClusters v total fuel start prev (Device.healthy sectors) =
        some (some result, Device.healthy sectors) ∧
      Search v (exfatView v sectors) total prev chain result ∧
      ∀ cl j, result = .inr (cl, 32 * j) → Foremost v (exfatView v sectors) cl total j := by
  rcases (freeClusters_reads shape prev positive linked data enough).healthy with
    ⟨_, _, _, ⟨impossible, _⟩ | ⟨_, found, rfl, search⟩, ran⟩
  · simp at impossible
  · exact ⟨found, ran, search⟩

/-! ## A longer directory -/

/-- A directory has got a further cluster, all zeros, behind its last one. -/
structure Extended (v : Vol) (chain : List Nat) (before after : ClusterStore)
    (prev target : Nat) : Prop where
  fresh : Fresh (v.exfatClusterCount + 2) before target
  links : ∀ cl, after.next cl =
    if cl = target then eocMark else if cl = prev then target else before.next cl
  sectors : ∀ cl, cl ∉ chain → cl ≠ target → after.sector cl = before.sector cl
  blank : ∀ off < v.clusterBytes, body v after target off = 0x00
  agreed : Agreed v after chain

theorem exfatZeroCluster_blank (sectors : Nat → Buffer) {cl : Nat}
    (data : DataCluster (v.exfatClusterCount + 2) cl) :
    ∃ sectors', exfatZeroCluster v cl (Device.healthy sectors) =
        some (0, Device.healthy sectors') ∧
      (exfatView v sectors').next = (exfatView v sectors).next ∧
      (∀ other, other ≠ cl →
        (exfatView v sectors').sector other = (exfatView v sectors).sector other) ∧
      ∀ off < v.clusterBytes, body v (exfatView v sectors') cl off = 0x00 := by
  rcases exfatZeroCluster_healthy shape sectors data with ⟨sectors', ran, after⟩
  refine ⟨sectors', ran, ?_, ?_, ?_⟩
  · rw [after]
    rfl
  · intro other different
    rw [after]
    funext index
    exact ClusterStore.writeRun_sector_outside (.inl different)
  · intro off inside
    rw [body, after, ClusterStore.writeRun_sector_inside (Nat.zero_le _)]
    rw [Nat.zero_add]
    exact offset_sector_lt inside

theorem extendDirectory_spec {sectors : Nat → Buffer} {chain : List Nat}
    (agreed : Agreed v (exfatView v sectors) chain) {prev : Nat}
    (data : DataCluster (v.exfatClusterCount + 2) prev) (running : ¬ EndOfChain prev)
    (used : (exfatView v sectors).next prev ≠ 0) (outside : prev ∉ chain) :
    (extendDirectory v prev (Device.healthy sectors) = some (none, Device.healthy sectors) ∧
      Full v (exfatView v sectors)) ∨
    ∃ target sectors', extendDirectory v prev (Device.healthy sectors) =
        some (some (target, 0), Device.healthy sectors') ∧
      Extended v chain (exfatView v sectors) (exfatView v sectors') prev target ∧
      (freeList v (exfatView v sectors')).length + 1 =
        (freeList v (exfatView v sectors)).length := by
  rcases exfatAllocCluster_spec shape agreed.bitmap with
    ⟨ran, full⟩ | ⟨target, claimed, ran, fresh, below, after, _⟩
  · left
    refine ⟨?_, full⟩
    rw [extendDirectory, DiskM.bind_run ran]
    rfl
  · right
    have different : prev ≠ target := by
      intro equal
      subst equal
      exact used fresh.free
    have notBitmap : target ∉ chain := fun member =>
      agreed.bitmap.next_ne_zero member fresh.free
    have small := (endOfChain_iff target).not.mp fresh.running
    have first : exfatView v (setFatEntry v claimed prev target) =
        (exfatView v claimed).link prev (target % 268435456) :=
      shape.geometry.view_setFatEntry claimed target data.2 running
    have second : exfatView v (setFatEntry v (setFatEntry v claimed prev target) target eocMark) =
        (exfatView v (setFatEntry v claimed prev target)).link target eocMark :=
      shape.geometry.view_setFatEntry _ eocMark fresh.data.2 fresh.running
    rw [Nat.mod_eq_of_lt (by omega)] at first
    rcases exfatZeroCluster_blank shape
      (setFatEntry v (setFatEntry v claimed prev target) target eocMark) fresh.data with
      ⟨sectors', zeroed, links, others, blank⟩
    have links' : ∀ cl, (exfatView v sectors').next cl =
        if cl = target then eocMark else if cl = prev then target
        else (exfatView v sectors).next cl := by
      intro cl
      rw [links, second, first, after]
      by_cases isTarget : cl = target
      · rw [if_pos isTarget, isTarget]
        exact ClusterStore.link_next_same _ _ _
      · rw [if_neg isTarget, ClusterStore.link_next_other isTarget]
        by_cases isPrev : cl = prev
        · rw [if_pos isPrev, isPrev]
          exact ClusterStore.link_next_same _ _ _
        · rw [if_neg isPrev, ClusterStore.link_next_other isPrev, markCluster_next,
            if_neg isTarget]
    have marked := agreed.markCluster fresh.data notBitmap true
    have same : ∀ cl, cl ≠ target → (exfatView v sectors').sector cl =
        (markCluster v chain (exfatView v sectors) target true).sector cl := by
      intro cl other
      rw [others cl other, second, first, after]
      rfl
    refine ⟨target, sectors', ?_, ⟨fresh, links', ?_, blank, ?_⟩, ?_⟩
    · rw [extendDirectory, DiskM.bind_run ran, if_neg fresh.ne_zero,
        DiskM.bind_run (fatWriteFatEntry_healthy v prev target claimed),
        DiskM.bind_run (fatWriteFatEntry_healthy v target eocMark _), DiskM.bind_run zeroed]
      rfl
    · intro cl notInBitmap other
      rw [same cl other, markCluster_sector agreed.bitmap fresh.data true notInBitmap]
    · apply marked.congr
      · intro cl inBitmap
        have notTarget : cl ≠ target := fun equal => notBitmap (equal ▸ inBitmap)
        have notPrev : cl ≠ prev := fun equal => outside (equal ▸ inBitmap)
        rw [links', if_neg notTarget, if_neg notPrev, markCluster_next, if_neg notTarget]
      · intro cl inBitmap
        exact same cl fun equal => notBitmap (equal ▸ inBitmap)
      · intro cl _
        rw [links', markCluster_next]
        by_cases isTarget : cl = target
        · simp [isTarget]
        · rw [if_neg isTarget, if_neg isTarget]
          by_cases isPrev : cl = prev
          · rw [if_pos isPrev, isPrev]
            simp [used, fresh.ne_zero]
          · rw [if_neg isPrev]
    · refine ClusterStore.length_free_of_taken (List.nodup_singleton target) ?_ ?_ ?_
      · intro cl member
        rw [List.mem_singleton.mp member]
        exact ClusterStore.mem_free.mpr ⟨fresh.data.1, below, fresh.free⟩
      · intro cl member
        rw [links', if_pos (List.mem_singleton.mp member)]
        decide
      · intro cl _ outside
        rw [links', if_neg (by simpa using outside)]
        by_cases isPrev : cl = prev
        · rw [if_pos isPrev, isPrev]
          simp [used, fresh.ne_zero]
        · rw [if_neg isPrev]

/-! ## Writing a set -/

/-- Writing a slot of a cluster. -/
theorem body_write_slot (store : ClusterStore) (cl : Nat) {off : Nat} (aligned : 32 ∣ off)
    (data : Buffer) :
    body v (store.write cl (off / v.bytesPerSec)
        ((store.sector cl (off / v.bytesPerSec)).copy (off % v.bytesPerSec) 32 data)) cl =
      (body v store cl).copy off 32 data := by
  funext index
  rw [body]
  by_cases inside : off ≤ index ∧ index < off + 32
  · rcases slot_div shape aligned (show index - off < 32 by omega) with ⟨quotient, remainder⟩
    rw [show off + (index - off) = index by omega] at quotient remainder
    rw [quotient, ClusterStore.write_sector_same, remainder,
      Buffer.copy_inside (by omega) (by omega), Buffer.copy_inside inside.1 inside.2]
    congr 1
    omega
  · rw [Buffer.copy_outside (by omega)]
    by_cases sameSector : index / v.bytesPerSec = off / v.bytesPerSec
    · rw [sameSector, ClusterStore.write_sector_same, Buffer.copy_outside, body, sameSector]
      have left := Nat.div_add_mod index v.bytesPerSec
      have right := Nat.div_add_mod off v.bytesPerSec
      rw [sameSector] at left
      omega
    · rw [ClusterStore.write_sector_other (.inr sameSector), body]

/-- Only the bytes of one cluster have changed. -/
structure Patched (v : Vol) (before after : ClusterStore) (cl offset count : Nat)
    (data : Buffer) : Prop where
  links : after.next = before.next
  others : ∀ other, other ≠ cl → after.sector other = before.sector other
  patch : body v after cl = (body v before cl).copy offset count data

theorem exfatWriteEntry_healthy (sectors : Nat → Buffer) {cl off : Nat}
    (range : DataCluster (v.exfatClusterCount + 2) cl) (aligned : 32 ∣ off)
    (inside : off < v.clusterBytes) (data : Buffer) :
    ∃ sectors', exfatWriteEntry v cl off data (Device.healthy sectors) =
        some (0, Device.healthy sectors') ∧
      Patched v (exfatView v sectors) (exfatView v sectors') cl off 32 data ∧
      ExfatConfined v sectors sectors' := by
  have stored := shape.geometry.view_store sectors
    (((exfatView v sectors).sector cl (off / v.bytesPerSec)).copy (off % v.bytesPerSec) 32 data)
    range (offset_sector_lt inside)
  refine ⟨store sectors (u32 (clusToLba v cl + off / v.bytesPerSec))
    (((exfatView v sectors).sector cl (off / v.bytesPerSec)).copy (off % v.bytesPerSec) 32
      data), ?_, ?_, ?_⟩
  · rw [exfatWriteEntry, DiskM.bind_run (rd_slot shape sectors range inside)]
    rfl
  · rw [exfatView, exfatView, stored]
    refine ⟨rfl, ?_, body_write_slot shape _ cl aligned data⟩
    intro other different
    funext index
    exact ClusterStore.write_sector_other (.inl different)
  · exact .store_cluster shape.geometry _ range (offset_sector_lt inside)

omit shape in
theorem Patched.trans {store middle after : ClusterStore} {cl offset count : Nat}
    {set : Buffer} (first : Patched v store middle cl offset count set)
    (second : Patched v middle after cl (offset + count) 32 fun index => set (count + index)) :
    Patched v store after cl offset (count + 32) set := by
  refine ⟨second.links.trans first.links, ?_, ?_⟩
  · intro other different
    rw [second.others other different, first.others other different]
  · rw [second.patch, first.patch]
    funext index
    by_cases later : offset + count ≤ index ∧ index < offset + count + 32
    · rw [Buffer.copy_inside later.1 later.2, Buffer.copy_inside (by omega) (by omega)]
      congr 1
      omega
    · rw [Buffer.copy_outside (by omega)]
      by_cases earlier : offset ≤ index ∧ index < offset + count
      · rw [Buffer.copy_inside earlier.1 earlier.2, Buffer.copy_inside (by omega) (by omega)]
      · rw [Buffer.copy_outside (by omega), Buffer.copy_outside (by omega)]

theorem writeEntries_healthy {sectors middle : Nat → Buffer} {cl start : Nat} (set : Buffer)
    (range : DataCluster (v.exfatClusterCount + 2) cl) (aligned : 32 ∣ start) (count i : Nat)
    (fits : start + (i + count) * 32 ≤ v.clusterBytes)
    (state : Patched v (exfatView v sectors) (exfatView v middle) cl start (i * 32) set) :
    ∃ sectors', writeEntries v cl start set count i (Device.healthy middle) =
        some (0, Device.healthy sectors') ∧
      Patched v (exfatView v sectors) (exfatView v sectors') cl start ((i + count) * 32)
        set ∧ ExfatConfined v middle sectors' := by
  induction count generalizing i middle with
  | zero => exact ⟨middle, rfl, state, .refl _ _ _⟩
  | succ count induction =>
      have slotAligned : 32 ∣ start + i * 32 := Nat.dvd_add aligned (Nat.dvd_mul_left 32 i)
      rcases exfatWriteEntry_healthy shape middle range slotAligned (by omega)
        (fun index => set (i * 32 + index)) with ⟨written, ran, step, confined⟩
      have state' := state.trans step
      rw [show i * 32 + 32 = (i + 1) * 32 by omega] at state'
      rcases induction (i + 1) (by omega) state' with ⟨sectors', restRan, final, confined'⟩
      refine ⟨sectors', ?_, ?_, confined.trans confined'⟩
      · rw [writeEntries, DiskM.bind_run ran, if_neg (by simp)]
        exact restRan
      · rw [show i + (count + 1) = i + 1 + count by omega]
        exact final

/-- The bytes of a set as they are stored. -/
def sealed (set : Buffer) (total : Nat) : Buffer :=
  set.putU16 2 (exfatChecksumEntries set total)

theorem exfatWriteEntrySet_healthy (sectors : Nat → Buffer) {cl start total : Nat}
    (set : Buffer) (range : DataCluster (v.exfatClusterCount + 2) cl) (aligned : 32 ∣ start)
    (short : total ≤ 40) (fits : start + total * 32 ≤ v.clusterBytes) :
    ∃ sectors', exfatWriteEntrySet v cl start set total (Device.healthy sectors) =
        some (0, Device.healthy sectors') ∧
      Patched v (exfatView v sectors) (exfatView v sectors') cl start (total * 32)
        (sealed set total) ∧ ExfatConfined v sectors sectors' := by
  have begin : Patched v (exfatView v sectors) (exfatView v sectors) cl start (0 * 32)
      (sealed set total) := by
    refine ⟨rfl, fun _ _ => rfl, ?_⟩
    funext index
    rw [Buffer.copy_outside (by omega)]
  rcases writeEntries_healthy shape (sealed set total) range aligned total 0 (by omega) begin with
    ⟨sectors', ran, patched, confined⟩
  rw [Nat.zero_add] at patched
  refine ⟨sectors', ?_, patched, confined⟩
  rw [exfatWriteEntrySet, if_neg (by omega)]
  exact ran

end

end ParanOS

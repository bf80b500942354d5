import ParanOS.Exfat.Faults
import ParanOS.Exfat.Straddle

/-! # What a change to a directory does to its other entry sets

`exfat_create_entry` writes a new set into slots that `exfat_find_free_set` takes for
free, or into a cluster by which it extends the directory. `exfat_update_entry` writes
over the set that a lookup has found. The new cluster may be too small for the set. Then
the rest of the set goes over the cluster behind it, which the directory may hold.
-/

namespace ParanOS

open Foundation

/-! ## Entry sets in use -/

/-- A type that begins a set: in use (bit 7) and not secondary (bit 6). -/
def Primary (type : UInt8) : Prop := 0x80 ≤ type ∧ type < 0xC0

instance (type : UInt8) : Decidable (Primary type) := inferInstanceAs (Decidable (_ ∧ _))

/-- The number of slots of the set that begins in a slot. Files have secondary entries. -/
def setSlots (v : Vol) (store : ClusterStore) (cl j : Nat) : Nat :=
  if slotType v store cl j = exfatEntryFile then (body v store cl (32 * j + 1)).toNat + 1 else 1

/-- A set in use that lies within one cluster. Behind its first slot none begins another set. -/
structure InUseSet (v : Vol) (store : ClusterStore) (cl j : Nat) : Prop where
  primary : Primary (slotType v store cl j)
  whole : j + setSlots v store cl j ≤ v.slots
  apart : ∀ i < setSlots v store cl j, 0 < i → ¬ Primary (slotType v store cl (j + i))

/-- A slot has the bytes it had. -/
def SlotKept (v : Vol) (store store' : ClusterStore) (cl j : Nat) : Prop :=
  ∀ index < 32, body v store' cl (32 * j + index) = body v store cl (32 * j + index)

/-- All slots of a set have the bytes they had. -/
def SetKept (v : Vol) (store store' : ClusterStore) (cl j : Nat) : Prop :=
  ∀ i < setSlots v store cl j, SlotKept v store store' cl (j + i)

section

variable {v : Vol} {store store' : ClusterStore} {cl j : Nat}

theorem setSlots_pos : 0 < setSlots v store cl j := by
  rw [setSlots]
  split <;> omega

theorem SlotKept.of_body (same : body v store' cl = body v store cl) :
    SlotKept v store store' cl j := by
  intro index _
  rw [same]

/-- Slots beside the ones written keep their bytes. -/
theorem SlotKept.of_copy {start count : Nat} {data : Buffer}
    (patch : body v store' cl = (body v store cl).copy (32 * start) (count * 32) data)
    (beside : j < start ∨ start + count ≤ j) : SlotKept v store store' cl j := by
  intro index below
  rw [patch, Buffer.copy_outside (by omega)]

/-- The type in a slot that was written. -/
theorem slotType_of_copy {start count i : Nat} {data : Buffer}
    (patch : body v store' cl = (body v store cl).copy (32 * start) (count * 32) data)
    (inside : i < count) : slotType v store' cl (start + i) = data (i * 32) := by
  rw [slotType, patch, Buffer.copy_inside (by omega) (by omega)]
  congr 1
  omega

/-- A set whose first slot no longer begins a set is not kept. -/
theorem SetKept.primary_after (kept : SetKept v store store' cl j)
    (set : InUseSet v store cl j) : Primary (slotType v store' cl j) := by
  have first := kept 0 setSlots_pos 0 (by omega)
  rw [Nat.add_zero, Nat.add_zero] at first
  rw [slotType, first]
  exact set.primary

/-- What is written over slots that no set covers keeps the sets. -/
theorem SetKept.of_copy {start count : Nat} {data : Buffer}
    (patch : body v store' cl = (body v store cl).copy (32 * start) (count * 32) data)
    (beside : ∀ i < setSlots v store cl j, j + i < start ∨ start + count ≤ j + i) :
    SetKept v store store' cl j := by
  intro i below
  exact .of_copy patch (beside i below)

/-- A set that covers a slot behind its first one does not have a set begin there. -/
theorem InUseSet.begin_of_primary (set : InUseSet v store cl j) {slot : Nat}
    (primary : Primary (slotType v store cl slot)) (lower : j ≤ slot)
    (upper : slot < j + setSlots v store cl j) : slot = j := by
  by_contra different
  have behind := set.apart (slot - j) (by omega) (by omega)
  rw [show j + (slot - j) = slot by omega] at behind
  exact behind primary

end

/-! ## Entries of a written set -/

theorem builtSet_later {name : List UInt8} {first size i : Nat} {isDir : Bool} (behind : 0 < i)
    (inside : i < entriesFor name) : ¬ Primary (builtSet name first size isDir (i * 32)) := by
  by_cases stream : i = 1
  · rw [stream, Nat.one_mul, builtSet_stream]
    decide
  · rw [builtSet_nameType name first size isDir (by omega) inside]
    decide

/-- None of the entries of a written set counts as free. -/
theorem builtSet_taken {name : List UInt8} {first size i : Nat} {isDir : Bool}
    (inside : i < entriesFor name) : builtSet name first size isDir (i * 32) ≠ 0x00 ∧
      builtSet name first size isDir (i * 32) ≠ 0xFF := by
  by_cases file : i = 0
  · rw [file, Nat.zero_mul, builtSet_type]
    decide
  · by_cases stream : i = 1
    · rw [stream, Nat.one_mul, builtSet_stream]
      decide
    · rw [builtSet_nameType name first size isDir (by omega) inside]
      decide

/-- The driver reads at most as many characters as the set says. -/
theorem collectName_short (set : Buffer) {nameLen : Nat} (entries : List Nat) {name : List UInt8}
    (short : name.length ≤ nameLen) : (collectName set nameLen entries name).length ≤ nameLen := by
  induction entries generalizing name with
  | nil => exact short
  | cons entry rest induction =>
      rw [collectName]
      split
      · exact short
      · split
        · exact induction short
        · apply induction
          rw [List.length_append, List.length_map, List.length_range]
          omega

theorem exfatParseFileSet_short {set : Buffer} {secondary : Nat} {name : List UInt8}
    {info : EntryInfo} (parsed : exfatParseFileSet set secondary = some (name, info)) :
    name.length ≤ 255 := by
  rw [exfatParseFileSet] at parsed
  split at parsed
  · cases parsed
  · split at parsed
    · cases parsed
    · simp only [Option.some.injEq, Prod.mk.injEq] at parsed
      have read := collectName_short set (List.range' 2 (secondary - 1))
        (show ([] : List UInt8).length ≤ (set 35).toNat by simp)
      have byte := (set 35).toNat_lt
      rw [← parsed.1]
      omega

/-- A set found by its name has room for the set that is written for the name. -/
theorem entriesFor_found {v : Vol} {store : ClusterStore} {place : Place} {want name : List UInt8}
    {info : EntryInfo} (found : setAt v store place = some (name, info))
    (same : sameName want name = true) : want.length ≤ 255 ∧
      entriesFor want ≤ (body v store place.cl (place.off + 1)).toNat + 1 := by
  have set : IsSet v store place := by simp [IsSet, found]
  rcases isSet_iff.mp set with ⟨file, positive, few, inside, _⟩
  have entries := sameName_entries same (by omega) (setAt_info found).2.2
  simp only [setAt] at found
  rw [if_neg (by simpa using file), if_neg (by omega), if_neg (by omega),
    if_neg (by omega)] at found
  have limit := exfatParseFileSet_short found
  have equal := congrArg List.length (of_decide_eq_true same)
  rw [List.length_map, List.length_map] at equal
  have shorter : (name.takeWhile (· ≠ 0)).length ≤ name.length :=
    (List.takeWhile_sublist _).length_le
  exact ⟨by omega, entries⟩

/-! ## Writing over a set -/

theorem writeEntries_unnoted (v : Vol) (cl start : Nat) (set : Buffer) (count i : Nat) :
    writeEntries v.unnoted cl start set count i = writeEntries v cl start set count i := by
  induction count generalizing i with
  | zero => rfl
  | succ count induction =>
      rw [writeEntries, writeEntries]
      simp only [induction]
      rfl

theorem SameLayout.exfatUpdateEntry {v v' : Vol} (same : SameLayout v v') :
    exfatUpdateEntry v' = ParanOS.exfatUpdateEntry v := by
  have unnoted : ∀ v : Vol, ParanOS.exfatUpdateEntry v.unnoted = ParanOS.exfatUpdateEntry v := by
    intro v
    funext info name first bytes isDir
    simp only [ParanOS.exfatUpdateEntry, exfatWriteEntrySet, writeEntries_unnoted]
  rw [← unnoted, same, unnoted]

/-! ## Clusters for a new set -/

/-- The volume has the clusters that a content of this size takes. -/
def Granted (v : Vol) (store : ClusterStore) (bytes : Nat) : Prop :=
  bytes = 0 ∨ clustersNeeded v bytes ≠ 0 ∧ clustersNeeded v bytes ≤ (freeList v store).length

section

variable {v : Vol} (shape : ExfatGeometry v) {writes : Bool} {sectors : Nat → Buffer}
  {bitmap : List Nat} (known : KnownBitmap v (exfatView v sectors) bitmap)
include shape known

theorem allocContent_runs {fuel : Nat} (enough : v.exfatClusterCount + 2 < fuel) (isDir : Bool)
    (data : List UInt8) :
    Runs ⟨false, writes⟩ (allocContent v fuel isDir data) sectors fun result sectors' =>
      InUseKept bitmap (exfatView v sectors) (exfatView v sectors') ∧
      Relinked v sectors sectors' ∧
      (result = none ∧ (writes = true ∨ ¬ Granted v (exfatView v sectors)
          (if isDir then v.clusterBytes else data.length)) ∨
        (∃ first members, result = some first ∧
          Readied v (exfatView v sectors) (exfatView v sectors') first members
            (clustersNeeded v (if isDir then v.clusterBytes else data.length)) ∧
          ((if isDir then v.clusterBytes else data.length) ≠ 0 → first ≠ 0) ∧
          (data = [] → first ≠ 0 →
            writes = true ∨ ∀ off < v.clusterBytes, body v (exfatView v sectors') first off = 0)) ∧
          Granted v (exfatView v sectors) (if isDir then v.clusterBytes else data.length) ∧
          freeList v (exfatView v sectors') = (freeList v (exfatView v sectors)).drop
            (clustersNeeded v (if isDir then v.clusterBytes else data.length))) := by
  rw [allocContent]
  generalize (if isDir then v.clusterBytes else data.length) = bytes
  apply Runs.ite
  · intro positive
    apply (exfatAllocChainForSize_runs shape enough known bytes).bind
    intro first middle outcome
    rcases outcome with ⟨relinked, ⟨rfl, kept, reason⟩ | ⟨occupied, needed, all, length, state⟩⟩
    · rw [if_pos rfl]
      refine .pure ⟨kept, relinked, .inl ⟨rfl, reason.imp_right ?_⟩⟩
      intro refused granted
      rcases granted with empty | ⟨needed, room⟩
      · omega
      · omega
    · rw [if_neg occupied]
      rcases state.start with ⟨_, vacant⟩ | ⟨member, members, linked, inside⟩
      · exact absurd vacant occupied
      have room := state.length_le
      have left := state.freeList_after
      rw [length] at left room
      -- whatever is written into the clusters taken
      have finish : ∀ filled, ClusterStore.Undisturbed (fun _ => True) (· ∉ all)
          (exfatView v middle) (exfatView v filled) →
          InUseKept bitmap (exfatView v sectors) (exfatView v filled) ∧
            Readied v (exfatView v sectors) (exfatView v filled) first members
              (clustersNeeded v bytes) ∧
            freeList v (exfatView v filled) =
              (freeList v (exfatView v sectors)).drop (clustersNeeded v bytes) := by
        intro filled stored
        have readied := state.readied shape member linked inside fun cl => stored.next cl trivial
        rw [length] at readied
        refine ⟨state.inUseKept (fun _ member => member) stored, readied, ?_⟩
        rw [← left]
        exact ClusterStore.free_congr fun cl _ => stored.next cl trivial
      apply Runs.ite
      · intro some
        apply (exfatWriteChain_runs shape linked
          (fun cl inChain => state.data shape (inside cl inChain))
          (state.length_lt shape enough linked inside) data).bind
        intro code filled stored
        have done := finish filled (stored.1.mono (fun _ kept => kept) fun cl outside inChain =>
          outside (inside cl inChain))
        exact .pure ⟨done.1, relinked.trans stored.2.1, .inr ⟨⟨first, members, rfl, done.2.1,
          fun _ => occupied, fun none => absurd none some⟩, .inr ⟨needed, room⟩, done.2.2⟩⟩
      · intro _
        apply (exfatZeroCluster_runs shape middle (state.data shape member)).bind
        intro code filled stored
        have done := finish filled (stored.1.mono (fun _ kept => kept) fun cl outside equal =>
          outside (equal ▸ member))
        exact .pure ⟨done.1, relinked.trans stored.2.1, .inr ⟨⟨first, members, rfl, done.2.1,
          fun _ => occupied, fun _ _ => stored.2.2⟩, .inr ⟨needed, room⟩, done.2.2⟩⟩
  · intro none
    have empty : bytes = 0 := by omega
    refine .pure ⟨.refl _ _ _, .refl _ _, .inr ⟨⟨0, [], rfl, ⟨.empty rfl, by simp, Nat.zero_le _⟩,
      fun nonzero => absurd empty nonzero, fun _ occupied => absurd rfl occupied⟩, .inl empty, ?_⟩⟩
    rw [empty, clustersNeeded_zero shape]
    rfl

/-- A cluster of zeros hangs behind another one and ends its chain. -/
structure Attached (v : Vol) (store : ClusterStore) (prev target : Nat) : Prop where
  ends : store.next target = eocMark
  linked : prev ≠ target → store.next prev = target
  blank : ∀ off < v.clusterBytes, body v store target off = 0x00

/-- The cluster by which a directory is extended is the first of the free list. -/
theorem extendDirectory_runs {prev : Nat} (data : DataCluster (v.exfatClusterCount + 2) prev)
    (running : ¬ EndOfChain prev) :
    Runs ⟨false, writes⟩ (extendDirectory v prev) sectors fun result sectors' =>
      result = none ∧ sectors' = sectors ∧
        (writes = true ∨ freeList v (exfatView v sectors) = []) ∨
      ∃ target later, result = some (target, 0) ∧
        freeList v (exfatView v sectors) = target :: later ∧
        ClusterStore.Undisturbed (fun cl => cl ≠ target ∧ cl ≠ prev)
          (fun cl => cl ∉ bitmap ∧ cl ≠ target) (exfatView v sectors) (exfatView v sectors') ∧
        Relinked v sectors sectors' ∧
        (writes = true ∨ Attached v (exfatView v sectors') prev target) := by
  rw [extendDirectory]
  apply (exfatAllocCluster_runs shape known).bind
  intro target claimed outcome
  rcases outcome with ⟨rfl, rfl, reason⟩ | ⟨fresh, ⟨later, first⟩, _, step, relinked⟩
  · exact .pure (.inl ⟨rfl, rfl, reason⟩)
  · rw [if_neg fresh.ne_zero]
    have small := (endOfChain_iff target).not.mp fresh.running
    have whole : target % 268435456 = target := Nat.mod_eq_of_lt (by omega)
    have link : ∀ {sectors₀ : Nat → Buffer} {clus val : Nat}, (clus = prev ∨ clus = target) →
        LinkValue (v.exfatClusterCount + 2) (val % 268435456) →
        Runs ⟨false, writes⟩ (fatWriteFatEntry v clus val) sectors₀ fun _ sectors' =>
          ClusterStore.Undisturbed (fun cl => cl ≠ target ∧ cl ≠ prev)
            (fun cl => cl ∉ bitmap ∧ cl ≠ target) (exfatView v sectors₀)
            (exfatView v sectors') ∧ Relinked v sectors₀ sectors' ∧
          (writes = true ∨
            exfatView v sectors' = (exfatView v sectors₀).link clus (val % 268435456)) := by
      intro sectors₀ clus val which value
      have range : clus < v.exfatClusterCount + 2 ∧ ¬ EndOfChain clus := by
        rcases which with rfl | rfl
        · exact ⟨data.2, running⟩
        · exact ⟨fresh.data.2, fresh.running⟩
      apply (fatWriteFatEntry_view shape sectors₀ range.1 range.2 value).mono
      intro code sectors' written
      rcases written with ⟨relinked', ⟨_, rfl, may⟩ | ⟨_, linked⟩⟩
      · exact ⟨.refl _ _ _, relinked', .inl may⟩
      · refine ⟨?_, relinked', .inr linked⟩
        rw [linked]
        apply ClusterStore.Undisturbed.link
        rintro ⟨notTarget, notPrev⟩
        rcases which with rfl | rfl
        · exact notPrev rfl
        · exact notTarget rfl
    apply (link (.inl rfl) (show LinkValue _ (target % 268435456) from
      whole.symm ▸ .inr (.inl fresh.data))).bind
    intro _ linked afterLink
    apply (link (.inr rfl) (linkValue_eocMark _)).bind
    intro _ marked afterMark
    apply (exfatZeroCluster_runs shape marked fresh.data).bind
    intro _ sectors' zeroed
    refine .pure (.inr ⟨target, later, rfl, first, ?_, ?_, ?_⟩)
    · have claim := step.mono (fun cl (both : cl ≠ target ∧ cl ≠ prev) => both.1)
        fun cl (both : cl ∉ bitmap ∧ cl ≠ target) => both.1
      exact claim.trans (afterLink.1.trans (afterMark.1.trans
        (zeroed.1.mono (fun _ _ => trivial) fun _ both => both.2)))
    · exact ((relinked.trans afterLink.2.1).trans afterMark.2.1).trans zeroed.2.1
    · rcases afterLink.2.2 with may | linking
      · exact .inl may
      rcases afterMark.2.2 with may | marking
      · exact .inl may
      refine zeroed.2.2.imp_right fun blank => ⟨?_, ?_, blank⟩
      · rw [zeroed.1.next target trivial, marking, ClusterStore.link_next_same]
        rfl
      · intro different
        rw [zeroed.1.next prev trivial, marking, ClusterStore.link_next_other different, linking,
          ClusterStore.link_next_same, whole]

end

/-- The first member with a property is unique. -/
theorem first_unique {α : Type} {p : α → Prop} {first second : α}
    {before after before' after' : List α}
    (split : before ++ first :: after = before' ++ second :: after')
    (none : ∀ other ∈ before, ¬ p other) (none' : ∀ other ∈ before', ¬ p other)
    (holds : p first) (holds' : p second) : first = second := by
  induction before generalizing before' with
  | nil =>
      cases before' with
      | nil => exact (List.cons.inj split).1
      | cons head rest =>
          have equal := (List.cons.inj split).1
          exact absurd (equal ▸ holds) (none' head (by simp))
  | cons head rest induction =>
      cases before' with
      | nil =>
          have equal := (List.cons.inj split).1
          exact absurd (equal ▸ holds') (none head (by simp))
      | cons head' rest' =>
          exact induction (List.cons.inj split).2
            (fun other member => none other (by simp [member]))
            fun other member => none' other (by simp [member])

/-! ## A set longer than a cluster -/

section

variable {v : Vol}

/-- The rest of a set after its first entries. -/
theorem writeEntries_rest {cl start : Nat} {set : Buffer} {first i : Nat} {device device' : Device}
    (second : Nat) (ran : writeEntries v cl start set first i device = some (0, device')) :
    writeEntries v cl start set (first + second) i device =
      writeEntries v cl start set second (i + first) device' := by
  induction first generalizing i device with
  | zero =>
      cases ran
      rw [Nat.zero_add]
      rfl
  | succ first induction =>
      rcases DiskM.of_bind ran with ⟨code, middle, entry, later⟩
      by_cases failed : code ≠ 0
      · rw [if_pos failed] at later
        cases later
      · rw [if_neg failed] at later
        rw [Nat.add_right_comm, writeEntries, DiskM.bind_run entry, if_neg failed, induction later,
          Nat.add_right_comm, Nat.add_assoc]

variable (shape : ExfatGeometry v) {cl : Nat} (data : DataCluster (v.exfatClusterCount + 2) cl)
  (next : DataCluster (v.exfatClusterCount + 2) (cl + 1))
include shape data next

/-- Behind the end of a cluster the entries go into the next cluster on the device. -/
theorem exfatWriteEntry_behind (off : Nat) (entry : Buffer) :
    exfatWriteEntry v cl (v.clusterBytes + off) entry = exfatWriteEntry v (cl + 1) off entry := by
  have positive := shape.geometry.sector_pos
  have quotient : (v.clusterBytes + off) / v.bytesPerSec = v.secPerClus + off / v.bytesPerSec := by
    rw [Vol.clusterBytes, Nat.mul_add_div positive]
  have remainder : (v.clusterBytes + off) % v.bytesPerSec = off % v.bytesPerSec := by
    rw [Vol.clusterBytes, Nat.mul_add_mod]
  have address : clusToLba v cl + (v.secPerClus + off / v.bytesPerSec) =
      clusToLba v (cl + 1) + off / v.bytesPerSec := by
    have lower := data.1
    rw [shape.geometry.clusToLba_eq data, shape.geometry.clusToLba_eq next,
      show cl + 1 - 2 = cl - 2 + 1 by omega, Nat.add_mul, Nat.one_mul]
    omega
  simp only [exfatWriteEntry, quotient, remainder, address]

theorem writeEntries_behind (set : Buffer) (count i : Nat) :
    writeEntries v cl 0 set count (v.slots + i) =
      writeEntries v (cl + 1) 0 (fun index => set (v.clusterBytes + index)) count i := by
  have slots := shape.slots_eq
  induction count generalizing i with
  | zero => rfl
  | succ count induction =>
      have here : (v.slots + i) * 32 = v.clusterBytes + i * 32 := by omega
      simp only [writeEntries, Nat.zero_add, here, Nat.add_assoc v.slots i 1, induction,
        exfatWriteEntry_behind shape data next, Nat.add_assoc]

/-- The entries that the cluster has no slots for go over the beginning of the next one. -/
theorem exfatWriteEntrySet_spills (sectors : Nat → Buffer) {total : Nat} (set : Buffer)
    (more : v.slots < total) (few : total ≤ 40) (rest : total ≤ v.slots + v.slots) :
    ∃ sectors', exfatWriteEntrySet v cl 0 set total (Device.healthy sectors) =
        some (0, Device.healthy sectors') ∧
      ExfatConfined v sectors sectors' ∧
      (exfatView v sectors').next = (exfatView v sectors).next ∧
      (∀ other, other ≠ cl → other ≠ cl + 1 →
        (exfatView v sectors').sector other = (exfatView v sectors).sector other) ∧
      body v (exfatView v sectors') cl =
        (body v (exfatView v sectors) cl).copy 0 (v.slots * 32) (sealed set total) ∧
      body v (exfatView v sectors') (cl + 1) =
        (body v (exfatView v sectors) (cl + 1)).copy 0 ((total - v.slots) * 32) fun index =>
          sealed set total (v.clusterBytes + index) := by
  have slots := shape.slots_eq
  have split : total = v.slots + (total - v.slots) := by omega
  have blank : ∀ (store : ClusterStore) (cl : Nat) (entries : Buffer),
      Patched v store store cl 0 (0 * 32) entries := by
    intro store cl entries
    refine ⟨rfl, fun _ _ => rfl, ?_⟩
    funext index
    rw [Buffer.copy_outside (by omega)]
  rcases writeEntries_healthy shape (sealed set total) data (Nat.dvd_zero 32) v.slots 0 (by omega)
    (blank (exfatView v sectors) cl _) with ⟨middle, firstRan, first, confined⟩
  rcases writeEntries_healthy shape (fun index => sealed set total (v.clusterBytes + index)) next
    (Nat.dvd_zero 32) (total - v.slots) 0 (by omega) (blank (exfatView v middle) (cl + 1) _) with
    ⟨sectors', secondRan, second, confined'⟩
  refine ⟨sectors', ?_, confined.trans confined', second.links.trans first.links, ?_, ?_, ?_⟩
  · rw [exfatWriteEntrySet, if_neg (by omega)]
    have behind := writeEntries_behind shape data next (sealed set total) (total - v.slots) 0
    have whole := writeEntries_rest (total - v.slots) firstRan
    rw [Nat.add_zero] at behind
    rw [← split, Nat.zero_add, behind, secondRan] at whole
    exact whole
  · intro other notHere notNext
    rw [second.others other notNext, first.others other notHere]
  · rw [body_congr (second.others cl (by omega)), first.patch, Nat.zero_add]
  · rw [second.patch, Nat.zero_add, body_congr (first.others (cl + 1) (by omega))]

end

/-! ## Directories -/

/-- A directory as a chain of clusters, none of which holds the bitmap. Behind an unused
slot of a cluster there are only unused ones. -/
structure EntryDirectory (v : Vol) (sectors : Nat → Buffer) (start : Nat)
    (chain bitmap : List Nat) : Prop where
  shape : ExfatGeometry v
  /-- The format has no smaller sectors. -/
  sector : 512 ≤ v.bytesPerSec
  running : ¬ EndOfChain start
  dir : DirChain v (v.exfatClusterCount + 2) (exfatView v sectors) start chain
  known : KnownBitmap v (exfatView v sectors) bitmap
  outside : ∀ cl ∈ chain, cl ∉ bitmap
  ended : ∀ cl ∈ chain, ∀ j k, j ≤ k → k < v.slots →
    slotType v (exfatView v sectors) cl j = 0x00 → slotType v (exfatView v sectors) cl k = 0x00

section

variable {v : Vol} {sectors : Nat → Buffer} {start fuel : Nat} {chain bitmap : List Nat}
  (directory : EntryDirectory v sectors start chain bitmap)
include directory

theorem EntryDirectory.slots : 16 ≤ v.slots := directory.shape.slots_ge directory.sector

omit directory in
/-- Writing over a set keeps the sets that do not begin in the slots behind its first one. -/
theorem Patched.spares_iff {after : ClusterStore} {cl j total : Nat} {data : Buffer}
    (patched : Patched v (exfatView v sectors) after cl (32 * j) (total * 32) data)
    (member : cl ∈ chain) (primary : Primary (slotType v (exfatView v sectors) cl j))
    (later : ∀ i < total, 0 < i → ¬ Primary (data (i * 32))) :
    (∀ other ∈ chain, ∀ k, InUseSet v (exfatView v sectors) other k →
      (⟨other, 32 * k⟩ : Place) ≠ ⟨cl, 32 * j⟩ → SetKept v (exfatView v sectors) after other k) ↔
      ∀ i < total, 0 < i → ¬ InUseSet v (exfatView v sectors) cl (j + i) := by
  constructor
  · intro spared i below behind set
    have different : (⟨cl, 32 * (j + i)⟩ : Place) ≠ ⟨cl, 32 * j⟩ := by
      intro equal
      have offsets := congrArg Place.off equal
      simp only at offsets
      omega
    have stays := (spared cl member (j + i) set different).primary_after set
    rw [slotType_of_copy patched.patch below] at stays
    exact later i below behind stays
  · intro none other _ k set different
    by_cases here : other = cl
    · subst here
      apply SetKept.of_copy patched.patch
      intro i below
      by_contra covered
      have inside : j ≤ k + i ∧ k + i < j + total := by omega
      have apart : k ≠ j := fun equal => different (by rw [equal])
      rcases Nat.lt_or_gt_of_ne apart with before | behind
      · have begins := set.begin_of_primary primary (by omega) (by omega)
        omega
      · apply none (k - j) (by omega) (by omega)
        rw [show j + (k - j) = k by omega]
        exact set
    · intro i _
      exact .of_body (body_congr (patched.others other here))

/-- Updating the set that a lookup has found. -/
theorem exfatUpdateEntry_spares_iff {want : List UInt8} {v' : Vol} {info : EntryInfo}
    (enough : chain.length < fuel)
    (found : exfatFindInDir want fuel start v (Device.healthy sectors) =
      some ((v', .ok info), Device.healthy sectors)) (first bytes : Nat) (isDir : Bool) :
    ∃ sectors', exfatUpdateEntry v' info want first bytes isDir (Device.healthy sectors) =
        some (0, Device.healthy sectors') ∧
      entriesFor want ≤
        setSlots v (exfatView v sectors) info.dirCluster (info.dirByteOff / 32) ∧
      ((∀ cl ∈ chain, ∀ j, InUseSet v (exfatView v sectors) cl j →
        (⟨cl, 32 * j⟩ : Place) ≠ ⟨info.dirCluster, info.dirByteOff⟩ →
        SetKept v (exfatView v sectors) (exfatView v sectors') cl j) ↔
        ∀ i < entriesFor want, 0 < i →
          ¬ InUseSet v (exfatView v sectors) info.dirCluster (info.dirByteOff / 32 + i)) := by
  have shape := directory.shape
  rcases exfatFindInDir_search shape want directory.dir.linked directory.dir.data enough with
    ⟨w, same, run⟩
  rw [run] at found
  simp only [Option.some.injEq, Prod.mk.injEq, and_true] at found
  rcases found with ⟨rfl, result⟩
  rcases lookup_ok result with ⟨before, place, after, split, _, here⟩
  have member : place ∈ chainPlaces v chain := by simp [split]
  rcases verdict_ok here with ⟨name, set, read, match', rfl⟩
  rcases (mem_chainPlaces shape).mp member with ⟨inChain, aligned, inside⟩
  rcases isSet_iff.mp (show IsSet v (exfatView v sectors) place by simp [IsSet, read]) with
    ⟨file, _, _, fits, _⟩
  rcases entriesFor_found read match' with ⟨short, room⟩
  have bounds := entriesFor_le short
  rcases aligned with ⟨j, slot⟩
  rw [slot] at file fits room
  have quotient : place.off / 32 = j := by omega
  rcases exfatWriteEntrySet_healthy shape sectors (exfatBuildEntrySet want first bytes isDir)
    (directory.dir.data place.cl inChain) (Dvd.intro j rfl) (show entriesFor want ≤ 40 by omega)
    (show 32 * j + entriesFor want * 32 ≤ v.clusterBytes by omega) with ⟨sectors', ran, patched, _⟩
  have type : slotType v (exfatView v sectors) place.cl j = exfatEntryFile := file
  simp only [quotient]
  refine ⟨sectors', ?_, ?_, ?_⟩
  · rw [same.exfatUpdateEntry, exfatUpdateEntry, slot]
    exact ran
  · rw [setSlots, if_pos type]
    exact room
  · rw [slot]
    apply patched.spares_iff inChain
    · rw [type]
      decide
    · intro i below behind
      exact builtSet_later behind below

/-- A new set that is too long for the cluster by which the directory is extended goes over
a set of the cluster behind it. -/
def Spills (v : Vol) (store : ClusterStore) (chain : List Nat) (total bytes : Nat) : Prop :=
  v.slots < total ∧ Granted v store bytes ∧
    ∃ target, (freeList v store)[clustersNeeded v bytes]? = some target ∧ target + 1 ∈ chain ∧
      ∃ j, v.slots + j < total ∧ InUseSet v store (target + 1) j

/-- One of the slots belongs to a set in use. -/
def Covered (v : Vol) (store : ClusterStore) (cl j total : Nat) : Prop :=
  ∃ k i, InUseSet v store cl k ∧ i < setSlots v store cl k ∧ j ≤ k + i ∧ k + i < j + total

/-- The slots that the search takes for free belong to a set in use: it has secondary entries
of the types 0x00 or 0xFF. -/
def Overlaps (v : Vol) (store : ClusterStore) (chain : List Nat) (total bytes : Nat) : Prop :=
  Granted v store bytes ∧ ∃ before cl after j, chain = before ++ cl :: after ∧
    (∀ other ∈ before, ∀ k, ¬ Room v store other total k) ∧ Foremost v store cl total j ∧
    Covered v store cl j total

/-- All sets in use of the directory have the bytes they had. -/
def AllKept (v : Vol) (store store' : ClusterStore) (chain : List Nat) : Prop :=
  ∀ cl ∈ chain, ∀ j, InUseSet v store cl j → SetKept v store store' cl j

omit directory in
theorem AllKept.of_bodies {store store' : ClusterStore}
    (same : ∀ cl ∈ chain, body v store' cl = body v store cl) : AllKept v store store' chain :=
  fun cl member _ _ _ _ => .of_body (same cl member)

/-- Writing a set into slots that count as free. -/
theorem EntryDirectory.room_spares_iff {after : ClusterStore} {cl j total : Nat}
    {entries : Buffer} (member : cl ∈ chain) (room : Room v (exfatView v sectors) cl total j)
    (patch : body v after cl =
      (body v (exfatView v sectors) cl).copy (32 * j) (total * 32) entries)
    (taken : ∀ i < total, entries (i * 32) ≠ 0x00 ∧ entries (i * 32) ≠ 0xFF)
    (others : ∀ other ∈ chain, other ≠ cl →
      body v after other = body v (exfatView v sectors) other) :
    AllKept v (exfatView v sectors) after chain ↔
      ¬ Covered v (exfatView v sectors) cl j total := by
  have free : ∀ i < total, Reusable v (exfatView v sectors) cl (j + i) := by
    have fits := room.fits
    cases room.usable with
    | inl unused =>
        intro i below
        exact .inl (directory.ended cl member j (j + i) (by omega) (by omega) unused)
    | inr run => exact run
  constructor
  · rintro kept ⟨k, i, set, below, lower, upper⟩
    -- the type of the slot was one of a free slot and is not any more
    have stays := kept cl member k set i below 0 (by omega)
    rw [Nat.add_zero] at stays
    have written := @slotType_of_copy v _ _ cl j total (k + i - j) entries patch (by omega)
    rw [show j + (k + i - j) = k + i by omega, slotType, stays] at written
    have old := free (k + i - j) (by omega)
    rw [show j + (k + i - j) = k + i by omega] at old
    rcases old with unused | deleted
    · exact (taken (k + i - j) (by omega)).1 (written.symm.trans unused)
    · exact (taken (k + i - j) (by omega)).2 (written.symm.trans deleted)
  · intro none other inChain k set
    by_cases here : other = cl
    · subst here
      apply SetKept.of_copy patch
      intro i below
      by_contra covered
      exact none ⟨k, i, set, below, by omega, by omega⟩
    · exact fun _ _ => .of_body (others other inChain here)

omit directory in
/-- Where the search ends, the new set overlaps a set in use just if the slots are covered. -/
theorem overlaps_iff {store : ClusterStore} {cl j total bytes : Nat} {before after : List Nat}
    (granted : Granted v store bytes) (split : chain = before ++ cl :: after)
    (none : ∀ other ∈ before, ∀ k, ¬ Room v store other total k)
    (foremost : Foremost v store cl total j) :
    Overlaps v store chain total bytes ↔ Covered v store cl j total := by
  constructor
  · rintro ⟨_, before', cl', after', j', split', none', foremost', covered⟩
    have cluster := @first_unique _ (fun cl => ∃ k, Room v store cl total k) _ _ _ _ _ _
      (split.symm.trans split') (fun other member ⟨k, room⟩ => none other member k room)
      (fun other member ⟨k, room⟩ => none' other member k room) ⟨j, foremost.room⟩
      ⟨j', foremost'.room⟩
    subst cluster
    rw [foremost.unique foremost']
    exact covered
  · intro covered
    exact ⟨granted, before, cl, after, j, split, none, foremost, covered⟩

omit directory in
/-- Writing the rest of a set, too long for the new cluster, over the cluster behind it. -/
theorem spills_spares_iff {after : ClusterStore} {target total bytes : Nat} {entries : Buffer}
    (more : v.slots < total) (granted : Granted v (exfatView v sectors) bytes)
    (present : (freeList v (exfatView v sectors))[clustersNeeded v bytes]? = some target)
    (patch : target + 1 ∈ chain → body v after (target + 1) =
      (body v (exfatView v sectors) (target + 1)).copy 0 ((total - v.slots) * 32) entries)
    (later : ∀ i, v.slots + i < total → ¬ Primary (entries (i * 32)))
    (others : ∀ other ∈ chain, other ≠ target + 1 →
      body v after other = body v (exfatView v sectors) other) :
    AllKept v (exfatView v sectors) after chain ↔
      ¬ Spills v (exfatView v sectors) chain total bytes := by
  constructor
  · rintro spared ⟨_, _, target', present', inChain, j, below, set⟩
    rw [present, Option.some.injEq] at present'
    subst present'
    have stays := (spared _ inChain j set).primary_after set
    have written := @slotType_of_copy v _ _ (target + 1) 0 (total - v.slots) j entries
      (patch inChain) (by omega)
    rw [Nat.zero_add] at written
    rw [written] at stays
    exact later j below stays
  · intro none cl member j set
    by_cases behind : cl = target + 1
    · subst behind
      apply @SetKept.of_copy v _ _ (target + 1) j 0 (total - v.slots) entries (patch member)
      intro i _
      by_contra covered
      exact none ⟨more, granted, target, present, member, j, by omega, set⟩
    · exact fun _ _ => .of_body (others cl member behind)

theorem EntryDirectory.inUse {cl : Nat} (member : cl ∈ chain) :
    2 ≤ cl ∧ (exfatView v sectors).next cl ≠ 0 :=
  ⟨(directory.dir.data cl member).1, directory.dir.next_ne_zero member⟩

theorem EntryDirectory.last_mem : chain.getLastD start ∈ chain := by
  cases chain with
  | nil => exact absurd rfl (directory.dir.linked.ne_nil directory.running)
  | cons head rest =>
      rw [List.getLastD_cons]
      exact List.getLastD_mem_cons

/-! ## Behind the allocation of the content -/

section

variable {middle : Nat → Buffer}
  (kept : InUseKept bitmap (exfatView v sectors) (exfatView v middle))
include kept

theorem EntryDirectory.body_kept {cl : Nat} (member : cl ∈ chain) :
    body v (exfatView v middle) cl = body v (exfatView v sectors) cl :=
  body_congr (kept.sector cl ⟨(directory.inUse member).2, directory.outside cl member⟩)

theorem EntryDirectory.dir_kept :
    DirChain v (v.exfatClusterCount + 2) (exfatView v middle) start chain :=
  ⟨directory.dir.linked.congr fun cl member => kept.next cl (directory.inUse member),
    directory.dir.data⟩

variable {name : List UInt8} {isDir : Bool} {data : List UInt8} {first size : Nat}
  (short : name.length ≤ 255) (granted : Granted v (exfatView v sectors) size)
  (allocated : allocContent v fuel isDir data (Device.healthy sectors) =
    some (some first, Device.healthy middle))
include short granted allocated

/-- The new set goes into slots of the directory. -/
theorem EntryDirectory.create_within {before after : List Nat} {cl j : Nat}
    (split : chain = before ++ cl :: after)
    (earlier : ∀ other ∈ before, ∀ k, ¬ Room v (exfatView v middle) other (entriesFor name) k)
    (foremost : Foremost v (exfatView v middle) cl (entriesFor name) j)
    (found : exfatFindFreeSet v fuel start (entriesFor name) (Device.healthy middle) =
      some (some (cl, 32 * j), Device.healthy middle)) :
    ∃ result sectors', exfatCreateEntry v fuel start name isDir data (Device.healthy sectors) =
        some (result, Device.healthy sectors') ∧
      (AllKept v (exfatView v sectors) (exfatView v sectors') chain ↔
        ¬ Overlaps v (exfatView v sectors) chain (entriesFor name) size ∧
          ¬ Spills v (exfatView v sectors) chain (entriesFor name) size) := by
  have bytes := directory.shape.slots_eq
  have bounds := entriesFor_le short
  have member : cl ∈ chain := by simp [split]
  have room := (Room.congr (directory.body_kept kept member)).mp foremost.room
  have fits := room.fits
  rcases exfatWriteEntrySet_healthy directory.shape middle
    (exfatBuildEntrySet name first data.length isDir) (directory.dir.data cl member)
    (Nat.dvd_mul_right 32 j) (show entriesFor name ≤ 40 by omega) (by omega) with
    ⟨sectors', wrote, patched, _⟩
  refine ⟨(0, first), sectors', exfatCreateEntry_run allocated found wrote, ?_⟩
  have noRoom : ∀ other ∈ before, ∀ k,
      ¬ Room v (exfatView v sectors) other (entriesFor name) k := by
    intro other inBefore k
    rw [← Room.congr (directory.body_kept kept (by simp [split, inBefore]))]
    exact earlier other inBefore k
  have fitting : ¬ Spills v (exfatView v sectors) chain (entriesFor name) size := by
    intro spills
    have more := spills.1
    omega
  rw [overlaps_iff granted split noRoom
    ((Foremost.congr (directory.body_kept kept member)).mp foremost), and_iff_left fitting]
  apply directory.room_spares_iff member room
  · rw [patched.patch, directory.body_kept kept member]
  · intro i below
    exact builtSet_taken below
  · intro other inChain different
    rw [body_congr (patched.others other different), directory.body_kept kept inChain]

/-- The directory has no room. The new set goes into a further cluster, if there is one. -/
theorem EntryDirectory.create_behind
    (left : freeList v (exfatView v middle) =
      (freeList v (exfatView v sectors)).drop (clustersNeeded v size))
    (noRoom : ∀ cl ∈ chain, ∀ j, ¬ Room v (exfatView v middle) cl (entriesFor name) j)
    (searched : freeClusters v (entriesFor name) fuel start start (Device.healthy middle) =
      some (some (.inl (chain.getLastD start)), Device.healthy middle)) :
    ∃ result sectors', exfatCreateEntry v fuel start name isDir data (Device.healthy sectors) =
        some (result, Device.healthy sectors') ∧
      (AllKept v (exfatView v sectors) (exfatView v sectors') chain ↔
        ¬ Overlaps v (exfatView v sectors) chain (entriesFor name) size ∧
          ¬ Spills v (exfatView v sectors) chain (entriesFor name) size) := by
  have shape := directory.shape
  have slots := directory.slots
  have bytes := shape.slots_eq
  have bounds := entriesFor_le short
  have dir := directory.dir_kept kept
  have last := directory.last_mem
  have apart : ¬ Overlaps v (exfatView v sectors) chain (entriesFor name) size := by
    rintro ⟨_, before, cl, after, j, split, _, foremost, _⟩
    have member : cl ∈ chain := by simp [split]
    exact noRoom cl member j
      ((Room.congr (directory.body_kept kept member)).mpr foremost.room)
  rw [and_iff_right apart]
  rcases (extendDirectory_runs shape (directory.known.inUse kept.next) (dir.data _ last)
    (dir.linked.not_stop last)).healthy with ⟨place, extended, extendRan, outcome⟩
  have found : exfatFindFreeSet v fuel start (entriesFor name) (Device.healthy middle) =
      some (place, Device.healthy extended) := by
    rw [exfatFindFreeSet, DiskM.bind_run searched]
    exact extendRan
  rcases outcome with ⟨rfl, rfl, full⟩ | ⟨target, later, rfl, list, stays, _⟩
  · have none := full.resolve_left Bool.false_ne_true
    rw [left, List.drop_eq_nil_iff] at none
    refine ⟨(-3, 0), _, exfatCreateEntry_full allocated found, ?_⟩
    apply iff_of_true (.of_bodies fun cl member => directory.body_kept kept member)
    rintro ⟨_, _, target, present, _⟩
    rw [List.getElem?_eq_none none] at present
    cases present
  have free := mem_freeList.mp (show target ∈ freeList v (exfatView v middle) by
    rw [list]
    simp)
  have limit := shape.maxClusters_le
  have targetData : DataCluster (v.exfatClusterCount + 2) target := ⟨free.1, by omega⟩
  have different : ∀ cl ∈ chain, cl ≠ target := fun cl member equal =>
    dir.next_ne_zero member (equal ▸ free.2.2)
  have bodies : ∀ cl ∈ chain,
      body v (exfatView v extended) cl = body v (exfatView v sectors) cl := by
    intro cl member
    rw [body_congr (stays.sector cl ⟨directory.outside cl member, different cl member⟩),
      directory.body_kept kept member]
  by_cases more : v.slots < entriesFor name
  · have nextData : DataCluster (v.exfatClusterCount + 2) (target + 1) :=
      ⟨by omega, by omega⟩
    rcases exfatWriteEntrySet_spills shape targetData nextData extended
      (exfatBuildEntrySet name first data.length isDir) more (by omega) (by omega) with
      ⟨sectors', wrote, _, _, others, _, patch⟩
    refine ⟨(0, first), sectors', exfatCreateEntry_run allocated found wrote, ?_⟩
    apply spills_spares_iff more granted
    · rw [← List.head?_drop, ← left, list]
      rfl
    · intro member
      rw [patch, bodies _ member]
    · intro i below
      rw [show v.clusterBytes + i * 32 = (v.slots + i) * 32 by omega]
      exact builtSet_later (by omega) below
    · intro cl member behind
      rw [body_congr (others cl (different cl member) behind), bodies cl member]
  · rcases exfatWriteEntrySet_healthy shape extended
      (exfatBuildEntrySet name first data.length isDir) targetData (Nat.dvd_zero 32)
      (show entriesFor name ≤ 40 by omega) (by omega) with ⟨sectors', wrote, patched, _⟩
    refine ⟨(0, first), sectors', exfatCreateEntry_run allocated found wrote, ?_⟩
    have same : ∀ cl ∈ chain,
        body v (exfatView v sectors') cl = body v (exfatView v sectors) cl := by
      intro cl member
      rw [body_congr (patched.others cl (different cl member)), bodies cl member]
    exact iff_of_true (.of_bodies same) fun spills => more spills.1

end

/-- A new set spares the sets of the directory unless the slots that it takes belong to one, or
it is longer than a cluster and spills. -/
theorem exfatCreateEntry_spares_iff (enough : v.exfatClusterCount + 2 < fuel)
    {name : List UInt8} (short : name.length ≤ 255) (isDir : Bool) (data : List UInt8) :
    ∃ result sectors', exfatCreateEntry v fuel start name isDir data (Device.healthy sectors) =
        some (result, Device.healthy sectors') ∧
      (AllKept v (exfatView v sectors) (exfatView v sectors') chain ↔
        ¬ Overlaps v (exfatView v sectors) chain (entriesFor name)
            (if isDir then v.clusterBytes else data.length) ∧
          ¬ Spills v (exfatView v sectors) chain (entriesFor name)
            (if isDir then v.clusterBytes else data.length)) := by
  have bounds := entriesFor_le short
  rcases (allocContent_runs directory.shape directory.known enough isDir data).healthy with
    ⟨content, middle, allocated, kept, _, outcome⟩
  generalize (if isDir then v.clusterBytes else data.length) = size at outcome ⊢
  rcases outcome with ⟨rfl, refused⟩ | ⟨⟨first, _, rfl, _⟩, granted, left⟩
  · have notGranted := refused.resolve_left Bool.false_ne_true
    exact ⟨(-2, 0), middle, createEntry_refused allocated,
      iff_of_true (.of_bodies fun cl member => directory.body_kept kept member)
        ⟨fun overlaps => notGranted overlaps.1, fun spills => notGranted spills.2.1⟩⟩
  have dir := directory.dir_kept kept
  rcases freeClusters_healthy directory.shape start (show 0 < entriesFor name by omega)
    dir.linked dir.data (Nat.lt_of_le_of_lt dir.length_lt enough) with
    ⟨found, searched, search, foremost⟩
  cases search with
  | @room before cl after j split earlier place =>
      apply directory.create_within kept short granted allocated split earlier (foremost cl j rfl)
      rw [exfatFindFreeSet, DiskM.bind_run searched]
      rfl
  | full noRoom =>
      exact directory.create_behind kept short granted allocated left noRoom searched

omit directory in
/-- Where a set in use begins, no other one begins in its slots. -/
theorem InUseSet.alone {store : ClusterStore} {cl j i : Nat} (set : InUseSet v store cl j)
    (behind : 0 < i) (inside : i < setSlots v store cl j) : ¬ InUseSet v store cl (j + i) :=
  fun other => set.apart i inside behind other.primary

end

/-! ## A directory behind a free cluster -/

/-- The directory `D` of the root is cluster 6 and holds the file `B`. Cluster 5 is free. -/
def spillImage : Nat → Buffer := fun lba =>
  if lba = 1 then Buffer.putU32 (Buffer.putU32 (Buffer.putU32 (Buffer.putU32 (fun _ => 0)
    8 eocMark) 12 eocMark) 16 eocMark) 24 eocMark
  else if lba = 3 then Buffer.putU8 (fun _ => 0) 0 0x17
  else if lba = 4 then fun index =>
    if index < 32 then exfatImage 6 4 index
    else if index < 128 then builtSet [0x44] 6 0 true (index - 32)
    else 0
  else if lba = 6 then fun index =>
    if index < 96 then builtSet [0x42] 2 5 false index else 0
  else fun _ => 0

theorem spillImage_directory : EntryDirectory exfatVol spillImage 6 [6] [3] where
  shape := exfatVol_shape
  sector := by decide
  running := by decide
  dir := by
    refine ⟨.single (by decide) (by decide), ?_⟩
    intro cl member
    rw [List.mem_singleton.mp member]
    exact ⟨by decide, by decide⟩
  known := by
    refine .inr ⟨.single (by decide) (by decide), ?_, by decide, by decide, by decide⟩
    intro cl member
    rw [List.mem_singleton.mp member]
    exact ⟨by decide, by decide⟩
  outside := by decide
  ended := by
    intro cl member j k ordered inside
    rw [List.mem_singleton.mp member]
    have every : ∀ k < exfatVol.slots, ∀ j < k + 1,
        slotType exfatVol (exfatView exfatVol spillImage) 6 j = 0x00 →
        slotType exfatVol (exfatView exfatVol spillImage) 6 k = 0x00 := by
      decide
    exact every k inside j (by omega)

theorem spillImage_set : InUseSet exfatVol (exfatView exfatVol spillImage) 6 0 :=
  ⟨by decide, by decide, by decide⟩

end ParanOS

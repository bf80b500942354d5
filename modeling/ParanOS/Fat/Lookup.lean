import ParanOS.Fat.Directory

/-! # Directory lookups as searches over slots

What `dir_find_entry` and `dir_find_free_slot` find, in terms of the entries of
a directory's slots, and how such a search fares when entries change.
-/

namespace ParanOS

open Foundation

/-- The entry in a slot. -/
def entryAt (store : ClusterStore) (slot : Slot) : Buffer :=
  direntAt (store.sector slot.cl slot.s) slot.off

/-- A free slot: the end marker or a deleted entry. -/
def Free (de : Buffer) : Prop := de 0 = 0x00 ∨ de 0 = 0xE5

/-- An entry that a lookup compares: neither free nor part of a long name. -/
def InUse (de : Buffer) : Prop := de 0 ≠ 0x00 ∧ de 0 ≠ 0xE5 ∧ de 11 ≠ attrLongName

instance (de : Buffer) : Decidable (Free de) := inferInstanceAs (Decidable (_ ∨ _))

instance (de : Buffer) : Decidable (InUse de) := inferInstanceAs (Decidable (_ ∧ _ ∧ _))

def direntName (de : Buffer) : List UInt8 := de.bytes 0 11

/-- A lookup of `want11` ends here with success. -/
def Matched (want11 : List UInt8) (de : Buffer) : Prop :=
  InUse de ∧ direntName de = want11

instance (want11 : List UInt8) (de : Buffer) : Decidable (Matched want11 de) :=
  inferInstanceAs (Decidable (_ ∧ _))

/-- A lookup of `want11` goes on behind this entry. -/
def Passed (want11 : List UInt8) (de : Buffer) : Prop :=
  de 0 ≠ 0x00 ∧ ¬ Matched want11 de

theorem direntAt_lt {sec : Buffer} {off index : Nat} (inside : index < 32) :
    direntAt sec off index = sec (off + index) := if_pos inside

theorem direntName_direntAt (sec : Buffer) (off : Nat) :
    direntName (direntAt sec off) = sec.bytes off 11 := by
  apply Buffer.bytes_congr
  intro index bound
  rw [Nat.zero_add]
  exact direntAt_lt (by omega)

theorem visitEntry_eq (want11 : List UInt8) (lba s : Nat) (sec : Buffer) (off : Nat) :
    visitEntry want11 lba s sec off =
      if direntAt sec off 0 = 0x00 then some (.error (-2))
      else if InUse (direntAt sec off) ∧ direntName (direntAt sec off) = want11 then
        some (.ok ⟨direntAt sec off, lba, s, off⟩)
      else none := by
  have first : direntAt sec off 0 = sec off := direntAt_lt (by omega)
  have attr : direntAt sec off 11 = sec (off + 11) := direntAt_lt (by omega)
  simp only [visitEntry, InUse, direntName_direntAt, first, attr]
  by_cases ended : sec off = 0x00
  · simp [ended]
  by_cases deleted : sec off = 0xE5
  · simp [deleted]
  by_cases long : sec (off + 11) = attrLongName
  · simp [ended, deleted, long]
  · simp [ended, deleted, long]

/-! ## The first slot that decides -/

/-- `slot` is the first of `slots` at which a lookup of `want11` ends, and it
ends with success. -/
def FirstMatch (want11 : List UInt8) (store : ClusterStore) (slots : List Slot)
    (slot : Slot) : Prop :=
  ∃ before after, slots = before ++ slot :: after ∧
    (∀ other ∈ before, Passed want11 (entryAt store other)) ∧
    Matched want11 (entryAt store slot)

/-- `slot` is the first free one of `slots`. -/
def FirstFreeSlot (store : ClusterStore) (slots : List Slot) (slot : Slot) : Prop :=
  ∃ before after, slots = before ++ slot :: after ∧
    (∀ other ∈ before, ¬ Free (entryAt store other)) ∧ Free (entryAt store slot)

/-- What `dir_find_entry` returns for a slot. -/
def hitAt (v : Vol) (store : ClusterStore) (slot : Slot) : DirHit :=
  ⟨entryAt store slot, clusToLba v slot.cl, slot.s, slot.off⟩

theorem InUse.not_free {de : Buffer} (used : InUse de) : ¬ Free de := by
  rintro (ended | deleted)
  · exact used.1 ended
  · exact used.2.1 deleted

theorem FirstMatch.mem {want11 : List UInt8} {store : ClusterStore} {slots : List Slot}
    {slot : Slot} (first : FirstMatch want11 store slots slot) : slot ∈ slots := by
  rcases first with ⟨before, after, rfl, _⟩
  simp

theorem FirstMatch.matched {want11 : List UInt8} {store : ClusterStore} {slots : List Slot}
    {slot : Slot} (first : FirstMatch want11 store slots slot) :
    Matched want11 (entryAt store slot) := by
  rcases first with ⟨_, _, _, _, hit⟩
  exact hit

theorem FirstFreeSlot.mem {store : ClusterStore} {slots : List Slot} {slot : Slot}
    (first : FirstFreeSlot store slots slot) : slot ∈ slots := by
  rcases first with ⟨before, after, rfl, _⟩
  simp

theorem FirstFreeSlot.free {store : ClusterStore} {slots : List Slot} {slot : Slot}
    (first : FirstFreeSlot store slots slot) : Free (entryAt store slot) := by
  rcases first with ⟨_, _, _, _, empty⟩
  exact empty

/-- Two lookups of one name end at the same slot. -/
theorem FirstMatch.unique {want11 : List UInt8} {store : ClusterStore} {slots : List Slot}
    {slot slot' : Slot} (first : FirstMatch want11 store slots slot)
    (second : FirstMatch want11 store slots slot') : slot = slot' := by
  rcases first with ⟨before, after, equal, passed, matched⟩
  rcases second with ⟨before', after', equal', passed', matched'⟩
  rw [equal] at equal'
  rcases List.append_eq_append_iff.mp equal' with
    ⟨extra, longer, rest⟩ | ⟨extra, longer, rest⟩
  · cases extra with
    | nil => exact (List.cons.inj rest).1
    | cons head tail =>
        have inside : slot ∈ before' := by simp [longer, (List.cons.inj rest).1]
        exact absurd matched (passed' slot inside).2
  · cases extra with
    | nil => exact (List.cons.inj rest).1.symm
    | cons head tail =>
        have inside : slot' ∈ before := by simp [longer, (List.cons.inj rest).1]
        exact absurd matched' (passed slot' inside).2

/-- A lookup finds the same slot again when no entry it passes starts to match
or ends the directory, and the entry it found still matches. -/
theorem FirstMatch.preserved {want11 : List UInt8} {store store' : ClusterStore}
    {slots : List Slot} {slot : Slot} (first : FirstMatch want11 store slots slot)
    (passed : ∀ other ∈ slots, Passed want11 (entryAt store other) →
      Passed want11 (entryAt store' other))
    (matched : Matched want11 (entryAt store' slot)) :
    FirstMatch want11 store' slots slot := by
  rcases first with ⟨before, after, rfl, earlier, _⟩
  exact ⟨before, after, rfl,
    fun other member => passed other (by simp [member]) (earlier other member), matched⟩

/-- Filling the first free slot with an entry that was not found makes it the
one that is found. -/
theorem FirstMatch.of_filled {want11 : List UInt8} {store store' : ClusterStore}
    {slots : List Slot} {slot : Slot} (first : FirstFreeSlot store slots slot)
    (absent : ∀ other, ¬ FirstMatch want11 store slots other)
    (same : ∀ other ∈ slots, other ≠ slot → entryAt store' other = entryAt store other)
    (nodup : slots.Nodup) (matched : Matched want11 (entryAt store' slot)) :
    FirstMatch want11 store' slots slot := by
  rcases first with ⟨before, after, rfl, used, _⟩
  have fresh : slot ∉ before := by
    intro inside
    exact (List.nodup_append.mp nodup).2.2 slot inside slot (by simp) rfl
  -- no entry before the free slot can match: the first of them would be found
  have unmatched : ∀ earlier later, before = earlier ++ later →
      ∀ other ∈ earlier, ¬ Matched want11 (entryAt store other) := by
    intro earlier
    induction earlier using List.reverseRecOn with
    | nil => simp
    | append_singleton earlier last induction =>
        intro later split other member
        have inner := induction ([last] ++ later) (by simp [split])
        rcases List.mem_append.mp member with inside | isLast
        · exact inner other inside
        · rw [List.mem_singleton] at isLast
          subst isLast
          intro hit
          refine absent other ⟨earlier, later ++ slot :: after, by simp [split], ?_, hit⟩
          intro previous inside
          refine ⟨fun ended => used previous ?_ (.inl ended), inner previous inside⟩
          simp [split, inside]
  refine ⟨before, after, rfl, ?_, matched⟩
  intro other member
  have different : other ≠ slot := by
    rintro rfl
    exact fresh member
  rw [same other (by simp [member]) different]
  exact ⟨fun ended => used other member (.inl ended),
    unmatched before [] (by simp) other member⟩

/-- A lookup only depends on the entries it looks at. -/
theorem FirstMatch.congr {want11 : List UInt8} {store store' : ClusterStore}
    {slots : List Slot} {slot : Slot} (first : FirstMatch want11 store slots slot)
    (same : ∀ other ∈ slots, entryAt store' other = entryAt store other) :
    FirstMatch want11 store' slots slot := by
  apply first.preserved
  · intro other member passed
    rw [same other member]
    exact passed
  · rw [same slot first.mem]
    exact first.matched

theorem slotOffsets_nodup (v : Vol) : (slotOffsets v).Nodup := by
  apply List.nodup_range.map
  intro first second equal
  simp only at equal
  omega

theorem chainSlots_nodup {v : Vol} {chain : List Nat} (nodup : chain.Nodup) :
    (chainSlots v chain).Nodup := by
  have within : ∀ cl, (clusterSlots v cl).Nodup := by
    intro cl
    apply List.nodup_flatMap.mpr
    refine ⟨fun s _ => (slotOffsets_nodup v).map ?_, ?_⟩
    · intro first second equal
      exact (Slot.mk.inj equal).2.2
    · apply List.nodup_range.imp
      intro first second different slot inFirst inSecond
      rcases List.mem_map.mp inFirst with ⟨_, _, rfl⟩
      rcases List.mem_map.mp inSecond with ⟨_, _, equal⟩
      exact different (Slot.mk.inj equal).2.1.symm
  apply List.nodup_flatMap.mpr
  refine ⟨fun cl _ => within cl, nodup.imp ?_⟩
  intro first second different slot inFirst inSecond
  exact different ((mem_clusterSlots.mp inFirst).1.symm.trans (mem_clusterSlots.mp inSecond).1)

/-! ## The lookup functions -/

/-- The slots of a directory on the device, by their chain. -/
structure DirChain (v : Vol) (limit : Nat) (store : ClusterStore) (dirCl : Nat)
    (chain : List Nat) : Prop where
  linked : Linked store.next EndOfChain dirCl chain
  data : ∀ cl ∈ chain, DataCluster limit cl

theorem DirChain.length_lt {v : Vol} {limit : Nat} {store : ClusterStore} {dirCl : Nat}
    {chain : List Nat} (dir : DirChain v limit store dirCl chain) :
    chain.length ≤ limit :=
  length_le_of_nodup_of_lt dir.linked.nodup fun cl member => (dir.data cl member).2

/-- No cluster of a chain is marked free in the table. -/
theorem DirChain.next_ne_zero {v : Vol} {limit : Nat} {store : ClusterStore} {dirCl cl : Nat}
    {chain : List Nat} (dir : DirChain v limit store dirCl chain) (member : cl ∈ chain) :
    store.next cl ≠ 0 := by
  intro free
  rcases dir.linked.suffix member with ⟨before, after, equal, later⟩
  cases later with
  | cons _ tail =>
      cases tail with
      | nil stopped =>
          rw [free, endOfChain_iff] at stopped
          omega
      | cons _ _ =>
          have lower := (dir.data (store.next cl) (by simp [equal])).1
          omega

/-- What a lookup sees at a slot. -/
theorem visitEntry_decides {v : Vol} {want11 : List UInt8} {store : ClusterStore} {slot : Slot}
    {result : Option (Except Int DirHit)}
    (visited : visitAt v store (visitEntry want11) slot = result) :
    (Matched want11 (entryAt store slot) ∧ result = some (.ok (hitAt v store slot))) ∨
    (entryAt store slot 0 = 0 ∧ result = some (.error (-2))) ∨
    (Passed want11 (entryAt store slot) ∧ result = none) := by
  rw [visitAt, visitEntry_eq] at visited
  change (if entryAt store slot 0 = 0 then _ else _) = _ at visited
  by_cases ended : entryAt store slot 0 = 0
  · rw [if_pos ended] at visited
    exact .inr (.inl ⟨ended, visited.symm⟩)
  · rw [if_neg ended] at visited
    by_cases hit : Matched want11 (entryAt store slot)
    · exact .inl ⟨hit, by rw [← visited]; exact if_pos hit⟩
    · exact .inr (.inr ⟨⟨ended, hit⟩, by rw [← visited]; exact if_neg hit⟩)

/-- The search for an entry ends with success at the first match. -/
theorem firstMatch_search (v : Vol) (want11 : List UInt8) (store : ClusterStore)
    (slots : List Slot) :
    (∃ slot, FirstMatch want11 store slots slot ∧
      (slots.findSome? (visitAt v store (visitEntry want11))).getD (.error (-3)) =
        .ok (hitAt v store slot)) ∨
    (∀ slot, ¬ FirstMatch want11 store slots slot) ∧
      ∃ code, (slots.findSome? (visitAt v store (visitEntry want11))).getD (.error (-3)) =
        .error code := by
  cases found : slots.findSome? (visitAt v store (visitEntry want11)) with
  | none =>
      refine .inr ⟨?_, -3, rfl⟩
      intro slot first
      have skipped := List.findSome?_eq_none_iff.mp found slot first.mem
      rcases visitEntry_decides skipped with ⟨_, impossible⟩ | ⟨_, impossible⟩ | ⟨passed, _⟩
      · simp at impossible
      · simp at impossible
      · exact passed.2 first.matched
  | some result =>
      rcases List.findSome?_eq_some_iff.mp found with ⟨before, slot, after, split, hit, skipped⟩
      have earlier : ∀ other ∈ before, Passed want11 (entryAt store other) := by
        intro other member
        rcases visitEntry_decides (skipped other member) with
          ⟨_, impossible⟩ | ⟨_, impossible⟩ | ⟨passed, _⟩
        · simp at impossible
        · simp at impossible
        · exact passed
      rcases visitEntry_decides hit with ⟨matched, equal⟩ | ⟨ended, equal⟩ | ⟨_, impossible⟩
      · simp only [Option.some.injEq] at equal
        subst equal
        exact .inl ⟨slot, ⟨before, after, split, earlier, matched⟩, rfl⟩
      · simp only [Option.some.injEq] at equal
        subst equal
        refine .inr ⟨?_, -2, rfl⟩
        -- a match would lie before the end marker, where everything was passed
        intro other first
        rcases first with ⟨before', after', split', earlier', matched⟩
        rw [split] at split'
        rcases List.append_eq_append_iff.mp split' with
          ⟨extra, before'Equal, afterEqual⟩ | ⟨extra, beforeEqual, afterEqual⟩
        · cases extra with
          | nil =>
              simp only [List.nil_append, List.cons.injEq] at afterEqual
              rw [← afterEqual.1] at matched
              exact matched.1.1 ended
          | cons head tail =>
              simp only [List.cons_append, List.cons.injEq] at afterEqual
              have inside : slot ∈ before' := by simp [before'Equal, afterEqual.1]
              exact (earlier' slot inside).1 ended
        · cases extra with
          | nil =>
              simp only [List.nil_append, List.cons.injEq] at afterEqual
              rw [afterEqual.1] at matched
              exact matched.1.1 ended
          | cons head tail =>
              simp only [List.cons_append, List.cons.injEq] at afterEqual
              have inside : other ∈ before := by simp [beforeEqual, afterEqual.1]
              exact (earlier other inside).2 matched
      · simp at impossible

/-- A lookup in which a read fails does not succeed. -/
theorem dirFindEntry_reads {v : Vol} {limit : Nat} (geometry : Geometry v limit)
    (want11 : List UInt8) {sectors : Nat → Buffer} {dirCl fuel : Nat} {chain : List Nat}
    (dir : DirChain v limit (view v limit sectors) dirCl chain) (enough : limit < fuel) :
    Reading (dirFindEntry v want11 fuel dirCl) sectors fun failed found =>
      failed = true ∧ (∃ code, found = .error code) ∨
      failed = false ∧ ((∃ slot,
        FirstMatch want11 (view v limit sectors) (chainSlots v chain) slot ∧
          found = .ok (hitAt v (view v limit sectors) slot)) ∨
        (∀ slot, ¬ FirstMatch want11 (view v limit sectors) (chainSlots v chain) slot) ∧
          ∃ code, found = .error code) := by
  have length := dir.length_lt
  apply (dirScan_reads geometry (visitEntry want11) (.error (-1)) (.error (-3))
    dir.linked dir.data (show chain.length < fuel by omega)).mono
  intro failed found outcome
  rcases outcome with ⟨failing, rfl | rfl⟩ | ⟨done, rfl⟩
  · exact .inl ⟨failing, -1, rfl⟩
  · exact .inl ⟨failing, -3, rfl⟩
  · exact .inr ⟨done, firstMatch_search v want11 (view v limit sectors) (chainSlots v chain)⟩

theorem dirFindEntry_healthy {v : Vol} {limit : Nat} (geometry : Geometry v limit)
    (want11 : List UInt8) {sectors : Nat → Buffer} {dirCl fuel : Nat} {chain : List Nat}
    (dir : DirChain v limit (view v limit sectors) dirCl chain) (enough : limit < fuel) :
    (∃ slot, FirstMatch want11 (view v limit sectors) (chainSlots v chain) slot ∧
      dirFindEntry v want11 fuel dirCl (Device.healthy sectors) =
        some (.ok (hitAt v (view v limit sectors) slot), Device.healthy sectors)) ∨
    ((∀ slot, ¬ FirstMatch want11 (view v limit sectors) (chainSlots v chain) slot) ∧
      ∃ code, dirFindEntry v want11 fuel dirCl (Device.healthy sectors) =
        some (.error code, Device.healthy sectors)) := by
  rcases (dirFindEntry_reads geometry want11 dir enough).healthy with ⟨_, found, _, outcome, ran⟩
  rw [ran]
  rcases outcome with ⟨impossible, _⟩ | ⟨_, ⟨slot, first, rfl⟩ | ⟨absent, code, rfl⟩⟩
  · simp at impossible
  · exact .inl ⟨slot, first, rfl⟩
  · exact .inr ⟨absent, code, rfl⟩

/-- The search for a free slot finds the first one, unless a read fails. -/
theorem dirFindFreeSlot_reads {v : Vol} {limit : Nat} (geometry : Geometry v limit)
    {sectors : Nat → Buffer} {dirCl fuel : Nat} {chain : List Nat}
    (dir : DirChain v limit (view v limit sectors) dirCl chain) (enough : limit < fuel) :
    Reading (dirFindFreeSlot v fuel dirCl) sectors fun failed found =>
      (∃ slot, FirstFreeSlot (view v limit sectors) (chainSlots v chain) slot ∧
        found = some ⟨clusToLba v slot.cl, slot.s, slot.off,
          (view v limit sectors).sector slot.cl slot.s⟩) ∨
      (failed = true ∨ ∀ slot ∈ chainSlots v chain,
        ¬ Free (entryAt (view v limit sectors) slot)) ∧ found = none := by
  have length := dir.length_lt
  have decided : ∀ slot, visitAt v (view v limit sectors) visitFree slot =
      if Free (entryAt (view v limit sectors) slot) then
        some (some ⟨clusToLba v slot.cl, slot.s, slot.off,
          (view v limit sectors).sector slot.cl slot.s⟩)
      else none := by
    intro slot
    have first : entryAt (view v limit sectors) slot 0 =
        (view v limit sectors).sector slot.cl slot.s slot.off := direntAt_lt (by omega)
    simp only [visitAt, visitFree, Free, first]
  apply (dirScan_reads geometry visitFree none none
    dir.linked dir.data (show chain.length < fuel by omega)).mono
  intro failed value outcome
  rcases outcome with ⟨failing, rfl | rfl⟩ | ⟨_, rfl⟩
  · exact .inr ⟨.inl failing, rfl⟩
  · exact .inr ⟨.inl failing, rfl⟩
  · cases found : (chainSlots v chain).findSome?
        (visitAt v (view v limit sectors) visitFree) with
    | none =>
        refine .inr ⟨.inr fun slot member free => ?_, rfl⟩
        have passed := List.findSome?_eq_none_iff.mp found slot member
        rw [decided, if_pos free] at passed
        simp at passed
    | some result =>
        rcases List.findSome?_eq_some_iff.mp found with
          ⟨before, slot, after, slots, hit, skipped⟩
        have earlier : ∀ other ∈ before, ¬ Free (entryAt (view v limit sectors) other) := by
          intro other member free
          have visited := skipped other member
          rw [decided, if_pos free] at visited
          simp at visited
        rw [decided] at hit
        split at hit
        · next free =>
            simp only [Option.some.injEq] at hit
            subst hit
            exact .inl ⟨slot, ⟨before, after, slots, earlier, free⟩, rfl⟩
        · simp at hit

end ParanOS

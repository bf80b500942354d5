import ParanOS.Fat.Termination

/-! # What a listing shows

The loops of `fat32_list_dir_path` read one slot after another. On a healthy
device they return the entries in use before the end marker, without those whose
name begins with a dot, as many as there is room for.
-/

namespace ParanOS

open Foundation

/-- The item for an entry. -/
def listItem (de : Buffer) : Dirent := ⟨renderName de 0, de 11, de.getU32 28⟩

theorem listItem_direntAt (sec : Buffer) (off : Nat) :
    listItem (direntAt sec off) = ⟨renderName sec off, sec (off + 11), sec.getU32 (off + 28)⟩ := by
  have base : (direntAt sec off).bytes 0 8 = sec.bytes off 8 := by
    apply Buffer.bytes_congr
    intro index bound
    rw [Nat.zero_add]
    exact direntAt_lt (by omega)
  have ext : (direntAt sec off).bytes 8 3 = sec.bytes (off + 8) 3 := by
    apply Buffer.bytes_congr
    intro index bound
    rw [Nat.add_assoc]
    exact direntAt_lt (by omega)
  have size : (direntAt sec off).getU32 28 = sec.getU32 (off + 28) := by
    apply Buffer.getU32_congr
    intro index bound
    rw [Nat.add_assoc]
    exact direntAt_lt (by omega)
  rw [listItem, renderName, base, Nat.zero_add, ext, size, direntAt_lt (by omega)]
  rfl

/-- The items for the entries before the end marker. -/
def listItems (entries : List Buffer) : List Dirent :=
  ((entries.takeWhile fun de => de 0 ≠ 0x00).filter fun de => Shown de).map listItem

section

variable {de : Buffer} {entries : List Buffer}

theorem listItems_ended (ended : de 0 = 0x00) : listItems (de :: entries) = [] := by
  simp [listItems, ended]

theorem listItems_skipped (used : de 0 ≠ 0x00) (skipped : ¬ Shown de) :
    listItems (de :: entries) = listItems entries := by
  simp [listItems, used, skipped]

theorem listItems_shown (shown : Shown de) :
    listItems (de :: entries) = listItem de :: listItems entries := by
  simp [listItems, shown.1.1, shown]

/-- Nothing ends the listing in the first entries. -/
theorem listItems_append {before : List Buffer} (unmarked : ∀ de ∈ before, de 0 ≠ 0x00)
    (rest : List Buffer) : listItems (before ++ rest) = listItems before ++ listItems rest := by
  induction before with
  | nil => rfl
  | cons de before induction =>
      have later := induction fun other member => unmarked other (by simp [member])
      by_cases shown : Shown de
      · rw [List.cons_append, listItems_shown shown, listItems_shown shown, later, List.cons_append]
      · have used := unmarked de (by simp)
        rw [List.cons_append, listItems_skipped used shown, listItems_skipped used shown, later]

/-- Nothing is shown just if no entry before the end marker is. -/
theorem listItems_eq_nil :
    listItems entries = [] ↔ ∀ de ∈ entries.takeWhile fun de => de 0 ≠ 0x00, ¬ Shown de := by
  simp [listItems, List.filter_eq_nil_iff]

end

/-! ## The loops -/

/-- What the loops do with some entries: they are done, and the items are all that
there is room for, or they go on, with the items so far. -/
inductive Lists (maxItems : Nat) (entries : List Buffer) (items : List Dirent) :
    Bool → List Dirent → Prop
  | done {items'} : (∀ rest, (items ++ listItems (entries ++ rest)).take maxItems = items') →
      Lists maxItems entries items true items'
  | going {items'} : items'.length ≤ maxItems →
      (∀ rest, items ++ listItems (entries ++ rest) = items' ++ listItems rest) →
      Lists maxItems entries items false items'

namespace Lists

variable {maxItems : Nat} {entries : List Buffer} {items items' : List Dirent}

theorem stop (lists : Lists maxItems entries items true items') (rest : List Buffer) :
    Lists maxItems (entries ++ rest) items true items' := by
  cases lists with
  | done all =>
      apply done
      intro further
      rw [List.append_assoc]
      exact all (rest ++ further)

theorem append {rest : List Buffer} {items'' : List Dirent} {ended : Bool}
    (first : Lists maxItems entries items false items')
    (second : Lists maxItems rest items' ended items'') :
    Lists maxItems (entries ++ rest) items ended items'' := by
  cases first with
  | going _ same =>
      cases second with
      | done all =>
          apply done
          intro further
          rw [List.append_assoc, same]
          exact all further
      | going room same' =>
          apply going room
          intro further
          rw [List.append_assoc, same]
          exact same' further

end Lists

theorem listSlots_lists {maxItems : Nat} (sec : Buffer) (offsets : List Nat) {items : List Dirent}
    (room : items.length ≤ maxItems) :
    Lists maxItems (offsets.map (direntAt sec)) items (listSlots maxItems sec offsets items).1
      (listSlots maxItems sec offsets items).2 := by
  induction offsets generalizing items with
  | nil => exact .going room fun _ => rfl
  | cons off rest induction =>
      have first : direntAt sec off 0 = sec off := direntAt_lt (by omega)
      have attr : direntAt sec off 11 = sec (off + 11) := direntAt_lt (by omega)
      rw [List.map_cons, listSlots]
      by_cases full : items.length ≥ maxItems
      · rw [if_pos full]
        have exactly : items.length = maxItems := by omega
        exact .done fun _ => List.take_left' exactly
      · rw [if_neg full]
        by_cases zero : sec off = 0x00
        · rw [if_pos zero]
          apply Lists.done
          intro further
          rw [List.cons_append, listItems_ended (first.trans zero), List.append_nil]
          exact List.take_of_length_le room
        · rw [if_neg zero]
          have used : direntAt sec off 0 ≠ 0x00 := by rwa [first]
          by_cases hidden : sec off = 0xE5 ∨ sec (off + 11) = attrLongName ∨ sec off = 0x2E
          · rw [if_pos hidden]
            have skipped : ¬ Shown (direntAt sec off) := by
              simp only [Shown, InUse, first, attr]
              tauto
            have passed : Lists maxItems [direntAt sec off] items false items := by
              apply Lists.going room
              intro further
              rw [List.singleton_append, listItems_skipped used skipped]
            exact passed.append (induction room)
          · rw [if_neg hidden]
            have shown : Shown (direntAt sec off) := by
              simp only [Shown, InUse, first, attr]
              tauto
            have more : (items ++ [listItem (direntAt sec off)]).length ≤ maxItems := by
              rw [List.length_append, List.length_singleton]
              omega
            have passed : Lists maxItems [direntAt sec off] items false
                (items ++ [listItem (direntAt sec off)]) := by
              apply Lists.going more
              intro further
              rw [List.singleton_append, listItems_shown shown, List.append_assoc,
                List.singleton_append]
            rw [← listItem_direntAt]
            exact passed.append (induction more)

/-- The entries of a chain. -/
def chainEntries (v : Vol) (store : ClusterStore) (chain : List Nat) : List Buffer :=
  (chainSlots v chain).map (entryAt store)

section

variable {v : Vol} {limit : Nat} (geometry : Geometry v limit) {sectors : Nat → Buffer}
  {maxItems : Nat}

include geometry

theorem listSectors_lists {cl : Nat} (data : DataCluster limit cl) {positions : List Nat}
    (inside : ∀ s ∈ positions, s < v.secPerClus) {items : List Dirent}
    (room : items.length ≤ maxItems) :
    ∃ done items', listSectors v maxItems (clusToLba v cl) positions items
        (Device.healthy sectors) = some ((done, items'), Device.healthy sectors) ∧
      Lists maxItems ((positions.flatMap fun s => (slotOffsets v).map (Slot.mk cl s)).map
        (entryAt (view v limit sectors))) items done items' := by
  induction positions generalizing items with
  | nil => exact ⟨false, items, rfl, .going room fun _ => rfl⟩
  | cons s rest induction =>
      have later := fun other member => inside other (List.mem_cons_of_mem s member)
      have sector := geometry.sector_eq sectors data (inside s (by simp))
      have lists := listSlots_lists (sectors (u32 (clusToLba v cl + s))) (slotOffsets v) room
      have entries : (slotOffsets v).map (direntAt (sectors (u32 (clusToLba v cl + s)))) =
          ((slotOffsets v).map (Slot.mk cl s)).map (entryAt (view v limit sectors)) := by
        rw [List.map_map, sector]
        rfl
      rw [entries] at lists
      simp only [listSectors, DiskM.bind_apply, rd_healthy, Option.bind_some, List.flatMap_cons,
        List.map_append]
      cases listed : listSlots maxItems (sectors (u32 (clusToLba v cl + s))) (slotOffsets v)
          items with
      | mk done items' =>
          rw [listed] at lists
          cases done with
          | true => exact ⟨true, items', rfl, lists.stop _⟩
          | false =>
              have room' : items'.length ≤ maxItems := by
                cases lists with
                | going room' _ => exact room'
              rcases induction later room' with ⟨done, items'', ran, further⟩
              exact ⟨done, items'', ran, lists.append further⟩

/-- A listing of a directory shows its entries, as many as there is room for. -/
theorem listClusters_healthy {dirCl fuel : Nat} {chain : List Nat}
    (linked : Linked (view v limit sectors).next EndOfChain dirCl chain)
    (range : ∀ cl ∈ chain, DataCluster limit cl) (enough : chain.length < fuel)
    {items : List Dirent} (room : items.length ≤ maxItems) :
    listClusters v maxItems fuel dirCl items (Device.healthy sectors) =
      some ((items ++ listItems (chainEntries v (view v limit sectors) chain)).take maxItems,
        Device.healthy sectors) := by
  induction linked, enough using Linked.walk generalizing items with
  | nil stopped =>
      have ended : isEndCluster _ = true := stopped
      rw [listClusters, if_pos ended, chainEntries, chainSlots, List.flatMap_nil, List.map_nil,
        List.take_of_length_le (by simpa [listItems] using room)]
      simp [listItems]
  | @cons cl rest fuel running tail shorter induction =>
      have data := range cl (by simp)
      have going : ¬ isEndCluster cl = true := running
      have next := geometry.fatEntry_eq sectors data.2 running
      rcases @listSectors_lists v limit geometry sectors maxItems cl data _
        (fun s member => List.mem_range.mp member) items room with ⟨done, items', ran, lists⟩
      have split : chainEntries v (view v limit sectors) (cl :: rest) =
          (clusterSlots v cl).map (entryAt (view v limit sectors)) ++
            chainEntries v (view v limit sectors) rest := by
        rw [chainEntries, chainSlots, List.flatMap_cons, List.map_append]
        rfl
      rw [listClusters, if_neg going, DiskM.bind_run ran, split]
      cases lists with
      | done all =>
          rw [← all (chainEntries v (view v limit sectors) rest)]
          rfl
      | going room' same =>
          have further := induction (fun other member => range other (by simp [member])) room'
          have follows := same (chainEntries v (view v limit sectors) rest)
          rw [clusterSlots, follows, ← further, ← next]
          simp

/-- At the end of its path the walk lists the directory it is in. -/
theorem listWalk_here {dirCl fuel : Nat} {chain : List Nat}
    (dir : DirChain v limit (view v limit sectors) dirCl chain) (enough : limit < fuel) :
    listWalk v fuel maxItems [] dirCl (Device.healthy sectors) =
      some ((0, (listItems (chainEntries v (view v limit sectors) chain)).take maxItems),
        Device.healthy sectors) := by
  have length := dir.length_lt
  have listed := listClusters_healthy geometry dir.linked dir.data
    (show chain.length < fuel by omega) (show ([] : List Dirent).length ≤ maxItems by simp)
  rw [listWalk, DiskM.bind_run listed]
  rfl

end

end ParanOS

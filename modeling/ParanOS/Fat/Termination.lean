import ParanOS.Foundation.Pursuit
import ParanOS.Fat.Lookup
import ParanOS.Fat.File

/-! # When FAT32 directory walks return

The walks along a directory's chain have no bound of their own. On a device all of
whose reads succeed, with anything in the table and in the sectors, each of them
returns exactly when the chain comes to its end or to a cluster with a slot that ends
the walk.
-/

namespace ParanOS

open Foundation

/-- The loop, whose rounds are bounded in the model only, returns. -/
def Returns {β : Type} (program : Nat → DiskM β) (sectors : Nat → Buffer) : Prop :=
  ∃ fuel, program fuel (Device.healthy sectors) ≠ none

/-- The clusters of any volume, as the driver computes where they and their links
are. -/
def rawView (v : Vol) (sectors : Nat → Buffer) : ClusterStore where
  next := fatEntry v sectors
  sector := fun cl s => sectors (u32 (clusToLba v cl + s))

/-- The cluster that a walk is at after a number of links. -/
def linkAt (v : Vol) (sectors : Nat → Buffer) (start count : Nat) : Nat :=
  (fatEntry v sectors)^[count] start

/-- The chain comes to its end or to a cluster with an entry that ends the walk. -/
def WalkEnds (v : Vol) (sectors : Nat → Buffer) (Decides : Buffer → Prop) (dirCl : Nat) : Prop :=
  ∃ count, EndOfChain (linkAt v sectors dirCl count) ∨
    ∃ slot ∈ clusterSlots v (linkAt v sectors dirCl count),
      Decides (entryAt (rawView v sectors) slot)

/-! ## Searches -/

/-- What the walk finds in a cluster. -/
def clusterVerdict {β : Type} (v : Vol) (sectors : Nat → Buffer)
    (visit : Nat → Nat → Buffer → Nat → Option β) (exhausted : β) (cl : Nat) : Option β :=
  if isEndCluster cl then some exhausted
  else (clusterSlots v cl).findSome? (visitAt v (rawView v sectors) visit)

/-- The sectors of a cluster, when any reads may fail. -/
theorem clusterScan_reads {β : Type} (v : Vol) (sectors : Nat → Buffer)
    (visit : Nat → Nat → Buffer → Nat → Option β) (failed : β) (dirCl : Nat) :
    Reading ((List.range v.secPerClus).findSomeM? fun s => do
        match ← rd (clusToLba v dirCl + s) with
        | none => pure (some failed)
        | some sec => pure ((slotOffsets v).findSome? (visit (clusToLba v dirCl) s sec)))
      sectors fun broken value => broken = true ∧ value = some failed ∨
        broken = false ∧ value = (clusterSlots v dirCl).findSome?
          (visitAt v (rawView v sectors) visit) := by
  rw [findSome?_clusterSlots]
  apply Reading.findSomeM?
  intro s _
  apply Reading.rd_bind
  · exact .pure (.inl ⟨rfl, rfl⟩)
  · exact .pure (.inr ⟨rfl, rfl⟩)

theorem dirScan_eq_pursue {β : Type} (v : Vol) (sectors : Nat → Buffer)
    (visit : Nat → Nat → Buffer → Nat → Option β) (failed exhausted : β) (fuel dirCl : Nat) :
    dirScan v visit failed exhausted fuel dirCl (Device.healthy sectors) =
      (pursue (clusterVerdict v sectors visit exhausted) (fatEntry v sectors) fuel dirCl).map
        fun result => (result, Device.healthy sectors) := by
  induction fuel generalizing dirCl with
  | zero => rfl
  | succ fuel induction =>
      by_cases ended : isEndCluster dirCl = true
      · simp [dirScan, pursue, clusterVerdict, ended]
      · rcases (clusterScan_reads v sectors visit failed dirCl).healthy with
          ⟨_, value, _, outcome, ran⟩
        have found : value = (clusterSlots v dirCl).findSome?
            (visitAt v (rawView v sectors) visit) := by
          simpa using outcome
        rw [dirScan, if_neg ended, pursue, clusterVerdict, if_neg ended, ← found]
        refine (DiskM.bind_run ran).trans ?_
        cases value with
        | some result => rfl
        | none =>
            simp only [DiskM.bind_apply, fatReadFatEntry_healthy, Option.bind_some]
            exact induction _

theorem clusterVerdict_ne_none {β : Type} {v : Vol} {sectors : Nat → Buffer}
    {visit : Nat → Nat → Buffer → Nat → Option β} {Decides : Buffer → Prop}
    (decided : ∀ slot, visitAt v (rawView v sectors) visit slot ≠ none ↔
      Decides (entryAt (rawView v sectors) slot)) (exhausted : β) (cl : Nat) :
    clusterVerdict v sectors visit exhausted cl ≠ none ↔
      EndOfChain cl ∨ ∃ slot ∈ clusterSlots v cl, Decides (entryAt (rawView v sectors) slot) := by
  rw [clusterVerdict]
  by_cases ended : isEndCluster cl = true
  · simp [ended, EndOfChain]
  · simp only [ended, Bool.false_eq_true, if_false, ne_eq, List.findSome?_eq_none_iff, not_forall,
      EndOfChain, false_or]
    constructor
    · rintro ⟨slot, member, found⟩
      exact ⟨slot, member, (decided slot).mp found⟩
    · rintro ⟨slot, member, holds⟩
      exact ⟨slot, member, (decided slot).mpr holds⟩

theorem exists_pursued_clusterVerdict {β : Type} {v : Vol} {sectors : Nat → Buffer}
    {visit : Nat → Nat → Buffer → Nat → Option β} {Decides : Buffer → Prop}
    (decided : ∀ slot, visitAt v (rawView v sectors) visit slot ≠ none ↔
      Decides (entryAt (rawView v sectors) slot)) (exhausted : β) (dirCl : Nat) :
    (∃ result, Pursued (clusterVerdict v sectors visit exhausted) (fatEntry v sectors) dirCl
      result) ↔ WalkEnds v sectors Decides dirCl := by
  rw [exists_pursued_iff]
  simp only [clusterVerdict_ne_none decided, WalkEnds, linkAt]

theorem dirScan_returns_iff {β : Type} {v : Vol} {sectors : Nat → Buffer}
    {visit : Nat → Nat → Buffer → Nat → Option β} {Decides : Buffer → Prop}
    (decided : ∀ slot, visitAt v (rawView v sectors) visit slot ≠ none ↔
      Decides (entryAt (rawView v sectors) slot)) (failed exhausted : β) (dirCl : Nat) :
    Returns (fun fuel => dirScan v visit failed exhausted fuel dirCl) sectors ↔
      WalkEnds v sectors Decides dirCl := by
  rw [← exists_pursued_clusterVerdict decided exhausted, exists_pursued_iff, ← exists_pursue_iff]
  simp only [Returns, dirScan_eq_pursue, ne_eq, Option.map_eq_none_iff]

/-- What ends the search for an entry. -/
def EndsSearch (want11 : List UInt8) (de : Buffer) : Prop := de 0 = 0x00 ∨ Matched want11 de

theorem visitEntry_ne_none (v : Vol) (sectors : Nat → Buffer) (want11 : List UInt8)
    (slot : Slot) :
    visitAt v (rawView v sectors) (visitEntry want11) slot ≠ none ↔
      EndsSearch want11 (entryAt (rawView v sectors) slot) := by
  rcases visitEntry_decides (rfl : visitAt v (rawView v sectors) (visitEntry want11) slot = _) with
    ⟨hit, found⟩ | ⟨ended, found⟩ | ⟨⟨going, missed⟩, found⟩
  · simp [found, EndsSearch, hit]
  · simp [found, EndsSearch, ended]
  · simp [found, EndsSearch, going, missed]

theorem dirFindEntry_returns_iff (v : Vol) (sectors : Nat → Buffer) (want11 : List UInt8)
    (dirCl : Nat) :
    Returns (fun fuel => dirFindEntry v want11 fuel dirCl) sectors ↔
      WalkEnds v sectors (EndsSearch want11) dirCl :=
  dirScan_returns_iff (visitEntry_ne_none v sectors want11) _ _ dirCl

theorem dirFindFreeSlot_returns_iff (v : Vol) (sectors : Nat → Buffer) (dirCl : Nat) :
    Returns (fun fuel => dirFindFreeSlot v fuel dirCl) sectors ↔ WalkEnds v sectors Free dirCl := by
  apply dirScan_returns_iff
  intro slot
  have first : entryAt (rawView v sectors) slot 0 =
      (rawView v sectors).sector slot.cl slot.s slot.off := direntAt_lt (by omega)
  simp [visitAt, visitFree, Free, first, or_iff_not_imp_left]

/-! ## Listings -/

/-- An entry that the listing shows. -/
def Shown (de : Buffer) : Prop := InUse de ∧ de 0 ≠ 0x2E

instance (de : Buffer) : Decidable (Shown de) := inferInstanceAs (Decidable (_ ∧ _))

def clusterEntries (v : Vol) (sectors : Nat → Buffer) (cl : Nat) : List Buffer :=
  (clusterSlots v cl).map (entryAt (rawView v sectors))

/-- The number of entries that a listing would show from the first clusters of the
chain. -/
def shownBefore (v : Vol) (sectors : Nat → Buffer) (dirCl : Nat) : Nat → Nat
  | 0 => 0
  | count + 1 => shownBefore v sectors dirCl count +
      (clusterEntries v sectors (linkAt v sectors dirCl count)).countP fun de => Shown de

/-- The chain comes to its end or to an end marker, or has as many entries as are
asked for. -/
def ListingEnds (v : Vol) (sectors : Nat → Buffer) (maxItems dirCl : Nat) : Prop :=
  WalkEnds v sectors (fun de => de 0 = 0x00) dirCl ∨
    ∃ count, maxItems ≤ shownBefore v sectors dirCl count

/-- What the slot loops do over some entries: whether the listing is done, and the
number of items before and after. -/
structure ListStep (maxItems : Nat) (entries : List Buffer) (before : Nat) (done : Bool)
    (after : Nat) : Prop where
  passed : done = false → after = before + entries.countP (fun de => Shown de) ∧
    (∀ de ∈ entries, de 0 ≠ 0x00) ∧ (entries ≠ [] → before < maxItems)
  ended : done = true → (∃ de ∈ entries, de 0 = 0x00) ∨
    maxItems ≤ before + entries.countP fun de => Shown de

theorem ListStep.nil (maxItems before : Nat) : ListStep maxItems [] before false before :=
  ⟨fun _ => ⟨by simp, by simp, by simp⟩, by simp⟩

theorem ListStep.stop {maxItems before after : Nat} {entries : List Buffer}
    (step : ListStep maxItems entries before true after) (rest : List Buffer) :
    ListStep maxItems (entries ++ rest) before true after := by
  refine ⟨by simp, ?_⟩
  intro _
  rw [List.countP_append]
  cases step.ended rfl with
  | inl marker =>
      rcases marker with ⟨de, member, zero⟩
      exact .inl ⟨de, List.mem_append_left _ member, zero⟩
  | inr full => exact .inr (by omega)

theorem ListStep.append {maxItems before between after : Nat} {entries rest : List Buffer}
    {done : Bool} (first : ListStep maxItems entries before false between)
    (second : ListStep maxItems rest between done after) :
    ListStep maxItems (entries ++ rest) before done after := by
  rcases first.passed rfl with ⟨count, unmarked, room⟩
  constructor
  · intro going
    rcases second.passed going with ⟨count', unmarked', room'⟩
    rw [List.countP_append]
    refine ⟨by omega, ?_, ?_⟩
    · intro de member
      cases List.mem_append.mp member with
      | inl early => exact unmarked de early
      | inr late => exact unmarked' de late
    · intro some
      by_cases none : entries = []
      · have later := room' (by simpa [none] using some)
        omega
      · exact room none
  · intro stopped
    rw [List.countP_append]
    cases second.ended stopped with
    | inl marker =>
        rcases marker with ⟨de, member, zero⟩
        exact .inl ⟨de, List.mem_append_right _ member, zero⟩
    | inr full => exact .inr (by omega)

theorem ListStep.single {maxItems before after : Nat} {de : Buffer} {done : Bool}
    (passed : done = false → after = before + (if Shown de then 1 else 0) ∧ de 0 ≠ 0x00 ∧
      before < maxItems)
    (ended : done = true → de 0 = 0x00 ∨ maxItems ≤ before) :
    ListStep maxItems [de] before done after := by
  constructor
  · intro going
    rcases passed going with ⟨count, unmarked, room⟩
    exact ⟨by simpa [List.countP_cons] using count, by simpa using unmarked, fun _ => room⟩
  · intro stopped
    cases ended stopped with
    | inl zero => exact .inl ⟨de, by simp, zero⟩
    | inr full => exact .inr (by omega)

theorem listSlots_step (maxItems : Nat) (sec : Buffer) (offsets : List Nat)
    (items : List Dirent) :
    ListStep maxItems (offsets.map (direntAt sec)) items.length
      (listSlots maxItems sec offsets items).1 (listSlots maxItems sec offsets items).2.length := by
  induction offsets generalizing items with
  | nil => exact .nil maxItems _
  | cons off rest induction =>
      have first : direntAt sec off 0 = sec off := direntAt_lt (by omega)
      have attr : direntAt sec off 11 = sec (off + 11) := direntAt_lt (by omega)
      rw [List.map_cons, ← List.singleton_append, listSlots]
      by_cases full : items.length ≥ maxItems
      · rw [if_pos full]
        exact ListStep.stop (.single (by simp) fun _ => .inr full) _
      · rw [if_neg full]
        by_cases zero : sec off = 0x00
        · rw [if_pos zero]
          exact ListStep.stop (.single (by simp) fun _ => .inl (by rw [first, zero])) _
        · rw [if_neg zero]
          by_cases hidden : sec off = 0xE5 ∨ sec (off + 11) = attrLongName ∨ sec off = 0x2E
          · rw [if_pos hidden]
            have skipped : ¬ Shown (direntAt sec off) := by
              simp only [Shown, InUse, first, attr]
              tauto
            exact ListStep.append (.single (fun _ => ⟨by simp [skipped], by rw [first]; exact zero,
              by omega⟩) (by simp)) (induction items)
          · rw [if_neg hidden]
            have shown : Shown (direntAt sec off) := by
              simp only [Shown, InUse, first, attr]
              tauto
            refine ListStep.append (.single (fun _ => ⟨?_, by rw [first]; exact zero,
              by omega⟩) (by simp)) (induction _)
            simp [shown]

theorem listSectors_step (v : Vol) (sectors : Nat → Buffer) (maxItems cl : Nat)
    (positions : List Nat) (items : List Dirent) :
    ∃ done items', listSectors v maxItems (clusToLba v cl) positions items
        (Device.healthy sectors) = some ((done, items'), Device.healthy sectors) ∧
      ListStep maxItems ((positions.flatMap fun s => (slotOffsets v).map (Slot.mk cl s)).map
        (entryAt (rawView v sectors))) items.length done items'.length := by
  induction positions generalizing items with
  | nil => exact ⟨false, items, rfl, .nil maxItems _⟩
  | cons s rest induction =>
      have step := listSlots_step maxItems (sectors (u32 (clusToLba v cl + s))) (slotOffsets v)
        items
      have entries : (slotOffsets v).map (direntAt (sectors (u32 (clusToLba v cl + s)))) =
          ((slotOffsets v).map (Slot.mk cl s)).map (entryAt (rawView v sectors)) := by
        rw [List.map_map]
        rfl
      rw [entries] at step
      simp only [listSectors, DiskM.bind_apply, rd_healthy, Option.bind_some, List.flatMap_cons,
        List.map_append]
      cases listed : listSlots maxItems (sectors (u32 (clusToLba v cl + s))) (slotOffsets v)
          items with
      | mk done items' =>
          rw [listed] at step
          cases done with
          | true => exact ⟨true, items', rfl, step.stop _⟩
          | false =>
              rcases induction items' with ⟨done, items'', ran, later⟩
              exact ⟨done, items'', ran, step.append later⟩

/-- What the slot loops do in a cluster. -/
def listCluster (v : Vol) (sectors : Nat → Buffer) (maxItems cl : Nat) (items : List Dirent) :
    Bool × List Dirent :=
  ((listSectors v maxItems (clusToLba v cl) (List.range v.secPerClus) items
    (Device.healthy sectors)).map Prod.fst).getD (true, items)

theorem listCluster_step (v : Vol) (sectors : Nat → Buffer) (maxItems cl : Nat)
    (items : List Dirent) :
    listSectors v maxItems (clusToLba v cl) (List.range v.secPerClus) items
        (Device.healthy sectors) =
      some (listCluster v sectors maxItems cl items, Device.healthy sectors) ∧
      ListStep maxItems (clusterEntries v sectors cl) items.length
        (listCluster v sectors maxItems cl items).1
        (listCluster v sectors maxItems cl items).2.length := by
  rcases listSectors_step v sectors maxItems cl (List.range v.secPerClus) items with
    ⟨done, items', ran, step⟩
  have result : listCluster v sectors maxItems cl items = (done, items') := by
    simp [listCluster, ran]
  rw [result]
  exact ⟨ran, step⟩

/-- The state of the listing loop is the cluster and the items so far. -/
def listVerdict (v : Vol) (sectors : Nat → Buffer) (maxItems : Nat)
    (state : Nat × List Dirent) : Option (List Dirent) :=
  if isEndCluster state.1 then some state.2
  else if (listCluster v sectors maxItems state.1 state.2).1 then
    some (listCluster v sectors maxItems state.1 state.2).2
  else none

def listNext (v : Vol) (sectors : Nat → Buffer) (maxItems : Nat) (state : Nat × List Dirent) :
    Nat × List Dirent :=
  (fatEntry v sectors state.1, (listCluster v sectors maxItems state.1 state.2).2)

theorem listClusters_eq_pursue (v : Vol) (sectors : Nat → Buffer) (maxItems fuel cl : Nat)
    (items : List Dirent) :
    listClusters v maxItems fuel cl items (Device.healthy sectors) =
      (pursue (listVerdict v sectors maxItems) (listNext v sectors maxItems) fuel
        (cl, items)).map fun result => (result, Device.healthy sectors) := by
  induction fuel generalizing cl items with
  | zero => rfl
  | succ fuel induction =>
      have ran := (listCluster_step v sectors maxItems cl items).1
      rw [listClusters, pursue, listVerdict]
      by_cases ended : isEndCluster cl = true
      · simp [ended]
      · simp only [ended, Bool.false_eq_true, if_false, DiskM.bind_apply, ran, Option.bind_some]
        cases done : (listCluster v sectors maxItems cl items).1 with
        | true => rfl
        | false =>
            simp only [Bool.false_eq_true, if_false, DiskM.bind_apply, fatReadFatEntry_healthy,
              Option.bind_some]
            exact induction _ _

/-- As long as the listing goes on, it follows the chain and shows every entry. -/
theorem listNext_iterate {v : Vol} {sectors : Nat → Buffer} {maxItems dirCl count : Nat}
    (going : ∀ earlier < count, listVerdict v sectors maxItems
      ((listNext v sectors maxItems)^[earlier] (dirCl, [])) = none) :
    ((listNext v sectors maxItems)^[count] (dirCl, [])).1 = linkAt v sectors dirCl count ∧
      ((listNext v sectors maxItems)^[count] (dirCl, [])).2.length =
        shownBefore v sectors dirCl count := by
  induction count with
  | zero => exact ⟨rfl, rfl⟩
  | succ count induction =>
      rcases induction fun earlier below => going earlier (by omega) with ⟨cluster, length⟩
      have now := going count (by omega)
      rw [Function.iterate_succ_apply']
      generalize (listNext v sectors maxItems)^[count] (dirCl, []) = state at cluster length now ⊢
      have step := (listCluster_step v sectors maxItems state.1 state.2).2
      have passed : (listCluster v sectors maxItems state.1 state.2).1 = false := by
        rw [listVerdict] at now
        by_cases ended : isEndCluster state.1 = true
        · simp [ended] at now
        · simpa [ended] using now
      refine ⟨?_, ?_⟩
      · rw [listNext, cluster, linkAt, linkAt, Function.iterate_succ_apply']
      · rw [listNext, (step.passed passed).1, length, shownBefore, cluster]

theorem clusterEntries_length (v : Vol) (sectors : Nat → Buffer) (cl : Nat) :
    (clusterEntries v sectors cl).length = v.secPerClus * (slotOffsets v).length := by
  simp [clusterEntries, clusterSlots, List.length_flatMap]

theorem clusterEntries_ne_nil {v : Vol} {sectors : Nat → Buffer} {dirCl count : Nat}
    (shown : 0 < shownBefore v sectors dirCl count) (cl : Nat) :
    clusterEntries v sectors cl ≠ [] := by
  intro empty
  have none : v.secPerClus * (slotOffsets v).length = 0 := by
    rw [← clusterEntries_length v sectors cl, empty, List.length_nil]
  have hidden : ∀ count, shownBefore v sectors dirCl count = 0 := by
    intro count
    induction count with
    | zero => rfl
    | succ count induction =>
        have length := clusterEntries_length v sectors (linkAt v sectors dirCl count)
        have counted : (clusterEntries v sectors (linkAt v sectors dirCl count)).countP
            (fun de => Shown de) ≤ _ := List.countP_le_length
        rw [shownBefore, induction]
        omega
  have zero := hidden count
  omega

theorem listVerdict_reached_iff {v : Vol} {sectors : Nat → Buffer} {maxItems : Nat}
    (asked : 0 < maxItems) (dirCl : Nat) :
    (∃ count, listVerdict v sectors maxItems
        ((listNext v sectors maxItems)^[count] (dirCl, [])) ≠ none) ↔
      ListingEnds v sectors maxItems dirCl := by
  constructor
  · intro reached
    rcases exists_pursued_iff.mpr reached with ⟨result, count, decided, before⟩
    rcases listNext_iterate before with ⟨cluster, length⟩
    generalize (listNext v sectors maxItems)^[count] (dirCl, []) = state at cluster length decided
    have step := (listCluster_step v sectors maxItems state.1 state.2).2
    rw [listVerdict] at decided
    by_cases ended : isEndCluster state.1 = true
    · rw [cluster] at ended
      exact .inl ⟨count, .inl ended⟩
    · have done : (listCluster v sectors maxItems state.1 state.2).1 = true := by
        by_contra going
        simp [ended, going] at decided
      cases step.ended done with
      | inl marker =>
          rw [cluster] at marker
          rcases marker with ⟨de, member, zero⟩
          rcases List.mem_map.mp member with ⟨slot, inside, rfl⟩
          exact .inl ⟨count, .inr ⟨slot, inside, zero⟩⟩
      | inr full =>
          right
          refine ⟨count + 1, ?_⟩
          rw [shownBefore, ← cluster, ← length]
          exact full
  · intro ends
    by_contra never
    simp only [not_exists, ne_eq, not_not] at never
    have state := fun count => @listNext_iterate v sectors maxItems dirCl count
      fun earlier _ => never earlier
    have passed : ∀ count, ¬ EndOfChain (linkAt v sectors dirCl count) ∧
        (∀ de ∈ clusterEntries v sectors (linkAt v sectors dirCl count), de 0 ≠ 0x00) ∧
        (clusterEntries v sectors (linkAt v sectors dirCl count) ≠ [] →
          shownBefore v sectors dirCl count < maxItems) := by
      intro count
      rcases state count with ⟨cluster, length⟩
      have now := never count
      generalize (listNext v sectors maxItems)^[count] (dirCl, []) = state at cluster length now
      have step := (listCluster_step v sectors maxItems state.1 state.2).2
      rw [listVerdict] at now
      by_cases ended : isEndCluster state.1 = true
      · simp [ended] at now
      · have going : (listCluster v sectors maxItems state.1 state.2).1 = false := by
          simpa [ended] using now
        rw [cluster, length] at step
        rw [cluster] at ended
        exact ⟨ended, (step.passed (by rw [← cluster]; exact going)).2⟩
    cases ends with
    | inl walk =>
        rcases walk with ⟨count, ended | marker⟩
        · exact (passed count).1 ended
        · rcases marker with ⟨slot, member, zero⟩
          exact (passed count).2.1 _ (List.mem_map_of_mem member) zero
    | inr full =>
        rcases full with ⟨count, enough⟩
        have some : 0 < shownBefore v sectors dirCl count := by omega
        have room := (passed count).2.2 (clusterEntries_ne_nil some _)
        omega

/-! ## Paths -/

/-- The search in a directory comes to this entry. -/
def Finds (v : Vol) (sectors : Nat → Buffer) (want11 : List UInt8) (dirCl : Nat) (hit : DirHit) :
    Prop :=
  Pursued (clusterVerdict v sectors (visitEntry want11) (.error (-3))) (fatEntry v sectors) dirCl
    (.ok hit)

/-- The search for each component in turn ends, and so does the listing of the
directory that they lead to. -/
def ListWalkEnds (v : Vol) (sectors : Nat → Buffer) (maxItems : Nat) :
    List (List UInt8) → Nat → Prop
  | [], dirCl => ListingEnds v sectors maxItems dirCl
  | comp :: rest, dirCl =>
      WalkEnds v sectors (EndsSearch (makeName83 comp)) dirCl ∧
        ∀ hit, Finds v sectors (makeName83 comp) dirCl hit → direntIsDir hit.de = true →
          ListWalkEnds v sectors maxItems rest (enterDir v (direntStartCluster hit.de))

theorem ListWalkEnds.of_listWalk {v : Vol} {sectors : Nat → Buffer} {maxItems fuel : Nat}
    (asked : 0 < maxItems) {comps : List (List UInt8)} {dirCl : Nat}
    (ran : listWalk v fuel maxItems comps dirCl (Device.healthy sectors) ≠ none) :
    ListWalkEnds v sectors maxItems comps dirCl := by
  induction comps generalizing dirCl with
  | nil =>
      rw [ListWalkEnds, ← listVerdict_reached_iff asked, ← exists_pursue_iff]
      refine ⟨fuel, ?_⟩
      intro stuck
      simp [listWalk, listClusters_eq_pursue, stuck] at ran
  | cons comp rest induction =>
      have search := dirScan_eq_pursue v sectors (visitEntry (makeName83 comp)) (.error (-1))
        (.error (-3)) fuel dirCl
      rw [← dirFindEntry] at search
      cases found : pursue (clusterVerdict v sectors (visitEntry (makeName83 comp)) (.error (-3)))
          (fatEntry v sectors) fuel dirCl with
      | none =>
          rw [found] at search
          simp [listWalk, search] at ran
      | some result =>
          rw [found] at search
          refine ⟨(dirFindEntry_returns_iff v sectors _ dirCl).mp ⟨fuel, by simp [search]⟩, ?_⟩
          intro hit finds isDir
          have same := (pursued_of_pursue found).unique finds
          rw [same] at search
          apply induction
          simpa [listWalk, search, isDir] using ran

theorem ListWalkEnds.listWalk {v : Vol} {sectors : Nat → Buffer} {maxItems : Nat}
    (asked : 0 < maxItems) {comps : List (List UInt8)} {dirCl : Nat}
    (ends : ListWalkEnds v sectors maxItems comps dirCl) :
    ∃ bound, ∀ fuel, bound ≤ fuel →
      ParanOS.listWalk v fuel maxItems comps dirCl (Device.healthy sectors) ≠ none := by
  induction comps generalizing dirCl with
  | nil =>
      rw [ListWalkEnds, ← listVerdict_reached_iff asked, ← exists_pursued_iff] at ends
      rcases ends with ⟨result, pursued⟩
      rcases pursued.pursue with ⟨bound, enough⟩
      refine ⟨bound, ?_⟩
      intro fuel above
      simp [ParanOS.listWalk, listClusters_eq_pursue, enough fuel above]
  | cons comp rest induction =>
      rcases ends with ⟨walk, later⟩
      rw [← exists_pursued_clusterVerdict (visitEntry_ne_none v sectors _) (.error (-3))] at walk
      rcases walk with ⟨result, pursued⟩
      rcases pursued.pursue with ⟨bound, enough⟩
      have search : ∀ fuel, bound ≤ fuel → dirFindEntry v (makeName83 comp) fuel dirCl
          (Device.healthy sectors) = some (result, Device.healthy sectors) := by
        intro fuel above
        rw [dirFindEntry, dirScan_eq_pursue, enough fuel above]
        rfl
      cases result with
      | error code =>
          refine ⟨bound, ?_⟩
          intro fuel above
          simp [ParanOS.listWalk, search fuel above]
      | ok hit =>
          cases isDir : direntIsDir hit.de with
          | false =>
              refine ⟨bound, ?_⟩
              intro fuel above
              simp [ParanOS.listWalk, search fuel above, isDir]
          | true =>
              rcases induction (later hit pursued isDir) with ⟨bound', enough'⟩
              refine ⟨max bound bound', ?_⟩
              intro fuel above
              simpa [ParanOS.listWalk, search fuel (by omega), isDir] using enough' fuel (by omega)

theorem listWalk_returns_iff (v : Vol) (sectors : Nat → Buffer) {maxItems : Nat}
    (asked : 0 < maxItems) (comps : List (List UInt8)) (dirCl : Nat) :
    Returns (fun fuel => listWalk v fuel maxItems comps dirCl) sectors ↔
      ListWalkEnds v sectors maxItems comps dirCl := by
  constructor
  · rintro ⟨fuel, ran⟩
    exact .of_listWalk asked ran
  · intro ends
    rcases ends.listWalk asked with ⟨bound, enough⟩
    exact ⟨bound, enough bound (Nat.le_refl bound)⟩

end ParanOS

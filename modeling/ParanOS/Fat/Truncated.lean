import ParanOS.Foundation.Delivered
import ParanOS.Fat.Listing
import ParanOS.Fat.Shortfall
import ParanOS.Driver

/-! # Listings with failing reads

`fat32_list_dir_path` returns 0 from the end of its loop and from a failed read in it alike. On
any volume and whichever reads fail, it lists what was delivered before the first failure, so
that nothing is missing exactly when nothing of what is to be listed comes later.
-/

namespace ParanOS

open Foundation

/-! ## Which entries are delivered when -/

def sectorEntries (v : Vol) (sectors : Nat → Buffer) (cl s : Nat) : List Buffer :=
  (slotOffsets v).map fun off => entryAt (rawView v sectors) ⟨cl, s, off⟩

/-- The read calls of the listing loop: the sectors of each cluster, and then the table. -/
def listingReads (v : Vol) (sectors : Nat → Buffer) (chain : List Nat) : List (List Buffer) :=
  chain.flatMap fun cl => (List.range v.secPerClus).map (sectorEntries v sectors cl) ++ [[]]

theorem listingReads_flatten (v : Vol) (sectors : Nat → Buffer) (chain : List Nat) :
    (listingReads v sectors chain).flatten = chainEntries v (rawView v sectors) chain := by
  induction chain with
  | nil => rfl
  | cons cl rest induction =>
      have later : (listingReads v sectors rest).flatten =
          chainEntries v (rawView v sectors) rest := induction
      have here : ((List.range v.secPerClus).map (sectorEntries v sectors cl)).flatten =
          (clusterSlots v cl).map (entryAt (rawView v sectors)) := by
        rw [clusterSlots, List.map_flatMap, ← List.flatMap_def]
        congr 1
        funext s
        rw [List.map_map]
        rfl
      rw [chainEntries, chainSlots, List.flatMap_cons, List.map_append, ← here]
      change (((List.range v.secPerClus).map (sectorEntries v sectors cl) ++ [[]]) ++
        listingReads v sectors rest).flatten = _
      rw [List.flatten_append, List.flatten_append, later]
      simp only [List.flatten_cons, List.flatten_nil, List.append_nil]
      rfl

/-- The listing is finished by what has been seen, or nothing that is left is to be shown. -/
def NothingLeft (maxItems : Nat) (seen unseen : List Buffer) : Prop :=
  (∃ de ∈ seen, de 0 = 0x00) ∨ maxItems ≤ seen.countP (fun de => Shown de) ∨
    ∀ de ∈ unseen.takeWhile fun de => de 0 ≠ 0x00, ¬ Shown de

theorem take_append_eq_iff {α : Type} {count : Nat} {front back : List α} :
    front.take count = (front ++ back).take count ↔ count ≤ front.length ∨ back = [] := by
  rw [List.take_append, List.self_eq_append_right, List.take_eq_nil_iff, Nat.sub_eq_zero_iff_le]

theorem listItems_marked {seen : List Buffer} (marked : ∃ de ∈ seen, de 0 = 0x00)
    (unseen : List Buffer) : listItems (seen ++ unseen) = listItems seen := by
  rcases marked with ⟨de, member, zero⟩
  have stops : ((seen ++ unseen).takeWhile fun de => de 0 ≠ 0x00) =
      seen.takeWhile fun de => de 0 ≠ 0x00 := by
    rw [List.takeWhile_append, if_neg]
    intro whole
    have passed :=
      (List.takeWhile_prefix fun de : Buffer => decide (de 0 ≠ 0x00)).eq_of_length whole
    exact of_decide_eq_true (List.takeWhile_eq_self_iff.mp passed de member) zero
  rw [listItems, listItems, stops]

theorem listItems_length {seen : List Buffer} (unmarked : ∀ de ∈ seen, de 0 ≠ 0x00) :
    (listItems seen).length = seen.countP fun de => Shown de := by
  have whole : (seen.takeWhile fun de => de 0 ≠ 0x00) = seen :=
    List.takeWhile_eq_self_iff.mpr fun de member => by simpa using unmarked de member
  rw [listItems, whole, List.length_map, List.countP_eq_length_filter]

theorem nothingLeft_iff (maxItems : Nat) (seen unseen : List Buffer) :
    (listItems seen).take maxItems = (listItems (seen ++ unseen)).take maxItems ↔
      NothingLeft maxItems seen unseen := by
  by_cases marked : ∃ de ∈ seen, de 0 = 0x00
  · rw [listItems_marked marked]
    exact ⟨fun _ => .inl marked, fun _ => rfl⟩
  · have unmarked : ∀ de ∈ seen, de 0 ≠ 0x00 := by simpa using marked
    rw [listItems_append unmarked, take_append_eq_iff, listItems_length unmarked,
      listItems_eq_nil]
    exact (or_iff_right marked).symm

/-! ## The loops -/

/-- What the loops do with the calls they make, whichever fail: they are done, with all that was
delivered and that there is room for, or they go on, and none of the calls has failed. -/
inductive ListsBefore (maxItems : Nat) (reads : List (List Buffer)) (device : Device)
    (items : List Dirent) : Bool → List Dirent → Device → Prop
  | done {items' device'} :
      (∀ rest, (items ++ listItems (delivered device.readFaults (reads ++ rest))).take maxItems =
        items') → ListsBefore maxItems reads device items true items' device'
  | going {items'} : items'.length ≤ maxItems →
      (∀ rest, items ++ listItems (delivered device.readFaults (reads ++ rest)) =
        items' ++ listItems (delivered (device.after reads.length).readFaults rest)) →
      ListsBefore maxItems reads device items false items' (device.after reads.length)

namespace ListsBefore

variable {maxItems : Nat} {reads : List (List Buffer)} {device : Device} {items : List Dirent}

theorem stop {items' : List Dirent} {device' : Device}
    (delivers : ListsBefore maxItems reads device items true items' device')
    (rest : List (List Buffer)) :
    ListsBefore maxItems (reads ++ rest) device items true items' device' := by
  cases delivers with
  | done all =>
      apply done
      intro further
      rw [List.append_assoc]
      exact all (rest ++ further)

theorem append {rest : List (List Buffer)} {items' items'' : List Dirent} {ended : Bool}
    {middle last : Device} (first : ListsBefore maxItems reads device items false items' middle)
    (second : ListsBefore maxItems rest middle items' ended items'' last) :
    ListsBefore maxItems (reads ++ rest) device items ended items'' last := by
  cases first with
  | going _ same =>
      cases second with
      | done all =>
          apply done
          intro further
          rw [List.append_assoc, same]
          exact all further
      | going room same' =>
          rw [Device.after_after, ← List.length_append]
          apply going room
          intro further
          rw [List.append_assoc, same, same', Device.after_after, List.length_append]

end ListsBefore

theorem listSectors_delivers (v : Vol) (maxItems cl : Nat) (positions : List Nat)
    {items : List Dirent} (room : items.length ≤ maxItems) (device : Device) :
    ∃ done items' device', listSectors v maxItems (clusToLba v cl) positions items device =
        some ((done, items'), device') ∧
      ListsBefore maxItems (positions.map (sectorEntries v device.sectors cl)) device items done
        items' device' := by
  induction positions generalizing items device with
  | nil => exact ⟨false, items, device, rfl, .going room fun _ => rfl⟩
  | cons s rest induction =>
      rw [listSectors, DiskM.bind_apply, rd, Option.bind_some, List.map_cons,
        ← List.singleton_append]
      cases failed : device.readFaults 0 with
      | true =>
          refine ⟨true, items, device.after 1, rfl, .stop (.done ?_) _⟩
          intro further
          rw [List.singleton_append, delivered_failed failed]
          simpa [listItems] using room
      | false =>
          have lists := listSlots_lists (device.sectors (u32 (clusToLba v cl + s))) (slotOffsets v)
            room
          have entries : (slotOffsets v).map
              (direntAt (device.sectors (u32 (clusToLba v cl + s)))) =
                sectorEntries v device.sectors cl s := rfl
          rw [entries] at lists
          simp only [Bool.false_eq_true, if_false]
          cases listed : listSlots maxItems (device.sectors (u32 (clusToLba v cl + s)))
              (slotOffsets v) items with
          | mk done items' =>
              rw [listed] at lists
              cases lists with
              | done all =>
                  refine ⟨true, items', device.after 1, rfl, .stop (.done ?_) _⟩
                  intro further
                  rw [List.singleton_append, delivered_done failed]
                  exact all _
              | going room' same =>
                  have first : ListsBefore maxItems [sectorEntries v device.sectors cl s] device
                      items false items' (device.after 1) := by
                    apply ListsBefore.going room'
                    intro further
                    rw [List.singleton_append, delivered_done failed]
                    exact same _
                  rcases induction room' (device.after 1) with
                    ⟨done, items'', last, ran, later⟩
                  exact ⟨done, items'', last, ran, first.append later⟩

/-- The listing of a directory, whichever reads fail. -/
theorem listClusters_delivers {v : Vol} {maxItems dirCl fuel : Nat} {chain : List Nat}
    {sectors : Nat → Buffer}
    (linked : Linked (rawView v sectors).next EndOfChain dirCl chain)
    (enough : chain.length < fuel) {items : List Dirent} (room : items.length ≤ maxItems)
    {device : Device} (same : device.sectors = sectors) :
    ∃ device', listClusters v maxItems fuel dirCl items device =
      some ((items ++ listItems (delivered device.readFaults
        (listingReads v sectors chain))).take maxItems, device') := by
  subst same
  generalize same : device.sectors = sectors at linked ⊢
  induction linked, enough using Linked.walk generalizing items device with
  | nil stopped =>
      have ended : isEndCluster _ = true := stopped
      refine ⟨device, ?_⟩
      rw [listClusters, if_pos ended]
      simp [listingReads, delivered, listItems, List.take_of_length_le room]
  | @cons cl rest fuel running tail shorter induction =>
      have going : ¬ isEndCluster cl = true := running
      rcases listSectors_delivers v maxItems cl (List.range v.secPerClus) room device with
        ⟨done, items', middle, ran, delivers⟩
      have split : listingReads v sectors (cl :: rest) =
          (List.range v.secPerClus).map (sectorEntries v device.sectors cl) ++
            [] :: listingReads v sectors rest := by
        rw [same]
        simp [listingReads]
      rw [listClusters, if_neg going, DiskM.bind_run ran, split]
      cases delivers with
      | done all => exact ⟨middle, by rw [all]; rfl⟩
      | going room' follows =>
          rw [follows]
          simp only [Bool.false_eq_true, if_false, DiskM.bind_apply, fatReadFatEntry_any,
            Option.bind_some]
          have sameAfter (count : Nat) : (device.after count).sectors = sectors := same
          have sameBetween := sameAfter
            ((List.range v.secPerClus).map (sectorEntries v device.sectors cl)).length
          generalize device.after _ = between at sameBetween ⊢
          cases failed : between.readFaults 0 with
          | true =>
              rw [delivered_failed failed]
              cases fuel with
              | zero => omega
              | succ fuel =>
                  -- an unread table entry counts as the end of the chain
                  refine ⟨between.after 1, ?_⟩
                  simp [listClusters, show isEndCluster eocMark = true by decide, listItems,
                    List.take_of_length_le room']
          | false =>
              rw [delivered_done failed, sameBetween]
              exact induction room' sameBetween

/-! ## Paths -/

theorem dirScan_reads_pursued {β : Type} {v : Vol} {sectors : Nat → Buffer}
    {visit : Nat → Nat → Buffer → Nat → Option β} {broken exhausted result : β}
    {dirCl count fuel : Nat}
    (decided : clusterVerdict v sectors visit exhausted ((fatEntry v sectors)^[count] dirCl) =
      some result)
    (before : ∀ earlier < count,
      clusterVerdict v sectors visit exhausted ((fatEntry v sectors)^[earlier] dirCl) = none)
    (enough : count + 1 < fuel) :
    Reading (dirScan v visit broken exhausted fuel dirCl) sectors fun failed value =>
      failed = true ∧ (value = broken ∨ value = exhausted) ∨ failed = false ∧ value = result := by
  induction count generalizing fuel dirCl with
  | zero =>
      cases fuel with
      | zero => omega
      | succ fuel =>
          have here : clusterVerdict v sectors visit exhausted dirCl = some result := decided
          rw [clusterVerdict] at here
          rw [dirScan]
          by_cases ended : isEndCluster dirCl = true
          · rw [if_pos ended, Option.some.injEq] at here
            rw [if_pos ended]
            exact .pure (.inr ⟨rfl, here⟩)
          · rw [if_neg ended] at here
            rw [if_neg ended]
            apply (clusterScan_reads v sectors visit broken dirCl).bind
            intro failed value outcome
            rcases outcome with ⟨rfl, rfl⟩ | ⟨rfl, rfl⟩
            · exact .pure (.inl ⟨rfl, .inl rfl⟩)
            · rw [here]
              exact .pure (.inr ⟨rfl, rfl⟩)
  | succ count induction =>
      cases fuel with
      | zero => omega
      | succ fuel =>
          have undecided : clusterVerdict v sectors visit exhausted dirCl = none :=
            before 0 (Nat.succ_pos count)
          have later := @induction (fatEntry v sectors dirCl) fuel decided
            (fun earlier below => before (earlier + 1) (Nat.succ_lt_succ below)) (by omega)
          rw [clusterVerdict] at undecided
          rw [dirScan]
          by_cases ended : isEndCluster dirCl = true
          · rw [if_pos ended] at undecided
            cases undecided
          · rw [if_neg ended] at undecided
            rw [if_neg ended]
            apply (clusterScan_reads v sectors visit broken dirCl).bind
            intro failed value outcome
            rcases outcome with ⟨rfl, rfl⟩ | ⟨rfl, rfl⟩
            · exact .pure (.inl ⟨rfl, .inl rfl⟩)
            · rw [undecided]
              apply (fatReadFatEntry_reads v sectors dirCl).bind
              intro failed value outcome
              rcases outcome with ⟨rfl, rfl⟩ | ⟨rfl, rfl⟩
              · cases fuel with
                | zero => omega
                | succ fuel =>
                    rw [dirScan, if_pos (by decide)]
                    exact .pure (.inl ⟨rfl, .inr rfl⟩)
              · exact later

/-- A lookup that finds an entry, whichever reads fail. -/
theorem Finds.reads {v : Vol} {sectors : Nat → Buffer} {want11 : List UInt8} {dirCl : Nat}
    {hit : DirHit} (finds : Finds v sectors want11 dirCl hit) :
    ∃ bound, ∀ fuel, bound ≤ fuel →
      Reading (dirFindEntry v want11 fuel dirCl) sectors fun failed value =>
        failed = true ∧ (∃ code, value = .error code) ∨ failed = false ∧ value = .ok hit := by
  rcases finds with ⟨count, decided, before⟩
  refine ⟨count + 2, ?_⟩
  intro fuel enough
  apply (dirScan_reads_pursued decided before (show count + 1 < fuel by omega)).mono
  intro failed value outcome
  rcases outcome with ⟨bad, rfl | rfl⟩ | fine
  · exact .inl ⟨bad, _, rfl⟩
  · exact .inl ⟨bad, _, rfl⟩
  · exact .inr fine

/-- The path leads from a directory to another one. -/
inductive Enters (v : Vol) (sectors : Nat → Buffer) : List (List UInt8) → Nat → Nat → Prop
  | here (dirCl) : Enters v sectors [] dirCl dirCl
  | into {comp rest dirCl hit target} : Finds v sectors (makeName83 comp) dirCl hit →
      direntIsDir hit.de = true →
      Enters v sectors rest (enterDir v (direntStartCluster hit.de)) target →
      Enters v sectors (comp :: rest) dirCl target

/-- On the way to a directory so many read calls are made; if one of them fails, so does the
listing, and otherwise it starts behind them. -/
theorem Enters.lists {v : Vol} {sectors : Nat → Buffer} {maxItems dirCl target : Nat}
    {comps : List (List UInt8)} (leads : Enters v sectors comps dirCl target) :
    ∃ bound, ∀ fuel, bound ≤ fuel → ∃ count, ∀ device : Device, device.sectors = sectors →
      ((∀ call < count, device.readFaults call = false) →
        listWalk v fuel maxItems comps dirCl device =
          listWalk v fuel maxItems [] target (device.after count)) ∧
      ((∃ call < count, device.readFaults call = true) →
        ∃ code items device', listWalk v fuel maxItems comps dirCl device =
          some ((code, items), device') ∧ code ≠ 0) := by
  induction leads with
  | here dirCl =>
      refine ⟨0, fun fuel _ => ⟨0, ?_⟩⟩
      intro device _
      exact ⟨fun _ => rfl, fun fails => absurd fails (by simp)⟩
  | @into comp rest dirCl hit target finds isDir further induction =>
      rcases finds.reads with ⟨bound, reads⟩
      rcases induction with ⟨bound', later⟩
      refine ⟨max bound bound', ?_⟩
      intro fuel enough
      rcases (reads fuel (by omega)).counted with ⟨count, found⟩
      rcases later fuel (by omega) with ⟨count', follows⟩
      refine ⟨count + count', ?_⟩
      intro device same
      have entered (succeeds : ∀ call < count, device.readFaults call = false) :
          listWalk v fuel maxItems (comp :: rest) dirCl device =
            listWalk v fuel maxItems rest (enterDir v (direntStartCluster hit.de))
              (device.after count) := by
        rw [listWalk, DiskM.bind_run ((found device same).1 succeeds)]
        dsimp only
        rw [if_pos isDir]
      constructor
      · intro succeeds
        have further := (follows (device.after count) same).1 fun call below =>
          succeeds (call + count) (by omega)
        rw [entered fun call below => succeeds call (by omega), further, Device.after_after]
      · intro fails
        by_cases early : ∃ call < count, device.readFaults call = true
        · rcases (found device same).2 early with ⟨value, device', ran, code, rfl⟩
          exact ⟨-2, [], device', by rw [listWalk, DiskM.bind_run ran]; rfl, by decide⟩
        · have succeeds : ∀ call < count, device.readFaults call = false := by simpa using early
          rw [entered succeeds]
          apply (follows (device.after count) same).2
          rcases fails with ⟨call, below, failed⟩
          have late : count ≤ call := by
            by_contra inside
            rw [succeeds call (by omega)] at failed
            cases failed
          have shifted : (device.after count).readFaults (call - count) = device.readFaults call :=
            congrArg device.readFaults (Nat.sub_add_cancel late)
          exact ⟨call - count, by omega, shifted.trans failed⟩

/-! ## Complete listings -/

/-- The driver returns what the walk does. -/
theorem fat32ListDirPath_asked {v : Vol} (fat : v.fsType = .fat32) {fuel : Nat} {path : CString}
    {maxItems code : Int} {items : List Dirent} {device device' : Device} (asked : 0 < maxItems)
    (ran : listWalk v fuel maxItems.toNat path.components83 v.rootClus device =
      some ((code, items), device')) :
    fat32ListDirPath v fuel path maxItems device = some ((v, code, items), device') := by
  rw [fat32ListDirPath, fat]
  dsimp only
  rw [if_neg (by omega), DiskM.bind_run ran]
  rfl

/-- For every directory and every pattern of failing reads: a listing that returns 0 has all
entries that are to be listed, in their order, exactly when a lookup of the path has failed, so
that it does not return 0, or nothing that is to be listed comes behind the first failing read of
the directory's own clusters. The lookups make the first `count` calls. -/
theorem fat32ListDirPath_complete_iff {v : Vol} (fat : v.fsType = .fat32)
    {sectors : Nat → Buffer} {path : CString} {dirCl : Nat} {chain : List Nat}
    (enters : Enters v sectors path.components83 v.rootClus dirCl)
    (linked : Linked (rawView v sectors).next EndOfChain dirCl chain) (maxItems : Int) :
    ∃ bound, ∀ fuel, bound ≤ fuel → ∃ count, ∀ device : Device, device.sectors = sectors →
      ∃ code items device', fat32ListDirPath v fuel path maxItems device =
          some ((v, code, items), device') ∧
        (code = 0 ↔ 0 < maxItems ∧ ∀ call < count, device.readFaults call = false) ∧
        ((code = 0 → items =
            (listItems (chainEntries v (rawView v sectors) chain)).take maxItems.toNat) ↔
          maxItems ≤ 0 ∨ (∃ call < count, device.readFaults call = true) ∨
            NothingLeft maxItems.toNat
              (delivered (device.after count).readFaults (listingReads v sectors chain))
              (undelivered (device.after count).readFaults (listingReads v sectors chain))) := by
  rcases @Enters.lists v sectors maxItems.toNat _ _ _ enters with ⟨bound, lists⟩
  refine ⟨max bound (chain.length + 1), ?_⟩
  intro fuel enough
  rcases lists fuel (by omega) with ⟨count, lookups⟩
  refine ⟨count, ?_⟩
  intro device same
  by_cases unasked : maxItems ≤ 0
  · refine ⟨-1, [], device, ?_, ?_, ?_⟩
    · rw [fat32ListDirPath, fat]
      dsimp only
      rw [if_pos unasked]
      rfl
    · exact ⟨fun zero => absurd zero (by decide), fun holds => by omega⟩
    · exact ⟨fun _ => .inl unasked, fun _ zero => absurd zero (by decide)⟩
  · by_cases fails : ∃ call < count, device.readFaults call = true
    · rcases (lookups device same).2 fails with ⟨code, items, device', ran, nonzero⟩
      refine ⟨code, items, device', fat32ListDirPath_asked fat (by omega) ran, ?_, ?_⟩
      · constructor
        · exact fun zero => absurd zero nonzero
        · intro holds
          rcases fails with ⟨call, below, failed⟩
          rw [holds.2 call below] at failed
          cases failed
      · exact ⟨fun _ => .inr (.inl fails), fun _ zero => absurd zero nonzero⟩
    · have succeeds : ∀ call < count, device.readFaults call = false := by simpa using fails
      have room : ([] : List Dirent).length ≤ maxItems.toNat := Nat.zero_le _
      rcases listClusters_delivers linked (show chain.length < fuel by omega) room
        (show (device.after count).sectors = sectors from same) with ⟨device', listed⟩
      have ran : listWalk v fuel maxItems.toNat path.components83 v.rootClus device =
          some ((0, (listItems (delivered (device.after count).readFaults
            (listingReads v sectors chain))).take maxItems.toNat), device') := by
        rw [(lookups device same).1 succeeds, listWalk, DiskM.bind_run listed]
        rfl
      refine ⟨0, _, device', fat32ListDirPath_asked fat (by omega) ran, ?_, ?_⟩
      · exact ⟨fun _ => ⟨by omega, succeeds⟩, fun _ => rfl⟩
      · rw [← listingReads_flatten,
          ← delivered_append_undelivered (device.after count).readFaults, ← nothingLeft_iff]
        constructor
        · exact fun complete => .inr (.inr (complete rfl))
        · intro holds _
          exact (holds.resolve_left unasked).resolve_left fails

/-- The small volume with an empty file in the first slot of the root directory. -/
def rootEntry : Nat → Buffer := fun lba =>
  if lba = 2 then putDirent (fun _ => 0) 0 (0x41 :: List.replicate 10 0x20) attrArchive 0 0
  else formatted lba

theorem rootEntry_linked :
    Linked (rawView smallVol rootEntry).next EndOfChain 2 [2] :=
  .cons (by decide) (.nil (by decide))

/-- Without a failing read the file is listed. -/
theorem fat32ListDirPath_complete_iff_healthy :
    ∃ fuel items device', fat32ListDirPath smallVol fuel (.ofArray []) 8
        (Device.healthy rootEntry) = some ((smallVol, 0, items), device') ∧
      items = (listItems (chainEntries smallVol (rawView smallVol rootEntry) [2])).take 8 := by
  rcases @fat32ListDirPath_complete_iff smallVol rfl rootEntry (.ofArray []) 2 [2]
    (.here 2) rootEntry_linked 8 with ⟨bound, lists⟩
  rcases lists bound (Nat.le_refl bound) with ⟨count, listed⟩
  rcases listed (Device.healthy rootEntry) rfl with ⟨code, items, device', ran, zero, complete⟩
  have succeeded : code = 0 := zero.mpr ⟨by decide, fun _ _ => rfl⟩
  subst succeeded
  refine ⟨bound, items, device', ran, complete.mpr (.inr (.inr (.inr (.inr ?_)))) rfl⟩
  have quiet : ∀ call, ((Device.healthy rootEntry).after count).readFaults call = false :=
    fun _ => rfl
  rw [undelivered_eq_nil quiet]
  exact fun _ absent => absurd absent List.not_mem_nil

/-- When the only sector of the directory cannot be read, an empty listing is reported. -/
theorem fat32ListDirPath_hides_entry :
    ¬ ∀ (v : Vol) (path : CString) (dirCl : Nat) (chain : List Nat) (fuel : Nat) (maxItems : Int)
        (device device' : Device) (code : Int) (items : List Dirent),
      v.fsType = .fat32 → Enters v device.sectors path.components83 v.rootClus dirCl →
      Linked (rawView v device.sectors).next EndOfChain dirCl chain →
      fat32ListDirPath v fuel path maxItems device = some ((v, code, items), device') →
      code = 0 → items =
        (listItems (chainEntries v (rawView v device.sectors) chain)).take maxItems.toNat := by
  intro claim
  have listed := claim smallVol (.ofArray []) 2 [2] 2 8 ⟨rootEntry, fun _ => true, fun _ => false⟩
    _ 0 [] rfl (.here 2) rootEntry_linked rfl rfl
  have shown : ((listItems (chainEntries smallVol (rawView smallVol rootEntry) [2])).take 8).length
      = 1 := by decide +kernel
  have none : (listItems (chainEntries smallVol (rawView smallVol rootEntry) [2])).take 8 = [] :=
    listed.symm
  rw [none] at shown
  exact absurd shown (by decide)

end ParanOS

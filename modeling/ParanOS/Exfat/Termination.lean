import ParanOS.Fat.Termination
import ParanOS.Exfat.File

/-! # When exFAT directory walks return

The lookup and the listing of exFAT directories on a device all of whose reads
succeed, with anything in the table and in the sectors. The lookup may note the
allocation bitmap on its way, which changes nothing of what it sees.
-/

namespace ParanOS

open Foundation

/-! ## Slots -/

/-- The volume without a note of the allocation bitmap. -/
def Vol.unnoted (v : Vol) : Vol := { v with exfatBitmapClus := 0, exfatBitmapSize := 0 }

/-- The sector of a slot. -/
def slotSector (v : Vol) (sectors : Nat → Buffer) (cl off : Nat) : Buffer :=
  sectors (u32 (clusToLba v cl + off / v.bytesPerSec))

def slotMark (v : Vol) (sectors : Nat → Buffer) (cl off : Nat) : UInt8 :=
  slotSector v sectors cl off (off % v.bytesPerSec)

/-- The set that starts in a slot, as the driver reads and parses it. -/
def setOn (v : Vol) (sectors : Nat → Buffer) (cl off : Nat) : Option (List UInt8 × EntryInfo) :=
  ((exfatSetAt v cl off (slotSector v sectors cl off) (Device.healthy sectors)).map
    Prod.fst).getD none

theorem collectLoop_healthy (v : Vol) (sectors : Nat → Buffer) (lbaBase startByte count i : Nat)
    (last : Option (Nat × Buffer)) (out : Buffer) :
    ∃ set, collectLoop v lbaBase startByte count i last out (Device.healthy sectors) =
      some (set, Device.healthy sectors) := by
  induction count generalizing i last out with
  | zero => exact ⟨_, rfl⟩
  | succ count induction =>
      simp only [collectLoop]
      cases last.filter fun cached => cached.1 == (startByte + i * 32) / v.bytesPerSec with
      | some cached => exact induction _ _ _
      | none =>
          simp only [DiskM.bind_apply, rd_healthy, Option.bind_some]
          exact induction _ _ _

theorem exfatSetAt_healthy (v : Vol) (sectors : Nat → Buffer) (cl off : Nat) :
    exfatSetAt v cl off (slotSector v sectors cl off) (Device.healthy sectors) =
      some (setOn v sectors cl off, Device.healthy sectors) := by
  have returned : ∃ set, exfatSetAt v cl off (slotSector v sectors cl off)
      (Device.healthy sectors) = some (set, Device.healthy sectors) := by
    simp only [exfatSetAt]
    split
    · exact ⟨_, rfl⟩
    · split
      · exact ⟨_, rfl⟩
      · split
        · exact ⟨_, rfl⟩
        · rw [exfatCollectEntries]
          split
          · exact ⟨_, rfl⟩
          · rcases collectLoop_healthy v sectors (clusToLba v cl) off
              ((slotSector v sectors cl off (off % v.bytesPerSec + 1)).toNat + 1) 0 none
              (fun _ => 0) with ⟨set, ran⟩
            rw [DiskM.bind_run ran]
            cases set with
            | none => exact ⟨_, rfl⟩
            | some set => exact ⟨_, rfl⟩
  rcases returned with ⟨set, ran⟩
  simp [setOn, ran]

theorem collectLoop_unnoted (v : Vol) (lbaBase startByte count i : Nat)
    (last : Option (Nat × Buffer)) (out : Buffer) :
    collectLoop v.unnoted lbaBase startByte count i last out =
      collectLoop v lbaBase startByte count i last out := by
  induction count generalizing i last out with
  | zero => rfl
  | succ count induction =>
      have sectorSize : v.unnoted.bytesPerSec = v.bytesPerSec := rfl
      simp only [collectLoop, induction, sectorSize]

theorem exfatSetAt_unnoted (v : Vol) (cl off : Nat) (sec : Buffer) :
    exfatSetAt v.unnoted cl off sec = exfatSetAt v cl off sec := by
  have collect : ∀ total, exfatCollectEntries v.unnoted cl off total =
      exfatCollectEntries v cl off total := by
    intro total
    simp only [exfatCollectEntries, collectLoop_unnoted]
    rfl
  simp only [exfatSetAt, collect]
  rfl

theorem setOn_unnoted (v : Vol) (sectors : Nat → Buffer) (cl off : Nat) :
    setOn v.unnoted sectors cl off = setOn v sectors cl off := by
  simp only [setOn, exfatSetAt_unnoted]
  rfl

/-- Volumes that differ in the note of the bitmap only. -/
def SameLayout (v v' : Vol) : Prop := v'.unnoted = v.unnoted

theorem SameLayout.slotSector {v v' : Vol} (same : SameLayout v v') (sectors : Nat → Buffer)
    (cl off : Nat) : slotSector v' sectors cl off = ParanOS.slotSector v sectors cl off := by
  have agree := congrArg (fun v => ParanOS.slotSector v sectors cl off) same
  exact agree

theorem SameLayout.slotMark {v v' : Vol} (same : SameLayout v v') (sectors : Nat → Buffer)
    (cl off : Nat) : slotMark v' sectors cl off = ParanOS.slotMark v sectors cl off := by
  have agree := congrArg (fun v => ParanOS.slotMark v sectors cl off) same
  exact agree

theorem SameLayout.fatEntry {v v' : Vol} (same : SameLayout v v') (sectors : Nat → Buffer) :
    fatEntry v' sectors = ParanOS.fatEntry v sectors := by
  have agree := congrArg (fun v => ParanOS.fatEntry v sectors) same
  exact agree

theorem SameLayout.clusterOffsets {v v' : Vol} (same : SameLayout v v') :
    clusterOffsets v' = ParanOS.clusterOffsets v := by
  have agree := congrArg ParanOS.clusterOffsets same
  exact agree

theorem SameLayout.setOn {v v' : Vol} (same : SameLayout v v') (sectors : Nat → Buffer)
    (cl off : Nat) : setOn v' sectors cl off = ParanOS.setOn v sectors cl off := by
  rw [← setOn_unnoted, same, setOn_unnoted]

theorem SameLayout.trans {v v' v'' : Vol} (first : SameLayout v v') (second : SameLayout v' v'') :
    SameLayout v v'' := Eq.trans second first

theorem noteBitmap_sameLayout (v : Vol) (sec : Buffer) (off : Nat) :
    SameLayout v (noteBitmap v sec off) := by
  rw [noteBitmap]
  split <;> rfl

/-! ## Lookups -/

/-- What ends the lookup of a name: the end marker or a set of that name. -/
def EndsLookup (v : Vol) (sectors : Nat → Buffer) (want : List UInt8) (cl off : Nat) : Prop :=
  slotMark v sectors cl off = 0x00 ∨
    ∃ name info, setOn v sectors cl off = some (name, info) ∧ sameName want name = true

/-- The chain comes to its end or to a cluster with a slot that ends the lookup. -/
def LookupEnds (v : Vol) (sectors : Nat → Buffer) (want : List UInt8) (cl : Nat) : Prop :=
  ∃ count, EndOfChain (linkAt v sectors cl count) ∨
    ∃ off ∈ clusterOffsets v, EndsLookup v sectors want (linkAt v sectors cl count) off

/-- What the lookup finds in a slot. -/
def slotVerdict (v : Vol) (sectors : Nat → Buffer) (want : List UInt8) (cl off : Nat) :
    Option (Except Int EntryInfo) :=
  if slotMark v sectors cl off = 0x00 then some (.error (-2))
  else
    match setOn v sectors cl off with
    | none => none
    | some (name, info) =>
        if sameName want name then some (.ok { info with dirCluster := cl, dirByteOff := off })
        else none

def findVerdict (v : Vol) (sectors : Nat → Buffer) (want : List UInt8) (cl : Nat) :
    Option (Except Int EntryInfo) :=
  if isEndCluster cl then some (.error (-3))
  else (clusterOffsets v).findSome? (slotVerdict v sectors want cl)

theorem slotVerdict_ne_none (v : Vol) (sectors : Nat → Buffer) (want : List UInt8)
    (cl off : Nat) :
    slotVerdict v sectors want cl off ≠ none ↔ EndsLookup v sectors want cl off := by
  rw [slotVerdict, EndsLookup]
  by_cases marker : slotMark v sectors cl off = 0x00
  · simp [marker]
  · cases set : setOn v sectors cl off with
    | none => simp [marker]
    | some parsed =>
        rcases parsed with ⟨name, info⟩
        by_cases same : sameName want name = true
        · simp [marker, same]
        · simp [marker, same]

theorem SameLayout.slotVerdict {v v' : Vol} (same : SameLayout v v') (sectors : Nat → Buffer)
    (want : List UInt8) (cl : Nat) :
    slotVerdict v' sectors want cl = ParanOS.slotVerdict v sectors want cl := by
  funext off
  simp only [ParanOS.slotVerdict, same.setOn, same.slotMark]

theorem findSlots_eq_findSome? (v : Vol) (sectors : Nat → Buffer) (want : List UInt8) (cl : Nat)
    (offsets : List Nat) :
    ∃ v', SameLayout v v' ∧ findSlots v want cl offsets (Device.healthy sectors) =
      some ((v', offsets.findSome? (slotVerdict v sectors want cl)), Device.healthy sectors) := by
  induction offsets generalizing v with
  | nil => exact ⟨v, rfl, rfl⟩
  | cons off rest induction =>
      have sector : sectors (u32 (clusToLba v cl + off / v.bytesPerSec)) =
          slotSector v sectors cl off := rfl
      have type : slotSector v sectors cl off (off % v.bytesPerSec) =
          slotMark v sectors cl off := rfl
      rw [findSlots, DiskM.bind_apply, rd_healthy, Option.bind_some]
      simp only [sector, type, List.findSome?_cons]
      by_cases marker : slotMark v sectors cl off = 0x00
      · refine ⟨v, rfl, ?_⟩
        simp [slotVerdict, marker]
      · have noted := noteBitmap_sameLayout v (slotSector v sectors cl off) (off % v.bytesPerSec)
        generalize noteBitmap v (slotSector v sectors cl off) (off % v.bytesPerSec) = v₁ at noted ⊢
        have ran := exfatSetAt_healthy v₁ sectors cl off
        rw [noted.slotSector, noted.setOn] at ran
        rw [if_neg marker, DiskM.bind_run ran, slotVerdict, if_neg marker]
        rcases induction v₁ with ⟨v', same, later⟩
        rw [noted.slotVerdict] at later
        cases setOn v sectors cl off with
        | none => exact ⟨v', noted.trans same, later⟩
        | some parsed =>
            rcases parsed with ⟨name, info⟩
            by_cases hit : sameName want name = true
            · refine ⟨v₁, noted, ?_⟩
              simp [hit]
            · refine ⟨v', noted.trans same, ?_⟩
              simpa [hit] using later

theorem SameLayout.findVerdict {v v' : Vol} (same : SameLayout v v') (sectors : Nat → Buffer)
    (want : List UInt8) : findVerdict v' sectors want = ParanOS.findVerdict v sectors want := by
  funext cl
  simp only [ParanOS.findVerdict, same.slotVerdict, same.clusterOffsets]

theorem exfatFindInDir_eq_pursue (v : Vol) (sectors : Nat → Buffer) (want : List UInt8)
    (fuel cl : Nat) :
    ∃ v', SameLayout v v' ∧ exfatFindInDir want fuel cl v (Device.healthy sectors) =
      (pursue (findVerdict v sectors want) (fatEntry v sectors) fuel cl).map
        fun result => ((v', result), Device.healthy sectors) := by
  induction fuel generalizing cl v with
  | zero => exact ⟨v, rfl, rfl⟩
  | succ fuel induction =>
      rw [exfatFindInDir, pursue, findVerdict]
      by_cases ended : isEndCluster cl = true
      · exact ⟨v, rfl, by simp [ended]⟩
      · rcases findSlots_eq_findSome? v sectors want cl (clusterOffsets v) with ⟨v', same, ran⟩
        rw [if_neg ended, if_neg ended, DiskM.bind_run ran]
        cases (clusterOffsets v).findSome? (slotVerdict v sectors want cl) with
        | some result => exact ⟨v', same, rfl⟩
        | none =>
            simp only [DiskM.bind_apply, fatReadFatEntry_healthy, Option.bind_some]
            rcases induction v' (fatEntry v' sectors cl) with ⟨v'', again, later⟩
            rw [same.findVerdict, same.fatEntry] at later
            rw [same.fatEntry]
            exact ⟨v'', same.trans again, later⟩

theorem exists_pursued_findVerdict (v : Vol) (sectors : Nat → Buffer) (want : List UInt8)
    (cl : Nat) :
    (∃ result, Pursued (findVerdict v sectors want) (fatEntry v sectors) cl result) ↔
      LookupEnds v sectors want cl := by
  have decided : ∀ cl, findVerdict v sectors want cl ≠ none ↔
      EndOfChain cl ∨ ∃ off ∈ clusterOffsets v, EndsLookup v sectors want cl off := by
    intro cl
    rw [findVerdict]
    by_cases ended : isEndCluster cl = true
    · simp [ended, EndOfChain]
    · simp only [ended, Bool.false_eq_true, if_false, ne_eq, List.findSome?_eq_none_iff,
        not_forall, EndOfChain, false_or, ← slotVerdict_ne_none, exists_prop]
  rw [exists_pursued_iff]
  simp only [decided, LookupEnds, linkAt]

theorem exfatFindInDir_returns_iff (v : Vol) (sectors : Nat → Buffer) (want : List UInt8)
    (cl : Nat) :
    Returns (fun fuel => exfatFindInDir want fuel cl v) sectors ↔
      LookupEnds v sectors want cl := by
  rw [← exists_pursued_findVerdict, exists_pursued_iff, ← exists_pursue_iff]
  constructor
  · rintro ⟨fuel, ran⟩
    rcases exfatFindInDir_eq_pursue v sectors want fuel cl with ⟨v', _, search⟩
    refine ⟨fuel, ?_⟩
    simpa [search] using ran
  · rintro ⟨fuel, ran⟩
    rcases exfatFindInDir_eq_pursue v sectors want fuel cl with ⟨v', _, search⟩
    refine ⟨fuel, ?_⟩
    simpa [search] using ran

/-! ## Listings -/

/-- The number of sets that start in the slots. -/
def setsIn (v : Vol) (sectors : Nat → Buffer) (cl : Nat) (offsets : List Nat) : Nat :=
  offsets.countP fun off => (setOn v sectors cl off).isSome

/-- The number of sets in the first clusters of the chain. -/
def setsBefore (v : Vol) (sectors : Nat → Buffer) (dirCl : Nat) : Nat → Nat
  | 0 => 0
  | count + 1 => setsBefore v sectors dirCl count +
      setsIn v sectors (linkAt v sectors dirCl count) (clusterOffsets v)

/-- There is an end marker among the slots before as many sets as are asked for. -/
def MarkerSeen (v : Vol) (sectors : Nat → Buffer) (maxItems cl before : Nat)
    (offsets : List Nat) : Prop :=
  ∃ passed off rest, offsets = passed ++ off :: rest ∧ slotMark v sectors cl off = 0x00 ∧
    before + setsIn v sectors cl passed < maxItems

/-- The chain comes to its end, or to an end marker before as many sets as are asked
for. -/
def SetListingEnds (v : Vol) (sectors : Nat → Buffer) (maxItems dirCl : Nat) : Prop :=
  ∃ count, EndOfChain (linkAt v sectors dirCl count) ∨
    MarkerSeen v sectors maxItems (linkAt v sectors dirCl count) (setsBefore v sectors dirCl count)
      (clusterOffsets v)

theorem setsIn_cons (v : Vol) (sectors : Nat → Buffer) (cl off : Nat) (rest : List Nat) :
    setsIn v sectors cl (off :: rest) =
      (if (setOn v sectors cl off).isSome then 1 else 0) + setsIn v sectors cl rest := by
  rw [setsIn, List.countP_cons, Nat.add_comm]
  rfl

theorem markerSeen_cons {v : Vol} {sectors : Nat → Buffer} {maxItems cl before off : Nat}
    {rest : List Nat} :
    MarkerSeen v sectors maxItems cl before (off :: rest) ↔
      slotMark v sectors cl off = 0x00 ∧ before < maxItems ∨
      MarkerSeen v sectors maxItems cl
        (before + if (setOn v sectors cl off).isSome then 1 else 0) rest := by
  constructor
  · rintro ⟨passed, marked, later, split, marker, room⟩
    cases passed with
    | nil =>
        simp only [List.nil_append, List.cons.injEq] at split
        rcases split with ⟨rfl, _⟩
        exact .inl ⟨marker, by simpa [setsIn] using room⟩
    | cons head passed =>
        simp only [List.cons_append, List.cons.injEq] at split
        rcases split with ⟨rfl, rfl⟩
        rw [setsIn_cons] at room
        exact .inr ⟨passed, marked, later, rfl, marker, by omega⟩
  · intro seen
    cases seen with
    | inl here => exact ⟨[], off, rest, rfl, here.1, by simpa [setsIn] using here.2⟩
    | inr behind =>
        rcases behind with ⟨passed, marked, later, rfl, marker, room⟩
        refine ⟨off :: passed, marked, later, rfl, marker, ?_⟩
        rw [setsIn_cons]
        omega

/-- A listing that has enough does not see the marker. -/
theorem MarkerSeen.room {v : Vol} {sectors : Nat → Buffer} {maxItems cl before : Nat}
    {offsets : List Nat} (seen : MarkerSeen v sectors maxItems cl before offsets) :
    before < maxItems := by
  rcases seen with ⟨passed, off, rest, _, _, room⟩
  omega

/-- What the slot loop does: a result just where it sees an end marker, and otherwise
an item for each set until there are enough. -/
structure SetStep (v : Vol) (sectors : Nat → Buffer) (maxItems cl : Nat) (offsets : List Nat)
    (before : Nat) (code : Option Int) (after : Nat) : Prop where
  seen : code ≠ none ↔ MarkerSeen v sectors maxItems cl before offsets
  passed : code = none → after = before + setsIn v sectors cl offsets ∨
    maxItems ≤ after ∧ maxItems ≤ before + setsIn v sectors cl offsets

theorem exfatListSlots_step (v : Vol) (sectors : Nat → Buffer) (maxItems cl : Nat)
    (offsets : List Nat) (items : List Dirent) :
    ∃ code items', exfatListSlots v maxItems cl offsets items (Device.healthy sectors) =
        some ((code, items'), Device.healthy sectors) ∧
      SetStep v sectors maxItems cl offsets items.length code items'.length := by
  induction offsets generalizing items with
  | nil =>
      refine ⟨none, items, rfl, ?_, fun _ => .inl (by simp [setsIn])⟩
      simp [MarkerSeen]
  | cons off rest induction =>
      rw [exfatListSlots]
      by_cases full : items.length ≥ maxItems
      · refine ⟨none, items, by rw [if_pos full]; rfl, ?_, fun _ => .inr ⟨full, by omega⟩⟩
        simp only [ne_eq, not_true_eq_false, false_iff]
        intro seen
        have room := seen.room
        omega
      · have sector : sectors (u32 (clusToLba v cl + off / v.bytesPerSec)) =
            slotSector v sectors cl off := rfl
        have type : slotSector v sectors cl off (off % v.bytesPerSec) =
            slotMark v sectors cl off := rfl
        rw [if_neg full, DiskM.bind_apply, rd_healthy, Option.bind_some]
        simp only [sector, type]
        by_cases marker : slotMark v sectors cl off = 0x00
        · refine ⟨some 0, items, by rw [if_pos marker]; rfl, ?_, by simp⟩
          simp only [ne_eq, reduceCtorEq, not_false_eq_true, true_iff]
          exact markerSeen_cons.mpr (.inl ⟨marker, by omega⟩)
        · have ran := exfatSetAt_healthy v sectors cl off
          rw [if_neg marker, DiskM.bind_run ran]
          have here : ¬ (slotMark v sectors cl off = 0x00 ∧ items.length < maxItems) := by
            simp [marker]
          cases set : setOn v sectors cl off with
          | none =>
              rcases induction items with ⟨code, items', rest, step⟩
              refine ⟨code, items', rest, ?_, ?_⟩
              · rw [step.seen, markerSeen_cons]
                simp [here, set]
              · rw [setsIn_cons]
                simpa [set] using step.passed
          | some parsed =>
              rcases parsed with ⟨name, info⟩
              rcases induction (items ++ [⟨(name.takeWhile (· ≠ 0)).take 12,
                if info.isDir then 0x10 else 0x20, info.size % 4294967296⟩]) with
                ⟨code, items', rest, step⟩
              rw [List.length_append, List.length_singleton] at step
              refine ⟨code, items', rest, ?_, ?_⟩
              · rw [step.seen, markerSeen_cons]
                simp [here, set]
              · intro none
                have counts := step.passed none
                rw [setsIn_cons]
                simp only [set, Option.isSome_some, if_true]
                omega

/-- What the slot loop does in a cluster. -/
def listSetCluster (v : Vol) (sectors : Nat → Buffer) (maxItems cl : Nat)
    (items : List Dirent) : Option Int × List Dirent :=
  ((exfatListSlots v maxItems cl (clusterOffsets v) items (Device.healthy sectors)).map
    Prod.fst).getD (none, items)

theorem listSetCluster_step (v : Vol) (sectors : Nat → Buffer) (maxItems cl : Nat)
    (items : List Dirent) :
    exfatListSlots v maxItems cl (clusterOffsets v) items (Device.healthy sectors) =
      some (listSetCluster v sectors maxItems cl items, Device.healthy sectors) ∧
      SetStep v sectors maxItems cl (clusterOffsets v) items.length
        (listSetCluster v sectors maxItems cl items).1
        (listSetCluster v sectors maxItems cl items).2.length := by
  rcases exfatListSlots_step v sectors maxItems cl (clusterOffsets v) items with
    ⟨code, items', ran, step⟩
  have result : listSetCluster v sectors maxItems cl items = (code, items') := by
    simp [listSetCluster, ran]
  rw [result]
  exact ⟨ran, step⟩

/-- The state of the listing loop is the cluster and the items so far. -/
def setListVerdict (v : Vol) (sectors : Nat → Buffer) (maxItems : Nat)
    (state : Nat × List Dirent) : Option (Int × List Dirent) :=
  if isEndCluster state.1 then some (0, state.2)
  else (listSetCluster v sectors maxItems state.1 state.2).1.map fun code =>
    (code, if code = 0 then (listSetCluster v sectors maxItems state.1 state.2).2 else [])

def setListNext (v : Vol) (sectors : Nat → Buffer) (maxItems : Nat) (state : Nat × List Dirent) :
    Nat × List Dirent :=
  (fatEntry v sectors state.1, (listSetCluster v sectors maxItems state.1 state.2).2)

theorem exfatListDir_eq_pursue (v : Vol) (sectors : Nat → Buffer) (maxItems fuel cl : Nat)
    (items : List Dirent) :
    exfatListDir v maxItems fuel cl items (Device.healthy sectors) =
      (pursue (setListVerdict v sectors maxItems) (setListNext v sectors maxItems) fuel
        (cl, items)).map fun result => (result, Device.healthy sectors) := by
  induction fuel generalizing cl items with
  | zero => rfl
  | succ fuel induction =>
      have ran := (listSetCluster_step v sectors maxItems cl items).1
      rw [exfatListDir, pursue, setListVerdict]
      by_cases ended : isEndCluster cl = true
      · simp [ended]
      · rw [if_neg ended, if_neg ended, DiskM.bind_run ran]
        cases listed : listSetCluster v sectors maxItems cl items with
        | mk code items' =>
            cases code with
            | some code => rfl
            | none =>
                simp only [DiskM.bind_apply, fatReadFatEntry_healthy, Option.bind_some,
                  Option.map_none]
                rw [induction, setListNext, listed]

theorem markerSeen_congr {v : Vol} {sectors : Nat → Buffer} {maxItems cl before before' : Nat}
    {offsets : List Nat} (agree : before = before' ∨ maxItems ≤ before ∧ maxItems ≤ before') :
    MarkerSeen v sectors maxItems cl before offsets ↔
      MarkerSeen v sectors maxItems cl before' offsets := by
  cases agree with
  | inl same => rw [same]
  | inr full =>
      constructor
      · intro seen
        have room := seen.room
        omega
      · intro seen
        have room := seen.room
        omega

/-- As long as the listing goes on, it follows the chain and has an item for every set,
or enough of them. -/
theorem setListNext_iterate {v : Vol} {sectors : Nat → Buffer} {maxItems dirCl count : Nat}
    (going : ∀ earlier < count, setListVerdict v sectors maxItems
      ((setListNext v sectors maxItems)^[earlier] (dirCl, [])) = none) :
    ((setListNext v sectors maxItems)^[count] (dirCl, [])).1 = linkAt v sectors dirCl count ∧
      (((setListNext v sectors maxItems)^[count] (dirCl, [])).2.length =
          setsBefore v sectors dirCl count ∨
        maxItems ≤ ((setListNext v sectors maxItems)^[count] (dirCl, [])).2.length ∧
          maxItems ≤ setsBefore v sectors dirCl count) := by
  induction count with
  | zero => exact ⟨rfl, .inl rfl⟩
  | succ count induction =>
      rcases induction fun earlier below => going earlier (by omega) with ⟨cluster, length⟩
      have now := going count (by omega)
      rw [Function.iterate_succ_apply']
      generalize (setListNext v sectors maxItems)^[count] (dirCl, []) = state
        at cluster length now ⊢
      have step := (listSetCluster_step v sectors maxItems state.1 state.2).2
      have passed : (listSetCluster v sectors maxItems state.1 state.2).1 = none := by
        rw [setListVerdict] at now
        by_cases ended : isEndCluster state.1 = true
        · simp [ended] at now
        · simpa [ended] using now
      have counts := step.passed passed
      refine ⟨?_, ?_⟩
      · rw [setListNext, cluster, linkAt, linkAt, Function.iterate_succ_apply']
      · rw [setsBefore, ← cluster]
        simp only [setListNext]
        omega

theorem setListVerdict_reached_iff (v : Vol) (sectors : Nat → Buffer) (maxItems dirCl : Nat) :
    (∃ count, setListVerdict v sectors maxItems
        ((setListNext v sectors maxItems)^[count] (dirCl, [])) ≠ none) ↔
      SetListingEnds v sectors maxItems dirCl := by
  apply exists_verdict_iff
  intro count going
  rcases setListNext_iterate going with ⟨cluster, length⟩
  generalize (setListNext v sectors maxItems)^[count] (dirCl, []) = state at cluster length ⊢
  have step := (listSetCluster_step v sectors maxItems state.1 state.2).2
  rw [← markerSeen_congr length, ← cluster, ← step.seen, setListVerdict]
  by_cases ended : isEndCluster state.1 = true
  · simp [ended, EndOfChain]
  · simp [ended, EndOfChain]

/-! ## Paths -/

/-- The lookup in a directory comes to this entry. -/
def FindsSet (v : Vol) (sectors : Nat → Buffer) (want : List UInt8) (dir : Nat)
    (info : EntryInfo) : Prop :=
  Pursued (findVerdict v sectors want) (fatEntry v sectors) dir (.ok info)

/-- The lookup of each component in turn ends, and so does the listing of the directory
that they lead to. -/
def SetWalkEnds (v : Vol) (sectors : Nat → Buffer) (maxItems : Nat) :
    List (List UInt8) → Nat → Prop
  | [], dir => SetListingEnds v sectors maxItems dir
  | comp :: rest, dir =>
      LookupEnds v sectors comp dir ∧
        ∀ info, FindsSet v sectors comp dir info → info.isDir = true →
          SetWalkEnds v sectors maxItems rest info.cluster

theorem exfatListSlots_unnoted (v : Vol) (maxItems cl : Nat) (offsets : List Nat)
    (items : List Dirent) :
    exfatListSlots v.unnoted maxItems cl offsets items =
      exfatListSlots v maxItems cl offsets items := by
  induction offsets generalizing items with
  | nil => rfl
  | cons off rest induction =>
      have sectorSize : v.unnoted.bytesPerSec = v.bytesPerSec := rfl
      have address : clusToLba v.unnoted cl = clusToLba v cl := rfl
      simp only [exfatListSlots, exfatSetAt_unnoted, induction, sectorSize, address]

theorem exfatListDir_unnoted (v : Vol) (maxItems fuel cl : Nat) (items : List Dirent) :
    exfatListDir v.unnoted maxItems fuel cl items = exfatListDir v maxItems fuel cl items := by
  induction fuel generalizing cl items with
  | zero => rfl
  | succ fuel induction =>
      have offsets : clusterOffsets v.unnoted = clusterOffsets v := rfl
      have entry : fatReadFatEntry v.unnoted = fatReadFatEntry v := rfl
      simp only [exfatListDir, exfatListSlots_unnoted, induction, offsets, entry]

theorem SameLayout.exfatListDir {v v' : Vol} (same : SameLayout v v') (maxItems fuel cl : Nat)
    (items : List Dirent) :
    exfatListDir v' maxItems fuel cl items = ParanOS.exfatListDir v maxItems fuel cl items := by
  rw [← exfatListDir_unnoted, same, exfatListDir_unnoted]

theorem SetWalkEnds.of_exfatListWalk {v : Vol} {sectors : Nat → Buffer} {maxItems fuel : Nat}
    {comps : List (List UInt8)} {dir : Nat}
    {v' : Vol} (same : SameLayout v v')
    (ran : exfatListWalk fuel maxItems comps dir v' (Device.healthy sectors) ≠ none) :
    SetWalkEnds v sectors maxItems comps dir := by
  induction comps generalizing dir v' with
  | nil =>
      rw [SetWalkEnds, ← setListVerdict_reached_iff, ← exists_pursue_iff]
      refine ⟨fuel, ?_⟩
      intro stuck
      simp [exfatListWalk, same.exfatListDir, exfatListDir_eq_pursue, stuck] at ran
  | cons comp rest induction =>
      rcases exfatFindInDir_eq_pursue v' sectors comp fuel dir with ⟨v'', again, search⟩
      rw [same.findVerdict, same.fatEntry] at search
      cases found : pursue (findVerdict v sectors comp) (fatEntry v sectors) fuel dir with
      | none =>
          rw [found] at search
          simp [exfatListWalk, search] at ran
      | some result =>
          rw [found] at search
          have pursued := pursued_of_pursue found
          refine ⟨(exists_pursued_findVerdict v sectors comp dir).mp ⟨result, pursued⟩, ?_⟩
          intro info finds isDir
          rw [pursued.unique finds] at search
          apply induction (same.trans again)
          simpa [exfatListWalk, search, isDir] using ran

theorem SetWalkEnds.exfatListWalk {v : Vol} {sectors : Nat → Buffer} {maxItems : Nat}
    {comps : List (List UInt8)} {dir : Nat} (ends : SetWalkEnds v sectors maxItems comps dir) :
    ∃ bound, ∀ fuel v', bound ≤ fuel → SameLayout v v' →
      ParanOS.exfatListWalk fuel maxItems comps dir v' (Device.healthy sectors) ≠ none := by
  induction comps generalizing dir with
  | nil =>
      rw [SetWalkEnds, ← setListVerdict_reached_iff, ← exists_pursued_iff] at ends
      rcases ends with ⟨result, pursued⟩
      rcases pursued.pursue with ⟨bound, enough⟩
      refine ⟨bound, ?_⟩
      intro fuel v' above same
      simp [ParanOS.exfatListWalk, same.exfatListDir, exfatListDir_eq_pursue, enough fuel above]
  | cons comp rest induction =>
      rcases ends with ⟨lookup, later⟩
      rw [← exists_pursued_findVerdict] at lookup
      rcases lookup with ⟨result, pursued⟩
      rcases pursued.pursue with ⟨bound, enough⟩
      have search : ∀ fuel v', bound ≤ fuel → SameLayout v v' → ∃ v'', SameLayout v v'' ∧
          exfatFindInDir comp fuel dir v' (Device.healthy sectors) =
            some ((v'', result), Device.healthy sectors) := by
        intro fuel v' above same
        rcases exfatFindInDir_eq_pursue v' sectors comp fuel dir with ⟨v'', again, ran⟩
        rw [same.findVerdict, same.fatEntry, enough fuel above] at ran
        exact ⟨v'', same.trans again, ran⟩
      cases result with
      | error code =>
          refine ⟨bound, ?_⟩
          intro fuel v' above same
          rcases search fuel v' above same with ⟨v'', _, ran⟩
          simp [ParanOS.exfatListWalk, ran]
      | ok info =>
          cases isDir : info.isDir with
          | false =>
              refine ⟨bound, ?_⟩
              intro fuel v' above same
              rcases search fuel v' above same with ⟨v'', _, ran⟩
              simp [ParanOS.exfatListWalk, ran, isDir]
          | true =>
              rcases induction (later info pursued isDir) with ⟨bound', enough'⟩
              refine ⟨max bound bound', ?_⟩
              intro fuel v' above same
              rcases search fuel v' (by omega) same with ⟨v'', same', ran⟩
              simpa [ParanOS.exfatListWalk, ran, isDir] using enough' fuel v'' (by omega) same'

theorem exfatListWalk_returns_iff (v : Vol) (sectors : Nat → Buffer) (maxItems : Nat)
    (comps : List (List UInt8)) (dir : Nat) :
    Returns (fun fuel => exfatListWalk fuel maxItems comps dir v) sectors ↔
      SetWalkEnds v sectors maxItems comps dir := by
  constructor
  · rintro ⟨fuel, ran⟩
    exact .of_exfatListWalk rfl ran
  · intro ends
    rcases ends.exfatListWalk with ⟨bound, enough⟩
    exact ⟨bound, enough bound v (Nat.le_refl bound) rfl⟩

end ParanOS

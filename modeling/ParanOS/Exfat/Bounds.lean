import ParanOS.Exfat.Bitmap
import ParanOS.Exfat.Lookup
import ParanOS.Exfat.Termination
import ParanOS.Foundation.Logged

/-! # The buffers of the entry scans

`exfat_find_in_dir` and `exfat_list_dir` collect a set in a buffer of 32 slots and parse its
name into one of 256 characters. Here they note every byte they store in the two and every byte
the parser reads.
-/

namespace ParanOS

open Foundation

/-- An access to one of the two buffers, by the index of the byte. -/
inductive Access
  /-- `exfat_collect_entries` stores a byte of the set. -/
  | stored (index : Nat)
  /-- `exfat_parse_file_set` reads a byte of a set of so many collected bytes. -/
  | parsed (index collected : Nat)
  /-- `exfat_parse_file_set` stores a character of the name or the NUL behind it. -/
  | named (index : Nat)

/-- `setbuf[32 * 32]`, the bytes just collected, and `entry_name[256]`. -/
def Access.InBounds : Access → Prop
  | .stored index => index < 1024
  | .parsed index collected => index < collected
  | .named index => index < 256

/-! ## The scans with their accesses -/

/-- The accesses of `memcpy(out + i * 32, sec + off_in_sec, 32)` to the set. -/
def slotStores (i : Nat) : List Access := (List.range 32).map fun index => .stored (i * 32 + index)

def collectLoopLogged (v : Vol) (lbaBase startByte : Nat) :
    (count i : Nat) → Option (Nat × Buffer) → Buffer → LogM Access (Option Buffer)
  | 0, _, _, out => pure (some out)
  | count + 1, i, last, out =>
      let byteOff := startByte + i * 32
      let secIdx := byteOff / v.bytesPerSec
      let take := fun sec : Buffer => out.copy (i * 32) 32 fun index =>
        sec (byteOff % v.bytesPerSec + index)
      match last.filter fun cached => cached.1 == secIdx with
      | some (_, sec) => do
          LogM.note (slotStores i)
          collectLoopLogged v lbaBase startByte count (i + 1) last (take sec)
      | none => do
          match ← LogM.lift (rd (lbaBase + secIdx)) with
          | none => pure none
          | some sec => do
              LogM.note (slotStores i)
              collectLoopLogged v lbaBase startByte count (i + 1) (some (secIdx, sec)) (take sec)

def exfatCollectEntriesLogged (v : Vol) (dirCl startByte totalEntries : Nat) :
    LogM Access (Option Buffer) :=
  if startByte + totalEntries * 32 > v.clusterBytes then pure none
  else collectLoopLogged v (clusToLba v dirCl) startByte totalEntries 0 none fun _ => 0

section

variable (set : Buffer) (nameLen collected : Nat)

/-- The character loop of one name entry. -/
def collectChars (i : Nat) : (count c : Nat) → List UInt8 → LogM Access (List UInt8)
  | 0, _, name => pure name
  | count + 1, c, name =>
      if name.length ≥ nameLen then pure name
      else do
        LogM.note [.parsed (i * 32 + 2 + 2 * c) collected,
          .parsed (i * 32 + 2 + 2 * c + 1) collected, .named name.length]
        collectChars i count (c + 1) (name ++ [set (i * 32 + 2 + 2 * c)])

def collectNameLogged : List Nat → List UInt8 → LogM Access (List UInt8)
  | [], name => pure name
  | i :: rest, name =>
      if name.length ≥ nameLen then pure name
      else do
        LogM.note [.parsed (i * 32) collected]
        if set (i * 32) ≠ exfatEntryName then collectNameLogged rest name
        else do
          let name ← collectChars set nameLen collected i 15 0 name
          collectNameLogged rest name

end

/-- The attributes, the first cluster and the size that the parser reads, behind the NUL that it
stores. -/
def fieldAccesses (nameLen collected : Nat) : List Access :=
  .named nameLen :: ([4, 5] ++ List.range' 52 12).map fun index => .parsed index collected

def exfatParseFileSetLogged (set : Buffer) (secondaryCount collected : Nat) :
    LogM Access (Option (List UInt8 × EntryInfo)) :=
  if secondaryCount = 0 then pure none
  else do
    LogM.note [.parsed 32 collected]
    if set 32 ≠ exfatEntryStream then pure none
    else do
      LogM.note [.parsed 35 collected]
      let name ← collectNameLogged set (set 35).toNat collected
        (List.range' 2 (secondaryCount - 1)) []
      LogM.note (fieldAccesses name.length collected)
      pure (some (name,
        { cluster := set.getU32 52
          size := set.getU64 56
          isDir := set.getU16 4 &&& 0x10 ≠ 0
          dirCluster := 0
          dirByteOff := 0 }))

def exfatSetAtLogged (v : Vol) (cluster byteOff : Nat) (sec : Buffer) :
    LogM Access (Option (List UInt8 × EntryInfo)) :=
  let offInSec := byteOff % v.bytesPerSec
  let secondary := (sec (offInSec + 1)).toNat
  if sec offInSec ≠ exfatEntryFile then pure none
  else if secondary = 0 then pure none
  else if secondary > 40 then pure none
  else do
    match ← exfatCollectEntriesLogged v cluster byteOff (secondary + 1) with
    | none => pure none
    | some set => exfatParseFileSetLogged set secondary ((secondary + 1) * 32)

def findSlotsLogged (v : Vol) (want : List UInt8) (cluster : Nat) :
    List Nat → LogM Access (Vol × Option (Except Int EntryInfo))
  | [] => pure (v, none)
  | byteOff :: rest => do
      match ← LogM.lift (rd (clusToLba v cluster + byteOff / v.bytesPerSec)) with
      | none => pure (v, some (.error (-1)))
      | some sec =>
          if sec (byteOff % v.bytesPerSec) = 0x00 then pure (v, some (.error (-2)))
          else do
            let v := noteBitmap v sec (byteOff % v.bytesPerSec)
            match ← exfatSetAtLogged v cluster byteOff sec with
            | none => findSlotsLogged v want cluster rest
            | some (name, info) =>
                if sameName want name then
                  pure (v, some (.ok { info with dirCluster := cluster, dirByteOff := byteOff }))
                else findSlotsLogged v want cluster rest

def exfatFindInDirLogged (want : List UInt8) :
    (fuel cluster : Nat) → Vol → LogM Access (Vol × Except Int EntryInfo)
  | 0, _, _ => LogM.diverge
  | fuel + 1, cluster, v =>
      if isEndCluster cluster then pure (v, .error (-3))
      else do
        match ← findSlotsLogged v want cluster (clusterOffsets v) with
        | (v, some result) => pure (v, result)
        | (v, none) => do
            let next ← LogM.lift (fatReadFatEntry v cluster)
            exfatFindInDirLogged want fuel next v

def exfatListSlotsLogged (v : Vol) (maxItems cluster : Nat) :
    List Nat → List Dirent → LogM Access (Option Int × List Dirent)
  | [], items => pure (none, items)
  | byteOff :: rest, items =>
      if items.length ≥ maxItems then pure (none, items)
      else do
        match ← LogM.lift (rd (clusToLba v cluster + byteOff / v.bytesPerSec)) with
        | none => pure (some (-1), items)
        | some sec =>
            if sec (byteOff % v.bytesPerSec) = 0x00 then pure (some 0, items)
            else do
              match ← exfatSetAtLogged v cluster byteOff sec with
              | none => exfatListSlotsLogged v maxItems cluster rest items
              | some (name, info) =>
                  exfatListSlotsLogged v maxItems cluster rest (items ++
                    [⟨(name.takeWhile (· ≠ 0)).take 12, if info.isDir then 0x10 else 0x20,
                      info.size % 4294967296⟩])

def exfatListDirLogged (v : Vol) (maxItems : Nat) :
    (fuel cluster : Nat) → List Dirent → LogM Access (Int × List Dirent)
  | 0, _, _ => LogM.diverge
  | fuel + 1, cluster, items =>
      if isEndCluster cluster then pure (0, items)
      else do
        match ← exfatListSlotsLogged v maxItems cluster (clusterOffsets v) items with
        | (some code, items) => pure (code, if code = 0 then items else [])
        | (none, items) => do
            let next ← LogM.lift (fatReadFatEntry v cluster)
            exfatListDirLogged v maxItems fuel next items

/-! ## Without the log they are the scans -/

theorem collectLoopLogged_erase (v : Vol) (lbaBase startByte count i : Nat)
    (last : Option (Nat × Buffer)) (out : Buffer) :
    (collectLoopLogged v lbaBase startByte count i last out).erase =
      collectLoop v lbaBase startByte count i last out := by
  induction count generalizing i last out with
  | zero => rfl
  | succ count induction =>
      simp only [collectLoopLogged, collectLoop]
      cases last.filter fun cached => cached.1 == (startByte + i * 32) / v.bytesPerSec with
      | some cached => simp only [LogM.erase_note_bind, induction]
      | none =>
          rw [LogM.erase_bind, LogM.erase_lift]
          congr 1
          funext sec
          cases sec with
          | none => rfl
          | some sec => simp only [LogM.erase_note_bind, induction]

theorem exfatCollectEntriesLogged_erase (v : Vol) (dirCl startByte total : Nat) :
    (exfatCollectEntriesLogged v dirCl startByte total).erase =
      exfatCollectEntries v dirCl startByte total := by
  rw [exfatCollectEntriesLogged, LogM.erase_ite, collectLoopLogged_erase]
  rfl

theorem collectChars_erase (set : Buffer) (nameLen collected i count c : Nat)
    (name : List UInt8) :
    (collectChars set nameLen collected i count c name).erase =
      pure (name ++ (List.range' c (min count (nameLen - name.length))).map
        fun c => set (i * 32 + 2 + 2 * c)) := by
  induction count generalizing c name with
  | zero => simp [collectChars]
  | succ count induction =>
      rw [collectChars, LogM.erase_ite]
      split
      · next full => simp [Nat.sub_eq_zero_of_le full]
      · next room =>
          have shorter : min (count + 1) (nameLen - name.length) =
              min count (nameLen - (name.length + 1)) + 1 := by omega
          simp only [LogM.erase_note_bind, induction, List.length_append, List.length_singleton]
          rw [shorter, List.range'_succ, List.map_cons, List.append_assoc]
          rfl

theorem collectNameLogged_erase (set : Buffer) (nameLen collected : Nat) (entries : List Nat)
    (name : List UInt8) :
    (collectNameLogged set nameLen collected entries name).erase =
      pure (collectName set nameLen entries name) := by
  induction entries generalizing name with
  | nil => rfl
  | cons entry rest induction =>
      rw [collectNameLogged, collectName, LogM.erase_ite]
      split
      · rfl
      · rw [LogM.erase_note_bind, LogM.erase_ite]
        split
        · exact induction name
        · rw [LogM.erase_bind, collectChars_erase, List.range_eq_range']
          exact induction _

theorem exfatParseFileSetLogged_erase (set : Buffer) (secondary collected : Nat) :
    (exfatParseFileSetLogged set secondary collected).erase =
      pure (exfatParseFileSet set secondary) := by
  rw [exfatParseFileSetLogged, exfatParseFileSet, LogM.erase_ite]
  split
  · rfl
  · rw [LogM.erase_note_bind, LogM.erase_ite]
    split
    · rfl
    · rw [LogM.erase_note_bind, LogM.erase_bind, collectNameLogged_erase]
      rfl

theorem exfatSetAtLogged_erase (v : Vol) (cluster byteOff : Nat) (sec : Buffer) :
    (exfatSetAtLogged v cluster byteOff sec).erase = exfatSetAt v cluster byteOff sec := by
  simp only [exfatSetAtLogged, exfatSetAt, LogM.erase_ite, LogM.erase_pure, LogM.erase_bind,
    exfatCollectEntriesLogged_erase]
  congr 4
  funext set
  cases set with
  | none => rfl
  | some set => exact exfatParseFileSetLogged_erase _ _ _

theorem findSlotsLogged_erase (v : Vol) (want : List UInt8) (cluster : Nat) (offsets : List Nat) :
    (findSlotsLogged v want cluster offsets).erase = findSlots v want cluster offsets := by
  induction offsets generalizing v with
  | nil => rfl
  | cons byteOff rest induction =>
      rw [findSlotsLogged, findSlots, LogM.erase_bind, LogM.erase_lift]
      congr 1
      funext sec
      cases sec with
      | none => rfl
      | some sec =>
          simp only [LogM.erase_ite, LogM.erase_pure, LogM.erase_bind, exfatSetAtLogged_erase]
          congr 2
          funext parsed
          cases parsed with
          | none => exact induction _
          | some parsed =>
              simp only [LogM.erase_ite, LogM.erase_pure, induction]

theorem exfatFindInDirLogged_erase (want : List UInt8) (fuel cluster : Nat) (v : Vol) :
    (exfatFindInDirLogged want fuel cluster v).erase = exfatFindInDir want fuel cluster v := by
  induction fuel generalizing cluster v with
  | zero => rfl
  | succ fuel induction =>
      rw [exfatFindInDirLogged, exfatFindInDir, LogM.erase_ite, LogM.erase_bind,
        findSlotsLogged_erase]
      congr 2
      funext outcome
      rcases outcome with ⟨v', result⟩
      cases result with
      | some result => rfl
      | none => simp only [LogM.erase_bind, LogM.erase_lift, induction]

theorem exfatListSlotsLogged_erase (v : Vol) (maxItems cluster : Nat) (offsets : List Nat)
    (items : List Dirent) :
    (exfatListSlotsLogged v maxItems cluster offsets items).erase =
      exfatListSlots v maxItems cluster offsets items := by
  induction offsets generalizing items with
  | nil => rfl
  | cons byteOff rest induction =>
      rw [exfatListSlotsLogged, exfatListSlots, LogM.erase_ite, LogM.erase_bind, LogM.erase_lift]
      congr 2
      funext sec
      cases sec with
      | none => rfl
      | some sec =>
          simp only [LogM.erase_ite, LogM.erase_pure, LogM.erase_bind, exfatSetAtLogged_erase]
          congr 2
          funext parsed
          cases parsed with
          | none => exact induction _
          | some parsed => exact induction _

theorem exfatListDirLogged_erase (v : Vol) (maxItems fuel cluster : Nat) (items : List Dirent) :
    (exfatListDirLogged v maxItems fuel cluster items).erase =
      exfatListDir v maxItems fuel cluster items := by
  induction fuel generalizing cluster items with
  | zero => rfl
  | succ fuel induction =>
      rw [exfatListDirLogged, exfatListDir, LogM.erase_ite, LogM.erase_bind,
        exfatListSlotsLogged_erase]
      congr 2
      funext outcome
      rcases outcome with ⟨code, items'⟩
      cases code with
      | some code => rfl
      | none => simp only [LogM.erase_bind, LogM.erase_lift, induction]

/-! ## Sets that do not fit into the buffer -/

/-- The secondary count of the set that starts in a slot. -/
def secondaryAt (v : Vol) (sectors : Nat → Buffer) (place : Place) : Nat :=
  (slotSector v sectors place.cl place.off (place.off % v.bytesPerSec + 1)).toNat

/-- A slot with a file entry whose set is collected, and has more than 32 entries. -/
structure Oversized (v : Vol) (sectors : Nat → Buffer) (place : Place) : Prop where
  file : slotMark v sectors place.cl place.off = exfatEntryFile
  many : 32 ≤ secondaryAt v sectors place
  few : secondaryAt v sectors place ≤ 40
  inside : place.off + (secondaryAt v sectors place + 1) * 32 ≤ v.clusterBytes

theorem SameLayout.oversized {v v' : Vol} (same : SameLayout v v') {sectors : Nat → Buffer}
    {place : Place} : Oversized v' sectors place ↔ Oversized v sectors place := by
  have mark := same.slotMark sectors place.cl place.off
  have secondary : secondaryAt v' sectors place = secondaryAt v sectors place := by
    have agree := congrArg (fun v => secondaryAt v sectors place) (Eq.trans rfl same)
    exact agree
  have bytes : v'.clusterBytes = v.clusterBytes := by
    have agree := congrArg Vol.clusterBytes (Eq.trans rfl same)
    exact agree
  constructor
  · rintro ⟨file, many, few, inside⟩
    rw [secondary] at many few inside
    exact ⟨mark ▸ file, many, few, bytes ▸ inside⟩
  · rintro ⟨file, many, few, inside⟩
    rw [← secondary] at many few inside
    exact ⟨mark ▸ file, many, few, bytes ▸ inside⟩

/-- There is such a slot in front of the first end marker of these. -/
def MeetsOversized (v : Vol) (sectors : Nat → Buffer) (places : List Place) : Prop :=
  ∃ before place after, places = before ++ place :: after ∧
    (∀ earlier ∈ before, slotMark v sectors earlier.cl earlier.off ≠ 0x00) ∧
    Oversized v sectors place

/-- The first clusters of the chain that starts with a cluster. -/
def followed (v : Vol) (sectors : Nat → Buffer) : (count cluster : Nat) → List Nat
  | 0, _ => []
  | count + 1, cluster =>
      if isEndCluster cluster then []
      else cluster :: followed v sectors count (fatEntry v sectors cluster)

/-- There is such a slot in front of the end marker of a directory. -/
def HoldsOversized (v : Vol) (sectors : Nat → Buffer) (cluster : Nat) : Prop :=
  ∃ count, MeetsOversized v sectors (chainPlaces v (followed v sectors count cluster))

section

variable {v : Vol} {sectors : Nat → Buffer}

theorem not_meetsOversized_nil : ¬ MeetsOversized v sectors [] := by
  rintro ⟨before, place, after, split, _⟩
  simp at split

theorem meetsOversized_cons {place : Place} {places : List Place} :
    MeetsOversized v sectors (place :: places) ↔
      Oversized v sectors place ∨
        slotMark v sectors place.cl place.off ≠ 0x00 ∧ MeetsOversized v sectors places := by
  constructor
  · rintro ⟨before, found, after, split, used, oversized⟩
    cases before with
    | nil =>
        rw [List.nil_append, List.cons.injEq] at split
        exact .inl (split.1 ▸ oversized)
    | cons head before =>
        rw [List.cons_append, List.cons.injEq] at split
        right
        refine ⟨split.1 ▸ used head (by simp), before, found, after, split.2, ?_, oversized⟩
        exact fun earlier member => used earlier (List.mem_cons_of_mem _ member)
  · intro either
    cases either with
    | inl oversized => exact ⟨[], place, places, rfl, by simp, oversized⟩
    | inr later =>
        rcases later with ⟨used, before, found, after, rfl, others, oversized⟩
        exact ⟨place :: before, found, after, rfl, by simpa using ⟨used, others⟩, oversized⟩

theorem meetsOversized_append {first second : List Place} :
    MeetsOversized v sectors (first ++ second) ↔
      MeetsOversized v sectors first ∨
        (∀ place ∈ first, slotMark v sectors place.cl place.off ≠ 0x00) ∧
          MeetsOversized v sectors second := by
  induction first with
  | nil => simp [not_meetsOversized_nil]
  | cons place first induction =>
      rw [List.cons_append, meetsOversized_cons, meetsOversized_cons, induction,
        List.forall_mem_cons, and_or_left, or_assoc, and_assoc]

theorem chainPlaces_cons (cluster : Nat) (chain : List Nat) :
    chainPlaces v (cluster :: chain) =
      (clusterOffsets v).map (fun off => ⟨cluster, off⟩) ++ chainPlaces v chain :=
  List.flatMap_cons

/-! ## Other sets stay inside the buffers -/

theorem collectLoopLogged_inBounds (lbaBase startByte count i : Nat)
    (last : Option (Nat × Buffer)) (out : Buffer) (fits : (i + count) * 32 ≤ 1024) :
    Logging (collectLoopLogged v lbaBase startByte count i last out) sectors Access.InBounds
      fun _ => True := by
  induction count generalizing i last out with
  | zero => exact .pure trivial
  | succ count induction =>
      have stores : ∀ access ∈ slotStores i, access.InBounds := by
        intro access member
        rcases List.mem_map.mp member with ⟨index, below, rfl⟩
        rw [List.mem_range] at below
        simp only [Access.InBounds]
        omega
      simp only [collectLoopLogged]
      cases last.filter fun cached => cached.1 == (startByte + i * 32) / v.bytesPerSec with
      | some cached => exact .note_bind stores (induction _ _ _ (by omega))
      | none => exact .rd_bind (.pure trivial) (.note_bind stores (induction _ _ _ (by omega)))

section

variable (set : Buffer) {nameLen collected : Nat}

theorem collectChars_inBounds {i : Nat} (inside : i * 32 + 32 ≤ collected)
    (short : nameLen ≤ 255) (count c : Nat) (name : List UInt8) (few : c + count ≤ 15)
    (fits : name.length ≤ nameLen) :
    Logging (collectChars set nameLen collected i count c name) sectors Access.InBounds
      fun name => name.length ≤ nameLen := by
  induction count generalizing c name with
  | zero => exact .pure fits
  | succ count induction =>
      apply Logging.ite
      · exact fun _ => .pure fits
      · intro room
        apply Logging.note_bind
        · simp only [List.forall_mem_cons, Access.InBounds]
          refine ⟨by omega, by omega, by omega, by simp⟩
        · apply induction (c + 1) _ (by omega)
          rw [List.length_append, List.length_singleton]
          omega

theorem collectNameLogged_inBounds (short : nameLen ≤ 255) {entries : List Nat}
    (inside : ∀ entry ∈ entries, entry * 32 + 32 ≤ collected) (name : List UInt8)
    (fits : name.length ≤ nameLen) :
    Logging (collectNameLogged set nameLen collected entries name) sectors Access.InBounds
      fun name => name.length ≤ nameLen := by
  induction entries generalizing name with
  | nil => exact .pure fits
  | cons entry rest induction =>
      have here := inside entry (by simp)
      have later := induction fun other member => inside other (List.mem_cons_of_mem _ member)
      apply Logging.ite
      · exact fun _ => .pure fits
      · intro _
        apply Logging.note_bind
        · simp only [List.forall_mem_cons, Access.InBounds]
          exact ⟨by omega, by simp⟩
        · apply Logging.ite
          · exact fun _ => later name fits
          · intro _
            exact (collectChars_inBounds set here short 15 0 name (by omega) fits).bind later

theorem exfatParseFileSetLogged_inBounds (secondary : Nat) :
    Logging (exfatParseFileSetLogged set secondary ((secondary + 1) * 32)) sectors
      Access.InBounds fun _ => True := by
  have byte := (set 35).toNat_lt
  apply Logging.ite
  · exact fun _ => .pure trivial
  · intro several
    apply Logging.note_bind
    · simp only [List.forall_mem_cons, Access.InBounds]
      exact ⟨by omega, by simp⟩
    · apply Logging.ite
      · exact fun _ => .pure trivial
      · intro _
        apply Logging.note_bind
        · simp only [List.forall_mem_cons, Access.InBounds]
          exact ⟨by omega, by simp⟩
        · have entries : ∀ entry ∈ List.range' 2 (secondary - 1),
              entry * 32 + 32 ≤ (secondary + 1) * 32 := by
            intro entry member
            rw [List.mem_range'_1] at member
            omega
          apply (collectNameLogged_inBounds set (by omega) entries [] (by simp)).bind
          intro name fits
          apply Logging.note_bind
          · intro access member
            rcases List.mem_cons.mp member with rfl | field
            · simp only [Access.InBounds]
              omega
            · rcases List.mem_map.mp field with ⟨index, place, rfl⟩
              simp only [List.mem_append, List.mem_cons, List.not_mem_nil, or_false,
                List.mem_range'_1] at place
              simp only [Access.InBounds]
              omega
          · exact .pure trivial

end

theorem exfatSetAtLogged_inBounds {cl off : Nat} (fits : ¬ Oversized v sectors ⟨cl, off⟩) :
    Logging (exfatSetAtLogged v cl off (slotSector v sectors cl off)) sectors Access.InBounds
      fun _ => True := by
  apply Logging.ite
  · exact fun _ => .pure trivial
  · intro file
    apply Logging.ite
    · exact fun _ => .pure trivial
    · intro _
      apply Logging.ite
      · exact fun _ => .pure trivial
      · intro few
        have collects : Logging (exfatCollectEntriesLogged v cl off
            (secondaryAt v sectors ⟨cl, off⟩ + 1)) sectors Access.InBounds fun _ => True := by
          apply Logging.ite
          · exact fun _ => .pure trivial
          · intro inside
            apply collectLoopLogged_inBounds
            by_contra long
            exact fits ⟨not_not.mp file, by omega, Nat.le_of_not_gt few,
              Nat.le_of_not_gt inside⟩
        apply collects.bind
        intro collected _
        cases collected with
        | none => exact .pure trivial
        | some set => exact exfatParseFileSetLogged_inBounds set _

/-! ## Scans that meet none -/

/-- The volume may have noted the bitmap meanwhile. -/
theorem findSlotsLogged_inBounds {v' : Vol} (same : SameLayout v v') (want : List UInt8)
    (cluster : Nat) {offsets : List Nat}
    (none : ¬ MeetsOversized v sectors (offsets.map fun off => ⟨cluster, off⟩)) :
    Logging (findSlotsLogged v' want cluster offsets) sectors Access.InBounds fun result =>
      SameLayout v result.1 ∧ (result.2 = .none →
        ∀ off ∈ offsets, slotMark v sectors cluster off ≠ 0x00) := by
  induction offsets generalizing v' with
  | nil => exact .pure ⟨same, by simp⟩
  | cons off rest induction =>
      rw [List.map_cons, meetsOversized_cons, not_or] at none
      apply Logging.rd_bind
      · exact .pure ⟨same, by simp⟩
      · have sector : sectors (u32 (clusToLba v' cluster + off / v'.bytesPerSec)) =
            slotSector v' sectors cluster off := rfl
        have type : slotSector v' sectors cluster off (off % v'.bytesPerSec) =
            slotMark v sectors cluster off := same.slotMark sectors cluster off
        simp only [sector, type]
        apply Logging.ite
        · exact fun _ => .pure ⟨same, by simp⟩
        · intro used
          have noted := noteBitmap_sameLayout v' (slotSector v' sectors cluster off)
            (off % v'.bytesPerSec)
          have here := noted.slotSector sectors cluster off
          generalize noteBitmap v' (slotSector v' sectors cluster off) (off % v'.bytesPerSec) = v''
            at noted here ⊢
          have same' := same.trans noted
          have later : Logging (findSlotsLogged v'' want cluster rest) sectors Access.InBounds
              fun result => SameLayout v result.1 ∧ (result.2 = .none →
                ∀ off' ∈ off :: rest, slotMark v sectors cluster off' ≠ 0x00) := by
            apply (induction same' fun meets => none.2 ⟨used, meets⟩).mono
            intro result holds
            exact ⟨holds.1, fun passed => List.forall_mem_cons.mpr ⟨used, holds.2 passed⟩⟩
          rw [← here]
          apply (exfatSetAtLogged_inBounds (fun large => none.1 (same'.oversized.mp large))).bind
          intro parsed _
          cases parsed with
          | none => exact later
          | some parsed => exact .ite (fun _ => .pure ⟨same', by simp⟩) fun _ => later

theorem followed_end {cluster : Nat} (ends : isEndCluster cluster = true) (count : Nat) :
    followed v sectors count cluster = [] := by
  cases count with
  | zero => rfl
  | succ count => rw [followed, if_pos ends]

/-- Of a chain that is followed to a link that could not be read, nothing is left. -/
theorem exfatFindInDirLogged_inBounds {v' : Vol} (same : SameLayout v v') (want : List UInt8)
    (fuel : Nat) {cluster : Nat}
    (none : ¬ MeetsOversized v sectors (chainPlaces v (followed v sectors fuel cluster))) :
    Logging (exfatFindInDirLogged want fuel cluster v') sectors Access.InBounds
      fun _ => True := by
  induction fuel generalizing cluster v' with
  | zero => exact .diverge
  | succ fuel induction =>
      apply Logging.ite
      · exact fun _ => .pure trivial
      · intro inside
        rw [followed, if_neg inside, chainPlaces_cons, meetsOversized_append, not_or] at none
        rw [same.clusterOffsets]
        apply (findSlotsLogged_inBounds same want cluster none.1).bind
        intro result passed
        rcases result with ⟨v'', found⟩
        cases found with
        | some found => exact .pure trivial
        | none =>
            have used : ∀ place ∈ (clusterOffsets v).map (fun off => Place.mk cluster off),
                slotMark v sectors place.cl place.off ≠ 0x00 := by
              simpa using passed.2 rfl
            apply (Logging.lift (fatReadFatEntry_reads v'' sectors cluster)).bind
            intro next link
            rcases link with ⟨_, ⟨_, rfl⟩ | ⟨_, rfl⟩⟩
            · apply induction passed.1
              rw [followed_end (by decide)]
              exact not_meetsOversized_nil
            · rw [passed.1.fatEntry]
              exact induction passed.1 fun meets => none.2 ⟨used, meets⟩

/-- A listing that is full looks at no further slot. -/
theorem exfatListSlotsLogged_inBounds (maxItems cluster : Nat) {offsets : List Nat}
    {items : List Dirent}
    (none : items.length ≥ maxItems ∨
      ¬ MeetsOversized v sectors (offsets.map fun off => ⟨cluster, off⟩)) :
    Logging (exfatListSlotsLogged v maxItems cluster offsets items) sectors Access.InBounds
      fun result => result.1 = .none → result.2.length ≥ maxItems ∨ items.length < maxItems ∧
        ∀ off ∈ offsets, slotMark v sectors cluster off ≠ 0x00 := by
  induction offsets generalizing items with
  | nil => exact .pure fun _ => (Nat.lt_or_ge items.length maxItems).symm.imp_right (by simp)
  | cons off rest induction =>
      apply Logging.ite
      · exact fun full => .pure fun _ => .inl full
      · intro room
        rw [or_iff_right room, List.map_cons, meetsOversized_cons, not_or] at none
        apply Logging.rd_bind
        · exact .pure (by simp)
        · apply Logging.ite
          · exact fun _ => .pure (by simp)
          · intro used
            have later : ∀ items' : List Dirent, Logging
                (exfatListSlotsLogged v maxItems cluster rest items') sectors Access.InBounds
                fun result => result.1 = .none →
                  result.2.length ≥ maxItems ∨ items.length < maxItems ∧
                    ∀ off' ∈ off :: rest, slotMark v sectors cluster off' ≠ 0x00 := by
              intro items'
              apply (@induction items' (.inr fun meets => none.2 ⟨used, meets⟩)).mono
              intro result holds passed
              apply (holds passed).imp_right
              exact fun behind => ⟨by omega, List.forall_mem_cons.mpr ⟨used, behind.2⟩⟩
            apply (exfatSetAtLogged_inBounds none.1).bind
            intro parsed _
            cases parsed with
            | none => exact later _
            | some parsed => exact later _

theorem exfatListDirLogged_inBounds (maxItems fuel : Nat) {cluster : Nat} {items : List Dirent}
    (none : items.length ≥ maxItems ∨
      ¬ MeetsOversized v sectors (chainPlaces v (followed v sectors fuel cluster))) :
    Logging (exfatListDirLogged v maxItems fuel cluster items) sectors Access.InBounds
      fun _ => True := by
  induction fuel generalizing cluster items with
  | zero => exact .diverge
  | succ fuel induction =>
      apply Logging.ite
      · exact fun _ => .pure trivial
      · intro inside
        rw [followed, if_neg inside, chainPlaces_cons, meetsOversized_append, not_or] at none
        apply (exfatListSlotsLogged_inBounds maxItems cluster (none.imp_right And.left)).bind
        intro result passed
        rcases result with ⟨code, items'⟩
        cases code with
        | some code => exact .pure trivial
        | none =>
            apply (Logging.lift (fatReadFatEntry_reads v sectors cluster)).bind
            intro next link
            apply induction
            apply (passed rfl).imp_right
            intro behind
            rcases none with full | others
            · omega
            · have used : ∀ place ∈ (clusterOffsets v).map (fun off => Place.mk cluster off),
                  slotMark v sectors place.cl place.off ≠ 0x00 := by
                simpa using behind.2
              rcases link with ⟨_, ⟨_, rfl⟩ | ⟨_, rfl⟩⟩
              · rw [followed_end (by decide)]
                exact not_meetsOversized_nil
              · exact fun meets => others.2 ⟨used, meets⟩

/-! ## Scans that meet one -/

/-- From the 33rd slot on, a set is stored behind the end of the buffer. -/
theorem collectLoopLogged_overflows (lbaBase startByte : Nat) (count : Nat) {i : Nat}
    (last : Option (Nat × Buffer)) (out : Buffer) (before : i ≤ 32) (enough : 32 < i + count) :
    ∃ outcomes, Logs (collectLoopLogged v lbaBase startByte count i last out) sectors outcomes
      (.stored 1024) := by
  induction count generalizing i last out with
  | zero => omega
  | succ count induction =>
      have stores : ∀ last out, ∃ outcomes, Logs (LogM.note (slotStores i) >>= fun _ =>
          collectLoopLogged v lbaBase startByte count (i + 1) last out) sectors outcomes
          (.stored 1024) := by
        intro last out
        by_cases reached : i = 32
        · refine ⟨_, Logs.bind_left (.note (List.mem_map.mpr ⟨0, by simp, ?_⟩)) _⟩
          rw [reached]
        · rcases induction last out (show i + 1 ≤ 32 by omega) (by omega) with ⟨outcomes, logs⟩
          exact ⟨outcomes, logs.note_bind⟩
      simp only [collectLoopLogged]
      cases last.filter fun cached => cached.1 == (startByte + i * 32) / v.bytesPerSec with
      | some cached => exact stores _ _
      | none =>
          rcases stores (some ((startByte + i * 32) / v.bytesPerSec,
              sectors (u32 (lbaBase + (startByte + i * 32) / v.bytesPerSec)))) _ with
            ⟨outcomes, logs⟩
          exact ⟨_, .lift_bind (.rd_done _) logs⟩

theorem exfatSetAtLogged_overflows {cl off : Nat} (large : Oversized v sectors ⟨cl, off⟩) :
    ∃ outcomes, Logs (exfatSetAtLogged v cl off (slotSector v sectors cl off)) sectors outcomes
      (.stored 1024) := by
  have file : slotSector v sectors cl off (off % v.bytesPerSec) = exfatEntryFile := large.file
  have many := large.many
  have few := large.few
  have inside := large.inside
  simp only [secondaryAt] at many few inside
  have collects : ∃ outcomes, Logs (exfatCollectEntriesLogged v cl off
      ((slotSector v sectors cl off (off % v.bytesPerSec + 1)).toNat + 1)) sectors outcomes
      (.stored 1024) := by
    rw [exfatCollectEntriesLogged, if_neg (by omega)]
    exact collectLoopLogged_overflows _ _ _ _ _ (by omega) (by omega)
  rcases collects with ⟨outcomes, logs⟩
  rw [exfatSetAtLogged, if_neg (by simpa using file), if_neg (by omega), if_neg (by omega)]
  exact ⟨outcomes, logs.bind_left _⟩

/-- A set that cannot be read is passed over. -/
theorem exfatSetAt_skips (cl off : Nat) (sec : Buffer) :
    ∃ outcomes, Plays (exfatSetAt v cl off sec) sectors outcomes none := by
  have collects : ∀ total, ∃ outcomes,
      Plays (exfatCollectEntries v cl off (total + 1)) sectors outcomes none := by
    intro total
    rw [exfatCollectEntries]
    split
    · exact ⟨[], .pure none⟩
    · refine ⟨[true] ++ [], ?_⟩
      rw [collectLoop]
      exact Plays.bind (.rd_failed _) (.pure none)
  rw [exfatSetAt]
  split
  · exact ⟨[], .pure none⟩
  · split
    · exact ⟨[], .pure none⟩
    · split
      · exact ⟨[], .pure none⟩
      · rcases collects (sec (off % v.bytesPerSec + 1)).toNat with ⟨outcomes, plays⟩
        exact ⟨outcomes ++ [], plays.bind (.pure none)⟩

theorem exfatSetAtLogged_skips (cl off : Nat) (sec : Buffer) :
    ∃ outcomes, Plays (exfatSetAtLogged v cl off sec).erase sectors outcomes none := by
  rw [exfatSetAtLogged_erase]
  exact exfatSetAt_skips cl off sec

theorem findSlots_passes {v' : Vol} (same : SameLayout v v') (want : List UInt8) (cluster : Nat)
    {offsets : List Nat} (used : ∀ off ∈ offsets, slotMark v sectors cluster off ≠ 0x00) :
    ∃ v'', SameLayout v v'' ∧ ∃ outcomes,
      Plays (findSlots v' want cluster offsets) sectors outcomes (v'', none) := by
  induction offsets generalizing v' with
  | nil => exact ⟨v', same, [], .pure _⟩
  | cons off rest induction =>
      rw [List.forall_mem_cons] at used
      have type : slotSector v' sectors cluster off (off % v'.bytesPerSec) =
          slotMark v sectors cluster off := same.slotMark sectors cluster off
      have noted := noteBitmap_sameLayout v' (slotSector v' sectors cluster off)
        (off % v'.bytesPerSec)
      rcases exfatSetAt_skips cluster off (slotSector v' sectors cluster off) with
        ⟨skipped, skips⟩
      rcases induction (same.trans noted) used.2 with ⟨v'', same', outcomes, plays⟩
      refine ⟨v'', same', [false] ++ (skipped ++ outcomes), ?_⟩
      apply Plays.bind (.rd_done _)
      simp only
      rw [if_neg (by rw [← type] at used; exact used.1)]
      exact Plays.bind skips plays

theorem findSlotsLogged_overflows {v' : Vol} (same : SameLayout v v') (want : List UInt8)
    (cluster : Nat) {offsets : List Nat}
    (meets : MeetsOversized v sectors (offsets.map fun off => ⟨cluster, off⟩)) :
    ∃ outcomes, Logs (findSlotsLogged v' want cluster offsets) sectors outcomes
      (.stored 1024) := by
  induction offsets generalizing v' with
  | nil => exact absurd meets not_meetsOversized_nil
  | cons off rest induction =>
      have type : slotSector v' sectors cluster off (off % v'.bytesPerSec) =
          slotMark v sectors cluster off := same.slotMark sectors cluster off
      have noted := noteBitmap_sameLayout v' (slotSector v' sectors cluster off)
        (off % v'.bytesPerSec)
      rw [List.map_cons, meetsOversized_cons] at meets
      cases meets with
      | inl large =>
          have used : slotMark v sectors cluster off ≠ 0x00 := by
            rw [large.file]
            decide
          rcases exfatSetAtLogged_overflows ((same.trans noted).oversized.mpr large) with
            ⟨outcomes, logs⟩
          rw [noted.slotSector] at logs
          refine ⟨[false] ++ outcomes, .lift_bind (.rd_done _) ?_⟩
          simp only
          rw [if_neg (by rw [← type] at used; exact used)]
          exact logs.bind_left _
      | inr later =>
          rcases exfatSetAtLogged_skips cluster off (slotSector v' sectors cluster off) with
            ⟨skipped, skips⟩
          rcases induction (same.trans noted) later.2 with ⟨outcomes, logs⟩
          refine ⟨[false] ++ (skipped ++ outcomes), .lift_bind (.rd_done _) ?_⟩
          simp only
          rw [if_neg (by rw [← type] at later; exact later.1)]
          exact Logs.bind_right skips logs

theorem fatReadFatEntry_plays (v : Vol) (sectors : Nat → Buffer) (cluster : Nat) :
    Plays (fatReadFatEntry v cluster) sectors [false] (fatEntry v sectors cluster) := by
  rw [fatEntry, ← u32_fatSector]
  have done : Plays (fatReadFatEntry v cluster) sectors ([false] ++ []) _ :=
    .bind (.rd_done _) (.pure _)
  exact done

theorem exfatFindInDirLogged_overflows {v' : Vol} (same : SameLayout v v') (want : List UInt8)
    (fuel : Nat) {cluster : Nat}
    (meets : MeetsOversized v sectors (chainPlaces v (followed v sectors fuel cluster))) :
    ∃ outcomes, Logs (exfatFindInDirLogged want fuel cluster v') sectors outcomes
      (.stored 1024) := by
  induction fuel generalizing cluster v' with
  | zero => exact absurd meets not_meetsOversized_nil
  | succ fuel induction =>
      rw [followed] at meets
      by_cases ends : isEndCluster cluster = true
      · rw [if_pos ends] at meets
        exact absurd meets not_meetsOversized_nil
      · rw [if_neg ends, chainPlaces_cons, meetsOversized_append] at meets
        rw [exfatFindInDirLogged, if_neg ends, same.clusterOffsets]
        cases meets with
        | inl here =>
            rcases findSlotsLogged_overflows same want cluster here with ⟨outcomes, logs⟩
            exact ⟨outcomes, logs.bind_left _⟩
        | inr later =>
            have used : ∀ off ∈ clusterOffsets v, slotMark v sectors cluster off ≠ 0x00 := by
              simpa using later.1
            rcases findSlots_passes same want cluster used with ⟨v'', same', passed, plays⟩
            rcases induction same' later.2 with ⟨outcomes, logs⟩
            refine ⟨passed ++ ([false] ++ outcomes), Logs.bind_right
              (by rw [findSlotsLogged_erase]; exact plays) ?_⟩
            apply Logs.lift_bind (fatReadFatEntry_plays v'' sectors cluster)
            rw [same'.fatEntry]
            exact logs

theorem exfatListSlots_passes {maxItems : Nat} (some : 0 < maxItems) (cluster : Nat)
    {offsets : List Nat} (used : ∀ off ∈ offsets, slotMark v sectors cluster off ≠ 0x00) :
    ∃ outcomes, Plays (exfatListSlots v maxItems cluster offsets []) sectors outcomes
      (none, []) := by
  induction offsets with
  | nil => exact ⟨[], .pure _⟩
  | cons off rest induction =>
      rw [List.forall_mem_cons] at used
      rcases exfatSetAt_skips cluster off (slotSector v sectors cluster off) with
        ⟨skipped, skips⟩
      rcases induction used.2 with ⟨outcomes, plays⟩
      have room : ¬ ([] : List Dirent).length ≥ maxItems := Nat.not_le.mpr some
      refine ⟨[false] ++ (skipped ++ outcomes), ?_⟩
      rw [exfatListSlots, if_neg room]
      apply Plays.bind (.rd_done _)
      have mark := used.1
      rw [slotMark, slotSector] at mark
      simp only
      rw [if_neg mark]
      exact Plays.bind skips plays

theorem exfatListSlotsLogged_overflows {maxItems : Nat} (some : 0 < maxItems) (cluster : Nat)
    {offsets : List Nat}
    (meets : MeetsOversized v sectors (offsets.map fun off => ⟨cluster, off⟩)) :
    ∃ outcomes, Logs (exfatListSlotsLogged v maxItems cluster offsets []) sectors outcomes
      (.stored 1024) := by
  induction offsets with
  | nil => exact absurd meets not_meetsOversized_nil
  | cons off rest induction =>
      rw [List.map_cons, meetsOversized_cons] at meets
      have room : ¬ ([] : List Dirent).length ≥ maxItems := Nat.not_le.mpr some
      rw [exfatListSlotsLogged, if_neg room]
      cases meets with
      | inl large =>
          have used : slotMark v sectors cluster off ≠ 0x00 := by
            rw [large.file]
            decide
          rcases exfatSetAtLogged_overflows large with ⟨outcomes, logs⟩
          refine ⟨[false] ++ outcomes, .lift_bind (.rd_done _) ?_⟩
          rw [slotMark, slotSector] at used
          simp only
          rw [if_neg used]
          exact logs.bind_left _
      | inr later =>
          rcases exfatSetAtLogged_skips cluster off (slotSector v sectors cluster off) with
            ⟨skipped, skips⟩
          rcases induction later.2 with ⟨outcomes, logs⟩
          refine ⟨[false] ++ (skipped ++ outcomes), .lift_bind (.rd_done _) ?_⟩
          have used := later.1
          rw [slotMark, slotSector] at used
          simp only
          rw [if_neg used]
          exact Logs.bind_right skips logs

theorem exfatListDirLogged_overflows {maxItems : Nat} (some : 0 < maxItems) (fuel : Nat)
    {cluster : Nat}
    (meets : MeetsOversized v sectors (chainPlaces v (followed v sectors fuel cluster))) :
    ∃ outcomes, Logs (exfatListDirLogged v maxItems fuel cluster []) sectors outcomes
      (.stored 1024) := by
  induction fuel generalizing cluster with
  | zero => exact absurd meets not_meetsOversized_nil
  | succ fuel induction =>
      rw [followed] at meets
      by_cases ends : isEndCluster cluster = true
      · rw [if_pos ends] at meets
        exact absurd meets not_meetsOversized_nil
      · rw [if_neg ends, chainPlaces_cons, meetsOversized_append] at meets
        rw [exfatListDirLogged, if_neg ends]
        cases meets with
        | inl here =>
            rcases exfatListSlotsLogged_overflows some cluster here with ⟨outcomes, logs⟩
            exact ⟨outcomes, logs.bind_left _⟩
        | inr later =>
            have used : ∀ off ∈ clusterOffsets v, slotMark v sectors cluster off ≠ 0x00 := by
              simpa using later.1
            rcases exfatListSlots_passes some cluster used with ⟨passed, plays⟩
            rcases induction later.2 with ⟨outcomes, logs⟩
            refine ⟨passed ++ ([false] ++ outcomes), Logs.bind_right
              (by rw [exfatListSlotsLogged_erase]; exact plays) ?_⟩
            exact Logs.lift_bind (fatReadFatEntry_plays v sectors cluster) logs

end

/-! ## Exactly when the scans stay inside -/

/-- Whichever reads fail, all accesses of the scan are inside the buffers. -/
def StaysInside {α : Type} (scan : Nat → LogM Access α) (sectors : Nat → Buffer) : Prop :=
  ∀ readFaults writeFaults fuel,
    ∀ access ∈ (scan fuel ⟨sectors, readFaults, writeFaults⟩).1, access.InBounds

/-- The scans of a directory stay inside their buffers exactly if no set of more than 32
entries in front of its end marker is collected, or no items are asked for. -/
theorem exfatScans_stayInside_iff (v : Vol) (sectors : Nat → Buffer) (cluster : Nat) :
    (∀ want, StaysInside (fun fuel => exfatFindInDirLogged want fuel cluster v) sectors ↔
      ¬ HoldsOversized v sectors cluster) ∧
    ∀ maxItems, StaysInside (fun fuel => exfatListDirLogged v maxItems fuel cluster []) sectors ↔
      maxItems = 0 ∨ ¬ HoldsOversized v sectors cluster := by
  have outside : ¬ (Access.stored 1024).InBounds := by simp [Access.InBounds]
  constructor
  · intro want
    constructor
    · rintro inside ⟨fuel, meets⟩
      rcases @exfatFindInDirLogged_overflows v sectors v rfl want fuel _ meets with ⟨_, logs⟩
      rcases logs.exists_faults with ⟨readFaults, member⟩
      exact outside (inside readFaults _ fuel _ member)
    · intro none readFaults writeFaults fuel
      exact (exfatFindInDirLogged_inBounds rfl want fuel fun meets => none ⟨fuel, meets⟩).entries
        _ rfl
  · intro maxItems
    constructor
    · intro inside
      rw [or_iff_not_imp_left]
      rintro asked ⟨fuel, meets⟩
      rcases exfatListDirLogged_overflows (Nat.pos_of_ne_zero asked) fuel meets with ⟨_, logs⟩
      rcases logs.exists_faults with ⟨readFaults, member⟩
      exact outside (inside readFaults _ fuel _ member)
    · intro none readFaults writeFaults fuel
      apply (exfatListDirLogged_inBounds maxItems fuel _).entries _ rfl
      cases none with
      | inl unasked => exact .inl (by simp [unasked])
      | inr none => exact .inr fun meets => none ⟨fuel, meets⟩

/-- The small volume with clusters of four sectors. -/
def wideVol : Vol := { exfatVol with secPerClus := 4 }

/-- Sectors that begin with a file entry of 32 secondary entries. -/
def longSets : Nat → Buffer := fun _ =>
  Buffer.putU8 (Buffer.putU8 (fun _ => 0) 0 exfatEntryFile) 1 32

/-- The 33rd entry of that set is stored behind the end of the buffer. -/
theorem exfatScans_overflow :
    ¬ ∀ (v : Vol) (sectors : Nat → Buffer) (cluster : Nat),
      (∀ want, StaysInside (fun fuel => exfatFindInDirLogged want fuel cluster v) sectors) ∧
      ∀ maxItems,
        StaysInside (fun fuel => exfatListDirLogged v maxItems fuel cluster []) sectors := by
  intro claim
  have offsets : clusterOffsets wideVol = 0 :: (List.range' 1 63).map (32 * ·) := by
    decide +kernel
  have large : Oversized wideVol longSets ⟨4, 0⟩ := by
    constructor <;> decide +kernel
  have meets : MeetsOversized wideVol longSets
      (chainPlaces wideVol (followed wideVol longSets 1 4)) := by
    rw [followed, if_neg (by decide), chainPlaces_cons, offsets, List.map_cons, List.cons_append,
      meetsOversized_cons]
    exact .inl large
  rcases @exfatFindInDirLogged_overflows wideVol longSets wideVol rfl [0x61] 1 _ meets with
    ⟨_, logs⟩
  rcases logs.exists_faults with ⟨readFaults, member⟩
  have inside := (claim wideVol longSets 4).1 [0x61] readFaults _ 1 _ member
  simp [Access.InBounds] at inside

end ParanOS

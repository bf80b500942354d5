import ParanOS.Exfat.Contract
import ParanOS.Exfat.EntrySet
import ParanOS.Exfat.Termination

/-! # Entry sets that cross clusters

An exFAT directory is a list of entry sets behind each other, which may begin in one
cluster of the directory and end in the next. The lookup and the listing of
`fs_fat32.c` collect a set from one cluster only: what they see of the directory are
the sets inside of one cluster.
-/

namespace ParanOS

open Foundation

/-! ## Entry sets of the format -/

/-- The entry set of a file: the file entry, the stream entry, the entries of the name, and
behind them other secondary entries. -/
structure FileSet where
  count : Nat
  bytes : Buffer
  few : 3 ≤ count ∧ count ≤ 19
  file : bytes 0 = exfatEntryFile
  secondary : (bytes 1).toNat = count - 1
  stream : bytes 32 = exfatEntryStream
  inUse : ∀ entry, 2 ≤ entry → entry < count → 0xC0 ≤ bytes (entry * 32)
  nameFits : (bytes 35).toNat ≤ 15 * (count - 2)
  names : ∀ entry, 2 ≤ entry → 15 * (entry - 2) < (bytes 35).toNat →
    bytes (entry * 32) = exfatEntryName

namespace FileSet

variable (set : FileSet)

def nameLength : Nat := (set.bytes 35).toNat

/-- The name has 15 characters of 16 bits in each name entry. -/
def name : List Nat :=
  (List.range set.nameLength).map fun k => set.bytes.getU16 ((k / 15 + 2) * 32 + 2 + 2 * (k % 15))

/-- The low bytes of the name, which the driver reads. -/
def lowName : List UInt8 :=
  (List.range set.nameLength).map fun k => set.bytes ((k / 15 + 2) * 32 + 2 + 2 * (k % 15))

def cluster : Nat := set.bytes.getU32 52

def size : Nat := set.bytes.getU64 56

def isDir : Bool := set.bytes.getU16 4 &&& 0x10 ≠ 0

def info (place : Place) : EntryInfo := ⟨set.cluster, set.size, set.isDir, place.cl, place.off⟩

/-- What a listing reports of the set. -/
def dirent : Dirent :=
  ⟨(set.lowName.takeWhile (· ≠ 0)).take 12, if set.isDir then 0x10 else 0x20,
    set.size % 4294967296⟩

theorem lowName_length : set.lowName.length = set.nameLength := by
  rw [lowName, List.length_map, List.length_range]

/-- The name loop of the driver reads the low bytes. -/
theorem collectName_eq {buffer : Buffer}
    (agree : ∀ index < set.count * 32, buffer index = set.bytes index) :
    collectName buffer set.nameLength (List.range' 2 (set.count - 2)) [] = set.lowName := by
  have few := set.few
  have fits := set.nameFits
  have length := set.lowName_length
  rw [nameLength] at length
  have types : ∀ entry, 2 ≤ entry → 15 * (entry - 2) < set.lowName.length →
      buffer (entry * 32) = exfatEntryName := by
    intro entry behind part
    rw [length] at part
    rw [agree _ (by omega)]
    exact set.names entry behind part
  have chars : ∀ entry c, 2 ≤ entry → c < 15 → 15 * (entry - 2) + c < set.lowName.length →
      buffer (entry * 32 + 2 + 2 * c) = set.lowName.getD (15 * (entry - 2) + c) 0 := by
    intro entry c behind below part
    have quotient : (15 * (entry - 2) + c) / 15 + 2 = entry := by omega
    have remainder : (15 * (entry - 2) + c) % 15 = c := by omega
    rw [agree _ (by omega), List.getD_eq_getElem?_getD, List.getElem?_eq_getElem part]
    simp only [lowName, List.getElem_map, List.getElem_range, quotient, remainder]
    rfl
  have collected := collectName_whole types chars (set.count - 2) 2 (by omega) (by omega)
  rw [set.lowName_length] at collected
  exact collected

/-- The driver parses the set, given its bytes. -/
theorem parsed {buffer : Buffer}
    (agree : ∀ index < set.count * 32, buffer index = set.bytes index) :
    exfatParseFileSet buffer (set.count - 1) = some (set.lowName, set.info ⟨0, 0⟩) := by
  have few := set.few
  have collected := set.collectName_eq agree
  have streamType : buffer 32 = exfatEntryStream := by
    rw [agree 32 (by omega), set.stream]
  have length : (buffer 35).toNat = set.nameLength := by
    rw [agree 35 (by omega), nameLength]
  have cluster : buffer.getU32 52 = set.cluster :=
    Buffer.getU32_congr fun index below => agree (52 + index) (by omega)
  have size : buffer.getU64 56 = set.size :=
    Buffer.getU64_congr fun index below => agree (56 + index) (by omega)
  have attributes : buffer.getU16 4 = set.bytes.getU16 4 :=
    Buffer.getU16_congr fun index below => agree (4 + index) (by omega)
  rw [exfatParseFileSet, if_neg (by omega), if_neg (by rw [streamType]; simp), length,
    show set.count - 1 - 1 = set.count - 2 by omega, collected, cluster, size, attributes]
  rfl

end FileSet

/-! ## Names -/

/-- ASCII upper case of a character of 16 bits. -/
def upperUnit (char : Nat) : Nat := if 0x61 ≤ char ∧ char ≤ 0x7A then char - 32 else char

/-- A string is the name of the set up to ASCII case. -/
def FileSet.Named (set : FileSet) (want : List UInt8) : Prop :=
  set.name.map upperUnit = want.map fun char => upperUnit char.toNat

instance (set : FileSet) (want : List UInt8) : Decidable (set.Named want) :=
  inferInstanceAs (Decidable (_ = _))

theorem toUpper_toNat (char : UInt8) : (toUpper char).toNat = upperUnit char.toNat := by
  rw [toUpper, upperUnit]
  by_cases letter : 0x61 ≤ char ∧ char ≤ 0x7A
  · have range : 0x61 ≤ char.toNat ∧ char.toNat ≤ 0x7A := letter
    have low : (32 : UInt8) ≤ char := by
      rw [UInt8.le_iff_toNat_le]
      exact Nat.le_trans (by decide) range.1
    rw [if_pos letter, if_pos range, UInt8.toNat_sub_of_le _ _ low]
    rfl
  · have range : ¬ (0x61 ≤ char.toNat ∧ char.toNat ≤ 0x7A) := letter
    rw [if_neg letter, if_neg range]

theorem FileSet.name_mod (set : FileSet) :
    set.lowName.map UInt8.toNat = set.name.map (· % 256) := by
  rw [lowName, name, List.map_map, List.map_map]
  apply List.map_congr_left
  intro k _
  have small := (set.bytes ((k / 15 + 2) * 32 + 2 + 2 * (k % 15))).toNat_lt
  simp only [Function.comp, Buffer.getU16]
  omega

/-- A string without a zero that is the name of the set is the name for the driver. -/
theorem FileSet.Named.sameName {set : FileSet} {want : List UInt8} (named : set.Named want)
    (chars : ∀ char ∈ want, char ≠ 0) : sameName want set.lowName = true := by
  have byte : ∀ unit, upperUnit unit < 256 → unit % 256 = unit := by
    intro unit small
    rw [upperUnit] at small
    split at small <;> omega
  have small : ∀ unit ∈ set.name, upperUnit unit < 256 := by
    intro unit member
    have upper : upperUnit unit ∈ set.name.map upperUnit := List.mem_map_of_mem member
    rw [named] at upper
    rcases List.mem_map.mp upper with ⟨char, _, same⟩
    have bound := (toUpper char).toNat_lt
    rw [toUpper_toNat] at bound
    omega
  have units : set.lowName.map UInt8.toNat = set.name := by
    rw [set.name_mod]
    conv => rhs; rw [← List.map_id set.name]
    apply List.map_congr_left
    intro unit member
    exact byte unit (small unit member)
  have upper : set.lowName.map toUpper = want.map toUpper := by
    apply List.map_injective_iff.mpr (fun _ _ => UInt8.toNat_inj.mp)
    rw [List.map_map, List.map_map]
    simp only [Function.comp_def, toUpper_toNat]
    rw [← named, ← units, List.map_map]
    rfl
  have whole : set.lowName.takeWhile (· ≠ 0) = set.lowName := by
    rw [List.takeWhile_eq_self_iff]
    intro char member
    rw [decide_eq_true_eq]
    intro zero
    have image : toUpper 0 ∈ set.lowName.map toUpper := zero ▸ List.mem_map_of_mem member
    rw [upper] at image
    rcases List.mem_map.mp image with ⟨other, inWant, same⟩
    have value := congrArg UInt8.toNat same
    rw [toUpper_toNat, toUpper_toNat] at value
    have nonzero : other.toNat ≠ 0 := fun none => chars other inWant (UInt8.toNat_inj.mp none)
    have upperZero : upperUnit (0 : UInt8).toNat = 0 := by decide
    rw [upperZero, upperUnit] at value
    split at value <;> omega
  rw [ParanOS.sameName, whole, upper]
  simp

/-! ## The slots of a directory -/

/-- The place of a slot, by its number in the directory. -/
def placeAt (v : Vol) (chain : List Nat) (slot : Nat) : Place :=
  ⟨chain.getD (slot / v.slots) 0, 32 * (slot % v.slots)⟩

/-- The places from a slot on. -/
def placesFrom (v : Vol) (chain : List Nat) (slot : Nat) : List Place :=
  (List.range' slot (chain.length * v.slots - slot)).map (placeAt v chain)

/-- The sets lie behind each other from a slot on. Behind the last one is an unused slot or
the end of the chain. -/
def LaidOut (v : Vol) (store : ClusterStore) (chain : List Nat) : (slot : Nat) → List FileSet → Prop
  | slot, [] => slot < chain.length * v.slots →
      body v store (placeAt v chain slot).cl (placeAt v chain slot).off = 0x00
  | slot, set :: sets => slot + set.count ≤ chain.length * v.slots ∧
      (∀ entry < set.count, ∀ index < 32,
        body v store (placeAt v chain (slot + entry)).cl
          ((placeAt v chain (slot + entry)).off + index) = set.bytes (entry * 32 + index)) ∧
      LaidOut v store chain (slot + set.count) sets

/-- The sets with their first slots. -/
def starts : (slot : Nat) → List FileSet → List (Nat × FileSet)
  | _, [] => []
  | slot, set :: sets => (slot, set) :: starts (slot + set.count) sets

/-- The set lies within one cluster. -/
def Whole (v : Vol) (start : Nat × FileSet) : Prop :=
  start.1 % v.slots + start.2.count ≤ v.slots

instance (v : Vol) (start : Nat × FileSet) : Decidable (Whole v start) :=
  inferInstanceAs (Decidable (_ ≤ _))

/-- What the driver reads of a set. -/
def readSet (v : Vol) (chain : List Nat) (start : Nat × FileSet) : Place × List UInt8 × EntryInfo :=
  (placeAt v chain start.1, start.2.lowName, start.2.info ⟨0, 0⟩)

/-- The sets that a walk over the places reads. -/
def seen (v : Vol) (store : ClusterStore) : List Place → List (Place × List UInt8 × EntryInfo)
  | [] => []
  | place :: places =>
      if body v store place.cl place.off = 0x00 then []
      else
        match setAt v store place with
        | none => seen v store places
        | some found => (place, found) :: seen v store places

section

variable {v : Vol} (shape : ExfatGeometry v)
include shape

theorem ExfatGeometry.slots_pos : 0 < v.slots := by
  have whole := shape.slots_eq
  have positive := shape.clusterBytes_pos
  omega

theorem chainPlaces_eq (chain : List Nat) : chainPlaces v chain = placesFrom v chain 0 := by
  have positive := shape.slots_pos
  induction chain with
  | nil => simp [chainPlaces, placesFrom]
  | cons cl chain induction =>
      rw [chainPlaces, List.flatMap_cons, ← chainPlaces, induction, clusterOffsets_eq shape,
        placesFrom, placesFrom, Nat.sub_zero, Nat.sub_zero, List.length_cons, Nat.succ_mul,
        Nat.add_comm, ← List.range'_append_1, List.map_append, List.map_map]
      congr 1
      · apply List.map_congr_left
        intro slot member
        have below := List.mem_range'_1.mp member
        simp only [Function.comp, placeAt]
        rw [Nat.div_eq_of_lt (by omega), Nat.mod_eq_of_lt (by omega)]
        rfl
      · rw [Nat.zero_add, List.range'_eq_map_range, List.range'_eq_map_range, List.map_map,
          List.map_map]
        apply List.map_congr_left
        intro slot member
        simp only [Function.comp, placeAt, Nat.zero_add]
        rw [Nat.add_comm, Nat.add_div_right _ positive, Nat.add_mod_right, List.getD_cons_succ]

/-- The next slot of a cluster. -/
theorem placeAt_add (chain : List Nat) {slot entry : Nat}
    (inside : slot % v.slots + entry < v.slots) :
    placeAt v chain (slot + entry) =
      ⟨(placeAt v chain slot).cl, (placeAt v chain slot).off + 32 * entry⟩ := by
  have positive := shape.slots_pos
  have split := Nat.div_add_mod slot v.slots
  have sum : slot + entry = v.slots * (slot / v.slots) + (slot % v.slots + entry) := by omega
  have quotient : (slot + entry) / v.slots = slot / v.slots := by
    rw [sum, Nat.mul_add_div positive, Nat.div_eq_of_lt inside, Nat.add_zero]
  have remainder : (slot + entry) % v.slots = slot % v.slots + entry := by
    rw [sum, Nat.mul_add_mod, Nat.mod_eq_of_lt inside]
  simp only [placeAt, quotient, remainder, Nat.mul_add]

omit shape in
/-- Slots that are used but start no set are passed over. -/
theorem seen_append {store : ClusterStore} {first : List Place} (rest : List Place)
    (used : ∀ place ∈ first, body v store place.cl place.off ≠ 0x00)
    (none : ∀ place ∈ first, setAt v store place = none) :
    seen v store (first ++ rest) = seen v store rest := by
  induction first with
  | nil => rfl
  | cons place first induction =>
      rw [List.cons_append, seen, if_neg (used place (by simp)), none place (by simp)]
      exact induction (fun other member => used other (by simp [member]))
        fun other member => none other (by simp [member])

/-- The set that starts in a slot is read if it is whole. -/
theorem setAt_start {store : ClusterStore} {chain : List Nat} {slot : Nat} {set : FileSet}
    (bytes : ∀ entry < set.count, ∀ index < 32,
      body v store (placeAt v chain (slot + entry)).cl
        ((placeAt v chain (slot + entry)).off + index) = set.bytes (entry * 32 + index)) :
    setAt v store (placeAt v chain slot) =
      if Whole v (slot, set) then some (set.lowName, set.info ⟨0, 0⟩) else none := by
  have few := set.few
  have slots := shape.slots_eq
  have first := bytes 0 (by omega)
  simp only [Nat.add_zero, Nat.zero_mul, Nat.zero_add] at first
  have type := first 0 (by omega)
  rw [Nat.add_zero, set.file] at type
  have secondary := congrArg UInt8.toNat (first 1 (by omega))
  rw [set.secondary] at secondary
  have offset : (placeAt v chain slot).off = 32 * (slot % v.slots) := rfl
  have entries : set.count - 1 + 1 = set.count := by omega
  have fits : (placeAt v chain slot).off + set.count * 32 > v.clusterBytes ↔
      ¬ Whole v (slot, set) := by
    simp only [Whole, offset]
    omega
  simp only [setAt, type, secondary, entries, fits]
  rw [if_neg (by simp), if_neg (by omega), if_neg (by omega)]
  by_cases whole : Whole v (slot, set)
  · rw [if_neg (not_not.mpr whole), if_pos whole]
    apply set.parsed
    intro index below
    have inside : slot % v.slots + index / 32 < v.slots := by
      have together : slot % v.slots + set.count ≤ v.slots := whole
      omega
    have here := bytes (index / 32) (by omega) (index % 32) (by omega)
    rw [placeAt_add shape chain inside] at here
    simp only at here
    rw [Nat.add_assoc, Nat.div_add_mod, Nat.mul_comm (index / 32), Nat.div_add_mod] at here
    rw [window_lt below, here]
  · rw [if_pos whole, if_neg whole]

omit shape in
/-- The other slots of a set start none. -/
theorem secondary_type {set : FileSet} {entry : Nat} (later : 1 ≤ entry)
    (inside : entry < set.count) :
    set.bytes (entry * 32) ≠ 0x00 ∧ set.bytes (entry * 32) ≠ exfatEntryFile := by
  by_cases stream : entry = 1
  · rw [stream, set.stream]
    decide
  · have used := set.inUse entry (by omega) inside
    constructor
    · intro zero
      rw [zero] at used
      exact absurd used (by decide)
    · intro file
      rw [file] at used
      exact absurd used (by decide)

/-- What the driver sees of a directory are the sets within one cluster. -/
theorem seen_laidOut {store : ClusterStore} {chain : List Nat} {slot : Nat} {sets : List FileSet}
    (laid : LaidOut v store chain slot sets) :
    seen v store (placesFrom v chain slot) =
      ((starts slot sets).filter (Whole v)).map (readSet v chain) := by
  induction sets generalizing slot with
  | nil =>
      rw [LaidOut] at laid
      by_cases behind : slot < chain.length * v.slots
      · rw [placesFrom, ← Nat.succ_pred_eq_of_pos (Nat.sub_pos_of_lt behind), List.range'_succ,
          List.map_cons, seen, if_pos (laid behind)]
        rfl
      · rw [placesFrom, Nat.sub_eq_zero_of_le (Nat.le_of_not_lt behind)]
        rfl
  | cons set sets induction =>
      rw [LaidOut] at laid
      rcases laid with ⟨room, bytes, later⟩
      have few := set.few
      have here := setAt_start shape bytes
      have used : body v store (placeAt v chain slot).cl (placeAt v chain slot).off ≠ 0x00 := by
        have type := bytes 0 (by omega) 0 (by omega)
        rw [Nat.add_zero, Nat.zero_mul, Nat.add_zero, Nat.add_zero, set.file] at type
        rw [type]
        decide
      have places : placesFrom v chain slot = placeAt v chain slot ::
          ((List.range' (slot + 1) (set.count - 1)).map (placeAt v chain) ++
            placesFrom v chain (slot + set.count)) := by
        have total : chain.length * v.slots - slot =
            set.count - 1 + (chain.length * v.slots - (slot + set.count)) + 1 := by omega
        have next : slot + 1 + (set.count - 1) = slot + set.count := by omega
        rw [placesFrom, total, List.range'_succ, List.map_cons, ← List.range'_append_1,
          List.map_append, next, placesFrom]
      have others : ∀ place ∈ (List.range' (slot + 1) (set.count - 1)).map (placeAt v chain),
          body v store place.cl place.off ≠ 0x00 ∧
            body v store place.cl place.off ≠ exfatEntryFile := by
        intro place member
        rcases List.mem_map.mp member with ⟨number, range, rfl⟩
        have bounds := List.mem_range'_1.mp range
        have type := bytes (number - slot) (by omega) 0 (by omega)
        rw [show slot + (number - slot) = number by omega, Nat.add_zero, Nat.add_zero] at type
        rw [type]
        exact secondary_type (by omega) (by omega)
      have passed := seen_append (placesFrom v chain (slot + set.count))
        (fun place member => (others place member).1)
        (fun place member => by rw [setAt, if_pos (others place member).2])
      rw [places, seen, if_neg used, here, starts]
      by_cases whole : Whole v (slot, set)
      · rw [if_pos whole, List.filter_cons_of_pos (by simpa using whole), List.map_cons, passed,
          induction later]
        rfl
      · rw [if_neg whole, List.filter_cons_of_neg (by simpa using whole), passed, induction later]

/-! ## Looking up a name -/

omit shape in
/-- A lookup takes the first of the sets it reads that has the name. -/
theorem lookup_seen (store : ClusterStore) (want : List UInt8) (places : List Place) :
    (∀ found, (seen v store places).find? (fun set => sameName want set.2.1) = some found →
      lookup v store want places =
        .ok { found.2.2 with dirCluster := found.1.cl, dirByteOff := found.1.off }) ∧
    ((seen v store places).find? (fun set => sameName want set.2.1) = none →
      ∃ code, lookup v store want places = .error code) := by
  induction places with
  | nil => exact ⟨by simp [seen], fun _ => ⟨-3, rfl⟩⟩
  | cons place places induction =>
      by_cases ended : body v store place.cl place.off = 0x00
      · have result : lookup v store want (place :: places) = .error (-2) := by
          rw [lookup, List.findSome?_cons, verdict, if_pos ended]
          rfl
        rw [seen, if_pos ended]
        exact ⟨by simp, fun _ => ⟨-2, result⟩⟩
      · rw [seen, if_neg ended, lookup, List.findSome?_cons, verdict, if_neg ended]
        cases parsed : setAt v store place with
        | none => exact induction
        | some set =>
            rcases set with ⟨name, info⟩
            by_cases same : sameName want name = true
            · simp [same]
            · simp only [List.find?_cons, same]
              exact induction

omit shape in
theorem findSome?_congr {α β : Type} {first second : α → Option β} {values : List α}
    (same : ∀ value ∈ values, first value = second value) :
    values.findSome? first = values.findSome? second := by
  induction values with
  | nil => rfl
  | cons value values induction =>
      rw [List.findSome?_cons, List.findSome?_cons, same value (by simp),
        induction fun other member => same other (by simp [member])]

/-- What the driver makes of a slot is the set that starts in it. -/
theorem setOn_eq (sectors : Nat → Buffer) {cl off : Nat}
    (data : DataCluster (v.exfatClusterCount + 2) cl) (aligned : 32 ∣ off)
    (inside : off < v.clusterBytes) :
    setOn v sectors cl off = setAt v (exfatView v sectors) ⟨cl, off⟩ := by
  have sector : slotSector v sectors cl off =
      (exfatView v sectors).sector cl (off / v.bytesPerSec) :=
    slot_sector shape sectors data inside
  have ran := exfatSetAt_healthy v sectors cl off
  rcases (exfatSetAt_reads shape sectors data aligned).healthy with
    ⟨_, result, _, outcome, reads⟩
  rw [sector, reads] at ran
  rcases outcome with ⟨failed, _⟩ | ⟨_, same⟩
  · cases failed
  · rw [← same]
    cases ran
    rfl

theorem slotMark_eq (sectors : Nat → Buffer) {cl off : Nat}
    (data : DataCluster (v.exfatClusterCount + 2) cl) (aligned : 32 ∣ off)
    (inside : off < v.clusterBytes) :
    slotMark v sectors cl off = body v (exfatView v sectors) cl off := by
  rw [slotMark, slotSector, slot_sector shape sectors data inside,
    body_slot_start shape _ cl aligned]

theorem slotVerdict_eq (sectors : Nat → Buffer) (want : List UInt8) {cl off : Nat}
    (data : DataCluster (v.exfatClusterCount + 2) cl) (aligned : 32 ∣ off)
    (inside : off < v.clusterBytes) :
    slotVerdict v sectors want cl off = verdict v (exfatView v sectors) want ⟨cl, off⟩ := by
  have set := setOn_eq shape sectors data aligned inside
  have mark := slotMark_eq shape sectors data aligned inside
  cases found : setAt v (exfatView v sectors) ⟨cl, off⟩ <;>
    simp only [slotVerdict, verdict, set, mark, found]

/-- A lookup is a search, whether or not the bitmap was noted before. -/
theorem exfatFindInDir_search {sectors : Nat → Buffer} (want : List UInt8) {start fuel : Nat}
    {chain : List Nat} (linked : Linked (exfatView v sectors).next EndOfChain start chain)
    (data : ∀ cl ∈ chain, DataCluster (v.exfatClusterCount + 2) cl)
    (enough : chain.length < fuel) :
    ∃ v', SameLayout v v' ∧ exfatFindInDir want fuel start v (Device.healthy sectors) =
      some ((v', lookup v (exfatView v sectors) want (chainPlaces v chain)),
        Device.healthy sectors) := by
  rcases exfatFindInDir_eq_pursue v sectors want fuel start with ⟨v', same, run⟩
  refine ⟨v', same, run.trans ?_⟩
  have search : pursue (findVerdict v sectors want) (fatEntry v sectors) fuel start =
      some (lookup v (exfatView v sectors) want (chainPlaces v chain)) := by
    clear run
    induction linked, enough using Linked.walk with
    | nil stopped =>
        have ended : isEndCluster _ = true := stopped
        rw [pursue, findVerdict, if_pos ended]
        rfl
    | @cons cl rest fuel running tail shorter induction =>
        have clData := data cl (by simp)
        have going : isEndCluster cl = false := by
          simpa [EndOfChain] using running
        have later := induction (fun other member => data other (by simp [member]))
        have next := shape.geometry.fatEntry_eq sectors clData.2 running
        have slots : (clusterOffsets v).findSome? (slotVerdict v sectors want cl) =
            ((clusterOffsets v).map fun off => (⟨cl, off⟩ : Place)).findSome?
              (verdict v (exfatView v sectors) want) := by
          rw [List.findSome?_map]
          apply findSome?_congr
          intro off member
          have range := (mem_clusterOffsets shape).mp member
          exact slotVerdict_eq shape sectors want clData range.1 range.2
        rw [pursue, findVerdict, going, if_neg Bool.false_ne_true, slots, lookup, chainPlaces,
          List.flatMap_cons, List.findSome?_append, ← chainPlaces]
        cases ((clusterOffsets v).map fun off => (⟨cl, off⟩ : Place)).findSome?
            (verdict v (exfatView v sectors) want) with
        | some result => rfl
        | none =>
            rw [next]
            exact later
  rw [search]
  rfl

/-! ## Listing -/

/-- What a listing makes of a set that it reads. -/
def direntOf (found : Place × List UInt8 × EntryInfo) : Dirent :=
  ⟨(found.2.1.takeWhile (· ≠ 0)).take 12, if found.2.2.isDir then 0x10 else 0x20,
    found.2.2.size % 4294967296⟩

/-- There is an end marker among the places. -/
def EndsIn (v : Vol) (store : ClusterStore) (places : List Place) : Prop :=
  ∃ place ∈ places, body v store place.cl place.off = 0x00

omit shape in
theorem seen_append_marked {store : ClusterStore} {first : List Place} (rest : List Place)
    (marked : EndsIn v store first) : seen v store (first ++ rest) = seen v store first := by
  induction first with
  | nil =>
      rcases marked with ⟨place, member, _⟩
      cases member
  | cons place first induction =>
      rw [List.cons_append, seen, seen]
      by_cases ended : body v store place.cl place.off = 0x00
      · rw [if_pos ended, if_pos ended]
      · have later : EndsIn v store first := by
          rcases marked with ⟨other, member, here⟩
          cases List.mem_cons.mp member with
          | inl same => exact absurd (same ▸ here) ended
          | inr behind => exact ⟨other, behind, here⟩
        rw [if_neg ended, if_neg ended, induction later]

omit shape in
theorem seen_append_unmarked {store : ClusterStore} {first : List Place} (rest : List Place)
    (unmarked : ¬ EndsIn v store first) :
    seen v store (first ++ rest) = seen v store first ++ seen v store rest := by
  induction first with
  | nil => rfl
  | cons place first induction =>
      have used : body v store place.cl place.off ≠ 0x00 := fun ended =>
        unmarked ⟨place, by simp, ended⟩
      have later : ¬ EndsIn v store first := by
        rintro ⟨other, member, ended⟩
        exact unmarked ⟨other, by simp [member], ended⟩
      rw [List.cons_append, seen, seen, if_neg used, if_neg used, induction later]
      cases setAt v store place <;> rfl

/-- The slot loop reports the sets that it reads, up to an end marker and as long as there is
room. -/
theorem exfatListSlots_seen (sectors : Nat → Buffer) (maxItems : Nat) {cl : Nat}
    (data : DataCluster (v.exfatClusterCount + 2) cl) (offsets : List Nat)
    (range : ∀ off ∈ offsets, 32 ∣ off ∧ off < v.clusterBytes) (items : List Dirent) :
    ∃ code, exfatListSlots v maxItems cl offsets items (Device.healthy sectors) =
        some ((code, items ++ ((seen v (exfatView v sectors)
          (offsets.map fun off => ⟨cl, off⟩)).take (maxItems - items.length)).map direntOf),
          Device.healthy sectors) ∧
      (code = some 0 ∧ EndsIn v (exfatView v sectors) (offsets.map fun off => ⟨cl, off⟩) ∨
        code = none ∧ (¬ EndsIn v (exfatView v sectors) (offsets.map fun off => ⟨cl, off⟩) ∨
          maxItems ≤ items.length + (seen v (exfatView v sectors)
            (offsets.map fun off => ⟨cl, off⟩)).length)) := by
  induction offsets generalizing items with
  | nil =>
      refine ⟨none, by simp [exfatListSlots, seen], .inr ⟨rfl, .inl ?_⟩⟩
      rintro ⟨place, member, _⟩
      cases member
  | cons off rest induction =>
      rcases range off (by simp) with ⟨aligned, inside⟩
      have restRange := fun other member => range other (List.mem_cons_of_mem off member)
      have mark := slotMark_eq shape sectors data aligned inside
      have set := setOn_eq shape sectors data aligned inside
      rw [exfatListSlots]
      simp only [List.map_cons]
      by_cases full : items.length ≥ maxItems
      · have none : maxItems - items.length = 0 := by omega
        rw [if_pos full, none, List.take_zero]
        refine ⟨_, by rw [List.map_nil, List.append_nil]; rfl, .inr ⟨rfl, .inr ?_⟩⟩
        omega
      · have sector : sectors (u32 (clusToLba v cl + off / v.bytesPerSec)) =
            slotSector v sectors cl off := rfl
        have type : slotSector v sectors cl off (off % v.bytesPerSec) =
            slotMark v sectors cl off := rfl
        rw [if_neg full, DiskM.bind_apply, rd_healthy, Option.bind_some]
        simp only [sector, type, mark]
        rw [seen]
        by_cases ended : body v (exfatView v sectors) cl off = 0x00
        · rw [if_pos ended, if_pos ended]
          refine ⟨some 0, ?_, .inl ⟨rfl, ⟨cl, off⟩, by simp, ended⟩⟩
          rw [List.take_nil, List.map_nil, List.append_nil]
          rfl
        · have marked : EndsIn v (exfatView v sectors)
                (⟨cl, off⟩ :: rest.map fun off => ⟨cl, off⟩) ↔
              EndsIn v (exfatView v sectors) (rest.map fun off => ⟨cl, off⟩) := by
            constructor
            · rintro ⟨place, member, here⟩
              cases List.mem_cons.mp member with
              | inl same =>
                  rw [same] at here
                  exact absurd here ended
              | inr behind => exact ⟨place, behind, here⟩
            · rintro ⟨place, member, here⟩
              exact ⟨place, List.mem_cons_of_mem _ member, here⟩
          have ran := exfatSetAt_healthy v sectors cl off
          rw [if_neg ended, if_neg ended, DiskM.bind_run ran, set, marked]
          cases parsed : setAt v (exfatView v sectors) ⟨cl, off⟩ with
          | none => exact induction restRange items
          | some found =>
              rcases found with ⟨name, info⟩
              have further := induction restRange (items ++ [direntOf (⟨cl, off⟩, name, info)])
              rcases further with ⟨code, run, outcome⟩
              have room : maxItems - items.length = maxItems - (items.length + 1) + 1 := by omega
              rw [List.length_append, List.length_singleton] at run outcome
              rw [List.append_assoc, List.singleton_append] at run
              refine ⟨code, ?_, ?_⟩
              · simp only
                rw [room, List.take_succ_cons, List.map_cons]
                exact run
              · rw [Nat.add_assoc, Nat.add_comm 1] at outcome
                exact outcome

/-- The listing reports the sets that the driver reads, as long as there is room. -/
theorem exfatListDir_seen {sectors : Nat → Buffer} (maxItems : Nat) {start fuel : Nat}
    {chain : List Nat} (linked : Linked (exfatView v sectors).next EndOfChain start chain)
    (data : ∀ cl ∈ chain, DataCluster (v.exfatClusterCount + 2) cl)
    (enough : chain.length < fuel) (items : List Dirent) :
    exfatListDir v maxItems fuel start items (Device.healthy sectors) =
      some ((0, items ++ ((seen v (exfatView v sectors) (chainPlaces v chain)).take
        (maxItems - items.length)).map direntOf), Device.healthy sectors) := by
  induction linked, enough using Linked.walk generalizing items with
  | nil stopped =>
      have ended : isEndCluster _ = true := stopped
      rw [exfatListDir, if_pos ended]
      simp [chainPlaces, seen]
  | @cons cl rest fuel running tail shorter induction =>
      have clData := data cl (by simp)
      have going : isEndCluster cl = false := by
        simpa [EndOfChain] using running
      have restData := fun other member => data other (List.mem_cons_of_mem cl member)
      have next := shape.geometry.fatEntry_eq sectors clData.2 running
      have whole : chainPlaces v (cl :: rest) =
          (clusterOffsets v).map (fun off => ⟨cl, off⟩) ++ chainPlaces v rest := rfl
      have range := fun off => (@mem_clusterOffsets v shape off).mp
      rw [exfatListDir, going, if_neg Bool.false_ne_true, whole]
      rcases exfatListSlots_seen shape sectors maxItems clData _ range items with
        ⟨code, run, outcome⟩
      rw [DiskM.bind_run run]
      have onwards := induction restData (items ++ ((seen v (exfatView v sectors)
        ((clusterOffsets v).map fun off => ⟨cl, off⟩)).take
          (maxItems - items.length)).map direntOf)
      rw [← next] at onwards
      by_cases ended : EndsIn v (exfatView v sectors)
          ((clusterOffsets v).map fun off => ⟨cl, off⟩)
      · rw [seen_append_marked _ ended]
        rcases outcome with ⟨rfl, _⟩ | ⟨rfl, cause⟩
        · rfl
        · -- the listing is full before it comes to the marker
          have filled := cause.resolve_left (not_not.mpr ended)
          have none : maxItems - (items ++ ((seen v (exfatView v sectors)
              ((clusterOffsets v).map fun off => ⟨cl, off⟩)).take
                (maxItems - items.length)).map direntOf).length = 0 := by
            rw [List.length_append, List.length_map, List.length_take]
            omega
          rw [none, List.take_zero, List.map_nil, List.append_nil] at onwards
          simp only [DiskM.bind_apply, fatReadFatEntry_healthy, Option.bind_some]
          exact onwards
      · rcases outcome with ⟨_, marked⟩ | ⟨rfl, _⟩
        · exact absurd marked ended
        · have left : maxItems - (items ++ ((seen v (exfatView v sectors)
              ((clusterOffsets v).map fun off => ⟨cl, off⟩)).take
                (maxItems - items.length)).map direntOf).length =
              maxItems - items.length - (seen v (exfatView v sectors)
                ((clusterOffsets v).map fun off => ⟨cl, off⟩)).length := by
            rw [List.length_append, List.length_map, List.length_take]
            omega
          rw [left, List.append_assoc, ← List.map_append, ← List.take_append] at onwards
          rw [seen_append_unmarked _ ended]
          simp only [DiskM.bind_apply, fatReadFatEntry_healthy, Option.bind_some]
          exact onwards

end

/-! ## Directories -/

theorem starts_append (slot : Nat) (before after : List FileSet) :
    starts slot (before ++ after) =
      starts slot before ++ starts (slot + (before.map FileSet.count).sum) after := by
  induction before generalizing slot with
  | nil => rfl
  | cons set before induction =>
      rw [List.cons_append, starts, starts, induction, List.map_cons, List.sum_cons,
        Nat.add_assoc]
      rfl

/-- The sets are in the order of their slots. -/
theorem starts_bounds {slot : Nat} {sets : List FileSet} {start : Nat × FileSet}
    (member : start ∈ starts slot sets) :
    slot ≤ start.1 ∧ start.1 + start.2.count ≤ slot + (sets.map FileSet.count).sum ∧
      start.2 ∈ sets := by
  induction sets generalizing slot with
  | nil => cases member
  | cons set sets induction =>
      rw [List.map_cons, List.sum_cons]
      cases List.mem_cons.mp member with
      | inl first =>
          rw [first]
          refine ⟨Nat.le_refl _, ?_, by simp⟩
          simp only
          omega
      | inr later =>
          have bounds := induction later
          exact ⟨by omega, by omega, by simp [bounds.2.2]⟩

theorem LaidOut.room {v : Vol} {store : ClusterStore} {chain : List Nat} {slot : Nat}
    {sets : List FileSet} (laid : LaidOut v store chain slot sets)
    (within : slot ≤ chain.length * v.slots) :
    slot + (sets.map FileSet.count).sum ≤ chain.length * v.slots := by
  induction sets generalizing slot with
  | nil => exact within
  | cons set sets induction =>
      have rest := induction laid.2.2 laid.1
      rw [List.map_cons, List.sum_cons, ← Nat.add_assoc]
      exact rest

theorem starts_map (slot : Nat) (sets : List FileSet) : (starts slot sets).map Prod.snd = sets := by
  induction sets generalizing slot with
  | nil => rfl
  | cons set sets induction => rw [starts, List.map_cons, induction]

/-- A directory whose chain of clusters holds the sets. -/
structure DirectoryOf (v : Vol) (sectors : Nat → Buffer) (start : Nat) (chain : List Nat)
    (sets : List FileSet) : Prop where
  shape : ExfatGeometry v
  linked : Linked (exfatView v sectors).next EndOfChain start chain
  data : ∀ cl ∈ chain, DataCluster (v.exfatClusterCount + 2) cl
  laid : LaidOut v (exfatView v sectors) chain 0 sets

section

variable {v : Vol} {sectors : Nat → Buffer} {start fuel : Nat} {chain : List Nat}
  {sets : List FileSet} (directory : DirectoryOf v sectors start chain sets)
include directory

theorem DirectoryOf.seen_eq : seen v (exfatView v sectors) (chainPlaces v chain) =
    ((starts 0 sets).filter (Whole v)).map (readSet v chain) := by
  rw [chainPlaces_eq directory.shape]
  exact seen_laidOut directory.shape directory.laid

/-- The first set within one cluster that has the name, as the driver reads names. -/
def firstNamed (v : Vol) (want : List UInt8) (sets : List FileSet) : Option (Nat × FileSet) :=
  (starts 0 sets).find? fun start => Whole v start ∧ sameName want start.2.lowName = true

/-- The lookup returns that set, or an error. -/
theorem DirectoryOf.find (want : List UInt8) (enough : chain.length < fuel) :
    ∃ v' result, exfatFindInDir want fuel start v (Device.healthy sectors) =
        some ((v', result), Device.healthy sectors) ∧
      match firstNamed v want sets with
      | some found => result = .ok (found.2.info (placeAt v chain found.1))
      | none => ∃ code, result = .error code := by
  rcases exfatFindInDir_search directory.shape want directory.linked directory.data enough with
    ⟨v', _, run⟩
  have search := @lookup_seen v (exfatView v sectors) want (chainPlaces v chain)
  have first : (((starts 0 sets).filter (Whole v)).map (readSet v chain)).find?
      (fun set => sameName want set.2.1) = (firstNamed v want sets).map (readSet v chain) := by
    rw [List.find?_map, List.find?_filter, firstNamed]
    simp [readSet]
  rw [directory.seen_eq, first] at search
  refine ⟨v', _, run, ?_⟩
  cases named : firstNamed v want sets with
  | some found => exact search.1 (readSet v chain found) (by rw [named]; rfl)
  | none => exact search.2 (by rw [named]; rfl)

/-- What the lookup returns is the first set of the name. -/
theorem DirectoryOf.finds_iff (want : List UInt8) (enough : chain.length < fuel)
    (info : EntryInfo) :
    (∃ v', exfatFindInDir want fuel start v (Device.healthy sectors) =
      some ((v', .ok info), Device.healthy sectors)) ↔
      ∃ found, firstNamed v want sets = some found ∧
        info = found.2.info (placeAt v chain found.1) := by
  rcases directory.find want enough with ⟨v', result, run, first⟩
  rw [run]
  cases named : firstNamed v want sets with
  | none =>
      rw [named] at first
      rcases first with ⟨code, rfl⟩
      simp
  | some found =>
      rw [named] at first
      subst first
      simp [eq_comm]

theorem DirectoryOf.slot_inj {first second : Nat} (firstIn : first < chain.length * v.slots)
    (secondIn : second < chain.length * v.slots)
    (same : placeAt v chain first = placeAt v chain second) : first = second := by
  have positive := directory.shape.slots_pos
  have below : ∀ slot, slot < chain.length * v.slots → slot / v.slots < chain.length := by
    intro slot inside
    exact Nat.div_lt_of_lt_mul (Nat.mul_comm _ _ ▸ inside)
  simp only [placeAt, Place.mk.injEq] at same
  rcases same with ⟨cluster, offset⟩
  rw [List.getD_eq_getElem _ _ (below first firstIn),
    List.getD_eq_getElem _ _ (below second secondIn),
    directory.linked.nodup.getElem_inj_iff] at cluster
  rw [← Nat.div_add_mod first v.slots, ← Nat.div_add_mod second v.slots, cluster]
  omega

section

variable {before after : List FileSet} {set : FileSet} (split : sets = before ++ set :: after)
  (want : List UInt8)
include split

omit directory in
theorem starts_split : starts 0 sets = starts 0 before ++
    ((before.map FileSet.count).sum, set) ::
      starts ((before.map FileSet.count).sum + set.count) after := by
  rw [split, starts_append, Nat.zero_add]
  rfl

omit directory in
/-- The set is the first of its name if it is whole and no whole set before it has the name. -/
theorem firstNamed_eq (same : sameName want set.lowName = true)
    (whole : Whole v ((before.map FileSet.count).sum, set))
    (first : ∀ earlier ∈ starts 0 before, Whole v earlier →
      sameName want earlier.2.lowName = false) :
    firstNamed v want sets = some ((before.map FileSet.count).sum, set) := by
  have none : (starts 0 before).find? (fun start =>
      Whole v start ∧ sameName want start.2.lowName = true) = none := by
    rw [List.find?_eq_none]
    intro earlier member
    have other := first earlier member
    simp only [decide_eq_true_eq, not_and, Bool.not_eq_true]
    exact other
  rw [firstNamed, starts_split split, List.find?_append, none, Option.none_or,
    List.find?_cons_of_pos (by simp [whole, same])]

/-- Where the lookup finds the place of the set, it is whole and the first of its name. -/
theorem DirectoryOf.first_of_place {found : Nat × FileSet}
    (named : firstNamed v want sets = some found)
    (same : placeAt v chain found.1 = placeAt v chain (before.map FileSet.count).sum) :
    Whole v ((before.map FileSet.count).sum, set) ∧
      ∀ earlier ∈ starts 0 before, Whole v earlier → sameName want earlier.2.lowName = false := by
  have room := directory.laid.room (Nat.zero_le _)
  have member := List.mem_of_find?_eq_some named
  have holds := List.find?_some named
  simp only [decide_eq_true_eq] at holds
  have bounds := starts_bounds member
  have few := found.2.few
  have ownFew := set.few
  have own : ((before.map FileSet.count).sum, set) ∈ starts 0 sets := by
    rw [starts_split split]
    simp
  have ownBounds := starts_bounds own
  simp only at ownBounds
  have slot := directory.slot_inj (by omega) (by omega) same
  rw [starts_split split] at member
  constructor
  · rcases List.mem_append.mp member with early | late
    · have bound := starts_bounds early
      omega
    · cases List.mem_cons.mp late with
      | inl here => exact here ▸ holds.1
      | inr behind =>
          have bound := starts_bounds behind
          omega
  · intro earlier early whole
    by_contra hit
    rw [Bool.not_eq_false] at hit
    have satisfied : (starts 0 before).find? (fun start =>
        Whole v start ∧ sameName want start.2.lowName = true) ≠ none := by
      rw [ne_eq, List.find?_eq_none]
      intro every
      have fails := every earlier early
      simp [whole, hit] at fails
    rcases Option.ne_none_iff_exists'.mp satisfied with ⟨other, first⟩
    rw [firstNamed, starts_split split, List.find?_append, first, Option.some_or,
      Option.some.injEq] at named
    have bound := starts_bounds (List.mem_of_find?_eq_some first)
    rw [named] at bound
    omega

/-- The lookup of the name returns the set with its place. -/
theorem DirectoryOf.finds_place_iff (enough : chain.length < fuel)
    (same : sameName want set.lowName = true) :
    (∃ v', exfatFindInDir want fuel start v (Device.healthy sectors) =
      some ((v', .ok (set.info (placeAt v chain (before.map FileSet.count).sum))),
        Device.healthy sectors)) ↔
      Whole v ((before.map FileSet.count).sum, set) ∧
        ∀ earlier ∈ starts 0 before, Whole v earlier →
          sameName want earlier.2.lowName = false := by
  rw [directory.finds_iff want enough]
  constructor
  · rintro ⟨found, named, equal⟩
    apply directory.first_of_place split want named
    have cluster := congrArg EntryInfo.dirCluster equal
    have offset := congrArg EntryInfo.dirByteOff equal
    exact congrArg₂ Place.mk cluster.symm offset.symm
  · rintro ⟨whole, first⟩
    exact ⟨_, firstNamed_eq split want same whole first, rfl⟩

omit directory in
/-- Where no other set has the name, only this one is found. -/
theorem firstNamed_only {found : Nat × FileSet} (named : firstNamed v want sets = some found)
    (others : ∀ other ∈ before ++ after, sameName want other.lowName = false) :
    found = ((before.map FileSet.count).sum, set) := by
  have holds := List.find?_some named
  have member := List.mem_of_find?_eq_some named
  simp only [decide_eq_true_eq] at holds
  have different : found.2 ∉ before ++ after := by
    intro other
    have differs := others found.2 other
    rw [holds.2] at differs
    cases differs
  rw [starts_split split] at member
  rcases List.mem_append.mp member with early | late
  · exact absurd (List.mem_append_left after (starts_bounds early).2.2) different
  · cases List.mem_cons.mp late with
    | inl here => exact here
    | inr behind =>
        exact absurd (List.mem_append_right before (starts_bounds behind).2.2) different

/-- The only set of a name is found if it lies within one cluster. -/
theorem DirectoryOf.finds_only_iff (enough : chain.length < fuel)
    (same : sameName want set.lowName = true)
    (others : ∀ other ∈ before ++ after, sameName want other.lowName = false) :
    (∃ v' info, exfatFindInDir want fuel start v (Device.healthy sectors) =
        some ((v', .ok info), Device.healthy sectors) ∧
      info.cluster = set.cluster ∧ info.size = set.size ∧ info.isDir = set.isDir) ↔
      Whole v ((before.map FileSet.count).sum, set) := by
  constructor
  · rintro ⟨v', info, run, _⟩
    rcases (directory.finds_iff want enough info).mp ⟨v', run⟩ with ⟨found, named, _⟩
    have holds := List.find?_some named
    simp only [decide_eq_true_eq] at holds
    exact firstNamed_only split want named others ▸ holds.1
  · intro whole
    have first : ∀ earlier ∈ starts 0 before, Whole v earlier →
        sameName want earlier.2.lowName = false := fun earlier member _ =>
      others earlier.2 (List.mem_append_left after (starts_bounds member).2.2)
    rcases (directory.finds_place_iff split want enough same).mpr ⟨whole, first⟩ with ⟨v', run⟩
    exact ⟨v', _, run, rfl, rfl, rfl⟩

end

/-- A listing reports the sets within one cluster, as long as there is room. -/
theorem DirectoryOf.lists_take (enough : chain.length < fuel) (maxItems : Nat) :
    exfatListDir v maxItems fuel start [] (Device.healthy sectors) =
      some ((0, (((starts 0 sets).filter (Whole v)).take maxItems).map fun start =>
        start.2.dirent), Device.healthy sectors) := by
  have listed := exfatListDir_seen directory.shape maxItems directory.linked directory.data
    enough []
  rw [directory.seen_eq, ← List.map_take, List.map_map, List.nil_append] at listed
  exact listed

theorem DirectoryOf.lists (enough : chain.length < fuel) {maxItems : Nat}
    (room : sets.length ≤ maxItems) :
    exfatListDir v maxItems fuel start [] (Device.healthy sectors) =
      some ((0, ((starts 0 sets).filter (Whole v)).map fun start => start.2.dirent),
        Device.healthy sectors) := by
  have count := List.length_filter_le (fun start => decide (Whole v start)) (starts 0 sets)
  have total := congrArg List.length (starts_map 0 sets)
  rw [List.length_map] at total
  rw [directory.lists_take enough, List.take_of_length_le (by omega)]

omit directory in
/-- The sets within one cluster are all sets just if each lies within one. -/
theorem reported_all_iff :
    ((starts 0 sets).filter (Whole v)).map (fun start => start.2.dirent) =
      sets.map FileSet.dirent ↔ ∀ start ∈ starts 0 sets, Whole v start := by
  rw [← starts_map 0 sets, List.map_map, starts_map 0 sets]
  constructor
  · intro every
    have lengths := congrArg List.length every
    rw [List.length_map, List.length_map, List.length_filter_eq_length_iff] at lengths
    intro start member
    exact of_decide_eq_true (lengths start member)
  · intro every
    rw [List.filter_eq_self.mpr fun start member => decide_eq_true (every start member)]
    rfl

/-- The lookup of a set's name returns that set exactly if the set lies within one cluster
and no such set before it has a name with the same low bytes; where no other set has, its
cluster, size and flag are returned exactly if it lies within one cluster. A listing with
enough room reports the sets within one cluster in order, and so every set exactly if each
lies within one cluster. -/
theorem exfatLookup_finds_iff (enough : chain.length < fuel) :
    (∀ before set after, sets = before ++ set :: after → ∀ want : List UInt8,
      set.Named want → (∀ char ∈ want, char ≠ 0) →
      ((∃ v', exfatFindInDir want fuel start v (Device.healthy sectors) =
          some ((v', .ok (set.info (placeAt v chain (before.map FileSet.count).sum))),
            Device.healthy sectors)) ↔
        Whole v ((before.map FileSet.count).sum, set) ∧
          ∀ earlier ∈ starts 0 before, Whole v earlier →
            sameName want earlier.2.lowName = false) ∧
      ((∀ other ∈ before ++ after, sameName want other.lowName = false) →
        ((∃ v' info, exfatFindInDir want fuel start v (Device.healthy sectors) =
            some ((v', .ok info), Device.healthy sectors) ∧
            info.cluster = set.cluster ∧ info.size = set.size ∧ info.isDir = set.isDir) ↔
          Whole v ((before.map FileSet.count).sum, set)))) ∧
    ∀ maxItems, sets.length ≤ maxItems →
      ∃ items, exfatListDir v maxItems fuel start [] (Device.healthy sectors) =
          some ((0, items), Device.healthy sectors) ∧
        items = ((starts 0 sets).filter (Whole v)).map (fun start => start.2.dirent) ∧
        (items = sets.map FileSet.dirent ↔ ∀ start ∈ starts 0 sets, Whole v start) := by
  constructor
  · intro before set after split want named chars
    have same := named.sameName chars
    constructor
    · exact directory.finds_place_iff split want enough same
    · intro others
      exact directory.finds_only_iff split want enough same others
  · intro maxItems room
    exact ⟨_, directory.lists enough room, rfl, reported_all_iff⟩

end

/-! ## A directory of two clusters -/

/-- The set that the driver writes for a name. -/
def FileSet.built (name : List UInt8) (first size : Nat) (isDir : Bool) (nonempty : name ≠ [])
    (short : name.length ≤ 255) : FileSet where
  count := entriesFor name
  bytes := builtSet name first size isDir
  few := entriesFor_bounds nonempty short
  file := builtSet_type name first size isDir
  secondary := builtSet_count name first size isDir short
  stream := builtSet_stream name first size isDir
  inUse := by
    intro entry behind inside
    rw [builtSet_nameType name first size isDir behind inside]
    decide
  nameFits := by
    rw [builtSet_length name first size isDir short]
    exact length_le_names name
  names := by
    intro entry behind part
    rw [builtSet_length name first size isDir short] at part
    exact builtSet_nameType name first size isDir behind (lt_entriesFor part)

theorem letterB_ne_nil : ([0x42] : List UInt8) ≠ [] := by decide

theorem letterB_short : ([0x42] : List UInt8).length ≤ 255 := by decide

/-- A set of 14 slots, and one of 3 slots that begins in slot 14. -/
def straddlingSets : List FileSet :=
  [.built (List.replicate 170 0x41) 7 100 false (List.cons_ne_nil 0x41 (List.replicate 169 0x41))
      (by rw [List.length_replicate]; decide),
    .built [0x42] 8 5 false letterB_ne_nil letterB_short]

/-- The directory with these sets in the clusters 5 and 6. -/
def straddlingImage : Nat → Buffer := fun lba =>
  if lba = 1 then Buffer.putU32 (Buffer.putU32 (fun _ => 0) 20 6) 24 eocMark
  else if lba = 5 ∨ lba = 6 then fun index =>
    let place := 512 * (lba - 5) + index
    if place < 448 then builtSet (List.replicate 170 0x41) 7 100 false place
    else if place < 544 then builtSet [0x42] 8 5 false (place - 448)
    else 0
  else fun _ => 0

/-- Where the 32 slots of the directory are. -/
theorem straddlingImage_slots : ∀ slot < 32,
    (placeAt exfatVol [5, 6] slot).cl = 5 + slot / 16 ∧
      (placeAt exfatVol [5, 6] slot).off = 32 * (slot % 16) := by
  decide

/-- The slots of the directory one after another. -/
theorem straddlingImage_body {slot index : Nat} (inside : slot < 32) (below : index < 32) :
    body exfatVol (exfatView exfatVol straddlingImage) (placeAt exfatVol [5, 6] slot).cl
        ((placeAt exfatVol [5, 6] slot).off + index) =
      if slot < 14 then builtSet (List.replicate 170 0x41) 7 100 false (slot * 32 + index)
      else if slot < 17 then builtSet [0x42] 8 5 false ((slot - 14) * 32 + index)
      else 0 := by
  have cluster : slot / 16 = 0 ∨ slot / 16 = 1 := by omega
  have sector : (exfatView exfatVol straddlingImage).sector (5 + slot / 16) 0 =
      straddlingImage (5 + slot / 16) := by
    rcases cluster with first | second
    · rw [first]
      rfl
    · rw [second]
      rfl
  have offset : 32 * (slot % 16) + index < 512 := by omega
  rw [(straddlingImage_slots slot inside).1, (straddlingImage_slots slot inside).2, body,
    show exfatVol.bytesPerSec = 512 from rfl, Nat.div_eq_of_lt offset, Nat.mod_eq_of_lt offset,
    sector, straddlingImage, if_neg (by omega), if_pos (by omega)]
  dsimp only
  have place : 512 * (5 + slot / 16 - 5) + (32 * (slot % 16) + index) = slot * 32 + index := by
    omega
  rw [place]
  by_cases early : slot < 14
  · rw [if_pos early, if_pos (by omega)]
  · rw [if_neg early, if_neg (by omega)]
    by_cases second : slot < 17
    · rw [if_pos second, if_pos (by omega),
        show slot * 32 + index - 448 = (slot - 14) * 32 + index by omega]
    · rw [if_neg second, if_neg (by omega)]

theorem straddlingImage_directory :
    DirectoryOf exfatVol straddlingImage 5 [5, 6] straddlingSets where
  shape := exfatVol_shape
  linked := .cons (by decide) (.cons (by decide) (.nil (by decide)))
  data := by
    intro cl member
    simp only [List.mem_cons, List.not_mem_nil, or_false] at member
    rcases member with rfl | rfl <;> exact ⟨by decide, by decide⟩
  laid := by
    have long : entriesFor (List.replicate 170 (0x41 : UInt8)) = 14 := by
      rw [entriesFor, List.length_replicate]
    have short : entriesFor ([0x42] : List UInt8) = 3 := rfl
    refine ⟨?_, ?_, ?_, ?_, ?_⟩
    · simp only [FileSet.built, long]
      decide
    · simp only [FileSet.built, long]
      intro entry few index below
      rw [straddlingImage_body (by omega) below, if_pos (by omega), Nat.zero_add]
    · simp only [FileSet.built, long, short]
      decide
    · simp only [FileSet.built, long, short]
      intro entry few index below
      rw [straddlingImage_body (by omega) below, if_neg (by omega), if_pos (by omega),
        show 0 + 14 + entry - 14 = entry by omega]
    · simp only [FileSet.built, long, short]
      intro _
      have last := @straddlingImage_body 17 0 (by omega) (by omega)
      exact last

/-- A listing does not report both. -/
theorem exfatLookup_finds_iff_straddling :
    ∃ items, exfatListDir exfatVol 2 3 5 [] (Device.healthy straddlingImage) =
        some ((0, items), Device.healthy straddlingImage) ∧
      ¬ items = straddlingSets.map FileSet.dirent := by
  have found := (exfatLookup_finds_iff straddlingImage_directory (show 2 < 3 by decide)).2 2
    (Nat.le_refl 2)
  rcases found with ⟨items, run, _, every⟩
  refine ⟨items, run, ?_⟩
  intro all
  have crossing : ∃ start ∈ starts 0 straddlingSets, ¬ Whole exfatVol start := by decide +kernel
  rcases crossing with ⟨start, member, across⟩
  exact across (every.mp all start member)

/-- The set that begins at the end of one cluster and continues in the next is not found. -/
theorem exfatLookup_misses_straddling :
    ¬ ∀ (v : Vol) (sectors : Nat → Buffer) (start fuel : Nat) (chain : List Nat)
      (sets : List FileSet), DirectoryOf v sectors start chain sets → chain.length < fuel →
      (sets.map fun set => set.name.map upperUnit).Nodup →
      (∀ set ∈ sets, ∀ want : List UInt8, set.Named want → (∀ char ∈ want, char ≠ 0) →
        ∃ v' info, exfatFindInDir want fuel start v (Device.healthy sectors) =
          some ((v', .ok info), Device.healthy sectors) ∧
          info.cluster = set.cluster ∧ info.size = set.size ∧ info.isDir = set.isDir) ∧
      ∀ maxItems, sets.length ≤ maxItems →
        exfatListDir v maxItems fuel start [] (Device.healthy sectors) =
          some ((0, sets.map FileSet.dirent), Device.healthy sectors) := by
  intro claim
  rcases claim exfatVol straddlingImage 5 3 [5, 6] straddlingSets straddlingImage_directory
    (by decide) (by decide +kernel) with ⟨lookup, _⟩
  rcases lookup (.built [0x42] 8 5 false (by decide) (by decide)) (.tail _ (.head _)) [0x42]
    (by decide +kernel) (by simp) with ⟨v', info, run, _⟩
  have observed : (exfatFindInDir [0x42] 3 5 exfatVol (Device.healthy straddlingImage)).map
      (fun result => result.1.2.isOk) = some false := by
    decide +kernel
  rw [run] at observed
  cases observed

end ParanOS

import ParanOS.Exfat.EntrySet

/-! # Building a set and parsing it back

`exfat_build_entry_set` and `exfat_parse_file_set` with their own limits: the one cuts a name
to 255 characters and counts its entries in a byte, the other cuts it to the size of a buffer
and reports its length and attributes as well.
-/

namespace ParanOS

open Foundation

/-- What `exfat_parse_file_set` fills into an `exfat_entry_info_t`. -/
structure SetInfo where
  cluster : Nat
  size : Nat
  isDir : Bool
  nameLen : Nat
  secondaryCount : Nat
  attr : Nat
  deriving DecidableEq

/-- The string in a name buffer of `nameBufSz` bytes with its NUL, and the information; `none`
where the source returns -1. -/
def exfatParseFileSetInfo (set : Buffer) (secondaryCount nameBufSz : Nat) :
    Option (List UInt8 × SetInfo) :=
  if secondaryCount = 0 then none
  else if set 32 ≠ exfatEntryStream then none
  else
    let nameLen := if (set 35).toNat ≥ nameBufSz then (nameBufSz + 255) % 256 else (set 35).toNat
    let name := collectName set nameLen (List.range' 2 (secondaryCount - 1)) []
    some (name ++ [0],
      { cluster := set.getU32 52
        size := set.getU64 56
        isDir := set.getU16 4 &&& 0x10 ≠ 0
        nameLen := nameLen
        secondaryCount := secondaryCount
        attr := set.getU16 4 })

/-- What is in the buffer for a set afterwards, and its number of entries; `none` where the
source returns -1. -/
def exfatBuildEntrySetInto (outSet : Buffer) (name : List UInt8) (firstCluster size : Nat)
    (isDir : Bool) : Option (Buffer × Nat) :=
  let name := (name.takeWhile (· ≠ 0)).take 255
  let total := entriesFor name % 256
  if total > 40 then none
  else some (outSet.copy 0 (total * 32) (exfatBuildEntrySet name firstCluster size isDir), total)

/-! ## What the lookups see of it -/

/-- With 256 bytes for the name nothing is cut off. -/
theorem exfatParseFileSetInfo_eq (set : Buffer) (secondary : Nat) :
    exfatParseFileSetInfo set secondary 256 =
      (exfatParseFileSet set secondary).map fun parsed =>
        (parsed.1 ++ [0],
          { cluster := parsed.2.cluster
            size := parsed.2.size
            isDir := parsed.2.isDir
            nameLen := (set 35).toNat
            secondaryCount := secondary
            attr := set.getU16 4 }) := by
  have byte := (set 35).toNat_lt
  rw [exfatParseFileSetInfo, exfatParseFileSet]
  by_cases single : secondary = 0
  · rw [if_pos single, if_pos single]
    rfl
  · rw [if_neg single, if_neg single]
    by_cases other : set 32 ≠ exfatEntryStream
    · rw [if_pos other, if_pos other]
      rfl
    · rw [if_neg other, if_neg other, if_neg (by omega)]
      rfl

/-- A set for a name that is not cut is never refused. -/
theorem exfatBuildEntrySetInto_eq (outSet : Buffer) {name : List UInt8} (first size : Nat)
    (isDir : Bool) (nulFree : 0 ∉ name) (nonempty : name ≠ []) (short : name.length ≤ 255) :
    exfatBuildEntrySetInto outSet name first size isDir =
      some (outSet.copy 0 (entriesFor name * 32) (exfatBuildEntrySet name first size isDir),
        entriesFor name) := by
  have bounds := entriesFor_bounds nonempty short
  have whole : name.takeWhile (· ≠ 0) = name := by
    rw [List.takeWhile_eq_self_iff]
    intro char member
    simpa using ne_of_mem_of_not_mem member nulFree
  have byte : entriesFor name % 256 = entriesFor name := Nat.mod_eq_of_lt (by omega)
  simp only [exfatBuildEntrySetInto]
  rw [whole, List.take_of_length_le short, byte, if_neg (by omega)]

/-! ## The checksum is not looked at -/

theorem collectName_congr {set set' : Buffer} (nameLen : Nat) {entries : List Nat}
    (name : List UInt8)
    (same : ∀ entry ∈ entries, ∀ index < 32, set (entry * 32 + index) = set' (entry * 32 + index)) :
    collectName set nameLen entries name = collectName set' nameLen entries name := by
  induction entries generalizing name with
  | nil => rfl
  | cons entry rest induction =>
      have here := same entry (by simp)
      have behind := fun name => induction name fun entry member =>
        same entry (List.mem_cons_of_mem _ member)
      have chars : (List.range (min 15 (nameLen - name.length))).map
          (fun c => set (entry * 32 + 2 + 2 * c)) =
          (List.range (min 15 (nameLen - name.length))).map
            fun c => set' (entry * 32 + 2 + 2 * c) := by
        apply List.map_congr_left
        intro c member
        rw [List.mem_range] at member
        rw [Nat.add_assoc]
        exact here (2 + 2 * c) (by omega)
      have type : set (entry * 32) = set' (entry * 32) := here 0 (by omega)
      rw [collectName, collectName, type, chars, behind, behind]

theorem exfatParseFileSet_congr {set set' : Buffer} {secondary : Nat}
    (same : ∀ index < (secondary + 1) * 32, index ≠ 2 → index ≠ 3 → set index = set' index) :
    exfatParseFileSet set secondary = exfatParseFileSet set' secondary := by
  rw [exfatParseFileSet, exfatParseFileSet]
  by_cases single : secondary = 0
  · rw [if_pos single, if_pos single]
  · have names : ∀ entry ∈ List.range' 2 (secondary - 1), ∀ index < 32,
        set (entry * 32 + index) = set' (entry * 32 + index) := by
      intro entry member index below
      rw [List.mem_range'_1] at member
      exact same _ (by omega) (by omega) (by omega)
    rw [if_neg single, if_neg single, same 32 (by omega) (by omega) (by omega),
      same 35 (by omega) (by omega) (by omega), collectName_congr _ _ names,
      Buffer.getU32_congr fun index _ => same (52 + index) (by omega) (by omega) (by omega),
      Buffer.getU64_congr fun index _ => same (56 + index) (by omega) (by omega) (by omega),
      Buffer.getU16_congr fun index _ => same (4 + index) (by omega) (by omega) (by omega)]

theorem builtSet_other {name : List UInt8} {first size : Nat} {isDir : Bool} {index : Nat}
    (notLow : index ≠ 2) (notHigh : index ≠ 3) :
    builtSet name first size isDir index = exfatBuildEntrySet name first size isDir index := by
  rw [builtSet, sealed, Buffer.putU16, Buffer.copy_outside (by omega)]

/-! ## There and back -/

/-- A set that was built for a name is parsed to what it was built from. -/
theorem exfatParseFileSetInfo_exfatBuildEntrySetInto (outSet : Buffer) {name : List UInt8}
    {first size : Nat} (isDir : Bool) (nulFree : 0 ∉ name) (nonempty : name ≠ [])
    (short : name.length ≤ 255) (clusterFits : first < 4294967296)
    (sizeFits : size < 18446744073709551616) :
    ∃ set total, exfatBuildEntrySetInto outSet name first size isDir = some (set, total) ∧
      exfatParseFileSetInfo set (total - 1) 256 = some (name ++ [0],
        { cluster := first
          size := size
          isDir := isDir
          nameLen := name.length
          secondaryCount := total - 1
          attr := if isDir then 0x10 else 0x20 }) := by
  have bounds := entriesFor_bounds nonempty short
  refine ⟨_, _, exfatBuildEntrySetInto_eq outSet first size isDir nulFree nonempty short, ?_⟩
  have agree : ∀ index < entriesFor name * 32, index ≠ 2 → index ≠ 3 →
      outSet.copy 0 (entriesFor name * 32) (exfatBuildEntrySet name first size isDir) index =
        builtSet name first size isDir index := by
    intro index below notLow notHigh
    rw [Buffer.copy_inside (by omega) (by omega), Nat.sub_zero, builtSet_other notLow notHigh]
  have parsed := @exfatParseFileSet_built _ name first size isDir nonempty short clusterFits
    fun index _ => rfl
  have entries : entriesFor name - 1 + 1 = entriesFor name := by omega
  rw [Nat.mod_eq_of_lt sizeFits, ← exfatParseFileSet_congr (by rwa [entries])] at parsed
  have nameLength : (UInt8.ofNat name.length).toNat = name.length := by
    rw [UInt8.toNat_ofNat', Nat.mod_eq_of_lt (by omega)]
  rw [exfatParseFileSetInfo_eq, parsed, Option.map_some,
    agree 35 (by omega) (by omega) (by omega), builtSet_nameLength, nameLength,
    Buffer.getU16_congr fun index _ => agree (4 + index) (by omega) (by omega) (by omega),
    builtSet_attributes]

/-- The directory `a` with cluster 5. -/
theorem exfatParseFileSetInfo_exfatBuildEntrySetInto_a :
    ∃ set total, exfatBuildEntrySetInto (fun _ => 0xAA) [0x61] 5 0 true = some (set, total) ∧
      exfatParseFileSetInfo set (total - 1) 256 =
        some ([0x61, 0], ⟨5, 0, true, 1, total - 1, 16⟩) :=
  exfatParseFileSetInfo_exfatBuildEntrySetInto _ true (by decide) (by decide) (by decide)
    (by decide) (by decide)

end ParanOS

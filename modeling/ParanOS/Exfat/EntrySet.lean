import ParanOS.Exfat.Room

/-! # Entry sets as they are written

A set that `exfat_build_entry_set` lays out is parsed back to the name and the
values it was built from, wherever it is stored.
-/

namespace ParanOS

open Foundation

/-! ## The bytes of a set -/

section

variable (name : List UInt8) (first size : Nat) (isDir : Bool)

/-- The stored bytes of a set for a name. -/
def builtSet : Buffer :=
  sealed (exfatBuildEntrySet name first size isDir) (entriesFor name)

theorem builtSet_type : builtSet name first size isDir 0 = exfatEntryFile := by
  simp [builtSet, sealed, exfatBuildEntrySet, Buffer.putU8, Buffer.putU16, Buffer.putU32,
    Buffer.putU64, Buffer.copy]

theorem builtSet_secondary :
    builtSet name first size isDir 1 = UInt8.ofNat (entriesFor name - 1) := by
  simp [builtSet, sealed, exfatBuildEntrySet, Buffer.putU8, Buffer.putU16, Buffer.putU32,
    Buffer.putU64, Buffer.copy]

theorem builtSet_stream : builtSet name first size isDir 32 = exfatEntryStream := by
  simp [builtSet, sealed, exfatBuildEntrySet, Buffer.putU8, Buffer.putU16, Buffer.putU32,
    Buffer.putU64, Buffer.copy]

theorem builtSet_nameLength :
    builtSet name first size isDir 35 = UInt8.ofNat name.length := by
  simp [builtSet, sealed, exfatBuildEntrySet, Buffer.putU8, Buffer.putU16, Buffer.putU32,
    Buffer.putU64, Buffer.copy]

theorem builtSet_attributes :
    (builtSet name first size isDir).getU16 4 = if isDir then 0x10 else 0x20 := by
  cases isDir <;>
    simp [builtSet, sealed, exfatBuildEntrySet, Buffer.putU8, Buffer.putU16, Buffer.putU32,
      Buffer.putU64, Buffer.copy, Buffer.getU16, Buffer.littleEndian]

theorem builtSet_cluster :
    (builtSet name first size isDir).getU32 52 = first % 4294967296 := by
  simp only [builtSet, sealed, exfatBuildEntrySet, Buffer.putU64, Buffer.putU16]
  rw [Buffer.getU32_copy_outside (by omega), Buffer.getU32_copy_outside (by omega),
    Buffer.getU32_copy_outside (by omega), Buffer.getU32_putU32]

theorem builtSet_size :
    (builtSet name first size isDir).getU64 56 = size % 18446744073709551616 := by
  simp only [builtSet, sealed, exfatBuildEntrySet]
  rw [Buffer.putU16, Buffer.getU64_copy_outside (by omega), Buffer.putU64,
    Buffer.getU64_copy_outside (by omega), Buffer.getU64_putU64]

theorem builtSet_names {index : Nat} (behind : 64 ≤ index) :
    builtSet name first size isDir index = nameEntries name index := by
  simp only [builtSet, sealed, exfatBuildEntrySet, Buffer.putU8, Buffer.putU16, Buffer.putU32,
    Buffer.putU64]
  repeat rw [Buffer.copy_outside (by omega)]

end

theorem entriesFor_bounds {name : List UInt8} (nonempty : name ≠ []) (short : name.length ≤ 255) :
    3 ≤ entriesFor name ∧ entriesFor name ≤ 19 := by
  have positive := List.length_pos_iff.mpr nonempty
  simp only [entriesFor]
  omega

theorem entriesFor_le {name : List UInt8} (short : name.length ≤ 255) :
    2 ≤ entriesFor name ∧ entriesFor name ≤ 19 := by
  rw [entriesFor]
  omega

theorem length_le_names (name : List UInt8) : name.length ≤ 15 * (entriesFor name - 2) := by
  rw [entriesFor]
  omega

/-- The entry with a part of the name is one of the set. -/
theorem lt_entriesFor {name : List UInt8} {entry : Nat} (part : 15 * (entry - 2) < name.length) :
    entry < entriesFor name := by
  rw [entriesFor]
  omega

/-- The entry types of the slots behind the first two. -/
theorem nameEntries_type {name : List UInt8} {entry : Nat} (behind : 2 ≤ entry)
    (inside : entry < entriesFor name) : nameEntries name (entry * 32) = exfatEntryName := by
  have quotient : entry * 32 / 32 = entry := Nat.mul_div_cancel entry (by omega)
  have remainder : entry * 32 % 32 = 0 := Nat.mul_mod_left entry 32
  simp only [nameEntries, quotient, remainder]
  rw [if_neg (by omega), if_pos trivial]

section

variable (name : List UInt8) (first size : Nat) (isDir : Bool)

theorem builtSet_nameType {entry : Nat} (behind : 2 ≤ entry) (inside : entry < entriesFor name) :
    builtSet name first size isDir (entry * 32) = exfatEntryName := by
  rw [builtSet_names name first size isDir (by omega), nameEntries_type behind inside]

/-- The number of entries behind the first one. -/
theorem builtSet_count (short : name.length ≤ 255) :
    (builtSet name first size isDir 1).toNat = entriesFor name - 1 := by
  have bounds := entriesFor_le short
  rw [builtSet_secondary, UInt8.toNat_ofNat_of_lt' (show _ < 256 by omega)]

theorem builtSet_length (short : name.length ≤ 255) :
    (builtSet name first size isDir 35).toNat = name.length := by
  rw [builtSet_nameLength, UInt8.toNat_ofNat_of_lt' (show _ < 256 by omega)]

end

theorem nameEntries_char {name : List UInt8} {entry c : Nat} (behind : 2 ≤ entry)
    (inside : entry < entriesFor name) (below : c < 15) :
    nameEntries name (entry * 32 + 2 + 2 * c) = name.getD (15 * (entry - 2) + c) 0 := by
  have quotient : (entry * 32 + 2 + 2 * c) / 32 = entry := by omega
  have remainder : (entry * 32 + 2 + 2 * c) % 32 = 2 + 2 * c := by omega
  have index : (2 + 2 * c - 2) / 2 = c := by omega
  simp only [nameEntries, quotient, remainder, index]
  rw [if_neg (by omega), if_neg (by omega), if_neg (by omega), if_pos (by omega)]

/-! ## Parsing it back -/

/-- The name loop takes the next piece of the name from each entry, until it is complete. -/
theorem collectName_whole {set : Buffer} {name : List UInt8}
    (types : ∀ entry, 2 ≤ entry → 15 * (entry - 2) < name.length →
      set (entry * 32) = exfatEntryName)
    (chars : ∀ entry c, 2 ≤ entry → c < 15 → 15 * (entry - 2) + c < name.length →
      set (entry * 32 + 2 + 2 * c) = name.getD (15 * (entry - 2) + c) 0)
    (count entry : Nat) (behind : 2 ≤ entry) (enough : name.length ≤ 15 * (entry - 2 + count)) :
    collectName set name.length (List.range' entry count) (name.take (15 * (entry - 2))) =
      name := by
  induction count generalizing entry with
  | zero =>
      simp only [List.range'_zero, collectName]
      exact List.take_of_length_le enough
  | succ count induction =>
      have further := induction (entry + 1) (by omega) (by omega)
      rw [List.range'_succ, collectName]
      by_cases done : (name.take (15 * (entry - 2))).length ≥ name.length
      · rw [if_pos done]
        apply List.take_of_length_le
        rw [List.length_take] at done
        omega
      · rw [List.length_take] at done
        have type := types entry behind (by omega)
        rw [List.length_take, if_neg done, if_neg (by rw [type]; simp)]
        have length : min (15 * (entry - 2)) name.length = 15 * (entry - 2) := by omega
        have piece : (List.range (min 15 (name.length - 15 * (entry - 2)))).map
            (fun c => set (entry * 32 + 2 + 2 * c)) =
            (name.drop (15 * (entry - 2))).take 15 := by
          apply List.ext_getElem
          · simp
          · intro c inPiece inName
            simp only [List.length_map, List.length_range] at inPiece
            simp only [List.getElem_map, List.getElem_range, List.getElem_take,
              List.getElem_drop]
            rw [chars entry c behind (by omega) (by omega), List.getD_eq_getElem?_getD,
              List.getElem?_eq_getElem (by omega)]
            rfl
        have longer : name.take (15 * (entry - 2)) ++ (name.drop (15 * (entry - 2))).take 15 =
            name.take (15 * (entry + 1 - 2)) := by
          rw [← List.take_add]
          congr 1
          omega
        rw [length, piece, longer]
        exact further

/-- Each name entry gives at most 15 characters. -/
theorem collectName_length (set : Buffer) (nameLen : Nat) (entries : List Nat)
    (name : List UInt8) :
    (collectName set nameLen entries name).length ≤ name.length + 15 * entries.length := by
  induction entries generalizing name with
  | nil => simp [collectName]
  | cons entry rest induction =>
      rw [collectName, List.length_cons]
      split
      · omega
      · split
        · have bound := induction name
          omega
        · have bound := induction (name ++ (List.range (min 15 (nameLen - name.length))).map
            fun c => set (entry * 32 + 2 + 2 * c))
          rw [List.length_append, List.length_map, List.length_range] at bound
          omega

/-- A name that matches takes as many entries as the set has at most. -/
theorem exfatParseFileSet_length {set : Buffer} {secondary : Nat} {name : List UInt8}
    {info : EntryInfo} (parsed : exfatParseFileSet set secondary = some (name, info)) :
    name.length ≤ 15 * (secondary - 1) := by
  rw [exfatParseFileSet] at parsed
  split at parsed
  · simp at parsed
  · split at parsed
    · simp at parsed
    · simp only [Option.some.injEq, Prod.mk.injEq] at parsed
      rw [← parsed.1]
      have bound := collectName_length set (set 35).toNat (List.range' 2 (secondary - 1)) []
      simpa using bound

theorem sameName_entries {want name : List UInt8} {secondary : Nat}
    (same : sameName want name = true) (positive : 1 ≤ secondary)
    (short : name.length ≤ 15 * (secondary - 1)) : entriesFor want ≤ secondary + 1 := by
  have equal := congrArg List.length (of_decide_eq_true same)
  rw [List.length_map, List.length_map] at equal
  have shorter : (name.takeWhile (· ≠ 0)).length ≤ name.length :=
    (List.takeWhile_sublist _).length_le
  simp only [entriesFor]
  omega

/-- What the parser makes of a stored set. -/
theorem exfatParseFileSet_built {set : Buffer} {name : List UInt8} {first size : Nat}
    {isDir : Bool} (nonempty : name ≠ []) (short : name.length ≤ 255)
    (small : first < 4294967296)
    (agree : ∀ index < entriesFor name * 32,
      set index = builtSet name first size isDir index) :
    exfatParseFileSet set (entriesFor name - 1) =
      some (name, ⟨first, size % 18446744073709551616, isDir, 0, 0⟩) := by
  have bounds := entriesFor_bounds nonempty short
  have entries : entriesFor name = 2 + (name.length + 14) / 15 := rfl
  have types : ∀ entry, 2 ≤ entry → 15 * (entry - 2) < name.length →
      set (entry * 32) = exfatEntryName := by
    intro entry behind part
    have inside := lt_entriesFor part
    rw [agree _ (by omega), builtSet_nameType _ _ _ _ behind inside]
  have chars : ∀ entry c, 2 ≤ entry → c < 15 → 15 * (entry - 2) + c < name.length →
      set (entry * 32 + 2 + 2 * c) = name.getD (15 * (entry - 2) + c) 0 := by
    intro entry c behind below part
    have inside : entry < entriesFor name := by omega
    rw [agree _ (by omega), builtSet_names _ _ _ _ (by omega),
      nameEntries_char behind inside below]
  have collected := collectName_whole types chars (entriesFor name - 2) 2 (by omega) (by omega)
  have nameLength : (set 35).toNat = name.length := by
    rw [agree 35 (by omega), builtSet_length _ _ _ _ short]
  have cluster : set.getU32 52 = first := by
    rw [Buffer.getU32_congr fun index below => agree (52 + index) (by omega), builtSet_cluster,
      Nat.mod_eq_of_lt small]
  have sizeField : set.getU64 56 = size % 18446744073709551616 := by
    rw [Buffer.getU64_congr fun index below => agree (56 + index) (by omega), builtSet_size]
  have attributes : set.getU16 4 = if isDir then 0x10 else 0x20 := by
    rw [Buffer.getU16_congr fun index below => agree (4 + index) (by omega),
      builtSet_attributes]
  rw [exfatParseFileSet, if_neg (by omega), if_neg (by
    rw [agree 32 (by omega), builtSet_stream]; simp), nameLength,
    show entriesFor name - 1 - 1 = entriesFor name - 2 by omega]
  simp only [Nat.sub_self, Nat.mul_zero, List.take_zero] at collected
  rw [collected, cluster, sizeField, attributes]
  cases isDir <;> rfl

/-- A stored set is found in its slot. -/
theorem setAt_patched {v : Vol} {before after : ClusterStore} {cl off : Nat}
    {name : List UInt8} {first size : Nat} {isDir : Bool} (nonempty : name ≠ [])
    (short : name.length ≤ 255) (small : first < 4294967296)
    (inside : off + entriesFor name * 32 ≤ v.clusterBytes)
    (patched : Patched v before after cl off (entriesFor name * 32)
      (builtSet name first size isDir)) :
    setAt v after ⟨cl, off⟩ =
      some (name, ⟨first, size % 18446744073709551616, isDir, 0, 0⟩) := by
  have bounds := entriesFor_bounds nonempty short
  have bytes : ∀ index < entriesFor name * 32,
      body v after cl (off + index) = builtSet name first size isDir index := by
    intro index below
    rw [patched.patch, Buffer.copy_inside (by omega) (by omega), Nat.add_sub_cancel_left]
  have secondary : (body v after cl (off + 1)).toNat = entriesFor name - 1 := by
    rw [bytes 1 (by omega), builtSet_count _ _ _ _ short]
  have entries : entriesFor name - 1 + 1 = entriesFor name := by omega
  have type := bytes 0 (by omega)
  rw [builtSet_type, Nat.add_zero] at type
  simp only [setAt, type, secondary, entries]
  rw [if_neg (by simp), if_neg (by omega), if_neg (by omega), if_neg (by omega)]
  apply exfatParseFileSet_built nonempty short small
  intro index below
  rw [window_lt below, bytes index below]

end ParanOS

import ParanOS.Exfat.Faults
import ParanOS.Exfat.Visible

/-! # Overwriting an exFAT file when writes fail

`exfat_write_file_path` stores the new content in new clusters, gives the old ones back
and then rewrites the entry set, slot by slot. Which writes fail decides how far that
gets. With a content of one cluster before and after, a later read finds the old or the
new content whatever fails.
-/

namespace ParanOS

open Foundation
open ExfatOwner (LiveAt)

section

variable {v : Vol} (shape : ExfatGeometry v) {writes : Bool}
include shape

/-! ## Content -/

/-- The first cluster of a new content, filled with it. -/
structure Fill (v : Vol) (store store' : ClusterStore) (data : List UInt8) (first : Nat) :
    Prop where
  needed : clustersNeeded v data.length ≠ 0
  room : clustersNeeded v data.length ≤ (freeList v store).length
  inside : DataCluster (v.exfatClusterCount + 2) first
  running : ¬ EndOfChain first
  free : store.next first = 0
  content : clusterData v store' first =
    (Buffer.ofList data).bytes 0 (v.secPerClus * v.bytesPerSec)

theorem replaceContent_runs {sectors : Nat → Buffer} {bitmap : List Nat} {fuel : Nat}
    (enough : v.exfatClusterCount + 2 < fuel)
    (located : Bitmap v (exfatView v sectors) bitmap) (data : List UInt8) :
    Runs ⟨false, writes⟩ (replaceContent v fuel data) sectors fun result sectors' =>
      InUseKept bitmap (exfatView v sectors) (exfatView v sectors') ∧
      Relinked v sectors sectors' ∧
      ∀ first, result = .ok first →
        (∃ members, Readied v (exfatView v sectors) (exfatView v sectors') first members
          (clustersNeeded v data.length)) ∧
        (data = [] ∧ first = 0 ∨
          data ≠ [] ∧ Fill v (exfatView v sectors) (exfatView v sectors') data first) := by
  rw [replaceContent]
  apply Runs.ite
  · intro positive
    have some : data ≠ [] := List.length_pos_iff.mp positive
    apply (exfatAllocChainForSize_runs shape enough (.inr located) data.length).bind
    intro start middle outcome
    rcases outcome with ⟨relinked, ⟨rfl, kept, _⟩ | ⟨occupied, needed, all, length, state⟩⟩
    · rw [if_pos rfl]
      exact .pure ⟨kept, relinked, by simp⟩
    · rw [if_neg occupied]
      rcases state.start with ⟨_, vacant⟩ | ⟨member, members, linked, inside⟩
      · exact absurd vacant occupied
      · have short := state.length_lt shape enough linked inside
        apply (exfatWriteChain_runs shape linked
          (fun cl inChain => state.data shape (inside cl inChain)) short data).bind
        intro code written stored
        have free : ∀ cl ∈ all, (exfatView v sectors).next cl = 0 := fun cl inAll =>
          (mem_freeList.mp (state.free cl inAll)).2.2
        have kept : InUseKept bitmap (exfatView v sectors) (exfatView v written) :=
          state.inUseKept inside stored.1
        apply Runs.ite
        · intro _
          have located' : KnownBitmap v (exfatView v written) bitmap :=
            (state.bitmap (.inr located)).congr fun cl _ => stored.1.next cl trivial
          apply (exfatFreeChain_runs shape located'
            (linked.congr fun cl _ => stored.1.next cl trivial)
            (fun cl inChain => state.data shape (inside cl inChain))
            (fun cl inChain => state.outside (.inr located) cl (inside cl inChain)) short).bind
          intro _ freed after
          refine .pure ⟨kept.trans (after.1.mono ?_ fun _ both => both.2),
            (relinked.trans stored.2.1).trans after.2, by simp⟩
          exact fun cl both inChain => both.2 (free cl (inside cl inChain))
        · intro done
          refine .pure ⟨kept, relinked.trans stored.2.1, ?_⟩
          intro first equal
          cases equal
          have running := state.running shape member
          have bound := state.length_le
          have readied := state.readied shape member linked inside fun cl =>
            stored.1.next cl trivial
          rw [length] at readied
          exact ⟨⟨members, readied⟩, .inr ⟨some, needed, by omega, state.data shape member, running,
            free start member, stored.2.2 (by simpa using done) some running⟩⟩
  · intro none
    refine .pure ⟨.refl _ _ _, .refl _ _, ?_⟩
    intro first equal
    cases equal
    have empty : data.length = 0 := by omega
    exact ⟨⟨[], .empty rfl, by simp, Nat.zero_le _⟩, .inl ⟨List.length_eq_zero_iff.mp empty, rfl⟩⟩

/-- Giving back what a set holds. -/
theorem freeOld_runs {sectors : Nat → Buffer} {bitmap old : List Nat} {fuel start : Nat}
    (enough : v.exfatClusterCount + 2 < fuel)
    (located : Bitmap v (exfatView v sectors) bitmap)
    (holds : Chain (v.exfatClusterCount + 2) (exfatView v sectors) start old)
    (apart : ∀ cl ∈ old, cl ∉ bitmap) :
    Runs ⟨false, writes⟩ (freeOld v fuel start) sectors fun _ sectors' =>
      (exfatView v sectors).Undisturbed (· ∉ old) (· ∉ bitmap) (exfatView v sectors') ∧
        Relinked v sectors sectors' := by
  rw [freeOld]
  apply Runs.ite
  · intro occupied
    have linked := holds.linked occupied
    have bound := length_le_of_nodup_of_lt linked.nodup fun cl member => (holds.inside member).2
    exact exfatFreeChain_runs shape (.inr located) linked (fun cl member => holds.inside member)
      apart (by omega)
  · exact fun _ => .pure ⟨.refl _ _ _, .refl _ _⟩

/-! ## The entry set -/

/-- Of the slots of a set the first ones are written, up to a write that fails. -/
theorem writeEntries_runs {sectors middle : Nat → Buffer} {cl start : Nat} (set : Buffer)
    (range : DataCluster (v.exfatClusterCount + 2) cl) (aligned : 32 ∣ start) (count i : Nat)
    (fits : start + (i + count) * 32 ≤ v.clusterBytes)
    (state : Patched v (exfatView v sectors) (exfatView v middle) cl start (i * 32) set) :
    Runs failingWrites (writeEntries v cl start set count i) middle fun _ sectors' =>
      ∃ done ≤ i + count,
        Patched v (exfatView v sectors) (exfatView v sectors') cl start (done * 32) set := by
  induction count generalizing i middle with
  | zero => exact .pure ⟨i, by omega, state⟩
  | succ count induction =>
      have slotAligned : 32 ∣ start + i * 32 := Nat.dvd_add aligned (Nat.dvd_mul_left 32 i)
      have inside : start + i * 32 < v.clusterBytes := by omega
      have entry : Runs failingWrites (exfatWriteEntry v cl (start + i * 32)
          fun index => set (i * 32 + index)) middle fun code sectors' =>
            code ≠ 0 ∧ sectors' = middle ∨ code = 0 ∧
              Patched v (exfatView v middle) (exfatView v sectors') cl (start + i * 32) 32
                fun index => set (i * 32 + index) := by
        rw [exfatWriteEntry]
        apply Runs.rd_bind
        · intro may
          simp at may
        · apply Runs.wr_bind
          · exact fun _ => .pure (.inl ⟨by decide, rfl⟩)
          · refine .pure (.inr ⟨rfl, ?_⟩)
            rcases exfatWriteEntry_healthy shape middle range slotAligned inside
              (fun index => set (i * 32 + index)) with ⟨written, ran, patched, _⟩
            simp only [exfatWriteEntry, DiskM.bind_apply, rd_healthy, wr_healthy, Option.bind_some,
              Bool.false_eq_true, if_false, DiskM.pure_apply, Option.some.injEq,
              Prod.mk.injEq, true_and] at ran
            have same := congrArg Device.sectors ran
            simp only [Device.healthy_sectors] at same
            rw [same]
            exact patched
      rw [writeEntries]
      apply entry.bind
      intro code written outcome
      rcases outcome with ⟨failed, rfl⟩ | ⟨done, patched⟩
      · rw [if_pos failed]
        exact .pure ⟨i, by omega, state⟩
      · rw [if_neg (by simpa using done)]
        have state' := state.trans patched
        rw [show i * 32 + 32 = (i + 1) * 32 by omega] at state'
        apply (induction (i + 1) (by omega) state').mono
        intro _ sectors' finished
        rcases finished with ⟨count', below, final⟩
        exact ⟨count', by omega, final⟩

theorem exfatWriteEntrySet_runs (sectors : Nat → Buffer) {cl start total : Nat} (set : Buffer)
    (range : DataCluster (v.exfatClusterCount + 2) cl) (aligned : 32 ∣ start)
    (short : total ≤ 40) (fits : start + total * 32 ≤ v.clusterBytes) :
    Runs failingWrites (exfatWriteEntrySet v cl start set total) sectors fun _ sectors' =>
      ∃ done ≤ total, Patched v (exfatView v sectors) (exfatView v sectors') cl start (done * 32)
        (sealed set total) := by
  rw [exfatWriteEntrySet, if_neg (by omega)]
  have begin : Patched v (exfatView v sectors) (exfatView v sectors) cl start (0 * 32)
      (sealed set total) := by
    refine ⟨rfl, fun _ _ => rfl, ?_⟩
    funext index
    rw [Buffer.copy_outside (by omega)]
  apply (writeEntries_runs shape (sealed set total) range aligned total 0 (by omega) begin).mono
  intro _ sectors' finished
  rw [Nat.zero_add] at finished
  exact finished

end

/-! ## Names that are written in part -/

/-- A character of the name in a set whose name entries follow the stream entry. -/
def nameChar (set : Buffer) (c : Nat) : UInt8 := set ((2 + c / 15) * 32 + 2 + 2 * (c % 15))

theorem collectName_regular {set : Buffer} {nameLen total : Nat}
    (types : ∀ entry, 2 ≤ entry → entry < 2 + total → set (entry * 32) = exfatEntryName)
    (count j : Nat) (range : j + count = total) :
    collectName set nameLen (List.range' (2 + j) count)
        ((List.range (min nameLen (15 * j))).map (nameChar set)) =
      (List.range (min nameLen (15 * total))).map (nameChar set) := by
  induction count generalizing j with
  | zero =>
      rw [Nat.add_zero] at range
      rw [range]
      rfl
  | succ count induction =>
      rw [List.range'_succ, collectName, List.length_map, List.length_range]
      by_cases done : min nameLen (15 * j) ≥ nameLen
      · rw [if_pos done]
        congr 2
        omega
      · have piece : (List.range (min 15 (nameLen - min nameLen (15 * j)))).map
            (fun c => set ((2 + j) * 32 + 2 + 2 * c)) =
            ((List.range (min 15 (nameLen - 15 * j))).map (15 * j + ·)).map (nameChar set) := by
          rw [List.map_map, show min nameLen (15 * j) = 15 * j by omega]
          apply List.map_congr_left
          intro c member
          have below := List.mem_range.mp member
          have quotient : (15 * j + c) / 15 = j := by omega
          have remainder : (15 * j + c) % 15 = c := by omega
          simp only [Function.comp_apply, nameChar, quotient, remainder]
        have longer : min nameLen (15 * (j + 1)) = 15 * j + min 15 (nameLen - 15 * j) := by omega
        have later := induction (j + 1) (by omega)
        rw [longer, List.range_add, List.map_append, ← piece] at later
        rw [if_neg done, if_neg (by rw [types (2 + j) (by omega) (by omega)]; simp)]
        rw [show min nameLen (15 * j) = 15 * j by omega] at later ⊢
        exact later

/-- The name loop only appends, and stops at the length it was given. -/
theorem collectName_append (set : Buffer) (nameLen : Nat) (entries : List Nat)
    (name : List UInt8) (short : name.length ≤ nameLen) :
    (∃ more, collectName set nameLen entries name = name ++ more) ∧
      (collectName set nameLen entries name).length ≤ nameLen := by
  induction entries generalizing name with
  | nil => exact ⟨⟨[], by simp [collectName]⟩, short⟩
  | cons entry rest induction =>
      rw [collectName]
      split
      · exact ⟨⟨[], by simp⟩, short⟩
      · split
        · exact induction name short
        · rcases induction (name ++ (List.range (min 15 (nameLen - name.length))).map
            fun c => set (entry * 32 + 2 + 2 * c)) (by
              rw [List.length_append, List.length_map, List.length_range]
              omega) with ⟨⟨more, equal⟩, bound⟩
          rw [equal] at bound ⊢
          exact ⟨⟨_, List.append_assoc _ _ _⟩, bound⟩

theorem collectName_split (set : Buffer) (nameLen : Nat) (first second : List Nat)
    (name : List UInt8) :
    collectName set nameLen (first ++ second) name =
      collectName set nameLen second (collectName set nameLen first name) := by
  induction first generalizing name with
  | nil => rfl
  | cons entry rest induction =>
      rw [List.cons_append, collectName, collectName]
      split
      · next full =>
          cases second with
          | nil => rfl
          | cons other others => rw [collectName, if_pos full]
      · split
        · exact induction name
        · exact induction _

/-- What a longer list starts with, where that is no longer than a part of it. -/
theorem takeWhile_of_short {α : Type} {p : α → Bool} {first second : List α}
    (short : ((first ++ second).takeWhile p).length ≤ first.length) :
    (first ++ second).takeWhile p = first.takeWhile p := by
  rw [List.takeWhile_append] at short ⊢
  split
  · next all =>
      rw [if_pos all, List.length_append] at short
      have none : second.takeWhile p = [] := List.length_eq_zero_iff.mp (by omega)
      rw [none, List.append_nil]
      exact ((List.takeWhile_prefix p).eq_of_length all).symm
  · rfl

/-- Where the name entries follow the stream entry, as many of them as the name asked for
takes decide a match. -/
theorem sameName_regular {set : Buffer} {want : List UInt8} {nameLen count total : Nat}
    (types : ∀ entry, 2 ≤ entry → entry < 2 + total → set (entry * 32) = exfatEntryName)
    (inside : total ≤ count) (short : want.length ≤ 15 * total)
    (same : sameName want (collectName set nameLen (List.range' 2 count) []) = true) :
    sameName want ((List.range (min nameLen (15 * total))).map (nameChar set)) = true ∧
      ∀ c (below : c < want.length), nameChar set c ≠ 0 ∧
        toUpper (nameChar set c) = toUpper (want.get ⟨c, below⟩) := by
  have entries : List.range' 2 count =
      List.range' 2 total ++ List.range' (2 + total) (count - total) := by
    rw [List.range'_append_1]
    congr 1
    omega
  have leading := @collectName_regular set nameLen total types total 0 (Nat.zero_add total)
  rw [Nat.mul_zero, Nat.min_zero, List.range_zero, List.map_nil, Nat.add_zero] at leading
  rw [entries, collectName_split, leading] at same
  rcases collectName_append set nameLen (List.range' (2 + total) (count - total))
    ((List.range (min nameLen (15 * total))).map (nameChar set))
    (by rw [List.length_map, List.length_range]; omega) with
    ⟨⟨more, equal⟩, bound⟩
  rw [equal] at same bound
  have letters := of_decide_eq_true same
  have length := congrArg List.length letters
  rw [List.length_map, List.length_map] at length
  have atMost := (List.takeWhile_prefix (· ≠ 0) (l := (List.range (min nameLen (15 * total))).map
    (nameChar set) ++ more)).length_le
  have enough : want.length ≤
      ((List.range (min nameLen (15 * total))).map (nameChar set)).length := by
    rw [List.length_map, List.length_range]
    omega
  rw [takeWhile_of_short (by omega)] at letters
  refine ⟨decide_eq_true letters, ?_⟩
  intro c below
  have length' := congrArg List.length letters
  rw [List.length_map, List.length_map] at length'
  rcases List.takeWhile_prefix (· ≠ 0) (l := (List.range (min nameLen (15 * total))).map
    (nameChar set)) with ⟨rest, whole⟩
  have here : (((List.range (min nameLen (15 * total))).map (nameChar set)).takeWhile
      (· ≠ 0))[c]? = some (nameChar set c) := by
    have position : (((List.range (min nameLen (15 * total))).map (nameChar set)))[c]? =
        some (nameChar set c) := by
      rw [List.length_map, List.length_range] at enough
      rw [List.getElem?_map, List.getElem?_range (by omega)]
      rfl
    rw [← whole, List.getElem?_append_left (by omega)] at position
    exact position
  constructor
  · have nonzero := List.mem_takeWhile_imp (List.mem_of_getElem? here)
    simpa using nonzero
  · have upper := congrArg (fun names : List UInt8 => names[c]?) letters
    simp only [List.getElem?_map, here, Option.map_some] at upper
    rw [List.getElem?_eq_getElem below, Option.map_some, Option.some.injEq] at upper
    exact upper

/-! ## Sets that are written in part -/

/-- The name entries of a set follow its stream entry, and no set in front of it in its
cluster reaches into it. -/
structure RegularSet (v : Vol) (store : ClusterStore) (name : List UInt8) (place : Place) :
    Prop where
  names : ∀ entry, 2 ≤ entry → entry < entriesFor name →
    body v store place.cl (place.off + entry * 32) = exfatEntryName
  apart : ∀ off, 32 ∣ off → off < place.off → IsSet v store ⟨place.cl, off⟩ →
    off + ((body v store place.cl (off + 1)).toNat + 1) * 32 ≤ place.off

/-- What the parser makes of a set whose first slots, at least one, hold a new set. -/
theorem exfatParseFileSet_part {set : Buffer} {name : List UInt8}
    (nonempty : name ≠ []) (short : name.length ≤ 255) (stream : set 32 = exfatEntryStream)
    (types : ∀ entry, 2 ≤ entry → entry < entriesFor name → set (entry * 32) = exfatEntryName) :
    exfatParseFileSet set (entriesFor name - 1) =
      some ((List.range (min (set 35).toNat (15 * (entriesFor name - 2)))).map (nameChar set),
        ⟨set.getU32 52, set.getU64 56, set.getU16 4 &&& 0x10 ≠ 0, 0, 0⟩) := by
  have bounds := entriesFor_bounds nonempty short
  have collected := @collectName_regular set (set 35).toNat (entriesFor name - 2)
    (fun entry behind inside => types entry behind (by omega)) (entriesFor name - 2) 0
    (Nat.zero_add _)
  rw [Nat.mul_zero, Nat.min_zero, List.range_zero, List.map_nil, Nat.add_zero] at collected
  rw [exfatParseFileSet, if_neg (by omega), if_neg (by simpa using stream),
    show entriesFor name - 1 - 1 = entriesFor name - 2 by omega, collected]

theorem sameName_of_chars {set : Buffer} {name : List UInt8}
    (chars : ∀ c (below : c < name.length), nameChar set c ≠ 0 ∧
      toUpper (nameChar set c) = toUpper (name.get ⟨c, below⟩)) :
    sameName name ((List.range name.length).map (nameChar set)) = true := by
  have whole : ((List.range name.length).map (nameChar set)).takeWhile (· ≠ 0) =
      (List.range name.length).map (nameChar set) := by
    rw [List.takeWhile_eq_self_iff]
    intro char member
    rcases List.mem_map.mp member with ⟨c, inside, rfl⟩
    simpa using (chars c (List.mem_range.mp inside)).1
  apply decide_eq_true
  rw [whole]
  apply List.ext_getElem
  · simp
  · intro c inside _
    simp only [List.length_map, List.length_range] at inside
    simp only [List.getElem_map, List.getElem_range]
    exact (chars c inside).2

/-- A set of which the first slots, at least one, have been replaced by a new set for the
same name has the values of the old or of the new set. -/
theorem exfatParseFileSet_mixed {before after : Buffer} {name old : List UInt8} {set : EntryInfo}
    {secondary first size done : Nat} (nonempty : name ≠ []) (short : name.length ≤ 255)
    (chars : ∀ char ∈ name, char ≠ 0) (small : first < 4294967296)
    (found : exfatParseFileSet before secondary = some (old, set))
    (same : sameName name old = true) (isFile : set.isDir = false)
    (entries : entriesFor name ≤ secondary + 1) (some : 1 ≤ done) (within : done ≤ entriesFor name)
    (types : ∀ entry, 2 ≤ entry → entry < entriesFor name → before (entry * 32) = exfatEntryName)
    (written : ∀ index < done * 32, after index = builtSet name first size false index)
    (left : ∀ index, done * 32 ≤ index → index < entriesFor name * 32 →
      after index = before index) :
    ∃ name', sameName name name' = true ∧
      (exfatParseFileSet after (entriesFor name - 1) = .some (name', set) ∨
        exfatParseFileSet after (entriesFor name - 1) =
          .some (name', ⟨first, size % 18446744073709551616, false, 0, 0⟩)) := by
  have bounds := entriesFor_bounds nonempty short
  have name15 : name.length ≤ 15 * (entriesFor name - 2) := by
    simp only [entriesFor]
    omega
  by_cases stream : before 32 = exfatEntryStream
  · rw [exfatParseFileSet, if_neg (by omega), if_neg (by simpa using stream)] at found
    simp only [Option.some.injEq, Prod.mk.injEq] at found
    rcases found with ⟨rfl, rfl⟩
    have matched := sameName_regular (fun entry behind below => types entry behind (by omega))
      (show entriesFor name - 2 ≤ secondary - 1 by omega) name15 same
    have stream' : after 32 = exfatEntryStream := by
      by_cases one : done = 1
      · rw [left 32 (by omega) (by omega), stream]
      · rw [written 32 (by omega), builtSet_stream]
    have types' : ∀ entry, 2 ≤ entry → entry < entriesFor name →
        after (entry * 32) = exfatEntryName := by
      intro entry behind below
      by_cases new : entry < done
      · rw [written _ (by omega), builtSet_nameType _ _ _ _ behind below]
      · rw [left _ (by omega) (by omega), types entry behind below]
    have attributes : after.getU16 4 = 0x20 := by
      rw [Buffer.getU16_congr fun index below => written (4 + index) (by omega),
        builtSet_attributes]
      rfl
    have parsed := exfatParseFileSet_part nonempty short stream' types'
    rw [attributes] at parsed
    by_cases one : done = 1
    · -- only the file entry is new
      subst one
      have length : after 35 = before 35 := left 35 (by omega) (by omega)
      have letters : (List.range (min (after 35).toNat (15 * (entriesFor name - 2)))).map
          (nameChar after) = (List.range (min (before 35).toNat (15 * (entriesFor name - 2)))).map
            (nameChar before) := by
        rw [length]
        apply List.map_congr_left
        intro c member
        have below := List.mem_range.mp member
        exact left _ (by omega) (by omega)
      have cluster : after.getU32 52 = before.getU32 52 :=
        Buffer.getU32_congr fun index below => left (52 + index) (by omega) (by omega)
      have bytes : after.getU64 56 = before.getU64 56 :=
        Buffer.getU64_congr fun index below => left (56 + index) (by omega) (by omega)
      rw [letters, cluster, bytes] at parsed
      refine ⟨_, matched.1, .inl ?_⟩
      rw [parsed]
      simp only at isFile
      simp [isFile]
    · have nameLength : (after 35).toNat = name.length := by
        rw [written 35 (by omega), builtSet_length _ _ _ _ short]
      have cluster : after.getU32 52 = first := by
        rw [Buffer.getU32_congr fun index below => written (52 + index) (by omega),
          builtSet_cluster, Nat.mod_eq_of_lt small]
      have bytes : after.getU64 56 = size % 18446744073709551616 := by
        rw [Buffer.getU64_congr fun index below => written (56 + index) (by omega), builtSet_size]
      rw [nameLength, Nat.min_eq_left name15, cluster, bytes] at parsed
      refine ⟨_, sameName_of_chars ?_, .inr parsed⟩
      intro c below
      by_cases new : 2 + c / 15 < done
      · have char : nameChar after c = name.get ⟨c, below⟩ := by
          rw [nameChar, written _ (by omega), builtSet_names _ _ _ _ (by omega),
            nameEntries_char (by omega) (by omega) (by omega)]
          rw [show 15 * (2 + c / 15 - 2) + c % 15 = c by omega, List.getD_eq_getElem?_getD,
            List.getElem?_eq_getElem below]
          rfl
        rw [char]
        exact ⟨chars _ (List.get_mem name ⟨c, below⟩), rfl⟩
      · have char : nameChar after c = nameChar before c := left _ (by omega) (by omega)
        rw [char]
        exact matched.2 c below
  · rw [exfatParseFileSet] at found
    simp [stream] at found

theorem setAt_part {v : Vol} {store store' : ClusterStore} {place : Place}
    {name old : List UInt8} {set : EntryInfo} {first size done : Nat} (nonempty : name ≠ [])
    (short : name.length ≤ 255) (chars : ∀ char ∈ name, char ≠ 0) (small : first < 4294967296)
    (fits : place.off + entriesFor name * 32 ≤ v.clusterBytes)
    (regular : RegularSet v store name place) (found : setAt v store place = some (old, set))
    (same : sameName name old = true) (isFile : set.isDir = false)
    (within : done ≤ entriesFor name)
    (patch : body v store' place.cl = (body v store place.cl).copy place.off (done * 32)
      (builtSet name first size false)) :
    ∃ name', sameName name name' = true ∧ (setAt v store' place = some (name', set) ∨
      setAt v store' place =
        some (name', ⟨first, size % 18446744073709551616, false, 0, 0⟩)) := by
  have bounds := entriesFor_bounds nonempty short
  have isSet : IsSet v store place := by simp [IsSet, found]
  rcases isSet_iff.mp isSet with ⟨file, positive, few, inside, stream⟩
  have entries := sameName_entries same positive (setAt_info found).2.2
  by_cases none : done = 0
  · have unchanged : body v store' place.cl = body v store place.cl := by
      rw [patch, none]
      funext index
      rw [Buffer.copy_outside (by omega)]
    refine ⟨old, same, .inl ?_⟩
    rw [← found, setAt, setAt, unchanged]
  · have written : ∀ index < done * 32,
        body v store' place.cl (place.off + index) = builtSet name first size false index := by
      intro index below
      rw [patch, Buffer.copy_inside (by omega) (by omega), Nat.add_sub_cancel_left]
    have earlier := found
    simp only [setAt] at earlier
    rw [if_neg (by simpa using file), if_neg (by omega), if_neg (by omega), if_neg (by omega)]
      at earlier
    have mixed := @exfatParseFileSet_mixed _ (window (body v store' place.cl) place.off
      (entriesFor name * 32)) name old set _ first size done nonempty short chars small earlier same
      isFile entries (by omega) within
      (fun entry behind below => by
        rw [window_lt (by omega)]
        exact regular.names entry behind below)
      (fun index below => by
        rw [window_lt (by omega)]
        exact written index below)
      (fun index behind below => by
        rw [window_lt (by omega), window_lt (by omega), patch, Buffer.copy_outside (by omega)])
    have type' := written 0 (by omega)
    rw [builtSet_type, Nat.add_zero] at type'
    have secondary' : (body v store' place.cl (place.off + 1)).toNat = entriesFor name - 1 := by
      rw [written 1 (by omega), builtSet_count _ _ _ _ short]
    have parsed : setAt v store' place = exfatParseFileSet (window (body v store' place.cl)
        place.off (entriesFor name * 32)) (entriesFor name - 1) := by
      simp only [setAt, type', secondary', show entriesFor name - 1 + 1 = entriesFor name by omega]
      rw [if_neg (by simp), if_neg (by omega), if_neg (by omega), if_neg (by omega)]
    rw [parsed]
    exact mixed

section

variable {v : Vol} (shape : ExfatGeometry v)
include shape

omit shape in
/-- A slot in front of a set that was written in part is read as before. -/
theorem verdict_in_front {store store' : ClusterStore} {name : List UInt8} {place other : Place}
    {first size done : Nat} (regular : RegularSet v store name place) (aligned : 32 ∣ place.off)
    (patch : body v store' place.cl = (body v store place.cl).copy place.off (done * 32)
      (builtSet name first size false))
    (near : other.cl = place.cl) (otherAligned : 32 ∣ other.off) (below : other.off < place.off)
    (want : List UInt8) : verdict v store' want other = verdict v store want other := by
  by_cases none : done = 0
  · apply verdict_congr
    rw [near, patch, none]
    funext index
    rw [Buffer.copy_outside (by omega)]
  · have unchanged := setAt_before patch (by omega) (builtSet_type _ _ _ _) near (by omega)
      (fun set => regular.apart other.off otherAligned below (by rw [← near]; exact set))
    have head : body v store' other.cl other.off = body v store other.cl other.off := by
      rw [near, patch, Buffer.copy_outside (by omega)]
    rw [verdict, verdict, unchanged, head]

/-- A set that was written in part is found where it was, with its old or its new
values. -/
theorem lookup_part {store store' : ClusterStore} {chain : List Nat} {name : List UInt8}
    {info : EntryInfo} {place : Place} {first size done : Nat} (nodup : chain.Nodup)
    (nonempty : name ≠ []) (short : name.length ≤ 255) (chars : ∀ char ∈ name, char ≠ 0)
    (small : first < 4294967296)
    (found : lookup v store name (chainPlaces v chain) = .ok info) (isFile : info.isDir = false)
    (atPlace : info.dirCluster = place.cl ∧ info.dirByteOff = place.off)
    (regular : RegularSet v store name place)
    (others : ∀ cl ∈ chain, cl ≠ place.cl → body v store' cl = body v store cl)
    (within : done ≤ entriesFor name)
    (patch : body v store' place.cl = (body v store place.cl).copy place.off (done * 32)
      (builtSet name first size false)) :
    lookup v store' name (chainPlaces v chain) = .ok info ∨
      lookup v store' name (chainPlaces v chain) =
        .ok ⟨first, size % 18446744073709551616, false, place.cl, place.off⟩ := by
  rcases lookup_hit found with ⟨place', hit⟩
  have samePlace : place' = place := by
    cases place'
    cases place
    simp only [Place.mk.injEq]
    exact ⟨hit.atPlace.1.symm.trans atPlace.1, hit.atPlace.2.symm.trans atPlace.2⟩
  subst samePlace
  rcases lookup_ok found with ⟨before, place, after, split, passed, here⟩
  rcases verdict_ok here with ⟨old, set, parsed, same, rfl⟩
  have samePlace : place = place' := by
    cases place'
    cases place
    simp only [Place.mk.injEq]
    exact atPlace
  subst samePlace
  rcases (mem_chainPlaces shape).mp hit.inside with ⟨cluster, aligned, _⟩
  rcases place_position shape hit.inside with ⟨clusters, later, j, chainSplit, position, inside⟩
  rcases chainPlaces_at shape clusters place.cl later inside with ⟨rest, canonical, _⟩
  rw [← chainSplit, ← position] at canonical
  have prefixes : before = chainPlaces v clusters ++ leadingPlaces place.cl j := by
    apply split_unique (split ▸ chainPlaces_nodup nodup)
    rw [← split, canonical]
  have offset : place.off = 32 * j := congrArg Place.off position
  have front : ∀ other ∈ before, verdict v store' name other = none := by
    intro other member
    rw [← passed other member]
    have inChain := (mem_chainPlaces shape).mp (show other ∈ chainPlaces v chain by
      simp [split, member])
    by_cases near : other.cl = place.cl
    · apply verdict_in_front regular aligned patch near inChain.2.1
      rw [prefixes, List.mem_append] at member
      rcases member with earlier | leading
      · have clash := ((mem_chainPlaces shape).mp earlier).1
        rw [chainSplit] at nodup
        exact absurd rfl ((List.nodup_append.mp nodup).2.2 _ clash _ (by simp [near]))
      · rcases mem_leadingPlaces.mp leading with ⟨k, below, rfl⟩
        simp only
        omega
    · exact verdict_congr (others other.cl inChain.1 near)
  have used : body v store' place.cl place.off ≠ 0x00 := by
    have file := (isSet_iff.mp hit.set).1
    by_cases none : done = 0
    · rw [patch, none, Buffer.copy_outside (by omega), file]
      decide
    · rw [patch, Buffer.copy_inside (by omega) (by omega), Nat.sub_self, builtSet_type]
      decide
  rw [split]
  rcases setAt_part nonempty short chars small hit.fits regular parsed same isFile within patch with
    ⟨name', same', parsed' | parsed'⟩
  · refine .inl (lookup_of_passed front ?_)
    rw [verdict, if_neg used, parsed']
    simp [same']
  · refine .inr (lookup_of_passed front ?_)
    rw [verdict, if_neg used, parsed']
    simp [same']

end

end ParanOS

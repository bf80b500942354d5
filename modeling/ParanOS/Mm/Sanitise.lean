import ParanOS.Mm.Overlap

/-! # The tidied table

Where the entries do not meet, `pmm_sanitise_entries` trims none of them. It takes the
first page and, when asked to, what is not a whole page from the usable entries, and
changes no other type. After it the entries are in order, and no two neighbours of a
type that is joined touch.
-/

namespace ParanOS.Memmap

open Foundation

/-! ## Trimming -/

/-- An entry that lies in a region or is empty there. -/
structure Entry.Within (entry : Entry) (host : Region Nat UInt32) : Prop where
  low : host.low ≤ entry.base.toNat
  inside : entry.base.toNat < host.high
  high : entry.base.toNat + entry.length.toNat ≤ host.high

theorem Entry.Proper.within {entry : Entry} (proper : entry.Proper) :
    entry.Within entry.region :=
  ⟨Nat.le_refl _, Nat.lt_add_of_pos_right proper.full, Nat.le_refl _⟩

theorem trim_apart {entry other : Entry} {host : Region Nat UInt32} (proper : entry.Proper)
    (within : other.Within host) (bound : host.high < 2 ^ 63) (apart : entry.region.Apart host) :
    trim entry other = .ok entry := by
  have full := proper.full
  have low := within.low
  have inside := within.inside
  have high := within.high
  have resTop : (other.base + other.length).toNat =
      other.base.toNat + other.length.toNat := by
    rw [UInt64.toNat_add]
    exact Nat.mod_eq_of_lt (by omega)
  have ordered := apart.ordered (Nat.lt_add_of_pos_right full) (Nat.lt_of_le_of_lt low inside)
  rw [Entry.region_low, Entry.region_high] at ordered
  have outside : ¬ (other.base ≥ entry.base ∧ other.base < entry.base + entry.length) := by
    rintro ⟨above, below⟩
    rw [ge_iff_le, UInt64.le_iff_toNat_le] at above
    rw [UInt64.lt_iff_toNat_lt, proper.toNat_top] at below
    omega
  rw [trim, if_neg fun both => outside both.1, if_neg outside]
  have length : entry.base + entry.length - entry.base = entry.length := by
    rw [UInt64.add_comm, UInt64.add_sub_cancel]
  dsimp only
  split
  · next touches =>
      -- the other entry ends where this one begins
      have base : other.base + other.length = entry.base := by
        rcases touches with ⟨above, below⟩
        rw [ge_iff_le, UInt64.le_iff_toNat_le, resTop] at above
        rw [UInt64.lt_iff_toNat_lt, proper.toNat_top, resTop] at below
        apply UInt64.toNat_inj.mp
        rw [resTop]
        omega
      rw [base, length]
  · rw [length]

/-- What the first loop makes of an entry that does not meet the others. -/
def alignUsable (alignEntries : Bool) (entry : Entry) : Option Entry :=
  if entry.type ≠ usable then some entry else alignTrimmed alignEntries entry

theorem toNat_alignUp_page {value : UInt64} (bound : value.toNat < 2 ^ 63) :
    (alignUp value 4096).toNat = (value.toNat + 4095) / 4096 * 4096 := by
  have step : (4096 - 1 : UInt64).toNat = 4095 := rfl
  have page : (4096 : UInt64).toNat = 4096 := rfl
  rw [alignUp, UInt64.toNat_mul, UInt64.toNat_div, UInt64.toNat_add, step, page]
  omega

theorem toNat_alignDown_page (value : UInt64) :
    (alignDown value 4096).toNat = value.toNat / 4096 * 4096 := by
  have page : (4096 : UInt64).toNat = 4096 := rfl
  have bound := value.toNat_lt
  rw [alignDown, UInt64.toNat_mul, UInt64.toNat_div, page]
  omega

/-- The whole pages of an entry that has the length of one. -/
theorem alignEntry_eq {entry aligned : Entry} (proper : entry.Proper)
    (run : alignEntry entry = some aligned) :
    aligned.type = entry.type ∧ 4096 ≤ entry.length.toNat ∧
      aligned.base.toNat = (entry.base.toNat + 4095) / 4096 * 4096 ∧
      aligned.base.toNat + aligned.length.toNat =
        (entry.base.toNat + entry.length.toNat) / 4096 * 4096 := by
  have high := proper.high
  rw [alignEntry] at run
  split at run
  · simp at run
  · next long =>
      rw [UInt64.lt_iff_toNat_lt, Nat.not_lt] at long
      have page : (4096 : UInt64).toNat = 4096 := rfl
      rw [page] at long
      have base : (alignUp entry.base 4096).toNat = (entry.base.toNat + 4095) / 4096 * 4096 :=
        toNat_alignUp_page (by omega)
      have shift : (alignUp entry.base 4096 - entry.base).toNat =
          (alignUp entry.base 4096).toNat - entry.base.toNat :=
        UInt64.toNat_sub_of_le _ _ (UInt64.le_iff_toNat_le.mpr (by omega))
      have rest : (entry.length - (alignUp entry.base 4096 - entry.base)).toNat =
          entry.length.toNat - ((alignUp entry.base 4096).toNat - entry.base.toNat) := by
        rw [UInt64.toNat_sub_of_le _ _ (UInt64.le_iff_toNat_le.mpr (by omega)), shift]
      rw [Option.some.injEq] at run
      rw [← run]
      refine ⟨rfl, long, base, ?_⟩
      dsimp only
      rw [toNat_alignDown_page, rest, base]
      omega

theorem alignEntry_within {entry aligned : Entry} (proper : entry.Proper)
    (run : alignEntry entry = some aligned) : aligned.Within entry.region := by
  rcases alignEntry_eq proper run with ⟨_, long, base, top⟩
  constructor
  · rw [Entry.region_low]
    omega
  · rw [Entry.region_high]
    omega
  · rw [Entry.region_high]
    omega

theorem alignUsable_within {alignEntries : Bool} {entry aligned : Entry} (proper : entry.Proper)
    (run : alignUsable alignEntries entry = some aligned) : aligned.Within entry.region := by
  rw [alignUsable] at run
  split at run
  · rw [Option.some.injEq] at run
    exact run ▸ proper.within
  · rw [alignTrimmed] at run
    split at run
    · simp at run
    · split at run
      · exact alignEntry_within proper run
      · rw [Option.some.injEq] at run
        exact run ▸ proper.within

theorem foldlM_trim {entry : Entry} {others : List Entry}
    (apart : ∀ other ∈ others, trim entry other = .ok entry) :
    others.foldlM trim entry = .ok entry := by
  induction others with
  | nil => rfl
  | cons other rest induction =>
      rw [List.foldlM_cons, apart other List.mem_cons_self]
      exact induction fun other member => apart other (List.mem_cons_of_mem _ member)

/-- `hosts` are the regions in which the entries that are done were found. -/
theorem trimEntries_perm (alignEntries : Bool) {steps : Nat} {done todo : List Entry}
    {hosts : List (Region Nat UInt32)}
    (within : ∀ entry ∈ done, ∃ host ∈ hosts, entry.Within host)
    (tiles : Region.Tiles (hosts ++ regions todo))
    (bound : ∀ region ∈ hosts ++ regions todo, region.high < 2 ^ 63)
    (enough : todo.length ≤ steps) :
    ∃ result, trimEntries alignEntries steps done todo = .ok result ∧
      result.Perm (done ++ todo.filterMap (alignUsable alignEntries)) := by
  induction steps generalizing done todo hosts with
  | zero =>
      rw [List.length_eq_zero_iff.mp (Nat.le_zero.mp enough)]
      exact ⟨_, rfl, List.Perm.refl _⟩
  | succ steps induction =>
      cases todo with
      | nil => exact ⟨done, rfl, by simp⟩
      | cons entry rest =>
          rw [List.length_cons, Nat.succ_le_succ_iff] at enough
          have entryIn : entry.region ∈ hosts ++ regions (entry :: rest) :=
            List.mem_append_right _ List.mem_cons_self
          have proper : entry.Proper := by
            have full := tiles.full _ entryIn
            rw [Entry.region_low, Entry.region_high] at full
            exact ⟨by omega, bound _ entryIn⟩
          have moved : hosts ++ [entry.region] ++ regions rest =
              hosts ++ regions (entry :: rest) := by
            rw [List.append_assoc, List.singleton_append, regions_cons]
          -- the entry stays in some form, or another one takes its place
          have keep : ∀ {kept : Entry}, kept.Within entry.region →
              ∃ result, trimEntries alignEntries steps (done ++ [kept]) rest = .ok result ∧
                result.Perm (done ++ kept :: rest.filterMap (alignUsable alignEntries)) := by
            intro kept inside
            have next : ∀ other ∈ done ++ [kept], ∃ host ∈ hosts ++ [entry.region],
                other.Within host := by
              intro other member
              rcases List.mem_append.mp member with old | new
              · rcases within other old with ⟨host, hostIn, otherInside⟩
                exact ⟨host, List.mem_append_left _ hostIn, otherInside⟩
              · rw [List.mem_singleton.mp new]
                exact ⟨entry.region, List.mem_append_right _ List.mem_cons_self, inside⟩
            rcases induction next (moved ▸ tiles) (moved ▸ bound) enough with
              ⟨result, run, order⟩
            rw [List.append_assoc] at order
            exact ⟨result, run, order⟩
          have remove : ∃ result,
              trimEntries alignEntries steps done (lastFirst rest) = .ok result ∧
                result.Perm (done ++ rest.filterMap (alignUsable alignEntries)) := by
            have shuffle := (regions_perm (lastFirst_perm rest)).append_left hosts
            have fewer : (hosts ++ regions rest).Sublist (hosts ++ regions (entry :: rest)) :=
              (List.sublist_cons_self _ _).append_left _
            have fewerTiles := (tiles.sublist fewer).perm shuffle.symm
            have length := (lastFirst_perm rest).length_eq
            rcases induction within fewerTiles
              (fun region member => bound region (fewer.subset (shuffle.mem_iff.mp member)))
              (by omega) with ⟨result, run, order⟩
            exact ⟨result, run, order.trans (((lastFirst_perm rest).filterMap _).append_left _)⟩
          rw [trimEntries, List.filterMap_cons, alignUsable]
          split
          · exact keep proper.within
          · next kind =>
              have apart : ∀ other ∈ done ++ rest, trim entry other = .ok entry := by
                have before := List.pairwise_append.mp tiles.apart
                intro other member
                rcases List.mem_append.mp member with old | later
                · rcases within other old with ⟨host, hostIn, inside⟩
                  exact trim_apart proper inside (bound _ (List.mem_append_left _ hostIn))
                    (before.2.2 host hostIn entry.region List.mem_cons_self).symm
                · have otherIn := List.mem_map_of_mem (f := Entry.region) later
                  have otherBound := bound other.region
                    (List.mem_append_right _ (List.mem_cons_of_mem _ otherIn))
                  have otherFull := tiles.full other.region
                    (List.mem_append_right _ (List.mem_cons_of_mem _ otherIn))
                  exact trim_apart proper ⟨Nat.le_refl _, otherFull, Nat.le_refl _⟩ otherBound
                    ((List.pairwise_cons.mp before.2.1).1 other.region otherIn)
              rw [foldlM_trim apart]
              dsimp only
              cases aligned : alignTrimmed alignEntries entry with
              | none => exact remove
              | some kept =>
                  have run : alignUsable alignEntries entry = some kept := by
                    rw [alignUsable, if_neg kind, aligned]
                  exact keep (alignUsable_within proper run)

/-! ## The first page -/

/-- What the second loop makes of an entry. -/
def dropUsable (entry : Entry) : Option Entry :=
  if entry.type ≠ usable then some entry
  else (offFirstPage entry).filter fun entry => entry.length ≠ 0

theorem dropEntries_perm {steps : Nat} {done todo : List Entry} (enough : todo.length ≤ steps) :
    (dropEntries steps done todo).Perm (done ++ todo.filterMap dropUsable) := by
  induction steps generalizing done todo with
  | zero =>
      rw [List.length_eq_zero_iff.mp (Nat.le_zero.mp enough)]
      exact List.Perm.refl _
  | succ steps induction =>
      cases todo with
      | nil => simp [dropEntries]
      | cons entry rest =>
          rw [List.length_cons, Nat.succ_le_succ_iff] at enough
          have keep : ∀ kept : Entry, (dropEntries steps (done ++ [kept]) rest).Perm
              (done ++ kept :: rest.filterMap dropUsable) := by
            intro kept
            have order : (dropEntries steps (done ++ [kept]) rest).Perm
                (done ++ [kept] ++ rest.filterMap dropUsable) := induction enough
            rwa [List.append_assoc] at order
          rw [dropEntries, List.filterMap_cons, dropUsable]
          split
          · exact keep entry
          · cases (offFirstPage entry).filter fun entry => entry.length ≠ 0 with
            | some kept => exact keep kept
            | none =>
                have length := (lastFirst_perm rest).length_eq
                have order : (dropEntries steps done (lastFirst rest)).Perm
                    (done ++ (lastFirst rest).filterMap dropUsable) := induction (by omega)
                exact order.trans (((lastFirst_perm rest).filterMap _).append_left _)

/-- An entry after both loops. -/
def cleaned (alignEntries : Bool) (entry : Entry) : Option Entry :=
  (alignUsable alignEntries entry).bind dropUsable

/-- The page of an address lies in the entry. -/
def Entry.HasPage (entry : Entry) (address : Nat) : Prop :=
  entry.base.toNat ≤ address / 4096 * 4096 ∧
    address / 4096 * 4096 + 4096 ≤ entry.base.toNat + entry.length.toNat

/-- The addresses of an entry that keep their type. -/
def Entry.Keeps (alignEntries : Bool) (entry : Entry) (address : Nat) : Prop :=
  entry.type = usable → 0x1000 ≤ address ∧ (alignEntries → entry.HasPage address)

theorem toNat_firstPage : (0x1000 : UInt64).toNat = 4096 := rfl

/-- What is left above the first page. -/
theorem dropUsable_eq {entry : Entry} (kind : entry.type = usable)
    (bound : entry.base.toNat + entry.length.toNat < 2 ^ 63) :
    dropUsable entry = none ∧ (entry.length.toNat = 0 ∨
        entry.base.toNat + entry.length.toNat ≤ 4096) ∨
      ∃ kept, dropUsable entry = some kept ∧ kept.type = usable ∧ 0 < kept.length.toNat ∧
        kept.base.toNat = max entry.base.toNat 4096 ∧
        kept.base.toNat + kept.length.toNat = entry.base.toNat + entry.length.toNat := by
  have top : (entry.base + entry.length).toNat =
      entry.base.toNat + entry.length.toNat := by
    rw [UInt64.toNat_add]
    exact Nat.mod_eq_of_lt (by omega)
  rw [dropUsable, if_neg (by simpa using kind), offFirstPage]
  split
  · next low =>
      rw [UInt64.lt_iff_toNat_lt, toNat_firstPage] at low
      split
      · next below =>
          rw [UInt64.le_iff_toNat_le, top, toNat_firstPage] at below
          exact Or.inl ⟨rfl, Or.inr below⟩
      · next above =>
          rw [UInt64.le_iff_toNat_le, top, toNat_firstPage, Nat.not_le] at above
          have shift : (0x1000 - entry.base).toNat = 4096 - entry.base.toNat :=
            UInt64.toNat_sub_of_le _ _ (UInt64.le_iff_toNat_le.mpr low.le)
          have length : (entry.length - (0x1000 - entry.base)).toNat =
              entry.length.toNat - (4096 - entry.base.toNat) := by
            rw [UInt64.toNat_sub_of_le _ _ (UInt64.le_iff_toNat_le.mpr (by omega)), shift]
          have some : entry.length - (0x1000 - entry.base) ≠ 0 := by
            intro zero
            rw [zero] at length
            change 0 = _ at length
            omega
          right
          refine ⟨{ entry with base := 0x1000, length := entry.length - (0x1000 - entry.base) },
            ?_, kind, ?_, ?_, ?_⟩
          · rw [Option.filter_some, if_pos (by simpa using some)]
          · dsimp only
            rw [length]
            omega
          · dsimp only
            rw [toNat_firstPage]
            omega
          · dsimp only
            rw [length, toNat_firstPage]
            omega
  · next high =>
      rw [UInt64.lt_iff_toNat_lt, toNat_firstPage, Nat.not_lt] at high
      rw [Option.filter_some]
      split
      · next some =>
          have some : entry.length ≠ 0 := by simpa using some
          rw [Ne, ← UInt64.toNat_inj] at some
          exact Or.inr ⟨entry, rfl, kind, Nat.pos_of_ne_zero some, by omega, rfl⟩
      · next none =>
          have none : entry.length = 0 := by simpa using none
          exact Or.inl ⟨rfl, Or.inl (by rw [none]; rfl)⟩

/-- A usable entry in bounds leaves the part of it above the first page. -/
theorem dropUsable_parts {entry : Entry} {host : Region Nat UInt32} (kind : entry.type = usable)
    (hostKind : host.kind = usable) (within : entry.Within host) (bound : host.high < 2 ^ 63) :
    Region.Parts host (regions (dropUsable entry).toList) fun address =>
      0x1000 ≤ address ∧ entry.base.toNat ≤ address ∧
        address < entry.base.toNat + entry.length.toNat := by
  have high := within.high
  have low := within.low
  rcases dropUsable_eq kind (by omega) with ⟨run, none⟩ | ⟨kept, run, same, full, base, top⟩
  · rw [run]
    apply Region.Parts.none
    rintro address _ ⟨above, after, before⟩
    omega
  · rw [run, Option.toList_some, regions_cons, regions_nil]
    constructor
    · exact ⟨fun region member => by
        rw [List.mem_singleton.mp member]
        exact Nat.lt_add_of_pos_right full, List.pairwise_singleton _ _⟩
    · intro part member
      rw [List.mem_singleton.mp member, Entry.region_kind, same, hostKind]
    · intro part member address covers
      rw [List.mem_singleton.mp member] at covers
      rcases covers with ⟨after, before⟩
      rw [Entry.region_low] at after
      rw [Entry.region_high] at before
      constructor
      · omega
      · omega
    · intro address _
      have around : kept.region.Covers address ↔ 0x1000 ≤ address ∧ entry.base.toNat ≤ address ∧
          address < entry.base.toNat + entry.length.toNat := by
        rw [Region.Covers, Entry.region_low, Entry.region_high]
        omega
      simpa using around

theorem cleaned_parts (alignEntries : Bool) {entry : Entry} (proper : entry.Proper) :
    Region.Parts entry.region (regions (cleaned alignEntries entry).toList)
      (entry.Keeps alignEntries) := by
  have full := proper.full
  have high := proper.high
  rw [cleaned, alignUsable]
  split
  · next other =>
      rw [Option.bind_some, dropUsable, if_pos other]
      exact Region.Parts.whole (Nat.lt_add_of_pos_right full)
        fun _ _ kind => absurd kind other
  · next kind =>
      have kind : entry.type = usable := by simpa using kind
      have some : entry.length ≠ 0 := by
        rw [Ne, ← UInt64.toNat_inj]
        exact Nat.pos_iff_ne_zero.mp full
      rw [alignTrimmed, if_neg some]
      cases alignEntries with
      | false =>
          apply (dropUsable_parts kind kind proper.within high).congr
          intro address covers
          exact ⟨fun ⟨above, _⟩ _ => ⟨above, fun aligned => absurd aligned Bool.false_ne_true⟩,
            fun keeps => ⟨(keeps kind).1, covers⟩⟩
      | true =>
          rw [if_pos rfl]
          cases run : alignEntry entry with
          | none =>
              rw [alignEntry] at run
              split at run
              · next short =>
                  rw [UInt64.lt_iff_toNat_lt, toNat_firstPage] at short
                  apply Region.Parts.none
                  intro address _ keeps
                  have page := (keeps kind).2 rfl
                  rw [Entry.HasPage] at page
                  omega
              · simp at run
          | some aligned =>
              rcases alignEntry_eq proper run with ⟨sameKind, long, base, top⟩
              apply (dropUsable_parts (sameKind.trans kind) kind (alignEntry_within proper run)
                high).congr
              intro address covers
              rw [Entry.Keeps, Entry.HasPage]
              constructor
              · rintro ⟨above, after, before⟩ _
                refine ⟨above, fun _ => ⟨?_, ?_⟩⟩
                · omega
                · omega
              · intro keeps
                rcases keeps kind with ⟨above, page⟩
                rcases page rfl with ⟨first, last⟩
                refine ⟨above, ?_, ?_⟩
                · omega
                · omega

/-! ## Joining -/

theorem merged_region {entry next : Entry} (nextProper : next.Proper)
    (touch : next.base.toNat = entry.base.toNat + entry.length.toNat) :
    Entry.region { entry with length := entry.length + next.length } =
      { entry.region with high := next.region.high } := by
  have high := nextProper.high
  have length : (entry.length + next.length).toNat =
      entry.length.toNat + next.length.toNat := by
    rw [UInt64.toNat_add]
    exact Nat.mod_eq_of_lt (by omega)
  rw [Entry.region, Entry.region_high, length, touch, Nat.add_assoc]
  rfl

theorem regions_mergeEntries {entry : Entry} {rest : List Entry} (proper : entry.Proper)
    (others : ∀ other ∈ rest, other.Proper) :
    regions (mergeEntries entry rest) =
      Region.joinFrom merges entry.region (regions rest) := by
  induction rest generalizing entry with
  | nil => rfl
  | cons next rest induction =>
      have nextProper := others next List.mem_cons_self
      have later : ∀ other ∈ rest, other.Proper :=
        fun other member => others other (List.mem_cons_of_mem _ member)
      have touches : next.base = entry.base + entry.length ↔
          next.region.low = entry.region.high := by
        rw [← UInt64.toNat_inj, proper.toNat_top, Entry.region_low, Entry.region_high]
      rw [mergeEntries, regions_cons, Region.joinFrom]
      by_cases joins : merges entry.region.kind ∧ next.region.kind = entry.region.kind ∧
          next.region.low = entry.region.high
      · have region := merged_region nextProper joins.2.2
        have mergedProper :
            Entry.Proper { entry with length := entry.length + next.length } := by
          have top : entry.base.toNat + (entry.length + next.length).toNat =
              next.base.toNat + next.length.toNat := congrArg Region.high region
          have touch : next.base.toNat = entry.base.toNat + entry.length.toNat := joins.2.2
          have full := nextProper.full
          have high := nextProper.high
          constructor
          · dsimp only
            omega
          · dsimp only
            omega
        rw [if_pos ⟨joins.1, joins.2.1, touches.mpr joins.2.2⟩, if_pos joins,
          induction mergedProper later, region]
      · rw [if_neg joins, if_neg fun both => joins ⟨both.1, both.2.1, touches.mp both.2.2⟩,
          regions_cons, induction nextProper later]

/-- A tidied table. -/
structure Settled (entries : List Entry) : Prop extends Sound entries where
  ordered : Region.Ordered (regions entries)
  maximal : Region.Maximal merges (regions entries)
  firstPage : ∀ address < 0x1000, kinds entries address ≠ some usable

/-- A table whose entries are seen to be tidy. -/
theorem Settled.of_entries {entries : List Entry} (ordered : Region.Ordered (regions entries))
    (bounds : ∀ region ∈ regions entries, region.low < region.high ∧ region.high < 2 ^ 63)
    (room : entries.length ≤ memmapMaxEntries)
    (maximal : Region.Maximal merges (regions entries))
    (firstPage : ∀ region ∈ regions entries, region.kind = usable → 0x1000 ≤ region.low) :
    Settled entries where
  tiles := ordered.tiles fun region member => (bounds region member).1
  high := fun region member => (bounds region member).2
  room := room
  ordered := ordered
  maximal := maximal
  firstPage := by
    intro address low found
    have tiles := ordered.tiles fun region member => (bounds region member).1
    rcases tiles.kindAt_eq_some.mp found with ⟨region, member, covers, kind⟩
    exact absurd (firstPage region member kind) (Nat.not_le.mpr (covers.1.trans_lt low))

theorem mergeEntries_length (entry : Entry) (rest : List Entry) :
    (mergeEntries entry rest).length ≤ (entry :: rest).length := by
  induction rest generalizing entry with
  | nil => exact Nat.le_refl _
  | cons next rest induction =>
      rw [mergeEntries]
      split
      · have fewer := induction { entry with length := entry.length + next.length }
        simp only [List.length_cons] at fewer ⊢
        omega
      · have fewer := induction next
        simp only [List.length_cons] at fewer ⊢
        omega

/-- The entries that are left when all have been cleaned. -/
theorem cleaned_tiles (alignEntries : Bool) {entries : List Entry} (sound : Sound entries) :
    Region.Tiles (regions (entries.filterMap (cleaned alignEntries))) ∧
      (∀ region ∈ regions (entries.filterMap (cleaned alignEntries)), region.high < 2 ^ 63) ∧
      ∀ address kind, kinds (entries.filterMap (cleaned alignEntries)) address = some kind ↔
        ∃ entry ∈ entries, entry.region.Covers address ∧ entry.type = kind ∧
          entry.Keeps alignEntries address := by
  have shape : regions (entries.filterMap (cleaned alignEntries)) =
      entries.flatMap fun entry => regions (cleaned alignEntries entry).toList := by
    rw [regions, List.filterMap_eq_flatMap_toList, List.map_flatMap]
    rfl
  have parts : ∀ entry ∈ entries, Region.Parts entry.region
      (regions (cleaned alignEntries entry).toList) (entry.Keeps alignEntries) :=
    fun _ member => cleaned_parts alignEntries (sound.proper member)
  rw [kinds, shape]
  refine ⟨sound.tiles.flatMap parts, ?_, fun _ _ => sound.tiles.kindAt_flatMap parts⟩
  intro region member
  rcases List.mem_flatMap.mp member with ⟨entry, entryIn, piece⟩
  have full := (parts entry entryIn).tiles.full region piece
  have last := (parts entry entryIn).inside region piece (region.high - 1)
    ⟨by omega, by omega⟩
  have bound := sound.high _ (List.mem_map_of_mem entryIn)
  have before := last.2
  omega

/-- The table is tidied, unless nothing of it is left. -/
theorem pmmSanitiseEntries_spec (alignEntries : Bool) {entries : List Entry}
    (sound : Sound entries) :
    (∃ result, pmmSanitiseEntries alignEntries entries = .ok result ∧ Settled result ∧
      result.length ≤ entries.length ∧
      ∀ address kind, kinds result address = some kind ↔
        ∃ entry ∈ entries, entry.region.Covers address ∧ entry.type = kind ∧
          entry.Keeps alignEntries address) ∨
    pmmSanitiseEntries alignEntries entries = .error .pastTable ∧
      ∀ entry ∈ entries, ∀ address, entry.region.Covers address →
        ¬ entry.Keeps alignEntries address := by
  have nothing : ∀ entry ∈ ([] : List Entry), ∃ host ∈ ([] : List (Region Nat UInt32)),
      entry.Within host := fun _ member => absurd member List.not_mem_nil
  rcases trimEntries_perm alignEntries nothing sound.tiles sound.high le_rfl with
    ⟨trimmed, run, trimOrder⟩
  rw [List.nil_append] at trimOrder
  have dropOrder : (dropEntries trimmed.length [] trimmed).Perm
      (entries.filterMap (cleaned alignEntries)) := by
    have order : (trimmed.filterMap dropUsable).Perm _ := trimOrder.filterMap dropUsable
    rw [List.filterMap_filterMap] at order
    exact (dropEntries_perm le_rfl).trans order
  rcases cleaned_tiles alignEntries sound with ⟨tiles, high, types⟩
  rw [pmmSanitiseEntries, run]
  dsimp only
  generalize dropEntries trimmed.length [] trimmed = kept at dropOrder ⊢
  have sortOrder := (selectionSort_perm (fun entry : Entry => entry.base.toNat)
    (kept.length - 1) kept).trans dropOrder
  have enough : kept.length ≤ kept.length - 1 + 1 := by omega
  have sorted := selectionSort_sorted (fun entry : Entry => entry.base.toNat) enough
  cases shape : selectionSort (fun entry : Entry => entry.base.toNat) (kept.length - 1) kept with
  | nil =>
      rw [shape] at sortOrder
      right
      refine ⟨rfl, fun entry member address covers keeps => ?_⟩
      have found := (types address entry.type).mpr ⟨entry, member, covers, rfl, keeps⟩
      rw [← sortOrder.nil_eq] at found
      simp [kinds, Region.kindAt] at found
  | cons entry rest =>
      rw [shape] at sortOrder sorted
      have sortedTiles := tiles.perm (regions_perm sortOrder).symm
      have ordered := sortedTiles.ordered (List.pairwise_map.mpr sorted)
      have sortedHigh : ∀ region ∈ regions (entry :: rest), region.high < 2 ^ 63 :=
        fun region member => high region ((regions_perm sortOrder).mem_iff.mp member)
      have proper : ∀ other ∈ entry :: rest, other.Proper := by
        intro other member
        have full := sortedTiles.full _ (List.mem_map_of_mem member)
        rw [Entry.region_low, Entry.region_high] at full
        exact ⟨by omega, sortedHigh _ (List.mem_map_of_mem member)⟩
      have merged := regions_mergeEntries (proper entry List.mem_cons_self)
        fun other member => proper other (List.mem_cons_of_mem _ member)
      rcases sortedTiles.joinFrom merges ordered with
        ⟨joinTiles, joinOrdered, joinKinds, maximal⟩
      rw [← regions, ← merged] at joinTiles joinOrdered joinKinds maximal
      have found : ∀ address kind, kinds (mergeEntries entry rest) address = some kind ↔
          ∃ entry ∈ entries, entry.region.Covers address ∧ entry.type = kind ∧
            entry.Keeps alignEntries address := by
        intro address kind
        rw [← types, kinds, joinKinds, ← regions_cons,
          tiles.kindAt_perm (regions_perm sortOrder).symm]
        rfl
      have length : (mergeEntries entry rest).length ≤ entries.length :=
        (mergeEntries_length entry rest).trans
          (sortOrder.length_eq.trans_le (List.length_filterMap_le _ _))
      left
      refine ⟨_, rfl, ⟨⟨joinTiles, ?_, length.trans sound.room⟩, joinOrdered, maximal, ?_⟩,
        length, found⟩
      · intro region member
        rw [merged] at member
        rcases (Region.mem_joinFrom member).2 with ⟨last, lastIn, same⟩
        exact same ▸ sortedHigh last lastIn
      · intro address low same
        rcases (found address usable).mp same with ⟨_, _, _, kind, keeps⟩
        exact absurd (keeps kind).1 (Nat.not_le.mpr low)

end ParanOS.Memmap

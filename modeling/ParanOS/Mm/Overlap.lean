import Mathlib.Data.List.Perm.Basic
import ParanOS.Mm.Memmap

/-! # A range with a new type

The entries are regions of addresses. Where they do not meet, `pmm_new_entry` paints
its range over them: each address of the range has the new type and all others keep
theirs. It fails only where the table has no room for the result.
-/

namespace ParanOS.Memmap

open Foundation

def Entry.region (entry : Entry) : Region Nat UInt32 :=
  ⟨entry.base.toNat, entry.base.toNat + entry.length.toNat, entry.type⟩

def regions (entries : List Entry) : List (Region Nat UInt32) := entries.map Entry.region

@[simp] theorem regions_nil : regions [] = [] := rfl

@[simp] theorem regions_cons (entry : Entry) (rest : List Entry) :
    regions (entry :: rest) = entry.region :: regions rest := rfl

@[simp] theorem regions_append (first second : List Entry) :
    regions (first ++ second) = regions first ++ regions second := List.map_append

theorem regions_perm {first second : List Entry} (order : first.Perm second) :
    (regions first).Perm (regions second) := order.map Entry.region

/-- The type of an address, nothing where no entry is around it. -/
def kinds (entries : List Entry) : Nat → Option UInt32 := Region.kindAt (regions entries)

@[simp] theorem Entry.region_low (entry : Entry) : entry.region.low = entry.base.toNat := rfl

@[simp] theorem Entry.region_high (entry : Entry) :
    entry.region.high = entry.base.toNat + entry.length.toNat := rfl

@[simp] theorem Entry.region_kind (entry : Entry) : entry.region.kind = entry.type := rfl

/-- Not empty, and below the addresses that are negative when signed. -/
structure Entry.Proper (entry : Entry) : Prop where
  full : 0 < entry.length.toNat
  high : entry.base.toNat + entry.length.toNat < 2 ^ 63

structure Sound (entries : List Entry) : Prop where
  tiles : Region.Tiles (regions entries)
  high : ∀ region ∈ regions entries, region.high < 2 ^ 63
  room : entries.length ≤ memmapMaxEntries

theorem Sound.proper {entries : List Entry} (sound : Sound entries) {entry : Entry}
    (member : entry ∈ entries) : entry.Proper := by
  have full := sound.tiles.full _ (List.mem_map_of_mem member)
  rw [Entry.region_low, Entry.region_high] at full
  exact ⟨by omega, sound.high _ (List.mem_map_of_mem member)⟩

theorem lastFirst_perm (rest : List Entry) : (lastFirst rest).Perm rest := by
  rw [lastFirst]
  split
  · next none => rw [List.getLast?_eq_none_iff.mp none]
  · next last found =>
      have shape := List.dropLast_append_getLast? last found
      calc last :: rest.dropLast
        _ |>.Perm (rest.dropLast ++ [last]) := (List.perm_append_singleton _ _).symm
        _ |>.Perm rest := by rw [shape]

namespace Entry.Proper

variable {entry : Entry}

theorem toNat_top (proper : entry.Proper) :
    (entry.base + entry.length).toNat = entry.base.toNat + entry.length.toNat := by
  have high := proper.high
  rw [UInt64.toNat_add]
  exact Nat.mod_eq_of_lt (by omega)

end Entry.Proper

/-! ## The loop over the entries -/

/-- The bounds of a new entry. -/
structure Bounds (base top : UInt64) : Prop where
  ordered : base.toNat < top.toNat
  high : top.toNat < 2 ^ 63

section Overlap

variable {base top : UInt64} {entry : Entry}

theorem carve_full (bounds : Bounds base top) (proper : entry.Proper)
    (low : base ≤ entry.base) (high : top ≥ entry.base + entry.length) :
    Region.carve base.toNat top.toNat entry.region = [] := by
  rw [UInt64.le_iff_toNat_le] at low
  rw [ge_iff_le, UInt64.le_iff_toNat_le, proper.toNat_top] at high
  have ordered := bounds.ordered
  have full := proper.full
  rw [Region.carve, if_neg, if_neg, List.append_nil]
  · rw [Entry.region_high]
    omega
  · rw [Entry.region_low, Entry.region_high]
    omega

theorem carve_bottom (bounds : Bounds base top) (proper : entry.Proper)
    (low : base ≤ entry.base) (high : top < entry.base + entry.length) (meets : top > entry.base) :
    Region.carve base.toNat top.toNat entry.region = [Entry.region { entry with
      base := entry.base + (top - entry.base), length := entry.length - (top - entry.base) }] ∧
      Entry.Proper { entry with
        base := entry.base + (top - entry.base), length := entry.length - (top - entry.base) } := by
  rw [UInt64.le_iff_toNat_le] at low
  rw [UInt64.lt_iff_toNat_lt, proper.toNat_top] at high
  rw [gt_iff_lt, UInt64.lt_iff_toNat_lt] at meets
  have ordered := bounds.ordered
  have properHigh := proper.high
  have shift : (top - entry.base).toNat = top.toNat - entry.base.toNat :=
    UInt64.toNat_sub_of_le _ _ (UInt64.le_iff_toNat_le.mpr meets.le)
  have newBase : (entry.base + (top - entry.base)).toNat = top.toNat := by
    rw [UInt64.toNat_add, shift]
    omega
  have newLength : (entry.length - (top - entry.base)).toNat =
      entry.base.toNat + entry.length.toNat - top.toNat := by
    rw [UInt64.toNat_sub_of_le _ _ (UInt64.le_iff_toNat_le.mpr (by omega)), shift]
    omega
  constructor
  · rw [Region.carve, if_neg, if_pos, List.nil_append, Entry.region, Entry.region]
    · simp only [newBase, newLength]
      congr 2
      · omega
      · omega
    · rw [Entry.region_low, Entry.region_high]
      omega
    · rw [Entry.region_low, Entry.region_high]
      omega
  · exact ⟨by rw [newLength]; omega, by rw [newBase, newLength]; omega⟩

/-- The length that is left below a new entry. -/
theorem toNat_shaved (proper : entry.Proper) (low : base > entry.base)
    (meets : base < entry.base + entry.length) :
    (entry.length - (entry.base + entry.length - base)).toNat =
      base.toNat - entry.base.toNat := by
  rw [gt_iff_lt, UInt64.lt_iff_toNat_lt] at low
  rw [UInt64.lt_iff_toNat_lt, proper.toNat_top] at meets
  have cut : (entry.base + entry.length - base).toNat =
      entry.base.toNat + entry.length.toNat - base.toNat := by
    rw [UInt64.toNat_sub_of_le _ _ (UInt64.le_iff_toNat_le.mpr (by
      rw [proper.toNat_top]
      exact meets.le)), proper.toNat_top]
  rw [UInt64.toNat_sub_of_le _ _ (UInt64.le_iff_toNat_le.mpr (by omega)), cut]
  omega

theorem carve_top (proper : entry.Proper) (low : base > entry.base)
    (meets : base < entry.base + entry.length) (high : top ≥ entry.base + entry.length) :
    Region.carve base.toNat top.toNat entry.region = [Entry.region { entry with
      length := entry.length - (entry.base + entry.length - base) }] := by
  have length := toNat_shaved proper low meets
  rw [gt_iff_lt, UInt64.lt_iff_toNat_lt] at low
  rw [UInt64.lt_iff_toNat_lt, proper.toNat_top] at meets
  rw [ge_iff_le, UInt64.le_iff_toNat_le, proper.toNat_top] at high
  rw [Region.carve, if_pos, if_neg, List.append_nil, Entry.region, Entry.region]
  · simp only [length]
    congr 2
    omega
  · rw [Entry.region_high]
    omega
  · rw [Entry.region_low, Entry.region_high]
    omega

theorem above_proper (proper : entry.Proper) (high : top < entry.base + entry.length) :
    Entry.Proper ⟨top, entry.base + entry.length - top, entry.type⟩ ∧
      Entry.region ⟨top, entry.base + entry.length - top, entry.type⟩ =
        ⟨top.toNat, entry.base.toNat + entry.length.toNat, entry.type⟩ := by
  have below := high
  rw [UInt64.lt_iff_toNat_lt, proper.toNat_top] at below
  have length : (entry.base + entry.length - top).toNat =
      entry.base.toNat + entry.length.toNat - top.toNat := by
    rw [UInt64.toNat_sub_of_le _ _ (UInt64.le_iff_toNat_le.mpr (UInt64.lt_iff_toNat_lt.mp high).le),
      proper.toNat_top]
  have bound := proper.high
  refine ⟨⟨?_, ?_⟩, ?_⟩
  · rw [length]
    omega
  · rw [length]
    change top.toNat + _ < _
    omega
  rw [Entry.region]
  simp only [length]
  congr 1
  omega

theorem carve_nested (bounds : Bounds base top) (proper : entry.Proper) (low : base > entry.base)
    (high : top < entry.base + entry.length) :
    Region.carve base.toNat top.toNat entry.region =
      [Entry.region { entry with length := entry.length - (entry.base + entry.length - base) },
        Entry.region ⟨top, entry.base + entry.length - top, entry.type⟩] := by
  have ordered := bounds.ordered
  have meets : base < entry.base + entry.length :=
    UInt64.lt_iff_toNat_lt.mpr (ordered.trans (UInt64.lt_iff_toNat_lt.mp high))
  have length := toNat_shaved proper low meets
  rw [(above_proper proper high).2]
  rw [gt_iff_lt, UInt64.lt_iff_toNat_lt] at low
  rw [UInt64.lt_iff_toNat_lt, proper.toNat_top] at high
  rw [Region.carve, if_pos, if_pos, List.singleton_append, Entry.region, Entry.region]
  · simp only [length]
    congr 2
    · omega
    · congr 1
      omega
  · rw [Entry.region_low, Entry.region_high]
    omega
  · rw [Entry.region_low, Entry.region_high]
    omega

theorem carve_apart {region : Region Nat UInt32} (full : region.low < region.high)
    {low high : Nat} (ordered : low < high) (apart : high ≤ region.low ∨ region.high ≤ low) :
    Region.carve low high region = [region] := by
  rcases apart with above | below
  · rw [Region.carve, if_neg (by omega), if_pos (by omega), List.nil_append,
      max_eq_left (by omega)]
  · rw [Region.carve, if_pos (by omega), if_neg (by omega), List.append_nil,
      min_eq_left (by omega)]

theorem carve_outside (bounds : Bounds base top) (proper : entry.Proper)
    (full : ¬ (base ≤ entry.base ∧ top ≥ entry.base + entry.length))
    (bottom : ¬ (base ≤ entry.base ∧ top < entry.base + entry.length ∧ top > entry.base))
    (upper : ¬ (base > entry.base ∧ base < entry.base + entry.length ∧
      top ≥ entry.base + entry.length))
    (nested : ¬ (base > entry.base ∧ top < entry.base + entry.length)) :
    Region.carve base.toNat top.toNat entry.region = [entry.region] := by
  have ordered := bounds.ordered
  have length := proper.full
  apply carve_apart (by rw [Entry.region_low, Entry.region_high]; omega) ordered
  simp only [ge_iff_le, gt_iff_lt, UInt64.le_iff_toNat_le, UInt64.lt_iff_toNat_lt,
    proper.toNat_top] at full bottom upper nested
  rw [Entry.region_low, Entry.region_high]
  omega

/-- The new entry lies inside this one, which is split. -/
def Nested (base top : UInt64) (entry : Entry) : Prop :=
  entry.base < base ∧ top < entry.base + entry.length

instance (base top : UInt64) (entry : Entry) : Decidable (Nested base top entry) :=
  inferInstanceAs (Decidable (_ ∧ _))

/-- One turn of the loop: `kept` is done, `others` is still to do. -/
structure Turn (base top : UInt64) (entry : Entry) (rest kept others : List Entry) : Prop where
  parts : (regions kept ++ (regions others).flatMap (Region.carve base.toNat top.toNat)).Perm
    (Region.carve base.toNat top.toNat entry.region ++
      (regions rest).flatMap (Region.carve base.toNat top.toNat))
  proper : (∀ other ∈ rest, other.Proper) → ∀ other ∈ others, other.Proper
  room : kept.length + others.length + others.countP (Nested base top ·) ≤
    rest.length + 1 + (entry :: rest).countP (Nested base top ·)
  splits : others.countP (Nested base top ·) + others.length + 1 =
    (entry :: rest).countP (Nested base top ·) + (rest.length + 1)

theorem Turn.keep {rest : List Entry} {kept : Entry} (outer : ¬ Nested base top entry)
    (parts : Region.carve base.toNat top.toNat entry.region = [kept.region]) :
    Turn base top entry rest [kept] rest where
  parts := by rw [parts]; exact List.Perm.refl _
  proper := fun proper => proper
  room := by rw [List.length_singleton, List.countP_cons_of_neg (by simpa using outer)]; omega
  splits := by rw [List.countP_cons_of_neg (by simpa using outer)]; omega

theorem Turn.remove {rest : List Entry} (outer : ¬ Nested base top entry)
    (parts : Region.carve base.toNat top.toNat entry.region = []) :
    Turn base top entry rest [] (lastFirst rest) where
  parts := by
    rw [parts]
    exact (regions_perm (lastFirst_perm rest)).flatMap_right _
  proper := fun proper other member => proper other ((lastFirst_perm rest).mem_iff.mp member)
  room := by
    rw [List.length_nil, List.countP_cons_of_neg (by simpa using outer),
      (lastFirst_perm rest).countP_eq, (lastFirst_perm rest).length_eq]
    omega
  splits := by
    rw [List.countP_cons_of_neg (by simpa using outer), (lastFirst_perm rest).countP_eq,
      (lastFirst_perm rest).length_eq]
    omega

/-- The part above the new entry is not split again. -/
theorem count_above (bounds : Bounds base top) (rest : List Entry) (length : UInt64)
    (type : UInt32) :
    (rest ++ [Entry.mk top length type]).countP (Nested base top ·) =
      rest.countP (Nested base top ·) := by
  have below : ¬ Nested base top (Entry.mk top length type) := by
    rintro ⟨before, _⟩
    have ordered := bounds.ordered
    exact absurd (UInt64.lt_iff_toNat_lt.mp before) (Nat.not_lt.mpr ordered.le)
  rw [List.countP_append, List.countP_cons_of_neg (by simpa using below), List.countP_nil,
    Nat.add_zero]

theorem Turn.split {rest : List Entry} (bounds : Bounds base top) (proper : entry.Proper)
    (low : base > entry.base) (high : top < entry.base + entry.length) :
    Turn base top entry rest
      [{ entry with length := entry.length - (entry.base + entry.length - base) }]
      (rest ++ [⟨top, entry.base + entry.length - top, entry.type⟩]) where
  parts := by
    have above := above_proper proper high
    have untouched : Region.carve base.toNat top.toNat
        (Entry.region ⟨top, entry.base + entry.length - top, entry.type⟩) =
        [Entry.region ⟨top, entry.base + entry.length - top, entry.type⟩] := by
      have full := above.1.full
      exact carve_apart (Nat.lt_add_of_pos_right full) bounds.ordered (Or.inl le_rfl)
    rw [carve_nested bounds proper low high, regions_append, List.flatMap_append, regions_cons,
      regions_nil, regions_cons, regions_nil, List.flatMap_cons, List.flatMap_nil, List.append_nil,
      untouched]
    exact List.perm_append_comm.append_left
      [Entry.region { entry with length := entry.length - (entry.base + entry.length - base) }]
  proper := by
    intro properRest other member
    rcases List.mem_append.mp member with old | new
    · exact properRest other old
    · rw [List.mem_singleton.mp new]
      exact (above_proper proper high).1
  room := by
    rw [count_above bounds, List.countP_cons_of_pos (by simpa using ⟨low, high⟩),
      List.length_singleton, List.length_append, List.length_singleton]
    omega
  splits := by
    rw [count_above bounds, List.countP_cons_of_pos (by simpa using ⟨low, high⟩),
      List.length_append, List.length_singleton]
    omega

/-- The loop takes a turn, or has no room for the second part of an entry. -/
theorem overlapLoop_turn (bounds : Bounds base top) (proper : entry.Proper) (fuel : Nat)
    (done rest : List Entry) :
    (∃ kept others, Turn base top entry rest kept others ∧
      overlapLoop base top (fuel + 1) done (entry :: rest) =
        overlapLoop base top fuel (done ++ kept) others) ∨
    Nested base top entry ∧ memmapMaxEntries ≤ done.length + 1 + rest.length ∧
      overlapLoop base top (fuel + 1) done (entry :: rest) =
        .error (.panic "Memory map exhausted.") := by
  rw [overlapLoop]
  split
  · next full =>
      left
      refine ⟨[], lastFirst rest, Turn.remove ?_ (carve_full bounds proper full.1 full.2), ?_⟩
      · rintro ⟨low, _⟩
        exact absurd full.1 (UInt64.not_le.mpr low)
      · rw [List.append_nil]
  · next full =>
      split
      · next bottom =>
          left
          refine ⟨_, rest, Turn.keep ?_ (carve_bottom bounds proper bottom.1 bottom.2.1
            bottom.2.2).1, rfl⟩
          rintro ⟨low, _⟩
          exact absurd bottom.1 (UInt64.not_le.mpr low)
      · next bottom =>
          split
          · next upper =>
              left
              refine ⟨_, rest, Turn.keep ?_ (carve_top proper upper.1 upper.2.1 upper.2.2), rfl⟩
              rintro ⟨_, high⟩
              exact absurd upper.2.2 (UInt64.not_le.mpr high)
          · next upper =>
              split
              · next nested =>
                  split
                  · next none => exact Or.inr ⟨nested, none, rfl⟩
                  · next room =>
                      exact Or.inl ⟨_, _, Turn.split bounds proper nested.1 nested.2, rfl⟩
              · next outside =>
                  left
                  exact ⟨[entry], rest, Turn.keep outside
                    (carve_outside bounds proper full bottom upper outside), rfl⟩

/-- What the loop leaves are the parts of the entries outside the new one. -/
theorem overlapLoop_perm (bounds : Bounds base top) {fuel : Nat} {done todo result : List Entry}
    (proper : ∀ entry ∈ todo, entry.Proper)
    (run : overlapLoop base top fuel done todo = .ok result) :
    (regions result).Perm
      (regions done ++ (regions todo).flatMap (Region.carve base.toNat top.toNat)) := by
  induction fuel generalizing done todo with
  | zero => simp [overlapLoop] at run
  | succ fuel induction =>
      cases todo with
      | nil =>
          rw [overlapLoop, Except.ok.injEq] at run
          simp [run]
      | cons entry rest =>
          have properRest : ∀ other ∈ rest, other.Proper :=
            fun other member => proper other (List.mem_cons_of_mem _ member)
          rcases overlapLoop_turn bounds (proper entry List.mem_cons_self) fuel done rest with
            ⟨kept, others, turn, same⟩ | ⟨_, _, failed⟩
          · rw [same] at run
            have order := induction (turn.proper properRest) run
            rw [regions_append, List.append_assoc] at order
            rw [regions_cons, List.flatMap_cons]
            exact order.trans (turn.parts.append_left _)
          · rw [failed] at run
            exact absurd run (by simp)

/-- With room for the entries that are split the loop comes to its end. -/
theorem overlapLoop_total (bounds : Bounds base top) {fuel : Nat} {done todo : List Entry}
    (proper : ∀ entry ∈ todo, entry.Proper)
    (room : done.length + todo.length + todo.countP (Nested base top ·) ≤ memmapMaxEntries)
    (enough : todo.countP (Nested base top ·) + todo.length < fuel) :
    ∃ result, overlapLoop base top fuel done todo = .ok result := by
  induction fuel generalizing done todo with
  | zero => exact absurd enough (Nat.not_lt_zero _)
  | succ fuel induction =>
      cases todo with
      | nil => exact ⟨done, rfl⟩
      | cons entry rest =>
          have properRest : ∀ other ∈ rest, other.Proper :=
            fun other member => proper other (List.mem_cons_of_mem _ member)
          rcases overlapLoop_turn bounds (proper entry List.mem_cons_self) fuel done rest with
            ⟨kept, others, turn, same⟩ | ⟨nested, none, _⟩
          · rw [same]
            have left := turn.room
            have splits := turn.splits
            rw [List.length_cons] at room enough
            apply induction (turn.proper properRest)
            · rw [List.length_append]
              omega
            · omega
          · rw [List.countP_cons_of_pos (by simpa using nested), List.length_cons] at room
            omega

/-- With enough fuel the loop comes to its end or runs out of room. -/
theorem overlapLoop_ends (bounds : Bounds base top) {fuel : Nat} {done todo : List Entry}
    (proper : ∀ entry ∈ todo, entry.Proper)
    (enough : todo.countP (Nested base top ·) + todo.length < fuel) :
    (∃ result, overlapLoop base top fuel done todo = .ok result) ∨
      overlapLoop base top fuel done todo = .error (.panic "Memory map exhausted.") := by
  induction fuel generalizing done todo with
  | zero => exact absurd enough (Nat.not_lt_zero _)
  | succ fuel induction =>
      cases todo with
      | nil => exact Or.inl ⟨done, rfl⟩
      | cons entry rest =>
          have properRest : ∀ other ∈ rest, other.Proper :=
            fun other member => proper other (List.mem_cons_of_mem _ member)
          rcases overlapLoop_turn bounds (proper entry List.mem_cons_self) fuel done rest with
            ⟨kept, others, turn, same⟩ | ⟨_, _, failed⟩
          · rw [same]
            have splits := turn.splits
            rw [List.length_cons] at enough
            exact induction (turn.proper properRest) (by omega)
          · exact Or.inr failed

end Overlap

/-! ## The new entry -/

/-- A range that is not empty and lies below the addresses that are negative when signed. -/
structure Range (base length : UInt64) : Prop where
  full : 0 < length.toNat
  high : base.toNat + length.toNat < 2 ^ 63

section NewEntry

variable {entries result : List Entry} {base length : UInt64} {type : UInt32}

theorem Range.toNat_top (range : Range base length) :
    (base + length).toNat = base.toNat + length.toNat := by
  have high := range.high
  rw [UInt64.toNat_add]
  exact Nat.mod_eq_of_lt (by omega)

theorem Range.bounds (range : Range base length) : Bounds base (base + length) := by
  have full := range.full
  have high := range.high
  exact ⟨by rw [range.toNat_top]; omega, by rw [range.toNat_top]; omega⟩

theorem pmmNewEntry_perm (sound : Sound entries) (range : Range base length)
    (run : pmmNewEntry entries base length type = .ok result) :
    (regions result).Perm (Region.override (regions entries) (Entry.region ⟨base, length, type⟩)) ∧
      result.length ≤ memmapMaxEntries := by
  rw [pmmNewEntry] at run
  split at run
  · simp at run
  · next left loop =>
      split at run
      · simp at run
      · next room =>
          rw [Except.ok.injEq] at run
          have order := overlapLoop_perm range.bounds (fun _ => sound.proper) loop
          rw [regions_nil, List.nil_append, range.toNat_top] at order
          rw [← run]
          constructor
          · rw [regions_append]
            exact order.append_right _
          · rw [List.length_append, List.length_singleton]
            omega

/-- The new entry paints its range. -/
theorem pmmNewEntry_sound (sound : Sound entries) (range : Range base length)
    (run : pmmNewEntry entries base length type = .ok result) :
    Sound result ∧ kinds result =
      Region.paint (kinds entries) base.toNat (base.toNat + length.toNat) type := by
  rcases pmmNewEntry_perm sound range run with ⟨order, room⟩
  have full : (Entry.region ⟨base, length, type⟩).low < (Entry.region ⟨base, length, type⟩).high :=
    Nat.lt_add_of_pos_right range.full
  have tiles := sound.tiles.override full
  refine ⟨⟨tiles.perm order.symm, ?_, room⟩, ?_⟩
  · intro region member
    rcases List.mem_append.mp (order.mem_iff.mp member) with old | new
    · rcases List.mem_flatMap.mp old with ⟨other, inside, part⟩
      have high := sound.high other inside
      rcases Region.mem_carve.mp part with ⟨_, rfl⟩ | ⟨_, rfl⟩
      · exact (min_le_left _ _).trans_lt high
      · exact high
    · rw [List.mem_singleton.mp new]
      exact range.high
  · rw [kinds, tiles.kindAt_perm order.symm, sound.tiles.kindAt_override full]
    rfl

/-- Where an entry is split no entry is lost. -/
theorem length_add_countP_le {α β : Type} {items : List α} {cut : α → List β} {split : α → Bool}
    (parts : ∀ item ∈ items, 1 + (split item).toNat ≤ (cut item).length) :
    items.length + items.countP split ≤ (items.flatMap cut).length := by
  induction items with
  | nil => exact Nat.le_refl _
  | cons item rest induction =>
      have first := parts item List.mem_cons_self
      have others := induction fun other member => parts other (List.mem_cons_of_mem _ member)
      rw [List.flatMap_cons, List.length_append, List.length_cons, List.countP_cons]
      cases splits : split item with
      | false =>
          rw [splits, Bool.toNat_false] at first
          simp only [Bool.false_eq_true, if_false]
          omega
      | true =>
          rw [splits, Bool.toNat_true] at first
          simp only [if_true]
          omega

theorem splits_le (sound : Sound entries) (range : Range base length)
    (nested : 0 < entries.countP (Nested base (base + length) ·)) :
    entries.length + entries.countP (Nested base (base + length) ·) ≤
      ((regions entries).flatMap
        (Region.carve base.toNat (base.toNat + length.toNat))).length := by
  rcases List.countP_pos_iff.mp nested with ⟨outer, outerIn, around⟩
  have around : Nested base (base + length) outer := by simpa using around
  have bounds := range.bounds
  have ordered := bounds.ordered
  have properOuter := sound.proper outerIn
  rw [regions, List.flatMap_map]
  apply length_add_countP_le
  intro entry member
  have proper := sound.proper member
  have full := proper.full
  by_cases inside : Nested base (base + length) entry
  · have parts := carve_nested bounds proper inside.1 inside.2
    rw [range.toNat_top] at parts
    rw [parts]
    simp [inside]
  · -- the first address of the entry is not in the range, which lies in another entry
    have outside : ¬ (base.toNat ≤ entry.base.toNat ∧
        entry.base.toNat < base.toNat + length.toNat) := by
      rintro ⟨above, below⟩
      have left := UInt64.lt_iff_toNat_lt.mp around.1
      have right := UInt64.lt_iff_toNat_lt.mp around.2
      rw [range.toNat_top, properOuter.toNat_top] at right
      have covers : outer.region.Covers entry.base.toNat :=
        ⟨left.le.trans above, below.trans right⟩
      have same := sound.tiles.unique (List.mem_map_of_mem outerIn) (List.mem_map_of_mem member)
        covers ⟨Nat.le_refl _, Nat.lt_add_of_pos_right full⟩
      have low : outer.base.toNat = entry.base.toNat := congrArg Region.low same
      omega
    have parts := Region.carve_parts (Nat.le_add_right base.toNat length.toNat) entry.region
    rcases (parts.kept entry.base.toNat
      ⟨Nat.le_refl _, Nat.lt_add_of_pos_right full⟩).mpr outside with ⟨part, piece, _⟩
    have some := List.length_pos_of_mem piece
    simp only [inside, decide_false, Bool.toNat_false]
    omega

/-- The table has room for the result exactly where the call returns. -/
theorem pmmNewEntry_total (sound : Sound entries) (range : Range base length) :
    (∃ result, pmmNewEntry entries base length type = .ok result) ↔
      (Region.override (regions entries) (Entry.region ⟨base, length, type⟩)).length ≤
        memmapMaxEntries := by
  constructor
  · rintro ⟨result, run⟩
    rcases pmmNewEntry_perm sound range run with ⟨order, room⟩
    rw [← order.length_eq, regions, List.length_map]
    exact room
  · intro room
    rw [Region.override, List.length_append, List.length_singleton] at room
    have fits : entries.length + entries.countP (Nested base (base + length) ·) ≤
        memmapMaxEntries := by
      rcases Nat.eq_zero_or_pos (entries.countP (Nested base (base + length) ·)) with none | some
      · rw [none]
        exact sound.room
      · have parts := splits_le sound range some
        exact parts.trans (Nat.le_of_succ_le room)
    have few := List.countP_le_length (p := (Nested base (base + length) ·)) (l := entries)
    have loops : ∃ left, overlapLoop base (base + length)
        (2 * entries.length + memmapMaxEntries + 1) [] entries = .ok left :=
      overlapLoop_total range.bounds (fun _ => sound.proper) (by simpa using fits) (by omega)
    rcases loops with ⟨left, loop⟩
    have order := (overlapLoop_perm range.bounds (fun _ => sound.proper) loop).length_eq
    rw [regions_nil, List.nil_append, range.toNat_top] at order
    rw [pmmNewEntry, loop]
    simp only
    rw [if_neg]
    · exact ⟨_, rfl⟩
    · rw [regions, List.length_map] at order
      rw [order]
      exact Nat.not_le.mpr room

/-- A call that does not return has no room. -/
theorem pmmNewEntry_ends (sound : Sound entries) (range : Range base length)
    (type : UInt32) :
    (∃ result, pmmNewEntry entries base length type = .ok result) ∨
      pmmNewEntry entries base length type = .error (.panic "Memory map exhausted.") ∧
        memmapMaxEntries < entries.length + 2 := by
  by_cases returns : ∃ result, pmmNewEntry entries base length type = .ok result
  · exact Or.inl returns
  · right
    have full : (Entry.region ⟨base, length, type⟩).low <
        (Entry.region ⟨base, length, type⟩).high := Nat.lt_add_of_pos_right range.full
    have much := Nat.not_le.mp fun room => returns ((pmmNewEntry_total sound range).mpr room)
    have few := sound.tiles.length_override full
    rw [regions, List.length_map, ← regions] at few
    refine ⟨?_, much.trans_le few⟩
    have count := List.countP_le_length (p := (Nested base (base + length) ·)) (l := entries)
    have loops : (∃ left, overlapLoop base (base + length)
          (2 * entries.length + memmapMaxEntries + 1) [] entries = .ok left) ∨
        overlapLoop base (base + length) (2 * entries.length + memmapMaxEntries + 1) [] entries =
          .error (.panic "Memory map exhausted.") :=
      overlapLoop_ends range.bounds (fun _ => sound.proper) (by omega)
    rw [pmmNewEntry] at returns ⊢
    rcases loops with ⟨left, loop⟩ | failed
    · rw [loop] at returns ⊢
      dsimp only at returns ⊢
      split
      · rfl
      · next room =>
          rw [if_neg room] at returns
          exact absurd ⟨_, rfl⟩ returns
    · rw [failed]

end NewEntry

end ParanOS.Memmap

import Mathlib.Order.Interval.Finset.Nat
import ParanOS.Mm.ExtMem

/-! # Ranges of usable memory

`check_usable_memory` subtracts from the length of a range what each entry of real memory
has of it. The entries do not meet, so nothing is left exactly where they cover the range.
-/

namespace ParanOS.Memmap

open Foundation

/-! ## The code -/

/-- The table aligned to pages. No memory is handed out after it. -/
def getMemmap (memory : Memory) : Except Fault (List Entry × Memory) :=
  match pmmSanitiseEntries true memory.memmap with
  | .error fault => .error fault
  | .ok memmap => .ok (memmap, { memory with memmap, allocationsDisallowed := true })

def fullOverlapCheck (base1 top1 base2 top2 : UInt64) : Bool :=
  (base1 ≥ base2 ∧ base1 < top2) ∧ (top1 > base2 ∧ top1 ≤ top2)

/-- The types of real memory. -/
def isRam (type : UInt32) : Bool :=
  type = usable || type = bootloaderReclaimable || type = kernelAndModules

def usableLoop (base top : UInt64) : (overlapRemaining : UInt64) → List Entry → Bool
  | _, [] => false
  | overlapRemaining, entry :: rest =>
      if !isRam entry.type then usableLoop base top overlapRemaining rest
      else
        let memmapTop := entry.base + entry.length
        if fullOverlapCheck base top entry.base memmapTop then true
        else if (entry.base ≥ base ∧ entry.base < top) ∨ (memmapTop > base ∧ memmapTop ≤ top) then
          let overlapBottom := if entry.base ≥ base ∧ entry.base < top then entry.base else base
          let overlapTop := if memmapTop > base ∧ memmapTop ≤ top then memmapTop else top
          let remaining := overlapRemaining - (overlapTop - overlapBottom)
          if remaining = 0 then true else usableLoop base top remaining rest
        else usableLoop base top overlapRemaining rest

def checkUsableMemory (memory : Memory) (base top : UInt64) : Except Fault (Bool × Memory) :=
  match getMemmap memory with
  | .error fault => .error fault
  | .ok (entries, memory) => .ok (usableLoop base top (top - base) entries, memory)

/-! ## What is left of a range -/

/-- The addresses between two bounds around which there is no region. -/
def uncovered {κ : Type} (low high : Nat) (regions : List (Region Nat κ)) : Finset Nat :=
  (Finset.Ico low high).filter fun address => ∀ region ∈ regions, ¬ region.Covers address

section Uncovered

variable {κ : Type} {low high : Nat} {regions : List (Region Nat κ)} {region : Region Nat κ}

theorem mem_uncovered {address : Nat} : address ∈ uncovered low high regions ↔
    (low ≤ address ∧ address < high) ∧ ∀ region ∈ regions, ¬ region.Covers address := by
  rw [uncovered, Finset.mem_filter, Finset.mem_Ico]

theorem uncovered_nil : uncovered low high ([] : List (Region Nat κ)) = Finset.Ico low high := by
  ext address
  rw [mem_uncovered, Finset.mem_Ico]
  exact ⟨fun both => both.1, fun range => ⟨range, fun _ member => absurd member List.not_mem_nil⟩⟩

/-- A region that meets no other takes away what it has of the range. -/
theorem card_uncovered (low high : Nat) (apart : ∀ other ∈ regions, region.Apart other) :
    (uncovered low high (region :: regions)).card +
      (min high region.high - max low region.low) = (uncovered low high regions).card := by
  have inside : Finset.Ico (max low region.low) (min high region.high) ⊆
      uncovered low high regions := by
    intro address member
    rcases Finset.mem_Ico.mp member with ⟨above, below⟩
    rw [mem_uncovered]
    refine ⟨⟨by omega, by omega⟩, fun other otherIn => ?_⟩
    exact apart other otherIn address ⟨by omega, by omega⟩
  have rest : uncovered low high (region :: regions) =
      uncovered low high regions \ Finset.Ico (max low region.low) (min high region.high) := by
    ext address
    rw [Finset.mem_sdiff, mem_uncovered, mem_uncovered, Finset.mem_Ico]
    constructor
    · rintro ⟨range, outside⟩
      refine ⟨⟨range, fun other member => outside other (List.mem_cons_of_mem _ member)⟩, ?_⟩
      rintro ⟨above, below⟩
      exact outside region List.mem_cons_self ⟨by omega, by omega⟩
    · rintro ⟨⟨range, others⟩, outside⟩
      refine ⟨range, fun other member => ?_⟩
      rcases List.mem_cons.mp member with rfl | old
      · rintro ⟨above, below⟩
        exact outside ⟨by omega, by omega⟩
      · exact others other old
  rw [rest, ← Nat.card_Ico]
  exact Finset.card_sdiff_add_card_eq_card inside

end Uncovered

/-! ## The check -/

/-- What one entry of real memory takes off the rest of the range. -/
theorem usableLoop_overlap {base top : UInt64} {entry : Entry} (proper : entry.Proper)
    (ordered : base.toNat < top.toNat)
    (partly : ¬ fullOverlapCheck base top entry.base (entry.base + entry.length)) :
    ((entry.base ≥ base ∧ entry.base < top) ∨
        (entry.base + entry.length > base ∧ entry.base + entry.length ≤ top)) ∧
      ((if entry.base + entry.length > base ∧ entry.base + entry.length ≤ top then
          entry.base + entry.length else top) -
        (if entry.base ≥ base ∧ entry.base < top then entry.base else base)).toNat =
        min top.toNat entry.region.high - max base.toNat entry.region.low ∨
    ¬ ((entry.base ≥ base ∧ entry.base < top) ∨
        (entry.base + entry.length > base ∧ entry.base + entry.length ≤ top)) ∧
      min top.toNat entry.region.high - max base.toNat entry.region.low = 0 := by
  have full := proper.full
  have high := proper.toNat_top
  generalize entry.base + entry.length = memmapTop at high partly ⊢
  rw [Entry.region_low, Entry.region_high, ← high]
  have starts : entry.base ≥ base ∧ entry.base < top ↔
      base.toNat ≤ entry.base.toNat ∧ entry.base.toNat < top.toNat := by
    rw [ge_iff_le, UInt64.le_iff_toNat_le, UInt64.lt_iff_toNat_lt]
  have ends : memmapTop > base ∧ memmapTop ≤ top ↔
      base.toNat < memmapTop.toNat ∧ memmapTop.toNat ≤ top.toNat := by
    rw [gt_iff_lt, UInt64.lt_iff_toNat_lt, UInt64.le_iff_toNat_le]
  have outside : ¬ ((entry.base.toNat ≤ base.toNat ∧ base.toNat < memmapTop.toNat) ∧
      (entry.base.toNat < top.toNat ∧ top.toNat ≤ memmapTop.toNat)) := by
    rw [fullOverlapCheck, decide_eq_true_eq, ge_iff_le, gt_iff_lt, UInt64.le_iff_toNat_le,
      UInt64.lt_iff_toNat_lt, UInt64.lt_iff_toNat_lt, UInt64.le_iff_toNat_le] at partly
    exact partly
  by_cases below : entry.base ≥ base ∧ entry.base < top
  · left
    refine ⟨Or.inl below, ?_⟩
    rw [if_pos below]
    rw [starts] at below
    split
    · next above =>
        rw [ends] at above
        rw [UInt64.toNat_sub_of_le _ _ (UInt64.le_iff_toNat_le.mpr (by omega))]
        omega
    · next above =>
        rw [ends] at above
        rw [UInt64.toNat_sub_of_le _ _ (UInt64.le_iff_toNat_le.mpr (by omega))]
        omega
  · rw [if_neg below]
    by_cases above : memmapTop > base ∧ memmapTop ≤ top
    · left
      refine ⟨Or.inr above, ?_⟩
      rw [if_pos above]
      rw [starts] at below
      rw [ends] at above
      rw [UInt64.toNat_sub_of_le _ _ (UInt64.le_iff_toNat_le.mpr (by omega))]
      omega
    · right
      refine ⟨fun either => either.elim below above, ?_⟩
      rw [starts] at below
      rw [ends] at above
      omega

/-- The regions of real memory. -/
def ramRegions (entries : List Entry) : List (Region Nat UInt32) :=
  regions (entries.filter fun entry => isRam entry.type)

/-- The loop finds out whether the entries seen and those to come cover the range. -/
theorem usableLoop_iff {base top remaining : UInt64} {entries : List Entry}
    {seen : List (Region Nat UInt32)} (ordered : base.toNat < top.toNat)
    (proper : ∀ entry ∈ entries, entry.Proper)
    (tiles : Region.Tiles (seen ++ regions entries))
    (rest : remaining.toNat = (uncovered base.toNat top.toNat seen).card)
    (some : remaining ≠ 0) :
    usableLoop base top remaining entries = true ↔
      ∀ address, base.toNat ≤ address → address < top.toNat →
        ∃ region ∈ seen ++ ramRegions entries, region.Covers address := by
  induction entries generalizing remaining seen with
  | nil =>
      rw [usableLoop]
      constructor
      · intro absurd
        simp at absurd
      · intro covers
        have left : 0 < (uncovered base.toNat top.toNat seen).card := by
          rw [← rest]
          exact Nat.pos_of_ne_zero fun zero => some (UInt64.toNat_inj.mp zero)
        rcases Finset.card_pos.mp left with ⟨address, member⟩
        rw [mem_uncovered] at member
        rcases covers address member.1.1 member.1.2 with ⟨region, regionIn, around⟩
        rw [ramRegions, List.filter_nil, regions_nil, List.append_nil] at regionIn
        exact absurd around (member.2 region regionIn)
  | cons entry entries induction =>
      have entryProper := proper entry List.mem_cons_self
      have others : ∀ other ∈ entries, other.Proper :=
        fun other member => proper other (List.mem_cons_of_mem _ member)
      rw [usableLoop]
      by_cases ram : isRam entry.type = true
      · have shape : ramRegions (entry :: entries) = entry.region :: ramRegions entries := by
          rw [ramRegions, List.filter_cons_of_pos (by simpa using ram), regions_cons, ramRegions]
        have nextTiles : Region.Tiles ((entry.region :: seen) ++ regions entries) :=
          tiles.perm List.perm_middle
        have apart : ∀ other ∈ seen, entry.region.Apart other := fun other member =>
          (List.pairwise_cons.mp nextTiles.apart).1 other (List.mem_append_left _ member)
        have card := card_uncovered base.toNat top.toNat apart
        have order : ∀ region, region ∈ seen ++ ramRegions (entry :: entries) ↔
            region ∈ (entry.region :: seen) ++ ramRegions entries := by
          intro region
          rw [shape]
          exact List.perm_middle.mem_iff
        rw [if_neg (by simp [ram])]
        simp only [order]
        split
        · next full =>
            rw [fullOverlapCheck, decide_eq_true_eq, ge_iff_le, gt_iff_lt, UInt64.le_iff_toNat_le,
              UInt64.lt_iff_toNat_lt, UInt64.lt_iff_toNat_lt, UInt64.le_iff_toNat_le,
              entryProper.toNat_top] at full
            refine ⟨fun _ address above below => ⟨entry.region, List.mem_cons_self, ?_, ?_⟩,
              fun _ => rfl⟩
            · rw [Entry.region_low]
              omega
            · rw [Entry.region_high]
              omega
        · next partly =>
            rcases usableLoop_overlap entryProper ordered partly with
              ⟨meets, overlap⟩ | ⟨distant, nothing⟩
            · rw [if_pos meets]
              generalize (if entry.base + entry.length > base ∧ entry.base + entry.length ≤ top
                then entry.base + entry.length else top) -
                (if entry.base ≥ base ∧ entry.base < top then entry.base else base) = size
                at overlap ⊢
              have left : (remaining - size).toNat =
                  (uncovered base.toNat top.toNat (entry.region :: seen)).card := by
                rw [UInt64.toNat_sub_of_le _ _ (UInt64.le_iff_toNat_le.mpr (by omega))]
                omega
              split
              · next none =>
                  refine ⟨fun _ address above below => ?_, fun _ => rfl⟩
                  rw [none] at left
                  have empty := Finset.card_eq_zero.mp left.symm
                  by_contra bare
                  have member : address ∈
                      uncovered base.toNat top.toNat (entry.region :: seen) := by
                    rw [mem_uncovered]
                    exact ⟨⟨above, below⟩, fun region regionIn around =>
                      bare ⟨region, List.mem_append_left _ regionIn, around⟩⟩
                  rw [empty] at member
                  exact absurd member (Finset.notMem_empty _)
              · next more => exact induction others nextTiles left more
            · rw [if_neg distant]
              exact induction others nextTiles (by omega) some
      · have shape : ramRegions (entry :: entries) = ramRegions entries := by
          rw [ramRegions, List.filter_cons_of_neg (by simpa using ram), ramRegions]
        rw [if_pos (by simp [ram]), shape]
        exact induction others
          (tiles.sublist ((List.sublist_cons_self _ _).append_left _)) rest some

theorem mem_ramRegions {entries : List Entry} (sound : Sound entries) {address : Nat} :
    (∃ region ∈ ramRegions entries, region.Covers address) ↔
      ∃ kind, kinds entries address = some kind ∧ isRam kind = true := by
  constructor
  · rintro ⟨region, member, covers⟩
    rcases List.mem_map.mp member with ⟨entry, entryIn, rfl⟩
    rcases List.mem_filter.mp entryIn with ⟨inside, ram⟩
    exact ⟨entry.type, sound.tiles.kindAt_eq_some.mpr
      ⟨entry.region, List.mem_map_of_mem inside, covers, rfl⟩, ram⟩
  · rintro ⟨kind, found, ram⟩
    rcases sound.tiles.kindAt_eq_some.mp found with ⟨region, member, covers, same⟩
    rcases List.mem_map.mp member with ⟨entry, entryIn, rfl⟩
    rw [← same] at ram
    exact ⟨entry.region, List.mem_map_of_mem (List.mem_filter.mpr ⟨entryIn, ram⟩), covers⟩

/-- A range counts as usable exactly where each of its addresses is in memory of the loader or
the kernel, or in a whole page of a usable entry behind the first page. No memory is handed
out after the check. -/
theorem checkUsableMemory_iff {memory after : Memory} {base top : UInt64} {answer : Bool}
    (sound : Sound memory.memmap) (ordered : base < top)
    (run : checkUsableMemory memory base top = .ok (answer, after)) :
    after.allocationsDisallowed = true ∧
      (answer = true ↔ ∀ address, base.toNat ≤ address → address < top.toNat →
        ∃ entry ∈ memory.memmap, entry.region.Covers address ∧
          (entry.type = bootloaderReclaimable ∨ entry.type = kernelAndModules ∨
            entry.type = usable ∧ 0x1000 ≤ address ∧ entry.HasPage address)) := by
  rw [UInt64.lt_iff_toNat_lt] at ordered
  rw [checkUsableMemory] at run
  split at run
  · simp at run
  · next entries aligned gets =>
      rw [Except.ok.injEq, Prod.mk.injEq] at run
      rw [getMemmap] at gets
      split at gets
      · simp at gets
      · next table tidy =>
          rw [Except.ok.injEq, Prod.mk.injEq] at gets
          rcases gets with ⟨rfl, rfl⟩
          rw [← run.1, ← run.2]
          refine ⟨rfl, ?_⟩
          rcases pmmSanitiseEntries_spec true sound with
            ⟨result, ran, settled, _, types⟩ | ⟨failed, _⟩
          · rw [tidy, Except.ok.injEq] at ran
            subst ran
            have rest : (top - base).toNat = (uncovered base.toNat top.toNat
                ([] : List (Region Nat UInt32))).card := by
              rw [uncovered_nil, Nat.card_Ico]
              exact UInt64.toNat_sub_of_le _ _ (UInt64.le_iff_toNat_le.mpr ordered.le)
            have some : top - base ≠ 0 := by
              intro zero
              have length := UInt64.toNat_sub_of_le top base
                (UInt64.le_iff_toNat_le.mpr ordered.le)
              rw [zero] at length
              change 0 = _ at length
              omega
            rw [usableLoop_iff ordered (fun _ => settled.toSound.proper) settled.tiles rest some]
            simp only [List.nil_append, mem_ramRegions settled.toSound, types]
            refine forall_congr' fun address => forall_congr' fun _ => forall_congr' fun _ => ?_
            constructor
            · rintro ⟨kind, ⟨entry, member, covers, rfl, keeps⟩, ram⟩
              refine ⟨entry, member, covers, ?_⟩
              rw [isRam, Bool.or_eq_true, Bool.or_eq_true, decide_eq_true_eq, decide_eq_true_eq,
                decide_eq_true_eq] at ram
              rcases ram with (free | loader) | kernel
              · exact Or.inr (Or.inr ⟨free, (keeps free).1, (keeps free).2 rfl⟩)
              · exact Or.inl loader
              · exact Or.inr (Or.inl kernel)
            · rintro ⟨entry, member, covers, kinds⟩
              refine ⟨entry.type, ⟨entry, member, covers, rfl, ?_⟩, ?_⟩
              · intro free
                rcases kinds with loader | kernel | ⟨_, above, page⟩
                · exact absurd (loader.symm.trans free) (by decide)
                · exact absurd (kernel.symm.trans free) (by decide)
                · exact ⟨above, fun _ => page⟩
              · rw [isRam, Bool.or_eq_true, Bool.or_eq_true, decide_eq_true_eq,
                  decide_eq_true_eq, decide_eq_true_eq]
                rcases kinds with loader | kernel | ⟨free, _⟩
                · exact Or.inl (Or.inr loader)
                · exact Or.inr kernel
                · exact Or.inl (Or.inl free)
          · rw [tidy] at failed
            simp at failed

/-- Two entries that touch, of the loader and usable, and a range that lies in both. -/
theorem checkUsableMemory_iff_small : ∃ after,
    checkUsableMemory ⟨[Entry.mk 0x8000 0x1000 0x1000, Entry.mk 0x9000 0x2000 1], fun _ => 0,
      false, 0x1000⟩ 0x8800 0x9800 = .ok (true, after) ∧
    ∀ address, 0x8800 ≤ address → address < 0x9800 →
      ∃ entry ∈ [Entry.mk 0x8000 0x1000 0x1000, Entry.mk 0x9000 0x2000 1],
        entry.region.Covers address ∧ (entry.type = bootloaderReclaimable ∨
          entry.type = kernelAndModules ∨
          entry.type = usable ∧ 0x1000 ≤ address ∧ entry.HasPage address) := by
  have settled : Settled [Entry.mk 0x8000 0x1000 0x1000, Entry.mk 0x9000 0x2000 1] := by
    apply Settled.of_entries
    · unfold Region.Ordered
      decide
    · decide
    · decide
    · unfold Region.Maximal
      decide
    · decide
  have run : ∃ after, checkUsableMemory ⟨[Entry.mk 0x8000 0x1000 0x1000,
      Entry.mk 0x9000 0x2000 1], fun _ => 0, false, 0x1000⟩ 0x8800 0x9800 =
        .ok (true, after) := ⟨_, rfl⟩
  rcases run with ⟨after, run⟩
  exact ⟨after, run, (checkUsableMemory_iff settled.toSound (by decide) run).2.mp rfl⟩

end ParanOS.Memmap

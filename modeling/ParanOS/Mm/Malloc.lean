import Mathlib.Data.List.Pairwise
import ParanOS.Mm.Vmm

/-! # Blocks from single pages

`malloc` of `kmalloc.c` asks the boot allocator for as many single pages as a
block needs and returns the first of them. The boot allocator takes pages from
the top of the usable memory downwards, so the other pages of a block lie below
the first one and not behind it.
-/

namespace ParanOS

open Foundation

/-! ## The code -/

/-- The result of a call, and the pages that it has obtained. -/
structure Malloced where
  ptr : Nat
  pages : List Nat
  deriving DecidableEq

/-- The loop of `malloc` from page `i` on, `count` pages. A boot allocator that is out of
memory does not return. -/
def mallocLoop {σ : Type} (extMemAlloc : σ → Option (Nat × σ)) :
    (count i block : Nat) → List Nat → σ → Option (Malloced × σ)
  | 0, _, block, pages, s => some (⟨block, pages⟩, s)
  | count + 1, i, block, pages, s =>
      match extMemAlloc s with
      | none => none
      | some (p, s') =>
          if p = 0 then some (⟨0, pages⟩, s')
          else mallocLoop extMemAlloc count (i + 1) (if i = 0 then p else block) (pages ++ [p]) s'

/-- `pages` of `malloc`. -/
def mallocPages (size : Nat) : Nat := u64 (size + 4095) / 4096

def malloc {σ : Type} (extMemAlloc : σ → Option (Nat × σ)) (size : Nat) (s : σ) :
    Option (Malloced × σ) :=
  mallocLoop extMemAlloc (mallocPages size) 0 0 [] s

/-- A call with its size and result. -/
structure MallocBlock where
  size : Nat
  got : Malloced
  deriving DecidableEq

/-- Calls one after another. -/
def mallocAll {σ : Type} (extMemAlloc : σ → Option (Nat × σ)) :
    List Nat → σ → Option (List MallocBlock × σ)
  | [], s => some ([], s)
  | size :: sizes, s =>
      match malloc extMemAlloc size s with
      | none => none
      | some (got, s') =>
          match mallocAll extMemAlloc sizes s' with
          | none => none
          | some (blocks, s'') => some (⟨size, got⟩ :: blocks, s'')

/-! ## Owned blocks -/

/-- Every byte of the block lies in a page that the call has obtained. -/
def MallocBlock.Owned (block : MallocBlock) : Prop :=
  block.got.ptr ≠ 0 → ∀ address, block.got.ptr ≤ address →
    address < block.got.ptr + block.size →
    ∃ page ∈ block.got.pages, page ≤ address ∧ address < page + 4096

def MallocBlock.Apart (block other : MallocBlock) : Prop :=
  block.got.ptr ≠ 0 → other.got.ptr ≠ 0 →
    block.got.ptr + block.size ≤ other.got.ptr ∨ other.got.ptr + other.size ≤ block.got.ptr

/-- All blocks are owned, and no two of them overlap. -/
structure MallocSafe (blocks : List MallocBlock) : Prop where
  owned : ∀ block ∈ blocks, block.Owned
  apart : blocks.Pairwise MallocBlock.Apart

/-- A size for which `malloc` asks for one page at most: a page or less, or so much that
the number of pages wraps to none. -/
def OnePage (size : Nat) : Prop := size ≤ 4096 ∨ 2 ^ 64 - 4095 ≤ size

instance (size : Nat) : Decidable (OnePage size) :=
  inferInstanceAs (Decidable (_ ∨ _))

/-! ## An allocator that goes downwards -/

/-- Pages are handed out once each, from a ceiling downwards. -/
structure TopDown {σ : Type} (extMemAlloc : σ → Option (Nat × σ)) (ceiling : σ → Nat) :
    Prop where
  nonzero : ∀ {s p s'}, extMemAlloc s = some (p, s') → p ≠ 0
  below : ∀ {s p s'}, extMemAlloc s = some (p, s') → p + 4096 ≤ ceiling s
  falls : ∀ {s p s'}, extMemAlloc s = some (p, s') → ceiling s' ≤ p

/-- Pages below each other, between a top and a bottom. -/
inductive Descending : (top : Nat) → List Nat → (bottom : Nat) → Prop
  | nil {top bottom} : bottom ≤ top → Descending top [] bottom
  | cons {top page pages bottom} : page ≠ 0 → page + 4096 ≤ top →
      Descending page pages bottom → Descending top (page :: pages) bottom

namespace Descending

variable {top bottom : Nat} {pages : List Nat} (descending : Descending top pages bottom)
include descending

theorem bottom_le : bottom ≤ top := by
  induction descending with
  | nil ordered => exact ordered
  | cons _ below _ induction => omega

theorem page_below {page : Nat} (member : page ∈ pages) : page + 4096 ≤ top := by
  induction descending with
  | nil _ => simp at member
  | cons _ below _ induction =>
      cases List.mem_cons.mp member with
      | inl same => omega
      | inr later =>
          have next := induction later
          omega

theorem raise {top' : Nat} (above : top ≤ top') : Descending top' pages bottom := by
  cases descending with
  | nil ordered => exact .nil (ordered.trans above)
  | cons nonzero below rest => exact .cons nonzero (below.trans above) rest

end Descending

section

variable {σ : Type} {extMemAlloc : σ → Option (Nat × σ)} {ceiling : σ → Nat}
  (topDown : TopDown extMemAlloc ceiling)
include topDown

/-- The loop obtains pages below each other and keeps the first of them. -/
theorem TopDown.mallocLoop {count i block : Nat} {pages : List Nat} {s s' : σ} {got : Malloced}
    (ran : mallocLoop extMemAlloc count i block pages s = some (got, s')) :
    ∃ obtained, obtained.length = count ∧ Descending (ceiling s) obtained (ceiling s') ∧
      got = ⟨if i = 0 then obtained.headD block else block, pages ++ obtained⟩ := by
  induction count generalizing i block pages s with
  | zero =>
      simp only [ParanOS.mallocLoop, Option.some.injEq, Prod.mk.injEq] at ran
      rcases ran with ⟨rfl, rfl⟩
      exact ⟨[], rfl, .nil (Nat.le_refl _), by simp⟩
  | succ count induction =>
      cases served : extMemAlloc s with
      | none => simp [ParanOS.mallocLoop, served] at ran
      | some result =>
          rcases result with ⟨p, middle⟩
          have nonzero := topDown.nonzero served
          simp only [ParanOS.mallocLoop, served, nonzero, if_false] at ran
          rcases induction ran with ⟨obtained, length, descending, same⟩
          refine ⟨p :: obtained, by simp [length], ?_, ?_⟩
          · exact .cons nonzero (topDown.below served) (descending.raise (topDown.falls served))
          · rw [same, if_neg (Nat.succ_ne_zero i), List.headD_cons, List.append_assoc]
            rfl

theorem TopDown.malloc {size : Nat} {s s' : σ} {got : Malloced}
    (ran : malloc extMemAlloc size s = some (got, s')) :
    got.pages.length = mallocPages size ∧ Descending (ceiling s) got.pages (ceiling s') ∧
      got.ptr = got.pages.headD 0 := by
  rcases topDown.mallocLoop ran with ⟨obtained, length, descending, rfl⟩
  exact ⟨length, descending, by simp⟩

omit topDown in
theorem onePage_iff {size : Nat} (nonempty : 1 ≤ size) (bounded : size < 2 ^ 64) :
    OnePage size ↔ mallocPages size ≤ 1 := by
  simp only [OnePage, mallocPages, u64]
  omega

/-- A block in one page is owned, and lies between the ceilings. -/
theorem TopDown.malloc_onePage {size : Nat} {s s' : σ} {got : Malloced} (nonempty : 1 ≤ size)
    (bounded : size < 2 ^ 64) (one : OnePage size)
    (ran : ParanOS.malloc extMemAlloc size s = some (got, s')) :
    MallocBlock.Owned ⟨size, got⟩ ∧
      (got.ptr ≠ 0 → got.ptr + size ≤ ceiling s ∧ ceiling s' ≤ got.ptr) := by
  rcases topDown.malloc ran with ⟨length, descending, first⟩
  have pages := (onePage_iff nonempty bounded).mp one
  cases obtained : got.pages with
  | nil =>
      have none : got.ptr = 0 := by rw [first, obtained]; rfl
      exact ⟨fun some => absurd none some, fun some => absurd none some⟩
  | cons page rest =>
      have start : got.ptr = page := by rw [first, obtained]; rfl
      have last : rest = [] := by
        rw [obtained, List.length_cons] at length
        exact List.length_eq_zero_iff.mp (by omega)
      have single : mallocPages size = 1 := by rw [← length, obtained, last]; rfl
      have small : size ≤ 4096 := by
        simp only [mallocPages, u64] at single
        omega
      rw [obtained] at descending
      cases descending with
      | cons _ below further =>
          have bottom := further.bottom_le
          constructor
          · intro _ address lower upper
            refine ⟨page, by simp [obtained], ?_⟩
            simp only at lower upper
            omega
          · intro _
            omega

/-- A block of more pages is not. -/
theorem TopDown.malloc_not_owned {size : Nat} {s s' : σ} {got : Malloced} (nonempty : 1 ≤ size)
    (bounded : size < 2 ^ 64) (more : ¬ OnePage size)
    (ran : ParanOS.malloc extMemAlloc size s = some (got, s')) :
    ¬ MallocBlock.Owned ⟨size, got⟩ := by
  rcases topDown.malloc ran with ⟨length, descending, first⟩
  have pages := (onePage_iff nonempty bounded).not.mp more
  have large : 4096 < size := by
    by_contra small
    exact more (.inl (by omega))
  cases obtained : got.pages with
  | nil => rw [← length, obtained] at pages; simp at pages
  | cons page rest =>
      have start : got.ptr = page := by rw [first, obtained]; rfl
      rw [obtained] at descending
      cases descending with
      | cons nonzero _ further =>
          intro owned
          -- the byte behind the first page
          rcases owned (by rw [start]; exact nonzero) (page + 4096) (by simp only; omega)
            (by simp only; omega) with ⟨other, member, lower, upper⟩
          simp only [obtained] at member
          cases List.mem_cons.mp member with
          | inl same => omega
          | inr later =>
              have below := further.page_below later
              omega

omit topDown in
theorem of_mallocAll_cons {size : Nat} {sizes : List Nat} {s s' : σ} {blocks : List MallocBlock}
    (ran : mallocAll extMemAlloc (size :: sizes) s = some (blocks, s')) :
    ∃ got middle rest, malloc extMemAlloc size s = some (got, middle) ∧
      mallocAll extMemAlloc sizes middle = some (rest, s') ∧ blocks = ⟨size, got⟩ :: rest := by
  cases first : malloc extMemAlloc size s with
  | none => simp [mallocAll, first] at ran
  | some result =>
      rcases result with ⟨got, middle⟩
      cases others : mallocAll extMemAlloc sizes middle with
      | none => simp [mallocAll, first, others] at ran
      | some result =>
          rcases result with ⟨rest, last⟩
          simp only [mallocAll, first, others, Option.some.injEq, Prod.mk.injEq] at ran
          exact ⟨got, middle, rest, rfl, by rw [others, ran.2], ran.1.symm⟩

/-- Blocks in one page each are safe and lie below the first ceiling. -/
theorem TopDown.mallocAll_safe {sizes : List Nat} {s s' : σ} {blocks : List MallocBlock}
    (domain : ∀ size ∈ sizes, 1 ≤ size ∧ size < 2 ^ 64) (one : ∀ size ∈ sizes, OnePage size)
    (ran : mallocAll extMemAlloc sizes s = some (blocks, s')) :
    MallocSafe blocks ∧
      ∀ block ∈ blocks, block.got.ptr ≠ 0 → block.got.ptr + block.size ≤ ceiling s := by
  induction sizes generalizing s blocks with
  | nil =>
      simp only [mallocAll, Option.some.injEq, Prod.mk.injEq] at ran
      rw [← ran.1]
      exact ⟨⟨by simp, .nil⟩, by simp⟩
  | cons size sizes induction =>
      rcases of_mallocAll_cons ran with ⟨got, middle, rest, first, others, rfl⟩
      have range := domain size (by simp)
      have head := topDown.malloc_onePage range.1 range.2 (one size (by simp)) first
      have tail := induction (fun other member => domain other (by simp [member]))
        (fun other member => one other (by simp [member])) others
      have fell := (topDown.malloc first).2.1.bottom_le
      refine ⟨⟨?_, ?_⟩, ?_⟩
      · intro block member
        cases List.mem_cons.mp member with
        | inl same => exact same ▸ head.1
        | inr later => exact tail.1.owned block later
      · apply List.pairwise_cons.mpr
        refine ⟨?_, tail.1.apart⟩
        intro other member some otherSome
        have lower := tail.2 other member otherSome
        have upper := (head.2 some).2
        right
        simp only at upper ⊢
        omega
      · intro block member some
        cases List.mem_cons.mp member with
        | inl same =>
            subst same
            exact (head.2 some).1
        | inr later =>
            have lower := tail.2 block later some
            omega

/-- A sequence of calls is safe exactly when each asks for one page at most. -/
theorem mallocAll_safe_iff {sizes : List Nat} {s s' : σ} {blocks : List MallocBlock}
    (domain : ∀ size ∈ sizes, 1 ≤ size ∧ size < 2 ^ 64)
    (ran : mallocAll extMemAlloc sizes s = some (blocks, s')) :
    MallocSafe blocks ↔ ∀ size ∈ sizes, OnePage size := by
  constructor
  · intro safe
    have owned := safe.owned
    clear safe
    induction sizes generalizing s blocks with
    | nil => simp
    | cons size sizes induction =>
        rcases of_mallocAll_cons ran with ⟨got, middle, rest, first, others, rfl⟩
        have range := domain size (by simp)
        intro other member
        cases List.mem_cons.mp member with
        | inl same =>
            subst same
            by_contra more
            exact topDown.malloc_not_owned range.1 range.2 more first (owned _ (by simp))
        | inr later =>
            exact induction (fun other member => domain other (by simp [member])) others
              (fun block member => owned block (by simp [member])) other later
  · exact fun one => (topDown.mallocAll_safe domain one ran).1

end

/-! ## The boot allocator -/

/-- A usable entry of the boot memory map. -/
structure UsableRange where
  base : Nat
  top : Nat
  deriving DecidableEq

/-- `ext_mem_alloc(4096)` on the usable entries, the highest first: the entry is cut at
4 GiB, and too small ones are passed over. What is handed out stops being usable, up to
the end of the entry or to 4 GiB. -/
def takeTop : List UsableRange → Option (Nat × List UsableRange)
  | [] => none
  | entry :: rest =>
      let top := min entry.top 0x100000000
      let allocBase := (top - 4096) / 4096 * 4096
      if 4096 ≤ top ∧ entry.base ≤ allocBase then
        let above := if 0x100000000 < entry.top then [⟨0x100000000, entry.top⟩] else []
        some (allocBase, above ++ ⟨entry.base, allocBase⟩ :: rest)
      else (takeTop rest).map fun result => (result.1, entry :: result.2)

/-- Usable entries, the highest first, that do not overlap and leave out the first page of
memory. -/
structure UsableMap where
  entries : List UsableRange
  ordered : entries.Pairwise fun high low => low.top ≤ high.base
  sized : ∀ entry ∈ entries, 4096 ≤ entry.base ∧ entry.base ≤ entry.top

/-- A page comes from one of the entries, below 4 GiB. -/
theorem takeTop_inside {entries rest : List UsableRange} {p : Nat}
    (taken : takeTop entries = some (p, rest)) :
    ∃ entry ∈ entries, entry.base ≤ p ∧ p + 4096 ≤ min entry.top 0x100000000 := by
  induction entries generalizing rest with
  | nil => simp [takeTop] at taken
  | cons entry others induction =>
      simp only [takeTop] at taken
      split at taken
      · next fits =>
          simp only [Option.some.injEq, Prod.mk.injEq] at taken
          refine ⟨entry, by simp, ?_⟩
          omega
      · rcases Option.map_eq_some_iff.mp taken with ⟨result, later, equal⟩
        simp only [Prod.mk.injEq] at equal
        have taken' : takeTop others = some (p, result.2) := by rw [later, ← equal.1]
        rcases induction taken' with ⟨found, member, inside⟩
        exact ⟨found, by simp [member], inside⟩

/-- The entries keep their order, below the same bound. -/
theorem takeTop_ordered {entries rest : List UsableRange} {p : Nat}
    (ordered : entries.Pairwise fun high low => low.top ≤ high.base)
    (sized : ∀ entry ∈ entries, 4096 ≤ entry.base ∧ entry.base ≤ entry.top)
    (taken : takeTop entries = some (p, rest)) :
    (rest.Pairwise fun high low => low.top ≤ high.base) ∧
      (∀ entry ∈ rest, 4096 ≤ entry.base ∧ entry.base ≤ entry.top) ∧
      ∀ bound, (∀ entry ∈ entries, entry.top ≤ bound) → ∀ entry ∈ rest, entry.top ≤ bound := by
  induction entries generalizing rest with
  | nil => simp [takeTop] at taken
  | cons entry others induction =>
      rcases List.pairwise_cons.mp ordered with ⟨below, ordered'⟩
      have size := sized entry (by simp)
      have sized' : ∀ other ∈ others, 4096 ≤ other.base ∧ other.base ≤ other.top :=
        fun other member => sized other (by simp [member])
      simp only [takeTop] at taken
      split at taken
      · next fits =>
          simp only [Option.some.injEq, Prod.mk.injEq] at taken
          rw [← taken.2]
          have room : (min entry.top 4294967296 - 4096) / 4096 * 4096 + 4096 ≤
              min entry.top 4294967296 := by
            have whole := fits.1
            omega
          generalize (min entry.top 4294967296 - 4096) / 4096 * 4096 = cut at fits room ⊢
          have shrunk : (⟨entry.base, cut⟩ :: others).Pairwise
              fun high low : UsableRange => low.top ≤ high.base :=
            List.pairwise_cons.mpr ⟨below, ordered'⟩
          by_cases beyond : 4294967296 < entry.top
          · simp only [beyond, if_true, List.singleton_append, List.pairwise_cons, List.mem_cons]
            refine ⟨⟨?_, below, ordered'⟩, ?_, ?_⟩
            · intro other member
              cases member with
              | inl same => rw [same]; simp only; omega
              | inr later =>
                  have lower := below other later
                  omega
            · intro other member
              rcases member with same | same | later
              · rw [same]; simp only; omega
              · rw [same]; exact ⟨size.1, fits.2⟩
              · exact sized' other later
            · intro bound bounded other member
              have first := bounded entry (.inl rfl)
              rcases member with same | same | later
              · rw [same]; exact first
              · rw [same]; simp only; omega
              · exact bounded other (.inr later)
          · simp only [beyond, if_false, List.nil_append, List.mem_cons]
            refine ⟨shrunk, ?_, ?_⟩
            · intro other member
              cases member with
              | inl same => rw [same]; exact ⟨size.1, fits.2⟩
              | inr later => exact sized' other later
            · intro bound bounded other member
              cases member with
              | inl same =>
                  have first := bounded entry (.inl rfl)
                  rw [same]
                  simp only
                  omega
              | inr later => exact bounded other (.inr later)
      · rcases Option.map_eq_some_iff.mp taken with ⟨result, later, equal⟩
        simp only [Prod.mk.injEq] at equal
        have taken' : takeTop others = some (p, result.2) := by rw [later, ← equal.1]
        rcases induction ordered' sized' taken' with
          ⟨kept, keptSized, keptBounds⟩
        rw [← equal.2]
        refine ⟨List.pairwise_cons.mpr ⟨keptBounds _ below, kept⟩, ?_, ?_⟩
        · intro other member
          cases List.mem_cons.mp member with
          | inl same => exact same ▸ size
          | inr inRest => exact keptSized other inRest
        · intro bound bounded other member
          cases List.mem_cons.mp member with
          | inl same => exact same ▸ bounded entry (by simp)
          | inr inRest =>
              exact keptBounds bound (fun other member => bounded other (by simp [member])) other
                inRest

/-- The next page lies below. -/
theorem takeTop_falls {entries rest rest' : List UsableRange} {p q : Nat}
    (ordered : entries.Pairwise fun high low => low.top ≤ high.base)
    (taken : takeTop entries = some (p, rest)) (again : takeTop rest = some (q, rest')) :
    q + 4096 ≤ p := by
  induction entries generalizing rest rest' with
  | nil => simp [takeTop] at taken
  | cons entry others induction =>
      rcases List.pairwise_cons.mp ordered with ⟨below, ordered'⟩
      simp only [takeTop] at taken
      split at taken
      · next fits =>
          simp only [Option.some.injEq, Prod.mk.injEq] at taken
          rcases takeTop_inside again with ⟨found, member, inside⟩
          rw [← taken.2, List.mem_append, List.mem_cons] at member
          rcases member with high | same | low
          · split at high
            · -- what is above 4 GiB is not handed out
              rw [List.mem_singleton.mp high] at inside
              simp only at inside
              omega
            · simp at high
          · rw [same] at inside
            simp only at inside
            omega
          · have order := below found low
            omega
      · next small =>
          rcases Option.map_eq_some_iff.mp taken with ⟨result, later, equal⟩
          simp only [Prod.mk.injEq] at equal
          rw [← equal.2] at again
          simp only [takeTop, small, if_false] at again
          rcases Option.map_eq_some_iff.mp again with ⟨result', later', equal'⟩
          simp only [Prod.mk.injEq] at equal'
          have taken' : takeTop others = some (p, result.2) := by rw [later, ← equal.1]
          have next : takeTop result.2 = some (q, result'.2) := by rw [later', ← equal'.1]
          exact induction ordered' taken' next

theorem takeTop_nonzero {entries rest : List UsableRange} {p : Nat}
    (sized : ∀ entry ∈ entries, 4096 ≤ entry.base ∧ entry.base ≤ entry.top)
    (taken : takeTop entries = some (p, rest)) : p ≠ 0 := by
  rcases takeTop_inside taken with ⟨entry, member, inside⟩
  have size := sized entry member
  omega

/-- `ext_mem_alloc(4096)`. It does not return when no entry has room. -/
def extMemAllocPage (map : UsableMap) : Option (Nat × UsableMap) :=
  match taken : takeTop map.entries with
  | none => none
  | some (p, rest) =>
      have kept := takeTop_ordered map.ordered map.sized taken
      some (p, ⟨rest, kept.1, kept.2.1⟩)

/-- The end of the page that comes next. -/
def UsableMap.ceiling (map : UsableMap) : Nat :=
  match takeTop map.entries with
  | none => 0
  | some (p, _) => p + 4096

theorem of_extMemAllocPage {map map' : UsableMap} {p : Nat}
    (served : extMemAllocPage map = some (p, map')) :
    takeTop map.entries = some (p, map'.entries) := by
  rw [extMemAllocPage] at served
  split at served
  · simp at served
  · next taken =>
      simp only [Option.some.injEq, Prod.mk.injEq] at served
      rcases served with ⟨rfl, rfl⟩
      exact taken

/-- The boot allocator goes downwards. -/
theorem extMemAllocPage_topDown : TopDown extMemAllocPage UsableMap.ceiling where
  nonzero := by
    intro map p map' served
    exact takeTop_nonzero map.sized (of_extMemAllocPage served)
  below := by
    intro map p map' served
    rw [UsableMap.ceiling, of_extMemAllocPage served]
  falls := by
    intro map p map' served
    rw [UsableMap.ceiling]
    cases again : takeTop map'.entries with
    | none => exact Nat.zero_le p
    | some result => exact takeTop_falls map.ordered (of_extMemAllocPage served) again

/-- Two usable ranges, one on both sides of 4 GiB. -/
def smallMap : UsableMap where
  entries := [⟨0xFFFFE000, 0x100008000⟩, ⟨0x100000, 0x108000⟩]
  ordered := by decide
  sized := by decide

theorem mallocAll_safe_small :
    ∃ blocks map, mallocAll extMemAllocPage [1, 4096, 2 ^ 64 - 1, 100] smallMap =
        some (blocks, map) ∧
      (MallocSafe blocks ↔ ∀ size ∈ [1, 4096, 2 ^ 64 - 1, 100], OnePage size) ∧
      MallocSafe blocks := by
  have returns : (mallocAll extMemAllocPage [1, 4096, 2 ^ 64 - 1, 100] smallMap).isSome =
      true := by
    decide +kernel
  rcases Option.isSome_iff_exists.mp returns with ⟨⟨blocks, map⟩, ran⟩
  have safe := mallocAll_safe_iff extMemAllocPage_topDown (by decide) ran
  exact ⟨blocks, map, ran, safe, safe.mpr (by decide)⟩

/-- Two pages are the upper and the lower half of what would be a block at the lower
one; the upper one is returned. -/
theorem mallocAll_unsafe :
    ¬ ∀ (σ : Type) (extMemAlloc : σ → Option (Nat × σ)) (ceiling : σ → Nat) (sizes : List Nat)
      (s s' : σ) (blocks : List MallocBlock), TopDown extMemAlloc ceiling →
      (∀ size ∈ sizes, 1 ≤ size ∧ size < 2 ^ 64) →
      mallocAll extMemAlloc sizes s = some (blocks, s') → MallocSafe blocks := by
  intro claim
  have returns : (mallocAll extMemAllocPage [8192] smallMap).map Prod.fst =
      some [⟨8192, ⟨0xFFFFF000, [0xFFFFF000, 0xFFFFE000]⟩⟩] := by
    decide +kernel
  rcases Option.map_eq_some_iff.mp returns with ⟨⟨blocks, map⟩, ran, same⟩
  have safe := claim UsableMap extMemAllocPage UsableMap.ceiling [8192] smallMap map blocks
    extMemAllocPage_topDown (by decide) ran
  simp only at same
  rw [same] at safe
  rcases safe.owned _ List.mem_cons_self (by decide) 0x100000000 (by decide) (by decide) with
    ⟨page, member, lower, upper⟩
  simp only [List.mem_cons, List.not_mem_nil, or_false] at member
  omega

end ParanOS

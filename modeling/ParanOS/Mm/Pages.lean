import ParanOS.Mm.Blocks
import ParanOS.Mm.Malloc

/-! # Pages from the memory map

`malloc` of `kmalloc.c` and the page tables take single pages from `ext_mem_alloc`. Over
the memory map these go downwards, each below all the ones before it, which is what is
assumed where the allocator is left open.
-/

namespace ParanOS.Memmap

open Foundation

/-- A memory with a tidied table. -/
structure SettledMemory where
  memory : Memory
  settled : Settled memory.memmap

theorem pageRequest : Request 4096 4096 := ⟨by decide, by decide, by decide⟩

theorem extMemAlloc_page {memory after : Memory} {base : UInt64}
    (settled : Settled memory.memmap) (run : extMemAlloc memory 4096 = .ok (base, after)) :
    Allocated memory after 4096 bootloaderReclaimable base (2 ^ 32) 4096 ∧
      ∀ other, Fits memory.memmap 4096 4096 (2 ^ 32) other → other ≤ base.toNat := by
  rcases extMemAlloc_allocated settled pageRequest run with ⟨allocated, _, highest⟩
  exact ⟨allocated, highest⟩

/-- `ext_mem_alloc` for one page. A call that panics does not return. -/
def takePage (memory : SettledMemory) : Option (Nat × SettledMemory) :=
  match run : extMemAlloc memory.memory 4096 with
  | .error _ => none
  | .ok (base, after) => some (base.toNat, ⟨after, (extMemAlloc_page memory.settled run).1.settled⟩)

theorem of_takePage {memory rest : SettledMemory} {page : Nat}
    (took : takePage memory = some (page, rest)) :
    ∃ base, extMemAlloc memory.memory 4096 = .ok (base, rest.memory) ∧ page = base.toNat := by
  rw [takePage] at took
  split at took
  · simp at took
  · next base after run =>
      rw [Option.some.injEq, Prod.mk.injEq] at took
      rcases took with ⟨rfl, rfl⟩
      exact ⟨base, run, rfl⟩

/-- The end of the page that is taken next. -/
def pageCeiling (memory : SettledMemory) : Nat :=
  ((takePage memory).map fun taken => taken.1 + 4096).getD 0

/-- What is usable after a page has been taken was usable before, and is not in the page. -/
theorem usable_before {memory after : Memory} {base : UInt64} (settled : Settled memory.memmap)
    (allocated : Allocated memory after 4096 bootloaderReclaimable base (2 ^ 32) 4096)
    {address : Nat} (usableNow : kinds after.memmap address = some usable) :
    kinds memory.memmap address = some usable ∧
      ¬ (base.toNat ≤ address ∧ address < base.toNat + 4096) := by
  rcases allocated.types with ⟨top, long, _, _, types⟩
  rw [types] at usableNow
  by_cases block : base.toNat ≤ address ∧ address < top
  · have other : bootloaderReclaimable ≠ usable := by decide
    rw [settle_paint_inside block fun same => absurd same other] at usableNow
    exact absurd (Option.some.inj usableNow) other
  · rw [settle_paint_outside block, settled.settle_kinds] at usableNow
    exact ⟨usableNow, fun inside => block ⟨inside.1, inside.2.trans_le long⟩⟩

end ParanOS.Memmap

import Mathlib.Data.Set.Insert

/-! # Walks behind a cache

A walk looks up the page of an address. The pages that walks have found may be kept in a
cache, which drops any of them at any time, and an access uses a page of the cache that
covers its address, or walks. Whoever changes what the walk finds invalidates an address:
the pages that cover it are dropped.
-/

namespace Foundation

variable {α κ : Type} (covers : κ → α → Prop) (walk : α → Option κ)

/-- The walk finds a page for all addresses that the page covers. -/
def Paged : Prop := ∀ address other page, walk address = some page → covers page other →
  walk other = some page

/-- The cache has only pages that the walk would find. -/
def UpToDate (cache : Set κ) : Prop :=
  ∀ page ∈ cache, ∀ address, covers page address → walk address = some page

/-- What the cache does on its own. -/
inductive Refill (cache : Set κ) : Set κ → Prop
  | fill {address page} : walk address = some page → Refill cache (insert page cache)
  | evict {fewer} : fewer ⊆ cache → Refill cache fewer

def invalidate (cache : Set κ) (address : α) : Set κ :=
  {page | page ∈ cache ∧ ¬ covers page address}

variable {covers walk} {cache cache' : Set κ}

namespace UpToDate

theorem empty : UpToDate covers walk ∅ := fun _ member => member.elim

theorem subset (upToDate : UpToDate covers walk cache) (fewer : cache' ⊆ cache) :
    UpToDate covers walk cache' :=
  fun page member => upToDate page (fewer member)

theorem refill (upToDate : UpToDate covers walk cache) (paged : Paged covers walk)
    (refilled : Refill walk cache cache') : UpToDate covers walk cache' := by
  cases refilled with
  | evict fewer => exact upToDate.subset fewer
  | @fill first _ found =>
      intro page member address covered
      rcases Set.mem_insert_iff.mp member with rfl | old
      · exact paged first address page found covered
      · exact upToDate page old address covered

/-- The walk may change at the pages of one address, if that address is invalidated. -/
theorem invalidate {walk' : α → Option κ} (upToDate : UpToDate covers walk cache) (address : α)
    (kept : ∀ other page, walk other = some page → ¬ covers page address →
      walk' other = some page) :
    UpToDate covers walk' (invalidate covers cache address) :=
  fun page member other covered =>
    kept other page (upToDate page member.1 other covered) member.2

end UpToDate

end Foundation

import Mathlib.Data.List.Pairwise
import Mathlib.Order.Lattice

/-! # Sorting in place by selection

One pass looks for the first of the least keys and exchanges its entry with the one in
front. Passes over ever shorter rests of the list sort it.
-/

namespace Foundation

variable {α β : Type} [LinearOrder β] (key : α → β)

/-- The index of the first of the least keys. `best` is the least one so far, `found`
its index, and `index` that of the first entry of the list. -/
def leastIndex : (best : β) → (found index : Nat) → List α → Nat
  | _, found, _, [] => found
  | best, found, index, entry :: rest =>
      if key entry < best then leastIndex (key entry) index (index + 1) rest
      else leastIndex best found (index + 1) rest

def exchange (entries : List α) (i j : Nat) : List α :=
  match entries[i]?, entries[j]? with
  | some first, some second => (entries.set i second).set j first
  | _, _ => entries

def selectionPass : List α → List α
  | [] => []
  | entry :: rest =>
      exchange (entry :: rest) 0 (leastIndex key (key entry) 0 0 (entry :: rest))

def selectionSort : (passes : Nat) → List α → List α
  | 0, entries => entries
  | passes + 1, entries =>
      match selectionPass key entries with
      | [] => []
      | least :: rest => least :: selectionSort passes rest

theorem exchange_perm (entries : List α) (i j : Nat) : (exchange entries i j).Perm entries := by
  rw [exchange]
  split
  · next first second left right =>
      rcases List.getElem?_eq_some_iff.mp left with ⟨iLt, rfl⟩
      rcases List.getElem?_eq_some_iff.mp right with ⟨jLt, rfl⟩
      exact List.set_set_perm iLt jLt
  · exact List.Perm.refl entries

variable {key}

theorem leastIndex_least {best : β} {found : Nat} {seen rest : List α} {entry : α}
    (here : (seen ++ rest)[found]? = some entry) (same : key entry = best)
    (least : ∀ other ∈ seen, best ≤ key other) :
    ∃ first, (seen ++ rest)[leastIndex key best found seen.length rest]? = some first ∧
      ∀ other ∈ seen ++ rest, key first ≤ key other := by
  induction rest generalizing best found seen entry with
  | nil =>
      refine ⟨entry, here, ?_⟩
      rw [List.append_nil]
      exact fun other member => same.le.trans (least other member)
  | cons next rest induction =>
      rw [leastIndex]
      have shift : seen ++ next :: rest = (seen ++ [next]) ++ rest := by simp
      have length : (seen ++ [next]).length = seen.length + 1 := by simp
      rw [shift] at here ⊢
      split
      · next smaller =>
          rw [← length]
          have front : (seen ++ [next] ++ rest)[seen.length]? = some next := by simp
          apply induction front rfl
          intro other member
          rcases List.mem_append.mp member with old | new
          · exact smaller.le.trans (least other old)
          · rw [List.mem_singleton.mp new]
      · next larger =>
          rw [← length]
          apply induction here same
          intro other member
          rcases List.mem_append.mp member with old | new
          · exact least other old
          · rw [List.mem_singleton.mp new]
            exact not_lt.mp larger

/-- Exchanging the first entry brings the other one to the front. -/
theorem exchange_front {entry other : α} {rest : List α} {index : Nat}
    (found : (entry :: rest)[index]? = some other) :
    ∃ others, exchange (entry :: rest) 0 index = other :: others := by
  rw [exchange, found]
  cases index with
  | zero =>
      rw [List.getElem?_cons_zero, Option.some.injEq] at found
      exact ⟨rest, by simp [found]⟩
  | succ index => exact ⟨rest.set index entry, rfl⟩

/-- A pass brings an entry with the least key to the front. -/
theorem selectionPass_cons (key : α → β) (entry : α) (rest : List α) :
    ∃ least others, selectionPass key (entry :: rest) = least :: others ∧
      (least :: others).Perm (entry :: rest) ∧ ∀ other ∈ others, key least ≤ key other := by
  have start : ([] ++ entry :: rest)[0]? = some entry := rfl
  have same : key entry = key entry := rfl
  rcases leastIndex_least start same (fun _ member => absurd member List.not_mem_nil) with
    ⟨least, found, first⟩
  rcases exchange_front found with ⟨others, shape⟩
  have order := exchange_perm (entry :: rest) 0 (leastIndex key (key entry) 0 0 (entry :: rest))
  rw [List.length_nil] at shape
  rw [shape] at order
  exact ⟨least, others, shape, order,
    fun other member => first other (order.subset (List.mem_cons_of_mem _ member))⟩

theorem selectionSort_perm (key : α → β) (passes : Nat) (entries : List α) :
    (selectionSort key passes entries).Perm entries := by
  induction passes generalizing entries with
  | zero => exact List.Perm.refl entries
  | succ passes induction =>
      cases entries with
      | nil => exact List.Perm.refl []
      | cons entry rest =>
          rcases selectionPass_cons key entry rest with ⟨least, others, shape, order, _⟩
          rw [selectionSort, shape]
          exact ((induction others).cons least).trans order

/-- One pass less than there are entries is enough. -/
theorem selectionSort_sorted (key : α → β) {passes : Nat} {entries : List α}
    (enough : entries.length ≤ passes + 1) :
    (selectionSort key passes entries).Pairwise fun first second => key first ≤ key second := by
  induction passes generalizing entries with
  | zero =>
      rw [selectionSort]
      cases entries with
      | nil => exact List.Pairwise.nil
      | cons entry rest =>
          rw [List.length_cons] at enough
          rw [List.length_eq_zero_iff.mp (Nat.le_zero.mp (Nat.le_of_succ_le_succ enough))]
          exact List.pairwise_singleton _ _
  | succ passes induction =>
      cases entries with
      | nil => exact List.Pairwise.nil
      | cons entry rest =>
          rcases selectionPass_cons key entry rest with ⟨least, others, shape, order, first⟩
          rw [selectionSort, shape]
          have length := order.length_eq
          rw [List.length_cons, List.length_cons] at length
          rw [List.length_cons] at enough
          refine List.pairwise_cons.mpr ⟨?_, induction (by omega)⟩
          intro other member
          exact first other ((selectionSort_perm key passes others).subset member)

end Foundation

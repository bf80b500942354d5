import Mathlib.Data.List.Basic
import Mathlib.Logic.Function.Basic

/-! # Values that are copied one after another

Copies inside one memory read what is there when their turn comes. If no copy reads where an
earlier one has written, that is what was there at the beginning: the copies may then be made
from a snapshot.
-/

namespace Foundation

/-- One value is copied from one address to another. -/
structure Copy (α : Type) where
  dst : α
  src : α
  deriving DecidableEq

namespace Copy

section

variable {α β : Type} [DecidableEq α]

/-- Copies inside one memory. -/
def run (copies : List (Copy α)) (memory : α → β) : α → β :=
  copies.foldl (fun memory copy => Function.update memory copy.dst (memory copy.src)) memory

/-- Copies from one memory to another. -/
def transfer (copies : List (Copy α)) (source target : α → β) : α → β :=
  copies.foldl (fun target copy => Function.update target copy.dst (source copy.src)) target

/-- No copy reads where an earlier one has written. -/
def Unspoiled (copies : List (Copy α)) : Prop :=
  copies.Pairwise fun earlier later => earlier.dst ≠ later.src

theorem run_eq_transfer_of_same {copies : List (Copy α)} (unspoiled : Unspoiled copies)
    {source memory : α → β} (same : ∀ copy ∈ copies, memory copy.src = source copy.src) :
    run copies memory = transfer copies source memory := by
  induction copies generalizing memory with
  | nil => rfl
  | cons copy rest induction =>
      rw [Unspoiled, List.pairwise_cons] at unspoiled
      have now := same copy List.mem_cons_self
      have later : ∀ other ∈ rest,
          Function.update memory copy.dst (source copy.src) other.src = source other.src := by
        intro other member
        rw [Function.update_of_ne (unspoiled.1 other member).symm]
        exact same other (List.mem_cons_of_mem copy member)
      rw [run, List.foldl_cons, now]
      exact induction unspoiled.2 later

/-- Copies of which none reads where an earlier one has written take all values from a
snapshot. -/
theorem run_eq_transfer {copies : List (Copy α)} (unspoiled : Unspoiled copies)
    (memory : α → β) : run copies memory = transfer copies memory memory :=
  run_eq_transfer_of_same unspoiled fun _ _ => rfl

/-- What no copy writes is unchanged. -/
theorem transfer_of_forall_ne {copies : List (Copy α)} {address : α}
    (outside : ∀ copy ∈ copies, copy.dst ≠ address) (source target : α → β) :
    transfer copies source target address = target address := by
  induction copies generalizing target with
  | nil => rfl
  | cons copy rest induction =>
      have elsewhere := outside copy List.mem_cons_self
      have later := induction fun other member => outside other (List.mem_cons_of_mem copy member)
      rw [transfer, List.foldl_cons]
      exact (later _).trans (Function.update_of_ne elsewhere.symm _ _)

/-- What is written, when all copies to this address are from one address. -/
theorem transfer_of_exists {copies : List (Copy α)} {address origin : α}
    (written : ∃ copy ∈ copies, copy.dst = address)
    (only : ∀ copy ∈ copies, copy.dst = address → copy.src = origin) (source target : α → β) :
    transfer copies source target address = source origin := by
  induction copies generalizing target with
  | nil =>
      rcases written with ⟨copy, member, _⟩
      cases member
  | cons copy rest induction =>
      rw [transfer, List.foldl_cons]
      by_cases again : ∃ other ∈ rest, other.dst = address
      · exact induction again
          (fun other member => only other (List.mem_cons_of_mem copy member)) _
      · have last : ∀ other ∈ rest, other.dst ≠ address :=
          fun other member same => again ⟨other, member, same⟩
        have here : copy.dst = address := by
          rcases written with ⟨other, member, same⟩
          cases member with
          | head => exact same
          | tail _ member => exact absurd same (last other member)
        have value := only copy List.mem_cons_self here
        refine (transfer_of_forall_ne last source _).trans ?_
        rw [here, Function.update_self, value]

end

/-! ## Runs of addresses -/

/-- `count` values in ascending order of their addresses. -/
def up : (count dst src : Nat) → List (Copy Nat)
  | 0, _, _ => []
  | count + 1, dst, src => ⟨dst, src⟩ :: up count (dst + 1) (src + 1)

/-- `count` values in descending order of their addresses. -/
def down : (count dst src : Nat) → List (Copy Nat)
  | 0, _, _ => []
  | count + 1, dst, src => ⟨dst + count, src + count⟩ :: down count dst src

theorem mem_up {count dst src : Nat} {copy : Copy Nat} :
    copy ∈ up count dst src ↔ ∃ index < count, copy = ⟨dst + index, src + index⟩ := by
  induction count generalizing dst src with
  | zero => simp [up]
  | succ count induction =>
      rw [up, List.mem_cons, induction]
      constructor
      · rintro (rfl | ⟨index, below, rfl⟩)
        · exact ⟨0, Nat.succ_pos count, rfl⟩
        · refine ⟨index + 1, Nat.succ_lt_succ below, ?_⟩
          rw [Nat.add_right_comm, Nat.add_right_comm src]
          rfl
      · rintro ⟨index, below, rfl⟩
        cases index with
        | zero => exact .inl rfl
        | succ index =>
            refine .inr ⟨index, Nat.lt_of_succ_lt_succ below, ?_⟩
            rw [Nat.add_right_comm, Nat.add_right_comm src]
            rfl

theorem mem_down {count dst src : Nat} {copy : Copy Nat} :
    copy ∈ down count dst src ↔ ∃ index < count, copy = ⟨dst + index, src + index⟩ := by
  induction count with
  | zero => simp [down]
  | succ count induction =>
      rw [down, List.mem_cons, induction]
      constructor
      · rintro (rfl | ⟨index, below, rfl⟩)
        · exact ⟨count, Nat.lt_succ_self count, rfl⟩
        · exact ⟨index, Nat.lt_succ_of_lt below, rfl⟩
      · rintro ⟨index, below, rfl⟩
        by_cases last : index = count
        · exact .inl (by rw [last])
        · exact .inr ⟨index, by omega, rfl⟩

/-- Towards lower addresses, values are copied in ascending order. -/
theorem up_unspoiled {dst src : Nat} (lower : dst < src) (count : Nat) :
    Unspoiled (up count dst src) := by
  induction count generalizing dst src with
  | zero => exact List.Pairwise.nil
  | succ count induction =>
      refine List.pairwise_cons.mpr ⟨?_, induction (Nat.succ_lt_succ lower)⟩
      intro copy member
      rcases mem_up.mp member with ⟨index, _, rfl⟩
      dsimp only
      omega

/-- Towards higher addresses, values are copied in descending order. -/
theorem down_unspoiled {dst src : Nat} (higher : src < dst) (count : Nat) :
    Unspoiled (down count dst src) := by
  induction count with
  | zero => exact List.Pairwise.nil
  | succ count induction =>
      refine List.pairwise_cons.mpr ⟨?_, induction⟩
      intro copy member
      rcases mem_down.mp member with ⟨index, below, rfl⟩
      dsimp only
      omega

end Copy

end Foundation

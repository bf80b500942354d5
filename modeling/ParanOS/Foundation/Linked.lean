import Mathlib.Data.List.Nodup
import Mathlib.Data.List.Perm.Subperm
import Mathlib.Data.List.Range

/-! # Linked chains

A chain is what following a successor map from a start value visits before a
stop value is reached. A chain that ends has no repetitions, is determined by
its start, and only depends on the successors of its own members; these are
the facts a structure threaded through a table of links needs.
-/

namespace Foundation

/-- Following `next` from the start visits exactly the listed members, in
order, and then reaches a value where `stop` holds. -/
inductive Linked {α : Type} (next : α → α) (stop : α → Prop) : α → List α → Prop
  | nil {start} : stop start → Linked next stop start []
  | cons {start rest} : ¬ stop start → Linked next stop (next start) rest →
      Linked next stop start (start :: rest)

namespace Linked

variable {α : Type} {next next' : α → α} {stop : α → Prop}

theorem unique {start : α} {left right : List α}
    (first : Linked next stop start left) (second : Linked next stop start right) :
    left = right := by
  induction first generalizing right with
  | nil stopped =>
      cases second with
      | nil _ => rfl
      | cons running _ => exact absurd stopped running
  | cons running _ induction =>
      cases second with
      | nil stopped => exact absurd stopped running
      | cons _ rest => rw [induction rest]

/-- A chain survives every change of links outside it. -/
theorem congr {start : α} {members : List α}
    (linked : Linked next stop start members)
    (agree : ∀ value ∈ members, next' value = next value) :
    Linked next' stop start members := by
  induction linked with
  | nil stopped => exact .nil stopped
  | @cons head rest running _ induction =>
      refine .cons running ?_
      rw [agree head (by simp)]
      exact induction fun value member => agree value (by simp [member])

/-- What a loop along a chain does, when it has fuel for more steps than there are members. -/
@[elab_as_elim]
theorem walk {motive : ∀ (start : α) (members : List α) (fuel : Nat),
      Linked next stop start members → members.length < fuel → Prop}
    (nil : ∀ {start : α} {fuel : Nat} (stopped : stop start),
      motive start [] (fuel + 1) (.nil stopped) (Nat.succ_pos fuel))
    (cons : ∀ {start : α} {rest : List α} {fuel : Nat} (running : ¬ stop start)
      (tail : Linked next stop (next start) rest) (shorter : rest.length < fuel),
      motive (next start) rest fuel tail shorter →
      motive start (start :: rest) (fuel + 1) (.cons running tail) (Nat.succ_lt_succ shorter))
    {start : α} {members : List α} {fuel : Nat} (linked : Linked next stop start members)
    (enough : members.length < fuel) : motive start members fuel linked enough := by
  induction linked generalizing fuel with
  | nil stopped =>
      cases fuel with
      | zero => simp at enough
      | succ fuel => exact nil stopped
  | cons running tail induction =>
      cases fuel with
      | zero => simp at enough
      | succ fuel =>
          have shorter := Nat.lt_of_succ_lt_succ enough
          exact cons running tail shorter (induction shorter)

theorem not_stop {start value : α} {members : List α}
    (linked : Linked next stop start members) (member : value ∈ members) :
    ¬ stop value := by
  induction linked with
  | nil _ => simp at member
  | cons running _ induction =>
      rcases List.mem_cons.mp member with rfl | member
      · exact running
      · exact induction member

/-- The part of a chain from one of its members on is the chain of that member. -/
theorem suffix {start value : α} {members : List α}
    (linked : Linked next stop start members) (member : value ∈ members) :
    ∃ before after, members = before ++ value :: after ∧
      Linked next stop value (value :: after) := by
  induction linked with
  | nil _ => simp at member
  | @cons head rest running tail induction =>
      rcases List.mem_cons.mp member with rfl | member
      · exact ⟨[], rest, rfl, .cons running tail⟩
      · rcases induction member with ⟨before, after, equal, later⟩
        exact ⟨head :: before, after, by rw [equal]; rfl, later⟩

/-- A chain that ends cannot come back to one of its members. -/
theorem nodup {start : α} {members : List α}
    (linked : Linked next stop start members) : members.Nodup := by
  induction linked with
  | nil _ => exact .nil
  | @cons head rest running tail induction =>
      refine List.nodup_cons.mpr ⟨fun again => ?_, induction⟩
      rcases tail.suffix again with ⟨before, after, equal, later⟩
      have same := unique (.cons running tail) later
      have lengths := congrArg List.length same
      rw [equal] at lengths
      simp only [List.length_cons, List.length_append] at lengths
      omega

theorem single {value : α} (running : ¬ stop value) (stopped : stop (next value)) :
    Linked next stop value [value] :=
  .cons running (.nil stopped)

theorem ne_nil {start : α} {members : List α}
    (linked : Linked next stop start members) (running : ¬ stop start) :
    members ≠ [] := by
  cases linked with
  | nil stopped => exact absurd stopped running
  | cons _ _ => simp

theorem start_mem {start : α} {members : List α}
    (linked : Linked next stop start members) (running : ¬ stop start) :
    start ∈ members := by
  cases linked with
  | nil stopped => exact absurd stopped running
  | cons _ _ => simp

/-- Redirecting the last link to a fresh final value extends the chain by it. -/
theorem extend {start last fresh : α} {before : List α} [DecidableEq α]
    (linked : Linked next stop start (before ++ [last]))
    (agree : ∀ value ∈ before, next' value = next value)
    (redirect : next' last = fresh) (running : ¬ stop fresh)
    (stopped : stop (next' fresh)) :
    Linked next' stop start (before ++ [last, fresh]) := by
  induction before generalizing start with
  | nil =>
      cases linked with
      | cons lastRunning _ =>
          refine .cons lastRunning ?_
          rw [redirect]
          exact single running stopped
  | cons head rest induction =>
      cases linked with
      | cons headRunning tail =>
          refine .cons headRunning ?_
          rw [agree head (by simp)]
          exact induction tail fun value member => agree value (by simp [member])

end Linked

/-! ## Chains that need not end -/

/-- The values that following `next` from the start comes to before it stops,
on a way that may also go round in a circle. -/
inductive Reached {α : Type} (next : α → α) (stop : α → Prop) (start : α) : α → Prop
  | start : ¬ stop start → Reached next stop start start
  | link {value} : Reached next stop start value → ¬ stop (next value) →
      Reached next stop start (next value)

namespace Reached

variable {α : Type} {next : α → α} {stop : α → Prop} {start value : α}

theorem not_stop (reached : Reached next stop start value) : ¬ stop value := by
  cases reached with
  | start running => exact running
  | link _ running => exact running

/-- What holds of the start and goes along with the links holds of every value
on the way. -/
theorem of_closed {holds : α → Prop} (first : ¬ stop start → holds start)
    (closed : ∀ value, holds value → ¬ stop (next value) → holds (next value))
    (reached : Reached next stop start value) : holds value := by
  induction reached with
  | start running => exact first running
  | link _ running induction => exact closed _ induction running

end Reached

/-- A repetition-free list of numbers below a bound is no longer than the
bound. -/
theorem length_le_of_nodup_of_lt {members : List Nat} {bound : Nat}
    (nodup : members.Nodup) (below : ∀ value ∈ members, value < bound) :
    members.length ≤ bound := by
  have subset : members ⊆ List.range bound := fun value member =>
    List.mem_range.mpr (below value member)
  simpa using (List.subperm_of_subset nodup subset).length_le

end Foundation

import ParanOS.Foundation.Linked

/-! # Rings

A ring is a chain of links that comes back to where it starts. It is described
from one of its members, the head, by the list of the others in the order of
the links. The head may move along the ring, and a new member may be linked in
behind it.
-/

namespace Foundation

namespace Linked

variable {α : Type} {next : α → α} {stop : α → Prop}

/-- A chain up to a value, and the chain from there on. -/
theorem append {start middle : α} {before after : List α}
    (first : Linked next (· = middle) start before) (clear : ∀ value ∈ before, ¬ stop value)
    (second : Linked next stop middle after) : Linked next stop start (before ++ after) := by
  induction first with
  | nil reached =>
      subst reached
      exact second
  | cons _ _ induction =>
      exact .cons (clear _ (by simp)) (induction fun value member => clear value (by simp [member]))

/-- A chain is cut at one of its members. -/
theorem split {start middle : α} {before after : List α}
    (linked : Linked next stop start (before ++ middle :: after)) :
    Linked next (· = middle) start before ∧ Linked next stop (next middle) after := by
  have distinct := linked.nodup
  induction before generalizing start with
  | nil =>
      cases linked with
      | cons _ rest => exact ⟨.nil rfl, rest⟩
  | cons head rest induction =>
      cases linked with
      | cons _ later =>
          rw [List.cons_append, List.nodup_cons] at distinct
          rcases induction later distinct.2 with ⟨upTo, onwards⟩
          have different : head ≠ middle := fun same => distinct.1 (by simp [same])
          exact ⟨.cons different upTo, onwards⟩

end Linked

/-- From the head on, the links visit the others once and come back. -/
def Ring {α : Type} (next : α → α) (head : α) (others : List α) : Prop :=
  Linked next (· = head) (next head) others

namespace Ring

variable {α : Type} {next next' : α → α} {head value : α} {others : List α}

theorem alone (back : next head = head) : Ring next head [] := .nil back

theorem nodup (ring : Ring next head others) : (head :: others).Nodup :=
  List.nodup_cons.mpr ⟨fun again => Linked.not_stop ring again rfl, Linked.nodup ring⟩

theorem congr (ring : Ring next head others)
    (agree : ∀ value ∈ head :: others, next' value = next value) : Ring next' head others := by
  rw [Ring, agree head (by simp)]
  exact Linked.congr ring fun value member => agree value (by simp [member])

/-- The head moves to another member. -/
theorem moved {before after : List α} (ring : Ring next head (before ++ value :: after)) :
    Ring next value (after ++ head :: before) := by
  have distinct := ring.nodup
  rcases Linked.split ring with ⟨upTo, onwards⟩
  have different : head ≠ value := by
    intro same
    simp [same] at distinct
  have clear : ∀ member ∈ after, member ≠ value := by
    intro member isAfter same
    subst same
    simp [List.nodup_cons, List.nodup_append, isAfter] at distinct
  exact onwards.append clear (.cons different upTo)

theorem moved_perm (head value : α) (before after : List α) :
    (value :: (after ++ head :: before)).Perm (head :: (before ++ value :: after)) := by
  have outer : (value :: after ++ head :: before).Perm (head :: before ++ value :: after) :=
    List.perm_append_comm
  exact outer

/-- A new member behind the head. -/
theorem insert (ring : Ring next head others) (fresh : value ∉ head :: others)
    (fromHead : next' head = value) (fromValue : next' value = next head)
    (agree : ∀ member ∈ others, next' member = next member) :
    Ring next' head (value :: others) := by
  rw [Ring, fromHead]
  refine .cons (fun same => fresh (by simp [same])) ?_
  rw [fromValue]
  exact Linked.congr ring agree

/-- The order in which the links visit all members, from behind the head. -/
def order (head : α) (others : List α) : List α := others ++ [head]

theorem order_perm (head : α) (others : List α) : (order head others).Perm (head :: others) :=
  List.perm_append_singleton head others

/-- The ring as it is seen from the first member that the links visit. -/
theorem advance (ring : Ring next head others) :
    ∃ rest, order head others = next head :: rest ∧ Ring next (next head) rest := by
  cases others with
  | nil =>
      have back : next head = head := by
        cases ring with
        | nil back => exact back
      refine ⟨[], ?_, ?_⟩
      · rw [back]
        rfl
      · rw [back]
        exact ring
  | cons first rest =>
      have same : next head = first := by
        cases ring with
        | cons _ _ => rfl
      refine ⟨rest ++ [head], ?_, ?_⟩
      · rw [same]
        rfl
      · rw [same]
        have whole : Ring next head ([] ++ first :: rest) := ring
        exact whole.moved

end Ring

end Foundation

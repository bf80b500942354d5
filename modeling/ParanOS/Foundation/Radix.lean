import Mathlib.Data.List.Infix
import Mathlib.Logic.Function.Basic

/-! # Trees of tables

A store holds tables of entries, and some entries point to a further table. A path
of indices is followed from a root through these pointers. The walk of a path ends
at an entry that points to no table, or at its last index.

When no two paths lead to one table, a store to an entry is seen only by the paths
through it. This is stated for paths shorter than a height, since the entries of
the lowest tables are not pointers whatever they hold.
-/

namespace Foundation

/-- The entries of all tables. -/
abbrev Store (Node Index Entry : Type) := Node → Index → Entry

namespace Store

variable {Node Index Entry : Type} [DecidableEq Node]

/-- A table with one entry everywhere. -/
def fill (store : Store Node Index Entry) (node : Node) (entry : Entry) :
    Store Node Index Entry :=
  Function.update store node fun _ => entry

theorem fill_here (store : Store Node Index Entry) (node : Node) (entry : Entry)
    (index : Index) : store.fill node entry node index = entry := by
  simp [fill]

theorem fill_other {store : Store Node Index Entry} {node other : Node} {entry : Entry}
    (different : other ≠ node) : store.fill node entry other = store other := by
  simp [fill, different]

variable [DecidableEq Index]

def set (store : Store Node Index Entry) (node : Node) (index : Index) (entry : Entry) :
    Store Node Index Entry :=
  Function.update store node (Function.update (store node) index entry)

theorem set_here (store : Store Node Index Entry) (node : Node) (index : Index)
    (entry : Entry) : store.set node index entry node index = entry := by
  simp [set]

theorem set_other {store : Store Node Index Entry} {node other : Node} {index place : Index}
    {entry : Entry} (different : ¬ (other = node ∧ place = index)) :
    store.set node index entry other place = store other place := by
  by_cases same : other = node
  · subst same
    have apart : place ≠ index := fun equal => different ⟨rfl, equal⟩
    simp [set, apart]
  · simp [set, same]

end Store

namespace Radix

variable {Node Index Entry : Type} (next : Entry → Option Node)

/-! ## Following a path -/

def follow (store : Store Node Index Entry) (node : Node) : List Index → Option Node
  | [] => some node
  | index :: rest =>
      match next (store node index) with
      | some child => follow store child rest
      | none => none

/-- Where the walk of a path ends: how many indices are left there, and the entry. -/
def stop (store : Store Node Index Entry) (node : Node) : List Index → Option (Nat × Entry)
  | [] => none
  | [index] => some (1, store node index)
  | index :: second :: rest =>
      match next (store node index) with
      | some child => stop store child (second :: rest)
      | none => some (rest.length + 2, store node index)

variable {next} {store : Store Node Index Entry} {root node : Node}

theorem follow_append {path : List Index} (reached : follow next store root path = some node)
    (rest : List Index) :
    follow next store root (path ++ rest) = follow next store node rest := by
  induction path generalizing root with
  | nil =>
      cases reached
      rfl
  | cons index path induction =>
      simp only [follow, List.cons_append] at reached ⊢
      cases pointer : next (store root index) with
      | none => simp [pointer] at reached
      | some child =>
          simp only [pointer] at reached ⊢
          exact induction reached

theorem follow_single (index : Index) :
    follow next store node [index] = next (store node index) := by
  simp only [follow]
  cases next (store node index) <;> rfl

theorem stop_positive {path : List Index} {left : Nat} {entry : Entry}
    (stopped : stop next store root path = some (left, entry)) : 1 ≤ left := by
  fun_induction stop next store root path with
  | case1 => cases stopped
  | case2 =>
      cases stopped
      exact Nat.le_refl 1
  | case3 _ _ _ _ _ _ induction => exact induction stopped
  | case4 =>
      cases stopped
      omega

theorem stop_append {path : List Index} (reached : follow next store root path = some node)
    {rest : List Index} (more : rest ≠ []) :
    stop next store root (path ++ rest) = stop next store node rest := by
  induction path generalizing root with
  | nil =>
      cases reached
      rfl
  | cons index path induction =>
      simp only [follow] at reached
      cases pointer : next (store root index) with
      | none => simp [pointer] at reached
      | some child =>
          simp only [pointer] at reached
          have later := induction reached
          cases joined : path ++ rest with
          | nil => simp [more] at joined
          | cons second tail =>
              rw [List.cons_append, joined, stop, pointer]
              rw [joined] at later
              exact later

/-- The walk ends at an entry that its last index or a missing pointer makes final. -/
theorem stop_here {index : Index} {rest : List Index}
    (final : rest = [] ∨ next (store node index) = none) :
    stop next store node (index :: rest) = some (rest.length + 1, store node index) := by
  cases rest with
  | nil => rfl
  | cons second rest =>
      rcases final with impossible | missing
      · cases impossible
      · simp only [stop, missing, List.length_cons]

theorem stop_of_ends {before rest : List Index} {index : Index}
    (reached : follow next store root before = some node)
    (final : rest = [] ∨ next (store node index) = none) :
    stop next store root (before ++ index :: rest) =
      some (rest.length + 1, store node index) := by
  rw [stop_append reached (by simp), stop_here final]

/-- Where the walk ends, it has reached a table, and the entry there is final. -/
theorem stop_split {path : List Index} {left : Nat} {entry : Entry}
    (stopped : stop next store root path = some (left, entry)) :
    ∃ before index rest node, path = before ++ index :: rest ∧
      follow next store root before = some node ∧ rest.length + 1 = left ∧
      store node index = entry ∧ (rest = [] ∨ next entry = none) := by
  fun_induction stop next store root path with
  | case1 => cases stopped
  | case2 node index =>
      cases stopped
      exact ⟨[], index, [], node, rfl, rfl, rfl, rfl, .inl rfl⟩
  | case3 node index second rest child pointer induction =>
      rcases induction stopped with ⟨before, last, after, table, split, reached, ends⟩
      refine ⟨index :: before, last, after, table, by rw [split]; rfl, ?_, ends⟩
      simp only [follow, pointer]
      exact reached
  | case4 node index second rest pointer =>
      cases stopped
      exact ⟨[], index, second :: rest, node, rfl, rfl, rfl, rfl, .inr pointer⟩

/-- A path that leads nowhere ends before its last index, whatever that is. -/
theorem stop_of_lost {path : List Index} (lost : follow next store root path = none) :
    ∃ level entry, level ≠ 1 ∧ ∀ index,
      stop next store root (path ++ [index]) = some (level, entry) := by
  induction path generalizing root with
  | nil => cases lost
  | cons head path induction =>
      cases pointer : next (store root head) with
      | none =>
          refine ⟨path.length + 2, store root head, by omega, ?_⟩
          intro index
          rw [List.cons_append, stop_here (.inr pointer), List.length_append]
          rfl
      | some child =>
          simp only [follow, pointer] at lost
          rcases induction lost with ⟨level, entry, above, ends⟩
          refine ⟨level, entry, above, ?_⟩
          intro index
          have reached : follow next store root [head] = some child := by
            rw [follow_single, pointer]
          have later := stop_append reached (show path ++ [index] ≠ [] by simp)
          rw [ends] at later
          exact later

/-! ## Tables that are not shared -/

variable (next store root) in
/-- No two short paths lead to one table. -/
def Unshared (height : Nat) : Prop :=
  ∀ ⦃first second : List Index⦄ ⦃node : Node⦄, first.length < height → second.length < height →
    follow next store root first = some node → follow next store root second = some node →
    first = second

variable (next store root) in
/-- No short path leads to the table. -/
def Fresh (height : Nat) (node : Node) : Prop :=
  ∀ path : List Index, path.length < height → follow next store root path ≠ some node

/-! ## What a store to an entry changes -/

/-- A path that meets the same entries leads to the same table and ends alike. -/
theorem walk_congr {store' : Store Node Index Entry} {path : List Index}
    (agree : ∀ before index rest node, path = before ++ index :: rest →
      follow next store root before = some node → store' node index = store node index) :
    follow next store' root path = follow next store root path ∧
      stop next store' root path = stop next store root path := by
  induction path generalizing root with
  | nil => exact ⟨rfl, rfl⟩
  | cons index path induction =>
      have here := agree [] index path root rfl rfl
      cases pointer : next (store root index) with
      | none =>
          have final : path = [] ∨ next (store root index) = none := .inr pointer
          constructor
          · simp only [follow, here, pointer]
          · rw [stop_here final, stop_here (here ▸ final), here]
      | some child =>
          have later := @induction child (by
            intro before place rest node equal reached
            apply agree (index :: before) place rest node (by rw [equal]; rfl)
            simp only [follow, pointer]
            exact reached)
          constructor
          · simp only [follow, here, pointer]
            exact later.1
          · cases path with
            | nil => simp only [stop, here]
            | cons second rest =>
                simp only [stop, here, pointer]
                exact later.2

section

variable [DecidableEq Node] {height : Nat}

/-- Filling a table that no path leads to is seen by no path. -/
theorem Fresh.walk_fill (fresh : Fresh next store root height node) (entry : Entry)
    {path : List Index} (short : path.length ≤ height) :
    follow next (store.fill node entry) root path = follow next store root path ∧
      stop next (store.fill node entry) root path = stop next store root path := by
  apply walk_congr
  intro before index rest other equal reached
  have shorter : before.length < height := by
    rw [equal, List.length_append, List.length_cons] at short
    omega
  have different : other ≠ node := fun same => fresh before shorter (same ▸ reached)
  rw [Store.fill_other different]

theorem Unshared.fill (unshared : Unshared next store root height)
    (fresh : Fresh next store root height node) (entry : Entry) :
    Unshared next (store.fill node entry) root height := by
  intro first second other firstShort secondShort firstReached secondReached
  rw [(fresh.walk_fill entry (Nat.le_of_lt firstShort)).1] at firstReached
  rw [(fresh.walk_fill entry (Nat.le_of_lt secondShort)).1] at secondReached
  exact unshared firstShort secondShort firstReached secondReached

theorem Fresh.fill {other : Node} (unused : Fresh next store root height other)
    (fresh : Fresh next store root height node) (entry : Entry) :
    Fresh next (store.fill node entry) root height other := by
  intro path short reached
  rw [(fresh.walk_fill entry (Nat.le_of_lt short)).1] at reached
  exact unused path short reached

/-! ## A store that ends walks -/

variable (next store root) in
/-- The walk of a path comes to an entry. -/
def Meets (path : List Index) (node : Node) (index : Index) : Prop :=
  ∃ before after, path = before ++ index :: after ∧ follow next store root before = some node

section

variable [DecidableEq Index] {index : Index} {entry : Entry} {path : List Index}

/-- A walk that does not come to an entry does not see what is stored there. -/
theorem stop_set_unmet (unmet : ¬ Meets next store root path node index) :
    stop next (store.set node index entry) root path = stop next store root path := by
  apply (walk_congr _).2
  intro before position rest other equal reached
  apply Store.set_other
  intro same
  rcases same with ⟨rfl, rfl⟩
  exact unmet ⟨before, rest, equal, reached⟩

/-- A walk that comes to an entry ends there when no pointer is left. -/
theorem stop_set_met (met : Meets next store root path node index) (final : next entry = none) :
    ∃ before after, path = before ++ index :: after ∧
      follow next store root before = some node ∧
      stop next (store.set node index entry) root path = some (after.length + 1, entry) := by
  induction path generalizing root with
  | nil =>
      rcases met with ⟨before, after, equal, _⟩
      simp at equal
  | cons head path induction =>
      by_cases here : root = node ∧ head = index
      · rcases here with ⟨rfl, rfl⟩
        refine ⟨[], path, rfl, rfl, ?_⟩
        have stored : store.set root head entry root head = entry := Store.set_here ..
        rw [stop_here (.inr (by rw [stored]; exact final)), stored]
      · have kept : store.set node index entry root head = store root head := Store.set_other here
        rcases met with ⟨before, after, equal, reached⟩
        cases before with
        | nil =>
            simp only [List.nil_append, List.cons.injEq] at equal
            exact absurd ⟨Option.some.inj reached, equal.1⟩ here
        | cons first before =>
            simp only [List.cons_append, List.cons.injEq] at equal
            rcases equal with ⟨rfl, rest⟩
            cases pointer : next (store root head) with
            | none => simp [follow, pointer] at reached
            | some child =>
                simp only [follow, pointer] at reached
                have met' : Meets next store child path node index :=
                  ⟨before, after, rest, reached⟩
                rcases induction met' with
                  ⟨upper, lower, split, onwards, ends⟩
                refine ⟨head :: upper, lower, by rw [split]; rfl, ?_, ?_⟩
                · simp only [follow, pointer]
                  exact onwards
                · have step : follow next (store.set node index entry) root [head] =
                      some child := by
                    rw [follow_single, kept, pointer]
                  have some : path ≠ [] := by
                    rw [split]
                    simp
                  rw [← ends, ← stop_append step some]
                  rfl

end

/-! ## Stores in a tree -/

variable [DecidableEq Index] {place : List Index} {index : Index} {entry : Entry}
  (unshared : Unshared next store root height) (low : place.length < height)
  (found : follow next store root place = some node)

include unshared low found

/-- A store to an entry is seen only by the paths through it. -/
theorem walk_set_other {path : List Index} (short : path.length ≤ height)
    (outside : ¬ place ++ [index] <+: path) :
    follow next (store.set node index entry) root path = follow next store root path ∧
      stop next (store.set node index entry) root path = stop next store root path := by
  apply walk_congr
  intro before position rest other equal reached
  apply Store.set_other
  intro same
  rcases same with ⟨sameNode, sameIndex⟩
  subst sameNode sameIndex
  have shorter : before.length < height := by
    rw [equal, List.length_append, List.length_cons] at short
    omega
  have samePath := unshared shorter low reached found
  apply outside
  rw [equal, samePath]
  exact ⟨rest, by simp⟩

/-- The table itself is still found. -/
theorem follow_set_place : follow next (store.set node index entry) root place = some node := by
  have outside : ¬ place ++ [index] <+: place := by
    intro within
    have length := within.length_le
    rw [List.length_append, List.length_singleton] at length
    omega
  rw [(walk_set_other unshared low found (Nat.le_of_lt low) outside).1, found]

/-- A path through the entry ends there, if the entry is final. -/
theorem stop_set_here {rest : List Index} (final : rest = [] ∨ next entry = none) :
    stop next (store.set node index entry) root (place ++ index :: rest) =
      some (rest.length + 1, entry) := by
  have reached := @follow_set_place _ _ _ next store root node _ height _ place index entry
    unshared low found
  rw [stop_of_ends reached, Store.set_here]
  rw [Store.set_here]
  exact final

/-- A final entry makes no path lead anywhere new. -/
theorem follow_set_final (final : place.length + 1 = height ∨ next entry = none)
    {path : List Index} (short : path.length < height) {other : Node}
    (reached : follow next (store.set node index entry) root path = some other) :
    follow next store root path = some other := by
  by_cases within : place ++ [index] <+: path
  · rcases within with ⟨rest, equal⟩
    have length := congrArg List.length equal
    simp only [List.length_append, List.length_cons, List.length_nil] at length
    have missing : next entry = none := final.resolve_left (by omega)
    have here := @follow_set_place _ _ _ next store root node _ height _ place index entry
      unshared low found
    rw [← equal, List.append_assoc, follow_append here] at reached
    simp [follow, Store.set_here, missing] at reached
  · rw [← reached, (walk_set_other unshared low found (Nat.le_of_lt short) within).1]

theorem Unshared.set_final (final : place.length + 1 = height ∨ next entry = none) :
    Unshared next (store.set node index entry) root height := by
  intro first second other firstShort secondShort firstReached secondReached
  exact unshared firstShort secondShort
    (follow_set_final unshared low found final firstShort firstReached)
    (follow_set_final unshared low found final secondShort secondReached)

theorem Fresh.set_final (final : place.length + 1 = height ∨ next entry = none) {other : Node}
    (fresh : Fresh next store root height other) :
    Fresh next (store.set node index entry) root height other := by
  intro path short reached
  exact fresh path short (follow_set_final unshared low found final short reached)

/-! ### Linking a table -/

variable {page : Node} (pointer : next entry = some page)
  (fresh : Fresh next store root height page) (empty : ∀ place, next (store page place) = none)

include pointer fresh empty

/-- Linking an empty table makes one new path lead somewhere. -/
theorem follow_set_link {path : List Index} (short : path.length < height) {other : Node}
    (reached : follow next (store.set node index entry) root path = some other) :
    follow next store root path = some other ∨ path = place ++ [index] ∧ other = page := by
  by_cases within : place ++ [index] <+: path
  · rcases within with ⟨rest, equal⟩
    have here := @follow_set_place _ _ _ next store root node _ height _ place index entry
      unshared low found
    rw [← equal, List.append_assoc, follow_append here] at reached
    simp only [List.singleton_append, follow, Store.set_here, pointer] at reached
    cases rest with
    | nil =>
        right
        exact ⟨by rw [← equal, List.append_nil], Option.some.inj reached.symm⟩
    | cons second rest =>
        have different : page ≠ node := fun same => fresh place low (same ▸ found)
        have cell : store.set node index entry page second = store page second :=
          Store.set_other fun same => different same.1
        simp [follow, cell, empty second] at reached
  · left
    rw [← reached, (walk_set_other unshared low found (Nat.le_of_lt short) within).1]

theorem Unshared.set_link : Unshared next (store.set node index entry) root height := by
  intro first second other firstShort secondShort firstReached secondReached
  have firstCases := follow_set_link unshared low found pointer fresh empty firstShort firstReached
  have secondCases :=
    follow_set_link unshared low found pointer fresh empty secondShort secondReached
  rcases firstCases with firstOld | firstNew
  · rcases secondCases with secondOld | secondNew
    · exact unshared firstShort secondShort firstOld secondOld
    · exact absurd (secondNew.2 ▸ firstOld) (fresh first firstShort)
  · rcases secondCases with secondOld | secondNew
    · exact absurd (firstNew.2 ▸ secondOld) (fresh second secondShort)
    · rw [firstNew.1, secondNew.1]

theorem Fresh.set_link {other : Node} (unused : Fresh next store root height other)
    (different : other ≠ page) : Fresh next (store.set node index entry) root height other := by
  intro path short reached
  rcases follow_set_link unshared low found pointer fresh empty short reached with old | new
  · exact unused path short old
  · exact different new.2

/-- The walks through the new table end in it. -/
theorem stop_set_link {second : Index} {rest : List Index} :
    stop next (store.set node index entry) root (place ++ index :: second :: rest) =
      some (rest.length + 1, store page second) := by
  have here := @follow_set_place _ _ _ next store root node _ height _ place index entry
    unshared low found
  have different : page ≠ node := fun same => fresh place low (same ▸ found)
  have cell : store.set node index entry page second = store page second :=
    Store.set_other fun same => different same.1
  have linked : follow next (store.set node index entry) root (place ++ [index]) = some page := by
    rw [follow_append here, follow_single, Store.set_here, pointer]
  have split : place ++ index :: second :: rest = (place ++ [index]) ++ second :: rest := by
    simp
  rw [split, stop_of_ends linked, cell]
  rw [cell]
  exact .inr (empty second)

end

end Radix

end Foundation

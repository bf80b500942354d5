import ParanOS.Foundation.Linked

/-! # Owners of chains

Several owners hold chains in one table of links. The chains are well formed
and no value lies on two of them. The rule below is all that an operation has
to establish: it may change one owner's chain to values nobody else holds, as
long as it leaves the links of the others alone.
-/

namespace Foundation

section

variable {ι α : Type}

/-- What an owner with this start value holds: nothing, for a vacant start
value, and otherwise the chain from there, inside the region. -/
inductive Holds (next : α → α) (stop vacant region : α → Prop) : α → List α → Prop
  | empty {start} : vacant start → Holds next stop vacant region start []
  | chain {start members} : ¬ vacant start → ¬ stop start →
      Linked next stop start members → (∀ value ∈ members, region value) →
      Holds next stop vacant region start members

namespace Holds

variable {next next' : α → α} {stop vacant region : α → Prop} {start value : α}
  {members members' : List α}

theorem unique (first : Holds next stop vacant region start members)
    (second : Holds next stop vacant region start members') : members = members' := by
  cases first with
  | empty none =>
      cases second with
      | empty _ => rfl
      | chain some _ _ _ => exact absurd none some
  | chain some _ linked _ =>
      cases second with
      | empty none => exact absurd none some
      | chain _ _ linked' _ => exact linked.unique linked'

/-- What an owner holds only depends on the links of its members. -/
theorem congr (holds : Holds next stop vacant region start members)
    (agree : ∀ value ∈ members, next' value = next value) :
    Holds next' stop vacant region start members := by
  cases holds with
  | empty none => exact .empty none
  | chain some running linked inside => exact .chain some running (linked.congr agree) inside

theorem inside (holds : Holds next stop vacant region start members)
    (member : value ∈ members) : region value := by
  cases holds with
  | empty _ => simp at member
  | chain _ _ _ inside => exact inside value member

theorem linked (holds : Holds next stop vacant region start members)
    (occupied : ¬ vacant start) : Linked next stop start members := by
  cases holds with
  | empty none => exact absurd none occupied
  | chain _ _ linked _ => exact linked

theorem start_mem (holds : Holds next stop vacant region start members)
    (occupied : ¬ vacant start) : start ∈ members := by
  cases holds with
  | empty none => exact absurd none occupied
  | chain _ running linked _ => exact linked.start_mem running

theorem not_stop (holds : Holds next stop vacant region start members)
    (member : value ∈ members) : ¬ stop value := by
  cases holds with
  | empty _ => simp at member
  | chain _ _ linked _ => exact linked.not_stop member

/-- The link of a member leads on inside the region, or stops. -/
theorem next_mem (holds : Holds next stop vacant region start members)
    (member : value ∈ members) : stop (next value) ∨ region (next value) := by
  cases holds with
  | empty _ => simp at member
  | chain _ _ linked inside =>
      rcases linked.suffix member with ⟨before, after, rfl, later⟩
      cases later with
      | cons _ tail =>
          cases tail with
          | nil stopped => exact .inl stopped
          | cons _ _ => exact .inr (inside _ (by simp))

theorem last_mem {fallback : α} (holds : Holds next stop vacant region start members)
    (occupied : ¬ vacant start) : members.getLastD fallback ∈ members := by
  have nonempty := holds.start_mem occupied
  cases members with
  | nil => cases nonempty
  | cons head rest =>
      rw [List.getLastD_cons]
      exact List.getLastD_mem_cons

/-- A further value, behind the last one. -/
theorem extend [DecidableEq α] {fallback fresh : α}
    (holds : Holds next stop vacant region start members) (occupied : ¬ vacant start)
    (agree : ∀ value, value ≠ members.getLastD fallback → value ≠ fresh →
      next' value = next value)
    (redirect : next' (members.getLastD fallback) = fresh) (running : ¬ stop fresh)
    (stopped : stop (next' fresh)) (region' : region fresh) (outside : fresh ∉ members) :
    Holds next' stop vacant region start (members ++ [fresh]) := by
  have begins := holds.not_stop (holds.start_mem occupied)
  have last := @last_mem _ _ _ _ _ _ _ fallback holds occupied
  refine .chain occupied begins ?_ ?_
  · have linked := holds.linked occupied
    rcases List.eq_nil_or_concat' members with rfl | ⟨before, final, rfl⟩
    · cases last
    · rw [List.getLastD_concat] at redirect agree
      rw [List.append_assoc]
      refine linked.extend ?_ redirect running stopped
      intro value member
      apply agree
      · intro equal
        subst equal
        have nodup := linked.nodup
        rw [List.nodup_append] at nodup
        exact nodup.2.2 value member value (by simp) rfl
      · intro equal
        subst equal
        exact outside (List.mem_append_left _ member)
  · intro value member
    rcases List.mem_append.mp member with old | new
    · exact holds.inside old
    · rw [List.mem_singleton.mp new]
      exact region'

end Holds

/-- Every live owner holds a well-formed chain, and no two share a value. -/
structure Tenancy (next : α → α) (stop vacant region : α → Prop) (live : ι → Prop)
    (start : ι → α) : Prop where
  held : ∀ owner, live owner → ∃ members, Holds next stop vacant region (start owner) members
  apart : ∀ owner other members members', live owner → live other → owner ≠ other →
    Holds next stop vacant region (start owner) members →
    Holds next stop vacant region (start other) members' → members.Disjoint members'

namespace Tenancy

variable {next next' : α → α} {stop vacant region : α → Prop} {live live' : ι → Prop}
  {start start' : ι → α}

/-- One owner takes over a chain that meets nobody else's, everybody else's
links stay. -/
theorem replace (tenancy : Tenancy next stop vacant region live start) (changed : ι)
    (others : ∀ owner, owner ≠ changed → live' owner →
      live owner ∧ start' owner = start owner)
    (links : ∀ owner members, owner ≠ changed → live owner →
      Holds next stop vacant region (start owner) members →
      ∀ value ∈ members, next' value = next value)
    (fresh : live' changed → ∃ members,
      Holds next' stop vacant region (start' changed) members ∧
      ∀ owner members', owner ≠ changed → live owner →
        Holds next stop vacant region (start owner) members' → members.Disjoint members') :
    Tenancy next' stop vacant region live' start' := by
  -- what the others hold afterwards they held before
  have kept : ∀ owner, owner ≠ changed → live' owner → ∃ members,
      Holds next stop vacant region (start owner) members ∧
      ∀ members', Holds next' stop vacant region (start' owner) members' →
        members' = members := by
    intro owner different alive
    rcases others owner different alive with ⟨before, sameStart⟩
    rcases tenancy.held owner before with ⟨members, holds⟩
    refine ⟨members, holds, fun members' holds' => ?_⟩
    rw [sameStart] at holds'
    exact holds'.unique (holds.congr (links owner members different before holds))
  constructor
  · intro owner alive
    by_cases same : owner = changed
    · subst same
      rcases fresh alive with ⟨members, holds, _⟩
      exact ⟨members, holds⟩
    · rcases others owner same alive with ⟨before, sameStart⟩
      rcases tenancy.held owner before with ⟨members, holds⟩
      rw [sameStart]
      exact ⟨members, holds.congr (links owner members same before holds)⟩
  · intro owner other members members' alive alive' different holds holds'
    by_cases same : owner = changed
    · subst same
      rcases fresh alive with ⟨new, newHolds, separate⟩
      rcases kept other different.symm alive' with ⟨old, oldHolds, only⟩
      rw [holds.unique newHolds, only members' holds']
      exact separate other old different.symm (others other different.symm alive').1 oldHolds
    · rcases kept owner same alive with ⟨old, oldHolds, only⟩
      rw [only members holds]
      by_cases same' : other = changed
      · subst same'
        rcases fresh alive' with ⟨new, newHolds, separate⟩
        rw [holds'.unique newHolds]
        exact List.disjoint_symm
          (separate owner old same (others owner same alive).1 oldHolds)
      · rcases kept other same' alive' with ⟨old', oldHolds', only'⟩
        rw [only' members' holds']
        exact tenancy.apart owner other old old' (others owner same alive).1
          (others other same' alive').1 different oldHolds oldHolds'

/-- Nobody's chain changes, and nobody new appears. -/
theorem congr (tenancy : Tenancy next stop vacant region live start)
    (others : ∀ owner, live' owner → live owner ∧ start' owner = start owner)
    (links : ∀ owner members, live owner →
      Holds next stop vacant region (start owner) members →
      ∀ value ∈ members, next' value = next value) :
    Tenancy next' stop vacant region live' start' := by
  have kept : ∀ owner, live' owner → ∀ members,
      Holds next' stop vacant region (start' owner) members →
      Holds next stop vacant region (start owner) members := by
    intro owner alive members holds
    rcases others owner alive with ⟨before, sameStart⟩
    rcases tenancy.held owner before with ⟨members', holds'⟩
    rw [sameStart] at holds
    rw [holds.unique (holds'.congr (links owner members' before holds'))]
    exact holds'
  constructor
  · intro owner alive
    rcases others owner alive with ⟨before, sameStart⟩
    rcases tenancy.held owner before with ⟨members, holds⟩
    rw [sameStart]
    exact ⟨members, holds.congr (links owner members before holds)⟩
  · intro owner other members members' alive alive' different holds holds'
    exact tenancy.apart owner other members members' (others owner alive).1
      (others other alive').1 different (kept owner alive members holds)
      (kept other alive' members' holds')

/-- A value on two owners' chains makes them one owner. -/
theorem owner_eq (tenancy : Tenancy next stop vacant region live start) {owner other : ι}
    {members members' : List α} {value : α} (alive : live owner) (alive' : live other)
    (holds : Holds next stop vacant region (start owner) members)
    (holds' : Holds next stop vacant region (start other) members')
    (member : value ∈ members) (member' : value ∈ members') : owner = other := by
  by_contra different
  exact tenancy.apart owner other members members' alive alive' different holds holds'
    member member'

end Tenancy

end

end Foundation

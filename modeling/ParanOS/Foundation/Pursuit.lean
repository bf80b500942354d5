import Mathlib.Combinatorics.Pigeonhole
import Mathlib.Logic.Function.Iterate

/-! # Loops that follow a successor

A loop goes from a value to its successor until a value has a verdict. With a bound
on the number of rounds it is a function; without one it may not return. It returns
exactly when some iterate of the successor map has a verdict, and with the verdict of
the first one that has.
-/

namespace Foundation

variable {α ρ : Type}

/-- The verdict of the first value that has one, among as many values as the bound
allows. -/
def pursue (verdict : α → Option ρ) (next : α → α) : (fuel : Nat) → α → Option ρ
  | 0, _ => none
  | fuel + 1, value =>
      match verdict value with
      | some result => some result
      | none => pursue verdict next fuel (next value)

/-- The first value with a verdict, from the start on, has this one. -/
def Pursued (verdict : α → Option ρ) (next : α → α) (start : α) (result : ρ) : Prop :=
  ∃ count, verdict (next^[count] start) = some result ∧
    ∀ earlier < count, verdict (next^[earlier] start) = none

section

variable {verdict : α → Option ρ} {next : α → α} {start : α} {result : ρ}

theorem Pursued.here (decided : verdict start = some result) :
    Pursued verdict next start result :=
  ⟨0, decided, fun _ impossible => absurd impossible (Nat.not_lt_zero _)⟩

theorem Pursued.of_next (undecided : verdict start = none)
    (later : Pursued verdict next (next start) result) : Pursued verdict next start result := by
  rcases later with ⟨count, decided, before⟩
  refine ⟨count + 1, decided, ?_⟩
  intro earlier below
  cases earlier with
  | zero => exact undecided
  | succ earlier => exact before earlier (Nat.lt_of_succ_lt_succ below)

theorem Pursued.unique {other : ρ} (first : Pursued verdict next start result)
    (second : Pursued verdict next start other) : result = other := by
  rcases first with ⟨count, decided, before⟩
  rcases second with ⟨count', decided', before'⟩
  rcases Nat.lt_trichotomy count count' with less | equal | more
  · simp [before' count less] at decided
  · rw [equal, decided', Option.some.injEq] at decided
    exact decided.symm
  · simp [before count' more] at decided'

theorem pursued_of_pursue {fuel : Nat} (ran : pursue verdict next fuel start = some result) :
    Pursued verdict next start result := by
  induction fuel generalizing start with
  | zero => simp [pursue] at ran
  | succ fuel induction =>
      rw [pursue] at ran
      cases decided : verdict start with
      | some found =>
          simp only [decided, Option.some.injEq] at ran
          rw [ran] at decided
          exact .here decided
      | none =>
          simp only [decided] at ran
          exact (induction ran).of_next decided

/-- Enough rounds find the verdict. -/
theorem Pursued.pursue (pursued : Pursued verdict next start result) :
    ∃ bound, ∀ fuel, bound ≤ fuel → Foundation.pursue verdict next fuel start = some result := by
  rcases pursued with ⟨count, decided, before⟩
  refine ⟨count + 1, ?_⟩
  induction count generalizing start with
  | zero =>
      intro fuel enough
      cases fuel with
      | zero => omega
      | succ fuel =>
          have now : verdict start = some result := decided
          simp only [Foundation.pursue, now]
  | succ count induction =>
      intro fuel enough
      cases fuel with
      | zero => omega
      | succ fuel =>
          have now : verdict start = none := before 0 (by omega)
          simp only [Foundation.pursue, now]
          exact induction decided (fun earlier below => before (earlier + 1) (by omega)) fuel
            (by omega)

/-- A loop returns exactly when some value that it comes to has a verdict. -/
theorem exists_pursued_iff :
    (∃ result, Pursued verdict next start result) ↔
      ∃ count, verdict (next^[count] start) ≠ none := by
  constructor
  · rintro ⟨result, count, decided, _⟩
    exact ⟨count, by simp [decided]⟩
  · rintro ⟨count, decided⟩
    induction count using Nat.strongRecOn with
    | _ count induction =>
        by_cases before : ∀ earlier < count, verdict (next^[earlier] start) = none
        · rcases Option.ne_none_iff_exists'.mp decided with ⟨result, found⟩
          exact ⟨result, count, found, before⟩
        · simp only [not_forall] at before
          rcases before with ⟨earlier, below, found⟩
          exact induction earlier below found

/-- A description of the verdicts that holds as long as there was none before. -/
theorem exists_verdict_iff {Decided : Nat → Prop}
    (described : ∀ count, (∀ earlier < count, verdict (next^[earlier] start) = none) →
      (verdict (next^[count] start) ≠ none ↔ Decided count)) :
    (∃ count, verdict (next^[count] start) ≠ none) ↔ ∃ count, Decided count := by
  constructor
  · intro reached
    rcases exists_pursued_iff.mpr reached with ⟨result, count, found, before⟩
    exact ⟨count, (described count before).mp (by simp [found])⟩
  · rintro ⟨count, decided⟩
    by_cases before : ∀ earlier < count, verdict (next^[earlier] start) = none
    · exact ⟨count, (described count before).mpr decided⟩
    · simp only [not_forall] at before
      rcases before with ⟨earlier, _, found⟩
      exact ⟨earlier, found⟩

/-- A loop that comes back to a value without a verdict has none ever after. -/
theorem no_verdict_of_return {first second : Nat} (later : first < second)
    (back : next^[second] start = next^[first] start)
    (before : ∀ earlier < second, verdict (next^[earlier] start) = none) (count : Nat) :
    verdict (next^[count] start) = none := by
  induction count using Nat.strongRecOn with
  | _ count induction =>
      by_cases early : count < second
      · exact before count early
      · have shifted : next^[count] start = next^[count - second + first] start := by
          rw [show count = count - second + second by omega, Function.iterate_add_apply, back,
            ← Function.iterate_add_apply, Nat.add_sub_cancel]
        rw [shifted]
        exact induction _ (by omega)

/-- Among finitely many values a loop returns exactly when it never comes back to a
value. -/
theorem exists_verdict_iff_no_return [DecidableEq α] (values : Finset α)
    (inside : ∀ count, next^[count] start ∈ values) :
    (∃ count, verdict (next^[count] start) ≠ none) ↔
      ¬ ∃ first second, first < second ∧ next^[second] start = next^[first] start ∧
        ∀ earlier < second, verdict (next^[earlier] start) = none := by
  constructor
  · rintro ⟨count, decided⟩ ⟨first, second, later, back, before⟩
    exact decided (no_verdict_of_return later back before count)
  · intro never
    by_contra undecided
    simp only [not_exists, ne_eq, not_not] at undecided
    have more : values.card < (Finset.range (values.card + 1)).card := by simp
    rcases Finset.exists_ne_map_eq_of_card_lt_of_maps_to more (fun count _ => inside count) with
      ⟨first, _, second, _, different, same⟩
    rcases Nat.lt_or_gt_of_ne different with less | less
    · exact never ⟨first, second, less, same.symm, fun earlier _ => undecided earlier⟩
    · exact never ⟨second, first, less, same, fun earlier _ => undecided earlier⟩

theorem exists_pursue_iff :
    (∃ fuel, pursue verdict next fuel start ≠ none) ↔
      ∃ count, verdict (next^[count] start) ≠ none := by
  rw [← exists_pursued_iff]
  constructor
  · rintro ⟨fuel, ran⟩
    rcases Option.ne_none_iff_exists'.mp ran with ⟨result, found⟩
    exact ⟨result, pursued_of_pursue found⟩
  · rintro ⟨result, pursued⟩
    rcases pursued.pursue with ⟨bound, enough⟩
    exact ⟨bound, by simp [enough bound (Nat.le_refl bound)]⟩

end

end Foundation

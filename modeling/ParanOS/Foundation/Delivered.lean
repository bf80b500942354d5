import ParanOS.Foundation.Failures

/-! # What a series of read calls delivers

A loop that stops at the first read call that fails has what the calls before it have delivered.
What a program returns is tied to the number of read calls that it makes when none fails.
-/

namespace Foundation

variable {α : Type}

/-- What the calls deliver before the first of them that fails. -/
def delivered (faults : Nat → Bool) : List (List α) → List α
  | [] => []
  | first :: rest =>
      if faults 0 then [] else first ++ delivered (fun call => faults (call + 1)) rest

/-- What is left from that call on. -/
def undelivered (faults : Nat → Bool) : List (List α) → List α
  | [] => []
  | first :: rest =>
      if faults 0 then first ++ rest.flatten
      else undelivered (fun call => faults (call + 1)) rest

theorem delivered_append_undelivered (faults : Nat → Bool) (calls : List (List α)) :
    delivered faults calls ++ undelivered faults calls = calls.flatten := by
  induction calls generalizing faults with
  | nil => rfl
  | cons first rest induction =>
      rw [delivered, undelivered, List.flatten_cons]
      split
      · rfl
      · rw [List.append_assoc, induction]

theorem delivered_failed {faults : Nat → Bool} (failed : faults 0 = true) (first : List α)
    (rest : List (List α)) : delivered faults (first :: rest) = [] := if_pos failed

theorem delivered_done {faults : Nat → Bool} (done : faults 0 = false) (first : List α)
    (rest : List (List α)) :
    delivered faults (first :: rest) = first ++ delivered (fun call => faults (call + 1)) rest := by
  rw [delivered, done, if_neg Bool.false_ne_true]

theorem undelivered_eq_nil {faults : Nat → Bool} (none : ∀ call, faults call = false)
    (calls : List (List α)) : undelivered faults calls = [] := by
  induction calls generalizing faults with
  | nil => rfl
  | cons first rest induction =>
      rw [undelivered, none 0, if_neg Bool.false_ne_true]
      exact induction fun call => none (call + 1)

/-! ## The calls of a program -/

theorem Device.begins_replicate {device : Device} {count : Nat} :
    device.Begins (List.replicate count false) ↔
      ∀ call < count, device.readFaults call = false := by
  induction count generalizing device with
  | zero => exact ⟨fun _ _ below => absurd below (Nat.not_lt_zero _), fun _ => trivial⟩
  | succ count induction =>
      rw [List.replicate_succ, Begins, induction]
      constructor
      · intro holds call below
        cases call with
        | zero => exact holds.1
        | succ call => exact holds.2 call (Nat.lt_of_succ_lt_succ below)
      · intro holds
        exact ⟨holds 0 (Nat.succ_pos count), fun call below =>
          holds (call + 1) (Nat.succ_lt_succ below)⟩

theorem eq_replicate_of_any_eq_false {outcomes : List Bool} (none : outcomes.any id = false) :
    outcomes = List.replicate outcomes.length false := by
  apply List.eq_replicate_iff.mpr
  refine ⟨rfl, ?_⟩
  intro outcome member
  exact Bool.eq_false_iff.mpr (List.any_eq_false.mp none outcome member)

/-- A program that tells from its result whether a read call failed makes a number of calls when
none fails, and its result is the bad one exactly when one of these fails. -/
theorem Reading.counted {program : DiskM α} {sectors : Nat → Buffer} {broken : α → Prop}
    {good : α} (reads : Reading program sectors fun failed value =>
      failed = true ∧ broken value ∨ failed = false ∧ value = good) :
    ∃ count, ∀ device : Device, device.sectors = sectors →
      ((∀ call < count, device.readFaults call = false) →
        program device = some (good, device.after count)) ∧
      ((∃ call < count, device.readFaults call = true) →
        ∃ value device', program device = some (value, device') ∧ broken value) := by
  rcases reads.plays (Device.healthy sectors) rfl with ⟨outcomes, value, plays, begins, holds⟩
  have none := begins.any_eq_false fun _ => rfl
  rw [none] at holds
  have same : value = good := by simpa using holds
  rw [eq_replicate_of_any_eq_false none, same] at plays
  refine ⟨outcomes.length, ?_⟩
  intro device sameSectors
  constructor
  · intro succeeds
    have ran := plays.run device sameSectors (Device.begins_replicate.mpr succeeds)
    rwa [List.length_replicate] at ran
  · intro fails
    rcases fails with ⟨call, below, failed⟩
    rcases reads.plays device sameSectors with ⟨outcomes', value', plays', begins', holds'⟩
    refine ⟨value', _, plays'.run device sameSectors begins', ?_⟩
    cases holds' with
    | inl bad => exact bad.2
    | inr fine =>
        -- without a failure the calls are those of the undisturbed run, and one of these failed
        have made := eq_replicate_of_any_eq_false fine.1
        rw [made] at plays' begins'
        have healthy (count : Nat) :
            (Device.healthy sectors).Begins (List.replicate count false) :=
          Device.begins_replicate.mpr fun _ _ => rfl
        have equal : List.replicate outcomes'.length false =
            List.replicate outcomes.length false := by
          cases Nat.le_total outcomes'.length outcomes.length with
          | inl shorter =>
              exact plays'.unique plays (healthy _) (healthy _) (by simpa using shorter)
          | inr shorter =>
              exact (plays.unique plays' (healthy _) (healthy _) (by simpa using shorter)).symm
        rw [equal] at begins'
        have succeeded := Device.begins_replicate.mp begins' call below
        rw [failed] at succeeded
        cases succeeded

end Foundation

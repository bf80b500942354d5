import ParanOS.Foundation.Failures

/-! # The calls that a run makes

What a program does is settled by the outcomes of the calls that it makes, and by no later
ones. A run on which no call fails is therefore also the run on every device on which as many
read calls succeed.
-/

namespace Foundation

namespace Device

/-- The same device with other outcomes of the read calls. -/
def faulty (device : Device) (readFaults : Nat → Bool) : Device :=
  { device with readFaults := readFaults }

@[simp] theorem faulty_sectors (device : Device) (readFaults : Nat → Bool) :
    (device.faulty readFaults).sectors = device.sectors := rfl

@[simp] theorem faulty_readFaults (device : Device) (readFaults : Nat → Bool) :
    (device.faulty readFaults).readFaults = readFaults := rfl

theorem faulty_self (device : Device) : device.faulty device.readFaults = device := rfl

end Device

/-- A run makes a number of read calls, and goes the same way whatever later ones do. -/
structure Causal {α : Type} (program : DiskM α) : Prop where
  calls : ∀ device value device', program device = some (value, device') → ∃ count,
    ∀ readFaults, (∀ call < count, readFaults call = device.readFaults call) →
      program (device.faulty readFaults) =
        some (value, device'.faulty fun call => readFaults (call + count))

namespace Causal

variable {α β : Type}

theorem pure (value : α) : Causal (Pure.pure value : DiskM α) := by
  constructor
  intro device result device' ran
  simp only [DiskM.pure_apply, Option.some.injEq, Prod.mk.injEq] at ran
  rcases ran with ⟨rfl, rfl⟩
  exact ⟨0, fun readFaults _ => rfl⟩

theorem diverge : Causal (DiskM.diverge : DiskM α) := by
  constructor
  intro device result device' ran
  simp at ran

theorem rd (lba : Nat) : Causal (Foundation.rd lba) := by
  constructor
  intro device result device' ran
  simp only [Foundation.rd, Option.some.injEq, Prod.mk.injEq] at ran
  rcases ran with ⟨rfl, rfl⟩
  refine ⟨1, fun readFaults agree => ?_⟩
  simp only [Foundation.rd, Device.faulty, agree 0 (by omega)]

theorem wr (lba : Nat) (sector : Buffer) : Causal (Foundation.wr lba sector) := by
  constructor
  intro device result device' ran
  simp only [Foundation.wr, Option.some.injEq, Prod.mk.injEq] at ran
  rcases ran with ⟨rfl, rfl⟩
  exact ⟨0, fun readFaults _ => rfl⟩

theorem bind {program : DiskM α} {rest : α → DiskM β} (first : Causal program)
    (second : ∀ value, Causal (rest value)) : Causal (program >>= rest) := by
  constructor
  intro device result device' ran
  rcases DiskM.of_bind ran with ⟨value, middle, programRan, restRan⟩
  rcases first.calls device value middle programRan with ⟨count, early⟩
  rcases (second value).calls middle result device' restRan with ⟨count', late⟩
  -- where the outcomes stand after the first part
  have stands := early device.readFaults fun _ _ => rfl
  rw [device.faulty_self, programRan, Option.some.injEq, Prod.mk.injEq] at stands
  refine ⟨count + count', fun readFaults agree => ?_⟩
  rw [DiskM.bind_run (early readFaults fun call below => agree call (by omega)), late]
  · congr 3
    funext call
    rw [Nat.add_assoc, Nat.add_comm count']
  · intro call below
    rw [stands.2]
    exact agree (call + count) (by omega)

theorem ite {condition : Prop} [Decidable condition] {positive negative : DiskM α}
    (whenTrue : Causal positive) (whenFalse : Causal negative) :
    Causal (if condition then positive else negative) := by
  split
  · exact whenTrue
  · exact whenFalse

/-- A read call, and what follows it. -/
theorem rd_bind {lba : Nat} {rest : Option Buffer → DiskM β} (failed : Causal (rest none))
    (done : ∀ sec, Causal (rest (some sec))) : Causal (Foundation.rd lba >>= rest) := by
  apply bind (rd lba)
  intro value
  cases value with
  | none => exact failed
  | some sec => exact done sec

/-- A write call, and what follows it. -/
theorem wr_bind {lba : Nat} {sector : Buffer} {rest : Bool → DiskM β}
    (later : ∀ failed, Causal (rest failed)) : Causal (Foundation.wr lba sector >>= rest) :=
  bind (wr lba sector) later

/-- A part that fails or returns something, and what follows it. -/
theorem option_bind {program : DiskM (Option α)} {rest : Option α → DiskM β}
    (first : Causal program) (nothing : Causal (rest none))
    (something : ∀ value, Causal (rest (some value))) : Causal (program >>= rest) := by
  apply bind first
  intro value
  cases value with
  | none => exact nothing
  | some value => exact something value

theorem findSomeM? {ι : Type} {visit : ι → DiskM (Option β)}
    (visits : ∀ position, Causal (visit position)) (positions : List ι) :
    Causal (positions.findSomeM? visit) := by
  induction positions with
  | nil => exact pure none
  | cons head tail induction =>
      rw [List.findSomeM?_cons]
      exact option_bind (visits head) induction fun value => pure (some value)

theorem foldlM {ι : Type} {step : β → ι → DiskM β} (steps : ∀ value item, Causal (step value item))
    (items : List ι) (start : β) : Causal (items.foldlM step start) := by
  induction items generalizing start with
  | nil => exact pure start
  | cons head tail induction =>
      rw [List.foldlM_cons]
      exact bind (steps start head) induction

end Causal

/-! ## Runs without a fault -/

/-- When the next read calls succeed, as many as the count says, and no write call fails, the
program makes just these read calls, returns the value and leaves the sectors. -/
structure Performs {α : Type} (program : DiskM α) (sectors : Nat → Buffer) (count : Nat) (value : α)
    (sectors' : Nat → Buffer) : Prop where
  run : ∀ device : Device, device.sectors = sectors →
    (∀ call, device.writeFaults call = false) → (∀ call < count, device.readFaults call = false) →
    program device = some (value, { device.after count with sectors := sectors' })

/-- What a program does on a healthy device it does wherever as many read calls succeed. -/
theorem Causal.performs {α : Type} {program : DiskM α} (causal : Causal program)
    {sectors sectors' : Nat → Buffer} {value : α}
    (ran : program (Device.healthy sectors) = some (value, Device.healthy sectors')) :
    ∃ count, Performs program sectors count value sectors' := by
  rcases causal.calls _ _ _ ran with ⟨count, early⟩
  refine ⟨count, ⟨fun device same writes reads => ?_⟩⟩
  rcases device with ⟨stored, readFaults, writeFaults⟩
  have healthyWrites : writeFaults = fun _ => false := funext writes
  dsimp only at same
  subst same healthyWrites
  exact early readFaults reads

/-- A loop over a list keeps what each of its steps keeps, if no call fails. -/
theorem foldlM_healthy {α ι : Type} {step : α → ι → DiskM α}
    {invariant : α → (Nat → Buffer) → Prop} {items : List ι}
    (kept : ∀ item ∈ items, ∀ value sectors, invariant value sectors → ∃ value' sectors',
      step value item (Device.healthy sectors) = some (value', Device.healthy sectors') ∧
        invariant value' sectors')
    {value : α} {sectors : Nat → Buffer} (holds : invariant value sectors) :
    ∃ value' sectors', items.foldlM step value (Device.healthy sectors) =
        some (value', Device.healthy sectors') ∧ invariant value' sectors' := by
  induction items generalizing value sectors with
  | nil => exact ⟨value, sectors, rfl, holds⟩
  | cons head tail induction =>
      rcases kept head List.mem_cons_self value sectors holds with ⟨next, middle, ran, nextHolds⟩
      rcases induction (fun item member => kept item (List.mem_cons_of_mem head member)) nextHolds
        with ⟨value', sectors', ranRest, final⟩
      refine ⟨value', sectors', ?_, final⟩
      rw [List.foldlM_cons, DiskM.bind_run ran]
      exact ranRest

end Foundation

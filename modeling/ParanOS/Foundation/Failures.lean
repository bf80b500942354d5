import ParanOS.Foundation.Rules

/-! # Runs in which calls fail

Two kinds of statements about runs on a device some of whose calls fail. `Reading`
follows a program that only reads through the outcomes of its read calls, so that
it can be said whether one of them failed. `Runs` is about programs that may write
as well: from sectors of one kind they return, with a result and sectors of another
kind, whichever calls of the given kinds fail.
-/

namespace Foundation

namespace Device

/-- The device after a number of read calls. -/
def after (device : Device) (count : Nat) : Device :=
  { device with readFaults := fun call => device.readFaults (call + count) }

@[simp] theorem after_sectors (device : Device) (count : Nat) :
    (device.after count).sectors = device.sectors := rfl

@[simp] theorem after_writeFaults (device : Device) (count : Nat) :
    (device.after count).writeFaults = device.writeFaults := rfl

theorem after_zero (device : Device) : device.after 0 = device := rfl

theorem after_after (device : Device) (first second : Nat) :
    (device.after first).after second = device.after (first + second) := by
  simp only [after, Device.mk.injEq, true_and, and_true]
  funext call
  congr 1
  omega

/-- A device none of whose reads fails. -/
def quiet (sectors : Nat → Buffer) (writeFaults : Nat → Bool) : Device :=
  ⟨sectors, fun _ => false, writeFaults⟩

/-- The next read calls fail or succeed as listed. -/
def Begins : Device → List Bool → Prop
  | _, [] => True
  | device, failed :: rest => device.readFaults 0 = failed ∧ (device.after 1).Begins rest

theorem begins_append {device : Device} {first second : List Bool} :
    device.Begins (first ++ second) ↔
      device.Begins first ∧ (device.after first.length).Begins second := by
  induction first generalizing device with
  | nil => simp [Begins, after_zero]
  | cons head tail induction =>
      rw [List.cons_append, Begins, Begins, induction, after_after, List.length_cons,
        Nat.add_comm 1, and_assoc]

/-- The outcomes of the calls of a device, as many as wanted, determine each other. -/
theorem Begins.isPrefix {device : Device} {first second : List Bool}
    (begins : device.Begins first) (begins' : device.Begins second)
    (shorter : first.length ≤ second.length) : ∃ rest, second = first ++ rest := by
  induction first generalizing device second with
  | nil => exact ⟨second, rfl⟩
  | cons head tail induction =>
      cases second with
      | nil => simp at shorter
      | cons head' tail' =>
          rcases induction begins.2 begins'.2 (by simpa using shorter) with ⟨rest, equal⟩
          refine ⟨rest, ?_⟩
          rw [equal, ← begins.1, ← begins'.1]
          rfl

/-- No read call of a device without such faults fails. -/
theorem Begins.any_eq_false {device : Device} {outcomes : List Bool}
    (begins : device.Begins outcomes) (healthy : ∀ call, device.readFaults call = false) :
    outcomes.any id = false := by
  induction outcomes generalizing device with
  | nil => rfl
  | cons head tail induction =>
      have later := induction begins.2 fun call => healthy (call + 1)
      rw [List.any_cons, later, ← begins.1, healthy 0]
      rfl

/-- The read calls fail as listed, and then as another device's do. -/
def preceded (device : Device) (outcomes : List Bool) : Device :=
  { device with
    readFaults := fun call =>
      if call < outcomes.length then outcomes.getD call false
      else device.readFaults (call - outcomes.length) }

theorem preceded_begins (device : Device) (outcomes : List Bool) :
    (device.preceded outcomes).Begins outcomes := by
  induction outcomes generalizing device with
  | nil => trivial
  | cons head tail induction =>
      refine ⟨by simp [preceded], ?_⟩
      have next : (device.preceded (head :: tail)).after 1 = device.preceded tail := by
        simp only [preceded, after, Device.mk.injEq, true_and, and_true]
        funext call
        simp
      rw [next]
      exact induction device

theorem preceded_after (device : Device) (outcomes : List Bool) :
    (device.preceded outcomes).after outcomes.length = device := by
  simp only [after, preceded]
  congr 1
  funext call
  rw [if_neg (by omega), Nat.add_sub_cancel]

@[simp] theorem preceded_sectors (device : Device) (outcomes : List Bool) :
    (device.preceded outcomes).sectors = device.sectors := rfl

@[simp] theorem preceded_writeFaults (device : Device) (outcomes : List Bool) :
    (device.preceded outcomes).writeFaults = device.writeFaults := rfl

end Device

/-! ## Outcomes of read calls -/

/-- Whenever its read calls have these outcomes, the program returns the value, and
has done nothing but these calls. -/
structure Plays {α : Type} (program : DiskM α) (sectors : Nat → Buffer) (outcomes : List Bool)
    (value : α) : Prop where
  run : ∀ device : Device, device.sectors = sectors → device.Begins outcomes →
    program device = some (value, device.after outcomes.length)

namespace Plays

variable {α β : Type} {sectors : Nat → Buffer}

theorem pure (value : α) : Plays (Pure.pure value) sectors [] value :=
  ⟨fun _ _ _ => rfl⟩

theorem rd_failed (lba : Nat) : Plays (rd lba) sectors [true] none := by
  constructor
  intro device _ begins
  have failed : device.readFaults 0 = true := begins.1
  rw [rd, failed]
  rfl

theorem rd_done (lba : Nat) : Plays (rd lba) sectors [false] (some (sectors (u32 lba))) := by
  constructor
  intro device same begins
  have done : device.readFaults 0 = false := begins.1
  rw [← same, rd, done]
  rfl

theorem bind {program : DiskM α} {rest : α → DiskM β} {first second : List Bool} {value : α}
    {result : β} (before : Plays program sectors first value)
    (later : Plays (rest value) sectors second result) :
    Plays (program >>= rest) sectors (first ++ second) result := by
  constructor
  intro device same begins
  rcases Device.begins_append.mp begins with ⟨beginsFirst, beginsSecond⟩
  have ran := later.run (device.after first.length) same beginsSecond
  rw [DiskM.bind_run (before.run device same beginsFirst), ran, Device.after_after,
    List.length_append]

/-- The outcomes of the calls determine how many calls are made. -/
theorem unique {program : DiskM α} {first second : List Bool} {value result : α} {device : Device}
    (plays : Plays program sectors first value) (plays' : Plays program sectors second result)
    (begins : device.Begins first) (begins' : device.Begins second)
    (shorter : first.length ≤ second.length) : first = second := by
  rcases begins.isPrefix begins' shorter with ⟨rest, equal⟩
  cases rest with
  | nil => rw [equal, List.append_nil]
  | cons head tail =>
      -- behind the longer list all calls have the outcome that the shorter one excludes
      let other : Device := ⟨sectors, fun _ => !head, fun _ => false⟩
      have beginsOther := other.preceded_begins second
      have beginsShort := beginsOther
      rw [equal, Device.begins_append] at beginsShort
      have ran := plays.run _ rfl (equal ▸ beginsShort.1)
      rw [plays'.run _ rfl beginsOther, Option.some.injEq, Prod.mk.injEq,
        Device.preceded_after] at ran
      have headOf : ((other.preceded second).after first.length).readFaults 0 = head := by
        rw [equal]
        exact beginsShort.2.1
      rw [← ran.2] at headOf
      simp [other] at headOf

end Plays

/-- A read call of the program fails. -/
def ReadFails {α : Type} (program : DiskM α) (device : Device) : Prop :=
  ∃ outcomes value, Plays program device.sectors outcomes value ∧ device.Begins outcomes ∧
    outcomes.any id = true

/-- The program only reads and returns, and what it returns fits with whether one of
its read calls failed. -/
structure Reading {α : Type} (program : DiskM α) (sectors : Nat → Buffer)
    (post : Bool → α → Prop) : Prop where
  plays : ∀ device : Device, device.sectors = sectors → ∃ outcomes value,
    Plays program sectors outcomes value ∧ device.Begins outcomes ∧ post (outcomes.any id) value

namespace Reading

variable {α β : Type} {sectors : Nat → Buffer}

theorem pure {value : α} {post : Bool → α → Prop} (holds : post false value) :
    Reading (Pure.pure value) sectors post :=
  ⟨fun _ _ => ⟨[], value, .pure value, trivial, holds⟩⟩

theorem rd {lba : Nat} {post : Bool → Option Buffer → Prop} (failed : post true none)
    (done : post false (some (sectors (u32 lba)))) : Reading (Foundation.rd lba) sectors post := by
  constructor
  intro device _
  cases outcome : device.readFaults 0 with
  | true => exact ⟨[true], none, .rd_failed lba, ⟨outcome, trivial⟩, failed⟩
  | false => exact ⟨[false], _, .rd_done lba, ⟨outcome, trivial⟩, done⟩

theorem bind {program : DiskM α} {rest : α → DiskM β} {middle : Bool → α → Prop}
    {post : Bool → β → Prop} (first : Reading program sectors middle)
    (second : ∀ failed value, middle failed value →
      Reading (rest value) sectors fun later result => post (failed || later) result) :
    Reading (program >>= rest) sectors post := by
  constructor
  intro device same
  rcases first.plays device same with ⟨outcomes, value, plays, begins, holds⟩
  rcases (second _ value holds).plays (device.after outcomes.length) same with
    ⟨outcomes', result, plays', begins', holds'⟩
  refine ⟨outcomes ++ outcomes', result, plays.bind plays',
    Device.begins_append.mpr ⟨begins, begins'⟩, ?_⟩
  rw [List.any_append]
  exact holds'

/-- A read call and what follows it. -/
theorem rd_bind {lba : Nat} {rest : Option Buffer → DiskM β} {post : Bool → β → Prop}
    (failed : Reading (rest none) sectors fun _ result => post true result)
    (done : Reading (rest (some (sectors (u32 lba)))) sectors post) :
    Reading (Foundation.rd lba >>= rest) sectors post := by
  have call : Reading (Foundation.rd lba) sectors fun failed value =>
      failed = true ∧ value = none ∨ failed = false ∧ value = some (sectors (u32 lba)) :=
    rd (.inl ⟨rfl, rfl⟩) (.inr ⟨rfl, rfl⟩)
  apply call.bind
  intro outcome value returned
  rcases returned with ⟨rfl, rfl⟩ | ⟨rfl, rfl⟩
  · exact failed
  · exact done

theorem ite {condition : Prop} [Decidable condition] {positive negative : DiskM α}
    {post : Bool → α → Prop} (whenTrue : condition → Reading positive sectors post)
    (whenFalse : ¬ condition → Reading negative sectors post) :
    Reading (if condition then positive else negative) sectors post := by
  split
  · next holds => exact whenTrue holds
  · next fails => exact whenFalse fails

theorem mono {program : DiskM α} {post weaker : Bool → α → Prop}
    (reads : Reading program sectors post)
    (weakened : ∀ failed value, post failed value → weaker failed value) :
    Reading program sectors weaker := by
  constructor
  intro device same
  rcases reads.plays device same with ⟨outcomes, value, plays, begins, holds⟩
  exact ⟨outcomes, value, plays, begins, weakened _ value holds⟩

/-- What a run of the program returns, and that a read call of it failed just if the
result says so. -/
theorem result {program : DiskM α} {post : Bool → α → Prop} (reads : Reading program sectors post)
    {device : Device} (same : device.sectors = sectors) :
    ∃ failed value count, program device = some (value, device.after count) ∧
      post failed value ∧ (ReadFails program device → failed = true) := by
  rcases reads.plays device same with ⟨outcomes, value, plays, begins, holds⟩
  refine ⟨outcomes.any id, value, outcomes.length, plays.run device same begins, holds, ?_⟩
  intro fails
  rcases fails with ⟨outcomes', value', plays', begins', failed⟩
  rw [same] at plays'
  rcases Nat.le_total outcomes.length outcomes'.length with shorter | shorter
  · rw [plays.unique plays' begins begins' shorter]
    exact failed
  · rw [← plays'.unique plays begins' begins shorter]
    exact failed

/-- On a healthy device all calls succeed. -/
theorem healthy {program : DiskM α} {post : Bool → α → Prop}
    (reads : Reading program sectors post) :
    ∃ outcomes value, Plays program sectors outcomes value ∧ post false value ∧
      program (Device.healthy sectors) = some (value, Device.healthy sectors) := by
  rcases reads.plays (Device.healthy sectors) rfl with ⟨outcomes, value, plays, begins, holds⟩
  have done := begins.any_eq_false fun _ => rfl
  rw [done] at holds
  exact ⟨outcomes, value, plays, holds, plays.run _ rfl begins⟩

/-- On a device none of whose reads fails the program returns and leaves the device as
it was, the outcomes of the write calls to come included. -/
theorem quiet {program : DiskM α} {post : Bool → α → Prop} (reads : Reading program sectors post)
    (writeFaults : Nat → Bool) :
    ∃ value, program (Device.quiet sectors writeFaults) =
        some (value, Device.quiet sectors writeFaults) ∧ post false value := by
  rcases reads.plays (Device.quiet sectors writeFaults) rfl with
    ⟨outcomes, value, plays, begins, holds⟩
  rw [begins.any_eq_false fun _ => rfl] at holds
  exact ⟨value, plays.run _ rfl begins, holds⟩

/-- A search whose every step ends it when a read fails, and otherwise sees what the
plain search sees. -/
theorem findSomeM? {ι : Type} {visit : ι → DiskM (Option β)} {plain : ι → Option β} {broken : β}
    {positions : List ι}
    (steps : ∀ position ∈ positions, Reading (visit position) sectors fun failed value =>
      failed = true ∧ value = some broken ∨ failed = false ∧ value = plain position) :
    Reading (positions.findSomeM? visit) sectors fun failed value =>
      failed = true ∧ value = some broken ∨ failed = false ∧ value = positions.findSome? plain := by
  induction positions with
  | nil => exact pure (.inr ⟨rfl, rfl⟩)
  | cons head tail induction =>
      have later := induction fun position member => steps position (by simp [member])
      apply bind (steps head (by simp))
      intro failed value outcome
      rcases outcome with ⟨rfl, rfl⟩ | ⟨rfl, rfl⟩
      · exact pure (.inl ⟨rfl, rfl⟩)
      · rw [List.findSome?_cons]
        cases plain head with
        | none => exact later
        | some found => exact pure (.inr ⟨rfl, rfl⟩)

end Reading

/-! ## Programs that write -/

/-- The kinds of calls that may fail. -/
structure Trouble where
  reads : Bool
  writes : Bool

def Trouble.Possible (trouble : Trouble) : Prop := trouble.reads = true ∨ trouble.writes = true

/-- Any write call may fail, and no read call does. -/
abbrev failingWrites : Trouble := ⟨false, true⟩

/-- Any read call may fail, and no write call does. -/
abbrev failingReads : Trouble := ⟨true, false⟩

/-- Only calls of the given kinds fail. -/
structure Device.Within (device : Device) (trouble : Trouble) : Prop where
  reads : trouble.reads = false → ∀ call, device.readFaults call = false
  writes : trouble.writes = false → ∀ call, device.writeFaults call = false

theorem Device.Within.after {device : Device} {trouble : Trouble} (within : device.Within trouble)
    (count : Nat) : (device.after count).Within trouble :=
  ⟨fun none call => within.reads none (call + count), within.writes⟩

/-- A device none of whose calls fails is a healthy one. -/
theorem Device.Within.eq_healthy {device : Device} (within : device.Within ⟨false, false⟩) :
    device = Device.healthy device.sectors := by
  rcases device with ⟨sectors, readFaults, writeFaults⟩
  simp only [healthy, Device.mk.injEq, true_and]
  exact ⟨funext (within.reads rfl), funext (within.writes rfl)⟩

theorem Device.within_healthy (sectors : Nat → Buffer) (trouble : Trouble) :
    (Device.healthy sectors).Within trouble :=
  ⟨fun _ _ => rfl, fun _ _ => rfl⟩

/-- Whichever calls fail, of the kinds that may, the program returns, and its result and
the sectors it leaves are as stated. -/
structure Runs {α : Type} (trouble : Trouble) (program : DiskM α) (sectors : Nat → Buffer)
    (post : α → (Nat → Buffer) → Prop) : Prop where
  returns : ∀ device : Device, device.Within trouble → device.sectors = sectors →
    ∃ value device', program device = some (value, device') ∧ device'.Within trouble ∧
      post value device'.sectors

namespace Runs

variable {α β : Type} {trouble : Trouble} {sectors : Nat → Buffer}

theorem pure {value : α} {post : α → (Nat → Buffer) → Prop} (holds : post value sectors) :
    Runs trouble (Pure.pure value) sectors post :=
  ⟨fun device within same => ⟨value, device, rfl, within, by rw [same]; exact holds⟩⟩

theorem rd {lba : Nat} {post : Option Buffer → (Nat → Buffer) → Prop}
    (failed : trouble.reads = true → post none sectors)
    (done : post (some (sectors (u32 lba))) sectors) :
    Runs trouble (Foundation.rd lba) sectors post := by
  constructor
  intro device within same
  subst same
  refine ⟨_, device.after 1, rfl, within.after 1, ?_⟩
  cases outcome : device.readFaults 0 with
  | true =>
      apply failed
      by_contra none
      have healthy := within.reads (by simpa using none) 0
      rw [outcome] at healthy
      simp at healthy
  | false => exact done

theorem wr {lba : Nat} {sector : Buffer} {post : Bool → (Nat → Buffer) → Prop}
    (failed : trouble.writes = true → post true sectors)
    (done : post false (store sectors (u32 lba) sector)) :
    Runs trouble (Foundation.wr lba sector) sectors post := by
  constructor
  intro device within same
  subst same
  refine ⟨_, _, rfl, ⟨within.reads, fun none call => within.writes none (call + 1)⟩, ?_⟩
  simp only
  cases outcome : device.writeFaults 0 with
  | true =>
      apply failed
      by_contra none
      have healthy := within.writes (by simpa using none) 0
      rw [outcome] at healthy
      simp at healthy
  | false => exact done

theorem bind {program : DiskM α} {rest : α → DiskM β} {middle : α → (Nat → Buffer) → Prop}
    {post : β → (Nat → Buffer) → Prop} (first : Runs trouble program sectors middle)
    (second : ∀ value between, middle value between → Runs trouble (rest value) between post) :
    Runs trouble (program >>= rest) sectors post := by
  constructor
  intro device within same
  rcases first.returns device within same with ⟨value, between, ran, within', holds⟩
  rcases (second value between.sectors holds).returns between within' rfl with
    ⟨result, device', ran', within'', holds'⟩
  exact ⟨result, device', (DiskM.bind_run ran).trans ran', within'', holds'⟩

theorem rd_bind {lba : Nat} {rest : Option Buffer → DiskM β} {post : β → (Nat → Buffer) → Prop}
    (failed : trouble.reads = true → Runs trouble (rest none) sectors post)
    (done : Runs trouble (rest (some (sectors (u32 lba)))) sectors post) :
    Runs trouble (Foundation.rd lba >>= rest) sectors post := by
  have call : Runs trouble (Foundation.rd lba) sectors fun value sectors' => sectors' = sectors ∧
      (trouble.reads = true ∧ value = none ∨ value = some (sectors (u32 lba))) :=
    rd (fun may => ⟨rfl, .inl ⟨may, rfl⟩⟩) ⟨rfl, .inr rfl⟩
  apply call.bind
  intro value between returned
  rcases returned with ⟨rfl, ⟨may, rfl⟩ | rfl⟩
  · exact failed may
  · exact done

theorem wr_bind {lba : Nat} {sector : Buffer} {rest : Bool → DiskM β}
    {post : β → (Nat → Buffer) → Prop}
    (failed : trouble.writes = true → Runs trouble (rest true) sectors post)
    (done : Runs trouble (rest false) (store sectors (u32 lba) sector) post) :
    Runs trouble (Foundation.wr lba sector >>= rest) sectors post := by
  have call : Runs trouble (Foundation.wr lba sector) sectors fun value sectors' =>
      trouble.writes = true ∧ value = true ∧ sectors' = sectors ∨
      value = false ∧ sectors' = store sectors (u32 lba) sector :=
    wr (fun may => .inl ⟨may, rfl, rfl⟩) (.inr ⟨rfl, rfl⟩)
  apply call.bind
  intro value between returned
  rcases returned with ⟨may, rfl, rfl⟩ | ⟨rfl, rfl⟩
  · exact failed may
  · exact done

theorem ite {condition : Prop} [Decidable condition] {positive negative : DiskM α}
    {post : α → (Nat → Buffer) → Prop} (whenTrue : condition → Runs trouble positive sectors post)
    (whenFalse : ¬ condition → Runs trouble negative sectors post) :
    Runs trouble (if condition then positive else negative) sectors post := by
  split
  · next holds => exact whenTrue holds
  · next fails => exact whenFalse fails

theorem mono {program : DiskM α} {post weaker : α → (Nat → Buffer) → Prop}
    (runs : Runs trouble program sectors post)
    (weakened : ∀ value sectors', post value sectors' → weaker value sectors') :
    Runs trouble program sectors weaker := by
  constructor
  intro device within same
  rcases runs.returns device within same with ⟨value, device', ran, within', holds⟩
  exact ⟨value, device', ran, within', weakened value _ holds⟩

/-- On a healthy device no call fails. -/
theorem healthy {program : DiskM α} {post : α → (Nat → Buffer) → Prop}
    (runs : Runs ⟨false, false⟩ program sectors post) :
    ∃ value sectors', program (Device.healthy sectors) = some (value, Device.healthy sectors') ∧
      post value sectors' := by
  rcases runs.returns (Device.healthy sectors) (Device.within_healthy _ _) rfl with
    ⟨value, device', ran, within, holds⟩
  rw [within.eq_healthy] at ran
  exact ⟨value, device'.sectors, ran, holds⟩

/-- A program that only reads, as a step of one that writes. -/
theorem of_reading {program : DiskM α} {post : Bool → α → Prop}
    (reads : Reading program sectors post) :
    Runs trouble program sectors fun value sectors' => sectors' = sectors ∧
      ∃ failed, post failed value ∧ (trouble.reads = false → failed = false) := by
  constructor
  intro device within same
  rcases reads.plays device same with ⟨outcomes, value, plays, begins, holds⟩
  refine ⟨value, _, plays.run device same begins, within.after _, same, _, holds, ?_⟩
  intro none
  exact begins.any_eq_false (within.reads none)

/-- A program that only reads does so without a fault where no read call fails. -/
theorem read {program : DiskM α} {post : Bool → α → Prop} {writes : Bool}
    (reads : Reading program sectors post) :
    Runs ⟨false, writes⟩ program sectors fun value sectors' =>
      sectors' = sectors ∧ post false value := by
  apply (of_reading reads).mono
  intro value sectors' returned
  rcases returned with ⟨same, failed, holds, none⟩
  rw [none rfl] at holds
  exact ⟨same, holds⟩

end Runs

end Foundation

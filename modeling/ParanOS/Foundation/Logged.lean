import ParanOS.Foundation.Failures

/-! # Programs that keep a log

A program over the device that notes down what it does besides its disk calls. The log is there
also when a loop of the program did not end within its bound. Without its log the program is one
over the device alone, so what is known of that one need not be proved again.
-/

namespace Foundation

/-- The log, and what `DiskM` returns. -/
def LogM (ι α : Type) := Device → List ι × Option (α × Device)

namespace LogM

variable {ι α β : Type}

instance : Monad (LogM ι) where
  pure value := fun device => ([], some (value, device))
  bind program rest := fun device =>
    ((program device).1 ++ ((program device).2.elim [] fun result => (rest result.1 result.2).1),
      (program device).2.bind fun result => (rest result.1 result.2).2)

/-- Add entries to the log. -/
def note (entries : List ι) : LogM ι Unit := fun device => (entries, some ((), device))

/-- A program that notes nothing. -/
def lift (program : DiskM α) : LogM ι α := fun device => ([], program device)

/-- A loop has used up its bound. -/
def diverge : LogM ι α := fun _ => ([], none)

/-- The program without its log. -/
def erase (program : LogM ι α) : DiskM α := fun device => (program device).2

@[simp] theorem erase_pure (value : α) : erase (pure value : LogM ι α) = pure value := rfl

@[simp] theorem erase_bind (program : LogM ι α) (rest : α → LogM ι β) :
    erase (program >>= rest) = erase program >>= fun value => erase (rest value) := rfl

@[simp] theorem erase_note (entries : List ι) : erase (note entries) = pure () := rfl

@[simp] theorem erase_note_bind (entries : List ι) (rest : Unit → LogM ι α) :
    erase (note entries >>= rest) = erase (rest ()) := rfl

@[simp] theorem erase_lift (program : DiskM α) : erase (lift program : LogM ι α) = program := rfl

@[simp] theorem erase_diverge : erase (diverge : LogM ι α) = DiskM.diverge := rfl

@[simp] theorem erase_ite (condition : Prop) [Decidable condition] (positive negative : LogM ι α) :
    erase (if condition then positive else negative) =
      if condition then erase positive else erase negative := by
  split <;> rfl

/-- The search of a list. -/
theorem erase_findSomeM? {κ : Type} (visit : κ → LogM ι (Option α)) (positions : List κ) :
    erase (positions.findSomeM? visit) =
      positions.findSomeM? fun position => erase (visit position) := by
  induction positions with
  | nil => rfl
  | cons head tail induction =>
      rw [List.findSomeM?_cons, List.findSomeM?_cons, erase_bind]
      congr 1
      funext found
      cases found with
      | some value => rfl
      | none => exact induction

end LogM

/-! ## What a log may hold -/

/-- The log of a run. -/
def LogM.log {ι α : Type} (program : LogM ι α) (device : Device) : List ι := (program device).1

/-- Whatever the device holds and whichever calls fail, all entries of the log have a property. -/
structure LogsOnly {ι α : Type} (program : LogM ι α) (allowed : ι → Prop) : Prop where
  entries : ∀ device : Device, ∀ entry ∈ program.log device, allowed entry

namespace LogsOnly

variable {ι α β : Type} {allowed : ι → Prop}

theorem pure (value : α) : LogsOnly (Pure.pure value : LogM ι α) allowed :=
  ⟨fun _ _ member => absurd member List.not_mem_nil⟩

theorem diverge : LogsOnly (LogM.diverge : LogM ι α) allowed :=
  ⟨fun _ _ member => absurd member List.not_mem_nil⟩

theorem lift (program : DiskM α) : LogsOnly (LogM.lift program : LogM ι α) allowed :=
  ⟨fun _ _ member => absurd member List.not_mem_nil⟩

theorem note {notes : List ι} (all : ∀ entry ∈ notes, allowed entry) :
    LogsOnly (LogM.note notes) allowed :=
  ⟨fun _ => all⟩

theorem bind {program : LogM ι α} {rest : α → LogM ι β} (first : LogsOnly program allowed)
    (second : ∀ value, LogsOnly (rest value) allowed) : LogsOnly (program >>= rest) allowed := by
  constructor
  intro device entry member
  cases List.mem_append.mp member with
  | inl here => exact first.entries device entry here
  | inr behind =>
      cases ran : (program device).2 with
      | none => simp [ran] at behind
      | some returned =>
          rw [ran] at behind
          exact (second returned.1).entries returned.2 entry behind

theorem ite {condition : Prop} [Decidable condition] {positive negative : LogM ι α}
    (whenTrue : LogsOnly positive allowed) (whenFalse : LogsOnly negative allowed) :
    LogsOnly (if condition then positive else negative) allowed := by
  split
  · exact whenTrue
  · exact whenFalse

/-- A read call: nothing is noted when it fails. -/
theorem rd_bind {lba : Nat} {rest : Option Buffer → LogM ι α}
    (failed : LogsOnly (rest none) allowed)
    (done : ∀ sec, LogsOnly (rest (some sec)) allowed) :
    LogsOnly (LogM.lift (rd lba) >>= rest) allowed := by
  apply bind (lift _)
  intro value
  cases value with
  | none => exact failed
  | some sec => exact done sec

theorem findSomeM? {κ : Type} {visit : κ → LogM ι (Option α)}
    (visits : ∀ position, LogsOnly (visit position) allowed) (positions : List κ) :
    LogsOnly (positions.findSomeM? visit) allowed := by
  induction positions with
  | nil => exact pure none
  | cons head tail induction =>
      rw [List.findSomeM?_cons]
      apply bind (visits head)
      intro found
      cases found with
      | some value => exact pure (some value)
      | none => exact induction

end LogsOnly

/-! ## Every entry of the log -/

/-- Whichever read calls fail, all entries of the log have a property, the sectors stay as they
are, and so has what is returned. -/
structure Logging {ι α : Type} (program : LogM ι α) (sectors : Nat → Buffer) (allowed : ι → Prop)
    (post : α → Prop) : Prop where
  entries : ∀ device : Device, device.sectors = sectors →
    ∀ entry ∈ (program device).1, allowed entry
  result : ∀ device : Device, device.sectors = sectors →
    ∀ value device', program.erase device = some (value, device') →
      device'.sectors = sectors ∧ post value

namespace Logging

variable {ι α β : Type} {sectors : Nat → Buffer} {allowed : ι → Prop}

theorem pure {value : α} {post : α → Prop} (holds : post value) :
    Logging (Pure.pure value : LogM ι α) sectors allowed post where
  entries := by
    intro device _ entry member
    exact absurd member (List.not_mem_nil)
  result := by
    intro device same result device' ran
    simp only [LogM.erase_pure, DiskM.pure_apply, Option.some.injEq, Prod.mk.injEq] at ran
    exact ⟨ran.2 ▸ same, ran.1 ▸ holds⟩

theorem diverge {post : α → Prop} :
    Logging (LogM.diverge : LogM ι α) sectors allowed post where
  entries := by
    intro device _ entry member
    exact absurd member (List.not_mem_nil)
  result := by
    intro device _ value device' ran
    simp at ran

theorem note {notes : List ι} (all : ∀ entry ∈ notes, allowed entry) :
    Logging (LogM.note notes) sectors allowed fun _ => True where
  entries := fun _ _ => all
  result := by
    intro device same value device' ran
    simp only [LogM.erase, LogM.note, Option.some.injEq, Prod.mk.injEq] at ran
    exact ⟨ran.2 ▸ same, trivial⟩

/-- A part without a log of its own. -/
theorem lift {program : DiskM α} {post : Bool → α → Prop} (reads : Reading program sectors post) :
    Logging (LogM.lift program : LogM ι α) sectors allowed fun value =>
      ∃ failed, post failed value where
  entries := by
    intro device _ entry member
    exact absurd member (List.not_mem_nil)
  result := by
    intro device same value device' ran
    rcases reads.plays device same with ⟨outcomes, result, plays, begins, holds⟩
    rw [LogM.erase_lift, plays.run device same begins, Option.some.injEq, Prod.mk.injEq] at ran
    rcases ran with ⟨rfl, rfl⟩
    exact ⟨same, _, holds⟩

theorem bind {program : LogM ι α} {rest : α → LogM ι β} {middle : α → Prop} {post : β → Prop}
    (first : Logging program sectors allowed middle)
    (second : ∀ value, middle value → Logging (rest value) sectors allowed post) :
    Logging (program >>= rest) sectors allowed post where
  entries := by
    intro device same entry member
    rcases List.mem_append.mp member with here | behind
    · exact first.entries device same entry here
    · cases ran : (program device).2 with
      | none => simp [ran] at behind
      | some returned =>
          have between := first.result device same returned.1 returned.2 ran
          rw [ran] at behind
          exact (second _ between.2).entries _ between.1 entry behind
  result := by
    intro device same value device' ran
    rw [LogM.erase_bind] at ran
    rcases DiskM.of_bind ran with ⟨between, middleDevice, firstRan, restRan⟩
    have kept := first.result device same between middleDevice firstRan
    exact (second _ kept.2).result _ kept.1 value device' restRan

theorem ite {condition : Prop} [Decidable condition] {positive negative : LogM ι α}
    {post : α → Prop} (whenTrue : condition → Logging positive sectors allowed post)
    (whenFalse : ¬ condition → Logging negative sectors allowed post) :
    Logging (if condition then positive else negative) sectors allowed post := by
  split
  · next holds => exact whenTrue holds
  · next fails => exact whenFalse fails

theorem mono {program : LogM ι α} {post weaker : α → Prop}
    (logs : Logging program sectors allowed post)
    (weakened : ∀ value, post value → weaker value) :
    Logging program sectors allowed weaker where
  entries := logs.entries
  result := by
    intro device same value device' ran
    have kept := logs.result device same value device' ran
    exact ⟨kept.1, weakened value kept.2⟩

/-- Notes, and what follows them. -/
theorem note_bind {notes : List ι} {rest : Unit → LogM ι α} {post : α → Prop}
    (all : ∀ entry ∈ notes, allowed entry) (later : Logging (rest ()) sectors allowed post) :
    Logging (LogM.note notes >>= rest) sectors allowed post :=
  (note all).bind fun _ _ => later

/-- A read call, and what follows it. -/
theorem rd_bind {lba : Nat} {rest : Option Buffer → LogM ι α} {post : α → Prop}
    (failed : Logging (rest none) sectors allowed post)
    (done : Logging (rest (some (sectors (u32 lba)))) sectors allowed post) :
    Logging (LogM.lift (rd lba) >>= rest) sectors allowed post := by
  have call : Reading (rd lba) sectors fun _ value =>
      value = none ∨ value = some (sectors (u32 lba)) := .rd (.inl rfl) (.inr rfl)
  apply (lift call).bind
  intro value returned
  rcases returned with ⟨_, rfl | rfl⟩
  · exact failed
  · exact done

end Logging

/-! ## One entry of the log -/

/-- Whenever the read calls have these outcomes, the entry is in the log. -/
structure Logs {ι α : Type} (program : LogM ι α) (sectors : Nat → Buffer) (outcomes : List Bool)
    (entry : ι) : Prop where
  member : ∀ device : Device, device.sectors = sectors → device.Begins outcomes →
    entry ∈ (program device).1

namespace Logs

variable {ι α β : Type} {sectors : Nat → Buffer} {entry : ι}

theorem note {entries : List ι} (member : entry ∈ entries) :
    Logs (LogM.note entries) sectors [] entry :=
  ⟨fun _ _ _ => member⟩

theorem bind_left {program : LogM ι α} {outcomes : List Bool}
    (logs : Logs program sectors outcomes entry) (rest : α → LogM ι β) :
    Logs (program >>= rest) sectors outcomes entry :=
  ⟨fun device same begins => List.mem_append_left _ (logs.member device same begins)⟩

theorem bind_right {program : LogM ι α} {rest : α → LogM ι β} {first second : List Bool}
    {value : α} (plays : Plays program.erase sectors first value)
    (logs : Logs (rest value) sectors second entry) :
    Logs (program >>= rest) sectors (first ++ second) entry := by
  constructor
  intro device same begins
  rcases Device.begins_append.mp begins with ⟨beginsFirst, beginsSecond⟩
  have ran : (program device).2 = _ := plays.run device same beginsFirst
  apply List.mem_append_right
  rw [ran]
  exact logs.member (device.after first.length) same beginsSecond

/-- An entry behind a part without a log. -/
theorem lift_bind {program : DiskM α} {rest : α → LogM ι β} {first second : List Bool}
    {value : α} (plays : Plays program sectors first value)
    (logs : Logs (rest value) sectors second entry) :
    Logs (LogM.lift program >>= rest) sectors (first ++ second) entry :=
  @bind_right _ _ _ _ _ (LogM.lift program) _ _ _ _ plays logs

/-- An entry behind other notes. -/
theorem note_bind {notes : List ι} {rest : Unit → LogM ι α} {outcomes : List Bool}
    (logs : Logs (rest ()) sectors outcomes entry) :
    Logs (LogM.note notes >>= rest) sectors outcomes entry :=
  @bind_right _ _ _ _ _ (LogM.note notes) _ [] _ _ (Plays.pure ()) logs

/-- A device on which the read calls have these outcomes. -/
theorem exists_faults {program : LogM ι α} {outcomes : List Bool}
    (logs : Logs program sectors outcomes entry) :
    ∃ readFaults, entry ∈ (program ⟨sectors, readFaults, fun _ => false⟩).1 :=
  ⟨_, logs.member ((Device.healthy sectors).preceded outcomes) rfl
    (Device.preceded_begins _ outcomes)⟩

end Logs

end Foundation

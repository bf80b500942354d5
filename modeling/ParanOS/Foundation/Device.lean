import ParanOS.Foundation.Bytes

/-! # A block device with failing transfers

The device is reached only through a read and a write call-back, one sector at
a time. Which of the calls to come fail is part of the device's state, so a
statement for every device is a statement for every pattern of failures. A
program run against the device may also fail to return: it then has no result
for the loop bound it was given.
-/

namespace Foundation

/-- Sector contents, and for each direction whether the n-th call to come
fails. -/
structure Device where
  sectors : Nat → Buffer
  readFaults : Nat → Bool
  writeFaults : Nat → Bool

namespace Device

/-- A device none of whose calls fails. -/
def healthy (sectors : Nat → Buffer) : Device where
  sectors := sectors
  readFaults := fun _ => false
  writeFaults := fun _ => false

@[simp] theorem healthy_sectors (sectors : Nat → Buffer) :
    (healthy sectors).sectors = sectors := rfl

end Device

/-- Replace one sector. -/
def store (sectors : Nat → Buffer) (lba : Nat) (sector : Buffer) : Nat → Buffer :=
  fun address => if address = lba then sector else sectors address

theorem store_same (sectors : Nat → Buffer) (lba : Nat) (sector : Buffer) :
    store sectors lba sector lba = sector := if_pos rfl

theorem store_other {sectors : Nat → Buffer} {lba address : Nat} {sector : Buffer}
    (different : address ≠ lba) :
    store sectors lba sector address = sectors address := if_neg different

theorem store_eq_self {sectors : Nat → Buffer} {lba : Nat} {sector : Buffer}
    (same : sectors lba = sector) : store sectors lba sector = sectors := by
  funext address
  simp only [store]
  split
  · next equal => rw [equal, same]
  · rfl

/-! ## Programs over a device -/

/-- A program over the device: its result and the device afterwards, or `none`
when a loop of it did not end within its bound. -/
def DiskM (α : Type) := Device → Option (α × Device)

namespace DiskM

instance : Monad DiskM where
  pure value := fun device => some (value, device)
  bind program rest := fun device =>
    (program device).bind fun result => rest result.1 result.2

/-- A loop has used up its bound. -/
def diverge {α : Type} : DiskM α := fun _ => none

@[simp] theorem pure_apply {α : Type} (value : α) (device : Device) :
    (pure value : DiskM α) device = some (value, device) := rfl

@[simp] theorem bind_apply {α β : Type} (program : DiskM α) (rest : α → DiskM β)
    (device : Device) :
    (program >>= rest) device =
      (program device).bind fun result => rest result.1 result.2 := rfl

/-- A program whose result is known is followed by the rest. -/
theorem bind_run {α β : Type} {program : DiskM α} {rest : α → DiskM β}
    {device device' : Device} {value : α} (ran : program device = some (value, device')) :
    (program >>= rest) device = rest value device' := by
  rw [bind_apply, ran]
  rfl

/-- A program that has returned ran its first part and then the rest. -/
theorem of_bind {α β : Type} {program : DiskM α} {rest : α → DiskM β}
    {device device' : Device} {result : β}
    (ran : (program >>= rest) device = some (result, device')) :
    ∃ value middle, program device = some (value, middle) ∧
      rest value middle = some (result, device') := by
  rcases Option.bind_eq_some_iff.mp ran with ⟨⟨value, middle⟩, programRan, restRan⟩
  exact ⟨value, middle, programRan, restRan⟩

@[simp] theorem diverge_apply {α : Type} (device : Device) :
    (diverge : DiskM α) device = none := rfl

theorem ite_apply {α : Type} (condition : Prop) [Decidable condition]
    (positive negative : DiskM α) (device : Device) :
    (if condition then positive else negative) device =
      if condition then positive device else negative device := by
  split <;> rfl

end DiskM

/-- The read call-back for one sector. The address is a 32-bit number. -/
def rd (lba : Nat) : DiskM (Option Buffer) := fun device =>
  some (if device.readFaults 0 then none
      else some (device.sectors (u32 lba)),
    { device with readFaults := fun call => device.readFaults (call + 1) })

/-- The write call-back for one sector: whether it failed. A failed write
leaves the sector as it was. -/
def wr (lba : Nat) (sector : Buffer) : DiskM Bool := fun device =>
  some (device.writeFaults 0,
    { device with
      sectors := if device.writeFaults 0 then device.sectors
        else store device.sectors (u32 lba) sector
      writeFaults := fun call => device.writeFaults (call + 1) })

@[simp] theorem rd_healthy (lba : Nat) (sectors : Nat → Buffer) :
    rd lba (Device.healthy sectors) =
      some (some (sectors (u32 lba)), Device.healthy sectors) := rfl

@[simp] theorem wr_healthy (lba : Nat) (sector : Buffer) (sectors : Nat → Buffer) :
    wr lba sector (Device.healthy sectors) =
      some (false, Device.healthy (store sectors (u32 lba) sector)) := rfl

/-! ## Programs that never write -/

/-- Whatever calls fail, the program makes no write call: the sectors and the
outcomes of the write calls to come stay as they are. -/
def ReadOnly {α : Type} (program : DiskM α) : Prop :=
  ∀ device value device', program device = some (value, device') →
    device'.sectors = device.sectors ∧ device'.writeFaults = device.writeFaults

namespace ReadOnly

theorem pure {α : Type} (value : α) : ReadOnly (Pure.pure value : DiskM α) := by
  intro device result device' ran
  simp only [DiskM.pure_apply, Option.some.injEq, Prod.mk.injEq] at ran
  rcases ran with ⟨_, rfl⟩
  exact ⟨rfl, rfl⟩

theorem diverge {α : Type} : ReadOnly (DiskM.diverge : DiskM α) := by
  intro device result device' ran
  simp at ran

theorem rd (lba : Nat) : ReadOnly (Foundation.rd lba) := by
  intro device result device' ran
  simp only [Foundation.rd, Option.some.injEq, Prod.mk.injEq] at ran
  rcases ran with ⟨_, rfl⟩
  exact ⟨rfl, rfl⟩

theorem bind {α β : Type} {program : DiskM α} {rest : α → DiskM β}
    (first : ReadOnly program) (second : ∀ value, ReadOnly (rest value)) :
    ReadOnly (program >>= rest) := by
  intro device result device' ran
  rcases DiskM.of_bind ran with ⟨value, middle, programRan, restRan⟩
  have before := first device value middle programRan
  have after := second value middle result device' restRan
  exact ⟨after.1.trans before.1, after.2.trans before.2⟩

theorem ite {α : Type} {condition : Prop} [Decidable condition]
    {positive negative : DiskM α} (whenTrue : ReadOnly positive)
    (whenFalse : ReadOnly negative) :
    ReadOnly (if condition then positive else negative) := by
  split
  · exact whenTrue
  · exact whenFalse

theorem findSomeM? {ι β : Type} {visit : ι → DiskM (Option β)}
    (steps : ∀ position, ReadOnly (visit position)) (positions : List ι) :
    ReadOnly (positions.findSomeM? visit) := by
  induction positions with
  | nil => exact .pure none
  | cons head tail induction =>
      refine .bind (steps head) fun found => ?_
      cases found with
      | none => exact induction
      | some value => exact .pure (some value)

end ReadOnly

end Foundation

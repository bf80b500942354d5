import Mathlib.Data.Nat.Bitwise
import ParanOS.Fat.Table

/-! # The disk driver

`ata.c`: programmed input and output on the primary bus. What the drive answers,
the status bytes and the data words, is part of the state of its port, so a
statement for every port is a statement for every behaviour of the drive.
-/

namespace ParanOS

open Foundation

/-- A command with the register contents it was issued with. -/
structure AtaCommand where
  command : UInt8
  hddevsel : UInt8
  seccount0 : UInt8
  lba0 : UInt8
  lba1 : UInt8
  lba2 : UInt8
  deriving DecidableEq

/-- The registers, what the drive is going to answer, and what was sent to it. -/
structure AtaPort where
  hddevsel : UInt8
  seccount0 : UInt8
  lba0 : UInt8
  lba1 : UInt8
  lba2 : UInt8
  status : Nat → UInt8
  data : Nat → UInt16
  issued : List AtaCommand
  sent : List UInt16

/-- The registers that the driver writes. -/
inductive AtaReg
  | seccount0
  | lba0
  | lba1
  | lba2
  | hddevsel
  | command

abbrev AtaM := StateM AtaPort

theorem AtaM.bind_apply {α β : Type} (program : AtaM α) (rest : α → AtaM β)
    (port : AtaPort) :
    (program >>= rest) port = rest (program port).1 (program port).2 := rfl

theorem AtaM.ite_apply {α : Type} (condition : Prop) [Decidable condition]
    (positive negative : AtaM α) (port : AtaPort) :
    (if condition then positive else negative) port =
      if condition then positive port else negative port := by
  split <;> rfl

/-! ## Ports -/

def outb (register : AtaReg) (value : UInt8) : AtaM Unit := fun port =>
  ((), match register with
    | .seccount0 => { port with seccount0 := value }
    | .lba0 => { port with lba0 := value }
    | .lba1 => { port with lba1 := value }
    | .lba2 => { port with lba2 := value }
    | .hddevsel => { port with hddevsel := value }
    | .command => { port with issued := port.issued ++
        [⟨value, port.hddevsel, port.seccount0, port.lba0, port.lba1, port.lba2⟩] })

/-- `inb` of the status register. -/
def inbStatus : AtaM UInt8 := fun port =>
  (port.status 0, { port with status := fun poll => port.status (poll + 1) })

/-- `inw` of the data register. -/
def inwData : AtaM UInt16 := fun port =>
  (port.data 0, { port with data := fun word => port.data (word + 1) })

/-- `outw` of the data register. -/
def outwData (word : UInt16) : AtaM Unit := fun port =>
  ((), { port with sent := port.sent ++ [word] })

/-! ## Waiting -/

def waitBsy : Nat → AtaM Int
  | 0 => pure (-1)
  | polls + 1 => do
      if (← inbStatus) &&& 0x80 = 0 then pure 0
      else waitBsy polls

/-- `ata_wait_bsy`. -/
def ataWaitBsy : AtaM Int := waitBsy 1000000

def waitDrq : Nat → AtaM Int
  | 0 => pure (-1)
  | polls + 1 => do
      let st ← inbStatus
      if st &&& 0x01 ≠ 0 then pure (-2)
      else if st &&& 0x20 ≠ 0 then pure (-3)
      else if st &&& 0x08 ≠ 0 then pure 0
      else waitDrq polls

/-- `ata_wait_drq`. -/
def ataWaitDrq : AtaM Int := waitDrq 1000000

/-! ## Transfers -/

/-- The six registers of a transfer, the command last. -/
def programTransfer (lba : UInt32) (count command : UInt8) : AtaM Unit := do
  outb .hddevsel ((0xE0 : UInt32) ||| ((lba >>> 24) &&& 0x0F)).toUInt8
  outb .seccount0 count
  outb .lba0 (lba &&& 0xFF).toUInt8
  outb .lba1 ((lba >>> 8) &&& 0xFF).toUInt8
  outb .lba2 ((lba >>> 16) &&& 0xFF).toUInt8
  outb .command command

def readWords : Nat → AtaM (List UInt16)
  | 0 => pure []
  | words + 1 => do
      let word ← inwData
      let rest ← readWords words
      pure (word :: rest)

/-- The sector loop of `ata_read28`: the code and the words stored. -/
def readLoop : Nat → AtaM (Int × List UInt16)
  | 0 => pure (0, [])
  | sectors + 1 => do
      if (← ataWaitBsy) ≠ 0 then pure (-2, [])
      else if (← ataWaitDrq) ≠ 0 then pure (-3, [])
      else
        let words ← readWords 256
        let rest ← readLoop sectors
        pure (rest.1, words ++ rest.2)

def writeWords : List UInt16 → AtaM Unit
  | [] => pure ()
  | word :: rest => do
      outwData word
      writeWords rest

/-- The sector loop of `ata_write28`, from the sector `sector` of the buffer on. -/
def writeLoop (bufw : Nat → UInt16) : Nat → Nat → AtaM Int
  | 0, _ => pure 0
  | sectors + 1, sector => do
      if (← ataWaitBsy) ≠ 0 then pure (-2)
      else if (← ataWaitDrq) ≠ 0 then pure (-3)
      else
        writeWords ((List.range 256).map fun word => bufw (256 * sector + word))
        writeLoop bufw sectors (sector + 1)

/-- `ata_read28`: the code and the words stored. -/
def ataRead28 (lba : UInt32) (count : UInt8) : AtaM (Int × List UInt16) :=
  if count = 0 then pure (0, [])
  else do
    let count := if 128 < count then 128 else count
    if (← ataWaitBsy) ≠ 0 then pure (-1, [])
    else
      programTransfer lba count 0x20
      readLoop count.toNat

/-- `ata_write28`. -/
def ataWrite28 (lba : UInt32) (count : UInt8) (bufw : Nat → UInt16) : AtaM Int :=
  if count = 0 then pure 0
  else do
    let count := if 128 < count then 128 else count
    if (← ataWaitBsy) ≠ 0 then pure (-1)
    else
      programTransfer lba count 0x30
      writeLoop bufw count.toNat 0

/-! ## What a call issues -/

/-- The program issues no command. -/
def IssuesNothing {α : Type} (program : AtaM α) : Prop :=
  ∀ port, (program port).2.issued = port.issued

namespace IssuesNothing

variable {α β : Type}

theorem pure (value : α) : IssuesNothing (Pure.pure value : AtaM α) := fun _ => rfl

theorem bind {program : AtaM α} {rest : α → AtaM β} (first : IssuesNothing program)
    (second : ∀ value, IssuesNothing (rest value)) : IssuesNothing (program >>= rest) := by
  intro port
  exact (second (program port).1 (program port).2).trans (first port)

theorem ite {condition : Prop} [Decidable condition] {positive negative : AtaM α}
    (first : IssuesNothing positive) (second : IssuesNothing negative) :
    IssuesNothing (if condition then positive else negative) := by
  split
  · exact first
  · exact second

theorem inbStatus : IssuesNothing inbStatus := fun _ => rfl

theorem inwData : IssuesNothing inwData := fun _ => rfl

theorem outwData (word : UInt16) : IssuesNothing (outwData word) := fun _ => rfl

theorem waitBsy (polls : Nat) : IssuesNothing (waitBsy polls) := by
  induction polls with
  | zero => exact pure _
  | succ polls rest => exact bind inbStatus fun _ => ite (pure _) rest

theorem waitDrq (polls : Nat) : IssuesNothing (waitDrq polls) := by
  induction polls with
  | zero => exact pure _
  | succ polls rest =>
      exact bind inbStatus fun _ => ite (pure _) (ite (pure _) (ite (pure _) rest))

theorem readWords (words : Nat) : IssuesNothing (readWords words) := by
  induction words with
  | zero => exact pure _
  | succ words rest => exact bind inwData fun _ => bind rest fun _ => pure _

theorem writeWords (words : List UInt16) : IssuesNothing (writeWords words) := by
  induction words with
  | nil => exact pure _
  | cons word words rest => exact bind (outwData word) fun _ => rest

theorem readLoop (sectors : Nat) : IssuesNothing (readLoop sectors) := by
  induction sectors with
  | zero => exact pure _
  | succ sectors rest =>
      exact bind (waitBsy _) fun _ => ite (pure _) (bind (waitDrq _) fun _ => ite (pure _)
        (bind (readWords 256) fun _ => bind rest fun _ => pure _))

theorem writeLoop (bufw : Nat → UInt16) (sectors sector : Nat) :
    IssuesNothing (writeLoop bufw sectors sector) := by
  induction sectors generalizing sector with
  | zero => exact pure _
  | succ sectors rest =>
      exact bind (waitBsy _) fun _ => ite (pure _) (bind (waitDrq _) fun _ => ite (pure _)
        (bind (writeWords _) fun _ => rest _))

end IssuesNothing

/-- The command that `programTransfer` issues. -/
def transferCommand (lba : UInt32) (count command : UInt8) : AtaCommand :=
  ⟨command, ((0xE0 : UInt32) ||| ((lba >>> 24) &&& 0x0F)).toUInt8, count, (lba &&& 0xFF).toUInt8,
    ((lba >>> 8) &&& 0xFF).toUInt8, ((lba >>> 16) &&& 0xFF).toUInt8⟩

theorem programTransfer_issued (lba : UInt32) (count command : UInt8) (port : AtaPort) :
    (programTransfer lba count command port).2.issued =
      port.issued ++ [transferCommand lba count command] := rfl

/-- A transfer behind a wait: refused with nothing issued, or one command. -/
theorem transfer_issued {α : Type} (refused : α) (lba : UInt32) (count command : UInt8)
    {loop : AtaM α} (quiet : IssuesNothing loop) (port : AtaPort)
    {run : AtaM α} (defined : run = (do
      if (← ataWaitBsy) ≠ 0 then pure refused
      else
        programTransfer lba count command
        loop)) :
    ((run port).1 = refused ∧ (run port).2.issued = port.issued) ∨
      (run port).2.issued = port.issued ++ [transferCommand lba count command] := by
  have waited : (ataWaitBsy port).2.issued = port.issued := IssuesNothing.waitBsy 1000000 port
  rw [defined, AtaM.bind_apply, AtaM.ite_apply]
  by_cases busy : (ataWaitBsy port).1 ≠ 0
  · rw [if_pos busy]
    exact .inl ⟨rfl, waited⟩
  · rw [if_neg busy, AtaM.bind_apply]
    right
    rw [quiet, programTransfer_issued, waited]

end ParanOS

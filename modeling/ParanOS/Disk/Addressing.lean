import ParanOS.Disk.Ata
import ParanOS.Fat.Contract

/-! # Which sector a transfer addresses

Four registers hold an address of 28 bits. The driver takes addresses of 32 bits and
drops the upper four, so the sectors of a large disk share registers with its first
sectors.
-/

namespace ParanOS

open Foundation

/-- The sector that the registers of a command address. -/
def AtaCommand.sector (issued : AtaCommand) : Nat :=
  (issued.hddevsel &&& 0x0F).toNat * 16777216 + issued.lba2.toNat * 65536 +
    issued.lba1.toNat * 256 + issued.lba0.toNat

/-! ## The registers -/

theorem and_low_byte (value : UInt32) :
    (value &&& 0xFF).toUInt8.toNat = value.toNat % 256 := by
  have low : value.toNat &&& 255 = value.toNat % 256 :=
    Nat.and_two_pow_sub_one_eq_mod _ 8
  simp only [UInt32.toNat_toUInt8, UInt32.toNat_and, UInt32.reduceToNat, low]
  omega

/-- The device bits do not touch the four address bits. -/
theorem hddevsel_low (value : UInt32) :
    (((0xE0 : UInt32) ||| (value &&& 0x0F)).toUInt8 &&& 0x0F).toNat = value.toNat % 16 := by
  have low (number : Nat) : number &&& 15 = number % 16 :=
    Nat.and_two_pow_sub_one_eq_mod _ 4
  have narrow (number : Nat) : number % 2 ^ 8 &&& 15 = number &&& 15 := by
    rw [low, low]
    omega
  simp only [UInt8.toNat_and, UInt32.toNat_toUInt8, UInt32.toNat_or, UInt32.toNat_and,
    UInt32.reduceToNat, UInt8.reduceToNat]
  rw [narrow, Nat.and_or_distrib_right, Nat.and_assoc]
  simpa using low value.toNat

theorem transferCommand_sector (lba : UInt32) (count command : UInt8) :
    (transferCommand lba count command).sector = lba.toNat % 268435456 := by
  have bound := lba.toNat_lt
  simp only [AtaCommand.sector, transferCommand, and_low_byte, hddevsel_low,
    UInt32.toNat_shiftRight, UInt32.reduceToNat, Nat.shiftRight_eq_div_pow, Nat.reduceMod,
    Nat.reducePow]
  omega

/-! ## Calls for one sector -/

/-- One command was issued, and it addresses one sector, the given one. -/
def ProgramsSector (command : UInt8) (lba : UInt32) (port port' : AtaPort) : Prop :=
  ∃ issued, port'.issued = port.issued ++ [issued] ∧ issued.command = command ∧
    issued.seccount0 = 1 ∧ issued.sector = lba.toNat

/-- Reading and writing one sector fail or address this sector, whatever the drive
answers. -/
def AddressesSector (lba : UInt32) : Prop :=
  ∀ port bufw,
    ((ataRead28 lba 1 port).1.1 ≠ 0 ∨
      ProgramsSector 0x20 lba port (ataRead28 lba 1 port).2) ∧
    ((ataWrite28 lba 1 bufw port).1 ≠ 0 ∨
      ProgramsSector 0x30 lba port (ataWrite28 lba 1 bufw port).2)

theorem ataRead28_issued (lba : UInt32) (port : AtaPort) :
    ((ataRead28 lba 1 port).1 = (-1, []) ∧ (ataRead28 lba 1 port).2.issued = port.issued) ∨
      (ataRead28 lba 1 port).2.issued = port.issued ++ [transferCommand lba 1 0x20] :=
  transfer_issued (-1, []) lba 1 0x20 (IssuesNothing.readLoop 1) port rfl

theorem ataWrite28_issued (lba : UInt32) (bufw : Nat → UInt16) (port : AtaPort) :
    ((ataWrite28 lba 1 bufw port).1 = -1 ∧
        (ataWrite28 lba 1 bufw port).2.issued = port.issued) ∨
      (ataWrite28 lba 1 bufw port).2.issued =
        port.issued ++ [transferCommand lba 1 0x30] :=
  transfer_issued (-1) lba 1 0x30 (IssuesNothing.writeLoop bufw 1 0) port rfl

theorem programsSector_of_issued {command : UInt8} {lba : UInt32} {port port' : AtaPort}
    (small : lba.toNat < 268435456)
    (issued : port'.issued = port.issued ++ [transferCommand lba 1 command]) :
    ProgramsSector command lba port port' := by
  refine ⟨_, issued, rfl, rfl, ?_⟩
  rw [transferCommand_sector, Nat.mod_eq_of_lt small]

theorem addressesSector_of_lt {lba : UInt32} (small : lba.toNat < 268435456) :
    AddressesSector lba := by
  intro port bufw
  constructor
  · cases ataRead28_issued lba port with
    | inl refused =>
        left
        rw [refused.1]
        decide
    | inr issued => exact .inr (programsSector_of_issued small issued)
  · cases ataWrite28_issued lba bufw port with
    | inl refused =>
        left
        rw [refused.1]
        decide
    | inr issued => exact .inr (programsSector_of_issued small issued)

/-! ## A drive that is always ready -/

/-- Not busy, no error, data requested. -/
def AtaPort.Ready (port : AtaPort) : Prop := ∀ poll, port.status poll = 0x08

/-- On a ready drive the program returns a good value and leaves the drive ready. -/
def ServedWith {α : Type} (good : α → Prop) (program : AtaM α) : Prop :=
  ∀ port, port.Ready → good (program port).1 ∧ (program port).2.Ready

namespace ServedWith

variable {α β : Type} {good : α → Prop} {better : β → Prop}

theorem pure {value : α} (holds : good value) :
    ServedWith good (Pure.pure value : AtaM α) := fun _ ready => ⟨holds, ready⟩

theorem bind {program : AtaM α} {rest : α → AtaM β} (first : ServedWith good program)
    (second : ∀ value, good value → ServedWith better (rest value)) :
    ServedWith better (program >>= rest) := by
  intro port ready
  exact second _ (first port ready).1 _ (first port ready).2

theorem waitBsy : ServedWith (· = 0) ataWaitBsy := by
  intro port ready
  have step : ataWaitBsy port =
      (if port.status 0 &&& 0x80 = 0 then Pure.pure 0 else ParanOS.waitBsy 999999 : AtaM Int)
        { port with status := fun poll => port.status (poll + 1) } := rfl
  rw [step, ready]
  exact ⟨rfl, fun poll => ready (poll + 1)⟩

theorem waitDrq : ServedWith (· = 0) ataWaitDrq := by
  intro port ready
  have step : ataWaitDrq port =
      (if port.status 0 &&& 0x01 ≠ 0 then Pure.pure (-2)
        else if port.status 0 &&& 0x20 ≠ 0 then Pure.pure (-3)
        else if port.status 0 &&& 0x08 ≠ 0 then Pure.pure 0
        else ParanOS.waitDrq 999999 : AtaM Int)
        { port with status := fun poll => port.status (poll + 1) } := rfl
  rw [step, ready]
  exact ⟨rfl, fun poll => ready (poll + 1)⟩

theorem outb (register : AtaReg) (value : UInt8) :
    ServedWith (fun _ => True) (outb register value) := by
  intro port ready
  cases register <;> exact ⟨trivial, ready⟩

theorem programTransfer (lba : UInt32) (count command : UInt8) :
    ServedWith (fun _ => True) (programTransfer lba count command) :=
  bind (outb _ _) fun _ _ => bind (outb _ _) fun _ _ => bind (outb _ _) fun _ _ =>
    bind (outb _ _) fun _ _ => bind (outb _ _) fun _ _ => outb _ _

theorem readWords (words : Nat) : ServedWith (fun _ => True) (readWords words) := by
  induction words with
  | zero => exact pure trivial
  | succ words rest =>
      exact @bind _ _ (fun _ => True) _ inwData _ (fun _ ready => ⟨trivial, ready⟩)
        fun _ _ => bind rest fun _ _ => pure trivial

theorem writeWords (words : List UInt16) :
    ServedWith (fun _ => True) (writeWords words) := by
  induction words with
  | nil => exact pure trivial
  | cons word words rest =>
      exact @bind _ _ (fun _ => True) _ (outwData word) _ (fun _ ready => ⟨trivial, ready⟩)
        fun _ _ => rest

theorem readLoop (sectors : Nat) :
    ServedWith (fun run => run.1 = 0) (readLoop sectors) := by
  induction sectors with
  | zero => exact pure rfl
  | succ sectors rest =>
      refine bind waitBsy fun _ idle => ?_
      rw [if_neg (by simpa using idle)]
      refine bind waitDrq fun _ asked => ?_
      rw [if_neg (by simpa using asked)]
      exact bind (readWords 256) fun _ _ => bind rest fun _ done => pure done

theorem writeLoop (bufw : Nat → UInt16) (sectors sector : Nat) :
    ServedWith (· = 0) (writeLoop bufw sectors sector) := by
  induction sectors generalizing sector with
  | zero => exact pure rfl
  | succ sectors rest =>
      refine bind waitBsy fun _ idle => ?_
      rw [if_neg (by simpa using idle)]
      refine bind waitDrq fun _ asked => ?_
      rw [if_neg (by simpa using asked)]
      exact bind (writeWords _) fun _ _ => rest _

theorem ataRead28 (lba : UInt32) (count : UInt8) :
    ServedWith (fun run => run.1 = 0) (ataRead28 lba count) := by
  unfold ParanOS.ataRead28
  split
  · exact pure rfl
  · refine bind waitBsy fun _ idle => ?_
    rw [if_neg (by simpa using idle)]
    exact bind (programTransfer _ _ _) fun _ _ => readLoop _

theorem ataWrite28 (lba : UInt32) (count : UInt8) (bufw : Nat → UInt16) :
    ServedWith (· = 0) (ataWrite28 lba count bufw) := by
  unfold ParanOS.ataWrite28
  split
  · exact pure rfl
  · refine bind waitBsy fun _ idle => ?_
    rw [if_neg (by simpa using idle)]
    exact bind (programTransfer _ _ _) fun _ _ => writeLoop _ _ _

end ServedWith

/-! ## The addresses that the registers can hold -/

/-- The master drive, selected and always ready. -/
def readyPort : AtaPort where
  hddevsel := 0xE0
  seccount0 := 0
  lba0 := 0
  lba1 := 0
  lba2 := 0
  status := fun _ => 0x08
  data := fun _ => 0
  issued := []
  sent := []

theorem addressesSector_lt {lba : UInt32} (addresses : AddressesSector lba) :
    lba.toNat < 268435456 := by
  have served := ServedWith.ataRead28 lba 1 readyPort fun _ => rfl
  cases (addresses readyPort fun _ => 0).1 with
  | inl failed => exact absurd served.1 failed
  | inr programmed =>
      rcases programmed with ⟨issued, logged, _, _, sector⟩
      cases ataRead28_issued lba readyPort with
      | inl refused =>
          rw [refused.2] at logged
          cases logged
      | inr own =>
          have same : [issued] = [transferCommand lba 1 0x20] := logged.symm.trans own
          rw [List.singleton_inj.mp same, transferCommand_sector] at sector
          omega

theorem addressesSector_iff (lba : UInt32) :
    AddressesSector lba ↔ lba.toNat < 268435456 :=
  ⟨addressesSector_lt, addressesSector_of_lt⟩

/-- The sectors of the clusters of a volume. -/
def DataAddressed (v : Vol) (limit : Nat) : Prop :=
  ∀ clus, DataCluster limit clus → ∀ sector < v.secPerClus,
    AddressesSector (UInt32.ofNat (clusToLba v clus + sector))

theorem addressesSector_ofNat (address : Nat) :
    AddressesSector (UInt32.ofNat address) ↔ u32 address < 268435456 := by
  rw [addressesSector_iff, UInt32.toNat_ofNat']
  rfl

theorem dataAddressed_iff {v : Vol} {limit : Nat} (geometry : Geometry v limit)
    (holds : 2 < limit) :
    DataAddressed v limit ↔ v.heapLba + (limit - 2) * v.secPerClus ≤ 268435456 := by
  have bound := geometry.heap_end
  constructor
  · intro addressed
    have last : DataCluster limit (limit - 1) := ⟨by omega, by omega⟩
    have positive := geometry.cluster_pos
    have rows : (limit - 2) * v.secPerClus =
        (limit - 1 - 2) * v.secPerClus + v.secPerClus := by
      rw [← Nat.succ_mul]
      congr 1
      omega
    have final := addressed _ last (v.secPerClus - 1) (by omega)
    rw [addressesSector_ofNat, geometry.clusToLba_eq last, u32_of_lt (by omega)] at final
    omega
  · intro small clus data sector inside
    have below := geometry.sector_lt data inside
    have rows : (clus - 2 + 1) * v.secPerClus ≤ (limit - 2) * v.secPerClus := by
      apply Nat.mul_le_mul_right
      have := data.2
      have := data.1
      omega
    rw [Nat.succ_mul] at rows
    rw [addressesSector_ofNat, geometry.clusToLba_eq data, u32_of_lt (by omega)]
    omega

/-- A transfer of one sector is right exactly below sector `2 ^ 28`, at the clusters of any
volume too; all data of a volume is addressed rightly when the volume ends there. -/
theorem ata28_addresses_iff (lba : UInt32) (v : Vol) (clus sector limit : Nat) :
    (AddressesSector lba ↔ lba.toNat < 268435456) ∧
      (AddressesSector (UInt32.ofNat (clusToLba v clus + sector)) ↔
        u32 (clusToLba v clus + sector) < 268435456) ∧
      (Geometry v limit → 2 < limit →
        (DataAddressed v limit ↔
          v.heapLba + (limit - 2) * v.secPerClus ≤ 268435456)) :=
  ⟨addressesSector_iff lba, addressesSector_ofNat _,
    fun geometry holds => dataAddressed_iff geometry holds⟩

theorem ata28_addresses_iff_small : DataAddressed smallVol smallVol.clusterLimit :=
  ((ata28_addresses_iff 0 smallVol 2 0 smallVol.clusterLimit).2.2
    smallVol_wellFormed.shape.geometry (by decide)).mpr (by decide)

/-- Sector `2 ^ 28` is written over the partition table. -/
theorem ataWrite28_hits_first_sector :
    (ataWrite28 0x10000000 1 (fun _ => 0) readyPort).1 = 0 ∧
      (ataWrite28 0x10000000 1 (fun _ => 0) readyPort).2.issued.map AtaCommand.sector = [0] ∧
      ¬ AddressesSector 0x10000000 := by
  have served := ServedWith.ataWrite28 0x10000000 1 (fun _ => 0) readyPort fun _ => rfl
  refine ⟨served.1, ?_, ?_⟩
  · cases ataWrite28_issued 0x10000000 (fun _ => 0) readyPort with
    | inl refused =>
        rw [refused.1] at served
        cases served.1
    | inr issued =>
        rw [issued]
        decide
  · rw [addressesSector_iff]
    decide

end ParanOS

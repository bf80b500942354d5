import Mathlib.Logic.Function.Basic
import ParanOS.Foundation.Bytes
import ParanOS.Task.Scheduler

/-! # The first switch to a task

`task.c` lays out the stack of a new task in words of four bytes, and the restoring
half of `ctx_switch` takes words of eight bytes from the stack pointer that was
saved. The image that is laid out ends below the place where `ret` finds its
address, so nothing of it is ever used.
-/

namespace ParanOS

open Foundation

/-! ## Laying out a stack -/

/-- The memory, and the pointer `sp` to the words of four bytes that grow down. -/
structure Stack where
  memory : Buffer
  sp : Nat

namespace Stack

/-- `*(--sp) = word`. -/
def push (stack : Stack) (word : UInt32) : Stack :=
  ⟨stack.memory.putU32 (stack.sp - 4) word.toNat, stack.sp - 4⟩

def pushAll (stack : Stack) (words : List UInt32) : Stack :=
  words.foldl push stack

/-- The pointer that `t->ctx.esp` keeps, 32 bits of `sp`. -/
def esp (stack : Stack) : Nat := u32 stack.sp

end Stack

/-- The end of a stack, on a boundary of 16 bytes. -/
def stackTop (kstackBase : Nat) : Nat :=
  (kstackBase + kstackSize) / 16 * 16

section

variable (kthreadTrampoline usermodeIretTrampoline : UInt64)

def prepareKthreadStack (kstackBase : Nat) (entry arg : UInt64) (memory : Buffer) : Stack :=
  Stack.pushAll ⟨memory, stackTop kstackBase⟩
    [kthreadTrampoline.toUInt32,
      0, 0, 0, 0,
      entry.toUInt32,
      arg.toUInt32]

def prepareUserFirstSwitch (kstackBase : Nat) (entryUser userStackTop : UInt32)
    (memory : Buffer) : Stack :=
  Stack.pushAll ⟨memory, stackTop kstackBase⟩
    [0, 0, 0, 0,
      usermodeIretTrampoline.toUInt32,
      0x1B, userStackTop, 0x202, 0x23, entryUser]

end

/-! ## Switching to it -/

inductive Register
  | r15
  | r14
  | r13
  | r12
  | rbx
  | rbp
  deriving DecidableEq

inductive Instruction
  | pop (register : Register)
  | ret

structure Cpu where
  registers : Register → Nat
  rsp : Nat
  rip : Nat
  memory : Buffer

namespace Cpu

def execute (cpu : Cpu) : Instruction → Cpu
  | .pop register =>
      { cpu with
        registers := Function.update cpu.registers register (cpu.memory.getU64 cpu.rsp)
        rsp := cpu.rsp + 8 }
  | .ret => { cpu with rip := cpu.memory.getU64 cpu.rsp, rsp := cpu.rsp + 8 }

/-- The end of `ctx_switch`, behind `mov rsp, [rdx]`. -/
def restore : List Instruction :=
  [.pop .r15, .pop .r14, .pop .r13, .pop .r12, .pop .rbx, .pop .rbp, .ret]

/-- The end of `ctx_switch` on a prepared stack. The upper half of the stack pointer
comes from the padding behind `ctx.esp`, which `task_alloc` clears. -/
def switchTo (cpu : Cpu) (stack : Stack) : Cpu :=
  restore.foldl execute { cpu with rsp := stack.esp, memory := stack.memory }

/-- `kthread_trampoline` is about to pop `entry` and `arg`. -/
def StartsKthread (cpu : Cpu) (kthreadTrampoline entry arg : UInt64) : Prop :=
  cpu.rip = kthreadTrampoline.toNat ∧
    cpu.memory.getU64 cpu.rsp = entry.toNat ∧
    cpu.memory.getU64 (cpu.rsp + 8) = arg.toNat

/-- `usermode_iret_trampoline` is about to return to `entryUser`. Its `iret` has
operands of 32 bits. -/
def EntersUser (cpu : Cpu) (usermodeIretTrampoline : UInt64)
    (entryUser userStackTop : UInt32) : Prop :=
  cpu.rip = usermodeIretTrampoline.toNat ∧
    cpu.memory.getU32 cpu.rsp = entryUser.toNat ∧
    cpu.memory.getU32 (cpu.rsp + 4) = 0x23 ∧
    cpu.memory.getU32 (cpu.rsp + 8) = 0x202 ∧
    cpu.memory.getU32 (cpu.rsp + 12) = userStackTop.toNat ∧
    cpu.memory.getU32 (cpu.rsp + 16) = 0x1B

end Cpu

/-! ## What the switch reads -/

namespace Stack

theorem pushAll_sp (words : List UInt32) (stack : Stack) :
    (stack.pushAll words).sp = stack.sp - 4 * words.length := by
  induction words generalizing stack with
  | nil => rfl
  | cons word rest induction =>
      have later := induction (stack.push word)
      simp only [pushAll, List.foldl_cons, List.length_cons] at later ⊢
      rw [later]
      simp only [push]
      omega

/-- The words below the pointer are all that a push changes. -/
theorem pushAll_outside (words : List UInt32) {stack : Stack} {address : Nat}
    (room : 4 * words.length ≤ stack.sp)
    (outside : address < stack.sp - 4 * words.length ∨ stack.sp ≤ address) :
    (stack.pushAll words).memory address = stack.memory address := by
  induction words generalizing stack with
  | nil => rfl
  | cons word rest induction =>
      simp only [List.length_cons] at room outside
      have later := @induction (stack.push word) (by simp only [push]; omega)
        (by simp only [push]; omega)
      simp only [pushAll, List.foldl_cons] at later ⊢
      rw [later]
      exact Buffer.copy_outside (by omega)

end Stack

theorem kstackSize_le_stackTop (kstackBase : Nat) : kstackSize ≤ stackTop kstackBase := by
  simp only [stackTop, kstackSize]
  omega

/-- The switch reads above the saved pointer, past every word that was pushed, also
when only 32 bits of the pointer were saved. -/
theorem pushAll_above {words : List UInt32} (few : words.length ≤ 12) (kstackBase : Nat)
    (memory : Buffer) {offset : Nat} (above : 48 ≤ offset) (near : offset < 4294967296) :
    let stack := Stack.pushAll ⟨memory, stackTop kstackBase⟩ words
    stack.memory (stack.esp + offset) = memory (stack.esp + offset) := by
  have top := kstackSize_le_stackTop kstackBase
  simp only [kstackSize] at top
  apply Stack.pushAll_outside words
  · show 4 * words.length ≤ stackTop kstackBase
    omega
  · simp only [Stack.esp, Stack.pushAll_sp, u32]
    omega

namespace Cpu

theorem switchTo_rip (cpu : Cpu) (stack : Stack) :
    (cpu.switchTo stack).rip = stack.memory.getU64 (stack.esp + 48) := rfl

theorem switchTo_rsp (cpu : Cpu) (stack : Stack) :
    (cpu.switchTo stack).rsp = stack.esp + 56 := rfl

theorem switchTo_memory (cpu : Cpu) (stack : Stack) :
    (cpu.switchTo stack).memory = stack.memory := rfl

variable {words : List UInt32} (few : words.length ≤ 12) (cpu : Cpu) (kstackBase : Nat)
  (memory : Buffer)

include few

/-- Control goes to an address that was in memory before the stack was laid out. -/
theorem switchTo_pushAll_rip :
    (cpu.switchTo (Stack.pushAll ⟨memory, stackTop kstackBase⟩ words)).rip =
      memory.getU64 (u32 (stackTop kstackBase - 4 * words.length) + 48) := by
  rw [switchTo_rip, ← Stack.pushAll_sp words ⟨memory, stackTop kstackBase⟩]
  apply Buffer.getU64_congr
  intro index bound
  rw [Nat.add_assoc, pushAll_above few kstackBase memory (by omega) (by omega), Nat.add_assoc]
  rfl

/-- The bytes from the stack pointer on, which the code that is entered finds there,
are also those from before. -/
theorem switchTo_pushAll_memory {offset : Nat} (near : offset < 4294967240) :
    let switched := cpu.switchTo (Stack.pushAll ⟨memory, stackTop kstackBase⟩ words)
    switched.memory (switched.rsp + offset) =
      memory (u32 (stackTop kstackBase - 4 * words.length) + 56 + offset) := by
  intro switched
  rw [switchTo_memory, switchTo_rsp, Nat.add_assoc,
    pushAll_above few kstackBase memory (by omega) (by omega), Stack.esp, Stack.pushAll_sp,
    Nat.add_assoc]

theorem switchTo_pushAll_getU64 {offset : Nat} (near : offset < 4294967200) :
    let switched := cpu.switchTo (Stack.pushAll ⟨memory, stackTop kstackBase⟩ words)
    switched.memory.getU64 (switched.rsp + offset) =
      memory.getU64 (u32 (stackTop kstackBase - 4 * words.length) + 56 + offset) := by
  apply Buffer.getU64_congr
  intro index bound
  have read := switchTo_pushAll_memory few cpu kstackBase memory
    (show offset + index < 4294967240 by omega)
  simpa only [Nat.add_assoc] using read

theorem switchTo_pushAll_getU32 {offset : Nat} (near : offset < 4294967200) :
    let switched := cpu.switchTo (Stack.pushAll ⟨memory, stackTop kstackBase⟩ words)
    switched.memory.getU32 (switched.rsp + offset) =
      memory.getU32 (u32 (stackTop kstackBase - 4 * words.length) + 56 + offset) := by
  apply Buffer.getU32_congr
  intro index bound
  have read := switchTo_pushAll_memory few cpu kstackBase memory
    (show offset + index < 4294967240 by omega)
  simpa only [Nat.add_assoc] using read

end Cpu

/-! ## What it takes for a task to start -/

section

variable (kthreadTrampoline usermodeIretTrampoline : UInt64) (cpu : Cpu) (kstackBase : Nat)
  (memory : Buffer)

theorem switchTo_kthread (entry arg : UInt64) :
    (cpu.switchTo (prepareKthreadStack kthreadTrampoline kstackBase entry arg
        memory)).StartsKthread kthreadTrampoline entry arg ↔
      memory.getU64 (u32 (stackTop kstackBase - 28) + 48) = kthreadTrampoline.toNat ∧
        memory.getU64 (u32 (stackTop kstackBase - 28) + 56) = entry.toNat ∧
        memory.getU64 (u32 (stackTop kstackBase - 28) + 64) = arg.toNat := by
  have few : [kthreadTrampoline.toUInt32, 0, 0, 0, 0, entry.toUInt32,
      arg.toUInt32].length ≤ 12 := by
    simp
  have word := fun offset => @Cpu.switchTo_pushAll_getU64 _ few cpu kstackBase memory offset
  have first := word 0 (by omega)
  simp only [Nat.add_zero] at first
  rw [Cpu.StartsKthread, prepareKthreadStack, Cpu.switchTo_pushAll_rip few, first,
    word 8 (by omega)]
  rfl

theorem switchTo_user (entryUser userStackTop : UInt32) :
    (cpu.switchTo (prepareUserFirstSwitch usermodeIretTrampoline kstackBase entryUser
        userStackTop memory)).EntersUser usermodeIretTrampoline entryUser userStackTop ↔
      memory.getU64 (u32 (stackTop kstackBase - 40) + 48) = usermodeIretTrampoline.toNat ∧
        memory.getU32 (u32 (stackTop kstackBase - 40) + 56) = entryUser.toNat ∧
        memory.getU32 (u32 (stackTop kstackBase - 40) + 60) = 0x23 ∧
        memory.getU32 (u32 (stackTop kstackBase - 40) + 64) = 0x202 ∧
        memory.getU32 (u32 (stackTop kstackBase - 40) + 68) = userStackTop.toNat ∧
        memory.getU32 (u32 (stackTop kstackBase - 40) + 72) = 0x1B := by
  have few : [0, 0, 0, 0, usermodeIretTrampoline.toUInt32, 0x1B, userStackTop, 0x202, 0x23,
      entryUser].length ≤ 12 := by
    simp
  have word := fun offset => @Cpu.switchTo_pushAll_getU32 _ few cpu kstackBase memory offset
  have eip := word 0 (by omega)
  simp only [Nat.add_zero] at eip
  rw [Cpu.EntersUser, prepareUserFirstSwitch, Cpu.switchTo_pushAll_rip few, eip, word 4 (by omega),
    word 8 (by omega), word 12 (by omega), word 16 (by omega)]
  rfl

/-- A new task starts only where the memory past its stack already held, before the
stack was laid out, the return address and the words behind it. -/
theorem firstSwitch_iff_found (entry arg : UInt64) (entryUser userStackTop : UInt32) :
    ((cpu.switchTo (prepareKthreadStack kthreadTrampoline kstackBase entry arg
        memory)).StartsKthread kthreadTrampoline entry arg ↔
      memory.getU64 (u32 (stackTop kstackBase - 28) + 48) = kthreadTrampoline.toNat ∧
        memory.getU64 (u32 (stackTop kstackBase - 28) + 56) = entry.toNat ∧
        memory.getU64 (u32 (stackTop kstackBase - 28) + 64) = arg.toNat) ∧
    ((cpu.switchTo (prepareUserFirstSwitch usermodeIretTrampoline kstackBase entryUser
        userStackTop memory)).EntersUser usermodeIretTrampoline entryUser userStackTop ↔
      memory.getU64 (u32 (stackTop kstackBase - 40) + 48) = usermodeIretTrampoline.toNat ∧
        memory.getU32 (u32 (stackTop kstackBase - 40) + 56) = entryUser.toNat ∧
        memory.getU32 (u32 (stackTop kstackBase - 40) + 60) = 0x23 ∧
        memory.getU32 (u32 (stackTop kstackBase - 40) + 64) = 0x202 ∧
        memory.getU32 (u32 (stackTop kstackBase - 40) + 68) = userStackTop.toNat ∧
        memory.getU32 (u32 (stackTop kstackBase - 40) + 72) = 0x1B) := by
  constructor
  · exact switchTo_kthread kthreadTrampoline cpu kstackBase memory entry arg
  · exact switchTo_user usermodeIretTrampoline cpu kstackBase memory entryUser userStackTop

end

/-- On cleared memory both kinds of task start at address 0. -/
theorem firstSwitch_misses_trampoline :
    let cpu : Cpu := ⟨fun _ => 0, 0, 0, fun _ => 0⟩
    let kthread := cpu.switchTo (prepareKthreadStack 0xFFFFFFFF80001000 0x200000
      0xFFFFFFFF80002000 0 fun _ => 0)
    let user := cpu.switchTo (prepareUserFirstSwitch 0xFFFFFFFF80003000 0x200000
      0x400000 0x800000 fun _ => 0)
    (kthread.rip = 0 ∧ ¬ kthread.StartsKthread 0xFFFFFFFF80001000 0xFFFFFFFF80002000 0) ∧
      user.rip = 0 ∧ ¬ user.EntersUser 0xFFFFFFFF80003000 0x400000 0x800000 := by
  refine ⟨⟨by decide, ?_⟩, by decide, ?_⟩
  · intro starts
    exact absurd starts.1 (by decide)
  · intro enters
    exact absurd enters.1 (by decide)

end ParanOS

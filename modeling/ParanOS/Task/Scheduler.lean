import Mathlib.Logic.Function.Basic
import ParanOS.Foundation.Ring

/-! # The scheduler

The tasks of `task.c`: records at addresses, linked into a ring, of which the
scheduler always starts its search behind the task that runs. The context switch
itself only changes which task runs; what it does to the stacks is not part of
this state. The links of a task are set when it is put into the ring, and are
never null after that, so they are plain addresses here.
-/

namespace ParanOS

open Foundation

abbrev Addr := Nat

inductive TaskState
  | ready
  | running
  | blocked
  | zombie
  deriving DecidableEq

structure Task where
  tid : UInt32
  state : TaskState
  pgdir : Addr
  kstackBase : Addr
  timeSlice : Int
  next : Addr
  isUser : Bool
  deriving DecidableEq

def kstackSize : Nat := 16 * 1024

def timeSliceTicks : Int := 5

/-- The globals of `task.c`, with the kernel's page directory, the directory in
use and the stack for interrupts. -/
structure Sched where
  tasks : Addr → Task
  current : Option Addr
  readyq : Option Addr
  nextTid : UInt32
  schedEnabled : Bool
  idleTask : Option Addr
  cpuTotalTicks : Nat
  cpuIdleTicks : Nat
  pgdir : Addr
  activePgdir : Addr
  kernelStack : Nat

namespace Sched

def setTask (sched : Sched) (t : Addr) (task : Task) : Sched :=
  { sched with tasks := Function.update sched.tasks t task }

def setState (sched : Sched) (t : Addr) (state : TaskState) : Sched :=
  sched.setTask t { sched.tasks t with state := state }

def setTimeSlice (sched : Sched) (t : Addr) (timeSlice : Int) : Sched :=
  sched.setTask t { sched.tasks t with timeSlice := timeSlice }

/-- `tss_set_kernel_stack`, which keeps 32 bits of the top of the stack. -/
def tssSetKernelStack (base : Addr) (sched : Sched) : Sched :=
  { sched with kernelStack := (base + kstackSize) % 4294967296 }

def rqPush (t : Addr) (sched : Sched) : Sched :=
  match sched.readyq with
  | none => { sched.setTask t { sched.tasks t with next := t } with readyq := some t }
  | some head =>
      let sched := sched.setTask t { sched.tasks t with next := (sched.tasks head).next }
      sched.setTask head { sched.tasks head with next := t }

/-- A task at an address from `kmalloc`; `rq_push` sets its link. -/
def taskAlloc (t : Addr) (sched : Sched) : Sched :=
  { sched.setTask t ⟨sched.nextTid, .ready, 0, 0, timeSliceTicks, t, false⟩ with
    nextTid := sched.nextTid + 1 }

/-- `kthread_create`, with the addresses that `kmalloc` returns for the task and
its stack. -/
def kthreadCreate (t kstack : Addr) (sched : Sched) : Sched :=
  let sched := sched.taskAlloc t
  rqPush t (sched.setTask t { sched.tasks t with
    kstackBase := kstack, pgdir := sched.pgdir, isUser := false })

def procCreateUser (t kstack pgdirUser : Addr) (sched : Sched) : Sched :=
  let sched := sched.taskAlloc t
  rqPush t (sched.setTask t { sched.tasks t with
    kstackBase := kstack, pgdir := pgdirUser, isUser := true })

/-- The loop of `schedule`: the first ready task from `cand` on, or where the
search ends. -/
def scan (tasks : Addr → Task) (first : Addr) : (turns : Nat) → (cand : Addr) → Addr
  | 0, cand => cand
  | turns + 1, cand =>
      if (tasks cand).state = .ready then cand
      else
        let cand := (tasks cand).next
        if cand = first then cand else scan tasks first turns cand

/-- The states that a switch sets: the new task runs, and the one before is
ready if it was running. -/
def switchStates (sched : Sched) (cand : Addr) : Addr → Task :=
  let sched := sched.setState cand .running
  match sched.current with
  | some prev =>
      if (sched.tasks prev).state = .running then (sched.setState prev .ready).tasks
      else sched.tasks
  | none => sched.tasks

/-- The page directory after a switch. -/
def switchPgdir (sched : Sched) (cand : Addr) : Addr :=
  let pgdir := (sched.tasks cand).pgdir
  match sched.current with
  | some prev =>
      if pgdir ≠ 0 ∧ pgdir ≠ (sched.tasks prev).pgdir then pgdir else sched.activePgdir
  | none => sched.activePgdir

/-- The part of `schedule` that switches to a task. -/
def switchTo (cand : Addr) (sched : Sched) : Sched :=
  { sched.tssSetKernelStack (sched.tasks cand).kstackBase with
    activePgdir := sched.switchPgdir cand
    tasks := sched.switchStates cand
    current := some cand
    readyq := some cand }

def schedule (sched : Sched) : Sched :=
  match sched.readyq with
  | none => sched
  | some head =>
      let first := (sched.tasks head).next
      let cand := scan sched.tasks first 1024 first
      if (sched.tasks cand).state ≠ .ready then sched
      else if sched.current = some cand then
        sched.setTimeSlice cand timeSliceTicks
      else sched.switchTo cand

def countTick (current : Addr) (sched : Sched) : Sched :=
  { sched with
    cpuTotalTicks := sched.cpuTotalTicks + 1
    cpuIdleTicks := if sched.idleTask = some current then sched.cpuIdleTicks + 1
      else sched.cpuIdleTicks }

def scheduleFromTimer (sched : Sched) : Sched :=
  match sched.current with
  | none => sched
  | some current =>
      if !sched.schedEnabled then sched
      else
        let sched := sched.countTick current
        let timeSlice := (sched.tasks current).timeSlice - 1
        if timeSlice ≤ 0 then schedule (sched.setTimeSlice current timeSliceTicks)
        else sched.setTimeSlice current timeSlice

def yield (sched : Sched) : Sched := if !sched.schedEnabled then sched else sched.schedule

/-- The end of `kthread_trampoline`: the function of the task has returned. -/
def taskExit (sched : Sched) : Sched :=
  match sched.current with
  | none => sched
  | some current => sched.setState current .zombie

/-- `tasking_init`, with the address of the bootstrap task and those that
`kmalloc` returns. -/
def taskingInit (bootstrap bootstrapStack idle idleStack : Addr) (sched : Sched) : Sched :=
  let sched := { sched.setTask bootstrap
      ⟨sched.nextTid, .running, sched.pgdir, bootstrapStack, 0, bootstrap, false⟩ with
    nextTid := sched.nextTid + 1, current := some bootstrap, readyq := some bootstrap }
  let sched := sched.tssSetKernelStack bootstrapStack
  { sched.kthreadCreate idle idleStack with idleTask := some idle }

/-- `start_scheduler`, with the addresses of its two workers. -/
def startScheduler (t kstack t' kstack' : Addr) (sched : Sched) : Sched :=
  { (sched.kthreadCreate t kstack).kthreadCreate t' kstack' with schedEnabled := true }

/-! ## Enumeration of the tasks -/

def taskEnumHead (sched : Sched) : Option Addr :=
  sched.readyq.map fun head => (sched.tasks head).next

def taskEnumNext (sched : Sched) (t : Addr) : Option Addr :=
  sched.readyq.bind fun head =>
    let next := (sched.tasks t).next
    if next = (sched.tasks head).next then none else some next

/-- A loop over the tasks visits these and ends. -/
inductive Enumerates (sched : Sched) : Option Addr → List Addr → Prop
  | stop : Enumerates sched none []
  | visit {t rest} : Enumerates sched (sched.taskEnumNext t) rest →
      Enumerates sched (some t) (t :: rest)

end Sched

end ParanOS

import ParanOS.Task.Scheduler

/-! # The ring of tasks

From the task that runs, the links lead once around all tasks. Creation links a
task in behind the head, a switch moves the head along, and nothing else touches
the links; of the states, only the head's can be "running".
-/

namespace ParanOS

open Foundation

namespace Sched

def next (sched : Sched) (t : Addr) : Addr := (sched.tasks t).next

def state (sched : Sched) (t : Addr) : TaskState := (sched.tasks t).state

def isReady (sched : Sched) (t : Addr) : Bool := sched.state t = .ready

theorem isReady_iff {sched : Sched} {t : Addr} :
    sched.isReady t = true ↔ (sched.tasks t).state = .ready := decide_eq_true_iff

/-- The tasks form a ring from the one that runs, and no other is in the state
"running". -/
structure Rings (sched : Sched) (head : Addr) (others : List Addr) : Prop where
  readyq : sched.readyq = some head
  current : sched.current = some head
  ring : Ring sched.next head others
  running : ∀ t ∈ others, sched.state t ≠ .running

/-! ## Small changes -/

@[simp] theorem tasks_setTask_self (sched : Sched) (t : Addr) (task : Task) :
    (sched.setTask t task).tasks t = task := Function.update_self _ _ _

theorem tasks_setTask_of_ne (sched : Sched) {t other : Addr} (task : Task) (different : other ≠ t) :
    (sched.setTask t task).tasks other = sched.tasks other := Function.update_of_ne different _ _

theorem next_setState (sched : Sched) (t : Addr) (state : TaskState) :
    (sched.setState t state).next = sched.next := by
  funext other
  by_cases same : other = t
  · subst same
    simp [next, setState]
  · simp [next, setState, tasks_setTask_of_ne sched _ same]

theorem state_setState_self (sched : Sched) (t : Addr) (state : TaskState) :
    (sched.setState t state).state t = state := by
  simp [Sched.state, setState]

theorem state_setState_of_ne (sched : Sched) {t other : Addr} (state : TaskState)
    (different : other ≠ t) : (sched.setState t state).state other = sched.state other := by
  rw [Sched.state, setState, tasks_setTask_of_ne sched _ different]
  rfl

/-- Other fields of a task may change. -/
theorem Rings.setTask {sched : Sched} {head t : Addr} {others : List Addr} {task : Task}
    (rings : sched.Rings head others) (sameNext : task.next = sched.next t)
    (sameState : task.state = sched.state t) : (sched.setTask t task).Rings head others := by
  have nexts : ∀ other, (sched.setTask t task).next other = sched.next other := by
    intro other
    by_cases same : other = t
    · subst same
      rw [next, tasks_setTask_self, sameNext]
    · rw [next, tasks_setTask_of_ne sched _ same]
      rfl
  refine ⟨rings.readyq, rings.current, rings.ring.congr fun other _ => nexts other, ?_⟩
  intro other member
  by_cases same : other = t
  · subst same
    rw [Sched.state, tasks_setTask_self, sameState]
    exact rings.running other member
  · rw [Sched.state, tasks_setTask_of_ne sched _ same]
    exact rings.running other member

/-- The state of the head may change. -/
theorem Rings.setState {sched : Sched} {head : Addr} {others : List Addr}
    (rings : sched.Rings head others) (state : TaskState) :
    (sched.setState head state).Rings head others := by
  have distinct := List.nodup_cons.mp rings.ring.nodup
  refine ⟨rings.readyq, rings.current, ?_, fun t member => ?_⟩
  · rw [next_setState]
    exact rings.ring
  · have different : t ≠ head := fun same => distinct.1 (same ▸ member)
    rw [state_setState_of_ne sched state different]
    exact rings.running t member

/-! ## Creation -/

/-- A task that is not in the ring is linked in behind the head. -/
theorem Rings.rqPush {sched : Sched} {head t : Addr} {others : List Addr}
    (rings : sched.Rings head others) (fresh : t ∉ head :: others)
    (notRunning : sched.state t ≠ .running) : (sched.rqPush t).Rings head (t :: others) := by
  have different : t ≠ head := fun same => fresh (by simp [same])
  have pushed : sched.rqPush t = (sched.setTask t { sched.tasks t with
      next := (sched.tasks head).next }).setTask head { sched.tasks head with next := t } := by
    rw [Sched.rqPush, rings.readyq]
    simp only [tasks_setTask_of_ne sched _ different.symm]
  rw [pushed]
  refine ⟨rings.readyq, rings.current, ?_, ?_⟩
  · apply rings.ring.insert fresh
    · simp [next]
    · rw [next, tasks_setTask_of_ne _ _ different, tasks_setTask_self]
      rfl
    · intro member isOther
      have notHead : member ≠ head := by
        intro same
        exact (List.nodup_cons.mp rings.ring.nodup).1 (same ▸ isOther)
      have notNew : member ≠ t := fun same => fresh (by simp [← same, isOther])
      rw [next, tasks_setTask_of_ne _ _ notHead, tasks_setTask_of_ne _ _ notNew]
      rfl
  · intro member isMember
    have notHead : member ≠ head := by
      rcases List.mem_cons.mp isMember with rfl | isOther
      · exact different
      · intro same
        exact (List.nodup_cons.mp rings.ring.nodup).1 (same ▸ isOther)
    rw [Sched.state, tasks_setTask_of_ne _ _ notHead]
    rcases List.mem_cons.mp isMember with rfl | isOther
    · rw [tasks_setTask_self]
      exact notRunning
    · have notNew : member ≠ t := fun same => fresh (by simp [← same, isOther])
      rw [tasks_setTask_of_ne _ _ notNew]
      exact rings.running member isOther

/-- A record is made for a task that is not in the ring. -/
theorem Rings.fresh {sched : Sched} {head t : Addr} {others : List Addr}
    (rings : sched.Rings head others) (fresh : t ∉ head :: others) (task : Task) :
    (sched.setTask t task).Rings head others := by
  have apart : ∀ member ∈ head :: others, member ≠ t := fun member isMember same =>
    fresh (same ▸ isMember)
  refine ⟨rings.readyq, rings.current, rings.ring.congr fun member isMember => ?_,
    fun member isMember => ?_⟩
  · rw [next, tasks_setTask_of_ne _ _ (apart member isMember)]
    rfl
  · rw [Sched.state, tasks_setTask_of_ne _ _ (apart member (by simp [isMember]))]
    exact rings.running member isMember

/-- Globals other than the head and the running task may change. -/
theorem Rings.globals {sched sched' : Sched} {head : Addr} {others : List Addr}
    (rings : sched.Rings head others) (tasks : sched'.tasks = sched.tasks)
    (readyq : sched'.readyq = sched.readyq) (current : sched'.current = sched.current) :
    sched'.Rings head others := by
  have nexts : sched'.next = sched.next := by
    funext t
    rw [next, tasks]
    rfl
  refine ⟨readyq.trans rings.readyq, current.trans rings.current, nexts ▸ rings.ring, ?_⟩
  intro t member
  rw [Sched.state, tasks]
  exact rings.running t member

theorem Rings.kthreadCreate {sched : Sched} {head t : Addr} {others : List Addr}
    (rings : sched.Rings head others) (fresh : t ∉ head :: others) (kstack : Addr) :
    (sched.kthreadCreate t kstack).Rings head (t :: others) := by
  have allocated : (sched.taskAlloc t).Rings head others :=
    (rings.fresh fresh _).globals rfl rfl rfl
  apply (allocated.fresh fresh _).rqPush fresh
  simp [Sched.state, taskAlloc]

theorem Rings.procCreateUser {sched : Sched} {head t : Addr} {others : List Addr}
    (rings : sched.Rings head others) (fresh : t ∉ head :: others) (kstack pgdirUser : Addr) :
    (sched.procCreateUser t kstack pgdirUser).Rings head (t :: others) := by
  have allocated : (sched.taskAlloc t).Rings head others :=
    (rings.fresh fresh _).globals rfl rfl rfl
  apply (allocated.fresh fresh _).rqPush fresh
  simp [Sched.state, taskAlloc]

/-! ## The search for a ready task -/

/-- The task that the search accepts. -/
def accepted (sched : Sched) (t : Addr) : Option Addr := if sched.isReady t then some t else none

/-- The search behind the first candidate, which was not ready. -/
theorem accepted_scan_onwards {sched : Sched} {first cand : Addr} {members : List Addr}
    (linked : Linked sched.next (· = first) cand members) (unready : sched.isReady first = false)
    (turns : Nat) :
    sched.accepted (if cand = first then cand else scan sched.tasks first turns cand) =
      (members.take (turns + 1)).find? sched.isReady := by
  induction linked generalizing turns with
  | nil reached =>
      subst reached
      rw [if_pos rfl, accepted, unready]
      rfl
  | @cons cand rest different _ induction =>
      rw [if_neg different]
      by_cases ready : sched.isReady cand = true
      · have found : scan sched.tasks first turns cand = cand := by
          cases turns with
          | zero => rfl
          | succ turns => rw [scan, if_pos (isReady_iff.mp ready)]
        rw [found, accepted, ready, List.take_succ_cons, List.find?_cons, ready]
        rfl
      · rw [List.take_succ_cons, List.find?_cons, Bool.eq_false_iff.mpr ready]
        cases turns with
        | zero =>
            rw [scan, accepted, Bool.eq_false_iff.mpr ready]
            rfl
        | succ turns =>
            rw [scan, if_neg (isReady_iff.not.mp ready)]
            exact induction turns

/-- From the first candidate the search goes around the ring, as far as its
counter lets it. -/
theorem accepted_scan {sched : Sched} {first : Addr} {rest : List Addr}
    (ring : Ring sched.next first rest) (turns : Nat) :
    sched.accepted (scan sched.tasks first (turns + 1) first) =
      ((first :: rest).take (turns + 2)).find? sched.isReady := by
  rw [scan, List.take_succ_cons, List.find?_cons]
  by_cases ready : sched.isReady first = true
  · rw [if_pos (isReady_iff.mp ready), accepted, ready]
    rfl
  · rw [if_neg (isReady_iff.not.mp ready), Bool.eq_false_iff.mpr ready]
    exact accepted_scan_onwards ring (Bool.eq_false_iff.mpr ready) turns

/-- The task that `schedule` chooses. -/
def choice (sched : Sched) (head : Addr) (others : List Addr) : Option Addr :=
  ((Ring.order head others).take 1025).find? sched.isReady

theorem schedule_eq {sched : Sched} {head : Addr} {others : List Addr}
    (rings : sched.Rings head others) :
    sched.schedule = match sched.choice head others with
      | none => sched
      | some t =>
          if t = head then sched.setTimeSlice t timeSliceTicks else sched.switchTo t := by
  rcases rings.ring.advance with ⟨rest, order, ring⟩
  have found := accepted_scan ring 1023
  rw [← order] at found
  rw [schedule, rings.readyq, choice, ← found]
  simp only [accepted]
  change (if (sched.tasks (scan sched.tasks (sched.next head) 1024
    (sched.next head))).state ≠ .ready then _ else _) = _
  by_cases ready : sched.isReady (scan sched.tasks (sched.next head) 1024 (sched.next head)) = true
  · rw [if_neg (not_not.mpr (isReady_iff.mp ready)), if_pos ready, rings.current]
    simp only [Option.some.injEq, eq_comm]
    rfl
  · rw [if_pos (isReady_iff.not.mp ready), if_neg ready]

/-- The chosen task is a ready one of the ring. -/
theorem choice_mem {sched : Sched} {head t : Addr} {others : List Addr}
    (chosen : sched.choice head others = some t) :
    t ∈ head :: others ∧ sched.state t = .ready := by
  have member := List.mem_of_find?_eq_some chosen
  have ready := List.find?_some chosen
  exact ⟨(Ring.order_perm head others).mem_iff.mp (List.mem_of_mem_take member),
    isReady_iff.mp ready⟩

/-! ## Switches -/

theorem switchTo_tasks {sched : Sched} {head : Addr} (current : sched.current = some head)
    (t : Addr) :
    (sched.switchTo t).tasks =
      if (sched.setState t .running).state head = .running then
        ((sched.setState t .running).setState head .ready).tasks
      else (sched.setState t .running).tasks := by
  have running : (sched.setState t .running).current = some head := current
  change sched.switchStates t = _
  rw [switchStates]
  simp only [running]
  rfl

theorem next_switchTo {sched : Sched} {head : Addr} (current : sched.current = some head)
    (t : Addr) : (sched.switchTo t).next = sched.next := by
  funext other
  rw [next, switchTo_tasks current]
  split
  · exact (congrFun (next_setState _ head .ready) other).trans
      (congrFun (next_setState sched t .running) other)
  · exact congrFun (next_setState sched t .running) other

/-- What a switch does to the states. -/
theorem state_switchTo {sched : Sched} {head t : Addr} (current : sched.current = some head)
    (different : t ≠ head) (other : Addr) :
    (sched.switchTo t).state other =
      if other = t then .running
      else if other = head ∧ sched.state head = .running then .ready
      else sched.state other := by
  have headState := state_setState_of_ne sched .running different.symm
  rw [Sched.state, switchTo_tasks current, headState]
  by_cases isNew : other = t
  · subst isNew
    rw [if_pos rfl]
    split
    · exact (state_setState_of_ne _ .ready different).trans
        (state_setState_self sched other .running)
    · exact state_setState_self sched other .running
  · rw [if_neg isNew]
    have unchanged := state_setState_of_ne sched .running isNew
    by_cases isHead : other = head
    · subst isHead
      by_cases running : sched.state other = .running
      · rw [if_pos running, if_pos ⟨rfl, running⟩]
        exact state_setState_self _ other .ready
      · rw [if_neg running, if_neg fun both => running both.2]
        exact unchanged
    · have unequal : ¬ (other = head ∧ sched.state head = .running) := fun both => isHead both.1
      rw [if_neg unequal]
      split
      · exact (state_setState_of_ne _ .ready isHead).trans unchanged
      · exact unchanged

/-- After a switch the ring is seen from the new task. -/
theorem Rings.switchTo {sched : Sched} {head t : Addr} {before after : List Addr}
    (rings : sched.Rings head (before ++ t :: after)) :
    (sched.switchTo t).Rings t (after ++ head :: before) := by
  have distinct := rings.ring.nodup
  have different : t ≠ head := by
    intro same
    simp [same] at distinct
  refine ⟨rfl, rfl, ?_, ?_⟩
  · rw [next_switchTo rings.current]
    exact rings.ring.moved
  · intro other member
    have notNew : other ≠ t := by
      intro same
      exact (List.nodup_cons.mp rings.ring.moved.nodup).1 (same ▸ member)
    rw [state_switchTo rings.current different, if_neg notNew]
    split
    · simp
    · next idle =>
        by_cases isHead : other = head
        · subst isHead
          exact fun running => idle ⟨rfl, running⟩
        · apply rings.running other
          simp only [List.mem_append, List.mem_cons] at member ⊢
          tauto

/-- Scheduling moves the head along the ring. -/
theorem Rings.schedule {sched : Sched} {head : Addr} {others : List Addr}
    (rings : sched.Rings head others) :
    ∃ head' others', sched.schedule.Rings head' others' ∧
      (head' :: others').Perm (head :: others) := by
  rw [schedule_eq rings]
  cases chosen : sched.choice head others with
  | none => exact ⟨head, others, rings, .refl _⟩
  | some t =>
      dsimp only
      split
      · exact ⟨head, others, rings.setTask rfl rfl, .refl _⟩
      · next different =>
          have member := (choice_mem chosen).1
          have other : t ∈ others := by simpa [different] using member
          rcases List.append_of_mem other with ⟨before, after, rfl⟩
          refine ⟨t, after ++ head :: before, rings.switchTo, ?_⟩
          exact Ring.moved_perm head t before after

theorem Rings.scheduleFromTimer {sched : Sched} {head : Addr} {others : List Addr}
    (rings : sched.Rings head others) :
    ∃ head' others', sched.scheduleFromTimer.Rings head' others' ∧
      (head' :: others').Perm (head :: others) := by
  have counted : ∀ current, (sched.countTick current).Rings head others :=
    fun current => rings.globals rfl rfl rfl
  have sliced : ∀ current slice, ((sched.countTick current).setTimeSlice current slice).Rings
      head others := fun current slice => (counted current).setTask rfl rfl
  unfold Sched.scheduleFromTimer
  split
  · exact ⟨head, others, rings, .refl _⟩
  · split
    · exact ⟨head, others, rings, .refl _⟩
    · dsimp only
      split
      · exact (sliced _ _).schedule
      · exact ⟨head, others, sliced _ _, .refl _⟩

theorem Rings.yield {sched : Sched} {head : Addr} {others : List Addr}
    (rings : sched.Rings head others) :
    ∃ head' others', sched.yield.Rings head' others' ∧
      (head' :: others').Perm (head :: others) := by
  unfold Sched.yield
  split
  · exact ⟨head, others, rings, .refl _⟩
  · exact rings.schedule

theorem Rings.taskExit {sched : Sched} {head : Addr} {others : List Addr}
    (rings : sched.Rings head others) : sched.taskExit.Rings head others := by
  rw [Sched.taskExit, rings.current]
  exact rings.setState .zombie

theorem taskingInit_rings {bootstrap bootstrapStack idle idleStack : Addr} (sched : Sched)
    (different : idle ≠ bootstrap) :
    (sched.taskingInit bootstrap bootstrapStack idle idleStack).Rings bootstrap [idle] := by
  have alone : Rings (tssSetKernelStack bootstrapStack { sched.setTask bootstrap
      ⟨sched.nextTid, .running, sched.pgdir, bootstrapStack, 0, bootstrap, false⟩ with
      nextTid := sched.nextTid + 1, current := some bootstrap, readyq := some bootstrap })
      bootstrap [] := by
    refine ⟨rfl, rfl, .alone ?_, fun t member => by simp at member⟩
    simp [next, tssSetKernelStack]
  exact (alone.kthreadCreate (by simpa using different) idleStack).globals rfl rfl rfl

/-! ## Runs -/

/-- What can happen to the scheduler, with the addresses that `kmalloc`
returns. -/
inductive Event
  | kthreadCreate (t kstack : Addr)
  | procCreateUser (t kstack pgdirUser : Addr)
  | startScheduler (t kstack t' kstack' : Addr)
  | yield
  | timer
  | exit
  deriving DecidableEq

def step (sched : Sched) : Event → Sched
  | .kthreadCreate t kstack => sched.kthreadCreate t kstack
  | .procCreateUser t kstack pgdirUser => sched.procCreateUser t kstack pgdirUser
  | .startScheduler t kstack t' kstack' => sched.startScheduler t kstack t' kstack'
  | .yield => sched.yield
  | .timer => sched.scheduleFromTimer
  | .exit => sched.taskExit

/-- The tasks that an event creates. -/
def Event.created : Event → List Addr
  | .kthreadCreate t _ => [t]
  | .procCreateUser t _ _ => [t]
  | .startScheduler t _ t' _ => [t', t]
  | _ => []

/-- A state that the scheduler reaches after `tasking_init`, with the tasks that
exist then; `kmalloc` returns a block that is not in use. -/
inductive Reached : List Addr → Sched → Prop
  | init (sched : Sched) {bootstrap bootstrapStack idle idleStack : Addr} :
      idle ≠ bootstrap →
      Reached [idle, bootstrap] (sched.taskingInit bootstrap bootstrapStack idle idleStack)
  | step {tasks sched} (event : Event) : Reached tasks sched → (event.created ++ tasks).Nodup →
      Reached (event.created ++ tasks) (sched.step event)

/-- In every state that is reached, the tasks are those of a ring. -/
theorem Reached.rings {tasks : List Addr} {sched : Sched} (reached : Reached tasks sched) :
    ∃ head others, sched.Rings head others ∧ (head :: others).Perm tasks := by
  induction reached with
  | init sched different =>
      exact ⟨_, _, taskingInit_rings sched different, List.Perm.swap _ _ _⟩
  | @step tasks sched event _ distinct induction =>
      rcases induction with ⟨head, others, rings, same⟩
      have moved : ∀ {sched'}, (∃ head' others', Rings sched' head' others' ∧
          (head' :: others').Perm (head :: others)) →
          ∃ head' others', Rings sched' head' others' ∧ (head' :: others').Perm tasks := by
        intro sched' later
        rcases later with ⟨head', others', rings', perm⟩
        exact ⟨head', others', rings', perm.trans same⟩
      have grown : ∀ t, (head :: t :: others).Perm (t :: tasks) := fun t =>
        (List.Perm.swap _ _ _).trans (same.cons t)
      have outside : ∀ t, t ∉ tasks → t ∉ head :: others := fun t fresh member =>
        fresh (same.mem_iff.mp member)
      cases event with
      | kthreadCreate t kstack =>
          have fresh := outside t (List.nodup_cons.mp distinct).1
          exact ⟨head, t :: others, rings.kthreadCreate fresh kstack, grown t⟩
      | procCreateUser t kstack pgdirUser =>
          have fresh := outside t (List.nodup_cons.mp distinct).1
          exact ⟨head, t :: others, rings.procCreateUser fresh kstack pgdirUser, grown t⟩
      | startScheduler t kstack t' kstack' =>
          rcases List.nodup_cons.mp distinct with ⟨secondNew, rest⟩
          have first := rings.kthreadCreate (outside t (List.nodup_cons.mp rest).1) kstack
          have perm : (head :: t' :: t :: others).Perm (t' :: t :: tasks) :=
            (List.Perm.swap _ _ _).trans ((grown t).cons t')
          have fresh : t' ∉ head :: t :: others := fun member =>
            secondNew ((grown t).mem_iff.mp member)
          exact ⟨head, t' :: t :: others, (first.kthreadCreate fresh kstack').globals rfl rfl rfl,
            perm⟩
      | yield => exact moved rings.yield
      | timer => exact moved rings.scheduleFromTimer
      | exit => exact ⟨head, others, rings.taskExit, same⟩

/-! ## Enumeration -/

theorem enumerates_onwards {sched : Sched} {head t : Addr} {members : List Addr}
    (readyq : sched.readyq = some head)
    (linked : Linked sched.next (· = sched.next head) t members) :
    Enumerates sched (if t = sched.next head then none else some t) members := by
  induction linked with
  | nil reached =>
      rw [if_pos reached]
      exact .stop
  | @cons t rest different _ induction =>
      rw [if_neg different]
      refine .visit ?_
      rw [taskEnumNext, readyq]
      exact induction

/-- The loop over the tasks visits the whole ring. -/
theorem Rings.enumerates {sched : Sched} {head : Addr} {others : List Addr}
    (rings : sched.Rings head others) :
    Enumerates sched sched.taskEnumHead (Ring.order head others) := by
  rcases rings.ring.advance with ⟨rest, order, ring⟩
  rw [order, taskEnumHead, rings.readyq]
  refine .visit ?_
  rw [taskEnumNext, rings.readyq]
  exact enumerates_onwards rings.readyq ring

/-- After `tasking_init`, whatever happens: the links from the head of the queue
form one ring of all tasks; the head is the task that runs, and no other task is
in the state "running"; and a loop over the tasks visits each of them once and
ends. -/
theorem reached_ring {tasks : List Addr} {sched : Sched} (reached : Reached tasks sched) :
    ∃ head others, sched.readyq = some head ∧ sched.current = some head ∧
      Ring sched.next head others ∧ (head :: others).Perm tasks ∧ tasks.Nodup ∧
      (∀ t ∈ tasks, sched.state t = .running → sched.current = some t) ∧
      ∃ visited, Enumerates sched sched.taskEnumHead visited ∧ visited.Perm tasks := by
  rcases reached.rings with ⟨head, others, rings, perm⟩
  refine ⟨head, others, rings.readyq, rings.current, rings.ring, perm,
    perm.nodup_iff.mp rings.ring.nodup, ?_, Ring.order head others, rings.enumerates,
    (Ring.order_perm head others).trans perm⟩
  intro t member running
  rcases List.mem_cons.mp (perm.mem_iff.mpr member) with rfl | other
  · exact rings.current
  · exact absurd running (rings.running t other)

/-- The globals before `tasking_init`. -/
def blank : Sched :=
  ⟨fun _ => ⟨0, .ready, 0, 0, 0, 0, false⟩, none, none, 1, false, none, 0, 0, 0, 0, 0⟩

/-- The scheduler is started and the bootstrap task yields. -/
def started : Sched :=
  ((blank.taskingInit 1 100 2 200).step (.startScheduler 3 300 4 400)).step .yield

theorem reached_ring_started :
    started.current = some 4 ∧
      ∃ others, Ring started.next 4 others ∧ (4 :: others).Perm [4, 3, 2, 1] := by
  have reached : Reached [4, 3, 2, 1] started :=
    .step .yield (.step (.startScheduler 3 300 4 400) (.init blank (by decide)) (by decide))
      (by decide)
  have running : started.current = some 4 := by decide
  rcases reached_ring reached with ⟨head, others, _, current, ring, perm, _⟩
  have same : head = 4 := Option.some.inj (current.symm.trans running)
  subst same
  exact ⟨running, others, ring, perm⟩

end Sched

end ParanOS

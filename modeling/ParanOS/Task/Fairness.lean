import ParanOS.Task.Ring

/-! # Round robin

As long as no task is created and no state is changed from outside, `schedule`
gives the processor to the tasks that can run in the order of the ring, one
after another, and comes back to the first. The ring may have at most 1024
tasks, so that the counter of the search never ends it early.
-/

namespace ParanOS

open Foundation

namespace Sched

/-- The task can run, or is running. -/
def runnable (sched : Sched) (t : Addr) : Bool :=
  sched.state t = .ready || sched.state t = .running

theorem runnable_iff {sched : Sched} {t : Addr} :
    sched.runnable t = true ↔ sched.state t = .ready ∨ sched.state t = .running := by
  simp [runnable]

/-- The tasks that can run, in the order in which the search would find them. -/
def turns (sched : Sched) (head : Addr) (others : List Addr) : List Addr :=
  (Ring.order head others).filter sched.runnable

/-- What `schedule` finds and keeps: the head is running, in a ring that the
search can go around. -/
structure Fair (sched : Sched) (head : Addr) (others : List Addr) : Prop where
  rings : sched.Rings head others
  running : sched.state head = .running
  short : (head :: others).length ≤ 1024

/-- The running tasks after one call of `schedule`, two calls, and so on. -/
def currents : (calls : Nat) → Sched → List (Option Addr)
  | 0, _ => []
  | calls + 1, sched => sched.schedule.current :: currents calls sched.schedule

/-- A switch from a running task to a ready one leaves both able to run. -/
theorem runnable_switchTo {sched : Sched} {head t : Addr} (current : sched.current = some head)
    (different : t ≠ head) (running : sched.state head = .running)
    (ready : sched.state t = .ready) : (sched.switchTo t).runnable = sched.runnable := by
  funext other
  rw [Bool.eq_iff_iff, runnable_iff, runnable_iff, state_switchTo current different]
  by_cases isNew : other = t
  · rw [if_pos isNew, isNew]
    simp [ready]
  · rw [if_neg isNew]
    by_cases isHead : other = head
    · rw [if_pos ⟨isHead, running⟩, isHead]
      simp [running]
    · rw [if_neg fun both => isHead both.1]

/-- Tasks that the search skips cannot run. -/
theorem Rings.filter_skipped {sched : Sched} {head : Addr} {others skipped : List Addr}
    (rings : sched.Rings head others) (member : ∀ t ∈ skipped, t ∈ others)
    (unready : ∀ t ∈ skipped, sched.isReady t = false) : skipped.filter sched.runnable = [] := by
  rw [List.filter_eq_nil_iff]
  intro t isSkipped canRun
  rcases runnable_iff.mp canRun with ready | running
  · have found : sched.isReady t = true := isReady_iff.mpr ready
    rw [unready t isSkipped] at found
    exact Bool.false_ne_true found
  · exact rings.running t (member t isSkipped) running

/-- If another task is ready, the search finds the first one, and the turns go
around by one. -/
theorem Fair.schedule {sched : Sched} {head : Addr} {others : List Addr}
    (fair : sched.Fair head others) {t : Addr} (other : t ∈ others)
    (ready : sched.state t = .ready) :
    ∃ first rest others', sched.turns head others = first :: rest ∧
      sched.schedule.current = some first ∧ sched.schedule.Fair first others' ∧
      sched.schedule.turns first others' = rest ++ [first] := by
  have rings := fair.rings
  have found : (others.find? sched.isReady).isSome = true :=
    List.find?_isSome.mpr ⟨t, other, isReady_iff.mpr ready⟩
  rcases Option.isSome_iff_exists.mp found with ⟨first, isFirst⟩
  rcases List.find?_eq_some_iff_append.mp isFirst with ⟨firstReady, before, after, whole, unready⟩
  have skipped : ∀ t ∈ before, sched.isReady t = false := by simpa using unready
  subst whole
  have distinct := rings.ring.nodup
  have different : first ≠ head := by
    intro same
    simp [same] at distinct
  -- The counter does not end the search, so that it goes through the whole ring.
  have chosen : sched.choice head (before ++ first :: after) = some first := by
    have short : (Ring.order head (before ++ first :: after)).length ≤ 1025 := by
      rw [(Ring.order_perm head _).length_eq]
      exact fair.short.trans (by decide)
    rw [choice, List.take_of_length_le short, Ring.order, List.find?_append, isFirst]
    rfl
  have switched : sched.schedule = sched.switchTo first := by
    rw [schedule_eq rings, chosen]
    exact if_neg different
  have canRun := runnable_switchTo rings.current different fair.running (isReady_iff.mp firstReady)
  have none : before.filter sched.runnable = [] :=
    rings.filter_skipped (fun t isBefore => by simp [isBefore]) skipped
  have headRuns : sched.runnable head = true := runnable_iff.mpr (.inr fair.running)
  have firstRuns : sched.runnable first = true :=
    runnable_iff.mpr (.inl (isReady_iff.mp firstReady))
  refine ⟨first, after.filter sched.runnable ++ [head], after ++ head :: before, ?_, ?_, ?_, ?_⟩
  · simp [turns, Ring.order, List.filter_append, none, headRuns, firstRuns]
  · rw [switched]
    rfl
  · rw [switched]
    refine ⟨rings.switchTo, ?_, ?_⟩
    · rw [state_switchTo rings.current different, if_pos rfl]
    · rw [(Ring.moved_perm head first before after).length_eq]
      exact fair.short
  · rw [switched, turns, canRun]
    simp [Ring.order, List.filter_append, none, headRuns, firstRuns]

/-- The head takes its turn last. -/
theorem Fair.turns_eq {sched : Sched} {head : Addr} {others : List Addr}
    (fair : sched.Fair head others) :
    sched.turns head others = others.filter sched.runnable ++ [head] := by
  have headRuns : sched.runnable head = true := runnable_iff.mpr (.inr fair.running)
  simp [turns, Ring.order, List.filter_append, headRuns]

/-- With two tasks that can run, one of the others is ready. -/
theorem Fair.exists_ready {sched : Sched} {head : Addr} {others : List Addr}
    (fair : sched.Fair head others) (several : 2 ≤ (sched.turns head others).length) :
    ∃ t ∈ others, sched.state t = .ready := by
  rw [fair.turns_eq, List.length_append, List.length_singleton] at several
  have positive : 0 < (others.filter sched.runnable).length := by omega
  rcases List.exists_mem_of_length_pos positive with ⟨t, member⟩
  rcases List.mem_filter.mp member with ⟨other, canRun⟩
  rcases runnable_iff.mp canRun with ready | running
  · exact ⟨t, other, ready⟩
  · exact absurd running (fair.rings.running t other)

/-- As many calls as there are tasks that can run, or fewer. -/
theorem Fair.currents {sched : Sched} {head : Addr} {others : List Addr}
    (fair : sched.Fair head others) (several : 2 ≤ (sched.turns head others).length)
    {calls : Nat} (few : calls ≤ (sched.turns head others).length) :
    sched.currents calls = ((sched.turns head others).take calls).map some := by
  induction calls generalizing sched head others with
  | zero => rfl
  | succ calls induction =>
      rcases fair.exists_ready several with ⟨t, other, ready⟩
      rcases fair.schedule other ready with ⟨first, rest, others', turns, current, fair', turns'⟩
      have length : (sched.schedule.turns first others').length =
          (sched.turns head others).length := by
        rw [turns', turns, List.length_append, List.length_singleton, List.length_cons]
      have later := induction fair' (length ▸ several) (by omega)
      rw [Sched.currents, current, later, turns', turns, List.take_succ_cons, List.map_cons]
      have enough : calls ≤ rest.length := by
        rw [turns, List.length_cons] at few
        omega
      rw [List.take_append_of_le_length enough]

/-- In a ring of at most 1024 tasks whose head is running, with another task
ready: over as many calls of `schedule` as there are tasks that can run, these
tasks run one after another in the order of the ring, each of them once, and the
last is the one that was running at the start. -/
theorem currents_eq_turns {sched : Sched} {head : Addr} {others : List Addr}
    (rings : sched.Rings head others) (running : sched.state head = .running)
    (short : (head :: others).length ≤ 1024) (several : ∃ t ∈ others, sched.state t = .ready) :
    sched.currents (sched.turns head others).length = (sched.turns head others).map some ∧
      (sched.turns head others).Nodup ∧ (sched.turns head others).getLast? = some head ∧
      ∀ t, t ∈ sched.turns head others ↔
        t = head ∨ t ∈ others ∧ sched.state t = .ready := by
  have fair : sched.Fair head others := ⟨rings, running, short⟩
  have runnables : ∀ t ∈ others, sched.runnable t = true ↔ sched.state t = .ready := by
    intro t other
    rw [runnable_iff]
    exact or_iff_left (rings.running t other)
  have atLeast : 2 ≤ (sched.turns head others).length := by
    rcases several with ⟨t, other, ready⟩
    have member : t ∈ others.filter sched.runnable :=
      List.mem_filter.mpr ⟨other, (runnables t other).mpr ready⟩
    rw [fair.turns_eq, List.length_append, List.length_singleton]
    have positive := List.length_pos_of_mem member
    omega
  refine ⟨?_, ?_, ?_, fun t => ?_⟩
  · rw [fair.currents atLeast (Nat.le_refl _), List.take_length]
  · exact ((Ring.order_perm head others).nodup_iff.mpr rings.ring.nodup).filter _
  · rw [fair.turns_eq, List.getLast?_concat]
  · rw [fair.turns_eq, List.mem_append, List.mem_filter, List.mem_singleton, or_comm]
    constructor
    · intro member
      rcases member with isHead | ⟨other, canRun⟩
      · exact .inl isHead
      · exact .inr ⟨other, (runnables t other).mp canRun⟩
    · intro member
      rcases member with isHead | ⟨other, ready⟩
      · exact .inl isHead
      · exact .inr ⟨other, (runnables t other).mpr ready⟩

theorem started_rings : started.Rings 4 [3, 2, 1] :=
  ⟨by decide, by decide,
    .cons (by decide) (.cons (by decide) (.cons (by decide) (.nil (by decide)))), by decide⟩

theorem currents_started :
    started.currents 4 = [some 3, some 2, some 1, some 4] := by
  have order : started.turns 4 [3, 2, 1] = [3, 2, 1, 4] := by decide
  have turns := (currents_eq_turns started_rings (by decide) (by decide) (by decide)).1
  rw [order] at turns
  exact turns

end Sched

end ParanOS

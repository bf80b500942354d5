import Mathlib.Algebra.Order.Ring.Nat
import ParanOS.Task.Scheduler

/-! # The CPU usage

The timer counts its ticks and those at which the idle task runs. A sample compares the counters
with what they were at the sample before, which it remembers. A reset clears the counters, but
not what is remembered.
-/

namespace ParanOS

/-- The scheduler with the static variables of `task_cpu_usage_percent`. -/
structure CpuMeter where
  sched : Sched
  prevTotal : UInt64
  prevIdle : UInt64

namespace CpuMeter

/-- The variables before the first tick. -/
def initial (sched : Sched) : CpuMeter :=
  ⟨{ sched with cpuTotalTicks := 0, cpuIdleTicks := 0 }, 0, 0⟩

/-- The end of `task_cpu_usage_percent`. -/
def percentOf (deltaTotal deltaIdle : UInt64) : UInt32 :=
  if deltaTotal = 0 then 0
  else
    let deltaBusy := if deltaTotal > deltaIdle then deltaTotal - deltaIdle else 0
    let pct := (deltaBusy * 100 / deltaTotal).toUInt32
    if pct > 100 then 100 else pct

def usagePercent (meter : CpuMeter) : UInt32 × CpuMeter :=
  let total64 := UInt64.ofNat meter.sched.cpuTotalTicks
  let idle64 := UInt64.ofNat meter.sched.cpuIdleTicks
  let deltaTotal := total64 - meter.prevTotal
  let deltaIdle := idle64 - meter.prevIdle
  (percentOf deltaTotal deltaIdle, { meter with prevTotal := total64, prevIdle := idle64 })

def reset (meter : CpuMeter) : CpuMeter :=
  { meter with sched := { meter.sched with cpuTotalTicks := 0, cpuIdleTicks := 0 } }

/-- What happens: ticks of the timer, samples and resets, and between them whatever changes the
tasks. -/
inductive Event
  | tick
  | sample
  | reset
  | tasks (sched : Sched)

def after (meter : CpuMeter) : Event → CpuMeter
  | .tick => { meter with sched := meter.sched.scheduleFromTimer }
  | .sample => meter.usagePercent.2
  | .reset => meter.reset
  | .tasks sched =>
      { meter with sched := { sched with
          cpuTotalTicks := meter.sched.cpuTotalTicks, cpuIdleTicks := meter.sched.cpuIdleTicks } }

/-- What a sample is about: the ticks since the latest sample or reset, how many of them were
busy, and which of both it was. -/
structure Since where
  ticks : Nat
  busy : Nat
  reset : Bool

/-- The ticks that count come while the scheduler is enabled; a tick is busy if it is not the
idle task that runs. -/
def Since.after (since : Since) (sched : Sched) : Event → Since
  | .tick =>
      if sched.schedEnabled ∧ sched.current ≠ none then
        { since with
          ticks := since.ticks + 1
          busy := if sched.current = sched.idleTask then since.busy else since.busy + 1 }
      else since
  | .sample => ⟨0, 0, false⟩
  | .reset => ⟨0, 0, true⟩
  | .tasks _ => since

/-- Meter and history after some events. -/
def run (start : CpuMeter × Since) (events : List Event) : CpuMeter × Since :=
  events.foldl (fun state event => (state.1.after event, state.2.after state.1.sched event)) start

/-- The meter from its start on, with nothing to remember. -/
def history (sched : Sched) (events : List Event) : CpuMeter × Since :=
  run (initial sched, ⟨0, 0, false⟩) events

/-- The counters are reset since the latest sample only if that sample found them at zero, or if
no tick has come since. -/
def Fresh (state : CpuMeter × Since) : Prop :=
  state.2.reset = true → state.1.prevTotal = 0 ∨ state.2.ticks = 0

instance (state : CpuMeter × Since) : Decidable (Fresh state) :=
  inferInstanceAs (Decidable (_ → _))

/-! ## The counters -/

theorem schedule_counters (sched : Sched) :
    sched.schedule.cpuTotalTicks = sched.cpuTotalTicks ∧
      sched.schedule.cpuIdleTicks = sched.cpuIdleTicks := by
  have switched : ∀ cand, (sched.switchTo cand).cpuTotalTicks = sched.cpuTotalTicks ∧
      (sched.switchTo cand).cpuIdleTicks = sched.cpuIdleTicks := by
    intro cand
    rw [Sched.switchTo, Sched.tssSetKernelStack]
    exact ⟨rfl, rfl⟩
  rw [Sched.schedule]
  split
  · exact ⟨rfl, rfl⟩
  · dsimp only
    split
    · exact ⟨rfl, rfl⟩
    · split
      · exact ⟨rfl, rfl⟩
      · exact switched _

/-- A tick that counts. -/
theorem scheduleFromTimer_counters {sched : Sched} {current : Addr}
    (enabled : sched.schedEnabled = true) (runs : sched.current = some current) :
    sched.scheduleFromTimer.cpuTotalTicks = sched.cpuTotalTicks + 1 ∧
      sched.scheduleFromTimer.cpuIdleTicks =
        if sched.idleTask = some current then sched.cpuIdleTicks + 1 else sched.cpuIdleTicks := by
  rw [Sched.scheduleFromTimer, runs, enabled]
  dsimp only
  rw [if_neg (by decide)]
  split
  · exact schedule_counters _
  · exact ⟨rfl, rfl⟩

theorem scheduleFromTimer_stopped {sched : Sched}
    (stopped : ¬ (sched.schedEnabled = true ∧ sched.current ≠ none)) :
    sched.scheduleFromTimer = sched := by
  rw [Sched.scheduleFromTimer]
  split
  · rfl
  · rename_i current runs
    rw [if_pos]
    simpa [runs] using stopped

/-! ## What is remembered -/

/-- The counters in terms of what is remembered and of the ticks since. -/
structure Tracks (state : CpuMeter × Since) : Prop where
  busy_le : state.2.busy ≤ state.2.ticks
  prev_le : state.1.prevIdle.toNat ≤ state.1.prevTotal.toNat
  idle_le : state.1.sched.cpuIdleTicks ≤ state.1.sched.cpuTotalTicks
  total : state.1.sched.cpuTotalTicks =
    state.2.ticks + (if state.2.reset then 0 else state.1.prevTotal.toNat)
  idle : state.1.sched.cpuIdleTicks + state.2.busy =
    state.2.ticks + (if state.2.reset then 0 else state.1.prevIdle.toNat)

/-- No counter has seen more ticks than there were. -/
structure Within (state : CpuMeter × Since) (ticks : Nat) : Prop where
  total_le : state.1.sched.cpuTotalTicks ≤ ticks
  prev_le : state.1.prevTotal.toNat ≤ ticks

theorem ofNat_toNat {count ticks : Nat} (bound : count ≤ ticks) (few : ticks < 2 ^ 57) :
    (UInt64.ofNat count).toNat = count := by
  rw [UInt64.toNat_ofNat']
  exact Nat.mod_eq_of_lt (by omega)

def Event.ticks : Event → Nat
  | .tick => 1
  | _ => 0

theorem Tracks.tick {state : CpuMeter × Since} {ticks : Nat} (tracks : Tracks state)
    (within : Within state ticks) :
    Tracks (state.1.after .tick, state.2.after state.1.sched .tick) ∧
      Within (state.1.after .tick, state.2.after state.1.sched .tick) (ticks + 1) := by
  rcases state with ⟨⟨sched, prevTotal, prevIdle⟩, since⟩
  rcases tracks with ⟨busy_le, prev_le, idle_le, total, idle⟩
  rcases within with ⟨total_le, remembered_le⟩
  dsimp only at *
  by_cases counts : sched.schedEnabled = true ∧ sched.current ≠ none
  · rcases Option.ne_none_iff_exists'.mp counts.2 with ⟨current, runs⟩
    have counters := scheduleFromTimer_counters counts.1 runs
    rw [Since.after, if_pos counts, runs]
    by_cases isIdle : sched.idleTask = some current
    · rw [if_pos isIdle] at counters
      rw [if_pos isIdle.symm]
      constructor
      · constructor <;> simp only [CpuMeter.after, counters.1, counters.2] <;> omega
      · constructor <;> simp only [CpuMeter.after, counters.1] <;> omega
    · rw [if_neg isIdle] at counters
      rw [if_neg (Ne.symm isIdle)]
      constructor
      · constructor <;> simp only [CpuMeter.after, counters.1, counters.2] <;> omega
      · constructor <;> simp only [CpuMeter.after, counters.1] <;> omega
  · rw [Since.after, if_neg counts, CpuMeter.after, scheduleFromTimer_stopped counts]
    exact ⟨⟨busy_le, prev_le, idle_le, total, idle⟩,
      ⟨Nat.le_succ_of_le total_le, Nat.le_succ_of_le remembered_le⟩⟩

theorem Tracks.sample {state : CpuMeter × Since} {ticks : Nat} (tracks : Tracks state)
    (within : Within state ticks) (few : ticks < 2 ^ 57) :
    Tracks (state.1.usagePercent.2, ⟨0, 0, false⟩) ∧
      Within (state.1.usagePercent.2, ⟨0, 0, false⟩) ticks := by
  have total := ofNat_toNat within.total_le few
  have idle := ofNat_toNat (Nat.le_trans tracks.idle_le within.total_le) few
  rw [usagePercent]
  dsimp only
  constructor
  · constructor
    · exact Nat.le_refl 0
    · rw [total, idle]
      exact tracks.idle_le
    · exact tracks.idle_le
    · rw [total, Nat.zero_add]
      rfl
    · rw [idle, Nat.zero_add]
      rfl
  · constructor
    · exact within.total_le
    · rw [total]
      exact within.total_le

/-- Every event keeps the counters in line. -/
theorem Tracks.after {state : CpuMeter × Since} {ticks : Nat} (tracks : Tracks state)
    (within : Within state ticks) (few : ticks < 2 ^ 57) (event : Event) :
    Tracks (state.1.after event, state.2.after state.1.sched event) ∧
      Within (state.1.after event, state.2.after state.1.sched event) (ticks + event.ticks) := by
  cases event with
  | tick => exact tracks.tick within
  | sample => exact tracks.sample within few
  | reset =>
      exact ⟨⟨Nat.le_refl 0, tracks.prev_le, Nat.le_refl 0, rfl, rfl⟩,
        ⟨Nat.zero_le _, within.prev_le⟩⟩
  | tasks sched =>
      exact ⟨⟨tracks.busy_le, tracks.prev_le, tracks.idle_le, tracks.total, tracks.idle⟩,
        ⟨within.total_le, within.prev_le⟩⟩

/-- Number of timer ticks among some events. -/
def ticksOf (events : List Event) : Nat := (events.map Event.ticks).sum

theorem run_tracks (events : List Event) : ∀ {state : CpuMeter × Since} {ticks : Nat},
    Tracks state → Within state ticks → ticks + ticksOf events < 2 ^ 57 →
      Tracks (run state events) ∧ Within (run state events) (ticks + ticksOf events) := by
  induction events with
  | nil => exact fun tracks within _ => ⟨tracks, within⟩
  | cons event rest induction =>
      intro state ticks tracks within few
      have total : ticks + ticksOf (event :: rest) = ticks + event.ticks + ticksOf rest := by
        rw [ticksOf, List.map_cons, List.sum_cons, Nat.add_assoc]
        rfl
      rw [total] at few ⊢
      have next := tracks.after within (by omega) event
      exact induction next.1 next.2 few

theorem history_tracks (sched : Sched) {events : List Event} (few : ticksOf events < 2 ^ 57) :
    Tracks (history sched events) ∧ Within (history sched events) (ticksOf events) := by
  have tracks : Tracks (initial sched, ⟨0, 0, false⟩) :=
    ⟨Nat.le_refl 0, Nat.le_refl 0, Nat.le_refl 0, rfl, rfl⟩
  have within : Within (initial sched, ⟨0, 0, false⟩) 0 := ⟨Nat.le_refl 0, Nat.le_refl 0⟩
  have all := run_tracks events tracks within (by rwa [Nat.zero_add])
  rwa [Nat.zero_add] at all

/-! ## Samples -/

/-- The percentage, when the differences are what they should be. -/
theorem percentOf_toNat {deltaTotal deltaIdle : UInt64} {ticks busy : Nat}
    (total : deltaTotal.toNat = ticks) (idle : deltaIdle.toNat + busy = ticks)
    (few : ticks < 2 ^ 57) : (percentOf deltaTotal deltaIdle).toNat = 100 * busy / ticks := by
  by_cases none : deltaTotal = 0
  · rw [none, UInt64.toNat_zero] at total
    rw [percentOf, if_pos none, ← total, Nat.div_zero]
    rfl
  · have positive : 0 < ticks := by
      rw [← total]
      exact Nat.pos_of_ne_zero fun zero => none (UInt64.toNat_inj.mp zero)
    have difference : (if deltaTotal > deltaIdle then deltaTotal - deltaIdle else 0).toNat =
        busy := by
      by_cases some : deltaTotal > deltaIdle
      · rw [if_pos some, UInt64.toNat_sub_of_le _ _ (UInt64.le_of_lt some)]
        omega
      · have least := UInt64.le_iff_toNat_le.mp (UInt64.not_lt.mp some)
        rw [if_neg some, UInt64.toNat_zero]
        omega
    have share : 100 * busy / ticks ≤ 100 := Nat.div_le_of_le_mul (by omega)
    have quotient : ((if deltaTotal > deltaIdle then deltaTotal - deltaIdle else 0) * 100 /
        deltaTotal).toNat = 100 * busy / ticks := by
      rw [UInt64.toNat_div, UInt64.toNat_mul, difference, total, Nat.mul_comm busy]
      congr 1
      exact Nat.mod_eq_of_lt (by
        show 100 * busy < _
        omega)
    have narrow : ((if deltaTotal > deltaIdle then deltaTotal - deltaIdle else 0) * 100 /
        deltaTotal).toUInt32.toNat = 100 * busy / ticks := by
      rw [UInt64.toNat_toUInt32, quotient]
      exact Nat.mod_eq_of_lt (by omega)
    rw [percentOf, if_neg none]
    dsimp only
    rw [if_neg, narrow]
    rw [gt_iff_lt, UInt32.lt_iff_toNat_lt, narrow]
    exact Nat.not_lt.mpr share

/-- A sample right after a reset, before any tick: what was remembered is subtracted from zero. -/
theorem percentOf_reset {prevTotal prevIdle : UInt64} (ordered : prevIdle.toNat ≤ prevTotal.toNat)
    (few : prevTotal.toNat < 2 ^ 57) : percentOf (0 - prevTotal) (0 - prevIdle) = 0 := by
  have total : (0 - prevTotal).toNat = (18446744073709551616 - prevTotal.toNat) %
      18446744073709551616 := by
    rw [UInt64.toNat_sub, UInt64.toNat_zero, Nat.add_zero]
  have idle : (0 - prevIdle).toNat = (18446744073709551616 - prevIdle.toNat) %
      18446744073709551616 := by
    rw [UInt64.toNat_sub, UInt64.toNat_zero, Nat.add_zero]
  by_cases none : 0 - prevTotal = 0
  · rw [percentOf, if_pos none]
  · have positive : 0 < prevTotal.toNat := by
      refine Nat.pos_of_ne_zero fun zero => none (UInt64.toNat_inj.mp ?_)
      rw [total, zero]
      rfl
    have zero : ((if 0 - prevTotal > 0 - prevIdle then 0 - prevTotal - (0 - prevIdle) else 0) *
        100 / (0 - prevTotal)) = 0 := by
      apply UInt64.toNat_inj.mp
      rw [UInt64.toNat_div, UInt64.toNat_mul, UInt64.toNat_zero]
      apply Nat.div_eq_of_lt
      by_cases some : 0 - prevTotal > 0 - prevIdle
      · have less := UInt64.lt_iff_toNat_lt.mp some
        have difference := UInt64.toNat_sub_of_le _ _ (UInt64.le_of_lt some)
        -- only the busy ticks were remembered
        have busy : (0 - prevTotal - (0 - prevIdle)).toNat = 18446744073709551616 -
            prevTotal.toNat := by
          omega
        have wraps : (18446744073709551616 - prevTotal.toNat) * 100 =
            18446744073709551616 - 100 * prevTotal.toNat + 18446744073709551616 * 99 := by
          omega
        rw [if_pos some, busy, total]
        change (18446744073709551616 - prevTotal.toNat) * 100 % 18446744073709551616 < _
        rw [wraps, Nat.add_mul_mod_self_left, Nat.mod_eq_of_lt (by omega)]
        omega
      · rw [if_neg some, total]
        change 0 * 100 % 18446744073709551616 < _
        omega
    rw [percentOf, if_neg none]
    dsimp only
    rw [zero]
    rfl

/-! ## Samples in a run -/

theorem Tracks.usagePercent_eq {state : CpuMeter × Since} {ticks : Nat} (tracks : Tracks state)
    (within : Within state ticks) (few : ticks < 2 ^ 57) (fresh : Fresh state) :
    state.1.usagePercent.1.toNat = 100 * state.2.busy / state.2.ticks := by
  rcases state with ⟨⟨sched, prevTotal, prevIdle⟩, since⟩
  rcases tracks with ⟨busy_le, prev_le, idle_le, total, idle⟩
  rcases within with ⟨total_le, remembered_le⟩
  rw [Fresh] at fresh
  dsimp only at *
  have total64 := ofNat_toNat total_le few
  have idle64 := ofNat_toNat (Nat.le_trans idle_le total_le) few
  rw [usagePercent]
  dsimp only
  cases reset : since.reset with
  | false =>
      rw [reset, if_neg (by decide)] at total idle
      have deltaTotal := UInt64.toNat_sub_of_le (UInt64.ofNat sched.cpuTotalTicks) prevTotal
        (UInt64.le_iff_toNat_le.mpr (by omega))
      have deltaIdle := UInt64.toNat_sub_of_le (UInt64.ofNat sched.cpuIdleTicks) prevIdle
        (UInt64.le_iff_toNat_le.mpr (by omega))
      exact percentOf_toNat (by omega) (by omega) (by omega)
  | true =>
      rw [reset, if_pos rfl, Nat.add_zero] at total idle
      cases fresh reset with
      | inl forgotten =>
          have zero : prevTotal.toNat = 0 := by rw [forgotten, UInt64.toNat_zero]
          have zero' : prevIdle = 0 := UInt64.toNat_inj.mp (by rw [UInt64.toNat_zero]; omega)
          rw [forgotten, zero', UInt64.sub_zero, UInt64.sub_zero]
          exact percentOf_toNat (by omega) (by omega) (by omega)
      | inr noTick =>
          have cleared : sched.cpuTotalTicks = 0 := by omega
          have cleared' : sched.cpuIdleTicks = 0 := by omega
          rw [cleared, cleared', noTick, Nat.div_zero]
          exact congrArg UInt32.toNat (percentOf_reset prev_le (by omega))

/-- In every run of fewer than 2^57 ticks: where the condition is met, a sample is the
percentage of busy ticks since the latest sample or reset, rounded down. -/
theorem usagePercent_since (sched : Sched) (events : List Event) (few : ticksOf events < 2 ^ 57) :
    ∀ before later, events = before ++ .sample :: later → Fresh (history sched before) →
      let state := history sched before
      state.1.usagePercent.1.toNat = 100 * state.2.busy / state.2.ticks ∧
        state.1.usagePercent.1.toNat ≤ 100 := by
  intro before later split fresh
  have fewer : ticksOf before < 2 ^ 57 := by
    rw [split, ticksOf, List.map_append, List.sum_append] at few
    exact Nat.lt_of_le_of_lt (Nat.le_add_right _ _) few
  rcases history_tracks sched fewer with ⟨tracks, within⟩
  have value := tracks.usagePercent_eq within fewer fresh
  have busy := tracks.busy_le
  dsimp only
  rw [value]
  exact ⟨rfl, Nat.div_le_of_le_mul (by omega)⟩

/-- Two tasks take turns, of which one is the idle task. -/
def twoTasks (current : Addr) : Sched :=
  ⟨fun t => ⟨0, .ready, 0, 0, 5, 3 - t, false⟩, some current, some current, 3, true, some 1, 0, 0,
    0, 0, 0⟩

/-- One of three ticks is busy. -/
theorem usagePercent_since_third :
    let events := [Event.tick, .tick, .tasks (twoTasks 2), .tick]
    (history (twoTasks 1) events).1.usagePercent.1 = 33 := by
  intro events
  have third := (usagePercent_since (twoTasks 1) (events ++ [.sample]) (by decide) events [] rfl
    (by decide)).1
  exact UInt32.toNat_inj.mp (third.trans (by decide +kernel))

/-- After a sample and a reset every tick is busy, but the next sample is 0. -/
theorem usagePercent_after_reset :
    let state := history (twoTasks 2) [.tick, .sample, .reset, .tick]
    state.2.ticks = 1 ∧ state.2.busy = 1 ∧ 100 * state.2.busy / state.2.ticks = 100 ∧
      state.1.usagePercent.1 = 0 := by
  decide +kernel

end CpuMeter

end ParanOS

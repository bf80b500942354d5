import Mathlib.Data.List.Induction

/-! # The keyboard driver

`keyboard.c` keeps one scancode: the interrupt stores it and sets a flag, and
the poll tests the flag, copies the scancode and clears the flag. An interrupt
may come between any two of these accesses. A scancode gets lost exactly when
the interrupt for the next one finds the flag set.
-/

namespace ParanOS

/-- Where `kbd_get_scancode` stands between its accesses to the shared
variables. -/
inductive PollState
  | idle
  /-- The flag was set. -/
  | tested
  /-- The scancode has been stored to `*out`. -/
  | copied (out : UInt8)
  deriving DecidableEq

/-- The variables of the driver, the poll under way, and as a history the
scancodes that came in and those that polls returned. -/
structure Keyboard where
  lastSc : UInt8
  hasSc : Bool
  poll : PollState
  delivered : List UInt8
  returned : List UInt8
  deriving DecidableEq

namespace Keyboard

def initial : Keyboard := ⟨0, false, .idle, [], []⟩

/-- `keyboard_callback`, with the byte that it reads from the data port. -/
def keyboardCallback (sc : UInt8) (keyboard : Keyboard) : Keyboard :=
  { keyboard with
    lastSc := sc, hasSc := true, delivered := keyboard.delivered ++ [sc] }

/-- The next access of `kbd_get_scancode`, which starts over when it has
returned. -/
def kbdGetScancode (keyboard : Keyboard) : Keyboard :=
  match keyboard.poll with
  | .idle => if !keyboard.hasSc then keyboard else { keyboard with poll := .tested }
  | .tested => { keyboard with poll := .copied keyboard.lastSc }
  | .copied out =>
      { keyboard with hasSc := false, poll := .idle, returned := keyboard.returned ++ [out] }

inductive Event
  | interrupt (sc : UInt8)
  | access
  deriving DecidableEq

def step (keyboard : Keyboard) : Event → Keyboard
  | .interrupt sc => keyboard.keyboardCallback sc
  | .access => keyboard.kbdGetScancode

/-- The driver after these events. -/
def after (events : List Event) : Keyboard := events.foldl step initial

theorem after_append_singleton (events : List Event) (event : Event) :
    after (events ++ [event]) = (after events).step event := by
  simp only [after, List.foldl_append, List.foldl_cons, List.foldl_nil]

/-- The scancode that waits for a poll. -/
def waiting (keyboard : Keyboard) : List UInt8 :=
  if keyboard.hasSc then [keyboard.lastSc] else []

/-- Every interrupt finds the flag cleared by the poll of the scancode before. -/
def Unhurried (events : List Event) : Prop :=
  ∀ earlier sc, earlier ++ [.interrupt sc] <+: events → (after earlier).hasSc = false

theorem Unhurried.of_append {events : List Event} {event : Event}
    (unhurried : Unhurried (events ++ [event])) : Unhurried events :=
  fun earlier sc before => unhurried earlier sc (before.trans (List.prefix_append _ _))

theorem unhurried_append_singleton (events : List Event) (event : Event) :
    Unhurried (events ++ [event]) ↔
      Unhurried events ∧ ∀ sc, event = .interrupt sc → (after events).hasSc = false := by
  constructor
  · intro unhurried
    refine ⟨unhurried.of_append, fun sc last => ?_⟩
    subst last
    exact unhurried events sc (List.prefix_refl _)
  · intro parts earlier sc before
    rcases parts with ⟨unhurried, last⟩
    rcases List.prefix_concat_iff.mp before with whole | shorter
    · rcases List.append_inj' whole rfl with ⟨rfl, same⟩
      exact last sc (List.cons.inj same).1.symm
    · exact unhurried earlier sc shorter

/-! ## What a poll under way knows -/

/-- While a poll is under way the flag is set. -/
def FlagSet (keyboard : Keyboard) : Prop := keyboard.poll ≠ .idle → keyboard.hasSc = true

theorem FlagSet.step {keyboard : Keyboard} (flag : FlagSet keyboard) (event : Event) :
    FlagSet (keyboard.step event) := by
  intro busy
  cases event with
  | interrupt sc => rfl
  | access =>
      simp only [Keyboard.step, kbdGetScancode] at busy ⊢
      cases poll : keyboard.poll with
      | idle =>
          by_cases has : keyboard.hasSc
          · simp [has]
          · simp [poll, has] at busy
      | tested => exact flag (by simp [poll])
      | copied out => simp [poll] at busy

theorem flagSet_after (events : List Event) : FlagSet (after events) := by
  induction events using List.reverseRecOn with
  | nil => exact fun busy => absurd rfl busy
  | append_singleton earlier event induction =>
      rw [after_append_singleton]
      exact induction.step event

/-- All scancodes have been returned or are waiting, and a poll has copied the
one that is waiting. -/
structure Complete (keyboard : Keyboard) : Prop where
  delivered : keyboard.delivered = keyboard.returned ++ keyboard.waiting
  copied : ∀ out, keyboard.poll = .copied out → out = keyboard.lastSc

theorem Complete.access {keyboard : Keyboard} (complete : Complete keyboard)
    (flag : FlagSet keyboard) : Complete keyboard.kbdGetScancode := by
  unfold kbdGetScancode
  cases poll : keyboard.poll with
  | idle =>
      dsimp only
      split
      · exact complete
      · exact ⟨complete.delivered, fun out copied => by simp at copied⟩
  | tested =>
      refine ⟨complete.delivered, fun out copied => ?_⟩
      exact (PollState.copied.inj copied).symm
  | copied out =>
      have has : keyboard.hasSc = true := flag (by simp [poll])
      refine ⟨?_, fun other copied => by simp at copied⟩
      rw [complete.delivered, complete.copied out poll]
      simp [waiting, has]

theorem Complete.interrupt {keyboard : Keyboard} (complete : Complete keyboard)
    (flag : FlagSet keyboard) (cleared : keyboard.hasSc = false) (sc : UInt8) :
    Complete (keyboard.keyboardCallback sc) := by
  have idle : keyboard.poll = .idle := by
    by_contra busy
    simp [flag busy] at cleared
  constructor
  · simp [keyboardCallback, complete.delivered, waiting, cleared]
  · intro out copied
    simp [keyboardCallback, idle] at copied

/-- Without a hurried interrupt nothing gets lost. -/
theorem Unhurried.complete (events : List Event) :
    Unhurried events → Complete (after events) := by
  induction events using List.reverseRecOn with
  | nil => exact fun _ => ⟨rfl, fun out copied => by simp [after, initial] at copied⟩
  | append_singleton earlier event induction =>
      intro unhurried
      have before := induction unhurried.of_append
      rw [after_append_singleton]
      cases event with
      | interrupt sc =>
          have cleared := unhurried earlier sc (List.prefix_refl _)
          exact before.interrupt (flagSet_after earlier) cleared sc
      | access => exact before.access (flagSet_after earlier)

/-! ## A lost scancode stays lost -/

/-- How many scancodes a state accounts for. -/
def accounted (keyboard : Keyboard) : Nat := keyboard.returned.length + keyboard.waiting.length

theorem accounted_keyboardCallback (keyboard : Keyboard) (sc : UInt8) :
    (keyboard.keyboardCallback sc).accounted =
      if keyboard.hasSc then keyboard.accounted else keyboard.accounted + 1 := by
  by_cases has : keyboard.hasSc <;> simp [keyboardCallback, accounted, waiting, has]

theorem accounted_kbdGetScancode {keyboard : Keyboard} (flag : FlagSet keyboard) :
    keyboard.kbdGetScancode.accounted = keyboard.accounted := by
  unfold kbdGetScancode
  cases poll : keyboard.poll with
  | idle =>
      dsimp only
      split
      · rfl
      · rfl
  | tested => rfl
  | copied out =>
      have has : keyboard.hasSc = true := flag (by simp [poll])
      simp [accounted, waiting, has]

theorem delivered_kbdGetScancode (keyboard : Keyboard) :
    keyboard.kbdGetScancode.delivered = keyboard.delivered := by
  unfold kbdGetScancode
  cases keyboard.poll with
  | idle =>
      dsimp only
      split
      · rfl
      · rfl
  | tested => rfl
  | copied out => rfl

/-- Never more scancodes are accounted for than came in, and as many only if
every interrupt found the flag cleared. -/
theorem accounted_le (events : List Event) :
    (after events).accounted ≤ (after events).delivered.length ∧
      ((after events).accounted = (after events).delivered.length → Unhurried events) := by
  induction events using List.reverseRecOn with
  | nil =>
      refine ⟨Nat.le_refl _, fun _ earlier sc before => ?_⟩
      simp at before
  | append_singleton earlier event induction =>
      rcases induction with ⟨bound, exact⟩
      rw [after_append_singleton, unhurried_append_singleton]
      cases event with
      | interrupt sc =>
          have grown : ((after earlier).step (.interrupt sc)).delivered.length =
              (after earlier).delivered.length + 1 := by
            simp [step, keyboardCallback]
          rw [grown, step, accounted_keyboardCallback]
          split
          · exact ⟨by omega, fun equal => by omega⟩
          · next cleared =>
              refine ⟨by omega, fun equal => ⟨exact (by omega), fun _ _ => ?_⟩⟩
              simpa using cleared
      | access =>
          rw [step, delivered_kbdGetScancode, accounted_kbdGetScancode (flagSet_after earlier)]
          exact ⟨bound, fun equal => ⟨exact equal, fun sc other => by simp at other⟩⟩

/-! ## Runs -/

/-- All scancodes that came in have been returned or are waiting exactly when
every interrupt found the flag cleared; and as long as that is so, the polls
return the scancodes in order, none dropped and none twice. -/
theorem returned_isPrefix_delivered_of_unhurried (events : List Event) :
    (Unhurried events → ∀ earlier, earlier <+: events →
      (after earlier).returned <+: (after earlier).delivered) ∧
    ((after events).delivered = (after events).returned ++ (after events).waiting ↔
      Unhurried events) := by
  refine ⟨fun unhurried earlier before => ?_, fun equal => ?_, fun unhurried => ?_⟩
  · have quiet : Unhurried earlier := fun first sc prior =>
      unhurried first sc (prior.trans before)
    rw [(quiet.complete earlier).delivered]
    exact List.prefix_append _ _
  · apply (accounted_le events).2
    rw [equal, List.length_append, accounted]
  · exact (unhurried.complete events).delivered

/-- A key is pressed and released before the loop polls: the make code is
dropped, and the poll returns the break code. -/
theorem returned_not_isPrefix_delivered :
    ¬ (after [.interrupt 0x1E, .interrupt 0x9E, .access, .access, .access]).returned <+:
      (after [.interrupt 0x1E, .interrupt 0x9E, .access, .access, .access]).delivered := by
  decide

end Keyboard

end ParanOS

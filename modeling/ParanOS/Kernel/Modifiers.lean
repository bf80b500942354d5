import ParanOS.Kernel.Screen

/-! # Shift and Caps Lock

The loop counts the make and break codes of the shift keys, and switches Caps
Lock with every make code of its key. A keyboard also repeats the make code of a
key that is held, and wraps some keys into codes of a shift key behind a lead
byte. The counter follows the keys as long as the keyboard does neither with the
shift keys and Caps Lock; and as the case of a letter is the exclusive or of the
counter and Caps Lock, the two shift keys must not be held together while Caps
Lock is on.
-/

namespace ParanOS

open Foundation

/-! ## The keyboard -/

/-- What a keyboard does with one scancode. -/
inductive Stroke
  | press (key : UInt8)
  /-- Typematic repetition of a key that is held. -/
  | hold (key : UInt8)
  | release (key : UInt8)
  /-- The first byte of the code of an extended key. -/
  | lead (code : UInt8)
  /-- A later byte of the code of an extended key; make and break codes of the
  shift keys are among them. -/
  | extended (code : UInt8)
  deriving DecidableEq

def Stroke.code : Stroke → UInt8
  | .press key => key
  | .hold key => key
  | .release key => key ||| 0x80
  | .lead code => code
  | .extended code => code

/-- The keys that are down, and whether Caps Lock is on: it changes when its key
is pressed, not while it is held. -/
structure Board where
  held : UInt8 → Bool
  capsLock : Bool

namespace Board

def leftShift : UInt8 := 0x2A
def rightShift : UInt8 := 0x36
def capsKey : UInt8 := 0x3A

def initial : Board := ⟨fun _ => false, false⟩

def after (board : Board) : Stroke → Board
  | .press key =>
      ⟨Function.update board.held key true, board.capsLock ^^ (key == capsKey)⟩
  | .release key => { board with held := Function.update board.held key false }
  | _ => board

/-- What the keyboard can send. No extended key has the code of Caps Lock. -/
def CanSend (board : Board) : Stroke → Prop
  | .press key => key < 0x80 ∧ board.held key = false
  | .hold key => key < 0x80 ∧ board.held key = true
  | .release key => key < 0x80 ∧ board.held key = true
  | .lead code => code = 0xE0 ∨ code = 0xE1
  | .extended code => code &&& 0x7F ≠ capsKey

def shiftHeld (board : Board) : Bool := board.held leftShift || board.held rightShift

/-- The condition on a stroke: no repeated or extended code counts as a key of
its own, and Caps Lock is off while both shift keys are held. -/
structure Plain (board : Board) (stroke : Stroke) : Prop where
  holds : ∀ key, stroke = .hold key → key ≠ leftShift ∧ key ≠ rightShift ∧ key ≠ capsKey
  codes : ∀ code, stroke = .extended code →
    code &&& 0x7F ≠ leftShift ∧ code &&& 0x7F ≠ rightShift
  both : (board.after stroke).held leftShift = true → (board.after stroke).held rightShift = true →
    (board.after stroke).capsLock = false

/-- Strokes one after another, each of which the keyboard can send and which
satisfies the condition. -/
inductive Typing (each : Board → Stroke → Prop) : Board → List Stroke → Board → Prop
  | nil (board) : Typing each board [] board
  | cons {board last stroke strokes} : board.CanSend stroke → each board stroke →
      Typing each (board.after stroke) strokes last → Typing each board (stroke :: strokes) last

end Board

/-! ## Single scancodes -/

theorem and_break_eq_zero {key : UInt8} (plain : key < 0x80) : key &&& 0x80 = 0 := by
  rcases key with ⟨bits⟩
  revert bits
  decide

theorem break_code {key : UInt8} (plain : key < 0x80) :
    (key ||| 0x80) &&& 0x80 ≠ 0 ∧ (key ||| 0x80) &&& 0x7F = key := by
  rcases key with ⟨bits⟩
  revert bits
  decide

theorem make_code {code : UInt8} (make : code &&& 0x80 = 0) : code &&& 0x7F = code := by
  rcases code with ⟨bits⟩
  revert bits
  decide

/-- The code of a shift key, as the loop sees it. -/
def isShift (key : UInt8) : Bool := key == Board.leftShift || key == Board.rightShift

theorem isShift_eq_false {key : UInt8} (left : key ≠ Board.leftShift)
    (right : key ≠ Board.rightShift) : isShift key = false := by
  rw [isShift, beq_eq_false_iff_ne.mpr left, beq_eq_false_iff_ne.mpr right]
  rfl

theorem xor_caps_of_ne (caps : Bool) {key : UInt8} (other : key ≠ Board.capsKey) :
    (caps ^^ (key == Board.capsKey)) = caps := by
  rw [beq_eq_false_iff_ne.mpr other, Bool.xor_false]

theorem keysAfter_make {key : UInt8} (make : key &&& 0x80 = 0) (keys : Keys) :
    (keysAfter key keys).shiftDown = keys.shiftDown + (isShift key).toNat ∧
      (keysAfter key keys).capsOn = (keys.capsOn ^^ (key == Board.capsKey)) := by
  rw [keysAfter, if_neg (not_not.mpr make)]
  by_cases win : key = 0x5B
  · subst win
    simp [isShift, Board.leftShift, Board.rightShift, Board.capsKey]
  · rw [if_neg win, heldKeys]
    by_cases alt : key = 0x38
    · subst alt
      simp [isShift, Board.leftShift, Board.rightShift, Board.capsKey]
    · rw [if_neg alt]
      by_cases shift : key = 0x2A ∨ key = 0x36
      · rw [if_pos shift]
        rcases shift with rfl | rfl <;>
          simp [isShift, Board.leftShift, Board.rightShift, Board.capsKey]
      · have plain := isShift_eq_false (not_or.mp shift).1 (not_or.mp shift).2
        rw [if_neg shift, plain]
        by_cases caps : key = 0x3A
        · rw [if_pos caps, caps]
          exact ⟨rfl, (Bool.xor_true _).symm⟩
        · rw [if_neg caps, xor_caps_of_ne _ caps]
          exact ⟨rfl, rfl⟩

theorem keysAfter_break {code : UInt8} (release : code &&& 0x80 ≠ 0) (keys : Keys) :
    (keysAfter code keys).shiftDown = keys.shiftDown - (isShift (code &&& 0x7F)).toNat ∧
      (keysAfter code keys).capsOn = keys.capsOn := by
  rw [keysAfter, if_pos release, releaseKey]
  by_cases alt : code &&& 0x7F = 0x38
  · simp [alt, isShift, Board.leftShift, Board.rightShift]
  · rw [if_neg alt]
    by_cases win : code &&& 0x7F = 0x5B
    · simp [win, isShift, Board.leftShift, Board.rightShift]
    · rw [if_neg win]
      by_cases shift : code &&& 0x7F = 0x2A ∨ code &&& 0x7F = 0x36
      · rw [if_pos shift]
        rcases shift with same | same <;>
          simp [same, isShift, Board.leftShift, Board.rightShift]
      · have plain := isShift_eq_false (not_or.mp shift).1 (not_or.mp shift).2
        rw [if_neg shift, plain]
        exact ⟨rfl, rfl⟩

/-! ## The keys of the loop follow the keyboard -/

/-- How many shift keys are held. -/
def Board.shifts (board : Board) : Nat :=
  (board.held leftShift).toNat + (board.held rightShift).toNat

structure Follows (keys : Keys) (board : Board) : Prop where
  caps : keys.capsOn = board.capsLock
  shift : keys.shiftDown = board.shifts

theorem Board.left_ne_right : leftShift ≠ rightShift := by decide

theorem Board.shifts_press {board : Board} {key : UInt8} (up : board.held key = false) :
    (board.after (.press key)).shifts = board.shifts + (isShift key).toNat := by
  simp only [shifts, after]
  by_cases left : key = leftShift
  · subst left
    rw [Function.update_self, Function.update_of_ne left_ne_right.symm, up]
    simp [isShift, Nat.add_comm]
  · by_cases right : key = rightShift
    · subst right
      rw [Function.update_self, Function.update_of_ne left_ne_right, up]
      simp [isShift]
    · rw [Function.update_of_ne (Ne.symm left), Function.update_of_ne (Ne.symm right),
        isShift_eq_false left right]
      rfl

theorem Board.shifts_release {board : Board} {key : UInt8} (down : board.held key = true) :
    (board.after (.release key)).shifts = board.shifts - (isShift key).toNat := by
  simp only [shifts, after]
  by_cases left : key = leftShift
  · subst left
    rw [Function.update_self, Function.update_of_ne left_ne_right.symm, down]
    simp [isShift]
  · by_cases right : key = rightShift
    · subst right
      rw [Function.update_self, Function.update_of_ne left_ne_right, down]
      simp [isShift]
    · rw [Function.update_of_ne (Ne.symm left), Function.update_of_ne (Ne.symm right),
        isShift_eq_false left right]
      rfl

/-- One scancode. -/
theorem Follows.step {keys : Keys} {board : Board} {stroke : Stroke} (follows : Follows keys board)
    (possible : board.CanSend stroke) (plain : board.Plain stroke) :
    Follows (keysAfter stroke.code keys) (board.after stroke) := by
  cases stroke with
  | press key =>
      have made := keysAfter_make (and_break_eq_zero possible.1) keys
      constructor
      · rw [Stroke.code, made.2, follows.caps]
        rfl
      · rw [Stroke.code, made.1, follows.shift, Board.shifts_press possible.2]
  | hold key =>
      have made := keysAfter_make (and_break_eq_zero possible.1) keys
      rcases plain.holds key rfl with ⟨left, right, caps⟩
      constructor
      · rw [Stroke.code, made.2, follows.caps, xor_caps_of_ne _ caps]
        rfl
      · rw [Stroke.code, made.1, follows.shift, isShift_eq_false left right]
        rfl
  | release key =>
      rcases break_code possible.1 with ⟨release, same⟩
      have broken := keysAfter_break release keys
      constructor
      · rw [Stroke.code, broken.2, follows.caps]
        rfl
      · rw [Stroke.code, broken.1, same, follows.shift, Board.shifts_release possible.2]
  | lead code =>
      have nothing : keysAfter code keys = keys := by
        rcases possible with rfl | rfl <;> rfl
      rw [Stroke.code, nothing]
      exact ⟨follows.caps, follows.shift⟩
  | extended code =>
      rcases plain.codes code rfl with ⟨left, right⟩
      by_cases release : code &&& 0x80 = 0
      · have made := keysAfter_make release keys
        rw [make_code release] at left right
        have caps : code ≠ Board.capsKey := make_code release ▸ possible
        constructor
        · rw [Stroke.code, made.2, follows.caps, xor_caps_of_ne _ caps]
          rfl
        · rw [Stroke.code, made.1, follows.shift, isShift_eq_false left right]
          rfl
      · have broken := keysAfter_break release keys
        constructor
        · rw [Stroke.code, broken.2, follows.caps]
          rfl
        · rw [Stroke.code, broken.1, follows.shift, isShift_eq_false left right]
          rfl

/-! ## The case of letters -/

def isLetterKey (sc : UInt8) : Bool :=
  decide (sc < 0x80 ∧ 0x61 ≤ keyNormal.getD sc.toNat 0 ∧ keyNormal.getD sc.toNat 0 ≤ 0x7A)

def isUpper (char : UInt8) : Bool := decide (0x41 ≤ char ∧ char ≤ 0x5A)

theorem isUpper_sub {char : UInt8} (letter : 0x61 ≤ char ∧ char ≤ 0x7A) :
    isUpper (char - 32) = true ∧ isUpper char = false := by
  rcases char with ⟨bits⟩
  revert bits
  decide

theorem isUpper_keyToChar (capsOn : Bool) (shiftDown : Nat) {sc : UInt8}
    (letter : isLetterKey sc = true) :
    isUpper (keyToChar capsOn shiftDown sc) = decide (capsOn.toNat ^^^ shiftDown ≠ 0) := by
  simp only [isLetterKey, decide_eq_true_eq] at letter
  rcases letter with ⟨plain, letter⟩
  have same : (if capsOn then 1 else 0) = capsOn.toNat := by cases capsOn <;> rfl
  rw [keyToChar, if_neg (UInt8.not_le.mpr plain), if_pos letter, same]
  split
  · next upper => rw [(isUpper_sub letter).1, decide_eq_true upper]
  · next lower => rw [(isUpper_sub letter).2, decide_eq_false lower]

/-- What a user expects of the modifiers. -/
structure ModifiersRight (ui : Ui) (board : Board) : Prop where
  letters : ∀ sc, isLetterKey sc = true →
    isUpper (ui.charOf sc) = (board.capsLock ^^ board.shiftHeld)
  released : board.shiftHeld = false → ui.keys.shiftDown = 0

/-- The exclusive or of the counter and Caps Lock is right unless both shift keys
are held with Caps Lock on. -/
theorem Follows.right {ui : Ui} {board : Board} (follows : Follows ui.keys board)
    (both : board.held Board.leftShift = true → board.held Board.rightShift = true →
      board.capsLock = false) : ModifiersRight ui board := by
  constructor
  · intro sc letter
    rw [Ui.charOf, isUpper_keyToChar _ _ letter, follows.caps, follows.shift, Board.shifts,
      Board.shiftHeld]
    cases left : board.held Board.leftShift with
    | false => cases board.held Board.rightShift <;> cases board.capsLock <;> rfl
    | true =>
        cases right : board.held Board.rightShift with
        | false => cases board.capsLock <;> rfl
        | true =>
            rw [both left right]
            rfl
  · intro released
    rw [follows.shift, Board.shifts]
    rcases Bool.or_eq_false_iff.mp released with ⟨left, right⟩
    rw [left, right]
    rfl

/-! ## Runs -/

/-- The iterations of a run whose scancodes are those of these strokes. -/
theorem Run.follows {env : Env} {first last : Machine} {inputs : List Input}
    (run : Run env (fun _ _ _ => True) first inputs last) :
    ∀ {strokes : List Stroke} {board final : Board},
      inputs.filterMap (·.scancode) = strokes.map Stroke.code →
      Board.Typing Board.Plain board strokes final →
      Follows first.ui.keys board → Follows last.ui.keys final := by
  induction run with
  | nil =>
      intro strokes board final codes typing follows
      cases strokes with
      | nil =>
          cases typing
          exact follows
      | cons stroke strokes => simp at codes
  | @cons current middle last input inputs stepped _ _ induction =>
      intro strokes board final codes typing follows
      have keys := ((iteration_tracks env input current.ui).returns stepped).keys
      simp only [keysAfterInput] at keys
      cases scancode : input.scancode with
      | none =>
          rw [List.filterMap_cons_none scancode] at codes
          rw [scancode] at keys
          apply induction codes typing
          rw [keys]
          exact follows
      | some sc =>
          rw [List.filterMap_cons_some scancode] at codes
          rw [scancode] at keys
          cases typing with
          | nil => simp at codes
          | cons possible plain rest =>
              rw [List.map_cons, List.cons.injEq] at codes
              apply induction codes.2 rest
              rw [keys, codes.1]
              exact follows.step possible plain

theorem Board.Typing.both {board final : Board} {strokes : List Stroke}
    (typing : Typing Plain board strokes final)
    (before : board.held leftShift = true → board.held rightShift = true → board.capsLock = false) :
    final.held leftShift = true → final.held rightShift = true → final.capsLock = false := by
  induction typing with
  | nil => exact before
  | cons _ plain _ induction => exact induction plain.both

/-- From the start of the kernel, whatever plain strokes come in: letters have
the case of Caps Lock and the shift keys, and the counter is zero when no shift
key is held. -/
theorem modifiersRight_of_plain {env : Env} {first last : Machine} {inputs : List Input}
    (booted : first.Booted env) (run : Run env (fun _ _ _ => True) first inputs last)
    {strokes : List Stroke} {board : Board}
    (codes : inputs.filterMap (·.scancode) = strokes.map Stroke.code)
    (typing : Board.Typing Board.Plain .initial strokes board) :
    ModifiersRight last.ui board := by
  have start : Follows first.ui.keys .initial := by
    rcases booted.only with ⟨vol, login, session, _, _, _, _, same⟩
    rw [same]
    exact ⟨rfl, rfl⟩
  apply (run.follows codes typing start).right
  exact typing.both fun left => by simp [Board.initial] at left

/-- A run from the start of the kernel, with the keys at its end. -/
theorem sampleBoot_run {inputs : List Input} {keys : Keys}
    (ran : ((boot sampleEnv blankVol (Device.healthy desktopDisk)).bind fun booted =>
      runLoop sampleEnv inputs booted.1 booted.2).map (fun ended => ended.1.keys) = some keys) :
    ∃ first last, first.Booted sampleEnv ∧
      Run sampleEnv (fun _ _ _ => True) first inputs last ∧ last.ui.keys = keys := by
  rcases Option.map_eq_some_iff.mp ran with ⟨⟨ui, device⟩, looped, same⟩
  rcases Option.bind_eq_some_iff.mp looped with ⟨⟨bootUi, bootDevice⟩, booted, loopRan⟩
  exact ⟨⟨bootUi, bootDevice⟩, ⟨ui, device⟩, ⟨blankVol, _, booted⟩, .of_runLoop loopRan, same⟩

/-- The left shift key is pressed and held. -/
theorem modifiersRight_shift :
    ∃ first last, first.Booted sampleEnv ∧
      Run sampleEnv (fun _ _ _ => True) first [keyInput 0x2A] last ∧
      ModifiersRight last.ui (Board.initial.after (.press 0x2A)) := by
  have ran : ((boot sampleEnv blankVol (Device.healthy desktopDisk)).bind fun booted =>
      runLoop sampleEnv [keyInput 0x2A] booted.1 booted.2).map (fun ended => ended.1.keys) =
        some ⟨false, false, 1, false⟩ := by
    decide +kernel
  rcases sampleBoot_run ran with ⟨first, last, booted, run, _⟩
  have plain : Board.initial.Plain (.press 0x2A) :=
    ⟨fun key other => by simp at other, fun code other => by simp at other, fun _ _ => rfl⟩
  have typing : Board.Typing Board.Plain .initial [.press 0x2A]
      (Board.initial.after (.press 0x2A)) :=
    .cons ⟨by decide, rfl⟩ plain (.nil _)
  exact ⟨first, last, booted, run, modifiersRight_of_plain booted run rfl typing⟩

/-- The left shift key is held until the keyboard repeats it, and then released:
the counter stays at one. -/
theorem modifiers_wrong_after_repetition :
    ¬ ∀ (env : Env) (first last : Machine) (inputs : List Input) (strokes : List Stroke)
      (board : Board), first.Booted env → Run env (fun _ _ _ => True) first inputs last →
      inputs.filterMap (·.scancode) = strokes.map Stroke.code →
      Board.Typing (fun _ _ => True) .initial strokes board → ModifiersRight last.ui board := by
  intro claim
  have ran : ((boot sampleEnv blankVol (Device.healthy desktopDisk)).bind fun booted =>
      runLoop sampleEnv [keyInput 0x2A, keyInput 0x2A, keyInput 0xAA] booted.1 booted.2).map
        (fun ended => ended.1.keys) = some ⟨false, false, 1, false⟩ := by
    decide +kernel
  rcases sampleBoot_run ran with ⟨first, last, booted, run, keys⟩
  have typing : Board.Typing (fun _ _ => True) .initial [.press 0x2A, .hold 0x2A, .release 0x2A]
      (((Board.initial.after (.press 0x2A)).after (.hold 0x2A)).after (.release 0x2A)) :=
    .cons ⟨by decide, rfl⟩ trivial (.cons ⟨by decide, rfl⟩ trivial
      (.cons ⟨by decide, rfl⟩ trivial (.nil _)))
  have right := claim sampleEnv first last _ _ _ booted run (by decide) typing
  have released := right.released (by decide)
  rw [keys] at released
  exact absurd released (by decide)

end ParanOS

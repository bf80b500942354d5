import ParanOS.Kernel.Login

/-! # Keyboard focus

Delete and the arrow keys are handled before the loop asks which window has the
focus, and the blocks for the editor and the path bar do not ask whether their
window is minimised. Here it is said which keys do what they should in spite of
that.
-/

namespace ParanOS

open Foundation

/-! ## Iterations with a key and no click -/

/-- A key comes in and the left button is not pressed in the same iteration. -/
def KeyEvent (sc : UInt8) (input : Input) (ui : Ui) : Prop :=
  input.scancode = some sc ∧ (input.left = true → ui.prevLeft = true)

/-- What is left of an iteration once its key is used up: windows may move. -/
structure MoveOnly (ui ui' : Ui) : Prop where
  desktop : ui'.desktop = ui.desktop
  items : ui'.fileItems = ui.fileItems
  path : ui'.filewin.path = ui.filewin.path
  selection : ui'.filewin.selection = ui.filewin.selection
  text : ui'.notepad.text = ui.notepad.text
  isOpen : ui'.notepad.window.isOpen = ui.notepad.window.isOpen

namespace MoveOnly

theorem refl (ui : Ui) : MoveOnly ui ui := ⟨rfl, rfl, rfl, rfl, rfl, rfl⟩

theorem trans {first second third : Ui} (before : MoveOnly first second)
    (after : MoveOnly second third) : MoveOnly first third :=
  ⟨after.desktop.trans before.desktop, after.items.trans before.items,
    after.path.trans before.path, after.selection.trans before.selection,
    after.text.trans before.text, after.isOpen.trans before.isOpen⟩

end MoveOnly

theorem desktopRender_move (ui : Ui) : MoveOnly ui (desktopRender ui) := by
  unfold desktopRender
  split
  · exact .refl ui
  · exact ⟨rfl, rfl, rfl, rfl, rfl, rfl⟩

theorem ButtonsOnly.move {ui ui' : Ui} (only : ButtonsOnly ui ui') : MoveOnly ui ui' := by
  rcases only with ⟨_, _, _, _, rfl⟩
  exact ⟨rfl, rfl, rfl, rfl, rfl, rfl⟩

theorem dragFront_move (env : Env) (input : Input) (ui : Ui) :
    MoveOnly ui (dragFront env input ui) := by
  unfold dragFront
  split
  · exact .refl ui
  · next shown =>
      split
      · exact ⟨rfl, rfl, rfl, rfl, rfl, rfl⟩
      · cases front : ui.front with
        | notepad => simp [front] at shown
        | file => exact ⟨rfl, rfl, rfl, rfl, rfl, rfl⟩
        | taskmgr => exact ⟨rfl, rfl, rfl, rfl, rfl, rfl⟩
        | display => exact ⟨rfl, rfl, rfl, rfl, rfl, rfl⟩
        | terminal => exact ⟨rfl, rfl, rfl, rfl, rfl, rfl⟩
        | imgview => exact ⟨rfl, rfl, rfl, rfl, rfl, rfl⟩
        | wavplay => exact ⟨rfl, rfl, rfl, rfl, rfl, rfl⟩

/-- The editor has a use for the key. -/
def editorTakes (key : UInt8) (ui : Ui) : Bool :=
  ui.notepad.window.isOpen && ui.front == .notepad &&
    (if key = 0x0E then ui.notepad.text ≠ []
    else key = 0x01 || (key = 0x1C || ui.charOf key ≠ 0) &&
      ui.notepad.text.length < notepadBufSize - 1)

theorem editorKeys_move (env : Env) (input : Input) (sc : Option UInt8) (ui : Ui)
    (unused : ∀ key, sc = some key → editorTakes key ui = false) :
    MoveOnly ui (editorKeys env input sc ui) := by
  have dragged : MoveOnly ui (ui.setWindow .notepad (ui.notepad.window.drag env input)) :=
    ⟨rfl, rfl, rfl, rfl, rfl, Window.drag_isOpen env input _⟩
  unfold editorKeys
  split
  · next active =>
      cases sc with
      | none => exact dragged
      | some key =>
          have idle := unused key rfl
          rw [editorTakes, active, Bool.true_and] at idle
          dsimp only
          by_cases backspace : key = 0x0E
          · rw [if_pos backspace] at idle ⊢
            have empty : ui.notepad.text = [] := by simpa using idle
            rw [empty]
            exact ⟨rfl, rfl, rfl, rfl, empty.symm, rfl⟩
          · rw [if_neg backspace] at idle ⊢
            simp only [Bool.or_eq_false_iff, decide_eq_false_iff_not] at idle
            rw [if_neg idle.1]
            have full : ¬ ((if key = 0x1C then 0x0A else ui.charOf key) ≠ 0 ∧
                ui.notepad.text.length < notepadBufSize - 1) := by
              intro appended
              have taken := idle.2
              simp only [Bool.and_eq_false_iff, Bool.or_eq_false_iff, decide_eq_false_iff_not]
                at taken
              rcases taken with ⟨notEnter, noChar⟩ | noRoom
              · rw [if_neg notEnter] at appended
                exact noChar appended.1
              · exact noRoom appended.2
            rw [notepadAppend, if_neg full]
            exact dragged
  · exact .refl ui

theorem afterPathKeys_move (env : Env) (input : Input) (sc : Option UInt8) (ui : Ui)
    (unused : ∀ key, sc = some key → editorTakes key ui = false) :
    MoveOnly ui (afterPathKeys env input sc ui) := by
  have moved := (editorKeys_move env input sc ui unused).trans (dragFront_move env input _)
  simp only [afterPathKeys]
  split
  · exact moved.trans (desktopRender_move _)
  · exact moved

/-- Without a key and a click an iteration only moves windows. -/
theorem desktopIteration_move (env : Env) {input : Input} {ui : Ui}
    (held : input.left = true → ui.prevLeft = true) :
    ∃ ui', desktopIteration env input none ui = pure ui' ∧ MoveOnly ui ui' := by
  rcases mouseButtons_held env held with ⟨clicked, same, buttons⟩
  refine ⟨afterPathKeys env input none clicked, ?_, ?_⟩
  · rw [desktopIteration, same]
    rfl
  · have noKey : ∀ key, none = some key → editorTakes key clicked = false := by
      intro key isKey
      simp at isKey
    exact buttons.move.trans (afterPathKeys_move env input none clicked noKey)

/-! ## Delete and the arrow keys -/

/-- The Text Editor or the name prompt has the keyboard. -/
def Typing (ui : Ui) : Prop := ui.focused .notepad = true ∨ ui.prompt.active = true

/-- Delete would empty a file of the Explorer or the desktop. -/
def deleteHits (ui : Ui) : Bool :=
  if ui.filewin.window.isOpen && ui.front == .file then
    ui.volMounted && ui.fileSelected.any fun item => !item.isDir
  else ui.desktopSelected.any fun item => !item.isDir

/-- An arrow key would move a selection among so many items. -/
def moves (count : Nat) (selection : Option Nat) (down : Bool) : Bool :=
  count ≠ 0 && selection ≠ some (movedSelection count selection down)

def arrowHits (sc : UInt8) (ui : Ui) : Bool :=
  if ui.focused .file then moves ui.fileItems.length ui.filewin.selection (arrowDown sc)
  else moves ui.desktop.items.length ui.desktop.selection (arrowDown sc)

theorem deleteKey_idle (env : Env) {ui : Ui} (spared : deleteHits ui = false) :
    deleteKey env ui = pure ui := by
  unfold deleteKey
  rw [deleteHits] at spared
  split
  · next explorer =>
      rw [if_pos explorer] at spared
      unfold filewinDeleteSelection
      cases mounted : ui.volMounted with
      | false => rfl
      | true =>
          rw [mounted, Bool.true_and] at spared
          cases selected : ui.fileSelected with
          | none => rfl
          | some item =>
              rw [selected] at spared
              have dir : item.isDir = true := by simpa using spared
              exact if_pos dir
  · next desktop =>
      rw [if_neg desktop] at spared
      exact desktopDeleteSelection_readOnly env spared

theorem arrowKey_idle {sc : UInt8} {ui : Ui} (stays : arrowHits sc ui = false) :
    arrowKey sc ui = ui := by
  unfold arrowKey
  rw [arrowHits] at stays
  split
  · next explorer =>
      rw [if_pos explorer] at stays
      unfold filewinMoveSelection
      split
      · rfl
      · next items =>
          have filled : ui.fileItems.length ≠ 0 := by simpa using items
          have same : ui.filewin.selection =
              some (movedSelection ui.fileItems.length ui.filewin.selection (arrowDown sc)) := by
            simpa [moves, filled] using stays
          rw [← same]
  · next desktop =>
      rw [if_neg desktop] at stays
      unfold desktopMoveSelection
      split
      · rfl
      · next items =>
          have filled : ui.desktop.items.length ≠ 0 := by simpa using items
          have same : ui.desktop.selection =
              some (movedSelection ui.desktop.items.length ui.desktop.selection
                (arrowDown sc)) := by
            simpa [moves, filled] using stays
          rw [← same]

/-- Delete and the arrow keys are used up in the first block. -/
theorem firstKeys_idle (env : Env) {input : Input} {sc : UInt8} {ui : Ui}
    (scancode : input.scancode = some sc)
    (idle : sc = 0x53 ∧ deleteHits ui = false ∨ isArrow sc = true ∧ arrowHits sc ui = false) :
    firstKeys env input ui = pure (none, ui) := by
  unfold firstKeys
  rw [scancode]
  rcases idle with ⟨rfl, spared⟩ | ⟨arrow, stays⟩
  · have pressed : pressKey env 0x53 ui = deleteKey env ui >>= fun ui => pure (none, ui) := rfl
    exact pressed.trans (by rw [deleteKey_idle env spared]; rfl)
  · have pressed : pressKey env sc ui = pure (none, arrowKey sc ui) ∧ ¬ sc &&& 0x80 ≠ 0 := by
      simp only [isArrow, Bool.or_eq_true, decide_eq_true_eq] at arrow
      rcases arrow with ((rfl | rfl) | rfl) | rfl <;> exact ⟨rfl, by decide⟩
    dsimp only
    rw [if_neg pressed.2, pressed.1, arrowKey_idle stays]

/-- Then the whole iteration only moves windows. -/
theorem iteration_idle (env : Env) {input : Input} {sc : UInt8} {ui : Ui}
    (inactive : ui.login.active = false) (key : KeyEvent sc input ui)
    (idle : sc = 0x53 ∧ deleteHits ui = false ∨ isArrow sc = true ∧ arrowHits sc ui = false) :
    ∃ ui', iteration env input ui = pure ui' ∧ MoveOnly ui ui' := by
  rcases desktopIteration_move env key.2 with ⟨ui', rest, moved⟩
  refine ⟨ui', ?_, moved⟩
  rw [iteration, firstKeys_idle env key.1 idle]
  change (if ui.login.active = true then _ else _) = _
  rw [if_neg (by rw [inactive]; exact Bool.false_ne_true), rest]

/-- Delete or an arrow key while the editor or the prompt has the keyboard. -/
def FocusEvent (input : Input) (ui : Ui) : Prop :=
  ui.login.active = false ∧ Typing ui ∧
    ∃ sc, KeyEvent sc input ui ∧ (sc = 0x53 ∨ isArrow sc = true)

/-- Such a key finds nothing to act on. -/
def FindsNothing (current : Machine) (input : Input) (_ : Machine) : Prop :=
  FocusEvent input current.ui → ∀ sc, input.scancode = some sc →
    (sc = 0x53 → deleteHits current.ui = false) ∧
    (isArrow sc = true → arrowHits sc current.ui = false)

/-- Such a key neither writes nor changes a selection. -/
def RespectsFocus (current : Machine) (input : Input) (next : Machine) : Prop :=
  FocusEvent input current.ui →
    DiskUntouched current.device next.device ∧
    next.ui.desktop.selection = current.ui.desktop.selection ∧
    next.ui.filewin.selection = current.ui.filewin.selection

/-- In every run, from the start of the kernel or from any other state, in which
Delete and the arrow keys find nothing to act on while the editor or the prompt
has the keyboard, they do nothing then. -/
theorem focus_respected {env : Env} {first last : Machine} {inputs : List Input}
    (run : Run env FindsNothing first inputs last) : Run env RespectsFocus first inputs last := by
  apply run.strengthen (fun _ => True) (fun _ _ _ => trivial) _ trivial
  intro current input next stepped nothing _ event
  rcases event with ⟨inactive, typing, sc, key, deleteOrArrow⟩
  have found := nothing ⟨inactive, typing, sc, key, deleteOrArrow⟩ sc key.1
  have idle : sc = 0x53 ∧ deleteHits current.ui = false ∨
      isArrow sc = true ∧ arrowHits sc current.ui = false := by
    rcases deleteOrArrow with delete | arrow
    · exact .inl ⟨delete, found.1 delete⟩
    · exact .inr ⟨arrow, found.2 arrow⟩
  rcases iteration_idle env inactive key idle with ⟨ui', whole, moved⟩
  rw [Machine.Step, whole] at stepped
  simp only [DiskM.pure_apply, Option.some.injEq, Prod.mk.injEq] at stepped
  rw [← stepped.1, ← stepped.2, moved.desktop, moved.selection]
  exact ⟨⟨rfl, rfl⟩, rfl, rfl⟩

/-- The mouse at a place, with or without the left button. -/
def mouseInput (mx my : Int) (left : Bool) : Input :=
  ⟨none, mx, my, left, false, false, 0, false, true⟩

/-- The password of `admin`, Enter, and a double click on the first icon of the
desktop. -/
def openFirstFile : List Input :=
  [0x02, 0x03, 0x04, 0x05, 0x1C].map keyInput ++
    [mouseInput 40 70 true, mouseInput 40 70 false, mouseInput 40 70 true]

/-- An arrow key behind the double click finds the only item selected. -/
theorem focus_respected_arrow :
    ∃ first last, Reachable sampleEnv first ∧ FocusEvent (keyInput 0x48) first.ui ∧
      Run sampleEnv FindsNothing first [keyInput 0x48] last ∧
      Run sampleEnv RespectsFocus first [keyInput 0x48] last := by
  have observed : (sampleRun openFirstFile (keyInput 0x48)).map (fun run =>
      (run.1.ui.login.active, run.1.ui.focused .notepad, arrowHits 0x48 run.1.ui)) =
        some (false, true, false) := by
    decide +kernel
  rcases Option.map_eq_some_iff.mp observed with ⟨⟨current, next⟩, ran, same⟩
  rcases sampleRun_reachable ran with ⟨reachable, stepped⟩
  simp only [Prod.mk.injEq] at same
  have event : FocusEvent (keyInput 0x48) current.ui :=
    ⟨same.1, .inl same.2.1, 0x48, ⟨rfl, fun held => absurd held Bool.false_ne_true⟩, .inr rfl⟩
  have nothing : FindsNothing current (keyInput 0x48) next := by
    intro _ sc scancode
    have isUp : sc = 0x48 := (Option.some.inj scancode).symm
    subst isUp
    exact ⟨fun delete => absurd delete (by decide), fun _ => same.2.2⟩
  have run : Run sampleEnv FindsNothing current [keyInput 0x48] next :=
    .cons stepped nothing (.nil _)
  exact ⟨current, next, reachable, event, run, focus_respected run⟩

/-- Delete behind the double click that opened the editor empties the file. -/
theorem focus_deletes_file :
    ¬ ∀ (env : Env) (machine next : Machine) (input : Input), Reachable env machine →
      machine.Step env input next → RespectsFocus machine input next := by
  intro claim
  have observed : (sampleRun openFirstFile (keyInput 0x53)).map (fun run =>
      ((run.1.ui.login.active, run.1.ui.focused .notepad),
        run.1.device.sectors 8 28, run.2.device.sectors 8 28)) = some ((false, true), 1, 0) := by
    decide +kernel
  rcases Option.map_eq_some_iff.mp observed with ⟨⟨current, next⟩, ran, same⟩
  rcases sampleRun_reachable ran with ⟨reachable, stepped⟩
  simp only [Prod.mk.injEq] at same
  have event : FocusEvent (keyInput 0x53) current.ui :=
    ⟨same.1.1, .inl same.1.2, 0x53, ⟨rfl, fun held => absurd held Bool.false_ne_true⟩, .inl rfl⟩
  have respected := claim sampleEnv current next _ reachable stepped event
  have kept : next.device.sectors 8 28 = current.device.sectors 8 28 := by rw [respected.1.1]
  rw [same.2.1, same.2.2] at kept
  exact absurd kept (by decide)

end ParanOS

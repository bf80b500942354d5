import ParanOS.Kernel.Focus

/-! # Keys and minimised windows

A minimised window stays in front until another one is chosen, and Alt+Tab may
bring one to the front. The blocks for the editor, the path bar and Delete ask
only whether their window is open and in front. So a key reaches a minimised
window exactly when it would reach it otherwise; all other keys leave it alone.
-/

namespace ParanOS

open Foundation

/-- Open and minimised. -/
def Window.hidden (window : Window) : Bool := window.isOpen && window.minimized

/-- The key changes the editor: it goes to the editor, or Enter in the prompt
opens the new file in it. -/
def reachesEditor (env : Env) (sc : UInt8) (ui : Ui) : Bool :=
  !ui.login.active &&
    if ui.prompt.active then sc == 0x1C && (ui.volMounted || env.diskPresent)
    else !isAltTab sc ui && editorTakes sc (withHeld sc ui)

/-- The key edits the path bar or deletes the selected file of the Explorer. -/
def reachesExplorer (sc : UInt8) (ui : Ui) : Bool :=
  sc == 0x53 && ui.front == .file && deleteHits ui ||
    !ui.prompt.active && !isAltTab sc ui && pathBarActive ui && editsText sc (withHeld sc ui)

/-! ## The blocks for a key that is passed on -/

/-- Without Enter, or without a disk, the prompt leaves the editor alone. -/
theorem promptKey_notepad (env : Env) (key : UInt8) (ui : Ui)
    (opens : (key == 0x1C && (ui.volMounted || env.diskPresent)) = false) :
    Ensures (promptKey env key ui) fun ui' => ui'.notepad = ui.notepad := by
  apply Ensures.ite
  · intro enter
    simp only [enter, beq_self_eq_true, Bool.true_and, Bool.or_eq_false_iff] at opens
    have unmounted : createTxtFileFromPrompt env ui = pure (promptDone ui) := by
      unfold createTxtFileFromPrompt ensureVolumeMounted
      rw [opens.1, opens.2]
      rfl
    rw [unmounted]
    exact .pure rfl
  · intro _
    exact .ite (fun _ => .pure rfl) fun _ => .ite (fun _ => .pure rfl) fun _ =>
      .ite (fun _ => .pure rfl) fun _ => .pure rfl

/-- A key that edits nothing leaves the path as it is. -/
theorem pathKey_path (env : Env) (key : UInt8) (ui : Ui) (fits : PathFits ui)
    (unedited : editsText key ui = false) :
    Ensures (pathKey env key ui) fun ui' => ui'.filewin.path = ui.filewin.path := by
  have whole : copyInto filewinPathSize ui.filewin.path = ui.filewin.path :=
    List.take_of_length_le (Nat.le_pred_of_lt fits)
  apply Ensures.ite
  · intro _
    apply Ensures.ite
    · intro _
      exact .pure rfl
    · intro _
      refine (filewinRefreshList_only env _).mono fun ui' only => ?_
      rcases only with ⟨_, _, _, _, _, _, _, rfl⟩
      exact whole
  · intro notEnter
    apply Ensures.ite
    · intro backspace
      have empty : ui.filewin.path = [] := by simpa [editsText, backspace] using unedited
      refine .pure ?_
      simp only [empty, List.dropLast_nil]
    · intro notBackspace
      apply Ensures.ite
      · intro _
        exact .pure rfl
      · intro notEscape
        apply Ensures.ite
        · intro typed
          simp [editsText, notEnter, notBackspace, notEscape, typed] at unedited
        · intro _
          exact .pure rfl

/-- The path bar uses a key up or passes it on with nothing changed. -/
theorem pathKeys_cases (env : Env) (sc : Option UInt8) (ui : Ui) :
    Ensures (pathKeys env sc ui) fun result => result.1 = none ∨ result = (sc, ui) := by
  unfold pathKeys
  cases sc with
  | none => exact .pure (.inl rfl)
  | some key =>
      apply Ensures.ite
      · intro _
        exact .bind (.trivial _) fun _ _ => .pure (.inl rfl)
      · intro _
        exact .pure (.inr rfl)

theorem pathKeys_path (env : Env) (sc : Option UInt8) (ui : Ui) (fits : PathFits ui)
    (unedited : ∀ key, sc = some key → (pathBarActive ui && editsText key ui) = false) :
    Ensures (pathKeys env sc ui) fun result => result.2.filewin.path = ui.filewin.path := by
  unfold pathKeys
  cases sc with
  | none => exact .pure rfl
  | some key =>
      apply Ensures.ite
      · intro active
        have idle := unedited key rfl
        rw [pathBarActive, active, Bool.true_and] at idle
        exact .bind (pathKey_path env key ui fits idle) fun _ same => .pure same
      · intro _
        exact .pure rfl

/-- The blocks behind the prompt, with the editor. -/
theorem laterKeys_editor (env : Env) (input : Input) (sc : Option UInt8) (ui : Ui)
    (unused : ∀ key, sc = some key → editorTakes key ui = false) :
    Ensures (pathKeys env sc ui >>= fun result =>
        pure (afterPathKeys env input result.1 result.2)) fun ui' =>
      ui'.notepad.text = ui.notepad.text ∧
        ui'.notepad.window.isOpen = ui.notepad.window.isOpen := by
  apply Ensures.bind ((pathKeys_only env sc ui).both (pathKeys_cases env sc ui))
  intro result listed
  rcases listed with ⟨⟨_, notepad, _⟩, used⟩
  have idle : ∀ key, result.1 = some key → editorTakes key result.2 = false := by
    intro key passed
    rcases used with none | same
    · rw [none] at passed
      simp at passed
    · rw [same] at passed ⊢
      exact unused key passed
  have moved := afterPathKeys_move env input result.1 result.2 idle
  refine .pure ⟨?_, ?_⟩
  · rw [moved.text, notepad]
  · rw [moved.isOpen, notepad]

theorem afterPathKeys_path (env : Env) (input : Input) (sc : Option UInt8) (ui : Ui) :
    (afterPathKeys env input sc ui).filewin.path = ui.filewin.path := by
  have edited : (editorKeys env input sc ui).filewin.path = ui.filewin.path := by
    rcases editorKeys_only env input sc ui with ⟨_, _, _, _, _, changed⟩
    rw [changed]
  have dragged := (dragFront_move env input (editorKeys env input sc ui)).path.trans edited
  simp only [afterPathKeys]
  split
  · exact (desktopRender_move _).path.trans dragged
  · exact dragged

/-- The blocks behind the prompt, with the path bar. -/
theorem laterKeys_path (env : Env) (input : Input) (sc : Option UInt8) (ui : Ui)
    (fits : PathFits ui)
    (unedited : ∀ key, sc = some key → (pathBarActive ui && editsText key ui) = false) :
    Ensures (pathKeys env sc ui >>= fun result =>
        pure (afterPathKeys env input result.1 result.2)) fun ui' =>
      ui'.filewin.path = ui.filewin.path := by
  apply Ensures.bind (pathKeys_path env sc ui fits unedited)
  intro result same
  exact .pure ((afterPathKeys_path env input result.1 result.2).trans same)

/-- The prompt uses a key up or passes it on with nothing changed. -/
theorem promptKeys_cases (env : Env) (sc : Option UInt8) (ui : Ui) :
    Ensures (promptKeys env sc ui) fun result =>
      result.1 = none ∨ result = (sc, ui) ∧ (sc ≠ none → ui.prompt.active = false) := by
  unfold promptKeys
  cases sc with
  | none => exact .pure (.inl rfl)
  | some key =>
      apply Ensures.ite
      · intro _
        exact .bind (.trivial _) fun _ _ => .pure (.inl rfl)
      · intro inactive
        exact .pure (.inr ⟨rfl, fun _ => Bool.eq_false_iff.mpr inactive⟩)

/-- The iteration behind the mouse. -/
theorem desktopIteration_eq (env : Env) {input : Input} (sc : Option UInt8) {ui clicked : Ui}
    (mouse : mouseButtons env input ui = pure clicked) :
    desktopIteration env input sc ui =
      promptKeys env sc clicked >>= fun prompted =>
        pathKeys env prompted.1 prompted.2 >>= fun result =>
          pure (afterPathKeys env input result.1 result.2) := by
  rw [desktopIteration, mouse]
  rfl

theorem promptKeys_editor (env : Env) (key : UInt8) (ui : Ui)
    (apart : (if ui.prompt.active then key == 0x1C && (ui.volMounted || env.diskPresent)
      else editorTakes key ui) = false) :
    Ensures (promptKeys env (some key) ui) fun result => result.2.notepad = ui.notepad ∧
      ∀ left, result.1 = some left → editorTakes left result.2 = false := by
  apply Ensures.ite
  · intro active
    rw [if_pos active] at apart
    apply Ensures.bind (promptKey_notepad env key ui apart)
    intro ui' same
    refine .pure ⟨same, fun left passed => ?_⟩
    simp at passed
  · intro inactive
    rw [if_neg inactive] at apart
    refine .pure ⟨rfl, fun left passed => ?_⟩
    rw [← Option.some.inj passed]
    exact apart

/-- A key that is passed on and does not reach the editor leaves its text and its
state. -/
theorem desktopIteration_editor (env : Env) {input : Input} {key : UInt8} {ui : Ui}
    (held : input.left = true → ui.prevLeft = true)
    (apart : (if ui.prompt.active then key == 0x1C && (ui.volMounted || env.diskPresent)
      else editorTakes key ui) = false) :
    Ensures (desktopIteration env input (some key) ui) fun ui' =>
      ui'.notepad.text = ui.notepad.text ∧
        ui'.notepad.window.isOpen = ui.notepad.window.isOpen := by
  rcases mouseButtons_held env held with ⟨clicked, mouse, buttons⟩
  rw [desktopIteration_eq env _ mouse]
  have clickedApart : (if clicked.prompt.active then
      key == 0x1C && (clicked.volMounted || env.diskPresent)
      else editorTakes key clicked) = false ∧ clicked.notepad = ui.notepad := by
    rcases buttons with ⟨_, _, _, _, rfl⟩
    exact ⟨apart, rfl⟩
  apply Ensures.bind (promptKeys_editor env key clicked clickedApart.1)
  intro prompted left
  rcases left with ⟨notepad, unused⟩
  refine (laterKeys_editor env input prompted.1 prompted.2 unused).mono fun ui' same => ?_
  rw [notepad, clickedApart.2] at same
  exact same

/-- A key that is passed on and does not edit the path bar leaves the path. -/
theorem desktopIteration_path (env : Env) {input : Input} {key : UInt8} {ui : Ui}
    (held : input.left = true → ui.prevLeft = true) (fits : PathFits ui)
    (apart : ui.prompt.active = false → (pathBarActive ui && editsText key ui) = false) :
    Ensures (desktopIteration env input (some key) ui) fun ui' =>
      ui'.filewin.path = ui.filewin.path := by
  rcases mouseButtons_held env held with ⟨clicked, mouse, buttons⟩
  rw [desktopIteration_eq env _ mouse]
  rcases buttons with ⟨ready, ctxMenu, prevLeft, prevRight, rfl⟩
  apply Ensures.bind ((promptKeys_only env _ _).both (promptKeys_cases env _ _))
  intro prompted both
  rcases both with ⟨only, used⟩
  have path : prompted.2.filewin.path = ui.filewin.path := by
    rcases only with ⟨_, _, _, _, _, _, _, _, changed⟩
    rw [changed]
  have fits' : PathFits prompted.2 := by
    rw [PathFits, path]
    exact fits
  refine (laterKeys_path env input prompted.1 prompted.2 fits' ?_).mono fun ui' same =>
    same.trans path
  intro left isLeft
  rcases used with none | ⟨passed, inactive⟩
  · rw [none] at isLeft
    simp at isLeft
  · rw [passed] at isLeft ⊢
    rw [← Option.some.inj isLeft]
    exact apart (inactive (by simp))

/-! ## Whole iterations -/

theorem FirstKeysOnly.same {ui ui' : Ui} (only : FirstKeysOnly ui ui') :
    ui'.notepad = ui.notepad ∧ ui'.prevLeft = ui.prevLeft := by
  rcases only.others with ⟨_, _, _, _, _, _, _, _, _, _, _, rfl⟩
  exact ⟨rfl, rfl⟩

/-- A key that does not reach the editor leaves its text and its state. -/
theorem iteration_editor (env : Env) {input : Input} {sc : UInt8} {ui : Ui}
    (key : KeyEvent sc input ui) (apart : reachesEditor env sc ui = false) :
    Ensures (iteration env input ui) fun ui' =>
      ui'.notepad.text = ui.notepad.text ∧
        ui'.notepad.window.isOpen = ui.notepad.window.isOpen := by
  apply Ensures.bind ((firstKeys_cases env input ui).both (firstKeys_login env input ui))
  intro result pressed
  rcases pressed with ⟨cases, login⟩
  apply Ensures.ite
  · intro _
    have notepad : result.2.notepad = ui.notepad := by
      rcases cases with ⟨_, only⟩ | ⟨_, _, _, rfl⟩
      · exact only.same.1
      · rfl
    refine (loginScreen_only env input _ _).mono fun ui' only => ?_
    rw [only.notepad, notepad]
    exact ⟨rfl, rfl⟩
  · intro inactive
    rw [login] at inactive
    rcases cases with ⟨used, only⟩ | ⟨passed, scancode, notTab, rfl⟩
    · have held : input.left = true → result.2.prevLeft = true := by
        rw [only.same.2]
        exact key.2
      rcases desktopIteration_move env held with ⟨ui', rest, moved⟩
      rw [used, rest, ← only.same.1]
      exact .pure ⟨moved.text, moved.isOpen⟩
    · have same : passed = sc := Option.some.inj (scancode.symm.trans key.1)
      subst same
      have held : input.left = true → (withHeld passed ui).prevLeft = true := key.2
      rw [reachesEditor, Bool.eq_false_iff.mpr inactive, Bool.not_false, Bool.true_and, notTab,
        Bool.not_false, Bool.true_and] at apart
      exact desktopIteration_editor env held apart

/-- A key that does not edit the path bar leaves the path of an open Explorer. -/
theorem iteration_path (env : Env) {input : Input} {sc : UInt8} {ui : Ui} (sound : UiSound ui)
    (key : KeyEvent sc input ui) (isOpen : ui.filewin.window.isOpen = true)
    (apart : reachesExplorer sc ui = false) :
    Ensures (iteration env input ui) fun ui' => ui'.filewin.path = ui.filewin.path := by
  have inactive : ¬ ui.login.active = true := by
    intro active
    rw [sound.locked active] at isOpen
    exact Bool.false_ne_true isOpen
  apply Ensures.bind ((firstKeys_cases env input ui).both (firstKeys_login env input ui))
  intro result pressed
  rcases pressed with ⟨cases, login⟩
  apply Ensures.ite
  · intro active
    rw [login] at active
    exact absurd active inactive
  · intro _
    rcases cases with ⟨used, only⟩ | ⟨passed, scancode, notTab, rfl⟩
    · have held : input.left = true → result.2.prevLeft = true := by
        rw [only.same.2]
        exact key.2
      rcases desktopIteration_move env held with ⟨ui', rest, moved⟩
      rw [used, rest]
      exact .pure (moved.path.trans only.path)
    · have same : passed = sc := Option.some.inj (scancode.symm.trans key.1)
      subst same
      have held : input.left = true → (withHeld passed ui).prevLeft = true := key.2
      refine desktopIteration_path env held sound.fits fun noPrompt => ?_
      have unedited := (Bool.or_eq_false_iff.mp apart).2
      have noPrompt' : ui.prompt.active = false := noPrompt
      rw [noPrompt', Bool.not_false, Bool.true_and, notTab, Bool.not_false, Bool.true_and]
        at unedited
      exact unedited

/-! ## Runs -/

/-- No key reaches a minimised editor or Explorer. -/
def MissesHidden (env : Env) (current : Machine) (input : Input) (_ : Machine) : Prop :=
  ∀ sc, KeyEvent sc input current.ui →
    (current.ui.notepad.window.hidden = true → reachesEditor env sc current.ui = false) ∧
    (current.ui.filewin.window.hidden = true → reachesExplorer sc current.ui = false)

/-- A key leaves the text and the state of a minimised editor alone, and the path
of a minimised Explorer; when Delete goes to the Explorer, it writes nothing. -/
def LeavesHidden (current : Machine) (input : Input) (next : Machine) : Prop :=
  ∀ sc, KeyEvent sc input current.ui →
    (current.ui.notepad.window.hidden = true →
      next.ui.notepad.text = current.ui.notepad.text ∧
      next.ui.notepad.window.isOpen = current.ui.notepad.window.isOpen) ∧
    (current.ui.filewin.window.hidden = true →
      next.ui.filewin.path = current.ui.filewin.path ∧
      (sc = 0x53 → current.ui.front = .file → DiskUntouched current.device next.device))

theorem hidden_left_alone {env : Env} {first last : Machine} {inputs : List Input}
    (reachable : Reachable env first) (run : Run env (MissesHidden env) first inputs last) :
    Run env LeavesHidden first inputs last := by
  have kept : ∀ {current input next}, Machine.Step env current input next →
      MissesHidden env current input next → UiSound current.ui → UiSound next.ui :=
    fun stepped _ sound => (iteration_sound env _ sound).returns stepped
  apply run.strengthen (fun machine => UiSound machine.ui) kept _ reachable.sound
  intro current input next stepped misses sound sc key
  refine ⟨fun hidden => ?_, fun hidden => ?_⟩
  · exact (iteration_editor env key ((misses sc key).1 hidden)).returns stepped
  · have apart := (misses sc key).2 hidden
    have isOpen : current.ui.filewin.window.isOpen = true := (Bool.and_eq_true_iff.mp hidden).1
    refine ⟨(iteration_path env sound key isOpen apart).returns stepped, fun delete front => ?_⟩
    have spared : deleteHits current.ui = false := by
      have first := (Bool.or_eq_false_iff.mp apart).1
      simpa [delete, front] using first
    have inactive : current.ui.login.active = false := by
      by_contra active
      rw [sound.locked (Bool.eq_true_of_not_eq_false active)] at isOpen
      exact Bool.false_ne_true isOpen
    rcases iteration_idle env inactive key (.inl ⟨delete, spared⟩) with ⟨ui', whole, _⟩
    rw [Machine.Step, whole] at stepped
    simp only [DiskM.pure_apply, Option.some.injEq, Prod.mk.injEq] at stepped
    rw [← stepped.2]
    exact ⟨rfl, rfl⟩

/-- The editor is opened by a double click and minimised by its button. -/
def minimiseEditor : List Input :=
  openFirstFile ++ [mouseInput 465 65 false, mouseInput 465 65 true]

/-- A shift key leaves the minimised editor alone. -/
theorem hidden_left_alone_shift :
    ∃ first last, Reachable sampleEnv first ∧ first.ui.notepad.window.hidden = true ∧
      KeyEvent 0x2A (keyInput 0x2A) first.ui ∧
      Run sampleEnv (MissesHidden sampleEnv) first [keyInput 0x2A] last ∧
      Run sampleEnv LeavesHidden first [keyInput 0x2A] last := by
  have observed : (sampleRun minimiseEditor (keyInput 0x2A)).map (fun run =>
      (run.1.ui.notepad.window.hidden, reachesEditor sampleEnv 0x2A run.1.ui,
        reachesExplorer 0x2A run.1.ui)) = some (true, false, false) := by
    decide +kernel
  rcases Option.map_eq_some_iff.mp observed with ⟨⟨current, next⟩, ran, same⟩
  rcases sampleRun_reachable ran with ⟨reachable, stepped⟩
  simp only [Prod.mk.injEq] at same
  have key : KeyEvent 0x2A (keyInput 0x2A) current.ui :=
    ⟨rfl, fun held => absurd held Bool.false_ne_true⟩
  have misses : MissesHidden sampleEnv current (keyInput 0x2A) next := by
    intro sc event
    have isShift : sc = 0x2A := Option.some.inj (event.1.symm.trans key.1)
    subst isShift
    exact ⟨fun _ => same.2.1, fun _ => same.2.2⟩
  have run : Run sampleEnv (MissesHidden sampleEnv) current [keyInput 0x2A] next :=
    .cons stepped misses (.nil _)
  exact ⟨current, next, reachable, same.1, key, run, hidden_left_alone reachable run⟩

/-- A letter is appended to the text of the minimised editor. -/
theorem hidden_takes_letter :
    ¬ ∀ (env : Env) (machine next : Machine) (input : Input), Reachable env machine →
      machine.Step env input next → LeavesHidden machine input next := by
  intro claim
  have observed : (sampleRun minimiseEditor (keyInput 0x1E)).map (fun run =>
      (run.1.ui.notepad.window.hidden, run.1.ui.notepad.text, run.2.ui.notepad.text)) =
        some (true, [0x41], [0x41, 0x61]) := by
    decide +kernel
  rcases Option.map_eq_some_iff.mp observed with ⟨⟨current, next⟩, ran, same⟩
  rcases sampleRun_reachable ran with ⟨reachable, stepped⟩
  simp only [Prod.mk.injEq] at same
  have left := claim sampleEnv current next _ reachable stepped 0x1E
    ⟨rfl, fun held => absurd held Bool.false_ne_true⟩
  have kept := (left.1 same.1).1
  rw [same.2.1, same.2.2] at kept
  exact absurd kept (by decide)

end ParanOS

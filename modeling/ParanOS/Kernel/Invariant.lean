import ParanOS.Kernel.Run

/-! # What holds in every reachable state

The blocks of an iteration behind the login screen, and from them and the login
screen the invariants of a whole run.
-/

namespace ParanOS

open Foundation

/-! ## Mouse -/

/-- Nothing differs but the prompt's readiness, the context menu and the
buttons. -/
def ButtonsOnly (ui ui' : Ui) : Prop :=
  ∃ ready ctxMenu prevLeft prevRight, ui' = { ui with
    prompt := { ui.prompt with readyClick := ready }
    ctxMenu := ctxMenu, prevLeft := prevLeft, prevRight := prevRight }

namespace ButtonsOnly

theorem refl (ui : Ui) : ButtonsOnly ui ui := ⟨_, _, _, _, rfl⟩

theorem trans {first second third : Ui} (before : ButtonsOnly first second)
    (after : ButtonsOnly second third) : ButtonsOnly first third := by
  rcases before with ⟨_, _, _, _, rfl⟩
  rcases after with ⟨ready, ctxMenu, prevLeft, prevRight, rfl⟩
  exact ⟨ready, ctxMenu, prevLeft, prevRight, rfl⟩

theorem change {env : Env} {ui ui' : Ui} (only : ButtonsOnly ui ui') : UiChange env ui ui' := by
  rcases only with ⟨_, _, _, _, rfl⟩
  exact .shell ui _ _ _ _ _ _ _ _ _

end ButtonsOnly

/-- What a click does: the state changes, and then the user may log out. -/
inductive Click (env : Env) (ui : Ui) : Ui → Prop
  | change {ui'} (change : UiChange env ui ui') : Click env ui ui'
  | logout {before ui'} (earlier : UiChange env ui before)
      (later : ButtonsOnly (launchDoLogout before) ui') : Click env ui ui'

namespace Click

theorem before {env : Env} {first second third : Ui} (change : UiChange env first second)
    (click : Click env second third) : Click env first third := by
  cases click with
  | change later => exact .change (change.trans later)
  | logout earlier later => exact .logout (change.trans earlier) later

theorem after {env : Env} {first second third : Ui} (click : Click env first second)
    (buttons : ButtonsOnly second third) : Click env first third := by
  cases click with
  | change earlier => exact .change (earlier.trans buttons.change)
  | logout earlier later => exact .logout earlier (later.trans buttons)

end Click

theorem launchClick_cases (env : Env) (mx my : Int) (ui : Ui) :
    Ensures (launchClick env mx my ui) (Click env ui) := by
  have hidden : ∀ ui', UiChange env ui ui' →
      Click env ui { ui' with launch := { ui'.launch with visible := false } } :=
    fun ui' before => .change (before.trans (.launched ui' _))
  have ran : ∀ item, Ensures (launchAction env item ui) fun ui' =>
      Click env ui { ui' with launch := { ui'.launch with visible := false } } := by
    intro item
    unfold launchAction
    cases item.type with
    | logout => exact .pure (.logout (.refl ui) (.refl _))
    | reboot => exact .pure (hidden ui (.refl ui))
    | shutdown => exact .diverge
    | app =>
        apply Ensures.ite
        · intro _
          exact (notepadOpenPath_change env _ ui).mono hidden
        · intro _
          exact .pure (hidden ui (.refl ui))
  have activated : ∀ idx, Ensures (launchActivate env idx ui) (Click env ui) := by
    intro idx
    unfold launchActivate
    cases ui.launch.items[idx]? with
    | none => exact .pure (.change (.refl ui))
    | some item => exact .bind (ran item) fun _ clicked => .pure clicked
  apply Ensures.ite
  · intro _
    apply Ensures.ite
    · intro _
      exact activated _
    · intro _
      exact .pure (.change (.refl ui))
  · intro _
    exact .pure (hidden ui (.refl ui))

theorem focusClicked_change (env : Env) (input : Input) (ui : Ui) :
    UiChange env ui (focusClicked input ui) := by
  unfold focusClicked
  split
  · split
    · exact .refl ui
    · next id _ _ => exact .trans (.front ui id) (desktopRender_change env _)
  · exact .refl ui

theorem leftClick_cases (env : Env) (input : Input) (ui : Ui) :
    Ensures (leftClick env input ui) fun result => Click env ui result.2 := by
  have taken : ∀ {program : DiskM Ui}, Ensures program (UiChange env ui) →
      Ensures (program >>= fun ui' => pure (true, ui')) fun result : Bool × Ui =>
        Click env ui result.2 :=
    fun ensured => .bind ensured fun _ change => .pure (.change change)
  apply Ensures.ite
  · intro _
    exact taken (ctxMenuClick_change env _ _ ui)
  · intro _
    apply Ensures.ite
    · intro _
      exact taken (namePromptCommit_change env ui)
    · intro _
      apply Ensures.ite
      · intro _
        exact taken (taskbarClick_change env _ _ ui)
      · intro _
        apply Ensures.ite
        · intro _
          exact .bind (launchClick_cases env _ _ ui) fun _ clicked => .pure clicked
        · intro _
          apply Ensures.bind (topmenuHandleClick_change env _ _ ui)
          intro result handled
          apply Ensures.ite
          · intro _
            exact .pure (.change handled)
          · intro _
            refine (windowClick_change env input _).mono fun _ clicked => ?_
            exact .change ((handled.trans (focusClicked_change env input _)).trans clicked)

theorem rightButton_only (env : Env) (input : Input) (ui : Ui) :
    ButtonsOnly ui (rightButton env input ui) := by
  unfold rightButton
  split
  · exact ⟨_, _, _, _, rfl⟩
  · split
    · exact ⟨_, _, _, _, rfl⟩
    · exact .refl ui

theorem keepButtons_only (input : Input) (ui : Ui) : ButtonsOnly ui (keepButtons input ui) :=
  ⟨_, _, _, _, rfl⟩

/-- The prompt becomes ready for a click when no button is held. -/
def readyPrompt (input : Input) (ui : Ui) : Ui :=
  if ui.prompt.active && !input.left && !input.right && !input.middle then
    { ui with prompt := { ui.prompt with readyClick := true } }
  else ui

theorem mouseButtons_eq (env : Env) (input : Input) (ui : Ui) :
    mouseButtons env input ui =
      if input.left && !(readyPrompt input ui).prevLeft then do
        let (taken, ui) ← leftClick env input (readyPrompt input ui)
        pure (keepButtons input (if taken then ui else rightButton env input ui))
      else pure (keepButtons input (rightButton env input (readyPrompt input ui))) := rfl

theorem readyPrompt_only (input : Input) (ui : Ui) : ButtonsOnly ui (readyPrompt input ui) := by
  unfold readyPrompt
  split
  · exact ⟨_, _, _, _, rfl⟩
  · exact .refl ui

/-- Without a press of the left button the mouse changes nothing but the buttons,
the prompt's readiness and the context menu. -/
theorem mouseButtons_held (env : Env) {input : Input} {ui : Ui}
    (held : input.left = true → ui.prevLeft = true) :
    ∃ ui', mouseButtons env input ui = pure ui' ∧ ButtonsOnly ui ui' := by
  have noPress : ¬ (input.left && !(readyPrompt input ui).prevLeft) = true := by
    have same : (readyPrompt input ui).prevLeft = ui.prevLeft := by
      unfold readyPrompt
      split <;> rfl
    simp only [same, Bool.and_eq_true, Bool.not_eq_true', not_and, Bool.not_eq_false]
    exact held
  refine ⟨_, by rw [mouseButtons_eq, if_neg noPress], ?_⟩
  exact ((readyPrompt_only input ui).trans (rightButton_only env input _)).trans
    (keepButtons_only input _)

theorem mouseButtons_cases (env : Env) (input : Input) (ui : Ui) :
    Ensures (mouseButtons env input ui) (Click env ui) := by
  have readied : UiChange env ui (readyPrompt input ui) := (readyPrompt_only input ui).change
  rw [mouseButtons_eq]
  apply Ensures.ite
  · intro _
    apply Ensures.bind (leftClick_cases env input _)
    intro result clicked
    rcases result with ⟨taken, ui'⟩
    have buttons : ButtonsOnly ui'
        (keepButtons input (if taken then ui' else rightButton env input ui')) := by
      cases taken with
      | true => exact keepButtons_only input ui'
      | false => exact (rightButton_only env input ui').trans (keepButtons_only input _)
    exact .pure ((clicked.before readied).after buttons)
  · intro _
    have buttons := (rightButton_only env input (readyPrompt input ui)).trans
      (keepButtons_only input _)
    exact .pure (.change (readied.trans buttons.change))

/-- What a click keeps: the login record stays as it is, or the user logs out
and the Explorer is closed. -/
structure ClickOnly (ui ui' : Ui) : Prop where
  fits : PathFits ui → PathFits ui'
  coherent : Coherent ui → Coherent ui'
  login : ui'.login = ui.login ∨ ui'.filewin.window.isOpen = false

theorem Click.only {env : Env} {ui ui' : Ui} (click : Click env ui ui') : ClickOnly ui ui' := by
  cases click with
  | change change =>
      have steady := change.steady
      exact ⟨steady.fits, steady.coherent, .inl steady.login⟩
  | logout earlier later =>
      have steady := earlier.steady
      rcases later with ⟨_, _, _, _, rfl⟩
      exact ⟨steady.fits, steady.coherent, .inr rfl⟩

theorem mouseButtons_only (env : Env) (input : Input) (ui : Ui) :
    Ensures (mouseButtons env input ui) (ClickOnly ui) :=
  (mouseButtons_cases env input ui).mono fun _ => Click.only

/-! ## Keys of the prompt, the path bar and the editor -/

/-- The key would change the text of the path bar. -/
def editsText (key : UInt8) (ui : Ui) : Bool :=
  if key = 0x0E then ui.filewin.path ≠ []
  else key ≠ 0x1C && key ≠ 0x01 && ui.charOf key ≠ 0 &&
    decide (ui.filewin.path.length + 1 < filewinPathSize)

/-- The path bar takes the keys. The source does not ask whether the Explorer is
minimised. -/
def pathBarActive (ui : Ui) : Bool :=
  ui.filewin.window.isOpen && ui.front == .file && ui.filewin.pathFocus

/-- What the key blocks do to the login record and the Explorer. -/
structure KeysOnly (ui ui' : Ui) : Prop where
  login : ui'.login = ui.login
  isOpen : ui'.filewin.window.isOpen = ui.filewin.window.isOpen
  fits : PathFits ui → PathFits ui'

namespace KeysOnly

theorem trans {first second third : Ui} (before : KeysOnly first second)
    (after : KeysOnly second third) : KeysOnly first third :=
  ⟨after.login.trans before.login, after.isOpen.trans before.isOpen, after.fits ∘ before.fits⟩

end KeysOnly

/-- Nothing differs but the prompt, the editor and what a new file changes. -/
def PromptOnly (ui ui' : Ui) : Prop :=
  ∃ notepad front prompt ctxMenu, DesktopOnly { ui with
    notepad := notepad, front := front, prompt := prompt, ctxMenu := ctxMenu } ui'

theorem promptKeys_only (env : Env) (sc : Option UInt8) (ui : Ui) :
    Ensures (promptKeys env sc ui) fun result => PromptOnly ui result.2 := by
  have edited : ∀ prompt, PromptOnly ui { ui with prompt := prompt } :=
    fun prompt => ⟨_, _, _, _, .refl _⟩
  unfold promptKeys
  cases sc with
  | none => exact .pure (edited ui.prompt)
  | some key =>
      have typed : Ensures (promptKey env key ui) (PromptOnly ui) := by
        apply Ensures.ite
        · intro _
          exact createTxtFileFromPrompt_only env ui
        · intro _
          exact .ite (fun _ => .pure (edited _)) fun _ => .ite (fun _ => .pure (edited _)) fun _ =>
            .ite (fun _ => .pure (edited _)) fun _ => .pure (edited ui.prompt)
      apply Ensures.ite
      · intro _
        exact .bind typed fun _ only => .pure only
      · intro _
        exact .pure (edited ui.prompt)

theorem PromptOnly.keysOnly {ui ui' : Ui} (only : PromptOnly ui ui') : KeysOnly ui ui' := by
  rcases only with ⟨_, _, _, _, _, _, _, _, rfl⟩
  exact ⟨rfl, rfl, id⟩

theorem PromptOnly.coherent {ui ui' : Ui} (only : PromptOnly ui ui') (holds : Coherent ui) :
    Coherent ui' := by
  rcases only with ⟨_, _, _, _, _, _, _, _, rfl⟩
  exact holds

theorem filewinSetPath_only (env : Env) (path : List UInt8) (ui : Ui) :
    Ensures (filewinSetPath env path ui) fun ui' =>
      ∃ path selection items status listed, DesktopOnly { ui with
        filewin := { ui.filewin with path := path, selection := selection }
        fileItems := items, fileStatus := status, listedPath := listed } ui' := by
  apply Ensures.ite
  · intro _
    exact .pure ⟨_, _, _, _, _, .refl _⟩
  · intro _
    refine (filewinRefreshList_only env _).mono fun ui' only => ?_
    rcases only with ⟨selection, items, status, vol, mounted, desktop, menu, rfl⟩
    exact ⟨_, _, _, _, _, vol, mounted, desktop, menu, rfl⟩

/-- The keys of the path bar keep the list coherent unless they edit the text. -/
theorem pathKey_only (env : Env) (key : UInt8) (ui : Ui) :
    Ensures (pathKey env key ui) fun ui' => KeysOnly ui ui' ∧ ui'.notepad = ui.notepad ∧
      (editsText key ui = false ∨ ui.fileItems = [] → Coherent ui → Coherent ui') := by
  apply Ensures.ite
  · intro _
    refine ((filewinSetPath_only env _ ui).both (filewinSetPath_change env _ ui)).mono ?_
    intro ui' both
    rcases both with ⟨⟨_, _, _, _, _, _, _, _, _, rfl⟩, change⟩
    exact ⟨⟨rfl, rfl, change.steady.fits⟩, rfl, fun _ => change.steady.coherent⟩
  · intro notEnter
    apply Ensures.ite
    · intro backspace
      refine .pure ⟨⟨rfl, rfl, fun fits => ?_⟩, rfl, fun unedited coherent items => ?_⟩
      · simp only [PathFits, List.length_dropLast] at fits ⊢
        omega
      · rcases unedited with unedited | none
        · have empty : ui.filewin.path = [] := by simpa [editsText, backspace] using unedited
          have same := coherent items
          simp only [empty, List.dropLast_nil] at same ⊢
          exact same
        · exact absurd none items
    · intro notBackspace
      apply Ensures.ite
      · intro _
        exact .pure ⟨⟨rfl, rfl, id⟩, rfl, fun _ => id⟩
      · intro notEscape
        apply Ensures.ite
        · intro typed
          refine .pure ⟨⟨rfl, rfl, fun _ => ?_⟩, rfl, fun unedited coherent items => ?_⟩
          · simp only [PathFits, List.length_append, List.length_singleton]
            exact typed.2
          · rcases unedited with unedited | none
            · simp [editsText, notEnter, notBackspace, notEscape, typed] at unedited
            · exact absurd none items
        · intro _
          exact .pure ⟨⟨rfl, rfl, id⟩, rfl, fun _ => id⟩

theorem pathKeys_only (env : Env) (sc : Option UInt8) (ui : Ui) :
    Ensures (pathKeys env sc ui) fun result => KeysOnly ui result.2 ∧
      result.2.notepad = ui.notepad ∧
      ((∀ key, sc = some key → pathBarActive ui = true → editsText key ui = true →
        ui.fileItems = []) → Coherent ui → Coherent result.2) := by
  have nothing : KeysOnly ui ui := ⟨rfl, rfl, id⟩
  unfold pathKeys
  cases sc with
  | none => exact .pure ⟨nothing, rfl, fun _ => id⟩
  | some key =>
      apply Ensures.ite
      · intro active
        apply Ensures.bind (pathKey_only env key ui)
        intro ui' only
        rcases only with ⟨keys, notepad, coherent⟩
        refine .pure ⟨keys, notepad, fun unedited => coherent ?_⟩
        cases edits : editsText key ui with
        | false => exact .inl rfl
        | true => exact .inr (unedited key rfl active edits)
      · intro _
        exact .pure ⟨nothing, rfl, fun _ => id⟩

theorem Window.drag_isOpen (env : Env) (input : Input) (window : Window) :
    (window.drag env input).isOpen = window.isOpen := by
  simp only [Window.drag]
  split <;> split <;> first | rfl | (split <;> rfl)

theorem editorKeys_only (env : Env) (input : Input) (sc : Option UInt8) (ui : Ui) :
    ∃ notepad, DesktopOnly { ui with notepad := notepad } (editorKeys env input sc ui) := by
  have dragged : ∀ ui' : Ui, (∃ notepad, ui' = { ui with notepad := notepad }) →
      ∃ notepad, DesktopOnly { ui with notepad := notepad }
        (ui'.setWindow .notepad (ui'.notepad.window.drag env input)) := by
    intro ui' changed
    rcases changed with ⟨notepad, rfl⟩
    exact ⟨_, .refl _⟩
  have appended : ∀ char, ∃ notepad, notepadAppend char ui = { ui with notepad := notepad } := by
    intro char
    unfold notepadAppend
    split
    · exact ⟨_, rfl⟩
    · exact ⟨ui.notepad, rfl⟩
  unfold editorKeys
  split
  · cases sc with
    | none => exact dragged ui ⟨ui.notepad, rfl⟩
    | some key =>
        dsimp only
        split
        · exact ⟨_, .refl _⟩
        · split
          · exact ⟨_, desktopRender_only _⟩
          · exact dragged _ (appended _)
  · exact ⟨ui.notepad, .refl ui⟩

/-- Dragging moves a window. -/
theorem dragFront_only (env : Env) (input : Input) (ui : Ui) :
    KeysOnly ui (dragFront env input ui) ∧ (dragFront env input ui).notepad = ui.notepad ∧
      (Coherent ui → Coherent (dragFront env input ui)) := by
  unfold dragFront
  split
  · exact ⟨⟨rfl, rfl, id⟩, rfl, id⟩
  · next shown =>
      split
      · exact ⟨⟨rfl, rfl, id⟩, rfl, id⟩
      · cases front : ui.front with
        | notepad => simp [front] at shown
        | file => exact ⟨⟨rfl, Window.drag_isOpen env input _, id⟩, rfl, id⟩
        | taskmgr => exact ⟨⟨rfl, rfl, id⟩, rfl, id⟩
        | display => exact ⟨⟨rfl, rfl, id⟩, rfl, id⟩
        | terminal => exact ⟨⟨rfl, rfl, id⟩, rfl, id⟩
        | imgview => exact ⟨⟨rfl, rfl, id⟩, rfl, id⟩
        | wavplay => exact ⟨⟨rfl, rfl, id⟩, rfl, id⟩

/-! ## Iterations -/

/-- The Explorer is closed while the login screen is shown. -/
def ExplorerLocked (ui : Ui) : Prop :=
  ui.login.active = true → ui.filewin.window.isOpen = false

/-- What is left of an iteration behind the path bar. -/
def afterPathKeys (env : Env) (input : Input) (sc : Option UInt8) (ui : Ui) : Ui :=
  let ui := dragFront env input (editorKeys env input sc ui)
  if env.fbReady && input.redraw then desktopRender ui else ui

theorem afterPathKeys_only (env : Env) (input : Input) (sc : Option UInt8) (ui : Ui) :
    KeysOnly ui (afterPathKeys env input sc ui) ∧
      (Coherent ui → Coherent (afterPathKeys env input sc ui)) := by
  have edited : KeysOnly ui (editorKeys env input sc ui) ∧
      (Coherent ui → Coherent (editorKeys env input sc ui)) := by
    rcases editorKeys_only env input sc ui with ⟨notepad, _, _, _, _, changed⟩
    rw [changed]
    exact ⟨⟨rfl, rfl, id⟩, id⟩
  have dragged := dragFront_only env input (editorKeys env input sc ui)
  have before := edited.1.trans dragged.1
  simp only [afterPathKeys]
  split
  · rcases desktopRender_only (dragFront env input (editorKeys env input sc ui)) with
      ⟨_, _, _, _, changed⟩
    rw [changed]
    exact ⟨before.trans ⟨rfl, rfl, id⟩, dragged.2.2 ∘ edited.2⟩
  · exact ⟨before, dragged.2.2 ∘ edited.2⟩

/-- The path and the lock of the Explorer, in an iteration behind the login
screen. -/
theorem desktopIteration_sound (env : Env) (input : Input) (sc : Option UInt8) {ui : Ui}
    (inactive : ui.login.active = false) :
    Ensures (desktopIteration env input sc ui) fun ui' =>
      ExplorerLocked ui' ∧ (PathFits ui → PathFits ui') := by
  apply Ensures.bind (mouseButtons_only env input ui)
  intro clickedUi clicked
  apply Ensures.bind (promptKeys_only env sc clickedUi)
  intro prompted only
  apply Ensures.bind (pathKeys_only env prompted.1 prompted.2)
  intro listed pathOnly
  have keys : KeysOnly clickedUi (afterPathKeys env input listed.1 listed.2) :=
    (only.keysOnly.trans pathOnly.1).trans (afterPathKeys_only env input listed.1 listed.2).1
  refine .pure ⟨fun active => ?_, keys.fits ∘ clicked.fits⟩
  change (afterPathKeys env input listed.1 listed.2).login.active = true at active
  change (afterPathKeys env input listed.1 listed.2).filewin.window.isOpen = false
  rw [keys.isOpen]
  rcases clicked.login with same | closed
  · rw [keys.login, same, inactive] at active
    exact absurd active Bool.false_ne_true
  · exact closed

/-- What holds in every reachable state. -/
structure UiSound (ui : Ui) : Prop where
  locked : ExplorerLocked ui
  fits : PathFits ui

theorem FirstKeysOnly.login {ui ui' : Ui} (only : FirstKeysOnly ui ui') :
    ui'.login = ui.login := by
  rcases only.others with ⟨_, _, _, _, _, _, _, _, _, _, _, rfl⟩
  rfl

theorem firstKeys_login (env : Env) (input : Input) (ui : Ui) :
    Ensures (firstKeys env input ui) fun result => result.2.login = ui.login := by
  refine (firstKeys_cases env input ui).mono fun result cases => ?_
  rcases cases with ⟨_, only⟩ | ⟨sc, _, _, rfl⟩
  · exact only.login
  · rfl

theorem FirstKeysOnly.sound {ui ui' : Ui} (only : FirstKeysOnly ui ui') (sound : UiSound ui) :
    UiSound ui' := by
  constructor
  · intro active
    rw [only.login] at active
    rw [only.window]
    exact sound.locked active
  · rw [PathFits, only.path]
    exact sound.fits

theorem firstKeys_sound (env : Env) (input : Input) {ui : Ui} (sound : UiSound ui) :
    Ensures (firstKeys env input ui) fun result => UiSound result.2 := by
  refine (firstKeys_cases env input ui).mono fun result cases => ?_
  rcases cases with ⟨_, only⟩ | ⟨sc, _, _, rfl⟩
  · exact only.sound sound
  · exact ⟨sound.locked, sound.fits⟩

theorem iteration_sound (env : Env) (input : Input) {ui : Ui} (sound : UiSound ui) :
    Ensures (iteration env input ui) UiSound := by
  apply Ensures.bind (firstKeys_sound env input sound)
  intro result pressed
  apply Ensures.ite
  · intro active
    refine (loginScreen_only env input _ _).mono fun ui' only => ⟨fun active' => ?_, ?_⟩
    · rcases only.entered with inactive | ⟨_, same⟩
      · rw [inactive] at active'
        exact absurd active' Bool.false_ne_true
      · rw [same]
        exact pressed.locked active
    · exact only.fits pressed.fits
  · intro inactive
    refine (desktopIteration_sound env input _ (by simpa using inactive)).mono ?_
    intro ui' kept
    exact ⟨kept.1, kept.2 pressed.fits⟩

/-! ## From the start of the kernel -/

/-- Nothing differs but the login record, the session and what the disk changes. -/
def StoreOnly (ui ui' : Ui) : Prop :=
  ∃ login session, DesktopOnly { ui with login := login, session := session } ui'

/-- The end of `ensure_user_store`, with the user list from this text. -/
def withUsers (body : List UInt8) (ui : Ui) : Ui :=
  let users := userParseLines body.length [] body
  buildUserDesktopPath ui.session.loggedInUser { ui with login := { ui.login with
    users := if users = [] then defaultUsers else users
    active := true
    pwFocus := true
    message := ascii "Select a user and log in." } }

theorem ensureUserStore_only (env : Env) (ui : Ui) :
    Ensures (ensureUserStore env ui) (StoreOnly ui) := by
  apply Ensures.ite
  · intro _
    exact .pure ⟨_, _, .refl _⟩
  · intro _
    apply Ensures.bind (ensureUserDirsOnDisk_only env _ _)
    intro first dirs
    apply Ensures.bind (ensureUserDirsOnDisk_only env _ first)
    intro second more
    apply Ensures.bind (withVol_only second _)
    intro ensured wall
    apply Ensures.bind (withVol_only ensured.1 _)
    intro loaded read
    have stored : ∀ ui' body, DesktopOnly loaded.1 ui' → StoreOnly ui (withUsers body ui') := by
      intro ui' body wrote
      rcases (((dirs.trans more).trans wall).trans read).trans wrote with
        ⟨vol, mounted, desktop, menu, rfl⟩
      exact ⟨_, _, vol, mounted, desktop, menu, rfl⟩
    apply Ensures.ite
    · intro _
      exact .pure (stored loaded.1 _ (.refl _))
    · intro _
      apply Ensures.bind (withVol_only loaded.1 _)
      intro written wrote
      exact .pure (stored written.1 _ wrote)

/-- Until the loop starts nothing opens a window or fills the Explorer. -/
theorem boot_only (env : Env) (vol : Vol) :
    Ensures (boot env vol) (StoreOnly (Ui.initial vol)) := by
  have stored : ∀ ui, DesktopOnly (Ui.initial vol) ui →
      Ensures (ensureUserStore env ui) (StoreOnly (Ui.initial vol)) := by
    intro ui only
    refine (ensureUserStore_only env ui).mono fun ui' stored => ?_
    rcases only with ⟨_, _, _, _, rfl⟩
    rcases stored with ⟨login, session, vol, mounted, desktop, menu, rfl⟩
    exact ⟨login, session, vol, mounted, desktop, menu, rfl⟩
  apply Ensures.ite
  · intro _
    exact .bind (.pure rfl) fun ui same => stored ui (same ▸ .refl _)
  · intro _
    apply Ensures.bind (.trivial _)
    intro sector _
    cases sector with
    | none => exact .bind (.pure rfl) fun ui same => stored ui (same ▸ .refl _)
    | some sec0 =>
        apply Ensures.bind (.trivial _)
        intro mount _
        have noted : ∀ mounted, DesktopOnly (Ui.initial vol)
            { Ui.initial vol with vol := mount.2, volMounted := mounted } :=
          fun mounted => ⟨_, _, _, _, rfl⟩
        apply Ensures.ite
        · intro _
          apply Ensures.bind (withVol_only _ _)
          intro based base
          apply Ensures.bind (ensureUserDirsOnDisk_only env _ based.1)
          intro prepared dirs
          apply Ensures.bind (desktopRefreshFromPath_only env prepared)
          intro refreshed shown
          exact stored refreshed ((((noted true).trans base).trans dirs).trans shown)
        · intro _
          exact .bind (.pure rfl) fun ui same => stored ui (same ▸ noted false)

theorem Machine.Booted.only {env : Env} {machine : Machine} (booted : machine.Booted env) :
    ∃ vol, StoreOnly (Ui.initial vol) machine.ui := by
  rcases booted with ⟨vol, device, ran⟩
  exact ⟨vol, (boot_only env vol).returns ran⟩

theorem boot_sound {env : Env} {machine : Machine} (booted : machine.Booted env) :
    UiSound machine.ui ∧ Coherent machine.ui := by
  rcases booted.only with ⟨vol, login, session, _, _, _, _, same⟩
  rw [same]
  exact ⟨⟨fun _ => rfl, Nat.zero_lt_succ 95⟩, fun items => absurd rfl items⟩

theorem Reachable.sound {env : Env} {machine : Machine} (reachable : Reachable env machine) :
    UiSound machine.ui := by
  rcases reachable with ⟨first, inputs, booted, run⟩
  apply run.keeps (fun machine => UiSound machine.ui) _ (boot_sound booted).1
  intro current input next stepped _ sound
  exact (iteration_sound env input sound).returns stepped

end ParanOS

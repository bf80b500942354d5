import ParanOS.Kernel.Login
import ParanOS.Kernel.Requests

/-! # All traffic with the disk

The menus, the clicks and the keys, and with them the whole event loop, use the disk only as its
handlers do. Everything that has happened to the disk in a reachable state is a list of requests
to the driver.
-/

namespace ParanOS

open Foundation

/-! ## File picker and name prompt -/

theorem filePickerHandleSelection_uses (env : Env) (fullpath name83 : List UInt8) (ui : Ui) :
    Uses env ui (filePickerHandleSelection env fullpath name83 ui) id := by
  have called : ∀ cb, Uses env ui (pickerCall env fullpath name83 ui cb) id := by
    intro cb
    cases cb with
    | notepadFilePick => exact (notepadOpenPath_uses env fullpath ui).bind fun ui => .pure rfl
    | wavplayPick => exact .pure rfl
  apply Issues.ite
  · intro _
    exact .pure rfl
  · intro _
    cases ui.picker.cb with
    | none => exact .pure rfl
    | some cb => exact (called cb).bind fun ui => .pure (desktopRender_attached _)

theorem promptNewName_fit (ui : Ui) : ∃ source, promptNewName ui = sanitizeTxtName 32 source := by
  unfold promptNewName
  dsimp only
  split
  · exact ⟨_, rfl⟩
  · split
    · exact ⟨_, rfl⟩
    · exact ⟨_, rfl⟩

theorem createTxtFileFromPrompt_uses (env : Env) (ui : Ui) :
    Uses env ui (createTxtFileFromPrompt env ui) id := by
  apply (ensureVolumeMounted_uses env ui).bind
  intro mounted
  apply Issues.ite
  · intro _
    exact .pure rfl
  · intro _
    rcases promptNewName_fit mounted.2 with ⟨source, fit⟩
    dsimp only
    rw [fit]
    apply (writeFile_uses (.save mounted.2.session.desktopDir source _) mounted.2).bind
    intro result
    apply Issues.ite
    · intro _
      apply (desktopRefreshFromPath_uses env result.1).bind
      intro ui
      exact (notepadOpenPath_uses env _ ui).bind fun ui => .pure rfl
    · intro _
      exact .pure rfl

theorem namePromptCommit_uses (env : Env) (ui : Ui) :
    Uses env ui (namePromptCommit env ui) id := by
  unfold namePromptCommit
  cases ui.prompt.mode with
  | createTxt => exact createTxtFileFromPrompt_uses env ui
  | openTxt =>
      apply (ensureVolumeMounted_uses env ui).bind
      intro mounted
      apply Issues.ite
      · intro _
        exact (notepadOpenPath_uses env _ mounted.2).bind fun ui => .pure rfl
      · intro _
        exact .pure rfl
  | saveAs =>
      apply (ensureVolumeMounted_uses env ui).bind
      intro mounted
      apply Issues.ite
      · intro _
        exact (notepadSaveCurrent_uses env _ mounted.2).bind fun saved => .pure rfl
      · intro _
        exact .pure rfl
  | none => exact .pure rfl

/-! ## Menus -/

theorem minimizeFront_attached (ui : Ui) : (minimizeFront ui).attached = ui.attached := by
  simp only [minimizeFront]
  split
  · rfl
  · split
    · exact setWindow_attached ui _ _
    · rfl

theorem toggleMaximizeFront_attached (env : Env) (ui : Ui) :
    (toggleMaximizeFront env ui).attached = ui.attached := by
  unfold toggleMaximizeFront
  split
  · rfl
  · exact setWindow_attached ui _ _

theorem topmenuApplyAction_uses (env : Env) (act : CtxAction) (ui : Ui) :
    Uses env ui (topmenuApplyAction env act ui) id := by
  cases act with
  | notepadNew => exact .pure rfl
  | notepadOpen => exact filePickerStart_uses env _ _ ui
  | notepadSave =>
      apply Issues.ite
      · intro _
        exact .pure rfl
      · intro _
        exact (notepadSaveCurrent_uses env none ui).bind fun saved => .pure rfl
  | notepadSaveAs => exact .pure rfl
  | notepadClose => exact .pure (notepadClose_attached ui)
  | winMinimize => exact .pure (minimizeFront_attached ui)
  | winToggleMax => exact .pure (toggleMaximizeFront_attached env ui)
  | newTxt => exact .pure rfl
  | refreshDesktop => exact .pure rfl
  | fileRefresh => exact .pure rfl
  | fileOpen => exact .pure rfl
  | fileUp => exact .pure rfl

theorem topmenuClickTitle_attached (env : Env) (mx my : Int) (ui : Ui) :
    (topmenuClickTitle env mx my ui).2.attached = ui.attached := by
  unfold topmenuClickTitle
  split
  · rfl
  · rfl

theorem topmenuHandleClick_uses (env : Env) (mx my : Int) (ui : Ui) :
    Uses env ui (topmenuHandleClick env mx my ui) Prod.snd := by
  have title : Uses env ui (pure (topmenuClickTitle env mx my ui)) Prod.snd :=
    .pure (topmenuClickTitle_attached env mx my ui)
  apply Issues.ite
  · intro _
    exact .pure rfl
  · intro _
    cases ui.topmenuOpen with
    | none => exact title
    | some menu =>
        apply Issues.ite
        · intro _
          split
          · exact (topmenuApplyAction_uses env _ ui).bind fun ui => .pure (desktopRender_attached _)
          · exact title
        · intro _
          exact .pure rfl

theorem fileOpenSelected_uses (env : Env) (ui : Ui) :
    Uses env ui (fileOpenSelected env ui) id := by
  unfold fileOpenSelected
  cases ui.fileSelected with
  | none => exact .pure rfl
  | some item =>
      apply Issues.ite
      · intro _
        exact filewinSetPath_uses env _ ui
      · intro _
        apply Issues.ite
        · intro _
          exact notepadOpenPath_uses env _ ui
        · intro _
          exact .pure rfl

theorem ctxMenuAction_uses (env : Env) (ui : Ui) (act : CtxAction) :
    Uses env ui (ctxMenuAction env ui act) id := by
  cases act with
  | newTxt => exact .pure rfl
  | refreshDesktop => exact desktopRefreshFromPath_uses env ui
  | notepadNew => exact .pure rfl
  | notepadOpen => exact filePickerStart_uses env _ _ ui
  | notepadSave => exact (notepadSaveCurrent_uses env none ui).bind fun saved => .pure rfl
  | notepadSaveAs => exact .pure rfl
  | notepadClose => exact .pure (notepadClose_attached ui)
  | fileRefresh => exact filewinRefreshList_uses env ui
  | fileOpen => exact fileOpenSelected_uses env ui
  | fileUp => exact filewinGoUp_uses env ui
  | winMinimize => exact topmenuApplyAction_uses env .winMinimize ui
  | winToggleMax => exact topmenuApplyAction_uses env .winToggleMax ui

theorem ctxMenuClick_uses (env : Env) (mx my : Int) (ui : Ui) :
    Uses env ui (ctxMenuClick env mx my ui) id := by
  apply Issues.ite
  · intro _
    split
    · exact (ctxMenuAction_uses env ui _).bind fun ui => .pure rfl
    · exact .pure rfl
  · intro _
    exact .pure rfl

theorem launchToggle_uses (env : Env) (shown : Bool) (ui : Ui) :
    Uses env ui (launchToggle env shown ui) id := by
  have refreshed : Uses env ui (launchRefreshItems env ui) id := by
    apply Issues.ite
    · intro _
      exact .pure rfl
    · intro _
      exact (listDir_uses env _ _ ui).bind fun result => .pure rfl
  apply Issues.ite
  · intro _
    exact refreshed.bind fun ui => .pure rfl
  · intro _
    exact .pure rfl

theorem launchClick_uses (env : Env) (mx my : Int) (ui : Ui) :
    Uses env ui (launchClick env mx my ui) id := by
  have acts : ∀ item, Uses env ui (launchAction env item ui) id := by
    intro item
    unfold launchAction
    cases item.type with
    | logout => exact .pure rfl
    | reboot => exact .pure rfl
    | shutdown => exact .diverge
    | app => exact .ite (fun _ => notepadOpenPath_uses env _ ui) fun _ => .pure rfl
  have activates : ∀ idx, Uses env ui (launchActivate env idx ui) id := by
    intro idx
    unfold launchActivate
    split
    · exact .pure rfl
    · exact (acts _).bind fun ui => .pure rfl
  apply Issues.ite
  · intro _
    exact .ite (fun _ => activates _) fun _ => .pure rfl
  · intro _
    exact .pure rfl

theorem taskbarClick_uses (env : Env) (mx my : Int) (ui : Ui) :
    Uses env ui (taskbarClick env mx my ui) id := by
  have quick : ∀ (ui : Ui) entry, Uses env ui (quickLaunch env ui entry) id := by
    intro ui entry
    cases entry with
    | file => exact (filewinOpen_uses env ui).bind fun ui => .pure rfl
    | taskmgr => exact .pure (taskmgrOpen_attached env ui)
    | terminal => exact .pure (terminalOpen_attached env ui)
    | wavplay => exact .pure (wavplayOpen_attached ui)
  have button : ∀ (ui : Ui) y, (wmHandleTaskbarClick mx my y 32 80 ui).attached = ui.attached := by
    intro ui y
    unfold wmHandleTaskbarClick
    split
    · rfl
    · exact (desktopRender_attached _).trans (setWindow_attached _ _ _)
  apply Issues.ite
  · intro _
    exact launchToggle_uses env _ ui
  · intro _
    dsimp only
    split
    · exact (quick { ui with launch := { ui.launch with visible := false } } _).bind fun ui =>
        .pure (desktopRender_attached ui)
    · exact .pure (button _ _)

/-! ## Clicks into windows and on the desktop -/

theorem notepadClick_uses (env : Env) (input : Input) (ui : Ui) :
    Uses env ui (notepadClick env input ui) Prod.snd := by
  unfold notepadClick
  dsimp only
  split
  · exact .pure rfl
  · exact (filePickerStart_uses env _ _ ui).bind fun ui => .pure rfl
  · apply Issues.ite
    · intro _
      exact .pure rfl
    · intro _
      exact (notepadSaveCurrent_uses env none ui).bind fun saved => .pure rfl
  · exact .ite (fun _ => .pure rfl) fun _ => .ite (fun _ => .pure rfl) fun _ =>
      .ite (fun _ => .pure (notepadClose_attached ui)) fun _ => .pure rfl

theorem openFileItem_uses (env : Env) (input : Input) (item : DesktopItem) (ui : Ui) :
    Uses env ui (openFileItem env input item ui) id := by
  have nothing : Uses env ui (pure ui) id := .pure rfl
  refine .ite (fun _ => filewinSetPath_uses env _ ui) fun _ => .ite (fun _ => .ite (fun _ =>
    filePickerHandleSelection_uses env _ _ ui) fun _ => nothing) fun _ => .ite (fun _ =>
    notepadOpenPath_uses env _ ui) fun _ => .ite (fun _ => ?_) fun _ => nothing
  exact imgviewOpenPath_uses env input _ ui

theorem listClick_uses (env : Env) (input : Input) (idx : Int) (ui : Ui) :
    Uses env ui (listClick env input idx ui) id := by
  apply Issues.ite
  · intro _
    exact .pure rfl
  · intro _
    split
    · exact .pure rfl
    · next item _ =>
        have selected : Ui.attached { ui with
            fileLastClick := input.jiffies
            fileLastIdx := some idx.toNat
            filewin := { ui.filewin with selection := some idx.toNat, pathFocus := false } } =
              ui.attached := rfl
        exact .ite (fun _ => Uses.after selected (openFileItem_uses env input item _)) fun _ =>
          .pure rfl

theorem filewinClick_uses (env : Env) (input : Input) (ui : Ui) :
    Uses env ui (filewinClick env input ui) Prod.snd := by
  apply Issues.ite
  · intro _
    exact .pure rfl
  · intro _
    split
    · next newPath _ =>
        exact (filewinSetPath_uses env newPath
          { ui with filewin := { ui.filewin with pathFocus := false } }).bind fun ui => .pure rfl
    · split
      · exact (listClick_uses env input _ ui).bind fun ui => .pure rfl
      · exact .pure rfl

theorem wavplayClick_uses (env : Env) (input : Input) (ui : Ui) :
    Uses env ui (wavplayClick env input ui) Prod.snd := by
  apply Issues.ite
  · intro _
    exact (filePickerStart_uses env _ _ ui).bind fun ui => .pure rfl
  · intro _
    apply Issues.ite
    · intro _
      exact .ite (fun _ => .pure rfl) fun _ =>
        (soundPlayWavPath_uses env input _ ui).bind fun ui => .pure rfl
    · intro _
      exact .pure rfl

theorem desktopClick_uses (env : Env) (input : Input) (ui : Ui) :
    Uses env ui (desktopClick env input ui) id := by
  have opened : ∀ (ui : Ui) item, Uses env ui (openDesktopItem env input item ui) id := by
    intro ui item
    have nothing : Uses env ui (pure ui) id := .pure rfl
    exact .ite (fun _ => nothing) fun _ => .ite (fun _ => notepadOpenPath_uses env _ ui)
      fun _ => .ite (fun _ => imgviewOpenPath_uses env input _ ui) fun _ => nothing
  apply Issues.ite
  · intro _
    exact .pure rfl
  · intro _
    split
    · exact .pure rfl
    · next hit _ =>
        have selected : Ui.attached { ui with desktop := { ui.desktop with
            selection := some hit
            lastClickTick := input.jiffies
            lastClickIndex := some hit } } = ui.attached := rfl
        apply Uses.after selected
        dsimp only
        split
        · exact .pure rfl
        · exact .ite (fun _ => opened _ _) fun _ => .pure rfl

theorem windowClick_uses (env : Env) (input : Input) (ui : Ui) :
    Uses env ui (windowClick env input ui) Prod.snd := by
  have front : Uses env ui (frontClick env input ui) Prod.snd :=
    .ite (fun _ => .pure rfl) fun _ => .ite (fun _ => notepadClick_uses env input ui) fun _ =>
      .ite (fun _ => .pure (closeWindow_attached ui _)) fun _ =>
      .ite (fun _ => filewinClick_uses env input ui) fun _ =>
      .ite (fun _ => wavplayClick_uses env input ui) fun _ => .pure rfl
  apply front.bind
  intro result
  apply Issues.ite
  · intro _
    exact .pure rfl
  · intro _
    exact (desktopClick_uses env input result.2).bind fun ui => .pure rfl

/-! ## Mouse and keys -/

theorem focusClicked_attached (input : Input) (ui : Ui) :
    (focusClicked input ui).attached = ui.attached := by
  unfold focusClicked
  split
  · split
    · rfl
    · exact desktopRender_attached _
  · rfl

theorem leftClick_uses (env : Env) (input : Input) (ui : Ui) :
    Uses env ui (leftClick env input ui) Prod.snd := by
  refine .ite (fun _ => (ctxMenuClick_uses env _ _ ui).bind fun ui => .pure rfl) fun _ =>
    .ite (fun _ => (namePromptCommit_uses env ui).bind fun ui => .pure rfl) fun _ =>
    .ite (fun _ => (taskbarClick_uses env _ _ ui).bind fun ui => .pure rfl) fun _ =>
    .ite (fun _ => (launchClick_uses env _ _ ui).bind fun ui => .pure rfl) fun _ => ?_
  apply (topmenuHandleClick_uses env _ _ ui).bind
  intro result
  apply Issues.ite
  · intro _
    exact .pure rfl
  · intro _
    exact Uses.after (focusClicked_attached input result.2) (windowClick_uses env input _)

theorem rightButton_attached (env : Env) (input : Input) (ui : Ui) :
    (rightButton env input ui).attached = ui.attached := by
  unfold rightButton
  split
  · rfl
  · split
    · rfl
    · rfl

theorem mouseButtons_uses (env : Env) (input : Input) (ui : Ui) :
    Uses env ui (mouseButtons env input ui) id := by
  unfold mouseButtons
  dsimp only
  have armed : Ui.attached (if ui.prompt.active && !input.left && !input.right && !input.middle then
      { ui with prompt := { ui.prompt with readyClick := true } } else ui) = ui.attached := by
    split
    · rfl
    · rfl
  apply Uses.after armed
  generalize (if ui.prompt.active && !input.left && !input.right && !input.middle then
      { ui with prompt := { ui.prompt with readyClick := true } } else ui) = armedUi
  have later : ∀ result : Bool × Ui, (keepButtons input
      (if result.1 then result.2 else rightButton env input result.2)).attached =
        result.2.attached := by
    intro result
    split
    · rfl
    · exact rightButton_attached env input result.2
  apply Issues.ite
  · intro _
    exact (leftClick_uses env input armedUi).bind fun result => .pure (later result)
  · intro _
    exact .pure (later (false, armedUi))

theorem promptKeys_uses (env : Env) (sc : Option UInt8) (ui : Ui) :
    Uses env ui (promptKeys env sc ui) Prod.snd := by
  have pressed : ∀ key, Uses env ui (promptKey env key ui) id := fun key =>
    .ite (fun _ => createTxtFileFromPrompt_uses env ui) fun _ => .ite (fun _ => .pure rfl) fun _ =>
      .ite (fun _ => .pure rfl) fun _ => .ite (fun _ => .pure rfl) fun _ => .pure rfl
  unfold promptKeys
  cases sc with
  | none => exact .pure rfl
  | some key =>
      apply Issues.ite
      · intro _
        exact (pressed key).bind fun ui => .pure rfl
      · intro _
        exact .pure rfl

theorem pathKeys_uses (env : Env) (sc : Option UInt8) (ui : Ui) :
    Uses env ui (pathKeys env sc ui) Prod.snd := by
  have pressed : ∀ key, Uses env ui (pathKey env key ui) id := fun key =>
    .ite (fun _ => filewinSetPath_uses env _ ui) fun _ => .ite (fun _ => .pure rfl) fun _ =>
      .ite (fun _ => .pure rfl) fun _ => .ite (fun _ => .pure rfl) fun _ => .pure rfl
  unfold pathKeys
  cases sc with
  | none => exact .pure rfl
  | some key =>
      apply Issues.ite
      · intro _
        exact (pressed key).bind fun ui => .pure rfl
      · intro _
        exact .pure rfl

theorem notepadAppend_attached (char : UInt8) (ui : Ui) :
    (notepadAppend char ui).attached = ui.attached := by
  unfold notepadAppend
  split
  · rfl
  · rfl

theorem editorKeys_attached (env : Env) (input : Input) (sc : Option UInt8) (ui : Ui) :
    (editorKeys env input sc ui).attached = ui.attached := by
  unfold editorKeys
  split
  · cases sc with
    | none => rfl
    | some key =>
        dsimp only
        split
        · rfl
        · split
          · exact notepadClose_attached ui
          · exact (setWindow_attached _ .notepad _).trans (notepadAppend_attached _ ui)
  · rfl

theorem dragFront_attached (env : Env) (input : Input) (ui : Ui) :
    (dragFront env input ui).attached = ui.attached := by
  unfold dragFront
  split
  · rfl
  · split
    · rfl
    · exact setWindow_attached ui _ _

theorem arrowKey_attached (sc : UInt8) (ui : Ui) : (arrowKey sc ui).attached = ui.attached := by
  unfold arrowKey
  split
  · exact filewinMoveSelection_attached _ ui
  · exact desktopMoveSelection_attached _ ui

theorem wmCycleNext_attached (ui : Ui) : (wmCycleNext ui).attached = ui.attached := by
  simp only [wmCycleNext]
  split
  · rfl
  · rfl

theorem firstKeys_uses (env : Env) (input : Input) (ui : Ui) :
    Uses env ui (firstKeys env input ui) Prod.snd := by
  have deletes : Uses env ui (deleteKey env ui) id :=
    .ite (fun _ => filewinDeleteSelection_uses env ui) fun _ => desktopDeleteSelection_uses env ui
  have cycled : (desktopRender (wmCycleNext ui)).attached = ui.attached :=
    (desktopRender_attached _).trans (wmCycleNext_attached ui)
  have presses : ∀ sc, Uses env ui (pressKey env sc ui) Prod.snd := fun sc =>
    .ite (fun _ => .pure rfl) fun _ => .ite (fun _ => (launchToggle_uses env _
        { ui with keys := { ui.keys with winDown := true } }).bind fun ui =>
          .pure (desktopRender_attached ui)) fun _ =>
      .ite (fun _ => .pure rfl) fun _ => .ite (fun _ => .pure rfl) fun _ =>
      .ite (fun _ => .pure cycled) fun _ => .ite (fun _ => deletes.bind fun ui => .pure rfl) fun _ =>
      .ite (fun _ => .pure (arrowKey_attached sc ui)) fun _ => .pure rfl
  unfold firstKeys
  cases input.scancode with
  | none => exact .pure rfl
  | some sc => exact .ite (fun _ => .pure rfl) fun _ => presses sc

/-! ## Login -/

theorem startDesktopSession_uses (env : Env) (ui : Ui) :
    Uses env ui (startDesktopSession env ui) id := by
  apply Issues.ite
  · intro _
    exact .pure rfl
  · intro _
    apply Issues.bind (filewinOpen_uses env
      { ui with session := { ui.session with started := true } })
    intro ui
    exact .pure ((desktopRender_attached _).trans (taskmgrOpen_attached env ui))

theorem loginAttempt_uses (env : Env) (ui : Ui) : Uses env ui (loginAttempt env ui) id := by
  have begins : ∀ (uname : List UInt8) (ui : Ui), Uses env ui (do
      let ui ← ensureUserDirsOnDisk env uname ui
      let ui ← desktopRefreshFromPath env (buildUserDesktopPath uname ui)
      startDesktopSession env { ui with login := { ui.login with active := false } }) id := by
    intro uname ui
    apply (ensureUserDirsOnDisk_uses env uname ui).bind
    intro ui
    apply (desktopRefreshFromPath_uses env (buildUserDesktopPath uname ui)).bind
    intro ui
    exact startDesktopSession_uses env { ui with login := { ui.login with active := false } }
  apply Issues.ite
  · intro _
    refine Uses.after ?_ (begins _ _)
    rfl
  · intro _
    exact .pure rfl

theorem loginScreen_uses (env : Env) (input : Input) (sc : Option UInt8) (ui : Ui) :
    Uses env ui (loginScreen env input sc ui) id := by
  have clicked : ∀ ui : Ui, Uses env ui (loginClick env input ui) id := by
    intro ui
    unfold loginClick
    cases ui.login.hover with
    | none =>
        exact .ite (fun _ => .pure rfl) fun _ => .ite (fun _ => loginAttempt_uses env ui) fun _ =>
          .pure rfl
    | some i =>
        exact .ite (fun _ => .pure rfl) fun _ => .ite (fun _ => loginAttempt_uses env
          { ui with login := { ui.login with selected := i, pwFocus := true } }) fun _ => .pure rfl
  have pressed : ∀ sc (ui : Ui), Uses env ui (loginKey env sc ui) id := fun sc ui =>
    .ite (fun _ => loginAttempt_uses env ui) fun _ => .ite (fun _ => .pure rfl) fun _ =>
      .ite (fun _ => .pure rfl) fun _ => .pure rfl
  apply Issues.ite
  · intro _
    exact .pure rfl
  · intro _
    cases sc with
    | none =>
        have later : ∀ ui : Ui, Uses env ui (pure (keepButtons input ui)) id := fun ui => .pure rfl
        apply Issues.ite
        · intro _
          refine Uses.after ?_ ((clicked _).bind later)
          rfl
        · intro _
          refine Uses.after ?_ (later _)
          rfl
    | some sc =>
        have later : ∀ ui : Ui, Uses env ui (if (keepButtons input ui).login.pwFocus then
            loginKey env sc (keepButtons input ui) else pure (keepButtons input ui)) id :=
          fun ui => .ite (fun _ => pressed sc (keepButtons input ui)) fun _ => .pure rfl
        apply Issues.ite
        · intro _
          refine Uses.after ?_ ((clicked _).bind later)
          rfl
        · intro _
          refine Uses.after ?_ (later _)
          rfl

/-! ## The loop -/

theorem desktopIteration_uses (env : Env) (input : Input) (sc : Option UInt8) (ui : Ui) :
    Uses env ui (desktopIteration env input sc ui) id := by
  apply (mouseButtons_uses env input ui).bind
  intro ui
  apply (promptKeys_uses env sc ui).bind
  intro prompted
  apply (pathKeys_uses env prompted.1 prompted.2).bind
  intro typed
  have moved := (dragFront_attached env input (editorKeys env input typed.1 typed.2)).trans
    (editorKeys_attached env input typed.1 typed.2)
  apply Uses.pure
  split
  · exact (desktopRender_attached _).trans moved
  · exact moved

theorem iteration_uses (env : Env) (input : Input) (ui : Ui) :
    Uses env ui (iteration env input ui) id := by
  apply (firstKeys_uses env input ui).bind
  intro result
  apply Issues.ite
  · intro _
    exact loginScreen_uses env input result.1 result.2
  · intro _
    exact desktopIteration_uses env input result.1 result.2

/-! ## The start of the kernel -/

theorem ensureUserStore_uses (env : Env) (ui : Ui) :
    Issues (DiskUse.Step env.fuel) BootUse ui.attached (ensureUserStore env ui) Ui.attached := by
  have dirs : ∀ uname (ui : Ui), Issues (DiskUse.Step env.fuel) BootUse ui.attached
      (ensureUserDirsOnDisk env uname ui) Ui.attached :=
    fun uname ui => (ensureUserDirsOnDisk_uses env uname ui).mono fun _ => .loop
  have wallDir : pathWallDir ∈ systemDirs (ascii "GUEST") := by simp [systemDirs]
  apply Issues.ite
  · intro _
    exact .pure rfl
  · intro _
    apply (dirs (ascii "ADMIN") { ui with login := { ui.login with
      users := [], selected := 0, hover := none, pw := [] } }).bind
    intro ui
    apply (dirs (ascii "GUEST") ui).bind
    intro ui
    apply (ensureDir_uses (.loop (.ensure _ wallDir)) ui).bind
    intro ensured
    apply ((readFile_uses env userFile 511 ensured.1).mono fun _ => .loop).bind
    intro result
    apply Issues.ite
    · intro _
      exact .pure rfl
    · intro _
      exact (writeFile_uses .users result.1).bind fun written => .pure rfl

theorem boot_uses (env : Env) (vol : Vol) :
    Issues (DiskUse.Step env.fuel) BootUse (false, vol) (boot env vol) Ui.attached := by
  have stores : ∀ ui : Ui, Issues (DiskUse.Step env.fuel) BootUse ui.attached
      (ensureUserStore env ui) Ui.attached := ensureUserStore_uses env
  have start : Ui.attached (Ui.initial vol) = (false, vol) := rfl
  rw [← start]
  apply Issues.ite
  · intro _
    exact stores (Ui.initial vol)
  · intro _
    have unmounted : (Ui.initial vol).volMounted = false := rfl
    apply mountDisk_uses (.loop .mount) unmounted
    · exact stores (Ui.initial vol)
    · intro code v
      apply Issues.ite
      · intro success
        rw [decide_eq_true success]
        have baseDir : pathBaseDir ∈ systemDirs [] := by simp [systemDirs]
        apply (ensureDir_uses (.loop (.ensure _ baseDir))
          { Ui.initial vol with vol := v, volMounted := true }).bind
        intro ensured
        apply ((ensureUserDirsOnDisk_uses env _ ensured.1).mono fun _ => .loop).bind
        intro ui
        exact ((desktopRefreshFromPath_uses env ui).mono fun _ => .loop).bind stores
      · intro failure
        rw [decide_eq_false failure]
        exact stores { Ui.initial vol with vol := v }

/-! ## Runs -/

/-- What has been done to the disk, by uses of one kind. -/
def Machine.Used (fuel : Nat) (asked : DiskUse → Prop) (first : (Bool × Vol) × Device)
    (last : Machine) : Prop :=
  ∃ uses, (∀ use ∈ uses, asked use) ∧
    Trace (DiskUse.Step fuel) first uses (last.ui.attached, last.device)

theorem Machine.Used.later {env : Env} {asked : DiskUse → Prop} {first : (Bool × Vol) × Device}
    {current next : Machine} {input : Input} (used : current.Used env.fuel asked first)
    (wider : ∀ use, UiUse use → asked use) (stepped : current.Step env input next) :
    next.Used env.fuel asked first := by
  rcases used with ⟨uses, asks, trace⟩
  rcases (iteration_uses env input current.ui).returns stepped with ⟨more, asks', trace'⟩
  refine ⟨uses ++ more, fun use member => ?_, trace.append trace'⟩
  rcases List.mem_append.mp member with member | member
  · exact asks use member
  · exact wider use (asks' use member)

theorem Run.used {env : Env} {each : Machine → Input → Machine → Prop} {first last : Machine}
    {inputs : List Input} (run : Run env each first inputs last) :
    last.Used env.fuel UiUse (first.ui.attached, first.device) :=
  run.keeps (fun machine => machine.Used env.fuel UiUse (first.ui.attached, first.device))
    (fun stepped _ used => used.later (fun _ => id) stepped) ⟨[], by simp, .nil _⟩

end ParanOS

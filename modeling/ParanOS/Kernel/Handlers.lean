import ParanOS.Kernel.Frame

/-! # What the handlers of the Explorer, the menus and the mouse keep

Every one of them is a change, except for the logout of the launch menu, which
changes the login record and closes the Explorer.
-/

namespace ParanOS

open Foundation

/-! ## File Explorer -/

/-- After listing, the items are those of the path. -/
theorem filewinRefreshList_only (env : Env) (ui : Ui) :
    Ensures (filewinRefreshList env ui) fun ui' =>
      ∃ selection items status, DesktopOnly { ui with
        filewin := { ui.filewin with selection := selection }
        fileItems := items, fileStatus := status, listedPath := ui.filewin.path } ui' := by
  apply Ensures.ite
  · intro _
    exact .pure ⟨_, _, _, .refl _⟩
  · intro _
    apply Ensures.bind (withVol_only _ _)
    rintro ⟨listed, code, entries⟩ ⟨vol, mounted, desktop, menu, changed⟩
    dsimp only at changed
    subst changed
    apply Ensures.ite
    · intro _
      exact .pure ⟨_, _, _, vol, mounted, desktop, menu, rfl⟩
    · intro _
      exact .pure ⟨_, _, _, vol, mounted, desktop, menu, rfl⟩

/-- Listing under a path that the Explorer goes to. -/
theorem filewinRefreshList_change (env : Env) {ui moved : Ui} (path : List UInt8)
    (selection : Option Nat) (before : UiChange env ui moved)
    (fits : PathFits moved → path.length < filewinPathSize) :
    Ensures (filewinRefreshList env { moved with
      filewin := { moved.filewin with path := path, selection := selection } })
      (UiChange env ui) := by
  refine (filewinRefreshList_only env _).mono fun ui' only => ?_
  rcases only with ⟨selection, items, status, only⟩
  exact before.trans (.trans (.listed moved path selection items status fits) (.desktop only))

theorem copyInto_length (source : List UInt8) :
    (copyInto filewinPathSize source).length < filewinPathSize := by
  simp only [copyInto, filewinPathSize, List.length_take]
  omega

theorem filewinSetPath_change (env : Env) (path : List UInt8) (ui : Ui) :
    Ensures (filewinSetPath env path ui) (UiChange env ui) := by
  apply Ensures.ite
  · intro _
    exact .pure (.refl ui)
  · intro _
    exact filewinRefreshList_change env (copyInto filewinPathSize path) none (.refl ui)
      fun _ => copyInto_length path

theorem pathAbove_length (path : List UInt8) : (pathAbove path).length ≤ path.length := by
  have inner := (List.rdropWhile_prefix (· ≠ 0x2F) (path.rdropWhile (· = 0x2F))).length_le
  have outer := (List.rdropWhile_prefix (· = 0x2F) path).length_le
  simp only [pathAbove, List.length_dropLast]
  omega

theorem filewinGoUp_change (env : Env) (ui : Ui) :
    Ensures (filewinGoUp env ui) (UiChange env ui) := by
  apply Ensures.ite
  · intro _
    exact .pure (.refl ui)
  · intro _
    apply Ensures.ite
    · intro _
      exact filewinSetPath_change env pathBaseDir ui
    · intro _
      exact filewinRefreshList_change env (pathAbove ui.filewin.path) ui.filewin.selection
        (.refl ui)
        fun fits => (pathAbove_length ui.filewin.path).trans_lt fits

theorem filewinOpen_change (env : Env) (ui : Ui) :
    Ensures (filewinOpen env ui) (UiChange env ui) := by
  apply Ensures.ite
  · intro _
    exact .pure (.refl ui)
  · intro _
    have placed : UiChange env ui (ui.setWindow .file
        (ui.filewin.window.placed (openRect env .file) true)) :=
      .window ui .file (.opened rfl rfl)
    have moved := placed.trans (.selected _ none false)
    refine UiChange.bind (filewinRefreshList_change env (copyInto filewinPathSize
      ui.session.desktopDir) none moved fun _ => ?_) fun ui => .pure (.front ui .file)
    exact copyInto_length ui.session.desktopDir

theorem filewinDeleteSelection_change (env : Env) (ui : Ui) :
    Ensures (filewinDeleteSelection env ui) (UiChange env ui) := by
  apply Ensures.ite
  · intro _
    exact .pure (.refl ui)
  · intro _
    cases ui.fileSelected with
    | none => exact .pure (.refl ui)
    | some item =>
        apply Ensures.ite
        · intro _
          exact .pure (.refl ui)
        · intro _
          apply UiChange.bind (withVol_change ui _)
          intro written
          apply Ensures.ite
          · intro _
            have listed := filewinRefreshList_change env written.1.filewin.path
              written.1.filewin.selection (UiChange.refl written.1) id
            exact UiChange.bind listed fun ui => desktopRefreshFromPath_change env ui
          · intro _
            exact .pure (.refl _)

theorem filewinMoveSelection_change (env : Env) (down : Bool) (ui : Ui) :
    UiChange env ui (filewinMoveSelection down ui) := by
  unfold filewinMoveSelection
  split
  · exact .refl ui
  · exact .selected ui _ _

/-! ## File picker and name prompt -/

theorem filePickerStart_change (env : Env) (ext : List UInt8) (cb : PickerCb) (ui : Ui)
    (asked : cb = .wavplayPick → ui.wavplay.window.isOpen = true) :
    Ensures (filePickerStart env ext cb ui) (UiChange env ui) := by
  have started : UiChange env ui { ui with picker := ⟨true, (ext.take 4).map toUpper, some cb⟩ } :=
    .picker ui _ fun same => asked (Option.some.inj same)
  have pathSet : ∀ ui : Ui, Ensures (do
      let ui ← filewinSetPath env ui.session.desktopDir ui
      pure { ui with filewin := { ui.filewin with pathFocus := false }, front := .file })
      (UiChange env ui) :=
    fun ui => UiChange.bind (filewinSetPath_change env _ ui) fun ui =>
      .pure (.trans (.selected ui _ false) (.front _ .file))
  apply UiChange.after started
  apply Ensures.ite
  · intro _
    exact UiChange.bind (.pure (.refl _)) pathSet
  · intro _
    exact UiChange.bind (filewinOpen_change env _) pathSet

theorem filePickerHandleSelection_change (env : Env) (fullpath name83 : List UInt8) (ui : Ui) :
    Ensures (filePickerHandleSelection env fullpath name83 ui) (UiChange env ui) := by
  have called : ∀ cb, ui.picker.cb = some cb →
      Ensures (pickerCall env fullpath name83 ui cb) (UiChange env ui) := by
    intro cb asked
    cases cb with
    | notepadFilePick =>
        exact UiChange.bind (notepadOpenPath_change env fullpath ui) fun ui =>
          .pure (.front ui .notepad)
    | wavplayPick =>
        exact .pure (.trans (.picked ui asked)
          (.trans (.document _ _ _ _ _ _ _ (copyInto 128 fullpath) (copyInto 32 name83))
            (.front _ .wavplay)))
  apply Ensures.ite
  · intro _
    exact .pure (.refl ui)
  · intro _
    cases asked : ui.picker.cb with
    | none => exact .pure (.refl ui)
    | some cb =>
        apply UiChange.bind (called cb asked)
        intro ui
        have cancelled : UiChange env ui (filePickerCancel ui) :=
          .picker ui _ fun asked => by simp at asked
        have closed : WindowChange env .file ui.filewin.window
            { ui.filewin.window with isOpen := false } :=
          .kept rfl rfl (fun isOpen => by simp at isOpen) id
        exact .pure ((cancelled.trans (.window _ .file closed)).trans (desktopRender_change env _))

theorem createTxtFileFromPrompt_only (env : Env) (ui : Ui) :
    Ensures (createTxtFileFromPrompt env ui) fun ui' =>
      ∃ notepad front prompt ctxMenu, DesktopOnly { ui with
        notepad := notepad, front := front, prompt := prompt, ctxMenu := ctxMenu } ui' := by
  apply Ensures.bind (ensureVolumeMounted_only env ui)
  rintro ⟨mounted, mountedUi⟩ only
  have done : ∀ last, DesktopOnly ui last → ∃ notepad front prompt ctxMenu, DesktopOnly { ui with
      notepad := notepad, front := front, prompt := prompt, ctxMenu := ctxMenu }
      (promptDone last) := by
    rintro last ⟨vol, mounted, desktop, menu, rfl⟩
    exact ⟨_, _, _, _, vol, mounted, desktop, menu, rfl⟩
  apply Ensures.ite
  · intro _
    exact .pure (done _ only)
  · intro _
    apply Ensures.bind (withVol_only mountedUi _)
    intro written wrote
    apply Ensures.ite
    · intro _
      apply Ensures.bind (desktopRefreshFromPath_only env written.1)
      intro refreshed shown
      apply Ensures.bind (notepadOpenPath_only env _ refreshed)
      rintro opened ⟨notepad, front, noted⟩
      rcases (only.trans wrote).trans shown with ⟨_, _, _, _, rfl⟩
      rcases noted with ⟨vol, mounted, desktop, menu, rfl⟩
      exact .pure ⟨_, _, _, _, vol, mounted, desktop, menu, rfl⟩
    · intro _
      exact .pure (done _ (only.trans wrote))

theorem createTxtFileFromPrompt_change (env : Env) (ui : Ui) :
    Ensures (createTxtFileFromPrompt env ui) (UiChange env ui) := by
  have done : ∀ ui : Ui, UiChange env ui (promptDone ui) := fun ui => .prompted ui _ _
  apply UiChange.bind (ensureVolumeMounted_change env ui)
  intro mounted
  apply Ensures.ite
  · intro _
    exact .pure (done _)
  · intro _
    apply UiChange.bind (withVol_change mounted.2 _)
    intro written
    apply Ensures.ite
    · intro _
      apply UiChange.bind (desktopRefreshFromPath_change env written.1)
      intro refreshed
      apply UiChange.bind (notepadOpenPath_change env _ refreshed)
      intro opened
      exact .pure (.trans (.front opened .notepad) (done _))
    · intro _
      exact .pure (done _)

theorem namePromptCommit_change (env : Env) (ui : Ui) :
    Ensures (namePromptCommit env ui) (UiChange env ui) := by
  have done : ∀ ui : Ui, UiChange env ui (promptDone ui) := fun ui => .prompted ui _ _
  unfold namePromptCommit
  cases ui.prompt.mode with
  | createTxt => exact createTxtFileFromPrompt_change env ui
  | openTxt =>
      apply UiChange.bind (ensureVolumeMounted_change env ui)
      intro mounted
      apply Ensures.ite
      · intro _
        exact UiChange.bind (notepadOpenPath_change env _ _) fun ui =>
          .pure (.trans (.front ui .notepad) (done _))
      · intro _
        exact .pure (done _)
  | saveAs =>
      apply UiChange.bind (ensureVolumeMounted_change env ui)
      intro mounted
      apply Ensures.ite
      · intro _
        exact UiChange.bind (notepadSaveCurrent_change env _ _) fun saved => .pure (done _)
      · intro _
        exact .pure (done _)
  | none => exact .pure (done ui)

/-! ## Menus -/

theorem topmenuApplyAction_change (env : Env) (act : CtxAction) (ui : Ui) :
    Ensures (topmenuApplyAction env act ui) (UiChange env ui) := by
  have asked : UiChange env ui (startSaveAs ui) := .prompted ui _ _
  cases act with
  | notepadNew => exact .pure (.edited ui _ _ _)
  | notepadOpen => exact filePickerStart_change env _ _ ui fun other => by simp at other
  | notepadSave =>
      apply Ensures.ite
      · intro _
        exact .pure asked
      · intro _
        exact UiChange.bind (notepadSaveCurrent_change env none ui) fun saved => .pure (.refl _)
  | notepadSaveAs => exact .pure asked
  | notepadClose => exact .pure (notepadClose_change env ui)
  | winMinimize => exact .pure (minimizeFront_change env ui)
  | winToggleMax => exact .pure (toggleMaximizeFront_change env ui)
  | newTxt => exact .pure (.refl ui)
  | refreshDesktop => exact .pure (.refl ui)
  | fileRefresh => exact .pure (.refl ui)
  | fileOpen => exact .pure (.refl ui)
  | fileUp => exact .pure (.refl ui)

theorem topmenuClickTitle_change (env : Env) (mx my : Int) (ui : Ui) :
    UiChange env ui (topmenuClickTitle env mx my ui).2 := by
  unfold topmenuClickTitle
  split
  · exact .desktop ⟨_, _, _, _, rfl⟩
  · exact .refl ui

theorem topmenuHandleClick_change (env : Env) (mx my : Int) (ui : Ui) :
    Ensures (topmenuHandleClick env mx my ui) fun result => UiChange env ui result.2 := by
  have closed : ∀ ui : Ui, UiChange env ui { ui with topmenuOpen := none } :=
    fun ui => .desktop ⟨_, _, _, _, rfl⟩
  have title : Ensures (pure (topmenuClickTitle env mx my ui)) fun result : Bool × Ui =>
      UiChange env ui result.2 := .pure (topmenuClickTitle_change env mx my ui)
  apply Ensures.ite
  · intro _
    exact .pure (closed ui)
  · intro _
    cases ui.topmenuOpen with
    | none => exact title
    | some menu =>
        apply Ensures.ite
        · intro _
          split
          · apply UiChange.bind (topmenuApplyAction_change env _ ui)
            intro ui
            exact .pure ((closed ui).trans (desktopRender_change env _))
          · exact title
        · intro _
          exact .pure (closed ui)

theorem fileOpenSelected_change (env : Env) (ui : Ui) :
    Ensures (fileOpenSelected env ui) (UiChange env ui) := by
  unfold fileOpenSelected
  cases ui.fileSelected with
  | none => exact .pure (.refl ui)
  | some item =>
      apply Ensures.ite
      · intro _
        exact filewinSetPath_change env _ ui
      · intro _
        apply Ensures.ite
        · intro _
          exact notepadOpenPath_change env _ ui
        · intro _
          exact .pure (.refl ui)

theorem ctxMenuAction_change (env : Env) (ui : Ui) (act : CtxAction) :
    Ensures (ctxMenuAction env ui act) (UiChange env ui) := by
  cases act with
  | newTxt => exact .pure (.prompted ui _ _)
  | refreshDesktop => exact desktopRefreshFromPath_change env ui
  | notepadNew => exact .pure (.edited ui _ _ _)
  | notepadOpen => exact filePickerStart_change env _ _ ui fun other => by simp at other
  | notepadSave =>
      exact UiChange.bind (notepadSaveCurrent_change env none ui) fun saved => .pure (.refl _)
  | notepadSaveAs => exact .pure (.prompted ui _ _)
  | notepadClose => exact .pure (notepadClose_change env ui)
  | fileRefresh =>
      exact filewinRefreshList_change env ui.filewin.path ui.filewin.selection (.refl ui) id
  | fileOpen => exact fileOpenSelected_change env ui
  | fileUp => exact filewinGoUp_change env ui
  | winMinimize => exact topmenuApplyAction_change env .winMinimize ui
  | winToggleMax => exact topmenuApplyAction_change env .winToggleMax ui

theorem ctxMenuClick_change (env : Env) (mx my : Int) (ui : Ui) :
    Ensures (ctxMenuClick env mx my ui) (UiChange env ui) := by
  have hidden : ∀ ui : Ui, UiChange env ui (ctxMenuHide ui) := fun ui => .prompted ui _ _
  apply Ensures.ite
  · intro _
    split
    · exact UiChange.bind (ctxMenuAction_change env ui _) fun ui => .pure (hidden ui)
    · exact .pure (.refl ui)
  · intro _
    exact .pure (hidden ui)

theorem launchToggle_change (env : Env) (shown : Bool) (ui : Ui) :
    Ensures (launchToggle env shown ui) (UiChange env ui) := by
  have refreshed : Ensures (launchRefreshItems env ui) (UiChange env ui) := by
    apply Ensures.ite
    · intro _
      exact .pure (.launched ui _)
    · intro _
      exact UiChange.bind (withVol_change ui _) fun result => .pure (.launched result.1 _)
  apply Ensures.ite
  · intro _
    exact UiChange.bind refreshed fun ui => .pure (.launched ui _)
  · intro _
    exact .pure (.launched ui _)

theorem taskbarClick_change (env : Env) (mx my : Int) (ui : Ui) :
    Ensures (taskbarClick env mx my ui) (UiChange env ui) := by
  have quick : ∀ (ui : Ui) entry, Ensures (quickLaunch env ui entry) (UiChange env ui) := by
    intro ui entry
    cases entry with
    | file => exact UiChange.bind (filewinOpen_change env ui) fun ui => .pure (.front ui _)
    | taskmgr => exact .pure ((taskmgrOpen_change env ui).trans (.front _ _))
    | terminal => exact .pure ((terminalOpen_change env ui).trans (.front _ _))
    | wavplay => exact .pure ((wavplayOpen_change env ui).trans (.front _ _))
  have button : ∀ (ui : Ui) y, UiChange env ui (wmHandleTaskbarClick mx my y 32 80 ui) := by
    intro ui y
    unfold wmHandleTaskbarClick
    split
    · exact .refl ui
    · next id _ =>
        have raised : UiChange env ui { ui with front := id } := .front ui id
        have toggled := raised.trans (.minimized _ id (!(ui.window id).minimized))
        cases id <;> exact toggled.trans (desktopRender_change env _)
  apply Ensures.ite
  · intro _
    exact launchToggle_change env _ ui
  · intro _
    have hidden : UiChange env ui { ui with launch := { ui.launch with visible := false } } :=
      .launched ui _
    apply UiChange.after hidden
    split
    · exact UiChange.bind (quick _ _) fun ui => .pure (desktopRender_change env ui)
    · exact .pure (button _ _)

/-! ## Clicks into windows and on the desktop -/

theorem notepadClick_change (env : Env) (input : Input) (ui : Ui) :
    Ensures (notepadClick env input ui) fun result => UiChange env ui result.2 := by
  unfold notepadClick
  dsimp only
  split
  · exact .pure (.edited ui _ _ _)
  · exact UiChange.bind (filePickerStart_change env _ _ ui fun other => by simp at other) fun ui =>
      .pure (.refl ui)
  · apply Ensures.ite
    · intro _
      exact .pure (.prompted ui _ _)
    · intro _
      exact UiChange.bind (notepadSaveCurrent_change env none ui) fun saved => .pure (.refl _)
  · exact .ite (fun _ => .pure (.minimized ui .notepad true)) fun _ =>
      .ite (fun _ => .pure (.window ui .notepad .toggled)) fun _ =>
      .ite (fun _ => .pure (notepadClose_change env ui)) fun _ => .pure (.refl ui)

theorem openFileItem_change (env : Env) (input : Input) (item : DesktopItem) (ui : Ui) :
    Ensures (openFileItem env input item ui) (UiChange env ui) := by
  have nothing : Ensures (pure ui : DiskM Ui) (UiChange env ui) := .pure (.refl ui)
  refine .ite (fun _ => filewinSetPath_change env _ ui) fun _ => .ite (fun _ => .ite (fun _ =>
    filePickerHandleSelection_change env _ _ ui) fun _ => nothing) fun _ => .ite (fun _ =>
    notepadOpenPath_change env _ ui) fun _ => .ite (fun _ => ?_) fun _ => nothing
  exact imgviewOpenPath_change env input _ ui

theorem filewinClick_change (env : Env) (input : Input) (ui : Ui) :
    Ensures (filewinClick env input ui) fun result => UiChange env ui result.2 := by
  have focused : ∀ focus,
      UiChange env ui { ui with filewin := { ui.filewin with pathFocus := focus } } :=
    fun focus => .selected ui _ focus
  have listed : ∀ idx, Ensures (listClick env input idx ui) (UiChange env ui) := by
    intro idx
    apply Ensures.ite
    · intro _
      exact .pure (.refl ui)
    · intro _
      split
      · exact .pure (.refl ui)
      · have selected : UiChange env ui { ui with
            fileLastClick := input.jiffies
            fileLastIdx := some idx.toNat
            filewin := { ui.filewin with selection := some idx.toNat, pathFocus := false } } :=
          .trans (.selected ui (some idx.toNat) false) (.shell _ _ _ _ _ _ _ _ _ _)
        apply Ensures.ite
        · intro _
          exact UiChange.after selected (openFileItem_change env input _ _)
        · intro _
          exact .pure selected
  apply Ensures.ite
  · intro _
    exact .pure (focused true)
  · intro _
    split
    · apply UiChange.after (focused false)
      exact UiChange.bind (filewinSetPath_change env _ _) fun ui => .pure (.refl ui)
    · split
      · exact UiChange.bind (listed _) fun ui => .pure (.refl ui)
      · exact .pure (.refl ui)

theorem wavplayClick_change (env : Env) (input : Input) (ui : Ui)
    (isOpen : ui.wavplay.window.isOpen = true) :
    Ensures (wavplayClick env input ui) fun result => UiChange env ui result.2 := by
  apply Ensures.ite
  · intro _
    exact UiChange.bind (filePickerStart_change env _ _ ui fun _ => isOpen) fun ui =>
      .pure (.refl ui)
  · intro _
    apply Ensures.ite
    · intro _
      apply Ensures.ite
      · intro _
        exact .pure (.refl ui)
      · intro _
        have played : Ensures (soundPlayWavPath env input ui.wavplay.path ui) (UiChange env ui) :=
          (soundPlayWavPath_only env input ui.wavplay.path ui).mono fun _ => .desktop
        exact UiChange.bind played fun ui => .pure (.refl ui)
    · intro _
      exact .pure (.refl ui)

theorem desktopClick_change (env : Env) (input : Input) (ui : Ui) :
    Ensures (desktopClick env input ui) (UiChange env ui) := by
  have opened : ∀ (ui : Ui) item,
      Ensures (openDesktopItem env input item ui) (UiChange env ui) := by
    intro ui item
    have nothing : Ensures (pure ui : DiskM Ui) (UiChange env ui) := .pure (.refl ui)
    exact .ite (fun _ => nothing) fun _ => .ite (fun _ => notepadOpenPath_change env _ ui)
      fun _ => .ite (fun _ => imgviewOpenPath_change env input _ ui) fun _ => nothing
  apply Ensures.ite
  · intro _
    exact .pure (.refl ui)
  · intro _
    split
    · exact .pure (.refl ui)
    · next hit _ =>
        have selected : UiChange env ui { ui with desktop := { ui.desktop with
            selection := some hit
            lastClickTick := input.jiffies
            lastClickIndex := some hit } } := .desktop ⟨_, _, _, _, rfl⟩
        apply UiChange.after selected
        dsimp only
        split
        · exact .pure (.refl _)
        · apply Ensures.ite
          · intro _
            exact opened _ _
          · intro _
            exact .pure (.refl _)

theorem windowClick_change (env : Env) (input : Input) (ui : Ui) :
    Ensures (windowClick env input ui) fun result => UiChange env ui result.2 := by
  have front : Ensures (frontClick env input ui) fun result => UiChange env ui result.2 := by
    refine .ite (fun _ => .pure (.refl ui)) fun shown => .ite (fun _ =>
      notepadClick_change env input ui) fun _ => .ite (fun _ =>
      .pure (closeWindow_change env ui _)) fun _ => .ite (fun _ =>
      filewinClick_change env input ui) fun _ => .ite (fun front => ?_) fun _ => .pure (.refl ui)
    simp only [front, Window.shown, Ui.window, Bool.not_eq_true', Bool.and_eq_false_iff, not_or,
      Bool.not_eq_false] at shown
    exact wavplayClick_change env input ui shown.1
  apply UiChange.bind front
  intro result
  apply Ensures.ite
  · intro _
    exact .pure (.refl _)
  · intro _
    exact UiChange.bind (desktopClick_change env input _) fun ui => .pure (.refl ui)

end ParanOS

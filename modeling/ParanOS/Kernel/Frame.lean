import ParanOS.Foundation.Rules
import ParanOS.Kernel.Loop

/-! # What the handlers leave alone

For every handler of the event loop, what of the state it can change. Handlers
that only use the disk and the desktop are described by the fields that may
differ afterwards. The handlers of the Explorer also change its path, but list
the new path at once; so the path stays inside its array, and the items come
from the directory under the path.
-/

namespace ParanOS

open Foundation

/-! ## Handlers of the disk and the desktop -/

/-- Nothing differs but what is noted of the volume, the desktop and the open
menu of the top bar. -/
def DesktopOnly (ui ui' : Ui) : Prop :=
  ∃ vol mounted desktop menu, ui' = { ui with
    vol := vol, volMounted := mounted, desktop := desktop, topmenuOpen := menu }

namespace DesktopOnly

theorem refl (ui : Ui) : DesktopOnly ui ui :=
  ⟨ui.vol, ui.volMounted, ui.desktop, ui.topmenuOpen, rfl⟩

theorem trans {first second third : Ui} (before : DesktopOnly first second)
    (after : DesktopOnly second third) : DesktopOnly first third := by
  rcases before with ⟨_, _, _, _, rfl⟩
  rcases after with ⟨vol, mounted, desktop, menu, rfl⟩
  exact ⟨vol, mounted, desktop, menu, rfl⟩

/-- Handlers one after another. -/
theorem bind {α β : Type} {ui : Ui} {program : DiskM α} {rest : α → DiskM β}
    {middle : α → Ui} {final : β → Ui}
    (first : Ensures program fun result => DesktopOnly ui (middle result))
    (second : ∀ result, Ensures (rest result) fun value =>
      DesktopOnly (middle result) (final value)) :
    Ensures (program >>= rest) fun value => DesktopOnly ui (final value) :=
  Ensures.bind first fun result before => (second result).mono fun _ => trans before

/-- A handler that starts from a state which was changed before. -/
theorem after {α : Type} {ui changed : Ui} {program : DiskM α} {final : α → Ui}
    (before : DesktopOnly ui changed)
    (ensured : Ensures program fun value => DesktopOnly changed (final value)) :
    Ensures program fun value => DesktopOnly ui (final value) :=
  ensured.mono fun _ => trans before

end DesktopOnly

theorem desktopRender_only (ui : Ui) : DesktopOnly ui (desktopRender ui) := by
  unfold desktopRender
  split
  · exact .refl ui
  · exact ⟨_, _, _, none, rfl⟩

theorem withVol_only {α : Type} (ui : Ui) (call : Vol → DiskM (Vol × α)) :
    Ensures (ui.withVol call) fun result => DesktopOnly ui result.1 :=
  Ensures.bind (.trivial _) fun result _ => .pure ⟨result.1, _, _, _, rfl⟩

theorem ensureUserDirsOnDisk_only (env : Env) (uname : List UInt8) (ui : Ui) :
    Ensures (ensureUserDirsOnDisk env uname ui) (DesktopOnly ui) := by
  apply Ensures.ite
  · intro _
    exact .pure (.refl ui)
  · intro _
    apply Ensures.foldlM _ _ (DesktopOnly.refl ui)
    intro current dir before
    apply DesktopOnly.after before
    exact DesktopOnly.bind (withVol_only current _) fun result => .pure (.refl _)

theorem desktopRefreshFromPath_only (env : Env) (ui : Ui) :
    Ensures (desktopRefreshFromPath env ui) (DesktopOnly ui) := by
  apply Ensures.ite
  · intro _
    exact .pure (.refl ui)
  · intro _
    apply DesktopOnly.bind (ensureUserDirsOnDisk_only env _ ui)
    intro ui
    apply DesktopOnly.bind (withVol_only ui _)
    intro result
    have filled : ∀ items, DesktopOnly result.1 (desktopSetItems items result.1) :=
      fun items => ⟨_, _, _, _, rfl⟩
    apply Ensures.ite
    · intro _
      exact .pure ((filled _).trans (desktopRender_only _))
    · intro _
      exact .pure (filled [])

theorem ensureVolumeMounted_only (env : Env) (ui : Ui) :
    Ensures (ensureVolumeMounted env ui) fun result => DesktopOnly ui result.2 := by
  apply Ensures.ite
  · intro _
    exact .pure (.refl ui)
  · intro _
    apply Ensures.ite
    · intro _
      exact .pure (.refl ui)
    · intro _
      apply Ensures.bind (.trivial _)
      intro sector _
      cases sector with
      | none => exact .pure (.refl ui)
      | some sec0 =>
          apply Ensures.bind (.trivial _)
          intro mount _
          have noted : ∀ mounted, DesktopOnly ui
              { ui with vol := mount.2, volMounted := mounted } :=
            fun mounted => ⟨_, _, _, _, rfl⟩
          apply Ensures.ite
          · intro _
            apply DesktopOnly.after (noted true)
            apply DesktopOnly.bind (ensureUserDirsOnDisk_only env _ _)
            intro ui
            exact DesktopOnly.bind (desktopRefreshFromPath_only env ui) fun ui => .pure (.refl ui)
          · intro _
            exact .pure (noted ui.volMounted)

theorem desktopMoveSelection_only (down : Bool) (ui : Ui) :
    DesktopOnly ui (desktopMoveSelection down ui) := by
  unfold desktopMoveSelection
  split
  · exact .refl ui
  · exact ⟨_, _, _, _, rfl⟩

theorem desktopDeleteSelection_only (env : Env) (ui : Ui) :
    Ensures (desktopDeleteSelection env ui) (DesktopOnly ui) := by
  unfold desktopDeleteSelection
  cases ui.desktopSelected with
  | none => exact .pure (.refl ui)
  | some item =>
      apply Ensures.ite
      · intro _
        exact .pure (.refl ui)
      · intro _
        apply DesktopOnly.bind (withVol_only ui _)
        intro result
        apply Ensures.ite
        · intro _
          exact desktopRefreshFromPath_only env result.1
        · intro _
          exact .pure (.refl _)

theorem soundPlayWavPath_only (env : Env) (input : Input) (path : List UInt8) (ui : Ui) :
    Ensures (soundPlayWavPath env input path ui) (DesktopOnly ui) := by
  apply Ensures.ite
  · intro _
    exact .pure (.refl ui)
  · intro _
    exact DesktopOnly.bind (withVol_only ui _) fun result => .pure (.refl _)

/-! ## The login record and the path of the Explorer -/

/-- The items of the Explorer were listed under the path it shows. -/
def Coherent (ui : Ui) : Prop := ui.fileItems ≠ [] → ui.listedPath = ui.filewin.path

/-- The path is a string inside its array. -/
def PathFits (ui : Ui) : Prop := ui.filewin.path.length < filewinPathSize

structure Steady (ui ui' : Ui) : Prop where
  login : ui'.login = ui.login
  fits : PathFits ui → PathFits ui'
  coherent : Coherent ui → Coherent ui'

namespace Steady

theorem trans {first second third : Ui} (before : Steady first second)
    (after : Steady second third) : Steady first third :=
  ⟨after.login.trans before.login, after.fits ∘ before.fits, after.coherent ∘ before.coherent⟩

end Steady

theorem DesktopOnly.steady {ui ui' : Ui} (only : DesktopOnly ui ui') : Steady ui ui' := by
  rcases only with ⟨_, _, _, _, rfl⟩
  exact ⟨rfl, id, id⟩

/-! ## What handlers change -/

/-- Where a window is shown when it is opened. Display Settings would be opened
by its button on the taskbar, which only open windows have. -/
def openRect (env : Env) : WinId → Rect
  | .notepad => ⟨120, 80, if env.fbWidth > 400 then env.fbWidth - 240 else 320,
      if env.fbHeight > 200 then env.fbHeight - 160 else 160⟩
  | .file => ⟨80, 80, if env.fbWidth > 500 then env.fbWidth - 200 else 320,
      if env.fbHeight > 300 then env.fbHeight - 220 else 180⟩
  | .taskmgr => ⟨120, 100, if env.fbWidth > 480 then env.fbWidth - 240 else 360,
      if env.fbHeight > 260 then env.fbHeight - 260 else 200⟩
  | .display => ⟨140, 120, 360, 160⟩
  | .terminal => ⟨180, 120, if env.fbWidth > 420 then env.fbWidth - 260 else 360,
      if env.fbHeight > 260 then env.fbHeight - 260 else 220⟩
  | .imgview => ⟨160, 110, if env.fbWidth > 520 then env.fbWidth - 220 else 360,
      if env.fbHeight > 360 then env.fbHeight - 260 else 220⟩
  | .wavplay => ⟨200, 140, 360, 160⟩

/-- What a handler may do to the record of a window. -/
inductive WindowChange (env : Env) (id : WinId) (window : Window) : Window → Prop
  /-- The window stays where it is; it may be closed or minimised. -/
  | kept {window'} (rect : window'.rect = window.rect) (prev : window'.prev = window.prev)
      (isOpen : window'.isOpen = true → window.isOpen = true)
      (maximized : window'.maximized = true → window.maximized = true) :
      WindowChange env id window window'
  | opened {window'} (rect : window'.rect = openRect env id)
      (restored : window'.maximized = false) : WindowChange env id window window'
  | toggled : WindowChange env id window (window.toggleMaximize env)

/-- What the handlers of the event loop do to the state, other than dragging,
typing into the path bar, logging in and logging out. -/
inductive UiChange (env : Env) : Ui → Ui → Prop
  | trans {first second third : Ui} :
      UiChange env first second → UiChange env second third → UiChange env first third
  | desktop {ui ui' : Ui} (only : DesktopOnly ui ui') : UiChange env ui ui'
  | shell (ui : Ui) (prevLeft prevRight front lastClick lastIdx prompt ctxMenu launch session) :
      UiChange env ui { ui with
        prevLeft := prevLeft, prevRight := prevRight, front := front
        fileLastClick := lastClick, fileLastIdx := lastIdx, prompt := prompt
        ctxMenu := ctxMenu, launch := launch, session := session }
  | document (ui : Ui) (name text path resizing img imgPath wavPath wavName) :
      UiChange env ui { ui with
        notepad := { ui.notepad with name := name, text := text, path := path }
        imgview := { ui.imgview with resizing := resizing, img := img, path := imgPath }
        wavplay := { ui.wavplay with path := wavPath, name := wavName } }
  | selected (ui : Ui) (selection focus) :
      UiChange env ui { ui with
        filewin := { ui.filewin with selection := selection, pathFocus := focus } }
  /-- The Explorer goes to a path and lists it. -/
  | listed (ui : Ui) (path selection items status)
      (fits : PathFits ui → path.length < filewinPathSize) :
      UiChange env ui { ui with
        filewin := { ui.filewin with path := path, selection := selection }
        fileItems := items, fileStatus := status, listedPath := path }
  /-- Only the WAV Player asks for a WAV file. -/
  | picker (ui : Ui) (picker : FilePicker)
      (asked : picker.cb = some .wavplayPick → ui.wavplay.window.isOpen = true) :
      UiChange env ui { ui with picker := picker }
  | window (ui : Ui) (id : WinId) {window : Window}
      (change : WindowChange env id (ui.window id) window) :
      UiChange env ui (ui.setWindow id window)
  /-- The file that the WAV Player asked for is picked. -/
  | picked (ui : Ui) (asked : ui.picker.cb = some .wavplayPick) :
      UiChange env ui (ui.setWindow .wavplay
        { ui.wavplay.window with isOpen := true, minimized := false })

namespace UiChange

theorem refl {env : Env} (ui : Ui) : UiChange env ui ui := .desktop (.refl ui)

/-- Handlers one after another. -/
theorem bind {env : Env} {α β : Type} {ui : Ui} {program : DiskM α} {rest : α → DiskM β}
    {middle : α → Ui} {final : β → Ui}
    (first : Ensures program fun result => UiChange env ui (middle result))
    (second : ∀ result, Ensures (rest result) fun value =>
      UiChange env (middle result) (final value)) :
    Ensures (program >>= rest) fun value => UiChange env ui (final value) :=
  Ensures.bind first fun result before => (second result).mono fun _ => .trans before

/-- A handler that starts from a state which was changed before. -/
theorem after {env : Env} {α : Type} {ui changed : Ui} {program : DiskM α} {final : α → Ui}
    (before : UiChange env ui changed)
    (ensured : Ensures program fun value => UiChange env changed (final value)) :
    Ensures program fun value => UiChange env ui (final value) :=
  ensured.mono fun _ => .trans before

theorem front {env : Env} (ui : Ui) (id : WinId) : UiChange env ui { ui with front := id } :=
  .shell ui _ _ id _ _ _ _ _ _

theorem prompted {env : Env} (ui : Ui) (prompt : NamePrompt) (ctxMenu : CtxMenu) :
    UiChange env ui { ui with prompt := prompt, ctxMenu := ctxMenu } :=
  .shell ui _ _ _ _ _ prompt ctxMenu _ _

theorem launched {env : Env} (ui : Ui) (launch : LaunchMenu) :
    UiChange env ui { ui with launch := launch } :=
  .shell ui _ _ _ _ _ _ _ launch _

theorem edited {env : Env} (ui : Ui) (name text path : List UInt8) :
    UiChange env ui { ui with
      notepad := { ui.notepad with name := name, text := text, path := path } } :=
  .document ui name text path _ _ _ _ _

theorem steady {env : Env} {ui ui' : Ui} (change : UiChange env ui ui') : Steady ui ui' := by
  induction change with
  | trans _ _ before after => exact before.trans after
  | desktop only => exact only.steady
  | shell ui => exact ⟨rfl, id, id⟩
  | document ui => exact ⟨rfl, id, id⟩
  | selected ui => exact ⟨rfl, id, id⟩
  | listed ui path selection items status fits => exact ⟨rfl, fits, fun _ _ => rfl⟩
  | picker ui => exact ⟨rfl, id, id⟩
  | window ui id => cases id <;> exact ⟨rfl, fun holds => holds, fun holds => holds⟩
  | picked ui => exact ⟨rfl, id, id⟩

end UiChange

theorem desktopRender_change (env : Env) (ui : Ui) : UiChange env ui (desktopRender ui) :=
  .desktop (desktopRender_only ui)

theorem withVol_change {env : Env} {α : Type} (ui : Ui) (call : Vol → DiskM (Vol × α)) :
    Ensures (ui.withVol call) fun result => UiChange env ui result.1 :=
  (withVol_only ui call).mono fun _ => .desktop

theorem desktopRefreshFromPath_change (env : Env) (ui : Ui) :
    Ensures (desktopRefreshFromPath env ui) (UiChange env ui) :=
  (desktopRefreshFromPath_only env ui).mono fun _ => .desktop

theorem ensureVolumeMounted_change (env : Env) (ui : Ui) :
    Ensures (ensureVolumeMounted env ui) fun result => UiChange env ui result.2 :=
  (ensureVolumeMounted_only env ui).mono fun _ => .desktop

/-! ### Windows -/

/-- A window that is opened at its place and brought to the front. -/
theorem UiChange.opened {env : Env} (ui : Ui) (id : WinId) (window : Window)
    (rect : window.rect = openRect env id) (restored : window.maximized = false) :
    UiChange env ui { ui.setWindow id window with front := id } :=
  .trans (.window ui id (.opened rect restored)) (.front _ id)

theorem taskmgrOpen_change (env : Env) (ui : Ui) : UiChange env ui (taskmgrOpen env ui) := by
  unfold taskmgrOpen
  split
  · exact .refl ui
  · exact .opened ui .taskmgr (ui.taskmgr.placed (openRect env .taskmgr) true) rfl rfl

theorem terminalOpen_change (env : Env) (ui : Ui) : UiChange env ui (terminalOpen env ui) := by
  unfold terminalOpen
  split
  · exact .refl ui
  · exact .opened ui .terminal (ui.terminal.placed (openRect env .terminal) true) rfl rfl

theorem wavplayOpen_change (env : Env) (ui : Ui) : UiChange env ui (wavplayOpen ui) := by
  unfold wavplayOpen
  split
  · exact .refl ui
  · exact .trans (.opened ui .wavplay { ui.wavplay.window.placed (openRect env .wavplay) false with
      dragging := false } rfl rfl) (.document _ _ _ _ _ _ _ [] [])

theorem Window.closed_change (env : Env) (id : WinId) (window : Window) :
    WindowChange env id window window.closed :=
  .kept rfl rfl (fun isOpen => by simp [Window.closed] at isOpen)
    fun maximized => by simp [Window.closed] at maximized

theorem notepadClose_change (env : Env) (ui : Ui) : UiChange env ui (notepadClose ui) :=
  .trans (.window ui .notepad (Window.closed_change env _ _)) (desktopRender_change env _)

theorem closeWindow_change (env : Env) (ui : Ui) (id : WinId) :
    UiChange env ui (closeWindow ui id) := by
  have closed : ∀ (ui : Ui) id, UiChange env ui (ui.setWindow id (ui.window id).closed) :=
    fun ui id => .window ui id (Window.closed_change env id _)
  have rendered : ∀ {changed}, UiChange env ui changed → UiChange env ui (desktopRender changed) :=
    fun before => before.trans (desktopRender_change env _)
  have cancelled : ∀ changed, UiChange env changed (filePickerCancel changed) :=
    fun changed => .picker changed _ fun asked => by simp at asked
  cases id with
  | notepad => exact notepadClose_change env ui
  | file => exact rendered (.trans (closed ui .file) (cancelled _))
  | imgview =>
      exact rendered (.trans (closed ui .imgview) (.document _ _ _ _ false none _ _ _))
  | wavplay =>
      exact rendered (.window ui .wavplay
        (.kept rfl rfl (fun isOpen => by simp at isOpen) fun maximized => maximized))
  | taskmgr => exact rendered (closed ui .taskmgr)
  | display => exact rendered (closed ui .display)
  | terminal => exact rendered (closed ui .terminal)

/-- A window is minimised or shown again. -/
theorem UiChange.minimized {env : Env} (ui : Ui) (id : WinId) (minimized : Bool) :
    UiChange env ui (ui.setWindow id { ui.window id with minimized := minimized }) :=
  .window ui id (.kept rfl rfl (fun isOpen => isOpen) fun maximized => maximized)

theorem minimizeFront_change (env : Env) (ui : Ui) : UiChange env ui (minimizeFront ui) := by
  simp only [minimizeFront]
  split
  · exact .refl ui
  · split
    · exact .minimized ui _ true
    · exact .refl ui

theorem toggleMaximizeFront_change (env : Env) (ui : Ui) :
    UiChange env ui (toggleMaximizeFront env ui) := by
  unfold toggleMaximizeFront
  split
  · exact .refl ui
  · exact .window ui _ .toggled

/-! ### Text Editor and Image Viewer -/

theorem notepadOpenPath_only (env : Env) (fullpath : List UInt8) (ui : Ui) :
    Ensures (notepadOpenPath env fullpath ui) fun ui' =>
      ∃ notepad front, DesktopOnly { ui with notepad := notepad, front := front } ui' := by
  apply Ensures.ite
  · intro _
    exact .pure ⟨_, _, .refl _⟩
  · intro _
    apply Ensures.bind (withVol_only _ _)
    intro opened changed
    rcases opened with ⟨opened, result⟩
    rcases changed with ⟨vol, mounted, desktop, menu, changed⟩
    dsimp only at changed
    subst changed
    exact .pure ⟨_, _, vol, mounted, desktop, menu, rfl⟩

theorem notepadOpenPath_change (env : Env) (fullpath : List UInt8) (ui : Ui) :
    Ensures (notepadOpenPath env fullpath ui) (UiChange env ui) := by
  apply Ensures.ite
  · intro _
    exact .pure (.refl ui)
  · intro _
    apply Ensures.bind (withVol_only _ _)
    intro opened changed
    rcases opened with ⟨opened, result⟩
    rcases changed with ⟨vol, mounted, desktop, menu, changed⟩
    dsimp only at changed
    subst changed
    have read : DesktopOnly ui { ui with
        vol := vol, volMounted := mounted, desktop := desktop, topmenuOpen := menu } :=
      ⟨vol, mounted, desktop, menu, rfl⟩
    exact .pure (.trans (.desktop read) (.trans
      (.opened _ .notepad (Window.zero.placed (openRect env .notepad) true) rfl rfl)
      (.document _ _ _ _ _ _ _ _ _)))

theorem notepadSaveCurrent_change (env : Env) (nameOverride : Option (List UInt8)) (ui : Ui) :
    Ensures (notepadSaveCurrent env nameOverride ui) fun result => UiChange env ui result.2 := by
  apply UiChange.bind (ensureVolumeMounted_change env ui)
  intro mounted
  apply Ensures.ite
  · intro _
    exact .pure (.refl _)
  · intro _
    apply UiChange.bind (withVol_change mounted.2 _)
    intro written
    have named : ∀ fullpath, UiChange env written.1 (notepadSetPathAndName fullpath written.1) :=
      fun fullpath => .edited _ _ _ _
    apply Ensures.ite
    · intro _
      apply UiChange.after (named _)
      exact UiChange.bind (desktopRefreshFromPath_change env _) fun ui => .pure (.refl ui)
    · intro _
      exact .pure (.refl _)

theorem imgviewLoadBmp_change (env : Env) (input : Input) (fullpath : List UInt8) (ui : Ui) :
    Ensures (imgviewLoadBmp env input fullpath ui) fun result => UiChange env ui result.1 := by
  apply UiChange.bind (withVol_change ui _)
  intro header
  have none : Ensures (pure (header.1, none) : DiskM (Ui × Option Image)) fun result =>
      UiChange env header.1 result.1 := .pure (.refl _)
  apply Ensures.ite (fun _ => none) fun _ => .ite (fun _ => none) fun _ => .ite (fun _ => none)
    fun _ => .ite (fun _ => none) fun _ => ?_
  apply UiChange.bind (withVol_change header.1 _)
  intro full
  apply Ensures.ite
  · intro _
    exact .pure (.refl _)
  · intro _
    exact .pure (.refl _)

theorem imgviewOpenPath_change (env : Env) (input : Input) (fullpath : List UInt8) (ui : Ui) :
    Ensures (imgviewOpenPath env input fullpath ui) (UiChange env ui) := by
  apply Ensures.ite
  · intro _
    exact .pure (.refl ui)
  · intro _
    apply UiChange.bind (ensureVolumeMounted_change env ui)
    intro mounted
    apply Ensures.ite
    · intro _
      exact .pure (.refl _)
    · intro _
      apply UiChange.bind (imgviewLoadBmp_change env input fullpath mounted.2)
      intro result
      rcases result with ⟨ui, loaded⟩
      cases loaded with
      | none => exact .pure (.refl ui)
      | some img =>
          exact .pure (.trans
            (.opened ui .imgview (ui.imgview.window.placed (openRect env .imgview) true) rfl rfl)
            (.document _ _ _ _ _ (some img) _ _ _))

end ParanOS

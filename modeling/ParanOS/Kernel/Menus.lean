import ParanOS.Kernel.Apps

/-! # Menus and bars

The context menu, the top menu, the launch menu and the taskbar of `kernel.c`
and `wm.c`. Functions that may take a click return whether they did.
-/

namespace ParanOS

open Foundation

def pointInRect (mx my x y w h : Int) : Bool :=
  decide (x ≤ mx ∧ mx < x + w ∧ y ≤ my ∧ my < y + h)

/-- A click into a window, with its frame and title bar. -/
def Rect.hit (rect : Rect) (mx my : Int) : Bool :=
  pointInRect mx my (rect.wx - 2) (rect.wy - 24) (rect.ww + 4) (rect.wh + 26)

/-! ## Top menu -/

/-- The first window in front that can be minimised is; the WAV Player has no
case. -/
def minimizeFront (ui : Ui) : Ui :=
  if ui.front = .wavplay then ui
  else
    let window := ui.window ui.front
    if window.canMinimize then ui.setWindow ui.front { window with minimized := true } else ui

/-- Display Settings and the WAV Player have no case. -/
def toggleMaximizeFront (env : Env) (ui : Ui) : Ui :=
  if ui.front = .display ∨ ui.front = .wavplay then ui
  else ui.setWindow ui.front ((ui.window ui.front).toggleMaximize env)

def topmenuApplyAction (env : Env) (act : CtxAction) (ui : Ui) : DiskM Ui :=
  match act with
  | .notepadNew => pure (notepadNew ui)
  | .notepadOpen => filePickerStart env (ascii "TXT") .notepadFilePick ui
  | .notepadSave =>
      if ui.notepad.name = [] then pure (startSaveAs ui)
      else do
        let (_, ui) ← notepadSaveCurrent env none ui
        pure ui
  | .notepadSaveAs => pure (startSaveAs ui)
  | .notepadClose => pure (notepadClose ui)
  | .winMinimize => pure (minimizeFront ui)
  | .winToggleMax => pure (toggleMaximizeFront env ui)
  | _ => pure ui

/-- Labels and actions of the menus "File" and "Window". -/
def topmenuGetMenu (menu : Nat) : List (List UInt8 × CtxAction) :=
  if menu = 0 then
    [(ascii "New", .notepadNew), (ascii "Open...", .notepadOpen), (ascii "Save", .notepadSave),
      (ascii "Save As...", .notepadSaveAs), (ascii "Close", .notepadClose)]
  else [(ascii "Minimize", .winMinimize), (ascii "Toggle Maximize", .winToggleMax)]

/-- Place and width of the titles "File" and "Window". -/
def topmenuTitle (env : Env) (menu : Nat) : Int × Int :=
  if menu = 0 then (96, 4 * env.psfWidth + 12)
  else (96 + (4 * env.psfWidth + 12) + 14, 6 * env.psfWidth + 12)

def topbarH : Int := 32

def longestLabel (items : List (List UInt8 × CtxAction)) : Nat :=
  (items.map fun item => item.1.length).foldl max 0

/-- A click into the open menu's box: the entry hit, if it is one. -/
def menuEntry (items : List (List UInt8 × CtxAction)) (offset height : Int) :
    Option CtxAction :=
  let idx := Int.tdiv offset height
  if 0 ≤ idx then (items[idx.toNat]?).map (·.2) else none

/-- The title under the mouse. -/
def topmenuTitleHit (env : Env) (mx my : Int) : Option Nat :=
  if 0 ≤ my ∧ my < topbarH then
    [0, 1].find? fun menu =>
      let (x, w) := topmenuTitle env menu
      decide (x ≤ mx ∧ mx < x + w)
  else none

def topmenuClickTitle (env : Env) (mx my : Int) (ui : Ui) : Bool × Ui :=
  match topmenuTitleHit env mx my with
  | some menu =>
      (true, { ui with topmenuOpen := if ui.topmenuOpen = some menu then none else some menu })
  | none => (false, ui)

def topmenuHandleClick (env : Env) (mx my : Int) (ui : Ui) : DiskM (Bool × Ui) :=
  if !topmenuActiveWindow ui then pure (false, { ui with topmenuOpen := none })
  else match ui.topmenuOpen with
    | none => pure (topmenuClickTitle env mx my ui)
    | some menu =>
        let items := topmenuGetMenu menu
        let menuW := longestLabel items * env.psfWidth + 24
        let titleX := (topmenuTitle env menu).1
        let menuX := if titleX + menuW > env.fbWidth then env.fbWidth - menuW - 6 else titleX
        if pointInRect mx my menuX topbarH menuW (items.length * 20 + 8) then
          match menuEntry items (my - topbarH - 4) 20 with
          | some act => do
              let ui ← topmenuApplyAction env act ui
              pure (true, desktopRender { ui with topmenuOpen := none })
          | none => pure (topmenuClickTitle env mx my ui)
        else pure (true, { ui with topmenuOpen := none })

/-! ## Context menu -/

def ctxMenuHide (ui : Ui) : Ui :=
  { ui with ctxMenu := { ui.ctxMenu with visible := false, items := [] } }

def ctxMenuBuild : CtxTarget → List (List UInt8 × CtxAction)
  | .desktop => [(ascii "New Text File", .newTxt), (ascii "Refresh", .refreshDesktop)]
  | .notepad => [(ascii "New", .notepadNew), (ascii "Open...", .notepadOpen),
      (ascii "Save", .notepadSave), (ascii "Save As...", .notepadSaveAs),
      (ascii "Close", .notepadClose)]
  | .filewin => [(ascii "Open", .fileOpen), (ascii "Up", .fileUp), (ascii "Refresh", .fileRefresh)]

def ctxMenuItemH : Int := 24

def ctxMenuShow (env : Env) (target : CtxTarget) (x y : Int) (ui : Ui) : Ui :=
  let items := ctxMenuBuild target
  let charW := if env.psfWidth = 0 then 8 else env.psfWidth
  { ui with ctxMenu := ⟨true, x, y, 20 + longestLabel items * charW,
      items.length * ctxMenuItemH + 8, items⟩ }

/-- "Open" in the Explorer: a directory becomes the path, a text file goes to
the editor under its name on the desktop. -/
def fileOpenSelected (env : Env) (ui : Ui) : DiskM Ui :=
  match ui.fileSelected with
  | none => pure ui
  | some item =>
      if item.isDir then filewinSetPath env (pathJoin 96 ui.filewin.path item.name) ui
      else if strIeqExt item.name (ascii "TXT") then notepadOpen env item.name ui
      else pure ui

def ctxMenuAction (env : Env) (ui : Ui) : CtxAction → DiskM Ui
  | .newTxt =>
      pure (startNamePrompt .createTxt (ascii "NEWFILE.TXT") (ascii "New TXT filename:") ui)
  | .refreshDesktop => desktopRefreshFromPath env ui
  | .notepadNew => pure (notepadNew ui)
  | .notepadOpen => filePickerStart env (ascii "TXT") .notepadFilePick ui
  | .notepadSave => do
      let (_, ui) ← notepadSaveCurrent env none ui
      pure ui
  | .notepadSaveAs => pure (startSaveAs ui)
  | .notepadClose => pure (notepadClose ui)
  | .fileRefresh => filewinRefreshList env ui
  | .fileOpen => fileOpenSelected env ui
  | .fileUp => filewinGoUp env ui
  | .winMinimize => topmenuApplyAction env .winMinimize ui
  | .winToggleMax => topmenuApplyAction env .winToggleMax ui

def ctxMenuHandleAction (env : Env) (act : CtxAction) (ui : Ui) : DiskM Ui := do
  let ui ← ctxMenuAction env ui act
  pure (ctxMenuHide ui)

/-- A click while the context menu is open chooses an entry or closes it. -/
def ctxMenuClick (env : Env) (mx my : Int) (ui : Ui) : DiskM Ui :=
  let menu := ui.ctxMenu
  let x := if menu.x + menu.w > env.fbWidth then env.fbWidth - menu.w else menu.x
  let y := if menu.y + menu.h > env.fbHeight then env.fbHeight - menu.h else menu.y
  if pointInRect mx my x y menu.w menu.h then
    match menuEntry menu.items (my - y - 4) ctxMenuItemH with
    | some act => ctxMenuHandleAction env act ui
    | none => pure ui
  else pure (ctxMenuHide ui)

/-! ## Launch menu -/

def launchItemH : Int := 26

/-- The entries that are always there. -/
def launchCore : List LaunchItem :=
  [⟨ascii "Logout", .logout, []⟩, ⟨ascii "Reboot", .reboot, []⟩, ⟨ascii "Shutdown", .shutdown, []⟩]

def launchRefreshItems (env : Env) (ui : Ui) : DiskM Ui :=
  if !ui.volMounted then pure { ui with launch := { ui.launch with items := launchCore } }
  else do
    let (ui, code, entries) ← ui.listDir env ui.session.progDir 16
    let apps := (entries.filter fun entry => entry.attr &&& 0x10 = 0).map fun entry =>
      (⟨copyInto 32 entry.name83, .app, pathJoin 96 ui.session.progDir entry.name83⟩ : LaunchItem)
    pure { ui with launch := { ui.launch with
        items := if code = 0 then (launchCore ++ apps).take 24 else launchCore } }

def launchToggle (env : Env) (shown : Bool) (ui : Ui) : DiskM Ui :=
  if shown then do
    let ui ← launchRefreshItems env ui
    let y := env.fbHeight - 34 - (launchItemH * ui.launch.items.length + 12) - 4
    pure { ui with launch := { ui.launch with
        visible := true, x := 8, y := if y < 4 then 4 else y } }
  else pure { ui with launch := { ui.launch with visible := false } }

def launchDoLogout (ui : Ui) : Ui :=
  { ui with
    session := { ui.session with started := false }
    login := { ui.login with
      active := true
      pwFocus := true
      pw := []
      message := ascii "Select a user and log in." }
    notepad := { ui.notepad with window := { ui.notepad.window with isOpen := false } }
    filewin := { ui.filewin with window := { ui.filewin.window with isOpen := false } }
    launch := { ui.launch with visible := false } }

/-- Shutdown halts the machine: no state follows. -/
def launchAction (env : Env) (item : LaunchItem) (ui : Ui) : DiskM Ui :=
  match item.type with
  | .logout => pure (launchDoLogout ui)
  | .reboot => pure ui
  | .shutdown => DiskM.diverge
  | .app =>
      if strIeqExt item.name (ascii "TXT") then notepadOpen env (copyInto 13 item.name) ui
      else pure ui

def launchActivate (env : Env) (idx : Nat) (ui : Ui) : DiskM Ui :=
  match ui.launch.items[idx]? with
  | none => pure ui
  | some item => do
      let ui ← launchAction env item ui
      pure { ui with launch := { ui.launch with visible := false } }

/-- A click while the launch menu is open. -/
def launchClick (env : Env) (mx my : Int) (ui : Ui) : DiskM Ui :=
  if pointInRect mx my ui.launch.x ui.launch.y 220
      (launchItemH * ui.launch.items.length + 12) then
    let idx := Int.tdiv (my - ui.launch.y - 6) launchItemH
    if 0 ≤ idx then launchActivate env idx.toNat ui else pure ui
  else pure { ui with launch := { ui.launch with visible := false } }

/-! ## Taskbar -/

inductive QuickLaunch
  | file
  | taskmgr
  | terminal
  | wavplay
  deriving DecidableEq

def quickLaunches : List QuickLaunch := [.file, .taskmgr, .terminal, .wavplay]

/-- The button of a quick launch entry, with the bar starting at `x`. -/
def shortcutHit (mx my x y h : Int) : Option QuickLaunch :=
  (quickLaunches.zipIdx.find? fun entry =>
    pointInRect mx my (x + 6 + 34 * entry.2) (y + Int.tdiv (h - 28) 2) 28 28).map (·.1)

def quickLaunch (env : Env) (ui : Ui) : QuickLaunch → DiskM Ui
  | .file => do
      let ui ← filewinOpen env ui
      pure { ui with front := .file }
  | .taskmgr => pure { taskmgrOpen env ui with front := .taskmgr }
  | .terminal => pure { terminalOpen env ui with front := .terminal }
  | .wavplay => pure { wavplayOpen ui with front := .wavplay }

/-- The button of a window: only open windows have one, in their order. -/
def taskbarHit (mx my y height startX : Int) (ui : Ui) : Option WinId :=
  ((winIds.filter fun id => (ui.window id).isOpen).zipIdx.find? fun entry =>
    pointInRect mx my (startX + 124 * entry.2) (y + Int.tdiv 4 2) 120 (height - 4)).map (·.1)

/-- The handlers of the windows in `wm_handle_taskbar_click`; the window comes
to the front and is minimised or shown again. -/
def wmHandleTaskbarClick (mx my y height startX : Int) (ui : Ui) : Ui :=
  match taskbarHit mx my y height startX ui with
  | none => ui
  | some id =>
      let window := ui.window id
      desktopRender (Ui.setWindow { ui with front := id } id
        { window with minimized := !window.minimized })

/-- A click on the taskbar. -/
def taskbarClick (env : Env) (mx my : Int) (ui : Ui) : DiskM Ui :=
  let taskbarY := env.fbHeight - 32
  if mx < 90 then launchToggle env (!ui.launch.visible) ui
  else
    let ui := { ui with launch := { ui.launch with visible := false } }
    match shortcutHit mx my 80 taskbarY 32 with
    | some entry => do
        let ui ← quickLaunch env ui entry
        pure (desktopRender ui)
    | none => pure (wmHandleTaskbarClick mx my taskbarY 32 80 ui)

end ParanOS

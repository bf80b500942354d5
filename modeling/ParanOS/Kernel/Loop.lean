import ParanOS.Kernel.Menus

/-! # The event loop

One iteration of the loop in `kmain`: the keys that are handled first, the login
screen, the mouse buttons, the keys of the prompt, the path bar and the editor,
and dragging. The order of the blocks is that of the source.
-/

namespace ParanOS

open Foundation

/-! ## Keys that are handled first -/

def releaseKey (scode : UInt8) (keys : Keys) : Keys :=
  if scode = 0x38 then { keys with altDown := false }
  else if scode = 0x5B then { keys with winDown := false }
  else if scode = 0x2A ∨ scode = 0x36 then { keys with shiftDown := keys.shiftDown - 1 }
  else keys

def isArrow (sc : UInt8) : Bool := sc = 0x48 || sc = 0x50 || sc = 0x4B || sc = 0x4D

/-- Whether an arrow key goes on in the list. -/
def arrowDown (sc : UInt8) : Bool := sc = 0x50 || sc = 0x4D

def deleteKey (env : Env) (ui : Ui) : DiskM Ui :=
  if ui.filewin.window.isOpen && ui.front == .file then filewinDeleteSelection env ui
  else desktopDeleteSelection env ui

def arrowKey (sc : UInt8) (ui : Ui) : Ui :=
  if ui.focused .file then filewinMoveSelection (arrowDown sc) ui
  else desktopMoveSelection (arrowDown sc) ui

/-- A key press, with the scancode if it is left for the blocks to come. -/
def pressKey (env : Env) (sc : UInt8) (ui : Ui) : DiskM (Option UInt8 × Ui) :=
  if sc = 0x38 then pure (some sc, { ui with keys := { ui.keys with altDown := true } })
  else if sc = 0x5B then do
    let ui ← launchToggle env (!ui.launch.visible)
      { ui with keys := { ui.keys with winDown := true } }
    pure (none, desktopRender ui)
  else if sc = 0x2A ∨ sc = 0x36 then
    pure (some sc, { ui with keys := { ui.keys with shiftDown := ui.keys.shiftDown + 1 } })
  else if sc = 0x3A then
    pure (some sc, { ui with keys := { ui.keys with capsOn := !ui.keys.capsOn } })
  else if sc = 0x0F ∧ ui.keys.altDown then pure (none, desktopRender (wmCycleNext ui))
  else if sc = 0x53 then do
    let ui ← deleteKey env ui
    pure (none, ui)
  else if isArrow sc then pure (none, arrowKey sc ui)
  else pure (some sc, ui)

def firstKeys (env : Env) (input : Input) (ui : Ui) : DiskM (Option UInt8 × Ui) :=
  match input.scancode with
  | none => pure (none, ui)
  | some sc =>
      if sc &&& 0x80 ≠ 0 then
        pure (none, { ui with keys := releaseKey (sc &&& 0x7F) ui.keys })
      else pressKey env sc ui

def Ui.charOf (ui : Ui) (sc : UInt8) : UInt8 := keyToChar ui.keys.capsOn ui.keys.shiftDown sc

/-- `prev_btn = btn`. -/
def keepButtons (input : Input) (ui : Ui) : Ui :=
  { ui with prevLeft := input.left, prevRight := input.right }

/-! ## Login screen -/

structure LoginLayout where
  cardX : Int
  cardW : Int
  listY : Int
  pwX : Int
  pwW : Int
  pwY : Int
  btnX : Int

def loginLayoutCompute (env : Env) : LoginLayout :=
  let pw := max (if env.fbWidth > 420 then 420 else env.fbWidth - 20) 260
  let px := Int.tdiv (env.fbWidth - pw) 2
  let py := Int.tdiv (env.fbHeight - 220) 2
  let cardW := pw - 24
  ⟨px + 12, cardW, py + 36, px + 12, cardW - 110, py + 220 - 72, px + 12 + cardW - 90⟩

def loginHover (env : Env) (input : Input) (ui : Ui) : Option Nat :=
  let lo := loginLayoutCompute env
  (List.range ui.login.users.length).find? fun i =>
    pointInRect input.mx input.my lo.cardX (lo.listY + i * 40) lo.cardW 32

def loginClick (env : Env) (input : Input) (ui : Ui) : DiskM Ui :=
  let lo := loginLayoutCompute env
  let ui := match ui.login.hover with
    | some i => { ui with login := { ui.login with selected := i, pwFocus := true } }
    | none => ui
  if pointInRect input.mx input.my lo.pwX lo.pwY lo.pwW 28 then
    pure { ui with login := { ui.login with pwFocus := true } }
  else if pointInRect input.mx input.my lo.btnX lo.pwY 90 28 then loginAttempt env ui
  else pure { ui with login := { ui.login with pwFocus := false } }

def loginKey (env : Env) (sc : UInt8) (ui : Ui) : DiskM Ui :=
  if sc = 0x1C then loginAttempt env ui
  else if sc = 0x0E then pure { ui with login := { ui.login with pw := ui.login.pw.dropLast } }
  else if ui.charOf sc ≠ 0 ∧ ui.login.pw.length < loginPwSize - 1 then
    pure { ui with login := { ui.login with pw := ui.login.pw ++ [ui.charOf sc] } }
  else pure ui

def loginScreen (env : Env) (input : Input) (sc : Option UInt8) (ui : Ui) : DiskM Ui :=
  if !env.fbReady then pure (keepButtons input ui)
  else do
    let ui := { ui with login := { ui.login with hover := loginHover env input ui } }
    let ui ← if input.left && !ui.prevLeft then loginClick env input ui else pure ui
    let ui := keepButtons input ui
    match sc with
    | some sc => if ui.login.pwFocus then loginKey env sc ui else pure ui
    | none => pure ui

/-! ## Left button -/

/-- The window under the mouse: the front one first, then the others in this
order. -/
def clickedWindow (input : Input) (ui : Ui) : Option WinId :=
  (ui.front :: [.notepad, .file, .taskmgr, .display, .terminal, .wavplay, .imgview]).find? fun id =>
    (ui.window id).shown && (ui.window id).rect.hit input.mx input.my

def focusClicked (input : Input) (ui : Ui) : Ui :=
  match clickedWindow input ui with
  | some id => if id = ui.front then ui else desktopRender { ui with front := id }
  | none => ui

/-- A button of the editor's menu bar: 0 "New", 1 "Open", 2 "Save". -/
def notepadMenuHit (input : Input) (ui : Ui) : Option Nat :=
  let rect := ui.notepad.window.rect
  [0, 1, 2].find? fun i =>
    pointInRect input.mx input.my (rect.wx + 6 + i * 66) (rect.wy + 2) 60 14

/-- The title bar and the menu bar of the editor. -/
def notepadClick (env : Env) (input : Input) (ui : Ui) : DiskM (Bool × Ui) :=
  let rect := ui.notepad.window.rect
  let bx := rect.wx + rect.ww - 60
  let hit := fun offset width =>
    pointInRect input.mx input.my (bx + offset) (rect.wy - 20) width 14
  match notepadMenuHit input ui with
  | some 0 => pure (true, notepadNew ui)
  | some 1 => do
      let ui ← filePickerStart env (ascii "TXT") .notepadFilePick ui
      pure (true, ui)
  | some _ =>
      if ui.notepad.name = [] then pure (true, startSaveAs ui)
      else do
        let (_, ui) ← notepadSaveCurrent env none ui
        pure (true, ui)
  | none =>
      if hit 0 18 then
        pure (true, ui.setWindow .notepad { ui.notepad.window with minimized := true })
      else if hit 20 18 then
        pure (true, ui.setWindow .notepad (ui.notepad.window.toggleMaximize env))
      else if hit 40 20 then pure (true, notepadClose ui)
      else pure (false, ui)

/-- The close button in the title bar of the other windows. -/
def closeHit (input : Input) (window : Window) : Bool :=
  pointInRect input.mx input.my (window.rect.wx + window.rect.ww - 24) (window.rect.wy - 20) 18 14

def closeWindow (ui : Ui) : WinId → Ui
  | .notepad => notepadClose ui
  | .file => filewinClose ui
  | .imgview => imgviewClose ui
  | .wavplay => wavplayClose ui
  | id => windowClose id ui

/-- The difference of two ticks as a 64-bit number. -/
def ticksSince (last now : Nat) : Nat := (now + 18446744073709551616 - last) % 18446744073709551616

/-- The directory that a click into the sidebar leads to. -/
def sidebarHit (env : Env) (input : Input) (ui : Ui) : Option (List UInt8) :=
  let rect := ui.filewin.window.rect
  let rowH := env.psfHeight + 6
  let sy := rect.wy + 22 + 6 + rowH
  let hit := fun row : Int => pointInRect input.mx input.my (rect.wx + 8) (sy + row * rowH) 124 rowH
  if hit 0 then some ui.session.desktopDir
  else if hit 1 then some pathWallDir
  else if hit 4 then some pathBaseDir
  else none

/-- The index in the list under the mouse, `none` for a click outside. -/
def listHit (input : Input) (ui : Ui) : Option Int :=
  let rect := ui.filewin.window.rect
  let listX := rect.wx + 140 + 6
  let listY := rect.wy + 22 + 4
  let listW := rect.ww - 140 - 12
  if pointInRect input.mx input.my listX listY listW (rect.wh - 22 - 8) then
    let cols := if Int.tdiv listW 96 > 0 then Int.tdiv listW 96 else 1
    some (Int.tdiv (input.my - listY) 80 * cols + Int.tdiv (input.mx - listX) 96)
  else none

/-- A double click on an item of the list. -/
def openFileItem (env : Env) (input : Input) (item : DesktopItem) (ui : Ui) : DiskM Ui :=
  if item.isDir then filewinSetPath env (pathJoin 96 ui.filewin.path item.name) ui
  else if ui.picker.active then
    if ui.picker.ext = [] ∨ strIeqExt item.name ui.picker.ext then
      filePickerHandleSelection env (pathJoin 128 ui.filewin.path item.name) item.name ui
    else pure ui
  else if strIeqExt item.name (ascii "TXT") then notepadOpen env item.name ui
  else if strIeqExt item.name (ascii "BMP") then
    imgviewOpenPath env input (pathJoin 128 ui.filewin.path item.name) ui
  else pure ui

def listClick (env : Env) (input : Input) (idx : Int) (ui : Ui) : DiskM Ui :=
  if idx < 0 then pure ui
  else match ui.fileItems[idx.toNat]? with
    | none => pure ui
    | some item =>
        let doubleClick := ui.fileLastIdx = some idx.toNat ∧
          ticksSince ui.fileLastClick input.jiffies ≤ 50
        let ui := { ui with
          fileLastClick := input.jiffies
          fileLastIdx := some idx.toNat
          filewin := { ui.filewin with selection := some idx.toNat, pathFocus := false } }
        if doubleClick then openFileItem env input item ui else pure ui

/-- Path bar, sidebar and list of the Explorer. -/
def filewinClick (env : Env) (input : Input) (ui : Ui) : DiskM (Bool × Ui) :=
  let rect := ui.filewin.window.rect
  if pointInRect input.mx input.my (rect.wx + 8) rect.wy (rect.ww - 16) 22 then
    pure (true, { ui with filewin := { ui.filewin with pathFocus := true } })
  else match sidebarHit env input ui with
    | some newPath => do
        let ui ← filewinSetPath env newPath
          { ui with filewin := { ui.filewin with pathFocus := false } }
        pure (true, ui)
    | none =>
        match listHit input ui with
        | some idx => do
            let ui ← listClick env input idx ui
            pure (true, ui)
        | none => pure (false, ui)

/-- The buttons "Open WAV" and "Play". -/
def wavplayClick (env : Env) (input : Input) (ui : Ui) : DiskM (Bool × Ui) :=
  let rect := ui.wavplay.window.rect
  if pointInRect input.mx input.my (rect.wx + 12) (rect.wy + 12) 96 22 then do
    let ui ← filePickerStart env (ascii "WAV") .wavplayPick ui
    pure (true, ui)
  else if pointInRect input.mx input.my (rect.wx + 118) (rect.wy + 12) 96 22 then
    if ui.wavplay.path = [] then pure (true, ui)
    else do
      let ui ← soundPlayWavPath env input ui.wavplay.path ui
      pure (true, ui)
  else pure (false, ui)

/-- The places of so many desktop icons, row by row. -/
def iconPlaces (env : Env) : (count : Nat) → (x y : Int) → List (Int × Int)
  | 0, _, _ => []
  | count + 1, x, y =>
      let maxW := if env.fbWidth > 28 then env.fbWidth - 28 else 0
      (x, y) :: if x + 104 + 104 > maxW then iconPlaces env count 28 (y + 86)
        else iconPlaces env count (x + 104) y

def desktopHitTest (env : Env) (input : Input) (ui : Ui) : Option Nat :=
  (iconPlaces env ui.desktop.items.length 28 56).findIdx? fun place =>
    pointInRect input.mx input.my place.1 place.2 44 60

def openDesktopItem (env : Env) (input : Input) (item : DesktopItem) (ui : Ui) : DiskM Ui :=
  if item.isDir then pure ui
  else if strIeqExt item.name (ascii "TXT") then notepadOpen env item.name ui
  else if strIeqExt item.name (ascii "BMP") then
    imgviewOpenPath env input (desktopPathForName ui item.name) ui
  else pure ui

/-- Select an icon, open it on a double click. -/
def desktopClick (env : Env) (input : Input) (ui : Ui) : DiskM Ui :=
  if !ui.volMounted then pure ui
  else match desktopHitTest env input ui with
    | none => pure ui
    | some hit =>
        let doubleClick := ui.desktop.lastClickIndex = some hit ∧
          ticksSince ui.desktop.lastClickTick input.jiffies ≤ 50
        let ui := { ui with desktop := { ui.desktop with
            selection := some hit
            lastClickTick := input.jiffies
            lastClickIndex := some hit } }
        match ui.desktop.items[hit]? with
        | none => pure ui
        | some item => if doubleClick then openDesktopItem env input item ui else pure ui

/-- The blocks for the windows, of which only that of the front window applies. -/
def frontClick (env : Env) (input : Input) (ui : Ui) : DiskM (Bool × Ui) :=
  if !(ui.window ui.front).shown then pure (false, ui)
  else if ui.front = .notepad then notepadClick env input ui
  else if closeHit input (ui.window ui.front) then pure (true, closeWindow ui ui.front)
  else if ui.front = .file then filewinClick env input ui
  else if ui.front = .wavplay then wavplayClick env input ui
  else pure (false, ui)

def windowClick (env : Env) (input : Input) (ui : Ui) : DiskM (Bool × Ui) := do
  let (taken, ui) ← frontClick env input ui
  if taken then pure (true, ui)
  else do
    let ui ← desktopClick env input ui
    pure (false, ui)

/-- A press of the left button: whether the source jumps to
`after_left_click`. -/
def leftClick (env : Env) (input : Input) (ui : Ui) : DiskM (Bool × Ui) :=
  if ui.ctxMenu.visible then do
    let ui ← ctxMenuClick env input.mx input.my ui
    pure (true, ui)
  else if ui.prompt.active && ui.prompt.readyClick then do
    let ui ← namePromptCommit env ui
    pure (true, ui)
  else if env.fbHeight - 32 ≤ input.my ∧ input.my < env.fbHeight then do
    let ui ← taskbarClick env input.mx input.my ui
    pure (true, ui)
  else if ui.launch.visible then do
    let ui ← launchClick env input.mx input.my ui
    pure (true, ui)
  else do
    let (taken, ui) ← topmenuHandleClick env input.mx input.my ui
    if taken then pure (true, ui) else windowClick env input (focusClicked input ui)

/-! ## Right button -/

def rightButton (env : Env) (input : Input) (ui : Ui) : Ui :=
  if input.right && !ui.prevRight then
    let hit := fun window : Window => window.shown && window.rect.hit input.mx input.my
    let target := if hit ui.filewin.window then CtxTarget.filewin
      else if hit ui.notepad.window then .notepad else .desktop
    ctxMenuShow env target input.mx input.my ui
  else if !input.right && ui.prevRight then
    { ui with prompt := { ui.prompt with readyClick := true } }
  else ui

/-- The mouse buttons. -/
def mouseButtons (env : Env) (input : Input) (ui : Ui) : DiskM Ui := do
  let ui := if ui.prompt.active && !input.left && !input.right && !input.middle then
      { ui with prompt := { ui.prompt with readyClick := true } }
    else ui
  let (taken, ui) ←
    if input.left && !ui.prevLeft then leftClick env input ui else pure (false, ui)
  pure (keepButtons input (if taken then ui else rightButton env input ui))

/-! ## Keys for the prompt, the path bar and the editor -/

def promptKey (env : Env) (sc : UInt8) (ui : Ui) : DiskM Ui :=
  if sc = 0x1C then createTxtFileFromPrompt env ui
  else if sc = 0x0E then pure { ui with prompt := { ui.prompt with buf := ui.prompt.buf.dropLast } }
  else if sc = 0x01 then pure { ui with prompt := { ui.prompt with active := false } }
  else if ui.charOf sc ≠ 0 ∧ ui.prompt.buf.length < namePromptBufSize - 1 then
    pure { ui with prompt := { ui.prompt with buf := ui.prompt.buf ++ [ui.charOf sc] } }
  else pure ui

def promptKeys (env : Env) (sc : Option UInt8) (ui : Ui) : DiskM (Option UInt8 × Ui) :=
  match sc with
  | none => pure (none, ui)
  | some key =>
      if ui.prompt.active then do
        let ui ← promptKey env key ui
        pure (none, ui)
      else pure (some key, ui)

def pathKey (env : Env) (sc : UInt8) (ui : Ui) : DiskM Ui :=
  if sc = 0x1C then filewinSetPath env ui.filewin.path ui
  else if sc = 0x0E then
    pure { ui with filewin := { ui.filewin with path := ui.filewin.path.dropLast } }
  else if sc = 0x01 then pure { ui with filewin := { ui.filewin with pathFocus := false } }
  else if ui.charOf sc ≠ 0 ∧ ui.filewin.path.length + 1 < filewinPathSize then
    pure { ui with filewin := { ui.filewin with path := ui.filewin.path ++ [ui.charOf sc] } }
  else pure ui

def pathKeys (env : Env) (sc : Option UInt8) (ui : Ui) : DiskM (Option UInt8 × Ui) :=
  match sc with
  | none => pure (none, ui)
  | some key =>
      if ui.filewin.window.isOpen && ui.front == .file && ui.filewin.pathFocus then do
        let ui ← pathKey env key ui
        pure (none, ui)
      else pure (some key, ui)

def notepadAppend (char : UInt8) (ui : Ui) : Ui :=
  if char ≠ 0 ∧ ui.notepad.text.length < notepadBufSize - 1 then
    { ui with notepad := { ui.notepad with text := ui.notepad.text ++ [char] } }
  else ui

/-- Drag a window by its title bar, inside the screen. -/
def Window.drag (env : Env) (input : Input) (window : Window) : Window :=
  let rect := window.rect
  let window :=
    if input.left && !window.dragging &&
        pointInRect input.mx input.my rect.wx (rect.wy - 22) rect.ww 20 then
      { window with
        dragging := true, dragOffx := input.mx - rect.wx, dragOffy := input.my - rect.wy }
    else window
  if !window.dragging then window
  else if !input.left then { window with dragging := false }
  else
    let nx := max (input.mx - window.dragOffx) 0
    let ny := max (input.my - window.dragOffy) 24
    { window with rect := { rect with
        wx := if nx + rect.ww > env.fbWidth then env.fbWidth - rect.ww else nx
        wy := if ny + rect.wh > env.fbHeight then env.fbHeight - rect.wh else ny } }

/-- The keys of the editor; the block does not ask whether it is minimised. -/
def editorKeys (env : Env) (input : Input) (sc : Option UInt8) (ui : Ui) : Ui :=
  if ui.notepad.window.isOpen && ui.front == .notepad then
    let dragged := fun ui : Ui => ui.setWindow .notepad (ui.notepad.window.drag env input)
    match sc with
    | none => dragged ui
    | some key =>
        if key = 0x0E then
          { ui with notepad := { ui.notepad with text := ui.notepad.text.dropLast } }
        else if key = 0x01 then notepadClose ui
        else dragged (notepadAppend (if key = 0x1C then 0x0A else ui.charOf key) ui)
  else ui

/-- Resize the Image Viewer at its corner, or drag it. -/
def imgviewDrag (env : Env) (input : Input) (view : ImgView) : ImgView :=
  let rect := view.window.rect
  let cornerX := rect.wx + rect.ww
  let cornerY := rect.wy + rect.wh
  let view :=
    if !view.resizing && input.left && decide (cornerX - 10 ≤ input.mx ∧ input.mx ≤ cornerX ∧
        cornerY - 10 ≤ input.my ∧ input.my ≤ cornerY) then
      { view with
        resizing := true, resizeOffx := cornerX - input.mx, resizeOffy := cornerY - input.my }
    else view
  if view.resizing then
    if !input.left then { view with resizing := false }
    else
      let newW := max (input.mx + view.resizeOffx - rect.wx) 180
      let newH := max (input.my + view.resizeOffy - rect.wy) 140
      { view with window := { view.window with rect := { rect with
          ww := if rect.wx + newW > env.fbWidth then env.fbWidth - rect.wx else newW
          wh := if rect.wy + newH > env.fbHeight then env.fbHeight - rect.wy else newH } } }
  else { view with window := view.window.drag env input }

/-- Dragging of the windows other than the editor. -/
def dragFront (env : Env) (input : Input) (ui : Ui) : Ui :=
  if !(ui.window ui.front).shown || ui.front == .notepad then ui
  else if ui.front = .imgview then { ui with imgview := imgviewDrag env input ui.imgview }
  else ui.setWindow ui.front ((ui.window ui.front).drag env input)

/-! ## The loop -/

def desktopIteration (env : Env) (input : Input) (sc : Option UInt8) (ui : Ui) : DiskM Ui := do
  let ui ← mouseButtons env input ui
  let (sc, ui) ← promptKeys env sc ui
  let (sc, ui) ← pathKeys env sc ui
  let ui := dragFront env input (editorKeys env input sc ui)
  pure (if env.fbReady && input.redraw then desktopRender ui else ui)

/-- One iteration, after the boot animation. -/
def iteration (env : Env) (input : Input) (ui : Ui) : DiskM Ui := do
  let (sc, ui) ← firstKeys env input ui
  if ui.login.active then loginScreen env input sc ui else desktopIteration env input sc ui

def runLoop (env : Env) : List Input → Ui → DiskM Ui
  | [], ui => pure ui
  | input :: rest, ui => do
      let ui ← iteration env input ui
      runLoop env rest ui

/-- What `kmain` does before the loop: mount the disk, create the system's
directories, fill the desktop and read the users. The wallpaper and the cursor
are only read and drawn. -/
def boot (env : Env) (vol : Vol) : DiskM Ui := do
  let ui := Ui.initial vol
  let ui ←
    if !env.diskPresent then pure ui
    else do
      match ← rd 0 with
      | none => pure ui
      | some sec0 => do
          let (mnt, v) ← fat32Mount ui.vol (mountLba sec0)
          let ui := { ui with vol := v }
          if mnt = 0 then do
            let (ui, _) ← Ui.ensureDir { ui with volMounted := true } env pathBaseDir
            let ui ← ensureUserDirsOnDisk env ui.session.loggedInUser ui
            desktopRefreshFromPath env ui
          else pure ui
  ensureUserStore env ui

end ParanOS

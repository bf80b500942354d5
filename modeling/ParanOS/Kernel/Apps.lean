import ParanOS.Kernel.State

/-! # Desktop, users and applications

The functions of `kernel.c` that the event loop calls for the desktop, the login
and the windows. Each takes the state and returns the state afterwards; those
that use the disk are programs over the device.
-/

namespace ParanOS

open Foundation

/-! ## Calls to the file system -/

namespace Ui

/-- A call on the mounted volume, which may note the bitmap in it. -/
def withVol {α : Type} (ui : Ui) (call : Vol → DiskM (Vol × α)) : DiskM (Ui × α) := do
  let (v, result) ← call ui.vol
  pure ({ ui with vol := v }, result)

def writeFile (ui : Ui) (env : Env) (path data : List UInt8) : DiskM (Ui × Int) :=
  ui.withVol fun v => fat32WriteFilePath v env.fuel (.ofArray path) data

def ensureDir (ui : Ui) (env : Env) (path : List UInt8) : DiskM (Ui × Int) :=
  ui.withVol fun v => fat32EnsureDirPath v env.fuel (.ofArray path)

def readFile (ui : Ui) (env : Env) (path : List UInt8) (maxBytes : Nat) :
    DiskM (Ui × ReadResult) :=
  ui.withVol fun v => fat32ReadFilePath v env.fuel (.ofArray path) maxBytes

def listDir (ui : Ui) (env : Env) (path : List UInt8) (maxItems : Int) :
    DiskM (Ui × Int × List Dirent) :=
  ui.withVol fun v => fat32ListDirPath v env.fuel (.ofArray path) maxItems

end Ui

/-! ## Desktop -/

/-- The directories of a user. -/
def userDir (uname : List UInt8) : List UInt8 :=
  pathBaseDir ++ ascii "/USERS/" ++ upperCopy 16 uname

def ensureUserDirsOnDisk (env : Env) (uname : List UInt8) (ui : Ui) : DiskM Ui :=
  if !ui.volMounted then pure ui
  else
    [pathBaseDir, pathUsersDir, pathWallDir, userDir uname, userDir uname ++ ascii "/DESKTOP",
      userDir uname ++ ascii "/PROGRAMS"].foldlM (fun ui dir => do
        let (ui, _) ← ui.ensureDir env dir
        pure ui) ui

def buildUserDesktopPath (uname : List UInt8) (ui : Ui) : Ui :=
  { ui with session := { ui.session with
      desktopDir := userDir uname ++ ascii "/DESKTOP"
      progDir := userDir uname ++ ascii "/PROGRAMS" } }

/-- The entries that are shown: files of length zero count as deleted. -/
def shownItems (entries : List Dirent) : List DesktopItem :=
  ((entries.filter fun entry => entry.attr &&& 0x10 ≠ 0 ∨ entry.size ≠ 0).take
    desktopMaxItems).map fun entry => ⟨entry.name83.take 12, entry.attr, entry.size⟩

def desktopSetItems (items : List DesktopItem) (ui : Ui) : Ui :=
  { ui with desktop := { ui.desktop with items := items, selection := none } }

def desktopRefreshFromPath (env : Env) (ui : Ui) : DiskM Ui :=
  if !ui.volMounted then pure ui
  else do
    let ui ← ensureUserDirsOnDisk env ui.session.loggedInUser ui
    let (ui, code, entries) ← ui.listDir env ui.session.desktopDir 128
    if code = 0 then pure (desktopRender (desktopSetItems (shownItems entries) ui))
    else pure (desktopSetItems [] ui)

def desktopPathForName (ui : Ui) (name83 : List UInt8) : List UInt8 :=
  pathJoin 96 ui.session.desktopDir name83

/-- The item that is selected on the desktop. -/
def Ui.desktopSelected (ui : Ui) : Option DesktopItem :=
  ui.desktop.selection.bind fun sel => ui.desktop.items[sel]?

def desktopDeleteSelection (env : Env) (ui : Ui) : DiskM Ui :=
  match ui.desktopSelected with
  | none => pure ui
  | some item =>
      if item.isDir then pure ui
      else do
        let (ui, r) ← ui.writeFile env (desktopPathForName ui item.name) []
        if r = 0 then desktopRefreshFromPath env ui else pure ui

/-- One step up or down among so many items. -/
def movedSelection (count : Nat) (selection : Option Nat) (down : Bool) : Nat :=
  let sel := selection.getD 0
  min (if down then sel + 1 else sel - 1) (count - 1)

def desktopMoveSelection (down : Bool) (ui : Ui) : Ui :=
  if ui.desktop.items = [] then ui
  else { ui with desktop := { ui.desktop with
      selection := some (movedSelection ui.desktop.items.length ui.desktop.selection down) } }

/-! ## Mounting -/

/-- The first FAT32 partition of a partition table, or the whole disk. -/
def mountLba (sec0 : Buffer) : Nat :=
  if sec0 510 = 0x55 ∧ sec0 511 = 0xAA then
    match (List.range 4).find? fun i =>
        sec0 (446 + 16 * i + 4) = 0x0B ∨ sec0 (446 + 16 * i + 4) = 0x0C with
    | some i => sec0.getU32 (446 + 16 * i + 8)
    | none => 0
  else 0

/-- Mount the disk if that has not been done: whether there is a volume. -/
def ensureVolumeMounted (env : Env) (ui : Ui) : DiskM (Bool × Ui) :=
  if ui.volMounted then pure (true, ui)
  else if !env.diskPresent then pure (false, ui)
  else do
    match ← rd 0 with
    | none => pure (false, ui)
    | some sec0 => do
        let (mnt, v) ← fat32Mount ui.vol (mountLba sec0)
        let ui := { ui with vol := v }
        if mnt = 0 then do
          let ui ← ensureUserDirsOnDisk env ui.session.loggedInUser { ui with volMounted := true }
          let ui ← desktopRefreshFromPath env ui
          pure (true, ui)
        else pure (false, ui)

/-! ## Text Editor -/

def notepadSetPathAndName (fullpath : List UInt8) (ui : Ui) : Ui :=
  { ui with notepad := { ui.notepad with
      path := copyInto 96 fullpath
      name := copyInto 13 (pathBase fullpath) } }

def notepadOpenPath (env : Env) (fullpath : List UInt8) (ui : Ui) : DiskM Ui :=
  if fullpath = [] then pure ui
  else do
    let ui := notepadSetPathAndName fullpath { ui with notepad := ⟨.zero, [], [], []⟩ }
    let (ui, result) ← ui.readFile env fullpath (notepadBufSize - 1)
    let rect : Rect := ⟨120, 80, if env.fbWidth > 400 then env.fbWidth - 240 else 320,
      if env.fbHeight > 200 then env.fbHeight - 160 else 160⟩
    pure { ui with
      notepad := { ui.notepad with
        window := Window.zero.placed rect true
        -- `buf` was cleared, and `nread` is the wanted size even where the chain ends before
        text := if result.code = 0 then
            result.out ++ List.replicate (result.outBytes - result.out.length) 0
          else [] }
      front := .notepad }

def notepadOpen (env : Env) (name : List UInt8) (ui : Ui) : DiskM Ui :=
  notepadOpenPath env (desktopPathForName ui name) ui

def notepadClose (ui : Ui) : Ui :=
  desktopRender (ui.setWindow .notepad ui.notepad.window.closed)

def notepadNew (ui : Ui) : Ui :=
  { ui with notepad := { ui.notepad with
      text := []
      name := ascii "UNTITLED.TXT"
      path := desktopPathForName ui (ascii "UNTITLED.TXT") } }

/-- Save under the given name, or else under the editor's own: the result code. -/
def notepadSaveCurrent (env : Env) (nameOverride : Option (List UInt8)) (ui : Ui) :
    DiskM (Int × Ui) := do
  let (mounted, ui) ← ensureVolumeMounted env ui
  let source := nameOverride.getD ui.notepad.name
  if !mounted || source.isEmpty then pure (-1, ui)
  else do
    let name := sanitizeTxtName 32 source
    let dir := pathDirname 96
      (if ui.notepad.path = [] then ui.session.desktopDir else ui.notepad.path)
    let fullpath := if dir = [] then desktopPathForName ui name else pathJoin 96 dir name
    let (ui, r) ← ui.writeFile env fullpath
      (if ui.notepad.text = [] then [0x0A] else ui.notepad.text)
    if r = 0 then do
      let ui ← desktopRefreshFromPath env (notepadSetPathAndName fullpath ui)
      pure (r, ui)
    else pure (r, ui)

/-! ## File Explorer -/

/-- The list becomes that of the directory under the path, and remains empty if
there is none. -/
def filewinRefreshList (env : Env) (ui : Ui) : DiskM Ui :=
  let ui := { ui with fileItems := [], fileStatus := [], listedPath := ui.filewin.path }
  if !ui.volMounted then pure { ui with fileStatus := ascii "Disk not mounted" }
  else do
    let (ui, code, entries) ← ui.listDir env ui.filewin.path desktopMaxItems
    if code ≠ 0 then pure { ui with fileStatus := ascii "Path not found" }
    else pure { ui with
      fileItems := shownItems entries
      filewin := { ui.filewin with selection := none }
      fileStatus := ascii "OK" }

def filewinSetPath (env : Env) (path : List UInt8) (ui : Ui) : DiskM Ui :=
  if path = [] then pure ui
  else filewinRefreshList env { ui with filewin := { ui.filewin with
      path := copyInto filewinPathSize path
      selection := none } }

def filewinMoveSelection (down : Bool) (ui : Ui) : Ui :=
  if ui.fileItems = [] then ui
  else { ui with filewin := { ui.filewin with
      selection := some (movedSelection ui.fileItems.length ui.filewin.selection down) } }

/-- The item that is selected in the list. -/
def Ui.fileSelected (ui : Ui) : Option DesktopItem :=
  ui.filewin.selection.bind fun sel => ui.fileItems[sel]?

def filewinDeleteSelection (env : Env) (ui : Ui) : DiskM Ui :=
  if !ui.volMounted then pure ui
  else match ui.fileSelected with
    | none => pure ui
    | some item =>
        if item.isDir then pure ui
        else do
          let (ui, r) ← ui.writeFile env (pathJoin 128 ui.filewin.path item.name) []
          if r = 0 then do
            let ui ← filewinRefreshList env ui
            desktopRefreshFromPath env ui
          else pure ui

/-- The path without its last component. -/
def pathAbove (path : List UInt8) : List UInt8 :=
  ((path.rdropWhile (· = 0x2F)).rdropWhile (· ≠ 0x2F)).dropLast

def filewinGoUp (env : Env) (ui : Ui) : DiskM Ui :=
  if ui.filewin.path = [] then pure ui
  else if pathAbove ui.filewin.path = [] then filewinSetPath env pathBaseDir ui
  else filewinRefreshList env { ui with filewin := { ui.filewin with
      path := pathAbove ui.filewin.path } }

def filewinOpen (env : Env) (ui : Ui) : DiskM Ui :=
  if ui.filewin.window.shown then pure ui
  else do
    let rect : Rect := ⟨80, 80, if env.fbWidth > 500 then env.fbWidth - 200 else 320,
      if env.fbHeight > 300 then env.fbHeight - 220 else 180⟩
    let ui ← filewinRefreshList env { ui with filewin := {
        window := ui.filewin.window.placed rect true
        pathFocus := false
        path := copyInto filewinPathSize ui.session.desktopDir
        selection := none } }
    pure { ui with front := .file }

def filePickerCancel (ui : Ui) : Ui := { ui with picker := ⟨false, [], none⟩ }

def filewinClose (ui : Ui) : Ui :=
  desktopRender (filePickerCancel (ui.setWindow .file ui.filewin.window.closed))

/-! ## Other windows -/

def taskmgrOpen (env : Env) (ui : Ui) : Ui :=
  if ui.taskmgr.shown then ui
  else
    let rect : Rect := ⟨120, 100, if env.fbWidth > 480 then env.fbWidth - 240 else 360,
      if env.fbHeight > 260 then env.fbHeight - 260 else 200⟩
    { ui with taskmgr := ui.taskmgr.placed rect true, front := .taskmgr }

def terminalOpen (env : Env) (ui : Ui) : Ui :=
  if ui.terminal.shown then ui
  else
    let rect : Rect := ⟨180, 120, if env.fbWidth > 420 then env.fbWidth - 260 else 360,
      if env.fbHeight > 260 then env.fbHeight - 260 else 220⟩
    { ui with terminal := ui.terminal.placed rect true, front := .terminal }

def wavplayOpen (ui : Ui) : Ui :=
  if ui.wavplay.window.shown then ui
  else { ui with
    wavplay := ⟨{ ui.wavplay.window.placed ⟨200, 140, 360, 160⟩ false with dragging := false },
      [], []⟩
    front := .wavplay }

/-- The close button of the windows without an application. -/
def windowClose (id : WinId) (ui : Ui) : Ui := desktopRender (ui.setWindow id (ui.window id).closed)

def imgviewClose (ui : Ui) : Ui :=
  desktopRender { ui with imgview := { ui.imgview with
      window := ui.imgview.window.closed
      resizing := false
      img := none } }

def wavplayClose (ui : Ui) : Ui :=
  desktopRender { ui with wavplay := { ui.wavplay with
      window := { ui.wavplay.window with
        isOpen := false, minimized := false, dragging := false } } }

/-- Fill the screen between the bars, or go back to the place before. -/
def Window.toggleMaximize (env : Env) (window : Window) : Window :=
  if !window.isOpen || !window.canMaximize then window
  else if window.maximized then { window with rect := window.prev, maximized := false }
  else { window with
    prev := window.rect
    rect := ⟨6, 32, env.fbWidth - 12, env.fbHeight - 28 - 32 - 8⟩
    maximized := true }

/-- A 32-bit value as a signed number. -/
def int32 (value : Nat) : Int := if value < 2147483648 then value else (value : Int) - 4294967296

def imgviewLoadBmp (env : Env) (input : Input) (fullpath : List UInt8) (ui : Ui) :
    DiskM (Ui × Option Image) := do
  let (ui, header) ← ui.readFile env fullpath 128
  let hdr := Buffer.ofList header.out
  let fileSize := hdr.getU32 2
  let dataOff := hdr.getU32 10
  let w := int32 (hdr.getU32 18)
  let hRaw := int32 (hdr.getU32 22)
  let bpp := hdr.getU16 28
  if header.code ≠ 0 ∨ header.outBytes < 54 ∨ hdr 0 ≠ 0x42 ∨ hdr 1 ≠ 0x4D then pure (ui, none)
  else if fileSize = 0 ∨ fileSize > 8 * 1024 * 1024 then pure (ui, none)
  else if hdr.getU16 26 ≠ 1 ∨ (bpp ≠ 24 ∧ bpp ≠ 32) ∨ hdr.getU32 30 ≠ 0 ∨ w ≤ 0 ∨ hRaw = 0 then
    pure (ui, none)
  else if !input.allocs then pure (ui, none)
  else do
    let (ui, full) ← ui.readFile env fullpath fileSize
    if full.code ≠ 0 ∨ full.outBytes < fileSize ∨ dataOff ≥ fileSize then pure (ui, none)
    else pure (ui, some ⟨w, hRaw.natAbs, full.out⟩)

def imgviewOpenPath (env : Env) (input : Input) (fullpath : List UInt8) (ui : Ui) :
    DiskM Ui :=
  if fullpath = [] then pure ui
  else do
    let (mounted, ui) ← ensureVolumeMounted env ui
    if !mounted then pure ui
    else do
      let (ui, loaded) ← imgviewLoadBmp env input fullpath ui
      match loaded with
      | none => pure ui
      | some img =>
          let rect : Rect := ⟨160, 110, if env.fbWidth > 520 then env.fbWidth - 220 else 360,
            if env.fbHeight > 360 then env.fbHeight - 260 else 220⟩
          pure { ui with
            imgview := { ui.imgview with
              window := ui.imgview.window.placed rect true
              img := some img
              path := copyInto 96 fullpath }
            front := .imgview }

/-- Playing reads the file and hands it to the sound device. -/
def soundPlayWavPath (env : Env) (input : Input) (path : List UInt8) (ui : Ui) : DiskM Ui :=
  if !env.ac97Ready || !ui.volMounted || !input.allocs then pure ui
  else do
    let (ui, _) ← ui.readFile env path (2 * 1024 * 1024)
    pure ui

/-! ## File picker -/

def filePickerStart (env : Env) (ext : List UInt8) (cb : PickerCb) (ui : Ui) : DiskM Ui := do
  let ui := { ui with picker := ⟨true, (ext.take 4).map toUpper, some cb⟩ }
  let ui ← if ui.filewin.window.isOpen then pure ui else filewinOpen env ui
  let ui ← filewinSetPath env ui.session.desktopDir ui
  pure { ui with filewin := { ui.filewin with pathFocus := false }, front := .file }

def pickerCall (env : Env) (fullpath name83 : List UInt8) (ui : Ui) : PickerCb → DiskM Ui
  | .notepadFilePick => do
      let ui ← notepadOpenPath env fullpath ui
      pure { ui with front := .notepad }
  | .wavplayPick => pure { ui with
      wavplay := ⟨{ ui.wavplay.window with isOpen := true, minimized := false },
        copyInto 128 fullpath, copyInto 32 name83⟩
      front := .wavplay }

def filePickerHandleSelection (env : Env) (fullpath name83 : List UInt8) (ui : Ui) : DiskM Ui :=
  if !ui.picker.active then pure ui
  else match ui.picker.cb with
    | none => pure ui
    | some cb => do
        let ui ← pickerCall env fullpath name83 ui cb
        let ui := filePickerCancel ui
        pure (desktopRender (ui.setWindow .file { ui.filewin.window with isOpen := false }))

/-! ## Name prompt -/

def startNamePrompt (mode : PromptMode) (defaultText title : List UInt8) (ui : Ui) : Ui :=
  { ui with prompt := ⟨true, false, copyInto namePromptBufSize defaultText, mode,
      copyInto 48 title⟩ }

def startSaveAs (ui : Ui) : Ui :=
  startNamePrompt .saveAs
    (if ui.notepad.name = [] then ascii "UNTITLED.TXT" else ui.notepad.name) (ascii "Save As:") ui

/-- The prompt and the context menu are gone. -/
def promptDone (ui : Ui) : Ui :=
  { ui with
    prompt := { ui.prompt with active := false }
    ctxMenu := { ui.ctxMenu with visible := false } }

/-- The name that the prompt asks to create. -/
def promptNewName (ui : Ui) : List UInt8 :=
  let fallback := sanitizeTxtName 32 (ascii "NEWFILE.TXT")
  if ui.prompt.buf = [] then fallback
  else
    let name := sanitizeTxtName 32 ui.prompt.buf
    if name = [] then fallback else name

def createTxtFileFromPrompt (env : Env) (ui : Ui) : DiskM Ui := do
  let (mounted, ui) ← ensureVolumeMounted env ui
  if !mounted || ui.vol.secPerClus == 0 || ui.vol.totSec32 == 0 || ui.vol.firstDataLba == 0 then
    pure (promptDone ui)
  else do
    let name := promptNewName ui
    let (ui, r) ← ui.writeFile env (desktopPathForName ui name) [0x0A]
    if r = 0 then do
      let ui ← desktopRefreshFromPath env ui
      let ui ← notepadOpen env name ui
      pure (promptDone { ui with front := .notepad })
    else pure (promptDone ui)

def namePromptCommit (env : Env) (ui : Ui) : DiskM Ui :=
  match ui.prompt.mode with
  | .createTxt => createTxtFileFromPrompt env ui
  | .openTxt => do
      let (mounted, ui) ← ensureVolumeMounted env ui
      if mounted then do
        let ui ← notepadOpen env (sanitizeTxtName 32 ui.prompt.buf) ui
        pure (promptDone { ui with front := .notepad })
      else pure (promptDone ui)
  | .saveAs => do
      let (mounted, ui) ← ensureVolumeMounted env ui
      if mounted then do
        let (_, ui) ← notepadSaveCurrent env (some (sanitizeTxtName 32 ui.prompt.buf)) ui
        pure (promptDone ui)
      else pure (promptDone ui)
  | .none => pure (promptDone ui)

/-! ## Users -/

def userAdd (users : List User) (name pass : List UInt8) : List User :=
  if users.length ≥ maxUsers then users else users ++ [⟨copyInto 16 name, copyInto 32 pass⟩]

def defaultUsers : List User :=
  userAdd (userAdd [] (ascii "admin") (ascii "1234")) (ascii "guest") []

/-- One line `name:pass`; spaces behind the name are dropped. -/
def userParseLine (users : List User) (line : List UInt8) : List User :=
  if 0x3A ∈ line then
    let name := (line.takeWhile (· ≠ 0x3A)).rdropWhile fun char => char = 0x20 ∨ char = 0x0D
    if name = [] then users else userAdd users name ((line.dropWhile (· ≠ 0x3A)).drop 1)
  else users

/-- Lines of at most 63 characters; what is longer goes on as the next line. -/
def userParseLines : (fuel : Nat) → List User → List UInt8 → List User
  | 0, users, _ => users
  | fuel + 1, users, text =>
      if text = [] then users
      else
        let line := (text.takeWhile (· ≠ 0x0A)).take 63
        let rest := text.drop line.length
        userParseLines fuel (userParseLine users line)
          (if rest.head? = some 0x0A then rest.drop 1 else rest)

def userVerify (users : List User) (name pw : List UInt8) : Bool :=
  match users.find? fun user => user.name == name with
  | some user => user.pass == pw
  | none => false

/-- The user list from the disk, or the default one, which is then stored. -/
def ensureUserStore (env : Env) (ui : Ui) : DiskM Ui :=
  let ui := { ui with login := { ui.login with
      users := [], selected := 0, hover := none, pw := [] } }
  if !ui.volMounted then pure { ui with login := { ui.login with users := defaultUsers } }
  else do
    let ui ← ensureUserDirsOnDisk env (ascii "ADMIN") ui
    let ui ← ensureUserDirsOnDisk env (ascii "GUEST") ui
    let (ui, _) ← ui.ensureDir env pathWallDir
    let (ui, result) ← ui.readFile env userFile 511
    let defBody := ascii "admin:1234\nguest:\n"
    let (ui, body) ←
      if result.code = 0 then pure (ui, result.out.takeWhile (· ≠ 0))
      else do
        let (ui, _) ← ui.writeFile env userFile defBody
        pure (ui, defBody)
    let users := userParseLines body.length [] body
    pure (buildUserDesktopPath ui.session.loggedInUser { ui with login := { ui.login with
        users := if users = [] then defaultUsers else users
        active := true
        pwFocus := true
        message := ascii "Select a user and log in." } })

def startDesktopSession (env : Env) (ui : Ui) : DiskM Ui :=
  if ui.session.started || !env.fbReady then pure ui
  else do
    let ui ← filewinOpen env { ui with session := { ui.session with started := true } }
    pure (desktopRender (taskmgrOpen env ui))

/-- The user that `login_attempt` checks, and the list it is taken from. -/
def loginUser (ui : Ui) : Nat × List User :=
  let users := if ui.login.users = [] then defaultUsers else ui.login.users
  (if ui.login.selected ≥ users.length then 0 else ui.login.selected, users)

/-- Whether `login_attempt` will succeed. -/
def loginSucceeds (ui : Ui) : Bool :=
  let (selected, users) := loginUser ui
  userVerify users (users.getD selected ⟨[], []⟩).name ui.login.pw

def loginAttempt (env : Env) (ui : Ui) : DiskM Ui :=
  let (selected, users) := loginUser ui
  let uname := (users.getD selected ⟨[], []⟩).name
  let ui := { ui with login := { ui.login with selected := selected, users := users } }
  if userVerify users uname ui.login.pw then do
    let ui := { ui with
      session := { ui.session with loggedInUser := copyInto 16 uname }
      login := { ui.login with message := ascii "Welcome, " ++ uname } }
    let ui ← ensureUserDirsOnDisk env uname ui
    let ui ← desktopRefreshFromPath env (buildUserDesktopPath uname ui)
    startDesktopSession env { ui with login := { ui.login with active := false } }
  else pure { ui with login := { ui.login with
      message := ascii "Password does not match for " ++ uname
      pw := [] } }

end ParanOS

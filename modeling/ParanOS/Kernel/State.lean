import ParanOS.Driver
import ParanOS.Kernel.Text

/-! # The state of the user interface

The globals of `kernel.c`, `desktop.c` and `wm.c` that the event loop of `kmain`
reads or changes. Values that only the drawing code uses are left out.
-/

namespace ParanOS

open Foundation

/-- What the machine has, fixed for a run: the frame buffer, the font, the disk
and the sound device, and the bound for walks along cluster chains. -/
structure Env where
  fbReady : Bool
  fbWidth : Int
  fbHeight : Int
  psfWidth : Int
  psfHeight : Int
  diskPresent : Bool
  ac97Ready : Bool
  fuel : Nat

/-- What one iteration of the loop finds: a scancode if one came in, the mouse,
the tick counter, whether the frame timer is due, and whether the kernel heap
grants the requests of this iteration. -/
structure Input where
  scancode : Option UInt8
  mx : Int
  my : Int
  left : Bool
  right : Bool
  middle : Bool
  jiffies : Nat
  redraw : Bool
  allocs : Bool

/-! ## Windows -/

/-- The windows in the order of their registration with `wm_register_window`. -/
inductive WinId
  | notepad
  | file
  | taskmgr
  | display
  | terminal
  | imgview
  | wavplay
  deriving DecidableEq

def winIds : List WinId := [.notepad, .file, .taskmgr, .display, .terminal, .imgview, .wavplay]

structure Rect where
  wx : Int
  wy : Int
  ww : Int
  wh : Int
  deriving DecidableEq

/-- The fields that all the window records have. -/
structure Window where
  isOpen : Bool
  minimized : Bool
  maximized : Bool
  canMinimize : Bool
  canMaximize : Bool
  rect : Rect
  prev : Rect
  dragging : Bool
  dragOffx : Int
  dragOffy : Int
  deriving DecidableEq

/-- A window record of zeros. -/
def Window.zero : Window :=
  ⟨false, false, false, false, false, ⟨0, 0, 0, 0⟩, ⟨0, 0, 0, 0⟩, false, 0, 0⟩

/-- Open and not minimised. -/
def Window.shown (window : Window) : Bool := window.isOpen && !window.minimized

/-- Opened at a place, not minimised and not maximised. -/
def Window.placed (window : Window) (rect : Rect) (canMaximize : Bool) : Window :=
  { window with
    isOpen := true, minimized := false, maximized := false
    canMinimize := true, canMaximize := canMaximize, rect := rect }

def Window.closed (window : Window) : Window :=
  { window with isOpen := false, minimized := false, maximized := false }

/-- Text Editor; the text is the part of `buf` before `len`. -/
structure Notepad where
  window : Window
  name : List UInt8
  text : List UInt8
  path : List UInt8
  deriving DecidableEq

/-- `sizeof(g_notepad.buf)`. -/
def notepadBufSize : Nat := 4096

/-- File Explorer; `path_len` is the length of `path`, -1 for no selection. -/
structure FileWin where
  window : Window
  pathFocus : Bool
  path : List UInt8
  selection : Option Nat
  deriving DecidableEq

/-- `sizeof(g_filewin.path)`. -/
def filewinPathSize : Nat := 96

/-- An image of this size, made from these bytes of a BMP file. -/
structure Image where
  width : Int
  height : Int
  bytes : List UInt8
  deriving DecidableEq

structure ImgView where
  window : Window
  resizing : Bool
  resizeOffx : Int
  resizeOffy : Int
  img : Option Image
  path : List UInt8
  deriving DecidableEq

structure WavPlay where
  window : Window
  path : List UInt8
  name : List UInt8
  deriving DecidableEq

/-! ## Desktop, prompt, picker and menus -/

structure DesktopItem where
  name : List UInt8
  attr : UInt8
  size : Nat
  deriving DecidableEq

def DesktopItem.isDir (item : DesktopItem) : Bool := item.attr &&& 0x10 ≠ 0

def desktopMaxItems : Nat := 128

structure Desktop where
  items : List DesktopItem
  selection : Option Nat
  lastClickTick : Nat
  lastClickIndex : Option Nat
  deriving DecidableEq

inductive PromptMode
  | none
  | createTxt
  | openTxt
  | saveAs
  deriving DecidableEq

structure NamePrompt where
  active : Bool
  readyClick : Bool
  buf : List UInt8
  mode : PromptMode
  title : List UInt8
  deriving DecidableEq

/-- `sizeof(name_prompt_buf)`. -/
def namePromptBufSize : Nat := 32

/-- The functions that are passed to `file_picker_start`. -/
inductive PickerCb
  | notepadFilePick
  | wavplayPick
  deriving DecidableEq

structure FilePicker where
  active : Bool
  ext : List UInt8
  cb : Option PickerCb
  deriving DecidableEq

inductive CtxTarget
  | desktop
  | notepad
  | filewin
  deriving DecidableEq

inductive CtxAction
  | newTxt
  | refreshDesktop
  | notepadNew
  | notepadOpen
  | notepadSave
  | notepadSaveAs
  | notepadClose
  | fileRefresh
  | fileOpen
  | fileUp
  | winMinimize
  | winToggleMax
  deriving DecidableEq

structure CtxMenu where
  visible : Bool
  x : Int
  y : Int
  w : Int
  h : Int
  items : List (List UInt8 × CtxAction)
  deriving DecidableEq

inductive LaunchType
  | logout
  | reboot
  | shutdown
  | app
  deriving DecidableEq

structure LaunchItem where
  name : List UInt8
  type : LaunchType
  path : List UInt8
  deriving DecidableEq

structure LaunchMenu where
  visible : Bool
  x : Int
  y : Int
  items : List LaunchItem
  deriving DecidableEq

/-! ## Users -/

structure User where
  name : List UInt8
  pass : List UInt8
  deriving DecidableEq

def maxUsers : Nat := 8

structure Login where
  active : Bool
  selected : Nat
  hover : Option Nat
  pwFocus : Bool
  pw : List UInt8
  message : List UInt8
  users : List User
  deriving DecidableEq

/-- `sizeof(g_login_pw)`. -/
def loginPwSize : Nat := 32

/-- Who is logged in, with the directories of that user. -/
structure Session where
  started : Bool
  loggedInUser : List UInt8
  desktopDir : List UInt8
  progDir : List UInt8
  deriving DecidableEq

structure Keys where
  altDown : Bool
  winDown : Bool
  shiftDown : Nat
  capsOn : Bool
  deriving DecidableEq

/-! ## All of it -/

structure Ui where
  vol : Vol
  volMounted : Bool
  keys : Keys
  prevLeft : Bool
  prevRight : Bool
  front : WinId
  notepad : Notepad
  filewin : FileWin
  fileItems : List DesktopItem
  fileStatus : List UInt8
  fileLastClick : Nat
  fileLastIdx : Option Nat
  taskmgr : Window
  display : Window
  terminal : Window
  imgview : ImgView
  wavplay : WavPlay
  desktop : Desktop
  prompt : NamePrompt
  picker : FilePicker
  ctxMenu : CtxMenu
  topmenuOpen : Option Nat
  launch : LaunchMenu
  login : Login
  session : Session
  /-- The path that `filewin_refresh_list` listed last. No function reads it:
  it is here for statements about where the items come from. -/
  listedPath : List UInt8

/-- The record of a window. -/
def Ui.window (ui : Ui) : WinId → Window
  | .notepad => ui.notepad.window
  | .file => ui.filewin.window
  | .taskmgr => ui.taskmgr
  | .display => ui.display
  | .terminal => ui.terminal
  | .imgview => ui.imgview.window
  | .wavplay => ui.wavplay.window

def Ui.setWindow (ui : Ui) (id : WinId) (window : Window) : Ui :=
  match id with
  | .notepad => { ui with notepad := { ui.notepad with window := window } }
  | .file => { ui with filewin := { ui.filewin with window := window } }
  | .taskmgr => { ui with taskmgr := window }
  | .display => { ui with display := window }
  | .terminal => { ui with terminal := window }
  | .imgview => { ui with imgview := { ui.imgview with window := window } }
  | .wavplay => { ui with wavplay := { ui.wavplay with window := window } }

/-- The condition of many handlers: the window is shown and in front. -/
def Ui.focused (ui : Ui) (id : WinId) : Bool := (ui.window id).shown && ui.front == id

/-- Alt+Tab: the next open window in the order of registration, minimised or
not. -/
def wmCycleNext (ui : Ui) : Ui :=
  let start := winIds.idxOf ui.front
  let next := (List.range' 1 winIds.length).map fun i =>
    winIds.getD ((start + i) % winIds.length) .notepad
  match next.find? fun id => (ui.window id).isOpen with
  | some id => { ui with front := id }
  | none => ui

def topmenuActiveWindow (ui : Ui) : Bool := ui.focused .notepad

/-- Drawing closes the top menu when its window is not in front. -/
def desktopRender (ui : Ui) : Ui :=
  if topmenuActiveWindow ui then ui else { ui with topmenuOpen := none }

/-! ## Paths -/

def pathBaseDir : List UInt8 := ascii "PARANOS"
def pathUsersDir : List UInt8 := ascii "PARANOS/USERS"
def pathWallDir : List UInt8 := ascii "PARANOS/WALLPAPR"
def userFile : List UInt8 := ascii "PARANOS/USERS/USERS.TXT"

/-- The state when `kmain` has registered its windows. -/
def Ui.initial (vol : Vol) : Ui where
  vol := vol
  volMounted := false
  keys := ⟨false, false, 0, false⟩
  prevLeft := false
  prevRight := false
  front := .taskmgr
  notepad := ⟨.zero, [], [], []⟩
  filewin := ⟨.zero, false, [], some 0⟩
  fileItems := []
  fileStatus := []
  fileLastClick := 0
  fileLastIdx := none
  taskmgr := .zero
  display := .zero
  terminal := .zero
  imgview := ⟨.zero, false, 0, 0, none, []⟩
  wavplay := ⟨.zero, [], []⟩
  desktop := ⟨[], none, 0, none⟩
  prompt := ⟨false, false, [], .none, ascii "Filename:"⟩
  picker := ⟨false, [], none⟩
  ctxMenu := ⟨false, 0, 0, 180, 0, []⟩
  topmenuOpen := none
  launch := ⟨false, 10, 0, []⟩
  login := ⟨true, 0, none, true, [], ascii "Select a user and log in.", []⟩
  session := ⟨false, ascii "ADMIN", ascii "PARANOS/USERS/ADMIN/DESKTOP",
    ascii "PARANOS/USERS/ADMIN/PROGRAMS"⟩
  listedPath := []

end ParanOS

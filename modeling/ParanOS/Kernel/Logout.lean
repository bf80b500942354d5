import ParanOS.Kernel.Prompt

/-! # From one session to the next

Logging out closes the editor and the Explorer, and nothing else of what a user
had in hand: the other windows, the name prompt, the file picker and the context
menu stay as they are. The next login neither reads nor changes them, so the next
user finds exactly what was open or active when the first one left.
-/

namespace ParanOS

open Foundation

/-! ## What belongs to a session -/

/-- What a user has in hand. -/
structure InHand where
  notepad : Notepad
  imgview : ImgView
  wavplay : WavPlay
  prompt : NamePrompt
  picker : FilePicker
  ctxMenu : CtxMenu

namespace InHand

/-- Nothing in hand. -/
def blank : InHand where
  notepad := ⟨.zero, [], [], []⟩
  imgview := ⟨.zero, false, 0, 0, none, []⟩
  wavplay := ⟨.zero, [], []⟩
  prompt := ⟨false, false, [], .none, []⟩
  picker := ⟨false, [], none⟩
  ctxMenu := ⟨false, 0, 0, 0, 0, []⟩

/-- With the editor closed as `launch_do_logout` does. -/
def loggedOut (own : InHand) : InHand :=
  { own with notepad := { own.notepad with
      window := { own.notepad.window with isOpen := false } } }

/-- Whether the context menu has an entry that saves what is in the editor. -/
def menuSaves (own : InHand) : Bool :=
  own.ctxMenu.visible &&
    own.ctxMenu.items.any fun item => item.2 = .notepadSave || item.2 = .notepadSaveAs

/-- Whether the prompt, when confirmed, saves what is in the editor. -/
def promptSaves (own : InHand) : Bool := own.prompt.active && own.prompt.mode = .saveAs

end InHand

/-- What is drawn or takes input besides the window of the editor: the windows
that are open, the prompt, the picker and the menu that are active, and the text
in the editor with its name and path if one of them can save it. -/
structure Leftover where
  imgview : Option ImgView
  wavplay : Option WavPlay
  prompt : Option NamePrompt
  picker : Option FilePicker
  ctxMenu : Option CtxMenu
  document : Option (List UInt8 × List UInt8 × List UInt8)
  deriving DecidableEq

def InHand.leftover (own : InHand) : Leftover where
  imgview := if own.imgview.window.isOpen then some own.imgview else none
  wavplay := if own.wavplay.window.isOpen then some own.wavplay else none
  prompt := if own.prompt.active then some own.prompt else none
  picker := if own.picker.active then some own.picker else none
  ctxMenu := if own.ctxMenu.visible then some own.ctxMenu else none
  document := if own.menuSaves || own.promptSaves then
    some (own.notepad.name, own.notepad.text, own.notepad.path) else none

namespace Ui

def inHand (ui : Ui) : InHand :=
  ⟨ui.notepad, ui.imgview, ui.wavplay, ui.prompt, ui.picker, ui.ctxMenu⟩

/-- The same machine with other things in the user's hand. -/
def withInHand (ui : Ui) (own : InHand) : Ui :=
  { ui with
    notepad := own.notepad, imgview := own.imgview, wavplay := own.wavplay
    prompt := own.prompt, picker := own.picker, ctxMenu := own.ctxMenu }

/-- All that is drawn or takes input: the parts that no session owns, the editor
if it is open, and what else is open or active. -/
def observe (ui : Ui) : Ui × Option Notepad × Leftover :=
  (ui.withInHand .blank, if ui.notepad.window.isOpen then some ui.notepad else none,
    ui.inHand.leftover)

end Ui

/-- Log out, and log in with what has been entered on the login screen. -/
def relogin (env : Env) (login : Login) (ui : Ui) : DiskM Ui :=
  loginAttempt env { launchDoLogout ui with login := login }

/-! ## Two sessions side by side -/

/-- Two states that differ at most in what is in the user's hand. -/
def Alike (own other : InHand) (left right : Ui) : Prop :=
  ∃ ui : Ui, left = ui.withInHand own ∧ right = ui.withInHand other

/-- The handler does the same with either of the two in hand, and leaves it. -/
def Blind (own other : InHand) (handler : Ui → DiskM Ui) : Prop :=
  ∀ ui : Ui,
    SideBySide (Alike own other) (handler (ui.withInHand own)) (handler (ui.withInHand other))

section Blind

variable {own other : InHand}

/-- A step that reads and changes other parts of the state only. -/
theorem Alike.of_update {left right : Ui} (update : Ui → Ui)
    (apart : ∀ (ui : Ui) (own : InHand), update (ui.withInHand own) = (update ui).withInHand own)
    (alike : Alike own other left right) : Alike own other (update left) (update right) := by
  rcases alike with ⟨ui, rfl, rfl⟩
  exact ⟨update ui, apart ui own, apart ui other⟩

theorem Blind.after {handler : Ui → DiskM Ui} (blind : Blind own other handler) {left right : Ui}
    (alike : Alike own other left right) :
    SideBySide (Alike own other) (handler left) (handler right) := by
  rcases alike with ⟨ui, rfl, rfl⟩
  exact blind ui

/-- A call on the volume has the same result in both. -/
theorem withVol_alike {α : Type} (ui : Ui) (call : Vol → DiskM (Vol × α)) :
    SideBySide (fun left right => Alike own other left.1 right.1 ∧ left.2 = right.2)
      ((ui.withInHand own).withVol call) ((ui.withInHand other).withVol call) := by
  apply SideBySide.bind (.same (call ui.vol))
  intro result _ same
  rw [← same]
  exact .pure ⟨⟨{ ui with vol := result.1 }, rfl, rfl⟩, rfl⟩

theorem ensureUserDirsOnDisk_blind (env : Env) (uname : List UInt8) :
    Blind own other (ensureUserDirsOnDisk env uname) := by
  intro ui
  have alike : Alike own other (ui.withInHand own) (ui.withInHand other) := ⟨ui, rfl, rfl⟩
  apply SideBySide.ite
  · intro _
    exact .pure alike
  · intro _
    apply SideBySide.foldlM _ _ alike
    intro left right dir current
    rcases current with ⟨ui, rfl, rfl⟩
    exact SideBySide.bind (withVol_alike ui _) fun _ _ results => .pure results.1

section Closed

/-! With the editor closed in both, drawing is the same too. -/

variable (closed : own.notepad.window.isOpen = false)
  (otherClosed : other.notepad.window.isOpen = false)

include closed otherClosed

/-- Drawing looks at the editor only to see whether it is shown. -/
theorem desktopRender_alike {left right : Ui} (alike : Alike own other left right) :
    Alike own other (desktopRender left) (desktopRender right) := by
  rcases alike with ⟨ui, rfl, rfl⟩
  have hidden : ∀ own : InHand, own.notepad.window.isOpen = false →
      desktopRender (ui.withInHand own) = { ui with topmenuOpen := none }.withInHand own := by
    intro own closed
    have unfocused : topmenuActiveWindow (ui.withInHand own) = false := by
      have shown : own.notepad.window.shown = false := by
        rw [Window.shown, closed, Bool.false_and]
      exact Bool.and_eq_false_imp.mpr fun isShown => absurd (shown.symm.trans isShown) (by decide)
    rw [desktopRender, unfocused]
    rfl
  exact ⟨{ ui with topmenuOpen := none }, hidden own closed, hidden other otherClosed⟩

theorem desktopRefreshFromPath_blind (env : Env) :
    Blind own other (desktopRefreshFromPath env) := by
  intro ui
  apply SideBySide.ite
  · intro _
    exact .pure ⟨ui, rfl, rfl⟩
  · intro _
    apply SideBySide.bind (ensureUserDirsOnDisk_blind env _ ui)
    intro left right prepared
    rcases prepared with ⟨ui, rfl, rfl⟩
    apply SideBySide.bind (withVol_alike ui _)
    intro left right listed
    rcases left with ⟨left, code, entries⟩
    rcases right with ⟨right, otherCode, otherEntries⟩
    rcases listed with ⟨alike, same⟩
    cases same
    have filled : ∀ items,
        Alike own other (desktopSetItems items left) (desktopSetItems items right) :=
      fun items => alike.of_update (desktopSetItems items) fun _ _ => rfl
    apply SideBySide.ite
    · intro _
      exact .pure (desktopRender_alike closed otherClosed (filled _))
    · intro _
      exact .pure (filled [])

omit closed otherClosed in
theorem filewinRefreshList_blind (env : Env) : Blind own other (filewinRefreshList env) := by
  intro ui
  let emptied : Ui := { ui with fileItems := [], fileStatus := [], listedPath := ui.filewin.path }
  have noted : ∀ {left right : Ui} status, Alike own other left right →
      Alike own other { left with fileStatus := status } { right with fileStatus := status } :=
    fun status alike => alike.of_update (fun ui => { ui with fileStatus := status }) fun _ _ => rfl
  apply SideBySide.ite
  · intro _
    exact .pure (noted (ascii "Disk not mounted") ⟨emptied, rfl, rfl⟩)
  · intro _
    apply SideBySide.bind (withVol_alike emptied _)
    intro left right listed
    rcases left with ⟨left, code, entries⟩
    rcases right with ⟨right, otherCode, otherEntries⟩
    rcases listed with ⟨alike, same⟩
    cases same
    apply SideBySide.ite
    · intro _
      exact .pure (noted _ alike)
    · intro _
      exact .pure (alike.of_update (fun ui => { ui with
        fileItems := shownItems entries
        filewin := { ui.filewin with selection := none }
        fileStatus := ascii "OK" }) fun _ _ => rfl)

omit closed otherClosed in
theorem filewinOpen_blind (env : Env) : Blind own other (filewinOpen env) := by
  intro ui
  apply SideBySide.ite
  · intro _
    exact .pure ⟨ui, rfl, rfl⟩
  · intro _
    let placed : Ui := { ui with filewin := {
      window := ui.filewin.window.placed
        ⟨80, 80, if env.fbWidth > 500 then env.fbWidth - 200 else 320,
        if env.fbHeight > 300 then env.fbHeight - 220 else 180⟩ true
      pathFocus := false
      path := copyInto filewinPathSize ui.session.desktopDir
      selection := none } }
    apply SideBySide.bind (filewinRefreshList_blind env placed)
    intro left right alike
    exact .pure (alike.of_update (fun ui => { ui with front := .file }) fun _ _ => rfl)

omit closed otherClosed in
theorem taskmgrOpen_alike (env : Env) {left right : Ui} (alike : Alike own other left right) :
    Alike own other (taskmgrOpen env left) (taskmgrOpen env right) := by
  apply alike.of_update (taskmgrOpen env)
  intro ui own
  change (if ui.taskmgr.shown then ui.withInHand own else _) =
    (if ui.taskmgr.shown then ui else _).withInHand own
  rw [apply_ite (Ui.withInHand · own)]
  rfl

theorem startDesktopSession_blind (env : Env) : Blind own other (startDesktopSession env) := by
  intro ui
  apply SideBySide.ite
  · intro _
    exact .pure ⟨ui, rfl, rfl⟩
  · intro _
    apply SideBySide.bind
      (filewinOpen_blind env { ui with session := { ui.session with started := true } })
    intro left right alike
    exact .pure (desktopRender_alike closed otherClosed (taskmgrOpen_alike env alike))

theorem loginAttempt_blind (env : Env) : Blind own other (loginAttempt env) := by
  intro ui
  let found : Ui := { ui with login := { ui.login with
    selected := (loginUser ui).1, users := (loginUser ui).2 } }
  let uname := ((loginUser ui).2.getD (loginUser ui).1 ⟨[], []⟩).name
  apply SideBySide.ite
  · intro _
    let welcomed : Ui := { found with
      session := { found.session with loggedInUser := copyInto 16 uname }
      login := { found.login with message := ascii "Welcome, " ++ uname } }
    apply SideBySide.bind (ensureUserDirsOnDisk_blind env uname welcomed)
    intro left right prepared
    have built := prepared.of_update (buildUserDesktopPath uname) fun _ _ => rfl
    apply SideBySide.bind ((desktopRefreshFromPath_blind closed otherClosed env).after built)
    intro left right refreshed
    apply (startDesktopSession_blind closed otherClosed env).after
    exact refreshed.of_update (fun ui => { ui with login := { ui.login with active := false } })
      fun _ _ => rfl
  · intro _
    exact .pure ⟨{ found with login := { found.login with
      message := ascii "Password does not match for " ++ uname, pw := [] } }, rfl, rfl⟩

end Closed

end Blind

/-! ## What the next user finds -/

/-- Logging out closes the editor, whatever is in hand. -/
theorem relogin_withInHand (env : Env) (login : Login) (ui : Ui) (own : InHand) :
    relogin env login (ui.withInHand own) =
      loginAttempt env ({ launchDoLogout ui with login := login }.withInHand own.loggedOut) := rfl

theorem observe_withInHand_loggedOut (ui : Ui) (own : InHand) :
    (ui.withInHand own.loggedOut).observe = (ui.withInHand .blank, none, own.leftover) := rfl

/-- The next login does the same on the same machine, whatever was in hand, and
leaves it there but for the window of the editor. -/
theorem relogin_alike {env : Env} {login : Login} {ui result : Ui} {own : InHand} (other : InHand)
    {device device' : Device}
    (ran : relogin env login (ui.withInHand own) device = some (result, device')) :
    ∃ shared : Ui, result = shared.withInHand own.loggedOut ∧
      relogin env login (ui.withInHand other) device =
        some (shared.withInHand other.loggedOut, device') := by
  have blind : Blind own.loggedOut other.loggedOut (loginAttempt env) :=
    loginAttempt_blind rfl rfl env
  rw [relogin_withInHand] at ran
  rcases (blind _).returns ran with ⟨result', ran', alike⟩
  rcases alike with ⟨shared, rfl, rfl⟩
  exact ⟨shared, rfl, ran'⟩

theorem relogin_succeeded {env : Env} {login : Login} (ui : Ui) {result : Ui}
    {device device' : Device}
    (success : loginSucceeds { ui with login := login } = true)
    (ran : relogin env login ui device = some (result, device')) : result.login.active = false := by
  have active := ((loginAttempt_only env _).returns ran).2
  rw [active]
  exact Bool.and_eq_false_imp.mpr fun _ => congrArg (!·) success

/-- Two users leave with different things in hand on the same machine, and the
same login follows: it does the same to the disk in both cases, and the next user
can tell the two apart exactly if something different was left open or active. -/
theorem logout_isolated_iff {env : Env} {login : Login} {ui result : Ui} {own : InHand}
    (other : InHand) {device device' : Device}
    (success : loginSucceeds { ui with login := login } = true)
    (ran : relogin env login (ui.withInHand own) device = some (result, device')) :
    ∃ result', relogin env login (ui.withInHand other) device = some (result', device') ∧
      result.login.active = false ∧ result'.login.active = false ∧
      (result.observe = result'.observe ↔ own.leftover = other.leftover) := by
  have loggedIn := relogin_succeeded (ui.withInHand own) success ran
  rcases relogin_alike other ran with ⟨shared, rfl, ran'⟩
  refine ⟨_, ran', loggedIn, relogin_succeeded (ui.withInHand other) success ran', ?_⟩
  rw [observe_withInHand_loggedOut, observe_withInHand_loggedOut]
  constructor
  · intro same
    exact congrArg (·.2.2) same
  · intro same
    rw [same]

/-- What the guest enters on the login screen: no password. -/
def guestLogin (ui : Ui) : Login := { ui.login with active := true, selected := 1, pw := [] }

/-- The administrator leaves with the prompt of "Save As..." open; the guest logs
in on the same disk. -/
theorem adminLeaves :
    ∃ machine result device', Reachable sampleEnv machine ∧
      loginSucceeds { machine.ui with login := guestLogin machine.ui } = true ∧
      machine.ui.inHand.leftover ≠ InHand.blank.leftover ∧
      relogin sampleEnv (guestLogin machine.ui) (machine.ui.withInHand machine.ui.inHand)
        machine.device = some (result, device') := by
  have observed : (sampleRun openSaveAs (mouseInput 100 106 false)).map (fun run =>
      (loginSucceeds { run.2.ui with login := guestLogin run.2.ui },
        decide (run.2.ui.inHand.leftover = InHand.blank.leftover),
        (relogin sampleEnv (guestLogin run.2.ui) (run.2.ui.withInHand run.2.ui.inHand)
          run.2.device).isSome)) = some (true, false, true) := by
    decide +kernel
  rcases Option.map_eq_some_iff.mp observed with ⟨⟨current, next⟩, ran, same⟩
  rcases sampleRun_reachable ran with ⟨reachable, stepped⟩
  simp only [Prod.mk.injEq, decide_eq_false_iff_not] at same
  rcases Option.isSome_iff_exists.mp same.2.2 with ⟨⟨result, device'⟩, reloggedIn⟩
  exact ⟨next, result, device', reachable.later (.cons stepped trivial (.nil _)), same.1, same.2.1,
    reloggedIn⟩

/-- The guest can tell whether the prompt had been left open. -/
theorem logout_isolated_iff_prompt :
    ∃ machine result result' device', Reachable sampleEnv machine ∧
      relogin sampleEnv (guestLogin machine.ui) (machine.ui.withInHand machine.ui.inHand)
        machine.device = some (result, device') ∧
      relogin sampleEnv (guestLogin machine.ui) (machine.ui.withInHand .blank) machine.device =
        some (result', device') ∧
      (result.observe = result'.observe ↔
        machine.ui.inHand.leftover = InHand.blank.leftover) := by
  rcases adminLeaves with ⟨machine, result, device', reachable, success, _, ran⟩
  rcases logout_isolated_iff .blank success ran with ⟨result', ran', _, _, iff⟩
  exact ⟨machine, result, result', device', reachable, ran, ran', iff⟩

/-- What the administrator left open is there for the guest. -/
theorem logout_keeps_prompt :
    ¬ ∀ (env : Env) (machine : Machine) (other : InHand) (login : Login) (result result' : Ui)
      (device' : Device), Reachable env machine →
      loginSucceeds { machine.ui with login := login } = true →
      relogin env login machine.ui machine.device = some (result, device') →
      relogin env login (machine.ui.withInHand other) machine.device = some (result', device') →
      result.observe = result'.observe := by
  intro claim
  rcases adminLeaves with ⟨machine, result, device', reachable, success, different, ran⟩
  rcases relogin_alike .blank ran with ⟨shared, rfl, ran'⟩
  have same := claim sampleEnv machine .blank _ _ _ _ reachable success ran ran'
  rw [observe_withInHand_loggedOut, observe_withInHand_loggedOut] at same
  exact different (congrArg (·.2.2) same)

end ParanOS

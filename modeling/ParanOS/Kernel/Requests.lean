import ParanOS.Foundation.Traces
import ParanOS.Kernel.Run
import ParanOS.Remount

/-! # What the event loop asks of the driver

The kernel reaches the disk only by mounting it and by requests to the driver. For every handler
of the event loop, with any device and any volume, what it does to them is what a list of these
does, and the handlers write nothing but text files under names that were made fit for that,
empty files in the place of deleted ones, and the directories of the users.
-/

namespace ParanOS

open Foundation

/-! ## Uses of the disk -/

inductive DiskUse
  | mount
  | request (request : Request)

/-- Read the partition table and mount. -/
def mountDisk (v : Vol) : DiskM (Int × Vol) := do
  match ← rd 0 with
  | none => pure (-1, v)
  | some sec0 => fat32Mount v (mountLba sec0)

/-- Whether a volume is mounted, and what is noted of it. -/
def Ui.attached (ui : Ui) : Bool × Vol := (ui.volMounted, ui.vol)

/-- A mounted volume is not mounted again. -/
inductive DiskUse.Step (fuel : Nat) :
    DiskUse → (Bool × Vol) × Device → (Bool × Vol) × Device → Prop
  | mount {v v' code device device'} : mountDisk v device = some ((code, v'), device') →
      Step fuel .mount ((false, v), device) ((decide (code = 0), v'), device')
  | request {request mounted v v' reply device device'} :
      request.run fuel v device = some ((v', reply), device') →
      Step fuel (.request request) ((mounted, v), device) ((mounted, v'), device')

/-- The directories that every user needs. -/
def systemDirs (uname : List UInt8) : List (List UInt8) :=
  [pathBaseDir, pathUsersDir, pathWallDir, userDir uname, userDir uname ++ ascii "/DESKTOP",
    userDir uname ++ ascii "/PROGRAMS"]

inductive UiUse : DiskUse → Prop
  | mount : UiUse .mount
  | readPath (path maxBytes) : UiUse (.request (.readPath path maxBytes))
  | list (path maxItems) : UiUse (.request (.list path maxItems))
  | ensure (uname) {dir} : dir ∈ systemDirs uname → UiUse (.request (.ensure (.ofArray dir)))
  | save (dir source data) :
      UiUse (.request (.write (.ofArray (pathJoin 96 dir (sanitizeTxtName 32 source))) data))
  | empty (path) : UiUse (.request (.write path []))

/-- At the start the list of users may be stored as well. -/
inductive BootUse : DiskUse → Prop
  | loop {use} : UiUse use → BootUse use
  | users : BootUse (.request (.write (.ofArray userFile) (ascii "admin:1234\nguest:\n")))

/-- The program uses the disk only in the ways of the event loop. -/
abbrev Uses {α : Type} (env : Env) (ui : Ui) (program : DiskM α) (shown : α → Ui) : Prop :=
  Issues (DiskUse.Step env.fuel) UiUse ui.attached program fun value => (shown value).attached

section

variable {env : Env} {ui : Ui} {asked : DiskUse → Prop}

/-- A request whose reply is handed on in some form. -/
theorem withVol_uses {α : Type} {call : Vol → DiskM (Vol × α)} {request : Request}
    (reply : α → Reply) (may : asked (.request request))
    (same : ∀ v, request.run env.fuel v = call v >>= fun result =>
      pure (result.1, reply result.2)) :
    Issues (DiskUse.Step env.fuel) asked ui.attached (ui.withVol call)
      fun result => result.1.attached := by
  apply Issues.single may
  intro device value device' ran
  rcases DiskM.of_bind ran with ⟨⟨v, result⟩, between, callRan, restRan⟩
  simp only [DiskM.pure_apply, Option.some.injEq, Prod.mk.injEq] at restRan
  rcases restRan with ⟨rfl, rfl⟩
  have requestRan : request.run env.fuel ui.vol device = some ((v, reply result), between) := by
    rw [same, DiskM.bind_run callRan]
    rfl
  exact .request requestRan

theorem writeFile_uses {path data : List UInt8}
    (may : asked (.request (.write (.ofArray path) data))) (ui : Ui) :
    Issues (DiskUse.Step env.fuel) asked ui.attached (ui.writeFile env path data)
      fun result => result.1.attached :=
  withVol_uses .ofCode may fun _ => rfl

theorem ensureDir_uses {path : List UInt8} (may : asked (.request (.ensure (.ofArray path))))
    (ui : Ui) : Issues (DiskUse.Step env.fuel) asked ui.attached (ui.ensureDir env path)
      fun result => result.1.attached :=
  withVol_uses .ofCode may fun _ => rfl

theorem readFile_uses (env : Env) (path : List UInt8) (maxBytes : Nat) (ui : Ui) :
    Uses env ui (ui.readFile env path maxBytes) Prod.fst :=
  withVol_uses .ofRead (.readPath (.ofArray path) maxBytes) fun _ => rfl

theorem listDir_uses (env : Env) (path : List UInt8) (maxItems : Int) (ui : Ui) :
    Uses env ui (ui.listDir env path maxItems) Prod.fst :=
  withVol_uses .ofList (.list (.ofArray path) maxItems) fun _ => rfl

end

/-- A handler that starts from a state which was changed before. -/
theorem Uses.after {α : Type} {env : Env} {ui changed : Ui} {program : DiskM α} {shown : α → Ui}
    (same : changed.attached = ui.attached) (uses : Uses env changed program shown) :
    Uses env ui program shown := by
  rw [Uses, ← same]
  exact uses

theorem Uses.pure {α : Type} {env : Env} {ui : Ui} {value : α} {shown : α → Ui}
    (same : (shown value).attached = ui.attached) : Uses env ui (Pure.pure value) shown :=
  Issues.pure same

@[simp] theorem desktopRender_attached (ui : Ui) : (desktopRender ui).attached = ui.attached := by
  unfold desktopRender
  split
  · rfl
  · rfl

@[simp] theorem setWindow_attached (ui : Ui) (id : WinId) (window : Window) :
    (ui.setWindow id window).attached = ui.attached := by
  cases id <;> rfl

/-! ## Desktop and mounting -/

theorem ensureUserDirsOnDisk_uses (env : Env) (uname : List UInt8) (ui : Ui) :
    Uses env ui (ensureUserDirsOnDisk env uname ui) id := by
  apply Issues.ite
  · intro _
    exact .pure rfl
  · intro _
    apply Issues.foldlM Ui.attached (systemDirs uname)
    intro dir member ui
    exact (ensureDir_uses (.ensure uname member) ui).bind fun result => .pure rfl

theorem desktopRefreshFromPath_uses (env : Env) (ui : Ui) :
    Uses env ui (desktopRefreshFromPath env ui) id := by
  apply Issues.ite
  · intro _
    exact .pure rfl
  · intro _
    apply (ensureUserDirsOnDisk_uses env _ ui).bind
    intro ui
    apply (listDir_uses env _ _ ui).bind
    intro result
    apply Issues.ite
    · intro _
      exact Uses.pure (desktopRender_attached _)
    · intro _
      exact .pure rfl

theorem desktopDeleteSelection_uses (env : Env) (ui : Ui) :
    Uses env ui (desktopDeleteSelection env ui) id := by
  unfold desktopDeleteSelection
  cases ui.desktopSelected with
  | none => exact .pure rfl
  | some item =>
      apply Issues.ite
      · intro _
        exact .pure rfl
      · intro _
        apply (writeFile_uses (.empty _) ui).bind
        intro result
        apply Issues.ite
        · intro _
          exact desktopRefreshFromPath_uses env result.1
        · intro _
          exact .pure rfl

theorem desktopMoveSelection_attached (down : Bool) (ui : Ui) :
    (desktopMoveSelection down ui).attached = ui.attached := by
  unfold desktopMoveSelection
  split
  · rfl
  · rfl

/-- Reading the partition table and mounting, and what follows it. -/
theorem mountDisk_uses {α : Type} {env : Env} {asked : DiskUse → Prop} {ui : Ui} {nothing : DiskM α}
    {mounted : Int × Vol → DiskM α} {final : α → Bool × Vol} (may : asked .mount)
    (unmounted : ui.volMounted = false)
    (failed : Issues (DiskUse.Step env.fuel) asked ui.attached nothing final)
    (done : ∀ code v, Issues (DiskUse.Step env.fuel) asked (decide (code = 0), v)
      (mounted (code, v)) final) :
    Issues (DiskUse.Step env.fuel) asked ui.attached (do
      match ← rd 0 with
      | none => nothing
      | some sec0 => fat32Mount ui.vol (mountLba sec0) >>= mounted) final := by
  have start : ui.attached = (false, ui.vol) := by rw [Ui.attached, unmounted]
  rw [start] at failed ⊢
  constructor
  intro device value device' ran
  rcases DiskM.of_bind ran with ⟨sector, between, readRan, restRan⟩
  cases sector with
  | none =>
      rcases failed.returns restRan with ⟨labels, asks, trace⟩
      have missed : mountDisk ui.vol device = some ((-1, ui.vol), between) := by
        rw [mountDisk, DiskM.bind_run readRan]
        rfl
      exact ⟨.mount :: labels, by simpa [may] using asks, .cons (.mount missed) trace⟩
  | some sec0 =>
      rcases DiskM.of_bind restRan with ⟨⟨code, v⟩, later, mountRan, laterRan⟩
      rcases (done code v).returns laterRan with ⟨labels, asks, trace⟩
      have mount : mountDisk ui.vol device = some ((code, v), later) := by
        rw [mountDisk, DiskM.bind_run readRan]
        exact mountRan
      exact ⟨.mount :: labels, by simpa [may] using asks, .cons (.mount mount) trace⟩

theorem ensureVolumeMounted_uses (env : Env) (ui : Ui) :
    Uses env ui (ensureVolumeMounted env ui) Prod.snd := by
  apply Issues.ite
  · intro _
    exact .pure rfl
  · intro unmounted
    apply Issues.ite
    · intro _
      exact .pure rfl
    · intro _
      have start : ui.volMounted = false := by simpa using unmounted
      apply mountDisk_uses .mount start
      · exact .pure rfl
      · intro code v
        apply Issues.ite
        · intro success
          have attached : ∀ uname, Uses env { ui with vol := v, volMounted := true }
              (ensureUserDirsOnDisk env uname { ui with vol := v, volMounted := true }) id :=
            fun uname => ensureUserDirsOnDisk_uses env uname _
          rw [decide_eq_true success]
          apply (attached _).bind
          intro ui
          exact (desktopRefreshFromPath_uses env ui).bind fun ui => .pure rfl
        · intro failure
          rw [decide_eq_false failure]
          exact .pure (by rw [Ui.attached, start])

/-! ## Windows -/

theorem notepadOpenPath_uses (env : Env) (fullpath : List UInt8) (ui : Ui) :
    Uses env ui (notepadOpenPath env fullpath ui) id := by
  apply Issues.ite
  · intro _
    exact .pure rfl
  · intro _
    have cleared : (notepadSetPathAndName fullpath
        { ui with notepad := ⟨.zero, [], [], []⟩ }).attached = ui.attached := rfl
    exact Uses.after cleared ((readFile_uses env _ _ _).bind fun result => .pure rfl)

theorem notepadClose_attached (ui : Ui) : (notepadClose ui).attached = ui.attached := by
  simp [notepadClose]

/-- Every name that the editor saves under has been made fit. -/
theorem notepadSaveCurrent_uses (env : Env) (nameOverride : Option (List UInt8)) (ui : Ui) :
    Uses env ui (notepadSaveCurrent env nameOverride ui) Prod.snd := by
  apply (ensureVolumeMounted_uses env ui).bind
  intro mounted
  apply Issues.ite
  · intro _
    exact .pure rfl
  · intro _
    dsimp only
    generalize pathDirname 96 _ = dir
    have asks : ∀ source data, UiUse (.request (.write (.ofArray
        (if dir = [] then desktopPathForName mounted.2 (sanitizeTxtName 32 source)
          else pathJoin 96 dir (sanitizeTxtName 32 source))) data)) := by
      intro source data
      split
      · exact .save mounted.2.session.desktopDir source data
      · exact .save dir source data
    apply (writeFile_uses (asks _ _) mounted.2).bind
    intro result
    apply Issues.ite
    · intro _
      have noted : ∀ fullpath, (notepadSetPathAndName fullpath result.1).attached =
          result.1.attached := fun _ => rfl
      exact Uses.after (noted _)
        ((desktopRefreshFromPath_uses env _).bind fun refreshed => .pure rfl)
    · intro _
      exact .pure rfl

theorem filewinRefreshList_uses (env : Env) (ui : Ui) :
    Uses env ui (filewinRefreshList env ui) id := by
  apply Issues.ite
  · intro _
    exact .pure rfl
  · intro _
    have cleared : Ui.attached { ui with
        fileItems := [], fileStatus := [], listedPath := ui.filewin.path } = ui.attached := rfl
    apply Uses.after cleared
    apply (listDir_uses env _ _ _).bind
    intro result
    apply Issues.ite
    · intro _
      exact .pure rfl
    · intro _
      exact .pure rfl

/-- Listing after the Explorer's record was changed. -/
theorem filewinRefreshList_moved (env : Env) (filewin : FileWin) (ui : Ui) :
    Uses env ui (filewinRefreshList env { ui with filewin := filewin }) id :=
  filewinRefreshList_uses env { ui with filewin := filewin }

theorem filewinSetPath_uses (env : Env) (path : List UInt8) (ui : Ui) :
    Uses env ui (filewinSetPath env path ui) id := by
  apply Issues.ite
  · intro _
    exact .pure rfl
  · intro _
    exact filewinRefreshList_moved env _ ui

theorem filewinMoveSelection_attached (down : Bool) (ui : Ui) :
    (filewinMoveSelection down ui).attached = ui.attached := by
  unfold filewinMoveSelection
  split
  · rfl
  · rfl

theorem filewinDeleteSelection_uses (env : Env) (ui : Ui) :
    Uses env ui (filewinDeleteSelection env ui) id := by
  apply Issues.ite
  · intro _
    exact .pure rfl
  · intro _
    cases ui.fileSelected with
    | none => exact .pure rfl
    | some item =>
        apply Issues.ite
        · intro _
          exact .pure rfl
        · intro _
          apply (writeFile_uses (.empty _) ui).bind
          intro result
          apply Issues.ite
          · intro _
            exact (filewinRefreshList_uses env result.1).bind fun ui =>
              desktopRefreshFromPath_uses env ui
          · intro _
            exact .pure rfl

theorem filewinGoUp_uses (env : Env) (ui : Ui) : Uses env ui (filewinGoUp env ui) id := by
  apply Issues.ite
  · intro _
    exact .pure rfl
  · intro _
    apply Issues.ite
    · intro _
      exact filewinSetPath_uses env pathBaseDir ui
    · intro _
      exact filewinRefreshList_moved env _ ui

theorem filewinOpen_uses (env : Env) (ui : Ui) : Uses env ui (filewinOpen env ui) id := by
  apply Issues.ite
  · intro _
    exact .pure rfl
  · intro _
    exact (filewinRefreshList_moved env _ ui).bind fun ui => .pure rfl

theorem taskmgrOpen_attached (env : Env) (ui : Ui) :
    (taskmgrOpen env ui).attached = ui.attached := by
  unfold taskmgrOpen
  split
  · rfl
  · rfl

theorem terminalOpen_attached (env : Env) (ui : Ui) :
    (terminalOpen env ui).attached = ui.attached := by
  unfold terminalOpen
  split
  · rfl
  · rfl

theorem wavplayOpen_attached (ui : Ui) : (wavplayOpen ui).attached = ui.attached := by
  unfold wavplayOpen
  split
  · rfl
  · rfl

theorem closeWindow_attached (ui : Ui) (id : WinId) :
    (closeWindow ui id).attached = ui.attached := by
  cases id with
  | notepad => exact notepadClose_attached ui
  | file => exact desktopRender_attached _
  | imgview => exact desktopRender_attached _
  | wavplay => exact desktopRender_attached _
  | taskmgr => exact desktopRender_attached _
  | display => exact desktopRender_attached _
  | terminal => exact desktopRender_attached _

theorem imgviewOpenPath_uses (env : Env) (input : Input) (fullpath : List UInt8) (ui : Ui) :
    Uses env ui (imgviewOpenPath env input fullpath ui) id := by
  have loads : ∀ ui : Ui, Uses env ui (imgviewLoadBmp env input fullpath ui) Prod.fst := by
    intro ui
    have kept : ∀ (ui : Ui) (image : Option Image),
        Uses env ui (pure (ui, image) : DiskM (Ui × Option Image)) Prod.fst :=
      fun ui image => .pure rfl
    apply (readFile_uses env fullpath 128 ui).bind
    intro header
    refine .ite (fun _ => kept _ none) fun _ => .ite (fun _ => kept _ none) fun _ =>
      .ite (fun _ => kept _ none) fun _ => .ite (fun _ => kept _ none) fun _ => ?_
    apply (readFile_uses env fullpath _ header.1).bind
    intro full
    exact .ite (fun _ => kept _ none) fun _ => kept _ _
  apply Issues.ite
  · intro _
    exact .pure rfl
  · intro _
    apply (ensureVolumeMounted_uses env ui).bind
    intro mounted
    apply Issues.ite
    · intro _
      exact .pure rfl
    · intro _
      apply (loads mounted.2).bind
      intro loaded
      dsimp only
      split
      · exact .pure rfl
      · exact .pure rfl

theorem soundPlayWavPath_uses (env : Env) (input : Input) (path : List UInt8) (ui : Ui) :
    Uses env ui (soundPlayWavPath env input path ui) id := by
  apply Issues.ite
  · intro _
    exact .pure rfl
  · intro _
    exact (readFile_uses env path _ ui).bind fun result => .pure rfl

/-! ## File picker and name prompt -/

theorem filePickerStart_uses (env : Env) (ext : List UInt8) (cb : PickerCb) (ui : Ui) :
    Uses env ui (filePickerStart env ext cb ui) id := by
  have pathSet : ∀ ui : Ui, Uses env ui (do
      let ui ← filewinSetPath env ui.session.desktopDir ui
      pure { ui with filewin := { ui.filewin with pathFocus := false }, front := .file }) id :=
    fun ui => (filewinSetPath_uses env _ ui).bind fun ui => .pure rfl
  have started : Ui.attached { ui with picker := ⟨true, (ext.take 4).map toUpper, some cb⟩ } =
      ui.attached := rfl
  apply Uses.after started
  apply Issues.ite
  · intro _
    exact Issues.bind (Issues.pure rfl) pathSet
  · intro _
    exact (filewinOpen_uses env _).bind pathSet

end ParanOS

import ParanOS.Kernel.Hidden

/-! # The list and the path of the Explorer

Every handler that sets the path lists it at once, except for the keys of the
path bar, which only change the text. As long as the text is not edited over a
list, the items are those of the directory under the path, and what is done with
an item is done with the file that is listed.
-/

namespace ParanOS

open Foundation

/-! ## What is done with an item -/

/-- The path of an item in the directory that was listed. -/
def listedFile (ui : Ui) (item : DesktopItem) : List UInt8 := pathJoin 128 ui.listedPath item.name

/-- Deleting, said of the listed file. -/
def deleteListed (env : Env) (ui : Ui) : DiskM Ui :=
  if !ui.volMounted then pure ui
  else match ui.fileSelected with
    | none => pure ui
    | some item =>
        if item.isDir then pure ui
        else do
          let (ui, r) ← ui.writeFile env (listedFile ui item) []
          if r = 0 then do
            let ui ← filewinRefreshList env ui
            desktopRefreshFromPath env ui
          else pure ui

/-- Opening or picking, said of the listed file. -/
def openListed (env : Env) (input : Input) (item : DesktopItem) (ui : Ui) : DiskM Ui :=
  if item.isDir then filewinSetPath env (listedFile ui item) ui
  else if ui.picker.active then
    if ui.picker.ext = [] ∨ strIeqExt item.name ui.picker.ext then
      filePickerHandleSelection env (listedFile ui item) item.name ui
    else pure ui
  else if strIeqExt item.name (ascii "TXT") then notepadOpenPath env (listedFile ui item) ui
  else if strIeqExt item.name (ascii "BMP") then imgviewOpenPath env input (listedFile ui item) ui
  else pure ui

/-- "Open" in the context menu, said of the listed file. -/
def openListedSelected (env : Env) (ui : Ui) : DiskM Ui :=
  match ui.fileSelected with
  | none => pure ui
  | some item =>
      if item.isDir then filewinSetPath env (listedFile ui item) ui
      else if strIeqExt item.name (ascii "TXT") then notepadOpenPath env (listedFile ui item) ui
      else pure ui

/-- The path with the name behind it fits into 96 bytes. -/
def joinFits (path name : List UInt8) : Prop := pathJoin 96 path name = pathJoin 128 path name

/-- Text files are opened under their name on the desktop. -/
def OpensText (ui : Ui) (item : DesktopItem) : Prop :=
  ui.filewin.path = ui.session.desktopDir ∧ joinFits ui.filewin.path item.name

theorem deletes_listed (env : Env) {ui : Ui} (coherent : Coherent ui) :
    filewinDeleteSelection env ui = deleteListed env ui := by
  unfold filewinDeleteSelection deleteListed
  split
  · rfl
  · cases selected : ui.fileSelected with
    | none => rfl
    | some item =>
        have items : ui.fileItems ≠ [] := by
          intro empty
          simp [Ui.fileSelected, empty] at selected
        dsimp only
        rw [listedFile, coherent items]

theorem opens_listed (env : Env) (input : Input) {ui : Ui} {item : DesktopItem}
    (coherent : ui.listedPath = ui.filewin.path)
    (dir : item.isDir = true → joinFits ui.filewin.path item.name)
    (text : item.isDir = false → ui.picker.active = false →
      strIeqExt item.name (ascii "TXT") = true → OpensText ui item) :
    openFileItem env input item ui = openListed env input item ui := by
  unfold openFileItem openListed
  rw [listedFile, coherent]
  split
  · next isDir => rw [dir isDir]
  · next notDir =>
      split
      · rfl
      · next noPicker =>
          split
          · next isText =>
              have opened := text (Bool.eq_false_iff.mpr notDir) (Bool.eq_false_iff.mpr noPicker)
                isText
              rw [notepadOpen, desktopPathForName, ← opened.1, opened.2]
          · rfl

theorem opens_listed_selected (env : Env) {ui : Ui} (coherent : Coherent ui)
    (dir : ∀ item, ui.fileSelected = some item → item.isDir = true →
      joinFits ui.filewin.path item.name)
    (text : ∀ item, ui.fileSelected = some item → item.isDir = false →
      strIeqExt item.name (ascii "TXT") = true → OpensText ui item) :
    fileOpenSelected env ui = openListedSelected env ui := by
  unfold fileOpenSelected openListedSelected
  cases selected : ui.fileSelected with
  | none => rfl
  | some item =>
      have items : ui.fileItems ≠ [] := by
        intro empty
        simp [Ui.fileSelected, empty] at selected
      dsimp only
      rw [listedFile, coherent items]
      split
      · next isDir => rw [dir item selected isDir]
      · next notDir =>
          split
          · next isText =>
              have opened := text item selected (Bool.eq_false_iff.mpr notDir) isText
              rw [notepadOpen, desktopPathForName, ← opened.1, opened.2]
          · rfl

/-! ## Runs -/

/-- In this iteration a key edits the text of the path bar while items are
listed. The states are those that the blocks before the path bar leave. -/
def EditsPath (env : Env) (current : Machine) (input : Input) : Prop :=
  ∃ sc pressed pressedOn clicked clickedOn key prompted promptedOn,
    firstKeys env input current.ui current.device = some ((sc, pressed), pressedOn) ∧
    pressed.login.active = false ∧
    mouseButtons env input pressed pressedOn = some (clicked, clickedOn) ∧
    promptKeys env sc clicked clickedOn = some ((some key, prompted), promptedOn) ∧
    pathBarActive prompted = true ∧ editsText key prompted = true ∧ prompted.fileItems ≠ []

def KeepsPath (env : Env) (current : Machine) (input : Input) (_ : Machine) : Prop :=
  ¬ EditsPath env current input

theorem iteration_coherent {env : Env} {current next : Machine} {input : Input}
    (stepped : current.Step env input next) (unedited : KeepsPath env current input next)
    (coherent : Coherent current.ui) : Coherent next.ui := by
  rcases DiskM.of_bind stepped with ⟨⟨sc, pressed⟩, pressedOn, keysRan, rest⟩
  have first : Coherent pressed := by
    rcases (firstKeys_cases env input current.ui).returns keysRan with ⟨_, only⟩ | ⟨_, _, _, same⟩
    · exact only.coherent coherent
    · rw [(Prod.mk.inj same).2]
      exact coherent
  dsimp only at rest
  cases active : pressed.login.active with
  | true =>
      rw [if_pos active] at rest
      exact ((loginScreen_only env input sc pressed).returns rest).coherent first
  | false =>
      rw [if_neg (by rw [active]; exact Bool.false_ne_true)] at rest
      rcases DiskM.of_bind rest with ⟨clicked, clickedOn, mouseRan, keyBlocks⟩
      rcases DiskM.of_bind keyBlocks with ⟨⟨left, prompted⟩, promptedOn, promptRan, pathBlocks⟩
      rcases DiskM.of_bind pathBlocks with ⟨⟨last, listed⟩, listedOn, pathRan, ended⟩
      have second := ((mouseButtons_only env input pressed).returns mouseRan).coherent first
      have third := ((promptKeys_only env sc clicked).returns promptRan).coherent second
      have typed : ∀ key, left = some key → pathBarActive prompted = true →
          editsText key prompted = true → prompted.fileItems = [] := by
        intro key isKey bar edits
        subst isKey
        by_contra items
        exact unedited ⟨sc, pressed, pressedOn, clicked, clickedOn, key, prompted, promptedOn,
          keysRan, active, mouseRan, promptRan, bar, edits, items⟩
      have fourth := ((pathKeys_only env left prompted).returns pathRan).2.2 typed third
      have fifth := (afterPathKeys_only env input last listed).2 fourth
      change (pure (afterPathKeys env input last listed) : DiskM Ui) listedOn = _ at ended
      simp only [DiskM.pure_apply, Option.some.injEq, Prod.mk.injEq] at ended
      rw [← ended.1]
      exact fifth

/-- What the coherence of the list means: whatever is done with an item is done
with the listed file. A directory whose path does not fit, and a text file
outside the desktop, are opened elsewhere. -/
structure ActsOnListed (env : Env) (ui : Ui) : Prop where
  coherent : ui.fileItems ≠ [] → ui.listedPath = ui.filewin.path
  deletes : filewinDeleteSelection env ui = deleteListed env ui
  opens : ∀ input item, item ∈ ui.fileItems →
    (item.isDir = true → joinFits ui.filewin.path item.name) →
    (item.isDir = false → ui.picker.active = false → strIeqExt item.name (ascii "TXT") = true →
      OpensText ui item) →
    openFileItem env input item ui = openListed env input item ui
  menu : (∀ item, ui.fileSelected = some item → item.isDir = true →
      joinFits ui.filewin.path item.name) →
    (∀ item, ui.fileSelected = some item → item.isDir = false →
      strIeqExt item.name (ascii "TXT") = true → OpensText ui item) →
    fileOpenSelected env ui = openListedSelected env ui

/-- In every state of a run from the start of the kernel in which the text of the
path bar is not edited while items are listed, the items are from the directory
under the path. -/
theorem explorer_acts_on_listed {env : Env} {first last : Machine} {inputs : List Input}
    (booted : first.Booted env) (run : Run env (KeepsPath env) first inputs last) :
    ActsOnListed env last.ui := by
  have coherent : Coherent last.ui := by
    apply run.keeps (fun machine => Coherent machine.ui) _ (boot_sound booted).2
    intro current input next stepped unedited holds
    exact iteration_coherent stepped unedited holds
  refine ⟨coherent, deletes_listed env coherent, ?_, opens_listed_selected env coherent⟩
  intro input item member
  exact opens_listed env input (coherent (List.ne_nil_of_mem member))

/-- The password of `admin`, Enter, and a click into the path bar. -/
def focusPathBar : List Input :=
  [0x02, 0x03, 0x04, 0x05, 0x1C].map keyInput ++ [mouseInput 100 90 true]

/-- On the login screen no key goes to the path bar. -/
theorem keepsPath_of_locked {env : Env} {current next : Machine} {input : Input}
    (locked : Locked current.ui) : KeepsPath env current input next := by
  intro edits
  rcases edits with ⟨sc, pressed, pressedOn, _, _, _, _, _, keysRan, inactive, _⟩
  have same : pressed.login = current.ui.login :=
    (firstKeys_login env input current.ui).returns keysRan
  rw [same, locked] at inactive
  exact Bool.false_ne_true inactive.symm

/-- The login of `admin` key by key: whether the login screen was shown before each
of them, and the state afterwards. -/
def loginByKeys : DiskM (List Bool × Ui) := do
  let booted ← boot sampleEnv blankVol
  let one ← iteration sampleEnv (keyInput 0x02) booted
  let two ← iteration sampleEnv (keyInput 0x03) one
  let three ← iteration sampleEnv (keyInput 0x04) two
  let four ← iteration sampleEnv (keyInput 0x05) three
  let last ← iteration sampleEnv (keyInput 0x1C) four
  pure ([booted, one, two, three, four].map (·.login.active), last)

/-- The login lists the desktop of `ADMIN` in the Explorer. -/
theorem explorer_acts_on_listed_login :
    ∃ first last inputs, Machine.Booted sampleEnv first ∧
      Run sampleEnv (KeepsPath sampleEnv) first inputs last ∧ last.ui.fileItems ≠ [] ∧
      ActsOnListed sampleEnv last.ui := by
  have observed : (loginByKeys (Device.healthy desktopDisk)).map (fun result =>
      (result.1.1, result.1.2.fileItems.length)) = some ([true, true, true, true, true], 1) := by
    decide +kernel
  rcases Option.map_eq_some_iff.mp observed with ⟨⟨result, device⟩, ran, same⟩
  rcases DiskM.of_bind ran with ⟨booted, device0, bootRan, ran⟩
  rcases DiskM.of_bind ran with ⟨one, device1, oneRan, ran⟩
  rcases DiskM.of_bind ran with ⟨two, device2, twoRan, ran⟩
  rcases DiskM.of_bind ran with ⟨three, device3, threeRan, ran⟩
  rcases DiskM.of_bind ran with ⟨four, device4, fourRan, ran⟩
  rcases DiskM.of_bind ran with ⟨last, device5, lastRan, ended⟩
  simp only [DiskM.pure_apply, Option.some.injEq, Prod.mk.injEq] at ended
  rcases ended with ⟨rfl, rfl⟩
  simp only [List.map_cons, List.map_nil, Prod.mk.injEq, List.cons.injEq, and_true] at same
  rcases same with ⟨⟨locked0, locked1, locked2, locked3, locked4⟩, count⟩
  have start : Machine.Booted sampleEnv ⟨booted, device0⟩ :=
    ⟨blankVol, Device.healthy desktopDisk, bootRan⟩
  have run : Run sampleEnv (KeepsPath sampleEnv) ⟨booted, device0⟩
      ([0x02, 0x03, 0x04, 0x05, 0x1C].map keyInput) ⟨last, device5⟩ :=
    .cons (Machine.step_of_iteration oneRan) (keepsPath_of_locked locked0)
      (.cons (Machine.step_of_iteration twoRan) (keepsPath_of_locked locked1)
        (.cons (Machine.step_of_iteration threeRan) (keepsPath_of_locked locked2)
          (.cons (Machine.step_of_iteration fourRan) (keepsPath_of_locked locked3)
            (.cons (Machine.step_of_iteration lastRan) (keepsPath_of_locked locked4) (.nil _)))))
  refine ⟨_, _, _, start, run, ?_, explorer_acts_on_listed start run⟩
  intro empty
  rw [empty] at count
  exact absurd count (by decide)

/-- Backspace in the path bar leaves the old items under another path. -/
theorem explorer_keeps_old_items :
    ¬ ∀ (env : Env) (machine : Machine), Reachable env machine → ActsOnListed env machine.ui := by
  intro claim
  have observed : (sampleRun focusPathBar (keyInput 0x0E)).map (fun run =>
      (run.2.ui.fileItems.length, decide (run.2.ui.listedPath = run.2.ui.filewin.path))) =
        some (1, false) := by
    decide +kernel
  rcases Option.map_eq_some_iff.mp observed with ⟨⟨current, next⟩, ran, same⟩
  rcases sampleRun_reachable ran with ⟨reachable, stepped⟩
  simp only [Prod.mk.injEq, decide_eq_false_iff_not] at same
  have acts := claim sampleEnv next (reachable.later (.cons stepped trivial (.nil _)))
  refine same.2 (acts.coherent ?_)
  intro empty
  rw [empty] at same
  exact absurd same.1 (by decide)

end ParanOS

import ParanOS.Kernel.Login

/-! # Windows stay on the screen

Every window is opened at a place on the screen, and maximising, dragging and
resizing keep it there. In a drag the clamp to the right and lower edge comes
last; it does not undo the clamp to the left and upper edge, since no window is
larger than the screen below the top bar. The iterations of the loop keep this
as an invariant. On the way it is seen that nothing but the keys themselves
changes which keys are held.
-/

namespace ParanOS

open Foundation

/-! ## Places on the screen -/

/-- The smallest frame buffer that the windows are made for. -/
structure LargeScreen (env : Env) : Prop where
  width : 640 ≤ env.fbWidth
  height : 480 ≤ env.fbHeight

/-- Inside the screen, below the top bar; the Image Viewer has a least size. -/
structure Rect.OnScreen (env : Env) (id : WinId) (rect : Rect) : Prop where
  left : 0 ≤ rect.wx
  right : rect.wx + rect.ww ≤ env.fbWidth
  top : 24 ≤ rect.wy
  bottom : rect.wy + rect.wh ≤ env.fbHeight
  size : id = .imgview → 180 ≤ rect.ww ∧ 140 ≤ rect.wh

/-- The window is on the screen, and goes back to a place on the screen when it
is maximised. -/
structure Window.Settled (env : Env) (id : WinId) (window : Window) : Prop where
  rect : window.rect.OnScreen env id
  prev : window.maximized = true → window.prev.OnScreen env id

theorem openRect_onScreen {env : Env} (large : LargeScreen env) (id : WinId) :
    (openRect env id).OnScreen env id := by
  have width := large.width
  have height := large.height
  cases id <;> constructor <;> intros <;> simp only [openRect] <;> omega

/-- The place of a maximised window. -/
theorem maximized_onScreen {env : Env} (large : LargeScreen env) (id : WinId) :
    Rect.OnScreen env id ⟨6, 32, env.fbWidth - 12, env.fbHeight - 28 - 32 - 8⟩ := by
  have width := large.width
  have height := large.height
  constructor <;> intros <;> dsimp only <;> omega

namespace Window.Settled

variable {env : Env} {id : WinId} {window : Window}

theorem toggleMaximize (large : LargeScreen env) (settled : window.Settled env id) :
    (window.toggleMaximize env).Settled env id := by
  unfold Window.toggleMaximize
  split
  · exact settled
  · split
    · next maximized => exact ⟨settled.prev maximized, fun still => by simp at still⟩
    · exact ⟨maximized_onScreen large id, fun _ => settled.rect⟩

theorem opened (large : LargeScreen env) (rect : window.rect = openRect env id)
    (restored : window.maximized = false) : window.Settled env id := by
  constructor
  · rw [rect]
    exact openRect_onScreen large id
  · intro maximized
    rw [restored] at maximized
    exact absurd maximized Bool.false_ne_true

theorem change (large : LargeScreen env) {window' : Window} (settled : window.Settled env id)
    (change : WindowChange env id window window') : window'.Settled env id := by
  cases change with
  | kept rect prev _ maximized =>
      constructor
      · rw [rect]
        exact settled.rect
      · intro still
        rw [prev]
        exact settled.prev (maximized still)
  | opened rect restored => exact opened large rect restored
  | toggled => exact settled.toggleMaximize large

theorem drag (input : Input) (settled : window.Settled env id) :
    (window.drag env input).Settled env id := by
  have left := settled.rect.left
  have right := settled.rect.right
  have top := settled.rect.top
  have bottom := settled.rect.bottom
  -- The offsets do not matter: wherever the mouse is, the place is clamped.
  have clamped : ∀ x y : Int, Rect.OnScreen env id { window.rect with
      wx := if max x 0 + window.rect.ww > env.fbWidth then env.fbWidth - window.rect.ww else max x 0
      wy := if max y 24 + window.rect.wh > env.fbHeight then env.fbHeight - window.rect.wh
        else max y 24 } := by
    intro x y
    refine ⟨?_, ?_, ?_, ?_, settled.rect.size⟩
    · dsimp only
      split <;> omega
    · dsimp only
      split <;> omega
    · dsimp only
      split <;> omega
    · dsimp only
      split <;> omega
  simp only [Window.drag]
  split
  · split
    · exact ⟨settled.rect, settled.prev⟩
    · split
      · exact ⟨settled.rect, settled.prev⟩
      · exact ⟨clamped _ _, settled.prev⟩
  · split
    · exact settled
    · split
      · exact ⟨settled.rect, settled.prev⟩
      · exact ⟨clamped _ _, settled.prev⟩

end Window.Settled

theorem imgviewDrag_settled {env : Env} (input : Input) {view : ImgView}
    (settled : view.window.Settled env .imgview) :
    (imgviewDrag env input view).window.Settled env .imgview := by
  have left := settled.rect.left
  have right := settled.rect.right
  have top := settled.rect.top
  have bottom := settled.rect.bottom
  have size := settled.rect.size rfl
  have resized : ∀ w h : Int, Rect.OnScreen env .imgview { view.window.rect with
      ww := if view.window.rect.wx + max w 180 > env.fbWidth then
        env.fbWidth - view.window.rect.wx else max w 180
      wh := if view.window.rect.wy + max h 140 > env.fbHeight then
        env.fbHeight - view.window.rect.wy else max h 140 } := by
    intro w h
    refine ⟨left, ?_, top, ?_, fun _ => ⟨?_, ?_⟩⟩
    · dsimp only
      split <;> omega
    · dsimp only
      split <;> omega
    · dsimp only
      split <;> omega
    · dsimp only
      split <;> omega
  simp only [imgviewDrag]
  split
  · split
    · split
      · exact settled
      · exact ⟨resized _ _, settled.prev⟩
    · exact settled.drag input
  · split
    · split
      · exact settled
      · exact ⟨resized _ _, settled.prev⟩
    · exact settled.drag input

theorem imgviewDrag_isOpen (env : Env) (input : Input) (view : ImgView) :
    (imgviewDrag env input view).window.isOpen = view.window.isOpen := by
  simp only [imgviewDrag]
  split
  · split
    · split <;> rfl
    · exact Window.drag_isOpen env input _
  · split
    · split <;> rfl
    · exact Window.drag_isOpen env input _

/-! ## All windows -/

/-- The open windows are settled. So is the WAV Player while it waits for a
file: picking one opens it where it was. -/
structure WindowsFit (env : Env) (ui : Ui) : Prop where
  windows : ∀ id, (ui.window id).isOpen = true → (ui.window id).Settled env id
  asked : ui.picker.cb = some .wavplayPick → ui.wavplay.window.Settled env .wavplay

theorem window_setWindow (ui : Ui) (id other : WinId) (window : Window) :
    (ui.setWindow id window).window other = if other = id then window else ui.window other := by
  cases id <;> cases other <;> rfl

theorem WindowsFit.setWindow {env : Env} {ui : Ui} (fit : WindowsFit env ui) (id : WinId)
    {window : Window} (settled : window.isOpen = true → window.Settled env id)
    (asked : ui.picker.cb = some .wavplayPick → id = .wavplay → window.Settled env .wavplay) :
    WindowsFit env (ui.setWindow id window) := by
  constructor
  · intro other isOpen
    rw [window_setWindow] at isOpen ⊢
    split
    · next same =>
        rw [if_pos same] at isOpen
        rw [same]
        exact settled isOpen
    · next different =>
        rw [if_neg different] at isOpen
        exact fit.windows other isOpen
  · intro waiting
    have same : (ui.setWindow id window).picker = ui.picker := by cases id <;> rfl
    rw [same] at waiting
    have player := window_setWindow ui id .wavplay window
    change ((ui.setWindow id window).window .wavplay).Settled env .wavplay
    rw [player]
    split
    · next same => exact asked waiting same.symm
    · exact fit.asked waiting

/-- A handler leaves the keys alone and the windows on the screen. -/
structure Tracks (env : Env) (ui ui' : Ui) : Prop where
  keys : ui'.keys = ui.keys
  fit : LargeScreen env → WindowsFit env ui → WindowsFit env ui'

namespace Tracks

theorem refl {env : Env} (ui : Ui) : Tracks env ui ui := ⟨rfl, fun _ fit => fit⟩

theorem trans {env : Env} {first second third : Ui} (before : Tracks env first second)
    (after : Tracks env second third) : Tracks env first third :=
  ⟨after.keys.trans before.keys, fun large fit => after.fit large (before.fit large fit)⟩

end Tracks

/-- A window that is open afterwards was open before, or is opened. -/
theorem WindowChange.isOpen {env : Env} {id : WinId} {window window' : Window}
    (change : WindowChange env id window window') (isOpen : window'.isOpen = true) :
    window.isOpen = true ∨ window'.rect = openRect env id ∧ window'.maximized = false := by
  cases change with
  | kept _ _ opened _ => exact .inl (opened isOpen)
  | opened rect restored => exact .inr ⟨rect, restored⟩
  | toggled =>
      unfold Window.toggleMaximize at isOpen
      split at isOpen
      · exact .inl isOpen
      · split at isOpen <;> exact .inl isOpen

theorem UiChange.fit {env : Env} (large : LargeScreen env) {ui ui' : Ui}
    (change : UiChange env ui ui') : WindowsFit env ui → WindowsFit env ui' := by
  induction change with
  | trans _ _ before after => exact fun fit => after (before fit)
  | desktop only =>
      rcases only with ⟨_, _, _, _, rfl⟩
      exact fun fit => ⟨fit.windows, fit.asked⟩
  | shell ui => exact fun fit => ⟨fit.windows, fit.asked⟩
  | document ui => exact fun fit => ⟨fit.windows, fit.asked⟩
  | selected ui => exact fun fit => ⟨fit.windows, fit.asked⟩
  | listed ui => exact fun fit => ⟨fit.windows, fit.asked⟩
  | picker ui picker asked => exact fun fit =>
      ⟨fit.windows, fun cb => fit.windows .wavplay (asked cb)⟩
  | window ui id change =>
      intro fit
      apply fit.setWindow id
      · intro isOpen
        rcases change.isOpen isOpen with before | ⟨rect, restored⟩
        · exact (fit.windows id before).change large change
        · exact .opened large rect restored
      · intro waiting same
        subst same
        exact (fit.asked waiting).change large change
  | picked ui asked =>
      intro fit
      have settled := fit.asked asked
      exact fit.setWindow .wavplay (fun _ => ⟨settled.rect, settled.prev⟩)
        fun _ _ => ⟨settled.rect, settled.prev⟩

theorem UiChange.keys {env : Env} {ui ui' : Ui} (change : UiChange env ui ui') :
    ui'.keys = ui.keys := by
  induction change with
  | trans _ _ before after => exact after.trans before
  | desktop only =>
      rcases only with ⟨_, _, _, _, rfl⟩
      rfl
  | window ui id => cases id <;> rfl
  | shell => rfl
  | document => rfl
  | selected => rfl
  | listed => rfl
  | picker => rfl
  | picked => rfl

theorem UiChange.tracks {env : Env} {ui ui' : Ui} (change : UiChange env ui ui') :
    Tracks env ui ui' :=
  ⟨change.keys, fun large => change.fit large⟩

/-! ## Iterations -/

theorem Click.tracks {env : Env} {ui ui' : Ui} (click : Click env ui ui') : Tracks env ui ui' := by
  cases click with
  | change change => exact change.tracks
  | logout earlier later =>
      have loggedOut : ∀ before : Ui, Tracks env before (launchDoLogout before) := by
        intro before
        refine ⟨rfl, fun _ fit => ⟨fun id isOpen => ?_, fit.asked⟩⟩
        cases id with
        | notepad => simp [launchDoLogout, Ui.window] at isOpen
        | file => simp [launchDoLogout, Ui.window] at isOpen
        | taskmgr => exact fit.windows .taskmgr isOpen
        | display => exact fit.windows .display isOpen
        | terminal => exact fit.windows .terminal isOpen
        | imgview => exact fit.windows .imgview isOpen
        | wavplay => exact fit.windows .wavplay isOpen
      have buttons : UiChange env _ ui' := later.change
      exact (earlier.tracks.trans (loggedOut _)).trans buttons.tracks

theorem promptKeys_change (env : Env) (sc : Option UInt8) (ui : Ui) :
    Ensures (promptKeys env sc ui) fun result => UiChange env ui result.2 := by
  have edited : ∀ prompt, UiChange env ui { ui with prompt := prompt } :=
    fun prompt => .prompted ui prompt _
  unfold promptKeys
  cases sc with
  | none => exact .pure (.refl ui)
  | some key =>
      have typed : Ensures (promptKey env key ui) (UiChange env ui) := by
        apply Ensures.ite
        · intro _
          exact createTxtFileFromPrompt_change env ui
        · intro _
          exact .ite (fun _ => .pure (edited _)) fun _ => .ite (fun _ => .pure (edited _)) fun _ =>
            .ite (fun _ => .pure (edited _)) fun _ => .pure (.refl ui)
      apply Ensures.ite
      · intro _
        exact .bind typed fun _ change => .pure change
      · intro _
        exact .pure (.refl ui)

theorem pathKeys_tracks (env : Env) (sc : Option UInt8) (ui : Ui) :
    Ensures (pathKeys env sc ui) fun result => Tracks env ui result.2 := by
  have edited : ∀ path focus, Tracks env ui { ui with
      filewin := { ui.filewin with path := path, pathFocus := focus } } :=
    fun path focus => ⟨rfl, fun _ fit => ⟨fit.windows, fit.asked⟩⟩
  unfold pathKeys
  cases sc with
  | none => exact .pure (.refl ui)
  | some key =>
      have typed : Ensures (pathKey env key ui) (Tracks env ui) := by
        apply Ensures.ite
        · intro _
          exact (filewinSetPath_change env _ ui).mono fun _ => UiChange.tracks
        · intro _
          exact .ite (fun _ => .pure (edited _ _)) fun _ => .ite (fun _ => .pure (edited _ _))
            fun _ => .ite (fun _ => .pure (edited _ _)) fun _ => .pure (.refl ui)
      apply Ensures.ite
      · intro _
        exact .bind typed fun _ tracks => .pure tracks
      · intro _
        exact .pure (.refl ui)

/-- Dragging a window moves it on the screen. -/
theorem setWindow_drag_tracks (env : Env) (input : Input) (ui : Ui) (id : WinId) :
    Tracks env ui (ui.setWindow id ((ui.window id).drag env input)) := by
  refine ⟨by cases id <;> rfl, fun _ fit =>
    fit.setWindow id (fun isOpen => ?_) fun waiting same => ?_⟩
  · rw [Window.drag_isOpen] at isOpen
    exact (fit.windows id isOpen).drag input
  · subst same
    exact (fit.asked waiting).drag input

theorem editorKeys_tracks (env : Env) (input : Input) (sc : Option UInt8) (ui : Ui) :
    Tracks env ui (editorKeys env input sc ui) := by
  have appended : ∀ char, UiChange env ui (notepadAppend char ui) := by
    intro char
    unfold notepadAppend
    split
    · exact .edited ui _ _ _
    · exact .refl ui
  unfold editorKeys
  split
  · cases sc with
    | none => exact setWindow_drag_tracks env input ui .notepad
    | some key =>
        dsimp only
        split
        · exact (UiChange.edited ui _ _ _).tracks
        · split
          · exact (notepadClose_change env ui).tracks
          · exact (appended _).tracks.trans (setWindow_drag_tracks env input _ .notepad)
  · exact .refl ui

theorem dragFront_tracks (env : Env) (input : Input) (ui : Ui) :
    Tracks env ui (dragFront env input ui) := by
  unfold dragFront
  split
  · exact .refl ui
  · split
    · refine ⟨rfl, fun _ fit => ?_⟩
      have view : WindowsFit env
          (ui.setWindow .imgview (imgviewDrag env input ui.imgview).window) := by
        refine fit.setWindow .imgview (fun isOpen => ?_) fun _ other => by simp at other
        rw [imgviewDrag_isOpen] at isOpen
        exact imgviewDrag_settled input (fit.windows .imgview isOpen)
      exact ⟨view.windows, view.asked⟩
    · exact setWindow_drag_tracks env input ui ui.front

theorem desktopIteration_tracks (env : Env) (input : Input) (sc : Option UInt8) (ui : Ui) :
    Ensures (desktopIteration env input sc ui) (Tracks env ui) := by
  apply Ensures.bind (mouseButtons_cases env input ui)
  intro clickedUi clicked
  apply Ensures.bind (promptKeys_change env sc clickedUi)
  intro prompted change
  apply Ensures.bind (pathKeys_tracks env prompted.1 prompted.2)
  intro listed path
  have before := (clicked.tracks.trans change.tracks).trans path
  have dragged := (before.trans (editorKeys_tracks env input listed.1 listed.2)).trans
    (dragFront_tracks env input _)
  refine .pure ?_
  split
  · exact dragged.trans (desktopRender_change env _).tracks
  · exact dragged

theorem loginAttempt_tracks (env : Env) (ui : Ui) :
    Ensures (loginAttempt env ui) (Tracks env ui) := by
  have entered : ∀ (ui : Ui) login session,
      Tracks env ui { ui with login := login, session := session } :=
    fun ui login session => ⟨rfl, fun _ fit => ⟨fit.windows, fit.asked⟩⟩
  apply Ensures.ite
  · intro _
    apply Ensures.bind (ensureUserDirsOnDisk_only env _ _)
    intro prepared dirs
    apply Ensures.bind (desktopRefreshFromPath_change env _)
    intro refreshed shown
    refine (startDesktopSession_change env _).mono fun ui' started => ?_
    have made := (entered ui _ _).trans (UiChange.desktop dirs).tracks
    have built := (made.trans (entered prepared _ _)).trans shown.tracks
    exact (built.trans (entered refreshed _ _)).trans started.1.tracks
  · intro _
    exact .pure (entered ui _ _)

/-- The login screen changes the login record, unless a user logs in. -/
theorem loginScreen_tracks (env : Env) (input : Input) (sc : Option UInt8) (ui : Ui) :
    Ensures (loginScreen env input sc ui) (Tracks env ui) := by
  have typed : ∀ (ui : Ui) login, Tracks env ui { ui with login := login } :=
    fun ui login => ⟨rfl, fun _ fit => ⟨fit.windows, fit.asked⟩⟩
  have buttons : ∀ ui : Ui, Tracks env ui (keepButtons input ui) :=
    fun ui => (keepButtons_only input ui).change.tracks
  have keys : ∀ ui : Ui, Ensures (loginKeys env input sc ui) (Tracks env ui) := by
    intro ui
    cases sc with
    | none => exact .pure (buttons ui)
    | some key =>
        refine .ite (fun _ => ?_) fun _ => .pure (buttons ui)
        refine .ite (fun _ => ?_) fun _ => .ite (fun _ => .pure ?_) fun _ =>
          .ite (fun _ => .pure ?_) fun _ => .pure (buttons ui)
        · exact (loginAttempt_tracks env _).mono fun _ => (buttons ui).trans
        · exact (buttons ui).trans (typed _ _)
        · exact (buttons ui).trans (typed _ _)
  have clicked : ∀ ui : Ui, Ensures (loginClick env input ui) (Tracks env ui) := by
    intro ui
    have chosen : ∀ chosen : Ui, Tracks env ui chosen → Ensures (
        if pointInRect input.mx input.my (loginLayoutCompute env).pwX (loginLayoutCompute env).pwY
            (loginLayoutCompute env).pwW 28 then
          pure { chosen with login := { chosen.login with pwFocus := true } }
        else if pointInRect input.mx input.my (loginLayoutCompute env).btnX
            (loginLayoutCompute env).pwY 90 28 then loginAttempt env chosen
        else pure { chosen with login := { chosen.login with pwFocus := false } })
        (Tracks env ui) := by
      intro chosen before
      refine .ite (fun _ => .pure (before.trans (typed _ _))) fun _ => .ite (fun _ => ?_) fun _ =>
        .pure (before.trans (typed _ _))
      exact (loginAttempt_tracks env chosen).mono fun _ => before.trans
    apply chosen
    split
    · exact typed ui _
    · exact .refl ui
  have hovered : Tracks env ui (withHover env input ui) := typed ui _
  rw [loginScreen_eq]
  apply Ensures.ite
  · intro _
    exact .pure (buttons ui)
  · intro _
    apply Ensures.ite
    · intro _
      apply Ensures.bind (clicked _)
      intro ui' before
      exact (keys ui').mono fun _ => (hovered.trans before).trans
    · intro _
      exact (keys _).mono fun _ => hovered.trans

/-- The keys held after a scancode. -/
def keysAfter (sc : UInt8) (keys : Keys) : Keys :=
  if sc &&& 0x80 ≠ 0 then releaseKey (sc &&& 0x7F) keys
  else if sc = 0x5B then { keys with winDown := true }
  else heldKeys sc keys

def keysAfterInput (input : Input) (keys : Keys) : Keys :=
  match input.scancode with
  | none => keys
  | some sc => keysAfter sc keys

theorem wmCycleNext_change (env : Env) (ui : Ui) : UiChange env ui (wmCycleNext ui) := by
  simp only [wmCycleNext]
  split
  · exact .front ui _
  · exact .refl ui

theorem deleteKey_change (env : Env) (ui : Ui) : Ensures (deleteKey env ui) (UiChange env ui) := by
  apply Ensures.ite
  · intro _
    exact filewinDeleteSelection_change env ui
  · intro _
    exact (desktopDeleteSelection_only env ui).mono fun _ => .desktop

theorem arrowKey_change (env : Env) (sc : UInt8) (ui : Ui) : UiChange env ui (arrowKey sc ui) := by
  unfold arrowKey
  split
  · exact filewinMoveSelection_change env _ ui
  · exact .desktop (desktopMoveSelection_only _ ui)

/-- Of the keys held, the first block changes those of its scancode. -/
theorem firstKeys_tracks (env : Env) (input : Input) (ui : Ui) :
    Ensures (firstKeys env input ui) fun result =>
      Tracks env { ui with keys := keysAfterInput input ui.keys } result.2 := by
  unfold firstKeys keysAfterInput
  cases input.scancode with
  | none => exact .pure (.refl ui)
  | some sc =>
      dsimp only
      unfold keysAfter
      apply Ensures.ite
      · intro release
        rw [if_pos release]
        exact .pure (.refl _)
      · intro press
        rw [if_neg press]
        apply Ensures.ite
        · intro alt
          subst alt
          exact .pure (.refl _)
        · intro notAlt
          apply Ensures.ite
          · intro win
            rw [if_pos win]
            apply Ensures.bind (launchToggle_change env _ _)
            intro toggled change
            exact .pure (change.trans (desktopRender_change env _)).tracks
          · intro notWin
            rw [if_neg notWin]
            apply Ensures.ite
            · intro shift
              refine .pure ?_
              rw [heldKeys, if_neg notAlt, if_pos shift]
              exact .refl _
            · intro notShift
              apply Ensures.ite
              · intro caps
                refine .pure ?_
                rw [heldKeys, if_neg notAlt, if_neg notShift, if_pos caps]
                exact .refl _
              · intro notCaps
                have held : heldKeys sc ui.keys = ui.keys := by
                  rw [heldKeys, if_neg notAlt, if_neg notShift, if_neg notCaps]
                rw [held]
                refine .ite (fun _ => .pure ?_) fun _ => .ite (fun _ => ?_) fun _ =>
                  .ite (fun _ => .pure ?_) fun _ => .pure (.refl ui)
                · exact ((wmCycleNext_change env ui).trans (desktopRender_change env _)).tracks
                · exact .bind (deleteKey_change env ui) fun _ change => .pure change.tracks
                · exact (arrowKey_change env sc ui).tracks

/-- An iteration changes the keys held by its scancode, and keeps the windows on
the screen. -/
theorem iteration_tracks (env : Env) (input : Input) (ui : Ui) :
    Ensures (iteration env input ui)
      (Tracks env { ui with keys := keysAfterInput input ui.keys }) := by
  apply Ensures.bind (firstKeys_tracks env input ui)
  intro result first
  apply Ensures.ite
  · intro _
    exact (loginScreen_tracks env input _ _).mono fun _ => first.trans
  · intro _
    exact (desktopIteration_tracks env input _ _).mono fun _ => first.trans

theorem Machine.Booted.windowsFit {env : Env} {machine : Machine} (booted : machine.Booted env) :
    WindowsFit env machine.ui := by
  rcases booted.only with ⟨vol, login, session, _, _, _, _, same⟩
  rw [same]
  refine ⟨fun id isOpen => ?_, fun asked => by simp [Ui.initial] at asked⟩
  cases id <;> simp [Ui.window, Ui.initial, Window.zero] at isOpen

theorem Reachable.windowsFit {env : Env} (large : LargeScreen env) {machine : Machine}
    (reachable : Reachable env machine) : WindowsFit env machine.ui := by
  rcases reachable with ⟨first, inputs, booted, run⟩
  apply run.keeps (fun machine => WindowsFit env machine.ui) _ booted.windowsFit
  intro current input next stepped _ fit
  have tracks := (iteration_tracks env input current.ui).returns stepped
  exact tracks.fit large ⟨fit.windows, fit.asked⟩

/-- In every reachable state, every open window lies on the screen below the top
bar, and the Image Viewer has at least its least size. -/
theorem window_onScreen {env : Env} (width : 640 ≤ env.fbWidth) (height : 480 ≤ env.fbHeight)
    {machine : Machine} (reachable : Reachable env machine) (id : WinId)
    (isOpen : (machine.ui.window id).isOpen = true) :
    0 ≤ (machine.ui.window id).rect.wx ∧
      (machine.ui.window id).rect.wx + (machine.ui.window id).rect.ww ≤ env.fbWidth ∧
      24 ≤ (machine.ui.window id).rect.wy ∧
      (machine.ui.window id).rect.wy + (machine.ui.window id).rect.wh ≤ env.fbHeight ∧
      (id = .imgview →
        180 ≤ (machine.ui.window id).rect.ww ∧ 140 ≤ (machine.ui.window id).rect.wh) := by
  have settled := (reachable.windowsFit ⟨width, height⟩).windows id isOpen
  exact ⟨settled.rect.left, settled.rect.right, settled.rect.top, settled.rect.bottom,
    settled.rect.size⟩

/-- The administrator has logged in, and the Explorer is open. -/
theorem window_onScreen_explorer :
    ∃ machine, Reachable sampleEnv machine ∧ (machine.ui.window .file).isOpen = true ∧
      (machine.ui.window .file).rect.wx + (machine.ui.window .file).rect.ww ≤ 640 := by
  have observed : (sampleRun [keyInput 0x02, keyInput 0x03, keyInput 0x04, keyInput 0x05]
      (keyInput 0x1C)).map (fun run => (run.2.ui.window .file).isOpen) = some true := by
    decide +kernel
  rcases Option.map_eq_some_iff.mp observed with ⟨⟨current, next⟩, ran, isOpen⟩
  rcases sampleRun_reachable ran with ⟨reachable, stepped⟩
  have later : Reachable sampleEnv next := reachable.later (.cons stepped trivial (.nil _))
  exact ⟨next, later, isOpen, (window_onScreen (by decide) (by decide) later .file isOpen).2.1⟩

end ParanOS

import ParanOS.Kernel.Handlers

/-! # Runs of the event loop

The loop as a transition system over the state of the interface and the device.
A run is a list of iterations, each of which may be asked to satisfy a
condition; the reachable states are those of any run from the start of the
kernel. Two facts hold in all of them: the Explorer is closed while the login
screen is shown, and its path lies inside its array.
-/

namespace ParanOS

open Foundation

/-! ## The transition system -/

structure Machine where
  ui : Ui
  device : Device

def Machine.Step (env : Env) (current : Machine) (input : Input) (next : Machine) : Prop :=
  iteration env input current.ui current.device = some (next.ui, next.device)

/-- The machine when the loop starts. -/
def Machine.Booted (env : Env) (machine : Machine) : Prop :=
  ∃ vol device, boot env vol device = some (machine.ui, machine.device)

/-- Iterations one after another, each of which satisfies the condition. -/
inductive Run (env : Env) (each : Machine → Input → Machine → Prop) :
    Machine → List Input → Machine → Prop
  | nil (current) : Run env each current [] current
  | cons {current middle final input inputs} :
      Machine.Step env current input middle →
      each current input middle →
      Run env each middle inputs final →
      Run env each current (input :: inputs) final

def Reachable (env : Env) (machine : Machine) : Prop :=
  ∃ first inputs, Machine.Booted env first ∧ Run env (fun _ _ _ => True) first inputs machine

namespace Run

variable {env : Env} {each : Machine → Input → Machine → Prop} {first last : Machine}
  {inputs : List Input}

/-- What every iteration keeps is kept by the run. -/
theorem keeps (invariant : Machine → Prop)
    (step : ∀ {current input next}, Machine.Step env current input next →
      each current input next → invariant current → invariant next)
    (run : Run env each first inputs last) (holds : invariant first) : invariant last := by
  induction run with
  | nil => exact holds
  | cons stepped condition _ induction => exact induction (step stepped condition holds)

/-- Under an invariant, iterations that satisfy one condition satisfy another. -/
theorem strengthen {other : Machine → Input → Machine → Prop} (invariant : Machine → Prop)
    (kept : ∀ {current input next}, Machine.Step env current input next →
      each current input next → invariant current → invariant next)
    (implies : ∀ {current input next}, Machine.Step env current input next →
      each current input next → invariant current → other current input next)
    (run : Run env each first inputs last) (holds : invariant first) :
    Run env other first inputs last := by
  induction run with
  | nil => exact .nil _
  | cons stepped condition _ induction =>
      exact .cons stepped (implies stepped condition holds)
        (induction (kept stepped condition holds))

theorem of_runLoop {ui ui' : Ui} {device device' : Device}
    (ran : runLoop env inputs ui device = some (ui', device')) :
    Run env (fun _ _ _ => True) ⟨ui, device⟩ inputs ⟨ui', device'⟩ := by
  induction inputs generalizing ui device with
  | nil =>
      simp only [runLoop, DiskM.pure_apply, Option.some.injEq, Prod.mk.injEq] at ran
      rcases ran with ⟨rfl, rfl⟩
      exact .nil _
  | cons input rest induction =>
      rcases DiskM.of_bind ran with ⟨middle, between, stepRan, restRan⟩
      have stepped : Machine.Step env ⟨ui, device⟩ input ⟨middle, between⟩ := stepRan
      exact .cons stepped trivial (induction restRan)

theorem append {middle : Machine} {more : List Input} (run : Run env each first inputs middle)
    (rest : Run env each middle more last) : Run env each first (inputs ++ more) last := by
  induction run with
  | nil => exact rest
  | cons stepped condition _ induction => exact .cons stepped condition (induction rest)

end Run

theorem Machine.step_of_iteration {env : Env} {input : Input} {ui ui' : Ui}
    {device device' : Device} (ran : iteration env input ui device = some (ui', device')) :
    Machine.Step env ⟨ui, device⟩ input ⟨ui', device'⟩ := ran

namespace Reachable

theorem booted {env : Env} {vol : Vol} {ui : Ui} {device device' : Device}
    (ran : boot env vol device = some (ui, device')) : Reachable env ⟨ui, device'⟩ :=
  ⟨⟨ui, device'⟩, [], ⟨vol, device, ran⟩, .nil _⟩

theorem later {env : Env} {current next : Machine} {inputs : List Input}
    (reachable : Reachable env current) (run : Run env (fun _ _ _ => True) current inputs next) :
    Reachable env next := by
  rcases reachable with ⟨first, earlier, start, before⟩
  exact ⟨first, earlier ++ inputs, start, before.append run⟩

end Reachable

/-! ## Keys that are handled first -/

/-- What the keys that are handled first can change, when they are not passed
on. The path of the Explorer is not among it. -/
structure FirstKeysOnly (ui ui' : Ui) : Prop where
  path : ui'.filewin.path = ui.filewin.path
  window : ui'.filewin.window = ui.filewin.window
  coherent : Coherent ui → Coherent ui'
  others : ∃ keys front launch filewin items status listed, DesktopOnly { ui with
    keys := keys, front := front, launch := launch, filewin := filewin, fileItems := items
    fileStatus := status, listedPath := listed } ui'

namespace FirstKeysOnly

theorem trans {first second third : Ui} (before : FirstKeysOnly first second)
    (after : FirstKeysOnly second third) : FirstKeysOnly first third := by
  refine ⟨after.path.trans before.path, after.window.trans before.window,
    after.coherent ∘ before.coherent, ?_⟩
  rcases before.others with ⟨_, _, _, _, _, _, _, _, _, _, _, rfl⟩
  rcases after.others with ⟨keys, front, launch, filewin, items, status, listed, rest⟩
  rcases rest with ⟨vol, mounted, desktop, menu, rfl⟩
  exact ⟨keys, front, launch, filewin, items, status, listed, vol, mounted, desktop, menu, rfl⟩

theorem of_desktopOnly {ui ui' : Ui} (only : DesktopOnly ui ui') : FirstKeysOnly ui ui' := by
  have steady := only.steady
  rcases only with ⟨vol, mounted, desktop, menu, rfl⟩
  exact ⟨rfl, rfl, steady.coherent, _, _, _, _, _, _, _, vol, mounted, desktop, menu, rfl⟩

end FirstKeysOnly

theorem filewinDeleteSelection_only (env : Env) (ui : Ui) :
    Ensures (filewinDeleteSelection env ui) (FirstKeysOnly ui) := by
  have nothing : FirstKeysOnly ui ui := .of_desktopOnly (.refl ui)
  apply Ensures.ite
  · intro _
    exact .pure nothing
  · intro _
    cases ui.fileSelected with
    | none => exact .pure nothing
    | some item =>
        apply Ensures.ite
        · intro _
          exact .pure nothing
        · intro _
          apply Ensures.bind (withVol_only ui _)
          intro written wrote
          apply Ensures.ite
          · intro _
            apply Ensures.bind (filewinRefreshList_only env written.1)
            rintro refreshed ⟨selection, items, status, listed⟩
            refine (desktopRefreshFromPath_only env refreshed).mono fun ui' shown => ?_
            have relisted : FirstKeysOnly written.1 ui' := by
              rcases listed.trans shown with ⟨vol, mounted, desktop, menu, rfl⟩
              exact ⟨rfl, rfl, fun _ _ => rfl, _, _, _, _, _, _, _, vol, mounted, desktop, menu,
                rfl⟩
            exact (FirstKeysOnly.of_desktopOnly wrote).trans relisted
          · intro _
            exact .pure (.of_desktopOnly wrote)

theorem launchToggle_only (env : Env) (shown : Bool) (ui : Ui) :
    Ensures (launchToggle env shown ui) fun ui' =>
      ∃ launch, DesktopOnly { ui with launch := launch } ui' := by
  have refreshed : Ensures (launchRefreshItems env ui) fun ui' =>
      ∃ launch, DesktopOnly { ui with launch := launch } ui' := by
    apply Ensures.ite
    · intro _
      exact .pure ⟨_, .refl _⟩
    · intro _
      apply Ensures.bind (withVol_only ui _)
      rintro ⟨listed, code, entries⟩ ⟨vol, mounted, desktop, menu, changed⟩
      dsimp only at changed
      subst changed
      exact .pure ⟨_, vol, mounted, desktop, menu, rfl⟩
  apply Ensures.ite
  · intro _
    apply Ensures.bind refreshed
    rintro _ ⟨launch, vol, mounted, desktop, menu, rfl⟩
    exact .pure ⟨_, vol, mounted, desktop, menu, rfl⟩
  · intro _
    exact .pure ⟨_, .refl _⟩

theorem arrowKey_only (sc : UInt8) (ui : Ui) : FirstKeysOnly ui (arrowKey sc ui) := by
  unfold arrowKey
  split
  · unfold filewinMoveSelection
    split
    · exact .of_desktopOnly (.refl ui)
    · exact ⟨rfl, rfl, id, _, _, _, _, _, _, _, .refl _⟩
  · exact .of_desktopOnly (desktopMoveSelection_only _ ui)

theorem deleteKey_only (env : Env) (ui : Ui) :
    Ensures (deleteKey env ui) (FirstKeysOnly ui) := by
  apply Ensures.ite
  · intro _
    exact filewinDeleteSelection_only env ui
  · intro _
    exact (desktopDeleteSelection_only env ui).mono fun _ => .of_desktopOnly

/-- The keys that are remembered as held down or switched on. -/
def heldKeys (sc : UInt8) (keys : Keys) : Keys :=
  if sc = 0x38 then { keys with altDown := true }
  else if sc = 0x2A ∨ sc = 0x36 then { keys with shiftDown := keys.shiftDown + 1 }
  else if sc = 0x3A then { keys with capsOn := !keys.capsOn }
  else keys

/-- The state in which a key that is passed on finds the later blocks. -/
def withHeld (sc : UInt8) (ui : Ui) : Ui := { ui with keys := heldKeys sc ui.keys }

def isAltTab (sc : UInt8) (ui : Ui) : Bool := sc == 0x0F && ui.keys.altDown

/-- A key is either used up in the first block or passed on with nothing changed
but the keys held down. -/
theorem firstKeys_cases (env : Env) (input : Input) (ui : Ui) :
    Ensures (firstKeys env input ui) fun result =>
      (result.1 = none ∧ FirstKeysOnly ui result.2) ∨
        ∃ sc, input.scancode = some sc ∧ isAltTab sc ui = false ∧
          result = (some sc, withHeld sc ui) := by
  have held : ∀ keys, FirstKeysOnly ui { ui with keys := keys } := fun keys =>
    ⟨rfl, rfl, id, _, _, _, _, _, _, _, .refl _⟩
  unfold firstKeys
  cases scancode : input.scancode with
  | none => exact .pure (.inl ⟨rfl, held ui.keys⟩)
  | some sc =>
      apply Ensures.ite
      · intro _
        exact .pure (.inl ⟨rfl, held _⟩)
      · intro _
        have passed : ∀ ui', ui' = withHeld sc ui → isAltTab sc ui = false →
            Ensures (pure (some sc, ui') : DiskM (Option UInt8 × Ui)) fun result =>
              (result.1 = none ∧ FirstKeysOnly ui result.2) ∨
                ∃ key, some sc = some key ∧ isAltTab key ui = false ∧
                  result = (some key, withHeld key ui) := by
          intro ui' held notTab
          subst held
          exact .pure (.inr ⟨sc, rfl, notTab, rfl⟩)
        apply Ensures.ite
        · intro alt
          exact passed _ (by simp [withHeld, heldKeys, alt]) (by simp [isAltTab, alt])
        · intro notAlt
          apply Ensures.ite
          · intro _
            apply Ensures.bind (launchToggle_only env _ _)
            rintro toggled ⟨launch, only⟩
            rcases only.trans (desktopRender_only toggled) with ⟨vol, mounted, desktop, menu, shown⟩
            refine .pure (.inl ⟨rfl, ?_⟩)
            dsimp only
            rw [shown]
            exact ⟨rfl, rfl, id, _, _, _, _, _, _, _, vol, mounted, desktop, menu, rfl⟩
          · intro notWin
            apply Ensures.ite
            · intro shift
              have notTab : isAltTab sc ui = false := by
                rcases shift with rfl | rfl <;> rfl
              exact passed _ (by simp [withHeld, heldKeys, notAlt, shift]) notTab
            · intro notShift
              apply Ensures.ite
              · intro caps
                exact passed _ (by simp [withHeld, heldKeys, caps]) (by simp [isAltTab, caps])
              · intro notCaps
                apply Ensures.ite
                · intro _
                  have cycled : FirstKeysOnly ui (wmCycleNext ui) := by
                    simp only [wmCycleNext]
                    split
                    · exact ⟨rfl, rfl, id, _, _, _, _, _, _, _, .refl _⟩
                    · exact held ui.keys
                  exact .pure (.inl ⟨rfl, cycled.trans (.of_desktopOnly (desktopRender_only _))⟩)
                · intro notTab
                  apply Ensures.ite
                  · intro _
                    apply Ensures.bind (deleteKey_only env ui)
                    intro deleted only
                    exact .pure (.inl ⟨rfl, only⟩)
                  · intro _
                    apply Ensures.ite
                    · intro _
                      exact .pure (.inl ⟨rfl, arrowKey_only sc ui⟩)
                    · intro _
                      exact passed _ (by simp [withHeld, heldKeys, notAlt, notShift, notCaps])
                        (by simpa [isAltTab] using notTab)

/-! ## Login screen -/

/-- What the login screen does to the other parts of the state. -/
structure LoginOnly (ui ui' : Ui) : Prop where
  fits : PathFits ui → PathFits ui'
  coherent : Coherent ui → Coherent ui'
  notepad : ui'.notepad = ui.notepad
  entered : ui'.login.active = false ∨
    ui'.login.active = ui.login.active ∧ ui'.filewin = ui.filewin

namespace LoginOnly

theorem trans {first second third : Ui} (before : LoginOnly first second)
    (after : LoginOnly second third) : LoginOnly first third := by
  refine ⟨after.fits ∘ before.fits, after.coherent ∘ before.coherent,
    after.notepad.trans before.notepad, ?_⟩
  rcases after.entered with entered | ⟨sameActive, sameWindow⟩
  · exact .inl entered
  · rcases before.entered with entered | ⟨active, window⟩
    · exact .inl (sameActive.trans entered)
    · exact .inr ⟨sameActive.trans active, sameWindow.trans window⟩

end LoginOnly

theorem startDesktopSession_change (env : Env) (ui : Ui) :
    Ensures (startDesktopSession env ui) fun ui' =>
      UiChange env ui ui' ∧ ui'.notepad = ui.notepad := by
  have opened : ∀ ui : Ui, Ensures (filewinOpen env ui) fun ui' => ui'.notepad = ui.notepad := by
    intro ui
    apply Ensures.ite
    · intro _
      exact .pure rfl
    · intro _
      apply Ensures.bind (filewinRefreshList_only env _)
      intro refreshed only
      rcases only with ⟨selection, items, status, vol, mounted, desktop, menu, rfl⟩
      exact .pure rfl
  have managed : ∀ ui : Ui, (taskmgrOpen env ui).notepad = ui.notepad := by
    intro ui
    unfold taskmgrOpen
    split <;> rfl
  apply Ensures.ite
  · intro _
    exact .pure ⟨.refl ui, rfl⟩
  · intro _
    have started : UiChange env ui { ui with session := { ui.session with started := true } } :=
      .shell ui _ _ _ _ _ _ _ _ _
    apply Ensures.bind ((filewinOpen_change env _).both (opened _))
    intro shown same
    have later := (taskmgrOpen_change env shown).trans (desktopRender_change env _)
    have rendered : (desktopRender (taskmgrOpen env shown)).notepad = shown.notepad := by
      rcases desktopRender_only (taskmgrOpen env shown) with ⟨_, _, _, _, changed⟩
      rw [changed]
      exact managed shown
    exact .pure ⟨(started.trans same.1).trans later, rendered.trans same.2⟩

theorem loginAttempt_only (env : Env) (ui : Ui) :
    Ensures (loginAttempt env ui) fun ui' =>
      LoginOnly ui ui' ∧
        ui'.login.active = (ui.login.active && !loginSucceeds ui) := by
  apply Ensures.ite
  · intro right
    have succeeds : loginSucceeds ui = true := right
    apply Ensures.bind (ensureUserDirsOnDisk_only env _ _)
    intro prepared dirs
    apply Ensures.bind (desktopRefreshFromPath_only env _)
    intro refreshed shown
    refine (startDesktopSession_change env _).mono fun ui' started => ?_
    rcases dirs with ⟨_, _, _, _, rfl⟩
    rcases shown with ⟨_, _, _, _, rfl⟩
    have steady := started.1.steady
    have inactive : ui'.login.active = false := by rw [steady.login]
    exact ⟨⟨steady.fits, steady.coherent, started.2, .inl inactive⟩,
      by rw [inactive, succeeds, Bool.not_true, Bool.and_false]⟩
  · intro wrong
    have fails : loginSucceeds ui = false := Bool.eq_false_iff.mpr wrong
    exact .pure ⟨⟨id, id, rfl, .inr ⟨rfl, rfl⟩⟩, by rw [fails, Bool.not_false, Bool.and_true]⟩

theorem loginClick_only (env : Env) (input : Input) (ui : Ui) :
    Ensures (loginClick env input ui) (LoginOnly ui) := by
  have focused : ∀ login, login.active = ui.login.active →
      LoginOnly ui { ui with login := login } :=
    fun login active => ⟨id, id, rfl, .inr ⟨active, rfl⟩⟩
  have chosen : ∀ ui' : Ui, LoginOnly ui ui' → Ensures (
      if pointInRect input.mx input.my (loginLayoutCompute env).pwX (loginLayoutCompute env).pwY
          (loginLayoutCompute env).pwW 28 then
        pure { ui' with login := { ui'.login with pwFocus := true } }
      else if pointInRect input.mx input.my (loginLayoutCompute env).btnX
          (loginLayoutCompute env).pwY 90 28 then loginAttempt env ui'
      else pure { ui' with login := { ui'.login with pwFocus := false } }) (LoginOnly ui) := by
    intro ui' selected
    have refocused : ∀ focus, LoginOnly ui
        { ui' with login := { ui'.login with pwFocus := focus } } :=
      fun focus => selected.trans ⟨id, id, rfl, .inr ⟨rfl, rfl⟩⟩
    apply Ensures.ite
    · intro _
      exact .pure (refocused true)
    · intro _
      apply Ensures.ite
      · intro _
        exact (loginAttempt_only env ui').mono fun _ attempted => selected.trans attempted.1
      · intro _
        exact .pure (refocused false)
  apply chosen
  split
  · exact focused _ rfl
  · exact focused _ rfl

theorem loginKey_only (env : Env) (sc : UInt8) (ui : Ui) :
    Ensures (loginKey env sc ui) (LoginOnly ui) := by
  have typed : ∀ pw, LoginOnly ui { ui with login := { ui.login with pw := pw } } :=
    fun pw => ⟨id, id, rfl, .inr ⟨rfl, rfl⟩⟩
  apply Ensures.ite
  · intro _
    exact (loginAttempt_only env ui).mono fun _ attempted => attempted.1
  · intro _
    apply Ensures.ite
    · intro _
      exact .pure (typed _)
    · intro _
      apply Ensures.ite
      · intro _
        exact .pure (typed _)
      · intro _
        exact .pure (typed ui.login.pw)

/-- The login screen behind the click. -/
def loginKeys (env : Env) (input : Input) (sc : Option UInt8) (ui : Ui) : DiskM Ui :=
  match sc with
  | some sc =>
      if (keepButtons input ui).login.pwFocus then loginKey env sc (keepButtons input ui)
      else pure (keepButtons input ui)
  | none => pure (keepButtons input ui)

def withHover (env : Env) (input : Input) (ui : Ui) : Ui :=
  { ui with login := { ui.login with hover := loginHover env input ui } }

theorem loginScreen_eq (env : Env) (input : Input) (sc : Option UInt8) (ui : Ui) :
    loginScreen env input sc ui =
      if !env.fbReady then pure (keepButtons input ui)
      else if input.left && !ui.prevLeft then
        loginClick env input (withHover env input ui) >>= loginKeys env input sc
      else loginKeys env input sc (withHover env input ui) := rfl

theorem loginKeys_only (env : Env) (input : Input) (sc : Option UInt8) (ui : Ui) :
    Ensures (loginKeys env input sc ui) (LoginOnly ui) := by
  have buttons : LoginOnly ui (keepButtons input ui) := ⟨id, id, rfl, .inr ⟨rfl, rfl⟩⟩
  cases sc with
  | none => exact .pure buttons
  | some key =>
      apply Ensures.ite
      · intro _
        exact (loginKey_only env key _).mono fun _ => buttons.trans
      · intro _
        exact .pure buttons

theorem loginScreen_only (env : Env) (input : Input) (sc : Option UInt8) (ui : Ui) :
    Ensures (loginScreen env input sc ui) (LoginOnly ui) := by
  have hovered : LoginOnly ui (withHover env input ui) := ⟨id, id, rfl, .inr ⟨rfl, rfl⟩⟩
  rw [loginScreen_eq]
  apply Ensures.ite
  · intro _
    exact .pure ⟨id, id, rfl, .inr ⟨rfl, rfl⟩⟩
  · intro _
    apply Ensures.ite
    · intro _
      apply Ensures.bind (loginClick_only env input _)
      intro ui' clicked
      exact (loginKeys_only env input sc ui').mono fun _ => (hovered.trans clicked).trans
    · intro _
      exact (loginKeys_only env input sc _).mono fun _ => hovered.trans

end ParanOS

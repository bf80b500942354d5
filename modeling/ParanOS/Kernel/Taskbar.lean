import ParanOS.Kernel.Screen

/-! # Buttons of the taskbar

The taskbar is laid out twice. `desktop_render` draws it 34 pixels high, with
the buttons of the windows behind those of the quick launch; the click handler
takes it to be 32 pixels high, with the first button where the quick launch
starts. The two rows of buttons are shifted by more than one button, so that a
click never reaches the window whose button is drawn under the mouse.
-/

namespace ParanOS

open Foundation

/-! ## What is drawn -/

/-- `taskbar_draw_shortcuts`: where the buttons of the windows start. -/
def taskbarDrawShortcuts (x : Int) : Int :=
  quickLaunches.foldl (fun bx _ => bx + (28 + 6)) (x + 6) + 6

/-- `wm_draw_taskbar`: the buttons of the open windows, from `x` on. -/
def wmDrawTaskbar (y height : Int) (ui : Ui) : (x : Int) → List WinId → List (WinId × Rect)
  | _, [] => []
  | x, id :: rest =>
      if !(ui.window id).isOpen then wmDrawTaskbar y height ui x rest
      else
        let btnH := height - 4
        (id, ⟨x, y + Int.tdiv (height - btnH) 2, 120, btnH⟩) ::
          wmDrawTaskbar y height ui (x + (120 + 4)) rest

/-- The buttons that `desktop_render` draws. -/
def drawnButtons (env : Env) (ui : Ui) : List (WinId × Rect) :=
  let taskbarH := 34
  wmDrawTaskbar (env.fbHeight - taskbarH) taskbarH ui (taskbarDrawShortcuts 80) winIds

/-- The open windows, in the order of their buttons. -/
def Ui.openIds (ui : Ui) : List WinId := winIds.filter fun id => (ui.window id).isOpen

/-- The place of a button follows from its number. -/
theorem mem_wmDrawTaskbar {y height x : Int} {ui : Ui} {ids : List WinId} {id : WinId}
    {rect : Rect} (drawn : (id, rect) ∈ wmDrawTaskbar y height ui x ids) :
    ∃ number : Nat, (ids.filter fun id => (ui.window id).isOpen)[number]? = some id ∧
      rect = ⟨x + 124 * number, y + 2, 120, height - 4⟩ := by
  induction ids generalizing x with
  | nil => simp [wmDrawTaskbar] at drawn
  | cons head rest induction =>
      rw [wmDrawTaskbar] at drawn
      cases isOpen : (ui.window head).isOpen with
      | false =>
          rw [isOpen, Bool.not_false, if_pos rfl] at drawn
          rw [List.filter_cons_of_neg (by simp [isOpen])]
          exact induction drawn
      | true =>
          rw [isOpen, Bool.not_true, if_neg Bool.false_ne_true] at drawn
          rw [List.filter_cons_of_pos (by simp [isOpen])]
          rcases List.mem_cons.mp drawn with first | later
          · simp only [Prod.mk.injEq] at first
            rcases first with ⟨rfl, rfl⟩
            exact ⟨0, rfl, by simp⟩
          · rcases induction later with ⟨number, same, place⟩
            refine ⟨number + 1, same, ?_⟩
            rw [place, Rect.mk.injEq]
            exact ⟨by omega, rfl, rfl, rfl⟩

/-! ## What a click reaches -/

/-- What a click on the button of a window should do: the launch menu closes,
the window comes to the front, and its callback minimises it or shows it
again. -/
def Answers (env : Env) (mx my : Int) (ui : Ui) (id : WinId) : Prop :=
  taskbarClick env mx my ui = pure (desktopRender (Ui.setWindow
    { ui with launch := { ui.launch with visible := false }, front := id } id
    { ui.window id with minimized := !(ui.window id).minimized }))

/-- The window that a click reaches is not the one whose button is drawn there. -/
theorem taskbarHit_ne_drawn {mx my y height : Int} {ui : Ui} {id : WinId} {number : Nat}
    (own : ui.openIds[number]? = some id) (left : 228 + 124 * (number : Int) ≤ mx)
    (right : mx < 348 + 124 * (number : Int)) : taskbarHit mx my y height 80 ui ≠ some id := by
  intro hit
  rcases Option.map_eq_some_iff.mp hit with ⟨⟨found, index⟩, first, same⟩
  have inside := List.find?_some first
  have member := List.mem_of_find?_eq_some first
  simp only [pointInRect, decide_eq_true_eq] at inside
  dsimp only at same
  subst same
  have indexed : ui.openIds[index]? = some found := List.mem_zipIdx_iff_getElem?.mp member
  have distinct : ui.openIds.Nodup := List.Nodup.filter _ (by decide)
  have equal : index = number := by
    rcases List.getElem?_eq_some_iff.mp own with ⟨bound, _⟩
    exact ((List.getElem?_inj bound distinct).mp (own.trans indexed.symm)).symm
  subst equal
  omega

theorem shortcutHit_eq_none {mx my x y h : Int} (right : x + 136 ≤ mx) :
    shortcutHit mx my x y h = none := by
  rw [shortcutHit, Option.map_eq_none_iff, List.find?_eq_none]
  intro entry member
  have bound : entry.2 < 4 := by
    have indexed := List.mem_zipIdx_iff_getElem?.mp member
    rcases List.getElem?_eq_some_iff.mp indexed with ⟨bound, _⟩
    exact bound
  simp only [pointInRect, decide_eq_true_eq]
  omega

theorem window_desktopRender (ui : Ui) (id : WinId) :
    (desktopRender ui).window id = ui.window id := by
  unfold desktopRender
  split
  · rfl
  · cases id <;> rfl

/-- A click handler that reaches another window, or none, leaves the window as
it is. -/
theorem window_wmHandleTaskbarClick {mx my y height startX : Int} {ui : Ui} {id : WinId}
    (other : taskbarHit mx my y height startX ui ≠ some id) :
    (wmHandleTaskbarClick mx my y height startX ui).window id = ui.window id := by
  unfold wmHandleTaskbarClick
  cases hit : taskbarHit mx my y height startX ui with
  | none => rfl
  | some found =>
      have different : id ≠ found := fun same => other (same ▸ hit)
      dsimp only
      rw [window_desktopRender, window_setWindow, if_neg different]
      cases id <;> rfl

/-- Wherever the mouse is on the button that is drawn for a window, a click does
not do what the button should do. -/
theorem drawnButton_not_answers {env : Env} {ui : Ui} {mx my : Int} {id : WinId} {rect : Rect}
    (drawn : (id, rect) ∈ drawnButtons env ui)
    (inside : pointInRect mx my rect.wx rect.wy rect.ww rect.wh = true) :
    ¬ Answers env mx my ui id := by
  intro answers
  rcases mem_wmDrawTaskbar drawn with ⟨number, own, place⟩
  have start : taskbarDrawShortcuts 80 = 228 := rfl
  simp only [pointInRect, decide_eq_true_eq, place, start] at inside
  rw [Answers, taskbarClick, if_neg (by omega)] at answers
  simp only [shortcutHit_eq_none (show (80 : Int) + 136 ≤ mx by omega)] at answers
  have other : taskbarHit mx my (env.fbHeight - 32) 32 80
      { ui with launch := { ui.launch with visible := false } } ≠ some id :=
    taskbarHit_ne_drawn own inside.1 (by omega)
  have kept := window_wmHandleTaskbarClick other
  have states := congrFun answers (Device.healthy fun _ _ => 0)
  simp only [DiskM.pure_apply, Option.some.injEq, Prod.mk.injEq, and_true] at states
  rw [states, window_desktopRender, window_setWindow, if_pos rfl] at kept
  have flipped : (!(ui.window id).minimized) = (ui.window id).minimized := by
    have same := congrArg Window.minimized kept
    cases id <;> exact same
  exact Bool.not_ne_self _ flipped

/-- The System Monitor is the only open window. -/
def monitorOnly : Ui :=
  { Ui.initial blankVol with taskmgr := Window.zero.placed (openRect sampleEnv .taskmgr) true }

theorem drawnButton_not_answers_monitor :
    (WinId.taskmgr, Rect.mk 228 448 120 30) ∈ drawnButtons sampleEnv monitorOnly ∧
      ¬ Answers sampleEnv 230 450 monitorOnly .taskmgr := by
  have drawn : (WinId.taskmgr, Rect.mk 228 448 120 30) ∈ drawnButtons sampleEnv monitorOnly := by
    decide
  exact ⟨drawn, drawnButton_not_answers drawn (by decide)⟩

/-- A click on the button of the System Monitor reaches no window. -/
theorem drawnButton_without_answer :
    ¬ ∀ (env : Env) (ui : Ui) (mx my : Int) (id : WinId) (rect : Rect), 640 ≤ env.fbWidth →
      480 ≤ env.fbHeight → env.fbHeight - 32 ≤ my ∧ my < env.fbHeight →
      (id, rect) ∈ drawnButtons env ui →
      pointInRect mx my rect.wx rect.wy rect.ww rect.wh = true → Answers env mx my ui id := by
  intro claim
  have answers := claim sampleEnv monitorOnly 230 450 .taskmgr ⟨228, 448, 120, 30⟩ (by decide)
    (by decide) (by decide) (by decide) (by decide)
  have minimized : ∀ ui, taskbarClick sampleEnv 230 450 monitorOnly = pure ui →
      ui.taskmgr.minimized = false := by
    intro ui clicked
    have states := congrFun clicked (Device.healthy fun _ _ => 0)
    have kept : (taskbarClick sampleEnv 230 450 monitorOnly (Device.healthy fun _ _ => 0)).map
        (fun ended => ended.1.taskmgr.minimized) = some false := by
      decide
    rw [states] at kept
    exact Option.some.inj kept
  have toggled := minimized _ answers
  exact absurd toggled (by decide)

end ParanOS

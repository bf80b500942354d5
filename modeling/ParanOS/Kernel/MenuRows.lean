import ParanOS.Foundation.Grid
import ParanOS.Kernel.Login

/-! # The rows of the menus

Context menu, launch menu and the menu under a title of the top bar are boxes with a border
above and below the rows of their entries. Drawing compares the pointer with each row; a click
divides the distance from the first row, which rounds the border above to the first entry.
-/

namespace ParanOS

open Foundation

/-- Where a menu is drawn: its box, the height of the border above the first row, and the
height and number of the rows. -/
structure MenuBox where
  x : Int
  y : Int
  w : Int
  h : Int
  border : Int
  itemH : Int
  count : Nat

namespace MenuBox

/-- The entries in whose row the pointer is when the menu is drawn. -/
def lit (box : MenuBox) (mx my : Int) : List Nat :=
  (List.range box.count).filter fun i =>
    pointInRect mx my box.x (box.y + box.border + i * box.itemH) box.w box.itemH

/-- The entry that a click is counted for. -/
def index (box : MenuBox) (mx my : Int) : Option Nat :=
  if pointInRect mx my box.x box.y box.w box.h then
    let idx := Int.tdiv (my - box.y - box.border) box.itemH
    if 0 ≤ idx ∧ idx.toNat < box.count then some idx.toNat else none
  else none

/-- The pointer is in the border above the first of the entries. -/
def InTopBorder (box : MenuBox) (mx my : Int) : Prop :=
  box.x ≤ mx ∧ mx < box.x + box.w ∧ box.y ≤ my ∧ my < box.y + box.border ∧ 0 < box.count

instance (box : MenuBox) (mx my : Int) : Decidable (box.InTopBorder mx my) :=
  inferInstanceAs (Decidable (_ ∧ _))

/-- The rows fit into the box, and the border is not as high as a row. -/
structure Sized (box : MenuBox) : Prop where
  border_nonneg : 0 ≤ box.border
  border_lt : box.border < box.itemH
  rows_fit : box.border + box.count * box.itemH ≤ box.h

theorem mem_lit {box : MenuBox} {mx my : Int} {i : Nat} :
    i ∈ box.lit mx my ↔ i < box.count ∧ box.x ≤ mx ∧ mx < box.x + box.w ∧
      i * box.itemH ≤ my - box.y - box.border ∧
      my - box.y - box.border < (i + 1) * box.itemH := by
  rw [lit, List.mem_filter, List.mem_range, pointInRect, decide_eq_true_eq, add_mul, one_mul]
  apply and_congr_right
  intro _
  constructor
  · intro bounds
    omega
  · intro bounds
    omega

/-- A click is counted for the entry that is shown under the pointer just if it is not in the
border above the entries. -/
theorem index_lit_iff {box : MenuBox} (sized : box.Sized) (mx my : Int) :
    (∀ i, box.index mx my = some i ↔ i ∈ box.lit mx my) ↔ ¬ box.InTopBorder mx my := by
  have nonneg := sized.border_nonneg
  have small := sized.border_lt
  have tall : 0 < box.itemH := by omega
  constructor
  · rintro alike ⟨leftmost, right, top, below, some⟩
    -- the quotient is rounded up to the first entry
    have first : Int.tdiv (my - box.y - box.border) box.itemH = 0 :=
      tdiv_eq_zero (by omega) (by omega)
    have rows : box.itemH ≤ box.count * box.itemH :=
      le_mul_of_one_le_left (Int.le_of_lt tall) (by exact_mod_cast some)
    have fits := sized.rows_fit
    have inside : pointInRect mx my box.x box.y box.w box.h = true := by
      apply decide_eq_true
      omega
    have counted : box.index mx my = Option.some 0 := by
      rw [index, if_pos inside, first]
      exact if_pos ⟨Int.le_refl 0, some⟩
    have shown := mem_lit.mp ((alike 0).mp counted)
    rw [Nat.cast_zero, zero_mul] at shown
    omega
  · intro outside i
    rw [mem_lit]
    by_cases rows : box.x ≤ mx ∧ mx < box.x + box.w ∧ 0 ≤ my - box.y - box.border
    · rcases rows with ⟨leftmost, right, behind⟩
      have quotient := @tdiv_eq_iff _ _ i tall behind
      constructor
      · intro counted
        rw [index] at counted
        split at counted
        · dsimp only at counted
          split at counted
          · rename_i range
            have same : Int.tdiv (my - box.y - box.border) box.itemH = i := by
              rw [← Option.some.inj counted, Int.toNat_of_nonneg range.1]
            have bounds := quotient.mp same
            exact ⟨Option.some.inj counted ▸ range.2, leftmost, right, bounds⟩
          · cases counted
        · cases counted
      · rintro ⟨below, _, _, bounds⟩
        have upper : ((i : Int) + 1) * box.itemH ≤ box.count * box.itemH :=
          mul_le_mul_of_nonneg_right (by exact_mod_cast below) (Int.le_of_lt tall)
        have fits := sized.rows_fit
        have inside : pointInRect mx my box.x box.y box.w box.h = true := by
          apply decide_eq_true
          omega
        rw [index, if_pos inside, quotient.mpr bounds]
        exact if_pos ⟨Int.natCast_nonneg i, below⟩
    · constructor
      · intro counted
        rw [index] at counted
        split at counted
        · rename_i inside
          have bounds := of_decide_eq_true inside
          dsimp only at counted
          split at counted
          · rename_i range
            exact absurd ⟨bounds.1, bounds.2.1, bounds.2.2.1, by omega, by omega⟩ outside
          · cases counted
        · cases counted
      · rintro ⟨_, leftmost, right, bounds⟩
        have start : (0 : Int) ≤ i * box.itemH := by positivity
        exact absurd ⟨leftmost, right, by omega⟩ rows

theorem index_eq_some {box : MenuBox} {mx my : Int} {i : Nat} (counted : box.index mx my = some i) :
    pointInRect mx my box.x box.y box.w box.h = true ∧ i < box.count ∧
      Int.tdiv (my - box.y - box.border) box.itemH = i := by
  rw [index] at counted
  split at counted
  · rename_i inside
    dsimp only at counted
    split at counted
    · rename_i range
      rw [← Option.some.inj counted]
      exact ⟨inside, range.2, (Int.toNat_of_nonneg range.1).symm⟩
    · cases counted
  · cases counted

theorem index_eq_none {box : MenuBox} {mx my : Int} (none : box.index mx my = none)
    (inside : pointInRect mx my box.x box.y box.w box.h = true) :
    ¬ (0 ≤ Int.tdiv (my - box.y - box.border) box.itemH ∧
      (Int.tdiv (my - box.y - box.border) box.itemH).toNat < box.count) := by
  intro range
  rw [index, if_pos inside] at none
  dsimp only at none
  rw [if_pos range] at none
  cases none

end MenuBox

/-! ## The boxes -/

/-- The context menu, moved back onto the screen. -/
def ctxMenuBox (env : Env) (ui : Ui) : MenuBox :=
  let menu := ui.ctxMenu
  ⟨if menu.x + menu.w > env.fbWidth then env.fbWidth - menu.w else menu.x,
    if menu.y + menu.h > env.fbHeight then env.fbHeight - menu.h else menu.y,
    menu.w, menu.h, 4, ctxMenuItemH, menu.items.length⟩

def launchBox (ui : Ui) : MenuBox :=
  ⟨ui.launch.x, ui.launch.y, 220, launchItemH * ui.launch.items.length + 12, 6, launchItemH,
    ui.launch.items.length⟩

/-- The menu under a title of the top bar. -/
def topmenuBox (env : Env) (menu : Nat) : MenuBox :=
  let items := topmenuGetMenu menu
  let menuW := longestLabel items * env.psfWidth + 24
  let titleX := (topmenuTitle env menu).1
  ⟨if titleX + menuW > env.fbWidth then env.fbWidth - menuW - 6 else titleX, topbarH, menuW,
    items.length * 20 + 8, 4, 20, items.length⟩

theorem ctxMenuBox_sized {env : Env} {ui : Ui}
    (height : ui.ctxMenu.h = ui.ctxMenu.items.length * ctxMenuItemH + 8) :
    (ctxMenuBox env ui).Sized := by
  constructor
  · exact Int.natCast_nonneg 4
  · exact Int.ofNat_lt.mpr (show 4 < 24 by decide)
  · simp only [ctxMenuBox, height]
    omega

theorem launchBox_sized (ui : Ui) : (launchBox ui).Sized := by
  constructor
  · exact Int.natCast_nonneg 6
  · exact Int.ofNat_lt.mpr (show 6 < 26 by decide)
  · simp only [launchBox, launchItemH]
    omega

theorem topmenuBox_sized (env : Env) (menu : Nat) : (topmenuBox env menu).Sized := by
  constructor
  · exact Int.natCast_nonneg 4
  · exact Int.ofNat_lt.mpr (show 4 < 20 by decide)
  · simp only [topmenuBox]
    omega

/-- The height that `ctx_menu_show` sets is that of its entries. -/
theorem ctxMenuShow_height (env : Env) (target : CtxTarget) (x y : Int) (ui : Ui) :
    (ctxMenuShow env target x y ui).ctxMenu.h =
      (ctxMenuShow env target x y ui).ctxMenu.items.length * ctxMenuItemH + 8 := rfl

/-! ## Clicks -/

/-- What becomes of a click while a menu is open: the entry that it is counted for is run, or
else, where there is none, one of these things is done. -/
structure RunsEntry {α : Type} (click : DiskM α) (entry : Option Nat) (run : Nat → DiskM α)
    (otherwise : List (DiskM α)) : Prop where
  counted : ∀ i, entry = some i → click = run i
  nothing : entry = none → click ∈ otherwise

theorem RunsEntry.of_none {α : Type} {click : DiskM α} {run : Nat → DiskM α}
    {otherwise : List (DiskM α)} (done : click ∈ otherwise) :
    RunsEntry click none run otherwise := by
  constructor
  · intro i counted
    cases counted
  · exact fun _ => done

/-- The action of an entry of the context menu. -/
def ctxMenuRun (env : Env) (ui : Ui) (i : Nat) : DiskM (Bool × Ui) :=
  match ui.ctxMenu.items[i]? with
  | some item => do
      let ui ← ctxMenuHandleAction env item.2 ui
      pure (true, ui)
  | none => pure (true, ui)

def launchRun (env : Env) (ui : Ui) (i : Nat) : DiskM (Bool × Ui) := do
  let ui ← launchActivate env i ui
  pure (true, ui)

def topmenuRun (env : Env) (menu : Nat) (ui : Ui) (i : Nat) : DiskM (Bool × Ui) :=
  match (topmenuGetMenu menu)[i]? with
  | some item => do
      let ui ← topmenuApplyAction env item.2 ui
      pure (true, desktopRender { ui with topmenuOpen := none })
  | none => pure (true, ui)

theorem menuEntry_some {items : List (List UInt8 × CtxAction)} {offset height : Int} {i : Nat}
    (quotient : Int.tdiv offset height = i) :
    menuEntry items offset height = (items[i]?).map (·.2) := by
  rw [menuEntry, quotient]
  exact if_pos (Int.natCast_nonneg i)

theorem menuEntry_none {items : List (List UInt8 × CtxAction)} {offset height : Int}
    (outside : ¬ (0 ≤ Int.tdiv offset height ∧ (Int.tdiv offset height).toNat < items.length)) :
    menuEntry items offset height = none := by
  rw [menuEntry]
  split
  · rw [List.getElem?_eq_none (by omega)]
    rfl
  · rfl

theorem ctxMenuClick_box (env : Env) (mx my : Int) (ui : Ui) :
    ctxMenuClick env mx my ui =
      let box := ctxMenuBox env ui
      if pointInRect mx my box.x box.y box.w box.h then
        match menuEntry ui.ctxMenu.items (my - box.y - box.border) box.itemH with
        | some act => ctxMenuHandleAction env act ui
        | none => pure ui
      else pure (ctxMenuHide ui) := rfl

theorem launchClick_box (env : Env) (mx my : Int) (ui : Ui) :
    launchClick env mx my ui =
      let box := launchBox ui
      if pointInRect mx my box.x box.y box.w box.h then
        let idx := Int.tdiv (my - box.y - box.border) box.itemH
        if 0 ≤ idx then launchActivate env idx.toNat ui else pure ui
      else pure { ui with launch := { ui.launch with visible := false } } := rfl

theorem topmenuHandleClick_box (env : Env) (mx my : Int) {ui : Ui} {menu : Nat}
    (active : topmenuActiveWindow ui = true) (isOpen : ui.topmenuOpen = some menu) :
    topmenuHandleClick env mx my ui =
      let box := topmenuBox env menu
      if pointInRect mx my box.x box.y box.w box.h then
        match menuEntry (topmenuGetMenu menu) (my - box.y - box.border) box.itemH with
        | some act => do
            let ui ← topmenuApplyAction env act ui
            pure (true, desktopRender { ui with topmenuOpen := none })
        | none => pure (topmenuClickTitle env mx my ui)
      else pure (true, { ui with topmenuOpen := none }) := by
  rw [topmenuHandleClick, active, isOpen]
  rfl

/-- A click while the context menu is open. -/
theorem leftClick_ctxMenu {env : Env} {input : Input} {ui : Ui}
    (visible : ui.ctxMenu.visible = true) :
    RunsEntry (leftClick env input ui) ((ctxMenuBox env ui).index input.mx input.my)
      (ctxMenuRun env ui) [pure (true, ui), pure (true, ctxMenuHide ui)] := by
  have reached : leftClick env input ui = (do
      let ui ← ctxMenuClick env input.mx input.my ui
      pure (true, ui)) := if_pos visible
  rw [reached]
  constructor
  · intro i counted
    rcases MenuBox.index_eq_some counted with ⟨inside, below, quotient⟩
    have item : ui.ctxMenu.items[i]? = some ui.ctxMenu.items[i] := List.getElem?_eq_getElem below
    rw [ctxMenuRun, ctxMenuClick_box]
    dsimp only
    rw [if_pos inside, menuEntry_some quotient, item]
    rfl
  · intro none
    rw [ctxMenuClick_box]
    dsimp only
    split
    · rename_i inside
      rw [menuEntry_none (MenuBox.index_eq_none none inside)]
      exact .head _
    · exact .tail _ (.head _)

/-- What takes a click before the launch menu and the top bar. -/
def TakenBefore (env : Env) (input : Input) (ui : Ui) : Prop :=
  ui.ctxMenu.visible = true ∨ (ui.prompt.active && ui.prompt.readyClick) = true ∨
    env.fbHeight - 32 ≤ input.my ∧ input.my < env.fbHeight

instance (env : Env) (input : Input) (ui : Ui) : Decidable (TakenBefore env input ui) :=
  inferInstanceAs (Decidable (_ ∨ _))

/-- The context menu, the prompt or the taskbar has taken the click. -/
def takenClick (env : Env) (input : Input) (ui : Ui) : DiskM (Bool × Ui) := do
  let ui ←
    if ui.ctxMenu.visible then ctxMenuClick env input.mx input.my ui
    else if ui.prompt.active && ui.prompt.readyClick then namePromptCommit env ui
    else taskbarClick env input.mx input.my ui
  pure (true, ui)

/-- The entry of the launch menu that a click is counted for. -/
def launchEntry (env : Env) (input : Input) (ui : Ui) : Option Nat :=
  if TakenBefore env input ui then none else (launchBox ui).index input.mx input.my

/-- The entry of the top bar's menu that a click is counted for. -/
def topmenuEntry (env : Env) (input : Input) (menu : Nat) (ui : Ui) : Option Nat :=
  if TakenBefore env input ui ∨ ui.launch.visible = true then none
  else (topmenuBox env menu).index input.mx input.my

section

variable {env : Env} {input : Input} {ui : Ui}

theorem leftClick_taken (taken : TakenBefore env input ui) :
    leftClick env input ui = takenClick env input ui := by
  rw [leftClick, takenClick]
  by_cases menu : ui.ctxMenu.visible = true
  · rw [if_pos menu, if_pos menu]
  · rw [if_neg menu, if_neg menu]
    by_cases prompt : (ui.prompt.active && ui.prompt.readyClick) = true
    · rw [if_pos prompt, if_pos prompt]
    · rw [if_neg prompt, if_neg prompt, if_pos ((taken.resolve_left menu).resolve_left prompt)]

theorem leftClick_free (free : ¬ TakenBefore env input ui) :
    leftClick env input ui =
      if ui.launch.visible then (do
        let ui ← launchClick env input.mx input.my ui
        pure (true, ui))
      else (do
        let (taken, ui) ← topmenuHandleClick env input.mx input.my ui
        if taken then pure (true, ui) else windowClick env input (focusClicked input ui)) := by
  rw [leftClick, if_neg fun taken => free (.inl taken),
    if_neg fun taken => free (.inr (.inl taken)), if_neg fun taken => free (.inr (.inr taken))]

/-- A click while the launch menu is open. -/
theorem leftClick_launch (visible : ui.launch.visible = true) :
    RunsEntry (leftClick env input ui) (launchEntry env input ui) (launchRun env ui)
      [pure (true, ui), pure (true, { ui with launch := { ui.launch with visible := false } }),
        takenClick env input ui] := by
  by_cases taken : TakenBefore env input ui
  · rw [launchEntry, if_pos taken, leftClick_taken taken]
    exact .of_none (.tail _ (.tail _ (.head _)))
  rw [launchEntry, if_neg taken, leftClick_free taken, if_pos visible, launchClick_box]
  constructor
  · intro i counted
    rcases MenuBox.index_eq_some counted with ⟨inside, below, quotient⟩
    rw [launchRun]
    dsimp only
    rw [if_pos inside, quotient, if_pos (Int.natCast_nonneg i), Int.toNat_natCast]
  · intro none
    dsimp only
    split
    · rename_i inside
      have outside := MenuBox.index_eq_none none inside
      split
      · rename_i nonneg
        have missing : ui.launch.items.length ≤ (Int.tdiv (input.my - (launchBox ui).y -
            (launchBox ui).border) (launchBox ui).itemH).toNat :=
          Nat.le_of_not_lt fun below => outside ⟨nonneg, below⟩
        rw [launchActivate, List.getElem?_eq_none missing]
        exact .head _
      · exact .head _
    · exact .tail _ (.head _)

/-- A click while a menu of the top bar is open. In the border below the entries it goes on to
the windows. -/
theorem leftClick_topmenu {menu : Nat} (active : topmenuActiveWindow ui = true)
    (isOpen : ui.topmenuOpen = some menu) :
    RunsEntry (leftClick env input ui) (topmenuEntry env input menu ui) (topmenuRun env menu ui)
      [windowClick env input (focusClicked input ui), pure (true, { ui with topmenuOpen := none }),
        takenClick env input ui, do
          let ui ← launchClick env input.mx input.my ui
          pure (true, ui)] := by
  by_cases taken : TakenBefore env input ui
  · rw [topmenuEntry, if_pos (.inl taken), leftClick_taken taken]
    exact .of_none (.tail _ (.tail _ (.head _)))
  rw [leftClick_free taken]
  by_cases launch : ui.launch.visible = true
  · have unreached : topmenuEntry env input menu ui = none := if_pos (.inr launch)
    rw [unreached, if_pos launch]
    exact .of_none (.tail _ (.tail _ (.tail _ (.head _))))
  have reached : topmenuEntry env input menu ui = (topmenuBox env menu).index input.mx input.my :=
    if_neg (not_or.mpr ⟨taken, launch⟩)
  rw [reached, if_neg launch, topmenuHandleClick_box env _ _ active isOpen]
  constructor
  · intro i counted
    rcases MenuBox.index_eq_some counted with ⟨inside, below, quotient⟩
    have item : (topmenuGetMenu menu)[i]? = some (topmenuGetMenu menu)[i] :=
      List.getElem?_eq_getElem below
    dsimp only
    rw [if_pos inside, menuEntry_some quotient, topmenuRun, item, Option.map_some]
    funext device
    simp only [DiskM.bind_apply]
    cases topmenuApplyAction env (topmenuGetMenu menu)[i].2 ui device with
    | none => rfl
    | some result => rfl
  · intro none
    dsimp only
    split
    · rename_i inside
      have bounds := of_decide_eq_true inside
      have top : (topmenuBox env menu).y = topbarH := rfl
      have noTitle : topmenuTitleHit env input.mx input.my = Option.none :=
        if_neg fun both => by omega
      rw [menuEntry_none (MenuBox.index_eq_none none inside)]
      dsimp only
      rw [topmenuClickTitle, noTitle]
      exact .head _
    · exact .tail _ (.head _)

end

/-! ## The entry under the pointer -/

/-- Where something else may take the click, the entry that it is counted for is the one that
is shown under the pointer just if that has not happened over a row, and the pointer is not in
the border above the entries. -/
theorem entry_lit_iff {box : MenuBox} (sized : box.Sized) (mx my : Int) (taken : Prop)
    [Decidable taken] :
    (∀ i, (if taken then none else box.index mx my) = some i ↔ i ∈ box.lit mx my) ↔
      if taken then box.lit mx my = [] else ¬ box.InTopBorder mx my := by
  by_cases before : taken
  · simp only [if_pos before, reduceCtorEq, false_iff]
    exact List.eq_nil_iff_forall_not_mem.symm
  · simp only [if_neg before]
    exact box.index_lit_iff sized mx my

/-- A click while a menu is open runs the entry in whose row the pointer is shown, and no entry
where it is in none, just if the click gets to the menu and is not in the border above the
first entry, or does not get there and is over none of the rows. -/
theorem leftClick_runs_lit_iff (env : Env) (input : Input) (ui : Ui) :
    (ui.ctxMenu.visible = true →
      ui.ctxMenu.h = ui.ctxMenu.items.length * ctxMenuItemH + 8 →
      RunsEntry (leftClick env input ui) ((ctxMenuBox env ui).index input.mx input.my)
          (ctxMenuRun env ui) [pure (true, ui), pure (true, ctxMenuHide ui)] ∧
        ((∀ i, (ctxMenuBox env ui).index input.mx input.my = some i ↔
            i ∈ (ctxMenuBox env ui).lit input.mx input.my) ↔
          ¬ (ctxMenuBox env ui).InTopBorder input.mx input.my)) ∧
    (ui.launch.visible = true →
      RunsEntry (leftClick env input ui) (launchEntry env input ui) (launchRun env ui)
          [pure (true, ui), pure (true, { ui with launch := { ui.launch with visible := false } }),
            takenClick env input ui] ∧
        ((∀ i, launchEntry env input ui = some i ↔ i ∈ (launchBox ui).lit input.mx input.my) ↔
          if TakenBefore env input ui then (launchBox ui).lit input.mx input.my = []
          else ¬ (launchBox ui).InTopBorder input.mx input.my)) ∧
    ∀ menu, topmenuActiveWindow ui = true → ui.topmenuOpen = some menu →
      RunsEntry (leftClick env input ui) (topmenuEntry env input menu ui) (topmenuRun env menu ui)
          [windowClick env input (focusClicked input ui),
            pure (true, { ui with topmenuOpen := none }), takenClick env input ui, do
              let ui ← launchClick env input.mx input.my ui
              pure (true, ui)] ∧
        ((∀ i, topmenuEntry env input menu ui = some i ↔
            i ∈ (topmenuBox env menu).lit input.mx input.my) ↔
          if TakenBefore env input ui ∨ ui.launch.visible = true then
            (topmenuBox env menu).lit input.mx input.my = []
          else ¬ (topmenuBox env menu).InTopBorder input.mx input.my) := by
  refine ⟨fun visible height => ⟨leftClick_ctxMenu visible, ?_⟩,
    fun visible => ⟨leftClick_launch visible, ?_⟩,
    fun menu active isOpen => ⟨leftClick_topmenu active isOpen, ?_⟩⟩
  · exact MenuBox.index_lit_iff (ctxMenuBox_sized height) _ _
  · exact entry_lit_iff (launchBox_sized ui) _ _ _
  · exact entry_lit_iff (topmenuBox_sized env menu) _ _ _

/-- The launch menu, opened on a screen of 640 by 480 pixels. -/
def launchUi : Ui :=
  { Ui.initial blankVol with launch := ⟨true, 8, 352, launchCore⟩ }

/-- A click on the second entry, "Reboot". -/
theorem leftClick_runs_lit_iff_reboot :
    launchUi.launch.visible = true ∧
      ∀ i, launchEntry sampleEnv ⟨none, 20, 390, true, false, false, 0, false, true⟩ launchUi =
        some i ↔ i ∈ (launchBox launchUi).lit 20 390 :=
  ⟨rfl, ((leftClick_runs_lit_iff sampleEnv ⟨none, 20, 390, true, false, false, 0, false, true⟩
    launchUi).2.1 rfl).2.mpr (by decide)⟩

/-- A click in the border above the first entry logs the user out, though no row is shown under
the pointer. -/
theorem leftClick_border_logs_out :
    (launchBox launchUi).lit 20 354 = [] ∧
      launchEntry sampleEnv ⟨none, 20, 354, true, false, false, 0, false, true⟩ launchUi = some 0 ∧
      (leftClick sampleEnv ⟨none, 20, 354, true, false, false, 0, false, true⟩ { launchUi with
          login := { launchUi.login with active := false } } (Device.healthy fun _ _ => 0)).map
        (fun run => run.1.2.login.active) = some true := by
  decide

end ParanOS

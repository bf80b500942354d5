import ParanOS.Foundation.Grid
import ParanOS.Kernel.Login

/-! # The cells of the Explorer's list

`filewin_render` puts the items into cells of 96 by 80 pixels, row by row, up to the first row
that does not fit. A click is divided by the same sizes, but over the whole area of the list: at
the right and at the bottom there may be a part of a cell in which nothing is drawn.
-/

namespace ParanOS

open Foundation

/-- The area of the list. -/
def fileListRect (ui : Ui) : Rect :=
  let rect := ui.filewin.window.rect
  ⟨rect.wx + 140 + 6, rect.wy + 22 + 4, rect.ww - 140 - 12, rect.wh - 22 - 8⟩

def fileListCols (listW : Int) : Int := if Int.tdiv listW 96 > 0 then Int.tdiv listW 96 else 1

/-- The items that the loop of `filewin_render` draws from an index on, with the upper left
corners of their cells. -/
def fileCells (list : Rect) : (left i : Nat) → List (Nat × Int × Int)
  | 0, _ => []
  | left + 1, i =>
      let cols := fileListCols list.ww
      let cx := list.wx + Int.tmod i cols * 96
      let cy := list.wy + Int.tdiv i cols * 80
      if cy + 80 > list.wy + list.wh then [] else (i, cx, cy) :: fileCells list left (i + 1)

/-- The item is drawn in a cell with this point. -/
def DrawnAt (ui : Ui) (mx my : Int) (i : Nat) : Prop :=
  ∃ cx cy, (i, cx, cy) ∈ fileCells (fileListRect ui) ui.fileItems.length 0 ∧
    pointInRect mx my cx cy 96 80 = true

/-- The item that a click into the list selects. -/
def clickedItem (input : Input) (ui : Ui) : Option Nat :=
  (listHit input ui).bind fun idx =>
    if 0 ≤ idx ∧ idx.toNat < ui.fileItems.length then some idx.toNat else none

def selectFileItem (input : Input) (i : Nat) (ui : Ui) : Ui :=
  { ui with
    fileLastClick := input.jiffies
    fileLastIdx := some i
    filewin := { ui.filewin with selection := some i, pathFocus := false } }

/-- A double click opens the item that has been selected. -/
def openOnDoubleClick (env : Env) (input : Input) (i : Nat) (ui : Ui) : DiskM Ui :=
  match ui.fileItems[i]? with
  | none => pure ui
  | some item =>
      if ui.fileLastIdx = some i ∧ ticksSince ui.fileLastClick input.jiffies ≤ 50 then
        openFileItem env input item (selectFileItem input i ui)
      else pure (selectFileItem input i ui)

/-- The cell that the pointer is in has no item, or is in one of the columns and in a row that
fits. -/
def OnCell (input : Input) (ui : Ui) : Prop :=
  let list := fileListRect ui
  let cols := fileListCols list.ww
  let col := Int.tdiv (input.mx - list.wx) 96
  let row := Int.tdiv (input.my - list.wy) 80
  row * cols + col < ui.fileItems.length → col < cols ∧ (row + 1) * 80 ≤ list.wh

/-! ## Drawing -/

theorem fileListCols_pos (listW : Int) : 0 < fileListCols listW := by
  rw [fileListCols]
  split
  · assumption
  · decide

/-- Rows that fit come first, so the loop draws every item whose row fits. -/
theorem mem_fileCells {list : Rect} {cols : Nat} (columns : fileListCols list.ww = cols)
    {left i j : Nat} {cx cy : Int} :
    (j, cx, cy) ∈ fileCells list left i ↔ i ≤ j ∧ j < i + left ∧
      cx = list.wx + (j % cols : Nat) * 96 ∧ cy = list.wy + (j / cols : Nat) * 80 ∧
      (j / cols : Nat) * 80 + 80 ≤ list.wh := by
  have columnOf (index : Nat) : Int.tmod index cols = (index % cols : Nat) :=
    (Int.ofNat_tmod index cols).symm
  have rowOf (index : Nat) : Int.tdiv index cols = (index / cols : Nat) :=
    (Int.ofNat_tdiv index cols).symm
  induction left generalizing i with
  | zero =>
      constructor
      · intro none
        cases none
      · intro range
        omega
  | succ left induction =>
      rw [fileCells]
      rw [columns, columnOf, rowOf]
      by_cases full : list.wy + (i / cols : Nat) * 80 + 80 > list.wy + list.wh
      · rw [if_pos full]
        constructor
        · intro none
          cases none
        · rintro ⟨behind, _, _, _, fits⟩
          have later : i / cols ≤ j / cols := Nat.div_le_div_right behind
          omega
      · rw [if_neg full, List.mem_cons]
        apply (or_congr_right induction).trans
        constructor
        · intro drawn
          cases drawn with
          | inl here =>
              simp only [Prod.mk.injEq] at here
              rcases here with ⟨rfl, rfl, rfl⟩
              exact ⟨Nat.le_refl j, by omega, rfl, rfl, by omega⟩
          | inr later => exact ⟨by omega, by omega, later.2.2⟩
        · rintro ⟨behind, before, left, top, fits⟩
          by_cases here : j = i
          · subst here
            exact .inl (by rw [left, top])
          · exact .inr ⟨by omega, by omega, left, top, fits⟩

/-! ## Clicking -/

section

variable {env : Env} {input : Input} {ui : Ui}
  (inside : pointInRect input.mx input.my (fileListRect ui).wx (fileListRect ui).wy
    (fileListRect ui).ww (fileListRect ui).wh = true)
include inside

theorem listHit_inside :
    listHit input ui = some (Int.tdiv (input.my - (fileListRect ui).wy) 80 *
      fileListCols (fileListRect ui).ww + Int.tdiv (input.mx - (fileListRect ui).wx) 96) :=
  if_pos inside

/-- A click into the area of the list reaches the list. -/
theorem frontClick_list (front : ui.front = .file) (shown : ui.filewin.window.shown = true) :
    frontClick env input ui = match clickedItem input ui with
      | some i => do
          let ui ← openOnDoubleClick env input i ui
          pure (true, ui)
      | none => pure (true, ui) := by
  have bounds := of_decide_eq_true inside
  simp only [fileListRect] at bounds
  have noClose : closeHit input ui.filewin.window = false := by
    apply decide_eq_false
    omega
  have noPath : pointInRect input.mx input.my (ui.filewin.window.rect.wx + 8)
      ui.filewin.window.rect.wy (ui.filewin.window.rect.ww - 16) 22 = false := by
    apply decide_eq_false
    omega
  have noSidebar : sidebarHit env input ui = none := by
    have beside (row : Int) : pointInRect input.mx input.my (ui.filewin.window.rect.wx + 8)
        row 124 (env.psfHeight + 6) = false := by
      apply decide_eq_false
      omega
    simp only [sidebarHit, beside, Bool.false_eq_true, if_false]
  have reached : frontClick env input ui = filewinClick env input ui := by
    rw [frontClick, front]
    simp only [Ui.window, shown, noClose, Bool.not_true, Bool.false_eq_true, if_false, reduceCtorEq,
      if_true]
  rw [reached, filewinClick, noPath, noSidebar, listHit_inside inside, clickedItem,
    listHit_inside inside]
  simp only [Bool.false_eq_true, if_false, Option.bind_some]
  generalize Int.tdiv _ 80 * _ + _ = idx
  rw [listClick]
  by_cases before : idx < 0
  · rw [if_pos before, if_neg (by omega)]
    rfl
  · rw [if_neg before]
    by_cases listed : idx.toNat < ui.fileItems.length
    · rw [if_pos ⟨by omega, listed⟩]
      dsimp only
      rw [openOnDoubleClick, List.getElem?_eq_getElem listed]
      rfl
    · rw [if_neg (by omega), List.getElem?_eq_none (by omega)]
      rfl

/-- The item under a click into the list is the one whose cell is drawn there just if the
pointer is on a cell. -/
theorem clickedItem_drawn_iff :
    (∀ i, clickedItem input ui = some i ↔ DrawnAt ui input.mx input.my i) ↔ OnCell input ui := by
  have bounds := of_decide_eq_true inside
  have positive := fileListCols_pos (fileListRect ui).ww
  have hit := listHit_inside inside
  rw [OnCell]
  generalize listed : fileListRect ui = list at bounds positive hit ⊢
  obtain ⟨cols, columns⟩ := Int.eq_ofNat_of_zero_le (Int.le_of_lt positive)
  obtain ⟨col, colEq⟩ := Int.eq_ofNat_of_zero_le
    (Int.tdiv_nonneg (show 0 ≤ input.mx - list.wx by omega) (show (0 : Int) ≤ 96 by decide))
  obtain ⟨row, rowEq⟩ := Int.eq_ofNat_of_zero_le
    (Int.tdiv_nonneg (show 0 ≤ input.my - list.wy by omega) (show (0 : Int) ≤ 80 by decide))
  have across := (tdiv_eq_iff (by decide) (by omega)).mp colEq
  have down := (tdiv_eq_iff (by decide) (by omega)).mp rowEq
  rw [columns, colEq, rowEq] at hit
  rw [columns] at positive
  rw [columns, colEq, rowEq]
  have clicked (i : Nat) : clickedItem input ui = some i ↔
      row * cols + col = i ∧ i < ui.fileItems.length := by
    rw [clickedItem, hit, Option.bind_some]
    have number : ((row : Int) * cols + col).toNat = row * cols + col := by
      rw [← Int.natCast_mul, ← Int.natCast_add, Int.toNat_natCast]
    rw [number]
    by_cases below : row * cols + col < ui.fileItems.length
    · rw [if_pos ⟨by positivity, below⟩, Option.some.injEq]
      exact ⟨fun same => ⟨same, same ▸ below⟩, fun both => both.1⟩
    · rw [if_neg fun both => below both.2]
      exact ⟨fun none => absurd none (by simp), fun both => absurd (both.1 ▸ both.2) below⟩
  have drawn (i : Nat) : DrawnAt ui input.mx input.my i ↔ i < ui.fileItems.length ∧
      i / cols = row ∧ i % cols = col ∧ (row : Int) * 80 + 80 ≤ list.wh := by
    rw [DrawnAt, listed]
    constructor
    · rintro ⟨cx, cy, member, hit⟩
      rcases (mem_fileCells columns).mp member with ⟨_, below, rfl, rfl, fits⟩
      have cell := of_decide_eq_true hit
      have sameRow : i / cols = row := by omega
      have sameCol : i % cols = col := by omega
      exact ⟨by omega, sameRow, sameCol, by rw [← sameRow]; exact fits⟩
    · rintro ⟨below, sameRow, sameCol, fits⟩
      refine ⟨_, _, (mem_fileCells columns).mpr ⟨Nat.zero_le i, by omega, rfl, rfl, ?_⟩, ?_⟩
      · rw [sameRow]
        exact fits
      · rw [sameRow, sameCol]
        apply decide_eq_true
        omega
  simp only [clicked, drawn]
  constructor
  · intro alike below
    have cell := (alike (row * cols + col)).mp ⟨rfl, by exact_mod_cast below⟩
    have inRow := Nat.mod_lt (row * cols + col) (show 0 < cols by exact_mod_cast positive)
    omega
  · intro onCell i
    constructor
    · rintro ⟨rfl, below⟩
      have cell := onCell (by exact_mod_cast below)
      have place := (row_col_iff (show col < cols by omega)).mp (show row * cols + col = _ from rfl)
      exact ⟨below, place.1, place.2, by omega⟩
    · rintro ⟨below, sameRow, sameCol, _⟩
      have inRow := Nat.mod_lt i (show 0 < cols by exact_mod_cast positive)
      exact ⟨((row_col_iff (sameCol ▸ inRow)).mpr ⟨sameRow, sameCol⟩).symm, below⟩

/-- A click into the list of the Explorer in front selects the item that is drawn there, and
nothing where none is, just if the pointer is on a cell. -/
theorem frontClick_selects_drawn_iff (front : ui.front = .file)
    (shown : ui.filewin.window.shown = true) :
    (frontClick env input ui = match clickedItem input ui with
      | some i => do
          let ui ← openOnDoubleClick env input i ui
          pure (true, ui)
      | none => pure (true, ui)) ∧
    ((∀ i, clickedItem input ui = some i ↔ DrawnAt ui input.mx input.my i) ↔ OnCell input ui) :=
  ⟨frontClick_list inside front shown, clickedItem_drawn_iff inside⟩

end

/-! ## A narrow window -/

/-- The Explorer with two text files, in a window whose list is 100 pixels wide. -/
def narrowUi : Ui :=
  { Ui.initial blankVol with
    front := .file
    filewin := ⟨Window.zero.placed ⟨0, 24, 252, 300⟩ true, false, ascii "PARANOS", none⟩
    fileItems := [⟨ascii "A.TXT", 0x20, 1⟩, ⟨ascii "B.TXT", 0x20, 1⟩] }

def clickAt (mx my : Int) : Input := ⟨none, mx, my, true, false, false, 0, false, true⟩

/-- The point is in the cell of the first file. -/
theorem frontClick_selects_drawn_iff_narrow :
    OnCell (clickAt 150 55) narrowUi ∧
      ∀ i, clickedItem (clickAt 150 55) narrowUi = some i ↔ DrawnAt narrowUi 150 55 i := by
  have inside : pointInRect (clickAt 150 55).mx (clickAt 150 55).my (fileListRect narrowUi).wx
      (fileListRect narrowUi).wy (fileListRect narrowUi).ww (fileListRect narrowUi).wh = true := by
    decide
  have cell : OnCell (clickAt 150 55) narrowUi := by
    unfold OnCell
    decide
  have selects := @frontClick_selects_drawn_iff sampleEnv (clickAt 150 55) narrowUi inside rfl rfl
  exact ⟨cell, selects.2.mpr cell⟩

/-- Right of the first cell nothing is drawn, but a click there selects the file below. -/
theorem frontClick_selects_other_row :
    clickedItem (clickAt 245 55) narrowUi = some 1 ∧ ¬ DrawnAt narrowUi 245 55 1 ∧
      (frontClick sampleEnv (clickAt 245 55) narrowUi (Device.healthy fun _ _ => 0)).map
        (fun run => run.1.2.filewin.selection) = some (some 1) := by
  refine ⟨by decide, ?_, by decide⟩
  rintro ⟨cx, cy, member, hit⟩
  have cells : fileCells (fileListRect narrowUi) narrowUi.fileItems.length 0 =
      [(0, 146, 50), (1, 146, 130)] := by decide
  rw [cells] at member
  simp only [List.mem_cons, Prod.mk.injEq, Nat.one_ne_zero, false_and, true_and, false_or,
    List.not_mem_nil, or_false] at member
  rcases member with ⟨rfl, rfl⟩
  exact absurd hit (by decide)

end ParanOS

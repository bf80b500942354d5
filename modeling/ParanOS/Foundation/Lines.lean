import Mathlib.Data.List.Basic
import Mathlib.Data.List.TakeDrop

/-! # Lines and pieces of lines

A text is split into lines at a separator, and a line is cut into pieces of a
width. A beginning of the text shows a beginning of each line. Lists whose first
parts carry one key, and whose later parts carry other keys, are compared part by
part.
-/

namespace Foundation

/-! ## Lines -/

section

variable {α : Type} [DecidableEq α] {separator : α}

/-- What holds of a last line, and of a line in front of any text of which it
holds, holds of every text. -/
theorem linesInduction {motive : List α → Prop}
    (last : ∀ line, separator ∉ line → motive line)
    (next : ∀ line rest, separator ∉ line → motive rest → motive (line ++ separator :: rest))
    (text : List α) : motive text := by
  induction lines : text.splitOn separator generalizing text with
  | nil => exact absurd lines (List.splitOn_ne_nil separator text)
  | cons line others induction =>
      by_cases whole : separator ∈ text
      · rcases List.eq_append_cons_of_mem whole with ⟨before, after, equal, outside⟩
        rw [equal, List.splitOn_append_cons_self_of_not_mem outside] at lines
        rw [equal]
        exact next before after outside (induction after (List.cons.inj lines).2)
      · exact last text whole

end

/-- How much of each line a beginning of the text shows, where every line but the
last is followed by a separator. -/
def visibleLines {α : Type} : Nat → List (List α) → List (List α)
  | _, [] => []
  | shown, line :: rest => line.take shown :: visibleLines (shown - (line.length + 1)) rest

theorem visibleLines_zero {α : Type} (lines : List (List α)) :
    visibleLines 0 lines = List.replicate lines.length [] := by
  induction lines with
  | nil => rfl
  | cons line rest induction =>
      rw [visibleLines, List.take_zero, Nat.zero_sub, induction]
      rfl

/-! ## Pieces -/

section

variable {α : Type} {width : Nat}

/-- The pieces of a line, of which only the last may be shorter than the width. -/
def linePieces (width : Nat) (line : List α) : List (List α) :=
  (List.range ((line.length + (width - 1)) / width)).map fun index =>
    (line.drop (width * index)).take width

@[simp] theorem linePieces_nil (width : Nat) : linePieces width ([] : List α) = [] := by
  cases width with
  | zero => simp [linePieces]
  | succ width =>
      have none : (0 + (width + 1 - 1)) / (width + 1) = 0 := Nat.div_eq_of_lt (by omega)
      rw [linePieces, List.length_nil, none]
      rfl

theorem linePieces_cons (positive : 0 < width) {line : List α} (nonempty : line ≠ []) :
    linePieces width line = line.take width :: linePieces width (line.drop width) := by
  have long : 0 < line.length := List.length_pos_iff.mpr nonempty
  have count : (line.length + (width - 1)) / width =
      ((line.drop width).length + (width - 1)) / width + 1 := by
    rw [List.length_drop]
    by_cases short : line.length ≤ width
    · have none : (line.length - width + (width - 1)) / width = 0 := Nat.div_eq_of_lt (by omega)
      have one : (line.length + (width - 1)) / width = 1 :=
        Nat.div_eq_of_lt_le (by omega) (by omega)
      rw [none, one]
    · rw [← Nat.add_div_right _ positive]
      congr 1
      omega
  rw [linePieces, linePieces, count, List.range_succ_eq_map, List.map_cons, List.map_map,
    Nat.mul_zero, List.drop_zero]
  congr 1
  apply List.map_congr_left
  intro index _
  rw [Function.comp_apply, List.drop_drop, Nat.mul_succ, Nat.add_comm]

theorem linePieces_short {line : List α} (nonempty : line ≠ []) (short : line.length ≤ width) :
    linePieces width line = [line] := by
  have long : 0 < line.length := List.length_pos_iff.mpr nonempty
  rw [linePieces_cons (by omega) nonempty, List.take_of_length_le short,
    List.drop_of_length_le short, linePieces_nil]

end

/-! ## Comparing part by part -/

/-- The first values of two lists agree just if those of their first parts do, and then
as many of the others as there is room for: the key tells the parts apart. -/
theorem take_append_eq_iff_of_key {α κ : Type} [DecidableEq κ] (key : α → κ) (mark : κ)
    {first first' rest rest' : List α} (marked : ∀ value ∈ first, key value = mark)
    (marked' : ∀ value ∈ first', key value = mark) (other : ∀ value ∈ rest, key value ≠ mark)
    (other' : ∀ value ∈ rest', key value ≠ mark) (room : Nat) :
    (first ++ rest).take room = (first' ++ rest').take room ↔
      first.take room = first'.take room ∧
        rest.take (room - first'.length) = rest'.take (room - first'.length) := by
  have keeps : ∀ {part more : List α}, (∀ value ∈ part, key value = mark) →
      (∀ value ∈ more, key value ≠ mark) →
      ((part ++ more).take room).filter (fun value => key value = mark) = part.take room := by
    intro part more same different
    rw [List.take_append, List.filter_append, List.filter_eq_self.mpr, List.filter_eq_nil_iff.mpr,
      List.append_nil]
    · intro value member
      simpa using different value (List.mem_of_mem_take member)
    · intro value member
      simpa using same value (List.mem_of_mem_take member)
  constructor
  · intro equal
    have parts : first.take room = first'.take room := by
      rw [← keeps marked other, equal, keeps marked' other']
    refine ⟨parts, ?_⟩
    rw [List.take_append, List.take_append, parts, List.append_cancel_left_eq] at equal
    by_cases full : room ≤ first'.length
    · rw [Nat.sub_eq_zero_of_le full, List.take_zero, List.take_zero]
    · have lengths := congrArg List.length parts
      rw [List.length_take, List.length_take] at lengths
      rw [show first.length = first'.length by omega] at equal
      exact equal
  · intro agree
    rcases agree with ⟨parts, later⟩
    rw [List.take_append, List.take_append, parts]
    by_cases full : room ≤ first'.length
    · have lengths := congrArg List.length parts
      rw [List.length_take, List.length_take] at lengths
      rw [show room - first.length = 0 by omega, show room - first'.length = 0 by omega,
        List.take_zero, List.take_zero]
    · have lengths := congrArg List.length parts
      rw [List.length_take, List.length_take] at lengths
      rw [show first.length = first'.length by omega, later]

end Foundation

import ParanOS.Foundation.Lines
import ParanOS.Kernel.Login

/-! # The text that the editor shows

The loop of `notepad_render` collects characters and draws them when a line ends. It ends a line
at `\n`, and also when 120 characters have been collected; then the character that it has come to
is not collected.
-/

namespace ParanOS

open Foundation

/-- The loop, from a character of the buffer on: the lines that are drawn, given the place of
the next one and what has been collected for it. -/
def notepadLoop (fh bottom : Int) : (text : List UInt8) → (cy : Int) → (line : List UInt8) →
    List (List UInt8)
  | [], cy, line => if line ≠ [] ∧ cy + fh < bottom then [line] else []
  | c :: rest, cy, line =>
      if cy + fh < bottom then
        if c = 0x0A ∨ line.length ≥ 120 then line :: notepadLoop fh bottom rest (cy + (fh + 2)) []
        else notepadLoop fh bottom rest cy (line ++ [c])
      else if line ≠ [] ∧ cy + fh < bottom then [line] else []

/-- The strings that `notepad_render` passes to `draw_text` for the buffer. -/
def notepadDrawn (env : Env) (notepad : Notepad) : List (List UInt8) :=
  let rect := notepad.window.rect
  if !notepad.window.shown then []
  else (notepadLoop env.psfHeight (rect.wy + rect.wh - 6) notepad.text (rect.wy + 6 + 18) []).map
    fun line => line.takeWhile (· ≠ 0)

/-- The characters of a text that belong to its lines. -/
def shownChars (text : List UInt8) : List UInt8 := text.filter (· ≠ 0x0A)

/-- The window is tall enough for as many more lines. -/
def RoomFor (fh bottom cy : Int) (lines : Nat) : Prop :=
  ∀ number ≤ lines, cy + number * (fh + 2) + fh < bottom

instance (fh bottom cy : Int) (lines : Nat) : Decidable (RoomFor fh bottom cy lines) :=
  inferInstanceAs (Decidable (∀ number, number ≤ lines → _))

/-- The window is tall enough for all lines of its text. -/
def TallEnough (env : Env) (notepad : Notepad) : Prop :=
  let rect := notepad.window.rect
  RoomFor env.psfHeight (rect.wy + rect.wh - 6) (rect.wy + 6 + 18) (notepad.text.count 0x0A)

instance (env : Env) (notepad : Notepad) : Decidable (TallEnough env notepad) :=
  inferInstanceAs (Decidable (RoomFor _ _ _ _))

/-! ## The loop -/

section

variable {fh bottom : Int}

theorem notepadLoop_full {cy : Int} (full : ¬ cy + fh < bottom) (text line : List UInt8) :
    notepadLoop fh bottom text cy line = [] := by
  have closed : ¬ (line ≠ [] ∧ cy + fh < bottom) := fun both => full both.2
  cases text with
  | nil => rw [notepadLoop, if_neg closed]
  | cons c rest => rw [notepadLoop, if_neg full, if_neg closed]

/-- Characters are collected as long as there is room in the line. -/
theorem notepadLoop_collects {cy : Int} (room : cy + fh < bottom) {more : List UInt8}
    (outside : 0x0A ∉ more) (tail line : List UInt8) (short : line.length + more.length ≤ 120) :
    notepadLoop fh bottom (more ++ tail) cy line =
      notepadLoop fh bottom tail cy (line ++ more) := by
  induction more generalizing line with
  | nil => rw [List.nil_append, List.append_nil]
  | cons c more induction =>
      rw [List.length_cons] at short
      have different : c ≠ 0x0A := fun same => outside (same ▸ List.mem_cons_self)
      have goesOn : ¬ (c = 0x0A ∨ line.length ≥ 120) := by
        rintro (newline | full)
        · exact different newline
        · omega
      have later := induction (fun member => outside (List.mem_cons_of_mem c member)) (line ++ [c])
        (by rw [List.length_append, List.length_singleton]; omega)
      rw [List.cons_append, notepadLoop, if_pos room, if_neg goesOn, later, List.append_assoc]
      rfl

theorem notepadLoop_newline {cy : Int} (room : cy + fh < bottom) (rest line : List UInt8) :
    notepadLoop fh bottom (0x0A :: rest) cy line =
      line :: notepadLoop fh bottom rest (cy + (fh + 2)) [] := by
  rw [notepadLoop, if_pos room, if_pos (.inl rfl)]

/-- No character is drawn twice. -/
theorem notepadLoop_length_le (text : List UInt8) (cy : Int) (line : List UInt8) :
    (notepadLoop fh bottom text cy line).flatten.length ≤
      line.length + (shownChars text).length := by
  induction text generalizing cy line with
  | nil =>
      rw [notepadLoop]
      split
      · simp
      · exact Nat.zero_le _
  | cons c rest induction =>
      by_cases room : cy + fh < bottom
      · rw [notepadLoop, if_pos room]
        by_cases newline : c = 0x0A
        · have later := induction (cy + (fh + 2)) []
          rw [if_pos (.inl newline), List.flatten_cons, List.length_append, shownChars,
            List.filter_cons_of_neg (by simpa using newline)]
          rw [List.length_nil, shownChars] at later
          omega
        · rw [shownChars, List.filter_cons_of_pos (by simpa using newline), List.length_cons]
          split
          · have later := induction (cy + (fh + 2)) []
            rw [List.flatten_cons, List.length_append]
            rw [List.length_nil, shownChars] at later
            omega
          · have later := induction cy (line ++ [c])
            rw [List.length_append, List.length_singleton, shownChars] at later
            omega
      · rw [notepadLoop_full room]
        exact Nat.zero_le _

/-- A line that does not fit loses a character. -/
theorem notepadLoop_length_lt {more : List UInt8} (outside : 0x0A ∉ more) (tail : List UInt8)
    (cy : Int) (line : List UInt8) (long : 120 < line.length + more.length)
    (collected : line.length ≤ 120) :
    (notepadLoop fh bottom (more ++ tail) cy line).flatten.length <
      line.length + more.length + (shownChars tail).length := by
  induction more generalizing line with
  | nil =>
      rw [List.length_nil] at long
      omega
  | cons c more induction =>
      by_cases room : cy + fh < bottom
      · have apart : 0x0A ∉ more := fun member => outside (List.mem_cons_of_mem c member)
        have different : c ≠ 0x0A := fun same => outside (same ▸ List.mem_cons_self)
        rw [List.length_cons] at long ⊢
        rw [List.cons_append, notepadLoop, if_pos room]
        by_cases full : line.length ≥ 120
        · -- this is the character that is lost
          have kept : shownChars more = more := by
            rw [shownChars, List.filter_eq_self]
            intro other member
            simpa using fun same : other = 0x0A => apart (same ▸ member)
          have later := @notepadLoop_length_le fh bottom (more ++ tail) (cy + (fh + 2)) []
          rw [List.length_nil, shownChars, List.filter_append, List.length_append] at later
          rw [shownChars] at kept
          rw [kept] at later
          rw [if_pos (.inr full), List.flatten_cons, List.length_append, shownChars]
          omega
        · have later := induction apart (line ++ [c])
            (by rw [List.length_append, List.length_singleton]; omega)
            (by rw [List.length_append, List.length_singleton]; omega)
          rw [if_neg (not_or.mpr ⟨different, full⟩)]
          rw [List.length_append, List.length_singleton] at later
          omega
      · rw [notepadLoop_full room, List.flatten_nil, List.length_nil]
        omega

theorem RoomFor.next {cy : Int} {lines : Nat} (room : RoomFor fh bottom cy (lines + 1)) :
    RoomFor fh bottom (cy + (fh + 2)) lines := by
  intro number bound
  have later := room (number + 1) (Nat.succ_le_succ bound)
  rw [Int.natCast_add, Int.natCast_one, Int.add_mul, Int.one_mul] at later
  omega

theorem RoomFor.first {cy : Int} {lines : Nat} (room : RoomFor fh bottom cy lines) :
    cy + fh < bottom := by
  have now := room 0 (Nat.zero_le lines)
  rwa [Int.natCast_zero, Int.zero_mul, Int.add_zero] at now

/-! ## The lines of a text -/

theorem shownChars_of_not_mem {line : List UInt8} (outside : 0x0A ∉ line) :
    shownChars line = line := by
  rw [shownChars, List.filter_eq_self]
  intro c member
  simpa using fun same : c = 0x0A => outside (same ▸ member)

theorem shownChars_line {line : List UInt8} (outside : 0x0A ∉ line) (rest : List UInt8) :
    shownChars (line ++ 0x0A :: rest) = line ++ shownChars rest := by
  rw [shownChars, List.filter_append, List.filter_cons_of_neg (by simp), ← shownChars,
    shownChars_of_not_mem outside, ← shownChars]

/-- No line of the text is wrapped. -/
def Unwrapped (text : List UInt8) : Prop := ∀ line ∈ text.splitOn 0x0A, line.length ≤ 120

instance (text : List UInt8) : Decidable (Unwrapped text) := List.decidableBAll _ _

theorem unwrapped_line {line : List UInt8} (outside : 0x0A ∉ line) :
    Unwrapped line ↔ line.length ≤ 120 := by
  rw [Unwrapped, List.splitOn_eq_singleton outside, List.forall_mem_singleton]

theorem unwrapped_next {line : List UInt8} (outside : 0x0A ∉ line) (rest : List UInt8) :
    Unwrapped (line ++ 0x0A :: rest) ↔ line.length ≤ 120 ∧ Unwrapped rest := by
  rw [Unwrapped, List.splitOn_append_cons_self_of_not_mem outside, List.forall_mem_cons, Unwrapped]

theorem count_line {line : List UInt8} (outside : 0x0A ∉ line) (rest : List UInt8) :
    (line ++ 0x0A :: rest).count 0x0A = rest.count 0x0A + 1 := by
  rw [List.count_append, List.count_eq_zero.mpr outside, List.count_cons_self, Nat.zero_add]

/-- If no line is wrapped, all characters are drawn. -/
theorem notepadLoop_unwrapped (text : List UInt8) {cy : Int}
    (room : RoomFor fh bottom cy (text.count 0x0A)) (unwrapped : Unwrapped text) :
    (notepadLoop fh bottom text cy []).flatten = shownChars text := by
  induction text using @linesInduction UInt8 _ 0x0A generalizing cy with
  | last line outside =>
      have short := (unwrapped_line outside).mp unwrapped
      have all := notepadLoop_collects room.first outside [] [] (by simpa using short)
      rw [List.append_nil, List.nil_append] at all
      rw [all, notepadLoop, shownChars_of_not_mem outside]
      cases line with
      | nil => rfl
      | cons c line =>
          rw [if_pos ⟨List.cons_ne_nil c line, room.first⟩, List.flatten_singleton]
  | next line rest outside induction =>
      rw [count_line outside] at room
      rcases (unwrapped_next outside rest).mp unwrapped with ⟨short, others⟩
      have all := notepadLoop_collects room.first outside (0x0A :: rest) [] (by simpa using short)
      rw [List.nil_append] at all
      rw [all, notepadLoop_newline room.first, List.flatten_cons, induction room.next others,
        shownChars_line outside]

/-- If a line is wrapped, fewer characters are drawn than there are. -/
theorem notepadLoop_wrapped (text : List UInt8) {cy : Int} (wrapped : ¬ Unwrapped text) :
    (notepadLoop fh bottom text cy []).flatten.length < (shownChars text).length := by
  induction text using @linesInduction UInt8 _ 0x0A generalizing cy with
  | last line outside =>
      have long : 120 < line.length := by rwa [unwrapped_line outside, not_le] at wrapped
      have lost := @notepadLoop_length_lt fh bottom line outside [] cy []
        (by rwa [List.length_nil, Nat.zero_add]) (Nat.zero_le 120)
      rw [List.append_nil] at lost
      rwa [shownChars_of_not_mem outside, ← Nat.zero_add line.length]
  | next line rest outside induction =>
      rw [shownChars_line outside, List.length_append]
      by_cases long : 120 < line.length
      · have lost := @notepadLoop_length_lt fh bottom line outside (0x0A :: rest) cy []
          (by rwa [List.length_nil, Nat.zero_add]) (Nat.zero_le 120)
        rwa [List.length_nil, Nat.zero_add] at lost
      · have short := Nat.le_of_not_lt long
        have other : ¬ Unwrapped rest := fun all =>
          wrapped ((unwrapped_next outside rest).mpr ⟨short, all⟩)
        by_cases room : cy + fh < bottom
        · have all := notepadLoop_collects room outside (0x0A :: rest) [] (by simpa using short)
          have later := @induction (cy + (fh + 2)) other
          rw [List.nil_append] at all
          rw [all, notepadLoop_newline room, List.flatten_cons, List.length_append]
          omega
        · have some := @induction cy other
          rw [notepadLoop_full room, List.flatten_nil, List.length_nil]
          omega

end

/-! ## The end of a string -/

/-- A string ends at the first NUL, so nothing is added to what was collected. -/
theorem flatten_takeWhile_length_le (lines : List (List UInt8)) :
    (lines.map fun line => line.takeWhile (· ≠ 0)).flatten.length ≤ lines.flatten.length := by
  induction lines with
  | nil => exact Nat.le_refl 0
  | cons line rest induction =>
      have shorter := (@List.takeWhile_prefix _ line fun c => decide (c ≠ 0)).length_le
      rw [List.map_cons, List.flatten_cons, List.flatten_cons, List.length_append,
        List.length_append]
      exact Nat.add_le_add shorter induction

theorem zero_notMem_takeWhile (lines : List (List UInt8)) :
    0 ∉ (lines.map fun line => line.takeWhile (· ≠ 0)).flatten := by
  intro member
  rcases List.mem_flatten.mp member with ⟨line, isDrawn, ends⟩
  rcases List.mem_map.mp isDrawn with ⟨whole, _, rfl⟩
  simpa using List.mem_takeWhile_imp ends

theorem map_takeWhile_eq_self {lines : List (List UInt8)} (nulFree : 0 ∉ lines.flatten) :
    (lines.map fun line => line.takeWhile (· ≠ 0)) = lines := by
  have whole : ∀ line ∈ lines, line.takeWhile (· ≠ 0) = line := by
    intro line member
    rw [List.takeWhile_eq_self_iff]
    intro c inLine
    have belongs := List.mem_flatten.mpr ⟨line, member, inLine⟩
    simpa using fun same : c = 0 => nulFree (same ▸ belongs)
  rw [List.map_congr_left whole, List.map_id']

/-- For every buffer and every window that is tall enough, the strings that are drawn are the
buffer without its newlines just if no line is longer than 120 characters and no character is
NUL. -/
theorem notepadDrawn_flatten_iff (env : Env) (notepad : Notepad)
    (shown : notepad.window.shown = true) (tall : TallEnough env notepad) :
    (notepadDrawn env notepad).flatten = shownChars notepad.text ↔
      Unwrapped notepad.text ∧ 0 ∉ notepad.text := by
  have drawn : notepadDrawn env notepad =
      (notepadLoop env.psfHeight (notepad.window.rect.wy + notepad.window.rect.wh - 6) notepad.text
        (notepad.window.rect.wy + 6 + 18) []).map fun line => line.takeWhile (· ≠ 0) := by
    rw [notepadDrawn, shown]
    rfl
  rw [drawn]
  constructor
  · intro same
    constructor
    · by_contra wrapped
      have lost := @notepadLoop_wrapped env.psfHeight
        (notepad.window.rect.wy + notepad.window.rect.wh - 6) notepad.text
        (notepad.window.rect.wy + 6 + 18) wrapped
      have shorter := flatten_takeWhile_length_le (notepadLoop env.psfHeight
        (notepad.window.rect.wy + notepad.window.rect.wh - 6) notepad.text
        (notepad.window.rect.wy + 6 + 18) [])
      rw [same] at shorter
      omega
    · intro member
      have absent := zero_notMem_takeWhile (notepadLoop env.psfHeight
        (notepad.window.rect.wy + notepad.window.rect.wh - 6) notepad.text
        (notepad.window.rect.wy + 6 + 18) [])
      rw [same] at absent
      exact absent (List.mem_filter.mpr ⟨member, by decide⟩)
  · rintro ⟨unwrapped, nulFree⟩
    have all := notepadLoop_unwrapped notepad.text tall unwrapped
    have nulFree' : 0 ∉ shownChars notepad.text := fun member =>
      nulFree (List.mem_filter.mp member).1
    rw [← all] at nulFree'
    rw [map_takeWhile_eq_self nulFree', all]

/-- An editor with a text, of which about twenty lines can be shown. -/
def smallEditor (text : List UInt8) : Notepad :=
  ⟨{ Window.zero with isOpen := true, rect := ⟨10, 30, 400, 400⟩ }, [], text, []⟩

/-- Two short lines. -/
theorem notepadDrawn_flatten_iff_lines :
    let env : Env := ⟨true, 640, 480, 8, 16, false, false, 0⟩
    (notepadDrawn env (smallEditor (ascii "one\ntwo"))).flatten =
      shownChars (ascii "one\ntwo") := by
  intro env
  have tall : TallEnough env (smallEditor (ascii "one\ntwo")) := by decide +kernel
  have unwrapped : Unwrapped (ascii "one\ntwo") := by decide +kernel
  exact (notepadDrawn_flatten_iff env (smallEditor (ascii "one\ntwo")) rfl tall).mpr
    ⟨unwrapped, by decide +kernel⟩

/-- Of a line of 122 characters the one at which it is wrapped is not drawn. -/
theorem notepadDrawn_drops_wrap :
    let env : Env := ⟨true, 640, 480, 8, 16, false, false, 0⟩
    let line := List.replicate 120 0x61
    let notepad := smallEditor (line ++ ascii "bc")
    TallEnough env notepad ∧ notepadDrawn env notepad = [line, ascii "c"] ∧
      shownChars notepad.text = line ++ ascii "bc" := by
  decide +kernel

end ParanOS

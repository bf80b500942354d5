import ParanOS.Kernel.Accounts

/-! # Where the editor saves

The editor takes the path it was opened with apart, into a directory and a name of at most 12
characters, and joins both again when it saves. For a file in a directory the result leads where
the path led, as long as that fits into the editor's array and the name is one that
`sanitize_txt_name` leaves as it is.
-/

namespace ParanOS

open Foundation

/-- The path that the editor saves to when it has been opened with this one. -/
def savePath (ui : Ui) (path : List UInt8) : List UInt8 :=
  let name := sanitizeTxtName 32 (copyInto 13 (pathBase path))
  let dir := pathDirname 96 (copyInto 96 path)
  if dir = [] then desktopPathForName ui name else pathJoin 96 dir name

/-! ## Names -/

/-- The characters that `sanitize_txt_name` lets through. -/
def NameChar (char : UInt8) : Prop :=
  char = 0x2E ∨ (0x41 ≤ char ∧ char ≤ 0x5A) ∨ (0x30 ≤ char ∧ char ≤ 0x39) ∨ char = 0x5F

instance (char : UInt8) : Decidable (NameChar char) := inferInstanceAs (Decidable (_ ∨ _))

/-- The loop goes on where it was when it saw the front of the name. -/
theorem sanitizeLoop_append (size : Nat) (front rest : List UInt8) (state : List UInt8 × Bool) :
    sanitizeLoop size (front ++ rest) state =
      sanitizeLoop size rest (sanitizeLoop size front state) := by
  induction front generalizing state with
  | nil => rfl
  | cons char front induction =>
      rcases state with ⟨out, hasDot⟩
      rw [List.cons_append, sanitizeLoop, sanitizeLoop]
      by_cases room : out.length + 1 < size
      · simp only [if_pos room, induction]
        split_ifs <;> rfl
      · rw [if_neg room, if_neg room]
        cases rest with
        | nil => rfl
        | cons char rest => rw [sanitizeLoop, if_neg room]

/-- What the loop does with a character: it keeps one for it or none, and notes a dot. -/
theorem sanitizeLoop_cons {size : Nat} {out : List UInt8} (room : out.length + 1 < size)
    (char : UInt8) (rest : List UInt8) (hasDot : Bool) :
    ∃ kept : Option UInt8, (∀ other ∈ kept, NameChar other) ∧
      sanitizeLoop size (char :: rest) (out, hasDot) =
        sanitizeLoop size rest (out ++ kept.toList, hasDot || char == 0x2E) := by
  rw [sanitizeLoop, if_pos room]
  dsimp only
  by_cases dot : char = 0x2E
  · rw [if_pos dot]
    cases hasDot with
    | true => exact ⟨none, by simp, by simp⟩
    | false => exact ⟨some 0x2E, by simp [NameChar], by simp [dot]⟩
  · have noDot : (char == 0x2E) = false := beq_eq_false_iff_ne.mpr dot
    rw [if_neg dot, noDot, Bool.or_false]
    generalize toUpper (if char = 0x20 then 0x5F else char) = upper
    by_cases allowed : (0x41 ≤ upper ∧ upper ≤ 0x5A) ∨ (0x30 ≤ upper ∧ upper ≤ 0x39) ∨ upper = 0x5F
    · refine ⟨some upper, ?_, by simp [allowed]⟩
      intro other same
      rw [← Option.some.inj same]
      exact .inr allowed
    · exact ⟨none, by simp, by simp [allowed]⟩

/-- The loop adds at most one character for each one that it sees. -/
theorem sanitizeLoop_adds (size : Nat) (source out : List UInt8) (hasDot : Bool) :
    ∃ added, (sanitizeLoop size source (out, hasDot)).1 = out ++ added ∧
      added.length ≤ source.length ∧ ∀ char ∈ added, NameChar char := by
  induction source generalizing out hasDot with
  | nil => exact ⟨[], (List.append_nil out).symm, Nat.le_refl 0, by simp⟩
  | cons char rest induction =>
      by_cases room : out.length + 1 < size
      · rcases sanitizeLoop_cons room char rest hasDot with ⟨kept, keptAllowed, step⟩
        rcases induction (out ++ kept.toList) (hasDot || char == 0x2E) with
          ⟨added, grown, short, allowed⟩
        have single : kept.toList.length ≤ 1 := by cases kept <;> simp
        refine ⟨kept.toList ++ added, by rw [step, grown, List.append_assoc], ?_, ?_⟩
        · rw [List.length_append, List.length_cons]
          omega
        · intro other member
          cases List.mem_append.mp member with
          | inl first => exact keptAllowed other (Option.mem_toList.mp first)
          | inr later => exact allowed other later
      · rw [sanitizeLoop, if_neg room]
        exact ⟨[], (List.append_nil out).symm, Nat.zero_le _, by simp⟩

/-- A dot is seen unless the name is full before. -/
theorem sanitizeLoop_dotless {size : Nat} {source out out' : List UInt8} {hasDot : Bool}
    (ran : sanitizeLoop size source (out, hasDot) = (out', false))
    (room : out'.length + 1 < size) : hasDot = false ∧ 0x2E ∉ source := by
  induction source generalizing out hasDot with
  | nil =>
      cases ran
      exact ⟨rfl, List.not_mem_nil⟩
  | cons char rest induction =>
      have inside : out.length + 1 < size := by
        rcases sanitizeLoop_adds size (char :: rest) out hasDot with ⟨added, grown, _⟩
        rw [ran] at grown
        have length : out'.length = out.length + added.length := by
          rw [← List.length_append, ← grown]
        omega
      rcases sanitizeLoop_cons inside char rest hasDot with ⟨kept, _, step⟩
      rw [step] at ran
      have later := induction ran
      rw [Bool.or_eq_false_iff, beq_eq_false_iff_ne] at later
      refine ⟨later.1.1, ?_⟩
      intro member
      cases List.mem_cons.mp member with
      | inl same => exact later.1.2 same.symm
      | inr inRest => exact later.2 inRest

/-- What `sanitize_txt_name` leaves as it is, its loop leaves as it is. -/
theorem sanitizeLoop_fixed {size : Nat} {name : List UInt8}
    (fixed : sanitizeTxtName size name = name) : (sanitizeLoop size name ([], false)).1 = name := by
  rw [sanitizeTxtName] at fixed
  generalize ran : sanitizeLoop size name ([], false) = result at fixed ⊢
  rcases result with ⟨out, hasDot⟩
  cases hasDot with
  | true => exact fixed
  | false =>
      dsimp only at fixed ⊢
      rw [if_neg Bool.false_ne_true] at fixed
      cases suffix : (ascii ".TXT").take (size - 1 - out.length) with
      | nil => rwa [suffix, List.append_nil] at fixed
      | cons dot rest =>
          -- the dot that was added would have been seen
          have room : out.length + 1 < size := by
            have length := congrArg List.length suffix
            rw [List.length_take, List.length_cons] at length
            omega
          have isDot : dot = 0x2E := by
            have head := congrArg List.head? suffix
            rw [List.head?_take, if_neg (by omega)] at head
            exact (Option.some.inj head).symm
          have member : (0x2E : UInt8) ∈ name := by
            rw [← fixed, suffix, ← isDot]
            simp
          exact absurd member (sanitizeLoop_dotless ran room).2

theorem nameChar_of_fixed {size : Nat} {name : List UInt8}
    (fixed : sanitizeTxtName size name = name) : ∀ char ∈ name, NameChar char := by
  rcases sanitizeLoop_adds size name [] false with ⟨added, grown, _, allowed⟩
  rw [sanitizeLoop_fixed fixed, List.nil_append] at grown
  exact grown ▸ allowed

/-- The front of such a name is kept, and what is added behind it is an extension. -/
theorem sanitizeTxtName_take {size : Nat} {name : List UInt8}
    (fixed : sanitizeTxtName size name = name) (count : Nat) :
    ∃ suffix, sanitizeTxtName size (name.take count) = name.take count ++ suffix ∧
      (∀ char ∈ suffix, NameChar char) ∧ (name.length ≤ count → suffix = []) := by
  have whole := sanitizeLoop_fixed fixed
  rw [← List.take_append_drop count name, sanitizeLoop_append] at whole
  generalize ran : sanitizeLoop size (name.take count) ([], false) = result at whole
  rcases result with ⟨out, hasDot⟩
  rcases sanitizeLoop_adds size (name.drop count) out hasDot with ⟨later, grown, shortLater, _⟩
  rcases sanitizeLoop_adds size (name.take count) [] false with ⟨front, grownFront, short, _⟩
  rw [ran, List.nil_append] at grownFront
  dsimp only at grownFront
  rw [grown] at whole
  rw [← grownFront] at short
  -- neither part can be shorter than what it comes from
  have kept : out = name.take count := by
    have length := congrArg List.length whole
    rw [List.length_append, List.length_append] at length
    exact (List.append_inj whole (by omega)).1
  rw [sanitizeTxtName, ran, kept]
  cases hasDot with
  | true => exact ⟨[], by simp, by simp, fun _ => rfl⟩
  | false =>
      refine ⟨_, by dsimp only; rw [if_neg Bool.false_ne_true], ?_, ?_⟩
      · intro char member
        have extension : ∀ char ∈ ascii ".TXT", NameChar char := by decide +kernel
        exact extension char (List.mem_of_mem_take member)
      · intro complete
        have same : name.take count = name := List.take_of_length_le complete
        rw [same] at ran kept ⊢
        rw [sanitizeTxtName, ran, kept] at fixed
        dsimp only at fixed
        rw [if_neg Bool.false_ne_true] at fixed
        exact List.append_right_eq_self.mp fixed

/-! ## Paths -/

/-- A path without its drive letter. -/
def withoutDrive : List UInt8 → List UInt8
  | drive :: colon :: rest => if colon = 0x3A then rest else drive :: colon :: rest
  | path => path

theorem components_skipDrivePrefix (limit : Nat) (path : List UInt8) :
    components limit (skipDrivePrefix path) = components limit (withoutDrive path) := by
  match path with
  | [] => rfl
  | [drive] => exact components_dropSlashes limit [drive]
  | drive :: colon :: rest =>
      rw [skipDrivePrefix, withoutDrive]
      split
      · exact components_dropSlashes limit rest
      · exact components_dropSlashes limit (drive :: colon :: rest)

/-- A directory and what follows it are split apart, unless the latter makes a drive letter of the
slash. -/
theorem components_joined {limit : Nat} (dir : List UInt8) {rest : List UInt8}
    (noColon : rest.head? ≠ some 0x3A) :
    components limit (skipDrivePrefix (dir ++ 0x2F :: rest)) =
      components limit (withoutDrive dir) ++ components limit rest := by
  rw [components_skipDrivePrefix, ← components_append]
  congr 1
  match dir with
  | [] =>
      cases rest with
      | nil => rfl
      | cons char rest =>
          have other : char ≠ 0x3A := fun same => noColon (congrArg some same)
          exact if_neg other
  | [drive] => rfl
  | drive :: colon :: dir =>
      rw [List.cons_append, List.cons_append, withoutDrive, withoutDrive]
      split <;> rfl

/-- A path with a directory is the directory, a slash and the name. -/
theorem pathDirname_append {path : List UInt8} (short : path.length < 96)
    (inside : pathDirname 96 path ≠ []) :
    path = pathDirname 96 path ++ 0x2F :: pathBase path := by
  have joined : path.rdropWhile (· ≠ 0x2F) ++ pathBase path = path :=
    List.rdropWhile_append_rtakeWhile
  have front : path.rdropWhile (· ≠ 0x2F) ≠ [] := by
    intro none
    rw [pathDirname, none] at inside
    exact inside rfl
  have slash : (path.rdropWhile (· ≠ 0x2F)).getLast front = 0x2F := by
    simpa using List.rdropWhile_last_not (· ≠ (0x2F : UInt8)) path front
  have length := congrArg List.length joined
  rw [List.length_append] at length
  have whole : pathDirname 96 path = (path.rdropWhile (· ≠ 0x2F)).dropLast := by
    apply List.take_of_length_le
    rw [List.length_dropLast]
    omega
  have ended := List.dropLast_append_getLast front
  rw [slash] at ended
  rw [whole, ← List.singleton_append, ← List.append_assoc, ended]
  exact joined.symm

/-- Joining puts one slash between a directory and a name, where there is none. -/
theorem pathJoin_components {dir name : List UInt8} (given : dir ≠ []) (short : dir.length < 95)
    (noColon : name.head? ≠ some 0x3A) :
    ∃ room, 94 - dir.length ≤ room ∧ components 12 (skipDrivePrefix (pathJoin 96 dir name)) =
      components 12 (withoutDrive dir) ++ components 12 (name.take room) := by
  have whole : dir.take (96 - 1) = dir := List.take_of_length_le (by omega)
  have head (room : Nat) : (name.take room).head? ≠ some 0x3A := by
    rw [List.head?_take]
    split
    · simp
    · exact noColon
  rw [pathJoin, whole]
  by_cases slash : dir.getLast? = some 0x2F
  · rcases List.getLast?_eq_some_iff.mp slash with ⟨front, rfl⟩
    refine ⟨95 - (front ++ [0x2F]).length, by omega, ?_⟩
    rw [if_neg fun cut => cut.2.1 slash, List.append_assoc]
    have none := @components_joined 12 front [] (by simp)
    rw [components_skipDrivePrefix] at none
    have nothing : components 12 [] = [] := rfl
    rw [none, nothing, List.append_nil]
    exact components_joined front (head _)
  · refine ⟨95 - (dir ++ [0x2F]).length, ?_, ?_⟩
    · rw [List.length_append, List.length_singleton]
      omega
    · rw [if_pos ⟨given, slash, by omega⟩, List.append_assoc]
      exact components_joined dir (head _)

theorem mem_pathJoin {size : Nat} {dir name : List UInt8} {char : UInt8}
    (member : char ∈ pathJoin size dir name) : char ∈ dir ∨ char = 0x2F ∨ char ∈ name := by
  have inDir : char ∈ dir.take (size - 1) → char ∈ dir := List.mem_of_mem_take
  rw [pathJoin] at member
  rcases List.mem_append.mp member with front | back
  · split at front
    · rcases List.mem_append.mp front with first | slash
      · exact .inl (inDir first)
      · exact .inr (.inl (List.mem_singleton.mp slash))
    · exact .inl (inDir front)
  · exact .inr (.inr (List.mem_of_mem_take back))

theorem NameChar.ne {char : UInt8} (allowed : NameChar char) :
    char ≠ 0 ∧ char ≠ 0x2F ∧ char ≠ 0x3A := by
  revert allowed
  rcases char with ⟨bits⟩
  revert bits
  decide

/-- A file in a directory is saved where it was opened. -/
theorem savePath_components (ui : Ui) {path : CString}
    (fixed : sanitizeTxtName 32 (pathBase path.chars) = pathBase path.chars)
    (short : path.chars.length < 96) (inside : pathDirname 96 path.chars ≠ []) :
    (CString.ofArray (savePath ui path.chars)).components83 = path.components83 := by
  have split := pathDirname_append short inside
  have allowed := nameChar_of_fixed fixed
  have uncut : copyInto 96 path.chars = path.chars := List.take_of_length_le (by omega)
  have saved : savePath ui path.chars = pathJoin 96 (pathDirname 96 path.chars)
      (sanitizeTxtName 32 ((pathBase path.chars).take 12)) := by
    rw [savePath, uncut, if_neg inside]
    rfl
  rw [saved]
  have nulFree := path.nulFree
  have length := congrArg List.length split
  rw [List.length_append, List.length_cons] at length
  rcases sanitizeTxtName_take fixed 12 with ⟨suffix, taken, suffixAllowed, complete⟩
  rw [taken]
  rw [CString.components83, CString.components83]
  generalize pathDirname 96 path.chars = dir at split inside length
  generalize pathBase path.chars = base at fixed split allowed length complete
  have named : base ≠ [] := by
    intro empty
    rw [empty] at fixed
    exact absurd fixed (by decide)
  have cutAllowed : ∀ char ∈ base.take 12 ++ suffix, NameChar char := by
    intro char member
    cases List.mem_append.mp member with
    | inl front => exact allowed char (List.mem_of_mem_take front)
    | inr back => exact suffixAllowed char back
  have noColon {name : List UInt8} (allowed : ∀ char ∈ name, NameChar char) :
      name.head? ≠ some 0x3A :=
    fun head => (allowed _ (List.mem_of_head? head)).ne.2.2 rfl
  have joinFree : ∀ char ∈ pathJoin 96 dir (base.take 12 ++ suffix), char ≠ 0 := by
    intro char member
    rcases mem_pathJoin member with inDir | slash | inName
    · exact nulFree char (by rw [split]; exact List.mem_append_left _ inDir)
    · rw [slash]
      decide
    · exact (cutAllowed char inName).ne.1
  rcases pathJoin_components inside (show dir.length < 95 by omega) (noColon cutAllowed) with
    ⟨room, enough, joined⟩
  rw [ofArray_chars joinFree, joined, split, components_joined dir (noColon allowed),
    components_single named fun char member => (allowed char member).ne.2.1]
  congr 1
  -- the first 12 characters are all that the driver looks at
  have front : ((base.take 12 ++ suffix).take room).take 12 = base.take 12 := by
    by_cases whole : base.length ≤ 12
    · rw [complete whole, List.append_nil, List.take_of_length_le whole,
        List.take_of_length_le (show base.length ≤ room by omega), List.take_of_length_le whole]
    · have cut : (base.take 12).length = 12 := by
        rw [List.length_take]
        omega
      rw [List.take_take, Nat.min_eq_left (show 12 ≤ room by omega), List.take_left' cut]
  have given : (base.take 12 ++ suffix).take room ≠ [] := by
    intro empty
    rw [empty, List.take_nil] at front
    exact named (by simpa using front.symm)
  rw [components_single given, front]
  intro char member
  exact (cutAllowed char (List.mem_of_mem_take member)).ne.2.1

end ParanOS

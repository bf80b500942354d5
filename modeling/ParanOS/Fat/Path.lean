import Mathlib.Data.List.DropRight
import Mathlib.Data.List.TakeDrop
import Mathlib.Data.List.TakeWhile
import ParanOS.Foundation.Bytes

/-! # Paths and short names

Path splitting and 8.3 encoding of `fs_fat32.c`. A path pointer is the list of
characters still to be read; the walkers of the driver are then recursions over
the components the splitting loop produces.
-/

namespace ParanOS

/-- A C string: the characters before the terminating NUL. -/
structure CString where
  chars : List UInt8
  nulFree : ∀ char ∈ chars, char ≠ 0

/-- The string that a character array holds. -/
def CString.ofArray (chars : List UInt8) : CString where
  chars := chars.takeWhile (· ≠ 0)
  nulFree := by
    intro char member
    simpa using List.mem_takeWhile_imp member

def skipDrivePrefix : List UInt8 → List UInt8
  | drive :: colon :: rest =>
      if colon = 0x3A then rest.dropWhile (· = 0x2F)
      else (drive :: colon :: rest).dropWhile (· = 0x2F)
  | path => path.dropWhile (· = 0x2F)

/-- `next_path_component` and `get_component`: skip slashes, then read up to
the next slash, of which at most `limit` characters are stored. The result is
the component and the path behind it. -/
def component (limit : Nat) (path : List UInt8) : Option (List UInt8 × List UInt8) :=
  match path.dropWhile (· = 0x2F) with
  | [] => none
  | char :: rest =>
      some (((char :: rest).takeWhile (· ≠ 0x2F)).take limit,
        (char :: rest).dropWhile (· ≠ 0x2F))

def nextPathComponent : List UInt8 → Option (List UInt8 × List UInt8) := component 12

def getComponent : List UInt8 → Option (List UInt8 × List UInt8) := component 255

def pathHasMore (path : List UInt8) : Bool :=
  !(path.dropWhile (· = 0x2F)).isEmpty

/-- The components that a splitting loop sees within a number of rounds. -/
def componentRounds (limit : Nat) : Nat → List UInt8 → List (List UInt8)
  | 0, _ => []
  | rounds + 1, path =>
      match component limit path with
      | none => []
      | some (comp, rest) => comp :: componentRounds limit rounds rest

/-- The components that the loop over a path sees. -/
def components (limit : Nat) (path : List UInt8) : List (List UInt8) :=
  componentRounds limit path.length path

/-- Components of a path as the FAT32 functions split it. -/
def CString.components83 (path : CString) : List (List UInt8) :=
  components 12 (skipDrivePrefix path.chars)

/-- Components of a path as the exFAT functions split it. -/
def CString.componentsLong (path : CString) : List (List UInt8) :=
  components 255 (skipDrivePrefix path.chars)

def toUpper (char : UInt8) : UInt8 :=
  if 0x61 ≤ char ∧ char ≤ 0x7A then char - 32 else char

/-- Pad with spaces. -/
def padTo (width : Nat) (chars : List UInt8) : List UInt8 :=
  chars ++ List.replicate (width - chars.length) 0x20

def makeName83 (name : List UInt8) : List UInt8 :=
  let base := (name.takeWhile (· ≠ 0x2E)).take 8
  let rest := name.drop base.length
  let rest := if rest.head? = some 0x2E then rest.tail else rest
  padTo 8 (base.map toUpper) ++ padTo 3 ((rest.take 3).map toUpper)

/-! ## The splitting loop -/

theorem component_rest_length {limit : Nat} {path comp rest : List UInt8}
    (split : component limit path = some (comp, rest)) : rest.length < path.length := by
  unfold component at split
  cases shape : path.dropWhile (· = 0x2F) with
  | nil => simp [shape] at split
  | cons char tail =>
      simp only [shape, Option.some.injEq, Prod.mk.injEq] at split
      have head : char ≠ 0x2F := by
        have := List.head?_dropWhile_not (· = (0x2F : UInt8)) path
        rw [shape] at this
        simpa using this
      have shorter : (path.dropWhile (· = 0x2F)).length ≤ path.length :=
        (List.dropWhile_sublist _).length_le
      have tailShorter : (tail.dropWhile (· ≠ 0x2F)).length ≤ tail.length :=
        (List.dropWhile_sublist _).length_le
      rw [shape] at shorter
      rw [← split.2, List.dropWhile_cons_of_pos (by simpa using head)]
      simp only [List.length_cons] at shorter
      omega

private theorem componentRounds_enough {limit : Nat} (rounds : Nat) :
    ∀ (rounds' : Nat) (path : List UInt8), path.length ≤ rounds → path.length ≤ rounds' →
      componentRounds limit rounds path = componentRounds limit rounds' path := by
  induction rounds with
  | zero =>
      intro rounds' path enough _
      have empty : path = [] := List.length_eq_zero_iff.mp (by omega)
      subst empty
      cases rounds' <;> rfl
  | succ rounds induction =>
      intro rounds' path enough enough'
      cases rounds' with
      | zero =>
          have empty : path = [] := List.length_eq_zero_iff.mp (by omega)
          subst empty
          rfl
      | succ rounds' =>
          simp only [componentRounds]
          cases split : component limit path with
          | none => rfl
          | some result =>
              have shorter := component_rest_length split
              simp only
              rw [induction rounds' result.2 (by omega) (by omega)]

/-- One round of the loop, then the loop over the rest of the path. -/
theorem components_eq (limit : Nat) (path : List UInt8) :
    components limit path =
      match component limit path with
      | none => []
      | some (comp, rest) => comp :: components limit rest := by
  cases path with
  | nil => rfl
  | cons char tail =>
      cases split : component limit (char :: tail) with
      | none => simp [components, componentRounds, split]
      | some result =>
          have shorter := component_rest_length split
          simp only [components, List.length_cons, componentRounds, split]
          rw [componentRounds_enough tail.length result.2.length result.2
            (by simpa using Nat.le_of_lt_succ shorter) (Nat.le_refl _)]

/-- Reading up to a slash does not go past one. -/
theorem upTo_slash (path rest : List UInt8) :
    (path ++ 0x2F :: rest).takeWhile (· ≠ 0x2F) = path.takeWhile (· ≠ 0x2F) ∧
      (path ++ 0x2F :: rest).dropWhile (· ≠ 0x2F) = path.dropWhile (· ≠ 0x2F) ++ 0x2F :: rest := by
  induction path with
  | nil => simp
  | cons char path induction =>
      by_cases slash : char = 0x2F
      · simp [slash]
      · simp only [List.cons_append, List.takeWhile_cons, List.dropWhile_cons]
        simpa [slash] using induction

/-- The pieces of a path are those before a slash and those behind it. -/
theorem components_append (limit : Nat) (path rest : List UInt8) :
    components limit (path ++ 0x2F :: rest) = components limit path ++ components limit rest := by
  induction length : path.length using Nat.strongRecOn generalizing path with
  | _ length induction =>
      rw [components_eq limit path, components_eq limit (path ++ 0x2F :: rest), component,
        component, List.dropWhile_append]
      cases shape : path.dropWhile (· = 0x2F) with
      | nil =>
          rw [components_eq limit rest, component]
          simp
      | cons char tail =>
          have split : component limit path =
              some (((char :: tail).takeWhile (· ≠ 0x2F)).take limit,
                (char :: tail).dropWhile (· ≠ 0x2F)) := by
            rw [component, shape]
          have shorter := component_rest_length split
          have later := induction _ (length ▸ shorter) _ rfl
          have ends := upTo_slash (char :: tail) rest
          simp only [List.isEmpty_cons, Bool.false_eq_true, if_false, List.cons_append] at ends ⊢
          rw [ends.1, ends.2, later]

/-- A name without slashes is one component. -/
theorem components_single {limit : Nat} {name : List UInt8} (named : name ≠ [])
    (noSlash : ∀ char ∈ name, char ≠ 0x2F) : components limit name = [name.take limit] := by
  cases name with
  | nil => exact absurd rfl named
  | cons char rest =>
      have head : char ≠ 0x2F := noSlash char List.mem_cons_self
      have all : ∀ other ∈ char :: rest, decide (other ≠ 0x2F) = true := by
        intro other member
        simpa using noSlash other member
      have whole : (char :: rest).takeWhile (· ≠ 0x2F) = char :: rest :=
        List.takeWhile_eq_self_iff.mpr all
      have nothing : (char :: rest).dropWhile (· ≠ 0x2F) = [] :=
        List.dropWhile_eq_nil_iff.mpr all
      have split : component limit (char :: rest) = some ((char :: rest).take limit, []) := by
        rw [component, List.dropWhile_cons_of_neg (by simpa using head)]
        simp only [whole, nothing]
      rw [components_eq, split]
      rfl

/-- Slashes in front of a path do not matter. -/
theorem components_dropSlashes (limit : Nat) (path : List UInt8) :
    components limit (path.dropWhile (· = 0x2F)) = components limit path := by
  rw [components_eq limit path, components_eq limit (path.dropWhile _), component, component,
    List.dropWhile_idempotent]

/-- `path_has_more` behind a component tells whether the loop runs again. -/
theorem pathHasMore_eq (limit : Nat) (path : List UInt8) :
    pathHasMore path = !(components limit path).isEmpty := by
  rw [components_eq]
  unfold pathHasMore component
  cases path.dropWhile (· = 0x2F) <;> rfl

theorem component_chars {limit : Nat} {path comp rest : List UInt8}
    (split : component limit path = some (comp, rest)) :
    (∀ char ∈ comp, char ∈ path) ∧ (∀ char ∈ rest, char ∈ path) ∧
      comp.length ≤ limit ∧ (0 < limit → comp ≠ []) := by
  unfold component at split
  cases shape : path.dropWhile (· = 0x2F) with
  | nil => simp [shape] at split
  | cons char tail =>
      simp only [shape, Option.some.injEq, Prod.mk.injEq] at split
      have within : ∀ other ∈ char :: tail, other ∈ path := by
        intro other member
        rw [← shape] at member
        exact (List.dropWhile_sublist _).subset member
      have head : char ≠ 0x2F := by
        have := List.head?_dropWhile_not (· = (0x2F : UInt8)) path
        rw [shape] at this
        simpa using this
      rcases split with ⟨rfl, rfl⟩
      refine ⟨fun other member => within other ?_, fun other member => within other ?_, ?_, ?_⟩
      · exact (List.takeWhile_sublist _).subset (List.mem_of_mem_take member)
      · exact (List.dropWhile_sublist _).subset member
      · exact (List.length_take_le _ _)
      · intro positive
        rw [List.takeWhile_cons_of_pos (by simpa using head)]
        cases limit with
        | zero => omega
        | succ limit => simp

/-- Every component is a non-empty, bounded selection of the path's
characters. -/
theorem components_chars {limit : Nat} (positive : 0 < limit) (path : List UInt8) :
    ∀ comp ∈ components limit path,
      comp ≠ [] ∧ comp.length ≤ limit ∧ ∀ char ∈ comp, char ∈ path := by
  induction size : path.length using Nat.strongRecOn generalizing path with
  | ind size induction =>
      intro comp member
      rw [components_eq] at member
      cases split : component limit path with
      | none => simp [split] at member
      | some result =>
          have facts := component_chars split
          simp only [split] at member
          rcases List.mem_cons.mp member with rfl | later
          · exact ⟨facts.2.2.2 positive, facts.2.2.1, facts.1⟩
          · have shorter := component_rest_length split
            have inner := induction result.2.length (by omega) result.2 rfl comp later
            exact ⟨inner.1, inner.2.1, fun char inside => facts.2.1 char (inner.2.2 char inside)⟩

theorem skipDrivePrefix_subset (path : List UInt8) :
    ∀ char ∈ skipDrivePrefix path, char ∈ path := by
  intro char member
  match path with
  | [] => simp [skipDrivePrefix] at member
  | [single] =>
      rw [skipDrivePrefix] at member
      · exact (List.dropWhile_sublist _).subset member
      · simp
  | drive :: colon :: rest =>
      simp only [skipDrivePrefix] at member
      split at member
      · have inside := (List.dropWhile_sublist _).subset member
        simp [inside]
      · exact (List.dropWhile_sublist _).subset member

theorem components83_chars (path : CString) :
    ∀ comp ∈ path.components83, comp ≠ [] ∧ ∀ char ∈ comp, char ≠ 0 := by
  intro comp member
  have facts := components_chars (by omega) _ comp member
  exact ⟨facts.1, fun char inside => path.nulFree char
    (skipDrivePrefix_subset _ char (facts.2.2 char inside))⟩

theorem componentsLong_chars (path : CString) :
    ∀ comp ∈ path.componentsLong,
      comp ≠ [] ∧ comp.length ≤ 255 ∧ ∀ char ∈ comp, char ≠ 0 := by
  intro comp member
  have facts := components_chars (by omega) _ comp member
  exact ⟨facts.1, facts.2.1, fun char inside => path.nulFree char
    (skipDrivePrefix_subset _ char (facts.2.2 char inside))⟩

/-! ## Short names -/

theorem padTo_length {width : Nat} {chars : List UInt8} (fits : chars.length ≤ width) :
    (padTo width chars).length = width := by
  simp only [padTo, List.length_append, List.length_replicate]
  omega

theorem makeName83_length (name : List UInt8) : (makeName83 name).length = 11 := by
  simp only [makeName83, List.length_append]
  rw [padTo_length (by rw [List.length_map, List.length_take]; omega),
    padTo_length (by rw [List.length_map, List.length_take]; omega)]

theorem toUpper_toUpper (char : UInt8) : toUpper (toUpper char) = toUpper char := by
  unfold toUpper
  split
  · next letter =>
      rw [if_neg]
      simp only [UInt8.le_iff_toNat_le, UInt8.toNat_sub, UInt8.reduceToNat] at letter ⊢
      omega
  · rfl

theorem toUpper_eq_iff_of_not_letter {char other : UInt8}
    (upper : ¬ (0x41 ≤ other ∧ other ≤ 0x5A)) (lower : ¬ (0x61 ≤ other ∧ other ≤ 0x7A)) :
    toUpper char = other ↔ char = other := by
  unfold toUpper
  split
  · next letter =>
      constructor
      · intro equal
        exfalso
        apply upper
        subst equal
        simp only [UInt8.le_iff_toNat_le, UInt8.toNat_sub, UInt8.reduceToNat] at letter ⊢
        omega
      · intro equal
        subst equal
        exact absurd letter lower
  · rfl

/-- The first byte of a short name is a space, or the upper-cased first
character of the component. -/
theorem makeName83_head (char : UInt8) (rest : List UInt8) :
    (makeName83 (char :: rest)).getD 0 0 = if char = 0x2E then 0x20 else toUpper char := by
  simp only [makeName83]
  by_cases dot : char = 0x2E
  · subst dot
    simp [padTo]
  · simp [padTo, dot]

theorem makeName83_head_ne_zero {comp : List UInt8} (nonempty : comp ≠ [])
    (nulFree : ∀ char ∈ comp, char ≠ 0) : (makeName83 comp).getD 0 0 ≠ 0 := by
  cases comp with
  | nil => exact absurd rfl nonempty
  | cons char rest =>
      rw [makeName83_head]
      split
      · decide
      · rw [Ne, toUpper_eq_iff_of_not_letter (by decide) (by decide)]
        exact nulFree char (by simp)

/-- A short name starts with the mark of a deleted entry exactly when the
component starts with that byte. -/
theorem makeName83_head_deleted {comp : List UInt8} (nonempty : comp ≠ []) :
    (makeName83 comp).getD 0 0 = 0xE5 ↔ comp.head? = some 0xE5 := by
  cases comp with
  | nil => exact absurd rfl nonempty
  | cons char rest =>
      rw [makeName83_head, List.head?_cons, Option.some.injEq]
      split
      · next dot =>
          subst dot
          decide
      · exact toUpper_eq_iff_of_not_letter (by decide) (by decide)

end ParanOS
